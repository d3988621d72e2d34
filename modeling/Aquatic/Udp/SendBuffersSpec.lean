import Aquatic.Udp.SendBuffers

/-!
# Which send buffers are in flight

The search for a free buffer starts behind the one found last. While the worker is sending,
completions are not looked at, so that the buffers before that place are all in flight. Once
completions come in this is lost, and holds again when the place is put back to the start.
-/

namespace Aquatic.Udp.Uring
open Protocol Transition
set_option autoImplicit false

/-- Where the kernel sends the buffer. -/
def SendBuffer.receiver (buffer : SendBuffer) : SocketAddr :=
  match buffer.msgName with
  | .v4 => ⟨.v4 buffer.nameV4.1, buffer.nameV4.2⟩
  | .v6 => ⟨.v6 buffer.nameV6.1, buffer.nameV6.2⟩

/-- The buffer holds the response and its receiver. -/
structure Slot.Carries (slot : Slot) (sendToIpv4Socket : Bool) (addr : CanonicalSocketAddr)
    (response : Response) : Prop where
  bytes : slot.2.bytes.toList.take slot.2.iovLen = response.writeBytes
  receiver : slot.2.receiver = if sendToIpv4Socket then addr.addr else getIpv6Mapped addr
  responseType : slot.1.responseType = .fromResponse response
  receiverIsIpv4 : slot.1.receiverIsIpv4 = addr.isIpv4

theorem setName_spec {buffer buffer' : SendBuffer} {addr : CanonicalSocketAddr}
    {sendToIpv4Socket : Bool} (h : buffer.setName addr sendToIpv4Socket = some buffer') :
    buffer'.receiver = (if sendToIpv4Socket then addr.addr else getIpv6Mapped addr) ∧
      (sendToIpv4Socket || addr.isIpv4) = addr.isIpv4 := by
  obtain ⟨⟨ip, port⟩, hcanonical⟩ := addr
  cases sendToIpv4Socket <;> cases ip <;> cases h <;> exact ⟨rfl, rfl⟩

theorem isSome_setName (buffer : SendBuffer) {addr : CanonicalSocketAddr} {sendToIpv4Socket : Bool}
    (h : sendToIpv4Socket = true → addr.isIpv4 = true) :
    (buffer.setName addr sendToIpv4Socket).isSome = true := by
  obtain ⟨⟨ip, port⟩, hcanonical⟩ := addr
  cases sendToIpv4Socket <;> cases ip
  · rfl
  · rfl
  · rfl
  · cases h rfl

/-- What fits is written, and can be read back. -/
theorem take_overwrite {n : Nat} (bytes : Vector UInt8 n) {written : List UInt8}
    (h : written.length ≤ n) : (overwrite bytes written).toList.take written.length = written := by
  apply List.ext_getElem
  · simpa using h
  · intro i hi hi'
    simp [overwrite, List.getD_eq_getElem?_getD, List.getElem?_eq_getElem hi']

theorem receiver_setBytes (buffer : SendBuffer) (bytes : Vector UInt8 responseBufLen)
    (iovLen : Nat) : { buffer with bytes, iovLen }.receiver = buffer.receiver := rfl

theorem Slot.prepareEntry_spec {slot slot' : Slot} {response : Response}
    {addr : CanonicalSocketAddr} {sendToIpv4Socket : Bool} {entryFd : Option SocketIdentifier}
    (h : slot.prepareEntry response addr sendToIpv4Socket = some (slot', entryFd)) :
    slot'.1.free = slot.1.free ∧
      (entryFd.isSome = true → slot'.Carries sendToIpv4Socket addr response) := by
  obtain ⟨buffer, hbuffer, h⟩ := Option.bind_eq_some_iff.mp h
  obtain ⟨hreceiver, hipv4⟩ := setName_spec hbuffer
  rw [← receiver_setBytes buffer (overwrite buffer.bytes response.writeBytes)
    response.writeBytes.length] at hreceiver
  cases hwritten : response.serialize responseBufLen with
  | none =>
    simp only [hwritten] at h
    cases h
    refine ⟨rfl, fun hsome => ?_⟩
    cases hsome
  | some written =>
    simp only [hwritten] at h
    cases h
    rw [Response.serialize] at hwritten
    split at hwritten
    · rename_i hfits
      cases hwritten
      exact ⟨rfl, fun _ => ⟨take_overwrite buffer.bytes hfits, hreceiver, rfl, hipv4⟩⟩
    · cases hwritten

namespace SendBuffers
variable {pool after : SendBuffers} {index : Nat} {slot : Slot}

/-- The first free buffer from the place on. -/
structure Found (pool : SendBuffers) (index : Nat) (slot : Slot) : Prop where
  found : pool.nextFreeIndex = some index
  there : pool.buffers[index]? = some slot
  isFree : slot.1.free = true
  first : ∀ i slot, pool.likelyNextFreeIndex ≤ i → i < index → pool.buffers[i]? = some slot →
    slot.1.free = false

theorem found_of_nextFreeIndex (h : pool.nextFreeIndex = some index) :
    ∃ slot, pool.Found index slot := by
  have hnext := h
  rw [nextFreeIndex] at h
  split at h
  · cases h
  obtain ⟨found, hfound, rfl⟩ := Option.map_eq_some_iff.mp h
  obtain ⟨hlength, hfree, hbefore⟩ := List.findIdx?_eq_some_iff_getElem.mp hfound
  have hslot := List.getElem?_eq_getElem hlength
  refine ⟨_, hnext, List.getElem?_drop.symm.trans hslot, hfree, ?_⟩
  intro i slot hle hlt hslot
  have hi : i - pool.likelyNextFreeIndex < found := by omega
  have hget := hbefore _ hi
  have hdrop : (pool.buffers.drop pool.likelyNextFreeIndex)[i - pool.likelyNextFreeIndex]? =
      some slot := by
    rw [List.getElem?_drop, Nat.add_sub_cancel' hle, hslot]
  rw [List.getElem?_eq_getElem (Nat.lt_trans hi hlength)] at hdrop
  rw [Option.some.inj hdrop] at hget
  exact Bool.eq_false_iff.mpr hget

theorem nextFreeIndex_eq_none (h : pool.nextFreeIndex = none) :
    ∀ i slot, pool.likelyNextFreeIndex ≤ i → pool.buffers[i]? = some slot →
      slot.1.free = false := by
  intro i slot hle hslot
  obtain ⟨hi, _⟩ := List.getElem?_eq_some_iff.mp hslot
  rw [nextFreeIndex, if_neg (by omega), Option.map_eq_none_iff, List.findIdx?_eq_none_iff] at h
  apply Bool.eq_false_iff.mpr
  refine fun hfree => absurd (h slot ?_) (by simp [hfree])
  apply List.mem_of_getElem? (i := i - pool.likelyNextFreeIndex)
  rw [List.getElem?_drop, Nat.add_sub_cancel' hle, hslot]

variable {sendToIpv4Socket : Bool} {response : Response} {addr : CanonicalSocketAddr}
  {result : Except Error Entry}

/-- An IPv4 socket is not asked to send to an IPv6 address. -/
theorem isSome_prepareEntry (pool : SendBuffers) (response : Response)
    (h : sendToIpv4Socket = true → addr.isIpv4 = true) :
    (pool.prepareEntry sendToIpv4Socket response addr).isSome = true := by
  rw [prepareEntry]
  cases hindex : pool.nextFreeIndex with
  | none => rfl
  | some index =>
    obtain ⟨slot, hfound⟩ := found_of_nextFreeIndex hindex
    obtain ⟨buffer, hbuffer⟩ := Option.isSome_iff_exists.mp (isSome_setName slot.2 h)
    simp only [hfound.there, Slot.prepareEntry, hbuffer, Option.bind_eq_bind, Option.bind_some]
    cases response.serialize responseBufLen with
    | none => rfl
    | some written => rfl

theorem prepareEntry_cases
    (h : pool.prepareEntry sendToIpv4Socket response addr = some (after, result)) :
    (result = .error (.noBuffers response) ∧ after = pool ∧
      ∀ i slot, pool.likelyNextFreeIndex ≤ i → pool.buffers[i]? = some slot →
        slot.1.free = false) ∨
    ∃ index slot slot', pool.Found index slot ∧
      ((∃ fd, result = .ok ⟨fd, index⟩ ∧
          after = { pool.setSlot index slot' with likelyNextFreeIndex := index + 1 } ∧
          slot'.1.free = false ∧ slot'.Carries sendToIpv4Socket addr response) ∨
        (result = .error .serializationFailed ∧ after = pool.setSlot index slot' ∧
          slot'.1.free = true)) := by
  rw [prepareEntry] at h
  cases hindex : pool.nextFreeIndex with
  | none =>
    rw [hindex] at h
    cases h
    exact .inl ⟨rfl, rfl, nextFreeIndex_eq_none hindex⟩
  | some index =>
    rw [hindex] at h
    obtain ⟨slot, hfound⟩ := found_of_nextFreeIndex hindex
    simp only [hfound.there, Option.bind_eq_bind, Option.bind_some] at h
    obtain ⟨⟨slot', entryFd⟩, hprepared, h⟩ := Option.bind_eq_some_iff.mp h
    obtain ⟨hsame, hcarries⟩ := Slot.prepareEntry_spec hprepared
    cases entryFd with
    | some fd =>
      obtain ⟨hbytes, hreceiver, htype, hipv4⟩ := hcarries rfl
      cases h
      refine .inr ⟨index, slot, _, hfound, .inl ⟨fd, rfl, rfl, rfl, ?_⟩⟩
      exact ⟨hbytes, hreceiver, htype, hipv4⟩
    | none =>
      cases h
      refine .inr ⟨index, slot, slot', hfound, .inr ⟨rfl, rfl, ?_⟩⟩
      rw [hsame, hfound.isFree]

end SendBuffers

section Held
variable {buffers : List Slot} {inFlight : List InFlight} {index : Nat} {slot slot' : Slot}

def indices (inFlight : List InFlight) : List Nat := inFlight.map InFlight.index

/-- Just the buffers in flight are not free, each for one entry, and hold what it is to send. -/
structure Held (buffers : List Slot) (inFlight : List InFlight) : Prop where
  distinct : (indices inFlight).Nodup
  carried : ∀ e ∈ inFlight, ∃ slot, buffers[e.index]? = some slot ∧ slot.1.free = false ∧
    slot.Carries e.sendToIpv4Socket e.addr e.response
  known : ∀ i slot, buffers[i]? = some slot → slot.1.free = false → i ∈ indices inFlight

theorem getElem?_set_of_some (hslot : buffers[index]? = some slot) (slot' : Slot) (i : Nat) :
    (buffers.set index slot')[i]? = if i = index then some slot' else buffers[i]? := by
  obtain ⟨hlength, _⟩ := List.getElem?_eq_some_iff.mp hslot
  rw [List.getElem?_set]
  by_cases hi : i = index
  · simp [hi, hlength]
  · simp [hi, Ne.symm hi]

theorem Held.not_mem_of_free (h : Held buffers inFlight) (hslot : buffers[index]? = some slot)
    (hfree : slot.1.free = true) : index ∉ indices inFlight := by
  intro hmem
  obtain ⟨e, he, rfl⟩ := List.mem_map.mp hmem
  obtain ⟨slot', hslot', htaken, _⟩ := h.carried e he
  rw [hslot] at hslot'
  obtain rfl := Option.some.inj hslot'
  rw [hfree] at htaken
  cases htaken

/-- A buffer that is in use when another one has become free was in use before. -/
theorem used_of_set_free (hslot : buffers[index]? = some slot) (hfree : slot'.1.free = true)
    {i : Nat} {used : Slot} (hi : (buffers.set index slot')[i]? = some used)
    (hused : used.1.free = false) : i ≠ index ∧ buffers[i]? = some used := by
  rw [getElem?_set_of_some hslot] at hi
  split at hi
  · obtain rfl := Option.some.inj hi
    rw [hfree] at hused
    cases hused
  · rename_i hne
    exact ⟨hne, hi⟩

/-- A buffer that is not in flight may be written to. -/
theorem Held.setFree (h : Held buffers inFlight) (hslot : buffers[index]? = some slot)
    (hindex : index ∉ indices inFlight) (hfree : slot'.1.free = true) :
    Held (buffers.set index slot') inFlight := by
  refine ⟨h.distinct, ?_, ?_⟩
  · intro e he
    have hne : e.index ≠ index := fun heq => hindex (heq ▸ List.mem_map_of_mem he)
    rw [getElem?_set_of_some hslot, if_neg hne]
    exact h.carried e he
  · intro i used hi hused
    exact h.known i used (used_of_set_free hslot hfree hi hused).2 hused

theorem Held.handOut (h : Held buffers inFlight) (hslot : buffers[index]? = some slot)
    (hindex : index ∉ indices inFlight) (hused : slot'.1.free = false) {sendToIpv4Socket : Bool}
    {addr : CanonicalSocketAddr} {response : Response}
    (hcarries : slot'.Carries sendToIpv4Socket addr response) :
    Held (buffers.set index slot') (⟨index, sendToIpv4Socket, addr, response⟩ :: inFlight) := by
  refine ⟨List.nodup_cons.mpr ⟨hindex, h.distinct⟩, ?_, ?_⟩
  · intro e he
    rw [getElem?_set_of_some hslot]
    rcases List.mem_cons.mp he with rfl | he
    · exact ⟨slot', if_pos rfl, hused, hcarries⟩
    · have hne : e.index ≠ index := fun heq => hindex (heq ▸ List.mem_map_of_mem he)
      rw [if_neg hne]
      exact h.carried e he
  · intro i slot hi hused
    rw [getElem?_set_of_some hslot] at hi
    split at hi
    · rename_i heq
      exact List.mem_cons.mpr (.inl heq)
    · exact List.mem_cons_of_mem _ (h.known i slot hi hused)

theorem Held.giveBack (h : Held buffers inFlight) (hslot : buffers[index]? = some slot)
    (hfree : slot'.1.free = true) :
    Held (buffers.set index slot') (inFlight.filter fun e => e.index ≠ index) := by
  have hsublist : (indices (inFlight.filter fun e => e.index ≠ index)).Sublist (indices inFlight) :=
    List.filter_sublist.map _
  refine ⟨hsublist.nodup h.distinct, ?_, ?_⟩
  · intro e he
    obtain ⟨he, hne⟩ := List.mem_filter.mp he
    rw [getElem?_set_of_some hslot, if_neg (of_decide_eq_true hne)]
    exact h.carried e he
  · intro i used hi hused
    obtain ⟨hne, hold⟩ := used_of_set_free hslot hfree hi hused
    obtain ⟨e, he, rfl⟩ := List.mem_map.mp (h.known i used hold hused)
    exact List.mem_map_of_mem (List.mem_filter.mpr ⟨he, decide_eq_true hne⟩)

end Held

namespace Cycle
variable {capacity : Nat} {s s' : Cycle}

/-- While sending, the buffers before the place where the search starts are in flight. -/
structure Sound (capacity : Nat) (s : Cycle) : Prop where
  length : s.sendBuffers.buffers.length = capacity
  held : Held s.sendBuffers.buffers s.inFlight
  below : s.phase = .sending → ∀ i, i < s.sendBuffers.likelyNextFreeIndex → i < capacity →
    i ∈ indices s.inFlight
  ordered : s.queued = s.taken ++ s.localResponses

theorem Sound.of_completing (length : s.sendBuffers.buffers.length = capacity)
    (held : Held s.sendBuffers.buffers s.inFlight) (hphase : s.phase = .completing)
    (ordered : s.queued = s.taken ++ s.localResponses) : s.Sound capacity where
  length := length
  held := held
  below := by
    intro hsending
    rw [hphase] at hsending
    cases hsending
  ordered := ordered

theorem sound_init (capacity : Nat) (optSocketIpv4 optSocketIpv6 : Bool) :
    (init capacity optSocketIpv4 optSocketIpv6).Sound capacity where
  length := List.length_replicate
  held := by
    refine ⟨List.nodup_nil, ?_, ?_⟩
    · intro e he
      cases he
    · intro i slot hslot hused
      obtain rfl := List.eq_of_mem_replicate (List.mem_of_getElem? hslot)
      cases hused
  below := by
    intro _ i hi
    cases hi
  ordered := rfl

/-- Nothing free from the place on means nothing free at all. -/
theorem Sound.all_inFlight (h : s.Sound capacity) (hphase : s.phase = .sending)
    (hused : ∀ i slot, s.sendBuffers.likelyNextFreeIndex ≤ i →
      s.sendBuffers.buffers[i]? = some slot → slot.1.free = false) :
    ∀ i < capacity, i ∈ indices s.inFlight := by
  intro i hi
  by_cases hbelow : i < s.sendBuffers.likelyNextFreeIndex
  · exact h.below hphase i hbelow hi
  · have hlength : i < s.sendBuffers.buffers.length := by rw [h.length]; exact hi
    have hslot := List.getElem?_eq_getElem hlength
    exact h.held.known i _ hslot (hused i _ (Nat.le_of_not_lt hbelow) hslot)

theorem Sound.below_found (h : s.Sound capacity) (hphase : s.phase = .sending) {index : Nat}
    {slot : Slot} (hfound : s.sendBuffers.Found index slot) :
    ∀ i < index, i ∈ indices s.inFlight := by
  intro i hi
  obtain ⟨hindex, _⟩ := List.getElem?_eq_some_iff.mp hfound.there
  by_cases hbelow : i < s.sendBuffers.likelyNextFreeIndex
  · exact h.below hphase i hbelow (by rw [← h.length]; omega)
  · have hlength : i < s.sendBuffers.buffers.length := by omega
    have hslot := List.getElem?_eq_getElem hlength
    exact h.held.known i _ hslot (hfound.first i _ (Nat.le_of_not_lt hbelow) hi hslot)

theorem sound_send (h : s.Sound capacity) (hphase : s.phase = .sending)
    (hsend : s.send = some s') : s'.Sound capacity := by
  rw [send] at hsend
  split at hsend
  · cases hsend
  rename_i addr response localResponses hresponses
  have hordered := h.ordered
  rw [hresponses] at hordered
  obtain ⟨sendToIpv4Socket, _, hsend⟩ := Option.bind_eq_some_iff.mp hsend
  obtain ⟨⟨sendBuffers, result⟩, hprepared, hsend⟩ := Option.bind_eq_some_iff.mp hsend
  rcases SendBuffers.prepareEntry_cases hprepared with ⟨rfl, rfl, _⟩ |
    ⟨index, slot, slot', hfound, ⟨fd, rfl, rfl, hused, hcarries⟩ | ⟨rfl, rfl, hfree⟩⟩
  · cases hsend
    exact .of_completing h.length h.held rfl hordered
  · cases hsend
    have hindex := h.held.not_mem_of_free hfound.there hfound.isFree
    refine ⟨List.length_set.trans h.length, h.held.handOut hfound.there hindex hused hcarries,
      ?_, ?_⟩
    · intro _ i hi _
      rcases Nat.lt_succ_iff_lt_or_eq.mp hi with hi | rfl
      · exact List.mem_cons_of_mem _ (h.below_found hphase hfound i hi)
      · exact List.mem_cons_self
    · rw [List.append_assoc, List.singleton_append]
      exact hordered
  · cases hsend
    have hindex := h.held.not_mem_of_free hfound.there hfound.isFree
    refine ⟨List.length_set.trans h.length, h.held.setFree hfound.there hindex hfree, h.below, ?_⟩
    rw [List.append_assoc, List.singleton_append]
    exact hordered

theorem sound_complete (h : s.Sound capacity) (hphase : s.phase = .completing) {index : Nat}
    (hcomplete : s.complete index = some s') : s'.Sound capacity := by
  rw [complete] at hcomplete
  split at hcomplete
  · obtain ⟨sendBuffers, hmarked, hcomplete⟩ := Option.bind_eq_some_iff.mp hcomplete
    obtain ⟨slot, hslot, hmarked⟩ := Option.bind_eq_some_iff.mp hmarked
    cases hmarked
    cases hcomplete
    exact .of_completing (List.length_set.trans h.length) (h.held.giveBack hslot rfl) hphase
      h.ordered
  · cases hcomplete

theorem sound_step {a : Action} (h : s.Sound capacity) (hstep : s.step a = some s') :
    s'.Sound capacity := by
  cases a with
  | send =>
    obtain ⟨hphase, hsend⟩ := Option.ite_none_right_eq_some.mp hstep
    exact sound_send h hphase hsend
  | submit =>
    obtain ⟨_, heq⟩ := Option.ite_none_right_eq_some.mp hstep
    cases heq
    exact .of_completing h.length h.held rfl h.ordered
  | complete index =>
    obtain ⟨hphase, hcomplete⟩ := Option.ite_none_right_eq_some.mp hstep
    exact sound_complete h hphase hcomplete
  | receive addr response =>
    obtain ⟨_, heq⟩ := Option.ite_none_right_eq_some.mp hstep
    cases heq
    refine ⟨h.length, h.held, h.below, ?_⟩
    simp only [receive, h.ordered, List.append_assoc]
  | reset =>
    obtain ⟨_, heq⟩ := Option.ite_none_right_eq_some.mp hstep
    cases heq
    refine ⟨h.length, h.held, ?_, h.ordered⟩
    intro _ i hi
    cases hi

/-- Without a free buffer the response goes back to the front, and the worker submits. -/
theorem send_eq_of_completing (hphase : s.phase = .sending) (hsend : s.send = some s')
    (hphase' : s'.phase = .completing) : s' = { s with phase := .completing } := by
  rw [send] at hsend
  split at hsend
  · cases hsend
  rename_i addr response localResponses hresponses
  obtain ⟨sendToIpv4Socket, _, hsend⟩ := Option.bind_eq_some_iff.mp hsend
  obtain ⟨⟨sendBuffers, result⟩, hprepared, hsend⟩ := Option.bind_eq_some_iff.mp hsend
  rcases SendBuffers.prepareEntry_cases hprepared with ⟨rfl, rfl, _⟩ |
    ⟨index, slot, slot', hfound, ⟨fd, rfl, rfl, _⟩ | ⟨rfl, rfl, _⟩⟩
  · cases hsend
    rw [← hresponses]
  · cases hsend
    rw [hphase] at hphase'
    cases hphase'
  · cases hsend
    rw [hphase] at hphase'
    cases hphase'

/-- Of a state, in which any response may be given to the send buffers. -/
structure Exact (capacity : Nat) (s : Cycle) : Prop where
  notShared : ∀ sendToIpv4Socket response addr after entry,
    s.sendBuffers.prepareEntry sendToIpv4Socket response addr = some (after, .ok entry) →
      entry.userData < capacity ∧ entry.userData ∉ indices s.inFlight
  notWronglyFull : s.phase = .sending → ∀ sendToIpv4Socket response addr after response',
    s.sendBuffers.prepareEntry sendToIpv4Socket response addr =
        some (after, .error (.noBuffers response')) →
      (∀ i < capacity, i ∈ indices s.inFlight) ∧ response' = response ∧ after = s.sendBuffers
  failedLeavesFree : ∀ sendToIpv4Socket response addr after,
    s.sendBuffers.prepareEntry sendToIpv4Socket response addr =
        some (after, .error .serializationFailed) →
      ∃ index slot, s.sendBuffers.nextFreeIndex = some index ∧ index ∉ indices s.inFlight ∧
        after.buffers[index]? = some slot ∧ slot.1.free = true
  noPanic : ∀ addr sendToIpv4Socket, s.chooseSocket addr = some sendToIpv4Socket →
    ∀ response, (s.sendBuffers.prepareEntry sendToIpv4Socket response addr).isSome = true
  requeued : ∀ s', s.step .send = some s' → s'.phase = .completing →
    s' = { s with phase := .completing }
  ordered : s.queued = s.taken ++ s.localResponses
  distinct : (indices s.inFlight).Nodup
  intact : ∀ e ∈ s.inFlight, ∃ slot, s.sendBuffers.buffers[e.index]? = some slot ∧
    slot.Carries e.sendToIpv4Socket e.addr e.response

theorem Sound.exact (h : s.Sound capacity) : s.Exact capacity where
  notShared := by
    intro sendToIpv4Socket response addr after entry hprepared
    rcases SendBuffers.prepareEntry_cases hprepared with ⟨hresult, _⟩ |
      ⟨index, slot, slot', hfound, ⟨fd, hresult, _⟩ | ⟨hresult, _⟩⟩
    · cases hresult
    · cases hresult
      obtain ⟨hlength, _⟩ := List.getElem?_eq_some_iff.mp hfound.there
      exact ⟨h.length ▸ hlength, h.held.not_mem_of_free hfound.there hfound.isFree⟩
    · cases hresult
  notWronglyFull := by
    intro hphase sendToIpv4Socket response addr after response' hprepared
    rcases SendBuffers.prepareEntry_cases hprepared with ⟨hresult, hafter, hused⟩ |
      ⟨index, slot, slot', hfound, ⟨fd, hresult, _⟩ | ⟨hresult, _⟩⟩
    · cases hresult
      exact ⟨h.all_inFlight hphase hused, rfl, hafter⟩
    · cases hresult
    · cases hresult
  failedLeavesFree := by
    intro sendToIpv4Socket response addr after hprepared
    rcases SendBuffers.prepareEntry_cases hprepared with ⟨hresult, _⟩ |
      ⟨index, slot, slot', hfound, ⟨fd, hresult, _⟩ | ⟨_, hafter, hfree⟩⟩
    · cases hresult
    · cases hresult
    · refine ⟨index, slot', hfound.found,
        h.held.not_mem_of_free hfound.there hfound.isFree, ?_, hfree⟩
      rw [hafter]
      exact (getElem?_set_of_some hfound.there slot' index).trans (if_pos rfl)
  noPanic := by
    intro addr sendToIpv4Socket hsocket response
    refine s.sendBuffers.isSome_prepareEntry response fun htrue => ?_
    rw [chooseSocket] at hsocket
    split at hsocket
    · assumption
    · subst htrue
      simp at hsocket
  requeued := by
    intro s' hstep hphase'
    obtain ⟨hphase, hsend⟩ := Option.ite_none_right_eq_some.mp hstep
    exact send_eq_of_completing hphase hsend hphase'
  ordered := h.ordered
  distinct := h.held.distinct
  intact := by
    intro e he
    obtain ⟨slot, hslot, _, hcarries⟩ := h.held.carried e he
    exact ⟨slot, hslot, hcarries⟩

theorem send_buffers_exact {capacity : Nat} {optSocketIpv4 optSocketIpv6 : Bool} {s : Cycle}
    (h : Reachable step (init capacity optSocketIpv4 optSocketIpv6) s) : s.Exact capacity :=
  (invariant_of_reachable sound_step (sound_init capacity optSocketIpv4 optSocketIpv6) h).exact

def exampleReceiver : CanonicalSocketAddr := ⟨⟨.v4 ⟨.replicate 4 1⟩, 6881⟩, rfl⟩

/-- Two responses for a single buffer: the second one is sent in the second iteration. -/
def oneBufferRun : List Action :=
  [.submit, .receive exampleReceiver (.connect ⟨1, ⟨1⟩⟩),
    .receive exampleReceiver (.connect ⟨2, ⟨2⟩⟩), .reset, .send, .send, .complete 0, .reset, .send]

theorem send_buffers_exact_oneBuffer :
    ∃ s, run step (init 1 true false) oneBufferRun = some s ∧ s.Exact 1 := by
  have hrun : (run step (init 1 true false) oneBufferRun).isSome = true := by decide
  obtain ⟨s, hs⟩ := Option.isSome_iff_exists.mp hrun
  exact ⟨s, hs, send_buffers_exact ⟨oneBufferRun, hs⟩⟩

end Cycle

end Aquatic.Udp.Uring
