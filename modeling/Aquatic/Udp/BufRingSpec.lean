import Aquatic.Udp.BufRing

/-!
# Every receive buffer is in one place

A buffer is in the ring, in a completion that the worker has not come to, or held by the
worker. So the ring never runs over, the kernel never writes into a buffer that is held, and
what the worker reads is what the kernel has received.
-/

namespace Aquatic.Udp.Uring
open Transition
set_option autoImplicit false

theorem toNat_and_mask {mask : UInt16} (h : (mask.toNat + 1).isPowerOfTwo) (counter : UInt16) :
    (counter &&& mask).toNat = counter.toNat % (mask.toNat + 1) := by
  obtain ⟨k, hk⟩ := h
  rw [UInt16.toNat_and, hk, show mask.toNat = 2 ^ k - 1 by omega, Nat.and_two_pow_sub_one_eq_mod]

theorem dvd_size {n : Nat} (h : n.isPowerOfTwo) (hle : n ≤ UInt16.size) : n ∣ UInt16.size := by
  obtain ⟨k, rfl⟩ := h
  have hk : k ≤ 16 := (Nat.pow_le_pow_iff_right (by omega)).mp hle
  exact Nat.pow_dvd_pow 2 hk

namespace RawBufRing

def entries (raw : RawBufRing) : Nat := raw.ringEntriesMask.toNat + 1

structure Sized (raw : RawBufRing) : Prop where
  pow : raw.entries.isPowerOfTwo
  le : raw.entries ≤ 32768
  bufCnt : raw.bufCnt.toNat ≤ raw.entries

/-- What the kernel has still to take, if it is at `head`. -/
def queue (raw : RawBufRing) (head : UInt16) : List BufRingEntry :=
  Ring.window raw.ring raw.entries head.toNat (raw.localTail - head).toNat

/-- How a buffer is handed to the kernel. -/
def entry (raw : RawBufRing) (bid : Bid) : BufRingEntry :=
  ⟨raw.bufLen * bid.toNat, UInt32.ofNat raw.bufLen, bid⟩

variable {raw raw' : RawBufRing} {head : UInt16} {bid : Bid}

theorem Sized.place (h : raw.Sized) (counter : UInt16) :
    (counter &&& raw.ringEntriesMask).toNat = counter.toNat % raw.entries :=
  toNat_and_mask h.pow counter

theorem Sized.mod_size (h : raw.Sized) (n : Nat) : n % UInt16.size % raw.entries = n % raw.entries :=
  Nat.mod_mod_of_dvd n (dvd_size h.pow (Nat.le_trans h.le (by decide)))

theorem length_queue : (raw.queue head).length = (raw.localTail - head).toNat :=
  Ring.length_window _ _ _

/-- What is left of the ring when it was changed at its end. -/
structure Added (raw : RawBufRing) (bid : Bid) (raw' : RawBufRing) : Prop where
  mask : raw'.ringEntriesMask = raw.ringEntriesMask
  bufCnt : raw'.bufCnt = raw.bufCnt
  bufLen : raw'.bufLen = raw.bufLen
  tail : raw'.tail = raw.tail
  localTail : raw'.localTail = raw.localTail + 1
  possibleCur : raw'.possibleCur.toNat = raw.possibleCur.toNat + 1
  queue : ∀ head, (raw.localTail - head).toNat < raw.entries →
    raw'.queue head = raw.queue head ++ [raw.entry bid]

theorem bufRingAdd_spec (h : raw.Sized) (hbid : bid < raw.bufCnt)
    (hcur : raw.possibleCur.toNat < 65535) : ∃ raw', raw.bufRingAdd bid = some raw' ∧
      Added raw bid raw' := by
  have hne : raw.possibleCur ≠ 65535 := by
    intro heq
    rw [heq] at hcur
    exact Nat.lt_irrefl _ hcur
  simp only [bufRingAdd, stablePtr, if_pos hbid, if_neg hne]
  refine ⟨_, rfl, rfl, rfl, rfl, rfl, rfl, ?_, ?_⟩
  · simp only [UInt16.toNat_add]
    exact Nat.mod_eq_of_lt (by simp; omega)
  · intro head hroom
    have hle := h.le
    have hcount : (raw.localTail + 1 - head).toNat = (raw.localTail - head).toNat + 1 := by
      simp only [UInt16.toNat_sub, UInt16.toNat_add] at hroom ⊢
      simp at hroom ⊢
      omega
    have hplace : (raw.localTail &&& raw.ringEntriesMask).toNat =
        (head.toNat + (raw.localTail - head).toNat) % raw.entries := by
      rw [h.place, ← h.mod_size (head.toNat + _)]
      congr 1
      have hlt := head.toNat_lt
      have hlt' := raw.localTail.toNat_lt
      simp only [UInt16.toNat_sub, UInt16.size] at *
      omega
    simp only [queue, hcount, hplace]
    exact Ring.window_write raw.ring head.toNat hroom _

/-- The kernel takes the first entry. -/
theorem queue_eq_cons (h : raw.Sized) (hne : head ≠ raw.localTail) :
    raw.queue head = raw.ring (head &&& raw.ringEntriesMask).toNat :: raw.queue (head + 1) := by
  have hlt := head.toNat_lt
  have hlt' := raw.localTail.toNat_lt
  have hne : head.toNat ≠ raw.localTail.toNat := fun heq => hne (UInt16.toNat_inj.mp heq)
  have hcount : (raw.localTail - head).toNat = (raw.localTail - (head + 1)).toNat + 1 := by
    simp only [UInt16.toNat_sub, UInt16.toNat_add]
    simp
    omega
  rw [queue, hcount, Ring.window_succ, h.place]
  congr 1
  apply Ring.window_congr
  rw [UInt16.toNat_add]
  exact (h.mod_size _).symm

end RawBufRing

theorem leastPowerOfTwo_spec (n : UInt16) :
    (leastPowerOfTwo n).isPowerOfTwo ∧ n.toNat ≤ leastPowerOfTwo n := by
  unfold leastPowerOfTwo
  split
  · rename_i hle
    exact ⟨⟨0, rfl⟩, UInt16.le_iff_toNat_le.mp hle⟩
  · refine ⟨⟨_, Nat.one_shiftLeft _⟩, ?_⟩
    have hlog := Nat.lt_log2_self (n := n.toNat - 1)
    rw [Nat.one_shiftLeft]
    omega

theorem isPowerOfTwo_of_nextPowerOfTwo {n power : UInt16} (h : nextPowerOfTwo n = some power) :
    power.toNat.isPowerOfTwo ∧ n ≤ power := by
  obtain ⟨hpow, hle⟩ := leastPowerOfTwo_spec n
  unfold nextPowerOfTwo at h
  split at h
  · rename_i hlt
    cases h
    rw [UInt16.le_iff_toNat_le, UInt16.toNat_ofNat_of_lt' hlt]
    exact ⟨hpow, hle⟩
  · cases h

theorem le_of_isPowerOfTwo {power : UInt16} (h : power.toNat.isPowerOfTwo) :
    power.toNat ≤ 32768 := by
  obtain ⟨k, hk⟩ := h
  have hlt := power.toNat_lt
  rw [hk] at hlt ⊢
  have hk : k < 16 := (Nat.pow_lt_pow_iff_right (by omega)).mp hlt
  exact Nat.pow_le_pow_right (n := 2) (by omega) (Nat.le_of_lt_succ hk)

namespace RawBufRing

/-- A ring that has got the first buffers. -/
structure Filled (raw : RawBufRing) (count : Nat) (raw' : RawBufRing) : Prop where
  mask : raw'.ringEntriesMask = raw.ringEntriesMask
  bufCnt : raw'.bufCnt = raw.bufCnt
  bufLen : raw'.bufLen = raw.bufLen
  localTail : raw'.localTail = UInt16.ofNat count
  possibleCur : raw'.possibleCur.toNat = count
  queue : raw'.queue 0 = (List.range count).map fun bid => raw.entry (.ofNat bid)

theorem fill_spec {raw : RawBufRing} (h : raw.Sized) (htail : raw.localTail = 0)
    (hcur : raw.possibleCur = 0) {count : Nat} (hcount : count ≤ raw.bufCnt.toNat) :
    ∃ raw', (List.range count).foldlM (fun raw bid => raw.bufRingAdd (.ofNat bid)) raw =
      some raw' ∧ Filled raw count raw' := by
  induction count with
  | zero =>
    refine ⟨raw, rfl, rfl, rfl, rfl, htail, by rw [hcur]; rfl, ?_⟩
    rw [queue, htail]
    rfl
  | succ count ih =>
    obtain ⟨raw₁, hraw₁, hfilled⟩ := ih (Nat.le_of_succ_le hcount)
    have hle := h.le
    have hbufCnt := h.bufCnt
    have hentries : raw₁.entries = raw.entries := by rw [entries, hfilled.mask, entries]
    have hsized : raw₁.Sized := by
      refine ⟨?_, ?_, ?_⟩
      · rw [hentries]
        exact h.pow
      · rw [hentries]
        exact h.le
      · rw [hentries, hfilled.bufCnt]
        exact h.bufCnt
    have hlt : count < UInt16.size := by
      simp only [UInt16.size]
      omega
    have hbid : UInt16.ofNat count < raw₁.bufCnt := by
      rw [hfilled.bufCnt, UInt16.lt_iff_toNat_lt, UInt16.toNat_ofNat_of_lt' hlt]
      omega
    obtain ⟨raw₂, hraw₂, hadded⟩ := bufRingAdd_spec hsized hbid (by rw [hfilled.possibleCur]; omega)
    refine ⟨raw₂, ?_, ?_⟩
    · rw [List.range_succ, List.foldlM_append, hraw₁]
      simp only [List.foldlM_cons, List.foldlM_nil, Option.bind_eq_bind, Option.bind_some, hraw₂]
      rfl
    · have hroom : (raw₁.localTail - 0).toNat < raw₁.entries := by
        rw [hfilled.localTail, hentries, UInt16.sub_zero, UInt16.toNat_ofNat_of_lt' hlt]
        omega
      refine ⟨hadded.mask.trans hfilled.mask, hadded.bufCnt.trans hfilled.bufCnt,
        hadded.bufLen.trans hfilled.bufLen, ?_, ?_, ?_⟩
      · rw [hadded.localTail, hfilled.localTail, UInt16.ofNat_add]
        rfl
      · rw [hadded.possibleCur, hfilled.possibleCur]
      · rw [hadded.queue 0 hroom, hfilled.queue, List.range_succ, List.map_append]
        simp only [entry, hfilled.bufLen, List.map_cons, List.map_nil]

/-- A ring with all its buffers in it. -/
structure Fresh (raw : RawBufRing) : Prop where
  sized : raw.Sized
  synced : raw.localTail = raw.tail
  possibleCur : raw.possibleCur = raw.bufCnt
  bufLen : raw.bufLen = requestBufLen
  queue : raw.queue 0 = (List.range raw.bufCnt.toNat).map fun bid => raw.entry (.ofNat bid)

theorem new_spec {ringEntries bufCnt : UInt16} (hpow : ringEntries.toNat.isPowerOfTwo)
    (hle : bufCnt ≤ ringEntries) (hpos : bufCnt ≠ 0) :
    ∃ raw, RawBufRing.new ringEntries bufCnt requestBufLen = some (.ok raw) ∧ raw.Fresh := by
  have hle := UInt16.le_iff_toNat_le.mp hle
  have hone : 0 < ringEntries.toNat := by
    obtain ⟨k, hk⟩ := hpow
    rw [hk]
    exact Nat.two_pow_pos k
  have hmask : (ringEntries - 1).toNat + 1 = ringEntries.toNat := by
    have hlt := ringEntries.toNat_lt
    simp only [UInt16.toNat_sub]
    simp
    omega
  have hand : (ringEntries &&& (ringEntries - 1)) = 0 := by
    apply UInt16.toNat_inj.mp
    rw [toNat_and_mask (by rw [hmask]; exact hpow), hmask, Nat.mod_self]
    rfl
  have hvalid : (bufCnt == 0 || bufCnt > ringEntries || requestBufLen == 0 ||
      (ringEntries &&& (ringEntries - 1)) != 0) = false := by
    have hnot : ¬ bufCnt > ringEntries := by
      intro hgt
      have hlt := UInt16.lt_iff_toNat_lt.mp hgt
      omega
    simp [hand, hpos, hnot, requestBufLen]
  unfold RawBufRing.new
  rw [if_neg (by rw [hvalid]; exact Bool.false_ne_true)]
  simp only
  generalize hstart : RawBufRing.mk (ringEntries - 1) bufCnt requestBufLen (fun _ => ⟨0, 0, 0⟩) 0 0
    0 bufCnt = raw₀
  have hsized : raw₀.Sized := by
    rw [← hstart]
    refine ⟨?_, ?_, ?_⟩
    · rw [entries, hmask]
      exact hpow
    · rw [entries, hmask]
      exact le_of_isPowerOfTwo hpow
    · rw [entries, hmask]
      exact hle
  have hcnt : raw₀.bufCnt = bufCnt := by rw [← hstart]
  obtain ⟨raw₁, hraw₁, hfilled⟩ := fill_spec hsized (by rw [← hstart]) (by rw [← hstart])
    (Nat.le_of_eq (congrArg UInt16.toNat hcnt).symm)
  refine ⟨raw₁.bufRingSync, ?_, ?_⟩
  · rw [hraw₁]
    rfl
  · have hentries : raw₁.bufRingSync.entries = raw₀.entries := by
      change raw₁.ringEntriesMask.toNat + 1 = _
      rw [hfilled.mask]
      rfl
    refine ⟨⟨?_, ?_, ?_⟩, rfl, ?_, ?_, ?_⟩
    · rw [hentries]
      exact hsized.pow
    · rw [hentries]
      exact hsized.le
    · rw [hentries]
      change raw₁.bufCnt.toNat ≤ _
      rw [hfilled.bufCnt]
      exact hsized.bufCnt
    · apply UInt16.toNat_inj.mp
      change raw₁.possibleCur.toNat = raw₁.bufCnt.toNat
      rw [hfilled.possibleCur, hfilled.bufCnt, hcnt]
    · change raw₁.bufLen = _
      rw [hfilled.bufLen, ← hstart]
    · change raw₁.queue 0 = (List.range raw₁.bufCnt.toNat).map fun bid => raw₁.entry (.ofNat bid)
      rw [hfilled.queue, hfilled.bufCnt, hcnt]
      simp only [entry, hfilled.bufLen]

end RawBufRing

theorem leastPowerOfTwo_lt_iff (n : UInt16) :
    leastPowerOfTwo n < UInt16.size ↔ n ≤ 32768 := by
  rw [UInt16.le_iff_toNat_le]
  constructor
  · intro hlt
    obtain ⟨hpow, hle⟩ := leastPowerOfTwo_spec n
    rw [← UInt16.toNat_ofNat_of_lt' hlt] at hpow hle
    exact Nat.le_trans hle (le_of_isPowerOfTwo hpow)
  · intro hle
    have hle : n.toNat ≤ 32768 := hle
    unfold leastPowerOfTwo
    split
    · decide
    · rename_i hgt
      have hgt : 1 < n.toNat := by
        rw [UInt16.not_le, UInt16.lt_iff_toNat_lt] at hgt
        exact hgt
      have hlog : Nat.log2 (n.toNat - 1) < 15 := (Nat.log2_lt (by omega)).mpr (by omega)
      rw [Nat.one_shiftLeft]
      exact Nat.lt_of_le_of_lt (Nat.pow_le_pow_right (n := 2) (by omega) hlog) (by decide)

theorem nextPowerOfTwo_eq_some_iff (n : UInt16) :
    (∃ power, nextPowerOfTwo n = some power) ↔ n ≤ 32768 := by
  rw [← leastPowerOfTwo_lt_iff, nextPowerOfTwo]
  constructor
  · rintro ⟨power, h⟩
    by_contra hlt
    rw [if_neg hlt] at h
    cases h
  · intro hlt
    exact ⟨_, if_pos hlt⟩

/-- The worker starts unless the ring is too large, and all its buffers are in the ring. -/
theorem workerBufRing_spec (ringSize : UInt16) :
    ((∃ raw, workerBufRing ringSize = some raw) ↔ ringSize ≤ 32768) ∧
      ∀ raw, workerBufRing ringSize = some raw → raw.Fresh := by
  have hnone : ¬ ringSize ≤ 32768 → workerBufRing ringSize = none := by
    intro hgt
    have hpower : nextPowerOfTwo ringSize = none := by
      by_contra hsome
      obtain ⟨power, hpower⟩ := Option.ne_none_iff_exists'.mp hsome
      exact hgt ((nextPowerOfTwo_eq_some_iff ringSize).mp ⟨power, hpower⟩)
    rw [workerBufRing, hpower]
    rfl
  have hsome : ringSize ≤ 32768 → ∃ raw, workerBufRing ringSize = some raw ∧ raw.Fresh := by
    intro hle
    obtain ⟨power, hpower⟩ := (nextPowerOfTwo_eq_some_iff ringSize).mpr hle
    obtain ⟨hpow, -⟩ := isPowerOfTwo_of_nextPowerOfTwo hpower
    have hpowle := le_of_isPowerOfTwo hpow
    have hle : power ≤ 32768 := UInt16.le_iff_toNat_le.mpr hpowle
    obtain ⟨power', hpower'⟩ := (nextPowerOfTwo_eq_some_iff power).mpr hle
    obtain ⟨hpow', hle'⟩ := isPowerOfTwo_of_nextPowerOfTwo hpower'
    have hne : power ≠ 0 := by
      rintro rfl
      obtain ⟨k, hk⟩ := hpow
      exact absurd hk (Nat.ne_of_lt (Nat.two_pow_pos k))
    obtain ⟨raw, hraw, hfresh⟩ := RawBufRing.new_spec hpow' hle' hne
    refine ⟨raw, ?_, hfresh⟩
    have hmax : max power 0 = power := by
      change (if power ≤ 0 then 0 else power) = power
      split
      · rename_i hzero
        exact (UInt16.le_zero_iff.mp hzero).symm
      · rfl
    have hbuild : ({ Builder.new with ringEntries := power, bufLen := requestBufLen } :
        Builder).build = some (.ok raw) := by
      have hnot : ¬ power > (1 : UInt16) <<< 15 := UInt16.not_lt.mpr hle
      simp only [Builder.build, Builder.new, beq_self_eq_true, Bool.true_or, if_true, hmax,
        if_neg hnot, hpower', Option.bind_eq_bind, Option.bind_some, hraw]
    rw [workerBufRing, hpower]
    simp only [Option.bind_eq_bind, Option.bind_some, hbuild]
    rfl
  refine ⟨⟨?_, fun hle => ?_⟩, ?_⟩
  · rintro ⟨raw, hraw⟩
    by_contra hgt
    rw [hnone hgt] at hraw
    cases hraw
  · obtain ⟨raw, hraw, -⟩ := hsome hle
    exact ⟨raw, hraw⟩
  · intro raw hraw
    by_cases hle : ringSize ≤ 32768
    · obtain ⟨raw', hraw', hfresh⟩ := hsome hle
      cases hraw.symm.trans hraw'
      exact hfresh
    · rw [hnone hle] at hraw
      cases hraw

theorem bufferSelect_cqeFlags (bid : Bid) (more : Bool) :
    bufferSelect (BufGroup.cqeFlags (some bid) more) = some bid := by
  have hlt := bid.toNat_lt
  have hflags : (BufGroup.cqeFlags (some bid) more).toNat =
      bid.toNat * 65536 + (if more then 2 else 0) + 1 := by
    rw [BufGroup.cqeFlags, UInt32.toNat_ofNat_of_lt']
    cases more <;> simp [UInt32.size] <;> omega
  have hbit : BufGroup.cqeFlags (some bid) more &&& 1 ≠ 0 := by
    intro heq
    have hzero := congrArg UInt32.toNat heq
    rw [UInt32.toNat_and, hflags] at hzero
    change _ &&& 1 = 0 at hzero
    rw [Nat.and_one_is_mod] at hzero
    cases more <;> simp at hzero <;> omega
  rw [bufferSelect, if_pos hbit]
  congr 1
  apply UInt16.toNat_inj.mp
  rw [UInt32.toNat_toUInt16, UInt32.toNat_shiftRight, hflags]
  change _ >>> 16 % 65536 = _
  rw [Nat.shiftRight_eq_div_pow]
  cases more <;> simp <;> omega

theorem result_ofNat {n : Nat} (h : n ≤ requestBufLen) :
    ¬ Int32.ofNat n < 0 ∧ (Int32.ofNat n).toUInt32.toNat = n := by
  have h : n ≤ 512 := h
  constructor
  · intro hlt
    have hint := Int32.lt_iff_toInt_lt.mp hlt
    rw [Int32.toInt_ofNat_of_lt (by omega)] at hint
    simp at hint
    omega
  · change (UInt32.ofNat n).toNat = n
    exact UInt32.toNat_ofNat_of_lt' (by simp [UInt32.size]; omega)

namespace Memory

theorem slice_write (memory : Memory) (addr : Nat) (bytes : List UInt8) :
    (memory.write addr bytes).slice addr bytes.length = bytes := by
  apply List.ext_getElem
  · simp [slice]
  · intro i hi hi'
    simp [slice, write, List.getD_eq_getElem?_getD, hi']

/-- A buffer that lies elsewhere keeps its bytes. -/
theorem slice_write_of_disjoint (memory : Memory) {addr addr' len : Nat} {bytes : List UInt8}
    (h : addr' + len ≤ addr ∨ addr + bytes.length ≤ addr') :
    (memory.write addr bytes).slice addr' len = memory.slice addr' len := by
  apply List.map_congr_left
  intro i hi
  have hlt := List.mem_range.mp hi
  exact if_neg (by omega)

end Memory

theorem RawBufRing.getBuf_of_select {raw : RawBufRing} {res flags : UInt32} {bid : Bid}
    (hselect : bufferSelect flags = some bid) (hle : res.toNat ≤ raw.bufLen)
    (hne : raw.possibleCur ≠ 0) :
    raw.getBuf res flags = some (.ok (some ⟨bid, res.toNat⟩), { raw with
      possibleCur := raw.possibleCur - 1
      possibleMin := min raw.possibleMin (raw.possibleCur - 1) }) := by
  simp only [getBuf, hselect, if_pos hle, metricGettingAnother, if_neg hne]
  rfl

/-- The buffer that comes with a completion. -/
def Cqe.bid (cqe : Cqe) : Option Bid :=
  if cqe.result < 0 then none else bufferSelect cqe.flags

namespace BufGroup

/-- Where the buffers are: in the ring, in a completion, or with the worker. -/
def places (s : BufGroup) : List Bid :=
  (s.raw.queue s.head).map BufRingEntry.bid ++
    (s.completions.filterMap Cqe.bid ++ s.held.map BufX.bid)

/-- The memory of a buffer is what the kernel has received. -/
structure Filled (s : BufGroup) (bid : Bid) : Prop where
  length : (s.datagrams bid).length ≤ requestBufLen
  slice : s.memory.slice (requestBufLen * bid.toNat) (s.datagrams bid).length = s.datagrams bid

structure Sound (s : BufGroup) : Prop where
  sized : s.raw.Sized
  synced : s.raw.localTail = s.raw.tail
  bufLen : s.raw.bufLen = requestBufLen
  once : s.places.Perm ((List.range s.raw.bufCnt.toNat).map UInt16.ofNat)
  queued : ∀ entry ∈ s.raw.queue s.head, entry = s.raw.entry entry.bid
  possibleCur : s.raw.possibleCur.toNat + s.held.length = s.raw.bufCnt.toNat
  completed : ∀ cqe ∈ s.completions, ¬ cqe.result < 0 → ∃ bid, bufferSelect cqe.flags = some bid ∧
    cqe.result.toUInt32.toNat = (s.datagrams bid).length
  filled : ∀ bid ∈ s.completions.filterMap Cqe.bid ++ s.held.map BufX.bid, s.Filled bid
  held : ∀ buffer ∈ s.held, buffer.len = (s.datagrams buffer.bid).length

theorem sound_init {raw : RawBufRing} (h : raw.Fresh) : Sound (init raw) where
  sized := h.sized
  synced := h.synced
  bufLen := h.bufLen
  once := by
    change ((raw.queue 0).map BufRingEntry.bid ++ ([] ++ [])).Perm _
    rw [h.queue, List.map_map, List.append_nil, List.append_nil]
    exact .refl _
  queued := by
    intro entry hentry
    change entry ∈ raw.queue 0 at hentry
    rw [h.queue] at hentry
    obtain ⟨bid, -, rfl⟩ := List.mem_map.mp hentry
    rfl
  possibleCur := congrArg UInt16.toNat h.possibleCur
  completed := nofun
  filled := nofun
  held := nofun

namespace Sound
variable {s s' : BufGroup}

theorem nodup (h : s.Sound) : s.places.Nodup := by
  refine h.once.nodup_iff.mpr (List.nodup_range.map_on ?_)
  intro i hi j hj heq
  have hle := h.sized.le
  have hcnt := h.sized.bufCnt
  have hi := List.mem_range.mp hi
  have hj := List.mem_range.mp hj
  have heq := congrArg UInt16.toNat heq
  rw [UInt16.toNat_ofNat_of_lt' (by simp only [UInt16.size]; omega),
    UInt16.toNat_ofNat_of_lt' (by simp only [UInt16.size]; omega)] at heq
  exact heq

theorem lt_bufCnt (h : s.Sound) {bid : Bid} (hbid : bid ∈ s.places) : bid < s.raw.bufCnt := by
  obtain ⟨i, hi, rfl⟩ := List.mem_map.mp (h.once.mem_iff.mp hbid)
  have hi := List.mem_range.mp hi
  have hlt := s.raw.bufCnt.toNat_lt
  rw [UInt16.lt_iff_toNat_lt, UInt16.toNat_ofNat_of_lt' (by simp only [UInt16.size]; omega)]
  exact hi

theorem length_places (h : s.Sound) : (s.raw.queue s.head).length +
    (s.completions.filterMap Cqe.bid).length + s.held.length = s.raw.bufCnt.toNat := by
  have hlength := h.once.length_eq
  simp only [places, List.length_append, List.length_map, List.length_range] at hlength
  omega

/-- The kernel has received `written` into the buffer of `entry`. -/
structure Received (s : BufGroup) (entry : BufRingEntry) (written : List UInt8) (cqe : Cqe)
    (s' : BufGroup) : Prop where
  queue : s.raw.queue s.head = entry :: s.raw.queue (s.head + 1)
  length : written.length ≤ entry.len.toNat
  raw : s'.raw = s.raw
  memory : s'.memory = s.memory.write entry.addr written
  head : s'.head = s.head + 1
  completions : s'.completions = s.completions ++ [cqe]
  result : cqe.result = .ofNat written.length
  select : bufferSelect cqe.flags = some entry.bid
  held : s'.held = s.held
  written : s'.datagrams entry.bid = written
  others : ∀ {bid}, bid ≠ entry.bid → s'.datagrams bid = s.datagrams bid

theorem received (h : s.Sound) {datagram : List UInt8} {more : Bool}
    (hstep : s.receive datagram more = some s') :
    ∃ entry written cqe, Received s entry written cqe s' := by
  unfold BufGroup.receive at hstep
  split at hstep
  · cases hstep
  rename_i hne
  rw [← h.synced] at hne
  cases hstep
  exact ⟨_, _, _, RawBufRing.queue_eq_cons h.sized hne, List.length_take_le _ _, rfl, rfl, rfl,
    rfl, rfl, bufferSelect_cqeFlags _ _, rfl, if_pos rfl, fun hne => if_neg hne⟩

/-- The kernel writes where no other buffer is. -/
theorem filled_of_write {bid bid' : Bid} {bytes : List UInt8}
    (hbytes : bytes.length ≤ requestBufLen) (hne : bid' ≠ bid) (hfilled : s.Filled bid')
    (hmemory : s'.memory = s.memory.write (requestBufLen * bid.toNat) bytes)
    (hdatagrams : s'.datagrams bid' = s.datagrams bid') : s'.Filled bid' := by
  have hlength := hfilled.length
  refine ⟨by rw [hdatagrams]; exact hlength, ?_⟩
  rw [hdatagrams, hmemory, Memory.slice_write_of_disjoint]
  · exact hfilled.slice
  · have hne : bid'.toNat ≠ bid.toNat := fun heq => hne (UInt16.toNat_inj.mp heq)
    simp only [requestBufLen] at hlength hbytes ⊢
    omega

theorem receive (h : s.Sound) {datagram : List UInt8} {more : Bool}
    (hstep : s.receive datagram more = some s') : s'.Sound := by
  obtain ⟨entry, written, cqe, hr⟩ := h.received hstep
  have hready := h.queued entry (by rw [hr.queue]; exact List.mem_cons_self)
  have haddr : entry.addr = requestBufLen * entry.bid.toNat := by
    rw [hready, RawBufRing.entry, h.bufLen]
  have hwritten : written.length ≤ requestBufLen := by
    have hlength := hr.length
    rw [hready, RawBufRing.entry, h.bufLen] at hlength
    exact hlength
  obtain ⟨hresult, hresult'⟩ := result_ofNat hwritten
  rw [← hr.result] at hresult hresult'
  have hbid : cqe.bid = some entry.bid := by rw [Cqe.bid, if_neg hresult, hr.select]
  have hnodup := h.nodup
  rw [places, hr.queue, List.map_cons, List.cons_append] at hnodup
  have hothers : ∀ bid ∈ s.completions.filterMap Cqe.bid ++ s.held.map BufX.bid,
      bid ≠ entry.bid := by
    rintro bid hmem rfl
    exact (List.nodup_cons.mp hnodup).1 (List.mem_append_right _ hmem)
  have hcompletions : s'.completions.filterMap Cqe.bid =
      s.completions.filterMap Cqe.bid ++ [entry.bid] := by
    rw [hr.completions, List.filterMap_append]
    simp only [List.filterMap_cons, List.filterMap_nil, hbid]
  refine ⟨?_, ?_, ?_, ?_, ?_, ?_, ?_, ?_, ?_⟩
  · rw [hr.raw]
    exact h.sized
  · rw [hr.raw]
    exact h.synced
  · rw [hr.raw]
    exact h.bufLen
  · rw [hr.raw]
    refine List.Perm.trans ?_ h.once
    rw [places, places, hr.raw, hr.head, hcompletions, hr.held, hr.queue, List.map_cons]
    refine List.Perm.trans ?_ List.perm_middle
    apply List.Perm.append_left
    rw [List.append_assoc]
    exact List.perm_middle
  · intro entry' hentry'
    rw [hr.raw] at hentry' ⊢
    rw [hr.head] at hentry'
    apply h.queued
    rw [hr.queue]
    exact List.mem_cons_of_mem _ hentry'
  · rw [hr.raw, hr.held]
    exact h.possibleCur
  · intro cqe' hcqe' hresult''
    rw [hr.completions] at hcqe'
    rcases List.mem_append.mp hcqe' with hold | hnew
    · obtain ⟨bid, hselect, hlength⟩ := h.completed cqe' hold hresult''
      have hmem : bid ∈ s.completions.filterMap Cqe.bid :=
        List.mem_filterMap.mpr ⟨cqe', hold, by rw [Cqe.bid, if_neg hresult'', hselect]⟩
      refine ⟨bid, hselect, ?_⟩
      rw [hr.others (hothers bid (List.mem_append_left _ hmem))]
      exact hlength
    · cases List.mem_singleton.mp hnew
      refine ⟨entry.bid, hr.select, ?_⟩
      rw [hr.written]
      exact hresult'
  · intro bid hmem
    by_cases hbid' : bid = entry.bid
    · subst hbid'
      refine ⟨?_, ?_⟩
      · rw [hr.written]
        exact hwritten
      · rw [hr.written, hr.memory, haddr]
        exact Memory.slice_write _ _ _
    · refine filled_of_write hwritten hbid' (h.filled bid ?_) (by rw [hr.memory, haddr])
        (hr.others hbid')
      rw [hcompletions, hr.held] at hmem
      simp only [List.mem_append, List.mem_singleton, hbid', or_false] at hmem
      exact List.mem_append.mpr hmem
  · intro buffer hbuffer
    rw [hr.held] at hbuffer
    rw [hr.others (hothers _ (List.mem_append_right _ (List.mem_map_of_mem hbuffer)))]
    exact h.held buffer hbuffer

theorem fail (h : s.Sound) {error : Int32} {more : Bool} (herror : error < 0) :
    Sound { s with completions := s.completions ++ [⟨error, cqeFlags none more⟩] } := by
  have hcompletions : (s.completions ++ [(⟨error, cqeFlags none more⟩ : Cqe)]).filterMap Cqe.bid =
      s.completions.filterMap Cqe.bid := by
    rw [List.filterMap_append]
    simp [Cqe.bid, herror]
  refine ⟨h.sized, h.synced, h.bufLen, ?_, h.queued, h.possibleCur, ?_, ?_, h.held⟩
  · simp only [places, hcompletions]
    exact h.once
  · intro cqe hcqe hresult
    rcases List.mem_append.mp hcqe with hold | hnew
    · exact h.completed cqe hold hresult
    · cases List.mem_singleton.mp hnew
      exact absurd herror hresult
  · intro bid hmem
    simp only [hcompletions] at hmem
    obtain ⟨hlength, hslice⟩ := h.filled bid hmem
    exact ⟨hlength, hslice⟩

/-- A completion is handled without a panic, and its buffer is held if there is one. -/
theorem takeCompletion (h : s.Sound) {cqe : Cqe} {completions : List Cqe}
    (hcompletions : s.completions = cqe :: completions) :
    ∃ s', s.takeCompletion = some s' ∧ s'.Sound ∧ s'.completions = completions ∧
      s'.memory = s.memory ∧ s'.datagrams = s.datagrams ∧
      s'.held = s.held ++ (cqe.bid.map fun bid => ⟨bid, (s.datagrams bid).length⟩).toList := by
  unfold BufGroup.takeCompletion
  rw [hcompletions]
  by_cases hresult : cqe.result < 0
  · simp only [if_pos hresult]
    have hbid : cqe.bid = none := by rw [Cqe.bid, if_pos hresult]
    refine ⟨_, rfl, ⟨h.sized, h.synced, h.bufLen, ?_, h.queued, h.possibleCur, ?_, ?_, h.held⟩, rfl,
      rfl, rfl, by rw [hbid]; exact (List.append_nil _).symm⟩
    · have honce := h.once
      rw [places, hcompletions, List.filterMap_cons_none hbid] at honce
      exact honce
    · intro cqe' hcqe'
      exact h.completed cqe' (by rw [hcompletions]; exact List.mem_cons_of_mem _ hcqe')
    · intro bid hmem
      have hfilled := h.filled bid
      rw [hcompletions, List.filterMap_cons_none hbid] at hfilled
      obtain ⟨hlength, hslice⟩ := hfilled hmem
      exact ⟨hlength, hslice⟩
  · simp only [if_neg hresult]
    obtain ⟨bid, hselect, hlength⟩ :=
      h.completed cqe (by rw [hcompletions]; exact List.mem_cons_self) hresult
    have hbid : cqe.bid = some bid := by rw [Cqe.bid, if_neg hresult, hselect]
    have hcount := h.length_places
    have hcur := h.possibleCur
    rw [hcompletions, List.filterMap_cons_some hbid, List.length_cons] at hcount
    have hne : s.raw.possibleCur ≠ 0 := by
      intro hzero
      rw [hzero] at hcur
      change 0 + _ = _ at hcur
      omega
    have hfilled : ∀ bid' ∈ completions.filterMap Cqe.bid ++ (s.held.map BufX.bid ++ [bid]),
        s.Filled bid' := by
      intro bid' hmem
      apply h.filled
      rw [hcompletions, List.filterMap_cons_some hbid]
      rw [← List.append_assoc, List.mem_append, List.mem_singleton] at hmem
      rcases hmem with hmem | rfl
      · exact List.mem_cons_of_mem _ hmem
      · exact List.mem_cons_self
    have hle : cqe.result.toUInt32.toNat ≤ s.raw.bufLen := by
      rw [hlength, h.bufLen]
      exact (hfilled bid (by simp)).length
    simp only [RawBufRing.getBuf_of_select hselect hle hne, Option.bind_eq_bind, Option.bind_some,
      hlength]
    refine ⟨_, rfl, ⟨⟨h.sized.pow, h.sized.le, h.sized.bufCnt⟩, h.synced, h.bufLen, ?_, h.queued,
      ?_, ?_, ?_, ?_⟩, rfl, rfl, rfl, by rw [hbid]; rfl⟩
    · refine List.Perm.trans ?_ h.once
      change ((s.raw.queue s.head).map BufRingEntry.bid ++ (completions.filterMap Cqe.bid ++
        (s.held ++ [_]).map BufX.bid)).Perm _
      rw [places, hcompletions, List.filterMap_cons_some hbid, List.map_append, ← List.append_assoc
        (completions.filterMap Cqe.bid)]
      apply List.Perm.append_left
      exact List.perm_append_comm
    · simp only [List.length_append, List.length_cons, List.length_nil]
      have hpos : 0 < s.raw.possibleCur.toNat :=
        Nat.pos_of_ne_zero fun hzero => hne (UInt16.toNat_inj.mp hzero)
      have hlt := s.raw.possibleCur.toNat_lt
      have hsub : (s.raw.possibleCur - 1).toNat = s.raw.possibleCur.toNat - 1 := by
        simp only [UInt16.toNat_sub]
        simp
        omega
      omega
    · intro cqe' hcqe'
      exact h.completed cqe' (by rw [hcompletions]; exact List.mem_cons_of_mem _ hcqe')
    · intro bid' hmem
      rw [List.map_append] at hmem
      obtain ⟨hlength, hslice⟩ := hfilled bid' hmem
      exact ⟨hlength, hslice⟩
    · intro buffer hbuffer
      rcases List.mem_append.mp hbuffer with hold | hnew
      · exact h.held buffer hold
      · cases List.mem_singleton.mp hnew
        rfl

/-- A buffer that the worker has held is put back where there is room for it. -/
theorem drop (h : s.Sound) {index : Nat} (hindex : index < s.held.length) :
    ∃ s', s.drop index = some s' ∧ s'.Sound := by
  have hbuffer := List.getElem?_eq_getElem hindex
  have hheld := List.getElem_cons_eraseIdx_perm hindex
  generalize s.held[index] = buffer at hbuffer hheld
  have hmem : buffer.bid ∈ s.places := by
    apply List.mem_append_right
    apply List.mem_append_right
    exact List.mem_map_of_mem (List.mem_of_getElem? hbuffer)
  have hcount := h.length_places
  have hcur := h.possibleCur
  have hle := h.sized.le
  have hcnt := h.sized.bufCnt
  obtain ⟨raw, hraw, hadded⟩ :=
    RawBufRing.bufRingAdd_spec h.sized (h.lt_bufCnt hmem) (by omega)
  have hroom : (s.raw.localTail - s.head).toNat < s.raw.entries := by
    rw [← RawBufRing.length_queue]
    omega
  have hqueue : raw.bufRingSync.queue s.head = s.raw.queue s.head ++ [s.raw.entry buffer.bid] :=
    hadded.queue s.head hroom
  have hentry : ∀ bid, raw.bufRingSync.entry bid = s.raw.entry bid := by
    intro bid
    simp only [RawBufRing.entry, RawBufRing.bufRingSync, hadded.bufLen]
  have hentries : raw.bufRingSync.entries = s.raw.entries := by
    change raw.ringEntriesMask.toNat + 1 = _
    rw [hadded.mask]
    rfl
  have hlength := hheld.length_eq
  rw [List.length_cons] at hlength
  refine ⟨{ s with raw := raw.bufRingSync, held := s.held.eraseIdx index }, ?_, ⟨⟨?_, ?_, ?_⟩, rfl,
    hadded.bufLen.trans h.bufLen, ?_, ?_, ?_, h.completed, ?_, ?_⟩⟩
  · rw [BufGroup.drop, hbuffer]
    simp only [Option.bind_eq_bind, Option.bind_some, RawBufRing.droppingBid, hraw]
    rfl
  · rw [hentries]
    exact h.sized.pow
  · rw [hentries]
    exact h.sized.le
  · rw [hentries]
    change raw.bufCnt.toNat ≤ _
    rw [hadded.bufCnt]
    exact h.sized.bufCnt
  · change List.Perm _ ((List.range raw.bufCnt.toNat).map UInt16.ofNat)
    rw [hadded.bufCnt]
    refine List.Perm.trans ?_ h.once
    simp only [places, hqueue, List.map_append, List.map_cons, List.map_nil, List.append_assoc]
    apply List.Perm.append_left
    have hmiddle : (buffer.bid :: (s.completions.filterMap Cqe.bid ++
        (s.held.eraseIdx index).map BufX.bid)).Perm (s.completions.filterMap Cqe.bid ++
        buffer.bid :: (s.held.eraseIdx index).map BufX.bid) := List.perm_middle.symm
    exact hmiddle.trans (List.Perm.append_left _ (hheld.map BufX.bid))
  · intro entry hmem
    rw [hentry]
    change entry ∈ raw.bufRingSync.queue s.head at hmem
    rw [hqueue] at hmem
    rcases List.mem_append.mp hmem with hold | hnew
    · exact h.queued entry hold
    · cases List.mem_singleton.mp hnew
      rfl
  · change raw.possibleCur.toNat + (s.held.eraseIdx index).length = raw.bufCnt.toNat
    rw [hadded.possibleCur, hadded.bufCnt]
    omega
  · intro bid hmem
    have hsub : ((s.held.eraseIdx index).map BufX.bid) ⊆ s.held.map BufX.bid :=
      List.map_subset _ (List.eraseIdx_subset)
    rcases List.mem_append.mp hmem with hold | hold
    · obtain ⟨hlength, hslice⟩ := h.filled bid (List.mem_append_left _ hold)
      exact ⟨hlength, hslice⟩
    · obtain ⟨hlength, hslice⟩ := h.filled bid (List.mem_append_right _ (hsub hold))
      exact ⟨hlength, hslice⟩
  · intro buffer' hbuffer'
    exact h.held buffer' (List.mem_of_mem_eraseIdx hbuffer')

theorem step (h : s.Sound) {act : Action} (hstep : s.step act = some s') : s'.Sound := by
  cases act with
  | receive datagram more => exact h.receive hstep
  | fail error more =>
    simp only [BufGroup.step] at hstep
    split at hstep
    · rename_i herror
      cases hstep
      exact h.fail herror
    · cases hstep
  | takeCompletion =>
    cases hcompletions : s.completions with
    | nil =>
      simp only [BufGroup.step, BufGroup.takeCompletion, hcompletions] at hstep
      cases hstep
    | cons cqe completions =>
      obtain ⟨s₁, hs₁, hsound, -⟩ := h.takeCompletion hcompletions
      cases hs₁.symm.trans hstep
      exact hsound
  | drop index =>
    by_cases hindex : index < s.held.length
    · obtain ⟨s₁, hs₁, hsound⟩ := h.drop hindex
      cases hs₁.symm.trans hstep
      exact hsound
    · simp only [BufGroup.step, BufGroup.drop, List.getElem?_eq_none (Nat.le_of_not_lt hindex)]
        at hstep
      cases hstep

end Sound

/-- `reads`: what the worker finds in a buffer is the datagram. -/
structure Exact (s : BufGroup) : Prop where
  once : s.places.Perm ((List.range s.raw.bufCnt.toNat).map UInt16.ofNat)
  room : (s.raw.queue s.head).length ≤ s.raw.entries
  ready : ∀ entry ∈ s.raw.queue s.head,
    entry = ⟨requestBufLen * entry.bid.toNat, UInt32.ofNat requestBufLen, entry.bid⟩
  possibleCur : s.raw.possibleCur.toNat =
    (s.raw.queue s.head).length + (s.completions.filterMap Cqe.bid).length
  takes : ∀ cqe completions, s.completions = cqe :: completions →
    ∃ s', s.step .takeCompletion = some s' ∧ (¬ cqe.result < 0 → ∃ buffer,
      s'.held = s.held ++ [buffer])
  drops : ∀ index, index < s.held.length → ∃ s', s.step (.drop index) = some s'
  reads : ∀ buffer ∈ s.held, buffer.asSlice s.raw s.memory = some (s.datagrams buffer.bid)

theorem Sound.exact {s : BufGroup} (h : s.Sound) : s.Exact where
  once := h.once
  room := by
    have hcount := h.length_places
    have hcnt := h.sized.bufCnt
    omega
  ready := by
    intro entry hentry
    have hready := h.queued entry hentry
    rw [RawBufRing.entry, h.bufLen] at hready
    exact hready
  possibleCur := by
    have hcount := h.length_places
    have hcur := h.possibleCur
    omega
  takes := by
    intro cqe completions hcompletions
    obtain ⟨s', hs', -, -, -, -, hheld⟩ := h.takeCompletion hcompletions
    refine ⟨s', hs', fun hresult => ?_⟩
    obtain ⟨bid, hselect, -⟩ :=
      h.completed cqe (by rw [hcompletions]; exact List.mem_cons_self) hresult
    rw [Cqe.bid, if_neg hresult, hselect] at hheld
    exact ⟨_, hheld⟩
  drops := by
    intro index hindex
    obtain ⟨s', hs', -⟩ := h.drop hindex
    exact ⟨s', hs'⟩
  reads := by
    intro buffer hbuffer
    have hmem : buffer.bid ∈ s.completions.filterMap Cqe.bid ++ s.held.map BufX.bid :=
      List.mem_append_right _ (List.mem_map_of_mem hbuffer)
    rw [BufX.asSlice, RawBufRing.stablePtr, if_pos (h.lt_bufCnt (List.mem_append_right _ hmem))]
    simp only [Option.bind_eq_bind, Option.bind_some, Option.pure_def, Option.some.injEq]
    rw [h.held buffer hbuffer, h.bufLen]
    exact (h.filled _ hmem).slice

/-- A worker with a ring of any size that it starts with: in every run no buffer is lost, given
away twice or overwritten, and nothing panics. -/
theorem receive_buffers_exact (ringSize : UInt16) :
    ((∃ raw, workerBufRing ringSize = some raw) ↔ ringSize ≤ 32768) ∧
      ∀ raw, workerBufRing ringSize = some raw → ∀ s, Reachable BufGroup.step (init raw) s →
        s.Exact := by
  obtain ⟨hstarts, hfresh⟩ := workerBufRing_spec ringSize
  refine ⟨hstarts, ?_⟩
  intro raw hraw s hreach
  exact (invariant_of_reachable (fun h hstep => h.step hstep) (sound_init (hfresh raw hraw))
    hreach).exact

end BufGroup

end Aquatic.Udp.Uring
