import Aquatic.Ws.PendingScrapes
import Aquatic.Ws.SeederCount

/-!
# Slots of pending scrapes

A slot in use counts the partial requests and responses that are on the way to it, as long as
no request is empty and the local channel never runs full.
-/

namespace Aquatic.Ws
open Collections Transition
set_option autoImplicit false

namespace ScrapeConnection

def Waits (c : ScrapeConnection) (number : Nat) : Prop :=
  ∃ key slot, c.pendingScrapeSlab key = some slot ∧ slot.number = number

def answers (c : ScrapeConnection) (number : Nat) : Nat :=
  c.answered.countP fun e => e.1 = number

/-- Slots are in use as long as something is on the way to them, and scrapes without a slot
are answered. -/
structure NoLeaks (c : ScrapeConnection) : Prop where
  pending : ∀ {key slot}, c.pendingScrapeSlab key = some slot →
    slot.response.pendingWorkerOutMessages = c.onTheWay (isFor key) ∧ 0 < c.onTheWay (isFor key)
  vacant : ∀ {key}, c.pendingScrapeSlab key = none → c.onTheWay (isFor key) = 0
  answered : ∀ {number}, number < c.accepted →
    c.Waits number ∧ c.answers number = 0 ∨ ¬ c.Waits number ∧ c.answers number = 1

def State.NoLeaks : State → Prop
  | .open c => c.NoLeaks
  | .closed => True

/-- The requests and responses that there are move on. -/
def Action.Transports : Action → Prop
  | .sendInMessage | .handleInMessage _ _ | .receiveOutMessage _ | .writeOutMessage => True
  | _ => False

variable {config : Config} {maxScrapeTorrents : Nat} {connection : Connection}
  {ipVersion : IpVersion} {c c' : ScrapeConnection}

theorem isFor_ofNat {key : Nat} (hkey : key < 256) (k : Nat) :
    isFor k (some ⟨UInt8.ofNat key⟩) = decide (k = key) := by
  have hnat : (UInt8.ofNat key).toNat = key := UInt8.toNat_ofNat_of_lt' hkey
  rw [isFor, Option.any_some, hnat, Bool.eq_iff_iff, beq_iff_eq, decide_eq_true_iff, eq_comm]

theorem isFor_some (k : Nat) (id : PendingScrapeId) :
    isFor k (some id) = decide (k = id.index.toNat) := by
  rw [isFor, Option.any_some, Bool.eq_iff_iff, beq_iff_eq, decide_eq_true_iff, eq_comm]

def pendingIn : Option ScrapeSlot → Nat
  | some slot => slot.response.pendingWorkerOutMessages
  | none => 0

/-- The invariant on slots: they count what is on the way to them. -/
structure Counted (c : ScrapeConnection) : Prop where
  onTheWay : ∀ key, c.onTheWay (isFor key) = pendingIn (c.pendingScrapeSlab key)
  used : ∀ {key slot}, c.pendingScrapeSlab key = some slot →
    0 < slot.response.pendingWorkerOutMessages
  named : c.onTheWay Option.isNone = 0

/-- The invariant on scrapes: one that is accepted waits in one slot or has been answered. -/
structure Recorded (c : ScrapeConnection) : Prop where
  answered : ∀ {number}, number < c.accepted →
    c.Waits number ∧ c.answers number = 0 ∨ ¬ c.Waits number ∧ c.answers number = 1
  numbered : ∀ {key slot}, c.pendingScrapeSlab key = some slot → slot.number < c.accepted
  unique : ∀ {key key' slot slot'}, c.pendingScrapeSlab key = some slot →
    c.pendingScrapeSlab key' = some slot' → slot.number = slot'.number → key = key'
  fresh : ∀ {number}, c.accepted ≤ number → c.answers number = 0

structure Sound (c : ScrapeConnection) : Prop where
  counted : c.Counted
  recorded : c.Recorded
  requested : c.Requested

theorem sound_init : Sound init where
  counted := ⟨fun _ => rfl, nofun, rfl⟩
  recorded := ⟨nofun, nofun, nofun, fun _ => rfl⟩
  requested := nofun

theorem Sound.noLeaks (hc : c.Sound) : c.NoLeaks where
  pending := by
    intro key slot hslot
    rw [hc.counted.onTheWay, hslot]
    exact ⟨rfl, hc.counted.used hslot⟩
  vacant := by
    intro key hvacant
    rw [hc.counted.onTheWay, hvacant]
    rfl
  answered := hc.recorded.answered

section Slots
variable {key : Nat} {opt : Option ScrapeSlot}

theorem Counted.update (hc : c.Counted)
    (hslab : ∀ k, c'.pendingScrapeSlab k = if k = key then opt else c.pendingScrapeSlab k)
    (hway : ∀ k, c'.onTheWay (isFor k) = if k = key then pendingIn opt else c.onTheWay (isFor k))
    (hused : ∀ slot, opt = some slot → 0 < slot.response.pendingWorkerOutMessages)
    (hnamed : c'.onTheWay Option.isNone = 0) : c'.Counted where
  onTheWay := by
    intro k
    rw [hway, hslab]
    split
    · rfl
    · exact hc.onTheWay k
  used := by
    intro k slot hslot
    rw [hslab] at hslot
    split at hslot
    · exact hused slot hslot
    · exact hc.used hslot
  named := hnamed

/-- A response is counted off. -/
theorem Counted.taken {id : PendingScrapeId} {slot : ScrapeSlot} (hc : c.Counted)
    (hslab : ∀ k, c'.pendingScrapeSlab k =
      if k = id.index.toNat then opt else c.pendingScrapeSlab k)
    (hslot : c.pendingScrapeSlab id.index.toNat = some slot)
    (hpending : slot.response.pendingWorkerOutMessages = pendingIn opt + 1)
    (hway : ∀ p, c.onTheWay p = c'.onTheWay p + if p (some id) then 1 else 0)
    (hused : ∀ slot, opt = some slot → 0 < slot.response.pendingWorkerOutMessages) :
    c'.Counted := by
  refine hc.update hslab ?_ hused ?_
  · intro k
    have hk := hway (isFor k)
    rw [isFor_some] at hk
    by_cases heq : k = id.index.toNat
    · have hcount := hc.onTheWay k
      rw [heq, hslot, pendingIn, hpending] at hcount
      simp only [heq, decide_true, if_true] at hk ⊢
      omega
    · simp only [heq, decide_false, Bool.false_eq_true, if_false] at hk ⊢
      omega
  · have hnone := hway Option.isNone
    rw [hc.named] at hnone
    omega

theorem waits_update (hc : c.Recorded)
    (hslab : ∀ k, c'.pendingScrapeSlab k = if k = key then opt else c.pendingScrapeSlab k)
    (number : Nat) : c'.Waits number ↔ (∃ slot, opt = some slot ∧ slot.number = number) ∨
      c.Waits number ∧ ∀ slot, c.pendingScrapeSlab key = some slot → slot.number ≠ number := by
  constructor
  · rintro ⟨k, slot, hslot, hnumber⟩
    rw [hslab] at hslot
    split at hslot
    · exact .inl ⟨slot, hslot, hnumber⟩
    · rename_i hk
      refine .inr ⟨⟨k, slot, hslot, hnumber⟩, ?_⟩
      intro slot' hslot' heq
      exact hk (hc.unique hslot hslot' (hnumber.trans heq.symm))
  · rintro (⟨slot, hslot, hnumber⟩ | ⟨⟨k, slot, hslot, hnumber⟩, hother⟩)
    · exact ⟨key, slot, by rw [hslab, if_pos rfl, hslot], hnumber⟩
    · refine ⟨k, slot, ?_, hnumber⟩
      rw [hslab, if_neg]
      · exact hslot
      · rintro rfl
        exact hother slot hslot hnumber

/-- Slots of different scrapes stay so. -/
theorem Recorded.unique_update (hc : c.Recorded)
    (hslab : ∀ k, c'.pendingScrapeSlab k = if k = key then opt else c.pendingScrapeSlab k)
    (hother : ∀ slot, opt = some slot → ∀ {k slot'}, k ≠ key →
      c.pendingScrapeSlab k = some slot' → slot'.number ≠ slot.number)
    {k k' : Nat} {slot slot' : ScrapeSlot} (hslot : c'.pendingScrapeSlab k = some slot)
    (hslot' : c'.pendingScrapeSlab k' = some slot') (heq : slot.number = slot'.number) :
    k = k' := by
  rw [hslab] at hslot hslot'
  split at hslot
  · rename_i hk
    split at hslot'
    · rename_i hk'
      exact hk.trans hk'.symm
    · rename_i hk'
      exact absurd heq.symm (hother slot hslot hk' hslot')
  · rename_i hk
    split at hslot'
    · exact absurd heq (hother slot' hslot' hk hslot)
    · exact hc.unique hslot hslot' heq

end Slots

theorem Counted.stepped {faultless : Prop} (hc : c.Counted) (h : Stepped c c' faultless)
    (hfault : faultless) : c'.Counted := by
  cases h with
  | moved _ hslab _ _ hway =>
    constructor
    · intro key
      rw [hway, hslab]
      exact hc.onTheWay key
    · intro key slot hslot
      rw [hslab] at hslot
      exact hc.used hslot
    · rw [hway]
      exact hc.named
  | accepted key hpos hkey hvacant hslab _ _ _ hway =>
    refine hc.update hslab ?_ ?_ ?_
    · intro k
      rw [hway, isFor_ofNat hkey]
      by_cases hk : k = key
      · have hzero := hc.onTheWay key
        rw [hvacant] at hzero
        simp [hk, hzero, pendingIn]
      · simp [hk]
    · rintro _ ⟨⟩
      exact hpos.mp hfault
    · rw [hway]
      exact hc.named
  | dropped _ hnot => exact absurd hfault hnot
  | merged _ _ hslot hpending hpos _ hslab _ _ hway =>
    exact hc.taken hslab hslot hpending hway (by rintro _ ⟨⟩; exact hpos)
  | answered _ hslot hpending hslab _ _ hway =>
    exact hc.taken hslab hslot hpending hway nofun

theorem answers_congr (hanswered : c'.answered = c.answered) (number : Nat) :
    c'.answers number = c.answers number := by
  rw [answers, hanswered, answers]

theorem Recorded.accepted {key : Nat} {slot : ScrapeSlot} (hc : c.Recorded)
    (hvacant : c.pendingScrapeSlab key = none)
    (hslab : ∀ k, c'.pendingScrapeSlab k = if k = key then some slot else c.pendingScrapeSlab k)
    (hnumber : slot.number = c.accepted) (haccepted : c'.accepted = c.accepted + 1)
    (hanswered : c'.answered = c.answered) : c'.Recorded where
  answered := by
    intro number hlt
    have hwaits : c'.Waits number ↔ slot.number = number ∨ c.Waits number := by
      rw [waits_update hc hslab]
      simp [hvacant]
    rw [answers_congr hanswered, hwaits]
    by_cases hnew : number = c.accepted
    · exact .inl ⟨.inl (hnumber.trans hnew.symm), hc.fresh (Nat.le_of_eq hnew.symm)⟩
    · have hne : slot.number ≠ number := by omega
      simp only [hne, false_or]
      exact hc.answered (by omega)
  numbered := by
    intro k slot' hslot'
    rw [hslab] at hslot'
    split at hslot'
    · cases hslot'
      omega
    · have hlt := hc.numbered hslot'
      omega
  unique := by
    refine hc.unique_update hslab ?_
    rintro _ ⟨⟩ k slot' - hslot'
    have hlt := hc.numbered hslot'
    omega
  fresh := by
    intro number hle
    rw [answers_congr hanswered]
    exact hc.fresh (by omega)

theorem Recorded.merged {key : Nat} {slot slot' : ScrapeSlot} (hc : c.Recorded)
    (hslab : ∀ k, c'.pendingScrapeSlab k = if k = key then some slot' else c.pendingScrapeSlab k)
    (hslot : c.pendingScrapeSlab key = some slot) (hnumber : slot'.number = slot.number)
    (haccepted : c'.accepted = c.accepted) (hanswered : c'.answered = c.answered) :
    c'.Recorded where
  answered := by
    intro number hlt
    rw [haccepted] at hlt
    have hwaits : c'.Waits number ↔ c.Waits number := by
      rw [waits_update hc hslab]
      by_cases heq : slot.number = number
      · simp only [Option.some.injEq, exists_eq_left', hnumber, heq, true_or, true_iff]
        exact ⟨key, slot, hslot, heq⟩
      · simp [hslot, hnumber, heq]
    rw [answers_congr hanswered, hwaits]
    exact hc.answered hlt
  numbered := by
    intro k other hother
    rw [hslab] at hother
    rw [haccepted]
    split at hother
    · cases hother
      rw [hnumber]
      exact hc.numbered hslot
    · exact hc.numbered hother
  unique := by
    refine hc.unique_update hslab ?_
    rintro _ ⟨⟩ k other hk hother heq
    exact hk (hc.unique hother hslot (heq.trans hnumber))
  fresh := by
    intro number hle
    rw [answers_congr hanswered]
    exact hc.fresh (haccepted ▸ hle)

theorem Recorded.removed {key : Nat} {slot : ScrapeSlot} {response : ScrapeResponse}
    (hc : c.Recorded)
    (hslab : ∀ k, c'.pendingScrapeSlab k = if k = key then none else c.pendingScrapeSlab k)
    (hslot : c.pendingScrapeSlab key = some slot) (haccepted : c'.accepted = c.accepted)
    (hanswered : c'.answered = c.answered ++ [(slot.number, response)]) : c'.Recorded := by
  have hanswers : ∀ number, c'.answers number =
      c.answers number + if slot.number = number then 1 else 0 := by
    intro number
    rw [answers, hanswered, List.countP_append, List.countP_singleton, answers]
    simp only [decide_eq_true_eq]
  constructor
  · intro number hlt
    rw [haccepted] at hlt
    have hwaits : c'.Waits number ↔ c.Waits number ∧ slot.number ≠ number := by
      rw [waits_update hc hslab]
      simp [hslot]
    rw [hanswers, hwaits]
    by_cases hnumber : slot.number = number
    · rcases hc.answered hlt with ⟨-, hzero⟩ | ⟨hnot, -⟩
      · refine .inr ⟨fun hw => hw.2 hnumber, ?_⟩
        rw [hzero, if_pos hnumber]
      · exact absurd ⟨key, slot, hslot, hnumber⟩ hnot
    · simp only [hnumber, if_false, Nat.add_zero, ne_eq, not_false_eq_true, and_true]
      exact hc.answered hlt
  · intro k other hother
    rw [hslab] at hother
    rw [haccepted]
    split at hother
    · cases hother
    · exact hc.numbered hother
  · exact hc.unique_update hslab nofun
  · intro number hle
    rw [haccepted] at hle
    have hlt := hc.numbered hslot
    rw [hanswers, hc.fresh hle, if_neg (by omega)]

theorem Recorded.stepped {faultless : Prop} (hc : c.Recorded) (h : Stepped c c' faultless)
    (hfault : faultless) : c'.Recorded := by
  cases h with
  | moved _ hslab haccepted hanswered _ =>
    constructor
    · intro number hlt
      rw [answers_congr hanswered, Waits, hslab]
      exact hc.answered (haccepted ▸ hlt)
    · intro key slot hslot
      rw [hslab] at hslot
      rw [haccepted]
      exact hc.numbered hslot
    · intro key key' slot slot' hslot hslot'
      rw [hslab] at hslot hslot'
      exact hc.unique hslot hslot'
    · intro number hle
      rw [answers_congr hanswered]
      exact hc.fresh (haccepted ▸ hle)
  | accepted _ _ _ hvacant hslab hnumber haccepted hanswered _ =>
    exact hc.accepted hvacant hslab hnumber haccepted hanswered
  | dropped _ hnot => exact absurd hfault hnot
  | merged _ _ hslot _ _ hnumber hslab haccepted hanswered _ =>
    exact hc.merged hslab hslot hnumber haccepted hanswered
  | answered _ hslot _ hslab haccepted hanswered _ =>
    exact hc.removed hslab hslot haccepted hanswered

/-- A fault shows at once. -/
theorem not_noLeaks_of_fault {faultless : Prop} (hc : c.Counted) (h : Stepped c c' faultless)
    (hfault : ¬ faultless) : ¬ c'.NoLeaks := by
  intro hleaks
  cases h with
  | moved hnot => exact hfault hnot
  | accepted key hiff _ _ hslab =>
    obtain ⟨heq, hpos⟩ := hleaks.pending ((hslab key).trans (if_pos rfl))
    exact hfault (hiff.mpr (heq ▸ hpos))
  | dropped id _ hslab hway =>
    cases id with
    | none =>
      have hnone := hway Option.isNone
      rw [hc.named, Option.isNone_none, if_pos rfl] at hnone
      omega
    | some id =>
      have hone := hway (isFor id.index.toNat)
      rw [isFor_some, hc.onTheWay, if_pos (by simp)] at hone
      cases hslot : c.pendingScrapeSlab id.index.toNat with
      | none =>
        rw [hslot, pendingIn] at hone
        omega
      | some slot =>
        have heq := (hleaks.pending (hslab ▸ hslot)).1
        rw [hslot, pendingIn] at hone
        omega
  | merged _ hnot => exact hfault hnot
  | answered hnot => exact hfault hnot

theorem Sound.stepped {faultless : Prop} (hc : c.Sound) (h : Stepped c c' faultless)
    (hfault : faultless) (hrequested : c'.Requested) : c'.Sound :=
  ⟨hc.counted.stepped h hfault, hc.recorded.stepped h hfault, hrequested⟩

def State.Sound : State → Prop
  | .open c => c.Sound
  | .closed => True

section Steps
variable {s s' : State} {act : Action}

theorem step_sound (hs : s.Sound)
    (h : step config maxScrapeTorrents connection ipVersion s act = some s')
    (hfault : Faultless s act) : s'.Sound := by
  cases s with
  | closed => cases h
  | «open» c =>
    rcases stepped_of_step hs.requested h with ⟨rfl, -⟩ | ⟨c', rfl, hrequested, hstepped⟩
    · trivial
    · exact hs.stepped hstepped hfault hrequested

theorem noLeaks_iff_faultless (hs : s.Sound)
    (h : step config maxScrapeTorrents connection ipVersion s act = some s') :
    s'.NoLeaks ↔ Faultless s act := by
  constructor
  · intro hleaks
    cases s with
    | closed => cases h
    | «open» c =>
      rcases stepped_of_step hs.requested h with ⟨-, hfault⟩ | ⟨c', rfl, -, hstepped⟩
      · exact hfault
      · by_contra hfault
        exact not_noLeaks_of_fault hs.counted hstepped hfault hleaks
  · intro hfault
    have hs' := step_sound hs h hfault
    cases s' with
    | closed => trivial
    | «open» c' => exact hs'.noLeaks

end Steps

/-- How many steps the messages have to take. -/
def remaining (c : ScrapeConnection) : Nat :=
  4 * c.unsent.length + 3 * c.inMessages.length + 2 * c.outMessages.length +
    c.localMessages.length

def State.remaining : State → Nat
  | .open c => c.remaining
  | .closed => 0

variable (config maxScrapeTorrents connection ipVersion)

theorem exists_handleInMessage {e : Nat × InMessageMeta × ScrapeRequest}
    (he : ∃ infoHashes, e.2.2.infoHashes = some infoHashes) : ∃ response,
      handleInMessage maxScrapeTorrents .empty e = some [(e.2.1.out, .scrapeResponse response)] := by
  obtain ⟨out, hout, -⟩ := TorrentMap.handleScrapeRequest_spec
    (TorrentMaps.counted_empty e.2.1.ipVersion) maxScrapeTorrents e.2.1 e.2.2
  have heq : handleInMessage maxScrapeTorrents .empty e =
      some (out.map fun r => (r.1, .scrapeResponse r.2)) := by
    rw [handleInMessage, TorrentMaps.handleScrapeRequest, hout]
    rfl
  obtain ⟨response, hresponse⟩ := handleInMessage_eq he heq
  exact ⟨response, hresponse ▸ heq⟩

/-- The slot that the next response is for is there. -/
theorem exists_writeScrapeResponse (hc : c.Sound) {metadata : OutMessageMeta}
    {response : ScrapeResponse} {messages : List (OutMessageMeta × WriterMessage)}
    (hmessages : c.localMessages = (metadata, .scrapeResponse response) :: messages) :
    ∃ c', writeScrapeResponse { c with localMessages := messages } metadata.pendingScrapeId
        response = some (.open c') ∧ c'.accepted = c.accepted ∧ c'.unsent = c.unsent ∧
      c'.inMessages = c.inMessages ∧ c'.outMessages = c.outMessages ∧
      c'.localMessages = messages := by
  have hway : ∀ p, p metadata.pendingScrapeId = true → 0 < c.onTheWay p := by
    intro p hp
    simp only [onTheWay, hmessages, List.countP_cons, WriterMessage.isScrapeResponse,
      Bool.true_and, hp, if_true]
    omega
  cases hid : metadata.pendingScrapeId with
  | none =>
    have hnone := hway Option.isNone (by rw [hid]; rfl)
    rw [hc.counted.named] at hnone
    omega
  | some id =>
    have hpos := hway (isFor id.index.toNat) (by rw [hid, isFor_some, decide_eq_true rfl])
    rw [hc.counted.onTheWay] at hpos
    unfold writeScrapeResponse
    simp only
    cases hslot : c.pendingScrapeSlab id.index.toNat with
    | none =>
      rw [hslot, pendingIn] at hpos
      omega
    | some slot =>
      rw [hslot, pendingIn] at hpos
      simp only [PendingScrapeResponse.merge, usizeSub_of_le hpos, Option.bind_eq_bind,
        Option.bind_some, Option.pure_def, Option.map_some]
      split
      · exact ⟨_, rfl, rfl, rfl, rfl, rfl, rfl⟩
      · exact ⟨_, rfl, rfl, rfl, rfl, rfl, rfl⟩

/-- A message can move on. -/
def Moves (c : ScrapeConnection) : Prop :=
  ∃ act c', step config maxScrapeTorrents connection ipVersion (.open c) act = some (.open c') ∧
    act.Transports ∧ Faultless (.open c) act ∧ c'.accepted = c.accepted ∧
    c'.remaining < c.remaining

theorem moves_localMessage (hc : c.Sound) {message : OutMessageMeta × WriterMessage}
    {messages : List (OutMessageMeta × WriterMessage)}
    (hlocal : c.localMessages = message :: messages) :
    Moves config maxScrapeTorrents connection ipVersion c := by
  obtain ⟨metadata, message⟩ := message
  refine ⟨.writeOutMessage, ?_⟩
  simp only [step, hlocal]
  cases message with
  | scrapeResponse response =>
    obtain ⟨c', hwrite, haccepted, hunsent, hin, hout, hmessages⟩ :=
      exists_writeScrapeResponse hc hlocal
    refine ⟨c', hwrite, trivial, trivial, haccepted, ?_⟩
    rw [remaining, remaining, hunsent, hin, hout, hmessages, hlocal, List.length_cons]
    omega
  | other message =>
    refine ⟨_, rfl, trivial, trivial, rfl, ?_⟩
    simp only [remaining, hlocal, List.length_cons]
    omega

/-- The local channel is empty and has room. -/
theorem moves_outMessage {message : OutMessageMeta × WriterMessage}
    {messages : List (OutMessageMeta × WriterMessage)} (hlocal : c.localMessages = [])
    (hout : c.outMessages = message :: messages) :
    Moves config maxScrapeTorrents connection ipVersion c := by
  have hroom : c.localMessages.length < localChannelSize := by
    rw [hlocal]
    decide
  have hreceive : receiveOutMessage { c with outMessages := messages } message =
      { c with outMessages := messages, localMessages := c.localMessages ++ [message] } :=
    if_pos hroom
  refine ⟨.receiveOutMessage 0,
    { c with outMessages := messages, localMessages := c.localMessages ++ [message] }, ?_,
    trivial, fun _ _ _ => hroom, rfl, ?_⟩
  · simp only [step, hout, List.getElem?_cons_zero, List.eraseIdx_cons_zero, Option.map_some,
      hreceive]
  · simp only [remaining, hout, hlocal, List.length_cons, List.nil_append, List.length_nil]
    omega

theorem moves_inMessage (hc : c.Requested) {e : Nat × InMessageMeta × ScrapeRequest}
    {messages : List (Nat × InMessageMeta × ScrapeRequest)}
    (hin : c.inMessages = e :: messages) :
    Moves config maxScrapeTorrents connection ipVersion c := by
  have he : e ∈ c.unsent ++ c.inMessages := by
    rw [hin]
    exact List.mem_append_right _ List.mem_cons_self
  obtain ⟨response, hresponse⟩ := exists_handleInMessage maxScrapeTorrents (hc e he)
  refine ⟨.handleInMessage 0 .empty,
    { c with
      inMessages := messages
      outMessages := c.outMessages ++ [(e.2.1.out, .scrapeResponse response)] },
    ?_, trivial, trivial, rfl, ?_⟩
  · simp only [step, hin, List.getElem?_cons_zero, List.eraseIdx_cons_zero, Option.bind_some,
      hresponse, Option.map_some]
  · simp only [remaining, hin, List.length_append, List.length_cons, List.length_nil]
    omega

theorem moves_unsent {e : Nat × InMessageMeta × ScrapeRequest}
    {requests : List (Nat × InMessageMeta × ScrapeRequest)} (hunsent : c.unsent = e :: requests) :
    Moves config maxScrapeTorrents connection ipVersion c := by
  refine ⟨.sendInMessage, { c with unsent := requests, inMessages := c.inMessages ++ [e] }, ?_,
    trivial, trivial, rfl, ?_⟩
  · simp only [step, hunsent]
  · simp only [remaining, hunsent, List.length_append, List.length_cons, List.length_nil]
    omega

/-- As long as there are messages, one of them can move on: the one closest to the writer. -/
theorem exists_transport (hc : c.Sound) : c.remaining = 0 ∨
    Moves config maxScrapeTorrents connection ipVersion c := by
  cases hlocal : c.localMessages with
  | cons message messages =>
    exact .inr (moves_localMessage config maxScrapeTorrents connection ipVersion hc hlocal)
  | nil =>
    cases hout : c.outMessages with
    | cons message messages =>
      exact .inr (moves_outMessage config maxScrapeTorrents connection ipVersion hlocal hout)
    | nil =>
      cases hin : c.inMessages with
      | cons e messages =>
        exact .inr (moves_inMessage config maxScrapeTorrents connection ipVersion hc.requested hin)
      | nil =>
        cases hunsent : c.unsent with
        | cons e requests =>
          exact .inr (moves_unsent config maxScrapeTorrents connection ipVersion hunsent)
        | nil =>
          left
          rw [remaining, hunsent, hin, hout, hlocal]
          rfl

theorem onTheWay_of_remaining (h : c.remaining = 0) (p : Option PendingScrapeId → Bool) :
    c.onTheWay p = 0 := by
  have hunsent : c.unsent = [] := List.length_eq_zero_iff.mp (by rw [remaining] at h; omega)
  have hin : c.inMessages = [] := List.length_eq_zero_iff.mp (by rw [remaining] at h; omega)
  have hout : c.outMessages = [] := List.length_eq_zero_iff.mp (by rw [remaining] at h; omega)
  have hlocal : c.localMessages = [] := List.length_eq_zero_iff.mp (by rw [remaining] at h; omega)
  rw [onTheWay, hunsent, hin, hout, hlocal]
  rfl

/-- All that is on the way can be delivered, and then every scrape has been answered. -/
theorem exists_delivery (hc : c.Sound) : ∃ acts c',
    run (step config maxScrapeTorrents connection ipVersion) (.open c) acts = some (.open c') ∧
      AllSteps (step config maxScrapeTorrents connection ipVersion)
        (fun s act _ => act.Transports ∧ Faultless s act) (.open c) acts ∧
      (∀ key, c'.pendingScrapeSlab key = none) ∧
      ∀ number < c.accepted, c'.answers number = 1 := by
  have progress : ∀ {s : State},
      (∃ c', s = .open c' ∧ c'.Sound ∧ c'.accepted = c.accepted) →
      (∃ c', s = .open c' ∧ c'.remaining = 0) ∨ ∃ act s',
        step config maxScrapeTorrents connection ipVersion s act = some s' ∧
        (act.Transports ∧ Faultless s act) ∧
        (∃ c', s' = .open c' ∧ c'.Sound ∧ c'.accepted = c.accepted) ∧
        s'.remaining < s.remaining := by
    rintro _ ⟨c₁, rfl, hc₁, haccepted⟩
    rcases exists_transport config maxScrapeTorrents connection ipVersion hc₁ with
      hdone | ⟨act, c₂, hstep, htransports, hfault, haccepted', hlt⟩
    · exact .inl ⟨c₁, rfl, hdone⟩
    · refine .inr ⟨act, .open c₂, hstep, ⟨htransports, hfault⟩, ?_, hlt⟩
      exact ⟨c₂, rfl, step_sound (s := .open c₁) hc₁ hstep hfault, haccepted'.trans haccepted⟩
  obtain ⟨acts, s', hrun, hall, ⟨c', rfl, hc', haccepted⟩, ⟨c'', heq, hdone⟩⟩ :=
    exists_run_of_decreasing State.remaining progress ⟨c, rfl, hc, rfl⟩
  cases heq
  have hvacant : ∀ key, c'.pendingScrapeSlab key = none := by
    intro key
    cases hslot : c'.pendingScrapeSlab key with
    | none => rfl
    | some slot =>
      have hpos := (hc'.noLeaks.pending hslot).2
      rw [onTheWay_of_remaining hdone] at hpos
      omega
  refine ⟨acts, c', hrun, hall, hvacant, ?_⟩
  intro number hlt
  rcases hc'.recorded.answered (haccepted ▸ hlt) with ⟨⟨key, slot, hslot, -⟩, -⟩ | ⟨-, hone⟩
  · rw [hvacant] at hslot
    cases hslot
  · exact hone

/-- No slot leaks in a run exactly when it is without faults, and then everything can still be
delivered, which answers every scrape once. -/
theorem noLeaks_iff (acts : List Action) :
    (AllSteps (step config maxScrapeTorrents connection ipVersion)
        (fun _ _ s' => s'.NoLeaks) (.open init) acts ↔
      AllSteps (step config maxScrapeTorrents connection ipVersion)
        (fun s act _ => Faultless s act) (.open init) acts) ∧
    ∀ c, AllSteps (step config maxScrapeTorrents connection ipVersion)
        (fun s act _ => Faultless s act) (.open init) acts →
      run (step config maxScrapeTorrents connection ipVersion) (.open init) acts =
        some (.open c) →
      ∃ acts' c', run (step config maxScrapeTorrents connection ipVersion) (.open c) acts' =
          some (.open c') ∧
        AllSteps (step config maxScrapeTorrents connection ipVersion)
          (fun s act _ => act.Transports ∧ Faultless s act) (.open c) acts' ∧
        (∀ key, c'.pendingScrapeSlab key = none) ∧
        ∀ number < c.accepted, c'.answers number = 1 := by
  have hinit : (State.open init).Sound := sound_init
  constructor
  · refine allSteps_iff ?_ ?_ hinit acts
    · intro s act s' hs hstep hleaks
      exact step_sound hs hstep ((noLeaks_iff_faultless hs hstep).mp hleaks)
    · intro s act s' hs hstep
      exact noLeaks_iff_faultless hs hstep
  · intro c hfaults hrun
    have hsound : (State.open c).Sound :=
      run_invariant step_sound hinit hfaults hrun
    exact exists_delivery config maxScrapeTorrents connection ipVersion hsound

def twoWorkersConfig : Config where
  swarmWorkers := 2
  protocol := ⟨10, 120⟩
  cleaning := ⟨180, 120⟩
  accessListMode := .off

def scrapingConnection : Connection := ⟨⟨0⟩, ⟨0, 1⟩⟩

def scrapeOf (infoHashes : List InfoHash) : Action :=
  .scrapeRequest ⟨some (.multiple infoHashes)⟩ false 0

def twoWorkersScrape : Action := scrapeOf [⟨Vector.replicate 20 7⟩, ⟨Vector.replicate 20 8⟩]

theorem answered_twoWorkersScrape : ∃ c acts c',
    run (step twoWorkersConfig 10 scrapingConnection .v4) (.open init) [twoWorkersScrape] =
      some (.open c) ∧
    c.NoLeaks ∧ run (step twoWorkersConfig 10 scrapingConnection .v4) (.open c) acts =
      some (.open c') ∧ c'.answers 0 = 1 := by
  obtain ⟨hiff, hdelivery⟩ := noLeaks_iff twoWorkersConfig 10 scrapingConnection .v4
    [twoWorkersScrape]
  have hfaultless : Faultless (.open init) twoWorkersScrape := by
    rintro _ _ _ ⟨⟩
    exact List.cons_ne_nil _ _
  have hfaults : AllSteps (step twoWorkersConfig 10 scrapingConnection .v4)
      (fun s act _ => Faultless s act) (.open init) [twoWorkersScrape] :=
    .cons rfl hfaultless trivial
  obtain ⟨acts, c', hrun, -, -, hone⟩ := hdelivery _ hfaults rfl
  exact ⟨_, acts, c', rfl, (hiff.mpr hfaults _ rfl).1, hrun, hone 0 (by decide)⟩

/-- The only partial response meets a channel full of announce responses. -/
def fullChannelRun : List Action :=
  [scrapeOf [⟨Vector.replicate 20 7⟩], .sendInMessage, .handleInMessage 0 .empty] ++
    List.replicate 16 (.outMessage (.announceResponse ⟨⟨Vector.replicate 20 7⟩, 0, 1, 120⟩)) ++
    List.replicate 16 (.receiveOutMessage 1) ++ [.receiveOutMessage 0]

/-- Nothing is on the way to a slot in use. -/
theorem leaked_slot :
    (∃ c slot, run (step twoWorkersConfig 10 scrapingConnection .v4) (.open init) [scrapeOf []] =
      some (.open c) ∧ c.pendingScrapeSlab 0 = some slot ∧ c.onTheWay (isFor 0) = 0) ∧
    ∃ c slot, run (step twoWorkersConfig 10 scrapingConnection .v4) (.open init) fullChannelRun =
      some (.open c) ∧ c.pendingScrapeSlab 0 = some slot ∧ c.onTheWay (isFor 0) = 0 :=
  ⟨⟨_, _, rfl, rfl, rfl⟩, ⟨_, _, rfl, rfl, rfl⟩⟩

end ScrapeConnection

end Aquatic.Ws
