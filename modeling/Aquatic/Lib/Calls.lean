import Mathlib.Data.List.Forall2
import Mathlib.Data.List.Nodup
import Mathlib.Data.List.Perm.Basic
import Mathlib.Logic.Function.Basic

/-!
# Calls and their responses

Clients send requests to servers, over lanes that keep their order; each request comes with a
channel of its own for the response. A server handles one request of a lane at a time, and its
response leaves it some time later. Seen from outside, a call is an operation that is asked for
and then done: exactly once, at the moment when it is handled, whatever happens before and after.
-/

namespace Calls
set_option autoImplicit false

universe u v w
variable {Q : Type u} {A : Type v} {X : Type w}

/-- The ticket is the response channel. A lane leads to a server, from one of several places. -/
structure Call (Q : Type u) where
  ticket : Nat
  client : Nat
  lane : Nat × Nat
  request : Q

/-- All that is under way. What a client has still to send is in `unsent`; `answering` is a
response that has not left its server yet. -/
structure Board (Q : Type u) (A : Type v) where
  unsent : List (Call Q)
  sent : List (Call Q)
  answering : Nat × Nat → Option (Nat × A)
  responses : Nat → Option A
  issued : Nat

/-- The first element with the property, and the others. -/
def takeFirst {α : Type u} (p : α → Bool) : List α → Option (α × List α)
  | [] => none
  | x :: xs => if p x then some (x, xs) else (takeFirst p xs).map fun (y, ys) => (y, x :: ys)

theorem takeFirst_perm {α : Type u} {p : α → Bool} {xs rest : List α} {x : α}
    (h : takeFirst p xs = some (x, rest)) : xs.Perm (x :: rest) ∧ p x = true := by
  induction xs generalizing rest with
  | nil => cases h
  | cons y ys ih =>
    unfold takeFirst at h
    split at h
    · rename_i hy
      cases h
      exact ⟨.refl _, hy⟩
    · obtain ⟨⟨z, zs⟩, htake, heq⟩ := Option.map_eq_some_iff.mp h
      cases heq
      obtain ⟨hperm, hz⟩ := ih htake
      exact ⟨(hperm.cons y).trans (.swap _ _ _), hz⟩

namespace Board

def empty : Board Q A := ⟨[], [], fun _ => none, fun _ => none, 0⟩

/-- The calls of a client, with the tickets from `first` on. -/
def calls (client first : Nat) : List ((Nat × Nat) × Q) → List (Call Q)
  | [] => []
  | (lane, request) :: requests =>
    ⟨first, client, lane, request⟩ :: calls client (first + 1) requests

/-- A client starts on its calls. -/
def issue (s : Board Q A) (client : Nat) (requests : List ((Nat × Nat) × Q)) : Board Q A :=
  { s with
    unsent := s.unsent ++ calls client s.issued requests
    issued := s.issued + requests.length }

/-- A client sends the next of its calls. -/
def send (s : Board Q A) (client : Nat) : Option (Board Q A) :=
  (takeFirst (fun call => call.client = client) s.unsent).map fun (call, unsent) =>
    { s with unsent, sent := s.sent ++ [call] }

/-- A server handles the next call of a lane. -/
def handle (s : Board Q A) (lane : Nat × Nat) (answer : Q → Option (A × X)) :
    Option (X × Board Q A) :=
  if (s.answering lane).isSome then none
  else
    (takeFirst (fun call => call.lane = lane) s.sent).bind fun (call, sent) =>
      (answer call.request).map fun (a, x) =>
        (x, { s with
          sent
          answering := Function.update s.answering lane (some (call.ticket, a)) })

/-- A response leaves its server. -/
def deliver (s : Board Q A) (lane : Nat × Nat) : Option (Board Q A) :=
  (s.answering lane).map fun (ticket, a) =>
    { s with
      answering := Function.update s.answering lane none
      responses := Function.update s.responses ticket (some a) }

/-- A client gives up; what it has sent is on its way. -/
def dismiss (s : Board Q A) (client : Nat) : Board Q A :=
  { s with unsent := s.unsent.filter fun call => call.client ≠ client }

end Board

/-- A call that has been made, done if it has an answer. -/
structure Operation (Q : Type u) (A : Type v) where
  request : Q
  answer : Option A

abbrev Operations (Q : Type u) (A : Type v) := Nat → Option (Operation Q A)

namespace Operations

def ask (ops : Operations Q A) (first : Nat) (requests : List Q) : Operations Q A := fun t =>
  if t < first then ops t else (requests[t - first]?).map fun request => ⟨request, none⟩

def done (ops : Operations Q A) (ticket : Nat) (request : Q) (a : A) : Operations Q A :=
  Function.update ops ticket (some ⟨request, some a⟩)

theorem ask_range' (ops : Operations Q A) (first : Nat) (requests : List Q) :
    List.Forall₂ (fun t request => ops.ask first requests t = some ⟨request, none⟩)
      (List.range' first requests.length) requests := by
  apply List.forall₂_iff_get.mpr
  refine ⟨List.length_range' .., ?_⟩
  intro k hk hk'
  rw [List.get_eq_getElem, List.get_eq_getElem, List.getElem_range', ask, if_neg (by omega),
    Nat.one_mul, Nat.add_sub_cancel_left, List.getElem?_eq_getElem hk']
  rfl

/-- What has been asked and done stays so. -/
def Grows (ops ops' : Operations Q A) : Prop :=
  ∀ t request answer, ops t = some ⟨request, answer⟩ →
    ∃ answer', ops' t = some ⟨request, answer'⟩ ∧ ∀ a, answer = some a → answer' = some a

theorem Grows.refl (ops : Operations Q A) : Grows ops ops :=
  fun _ _ answer h => ⟨answer, h, fun _ ha => ha⟩

theorem Grows.answered {ops ops' : Operations Q A} (h : Grows ops ops') {t : Nat} {request : Q}
    {a : A} (ht : ops t = some ⟨request, some a⟩) : ops' t = some ⟨request, some a⟩ := by
  obtain ⟨answer', ht', hanswer⟩ := h t request (some a) ht
  rw [ht', hanswer a rfl]

theorem grows_done {ops : Operations Q A} {ticket : Nat} {request : Q}
    (h : ops ticket = some ⟨request, none⟩) (a : A) : Grows ops (ops.done ticket request a) := by
  intro t request' answer ht
  unfold done
  by_cases heq : t = ticket
  · rw [heq, h] at ht
    cases ht
    rw [heq, Function.update_self]
    exact ⟨some a, rfl, nofun⟩
  · rw [Function.update_of_ne heq]
    exact ⟨answer, ht, fun _ ha => ha⟩

end Operations

namespace Board

/-- The invariant: what is under way is asked for and not done, and what has an answer is done.
All calls that are under way have the property `P`. -/
structure Sound (P : Call Q → Prop) (s : Board Q A) (ops : Operations Q A) : Prop where
  fresh : ∀ t, s.issued ≤ t → ops t = none
  waiting : ∀ call ∈ s.unsent ++ s.sent, ops call.ticket = some ⟨call.request, none⟩ ∧ P call
  nodup : ((s.unsent ++ s.sent).map Call.ticket).Nodup
  answering : ∀ {lane t a}, s.answering lane = some (t, a) →
    ∃ request, ops t = some ⟨request, some a⟩
  response : ∀ {t a}, s.responses t = some a → ∃ request, ops t = some ⟨request, some a⟩

/-- The call or its response is somewhere. -/
def OnTheWay (s : Board Q A) (client t : Nat) : Prop :=
  (∃ call ∈ s.unsent, call.client = client ∧ call.ticket = t) ∨
  (∃ call ∈ s.sent, call.ticket = t) ∨
  (∃ lane a, s.answering lane = some (t, a)) ∨
  (s.responses t).isSome = true

variable {P : Call Q → Prop} {s s' : Board Q A} {ops : Operations Q A}

theorem sound_empty : Sound P (empty : Board Q A) fun _ => none where
  fresh := fun _ _ => rfl
  waiting := nofun
  nodup := .nil
  answering := nofun
  response := nofun

/-- Calls move on, and nothing is asked or done. -/
theorem Sound.moved (hs : Sound P s ops)
    (hperm : (s'.unsent ++ s'.sent).Subperm (s.unsent ++ s.sent))
    (hissued : s'.issued = s.issued)
    (answering : ∀ {lane t a}, s'.answering lane = some (t, a) →
      ∃ request, ops t = some ⟨request, some a⟩)
    (response : ∀ {t a}, s'.responses t = some a → ∃ request, ops t = some ⟨request, some a⟩) :
    Sound P s' ops where
  fresh := hissued ▸ hs.fresh
  waiting := fun call hcall => hs.waiting call (hperm.subset hcall)
  nodup := by
    obtain ⟨calls, hcalls, hsub⟩ := hperm
    exact (hcalls.map Call.ticket).nodup_iff.mp ((hsub.map Call.ticket).nodup hs.nodup)
  answering := answering
  response := response

theorem mem_calls {client first : Nat} {requests : List ((Nat × Nat) × Q)} {call : Call Q}
    (h : call ∈ calls client first requests) :
    ∃ k, requests[k]? = some (call.lane, call.request) ∧ call.ticket = first + k ∧
      call.client = client := by
  induction requests generalizing first with
  | nil => cases h
  | cons request requests ih =>
    rcases List.mem_cons.mp h with rfl | h
    · exact ⟨0, rfl, rfl, rfl⟩
    · obtain ⟨k, hk, hticket, hclient⟩ := ih h
      exact ⟨k + 1, hk, by omega, hclient⟩

theorem exists_calls {client first k : Nat} {requests : List ((Nat × Nat) × Q)}
    (h : k < requests.length) :
    ∃ call ∈ calls client first requests, call.ticket = first + k ∧ call.client = client := by
  induction requests generalizing first k with
  | nil => cases h
  | cons request requests ih =>
    cases k with
    | zero => exact ⟨_, List.mem_cons_self, rfl, rfl⟩
    | succ k =>
      obtain ⟨call, hcall, hticket, hclient⟩ := @ih (first + 1) k (Nat.lt_of_succ_lt_succ h)
      exact ⟨call, List.mem_cons_of_mem _ hcall, by omega, hclient⟩

theorem tickets_calls (client first : Nat) (requests : List ((Nat × Nat) × Q)) :
    (calls client first requests).map Call.ticket = List.range' first requests.length := by
  induction requests generalizing first with
  | nil => rfl
  | cons request requests ih =>
    rw [calls, List.map_cons, ih]
    rfl

/-- The operations of a client are asked for. -/
theorem Sound.issue (hs : Sound P s ops) (client : Nat) (requests : List ((Nat × Nat) × Q))
    (hP : ∀ call ∈ calls client s.issued requests, P call) :
    Sound P (s.issue client requests) (ops.ask s.issued (requests.map Prod.snd)) ∧
      Operations.Grows ops (ops.ask s.issued (requests.map Prod.snd)) := by
  have hold : ∀ t operation, ops t = some operation →
      ops.ask s.issued (requests.map Prod.snd) t = some operation := by
    intro t operation ht
    rw [Operations.ask, if_pos, ht]
    by_contra hle
    rw [hs.fresh t (Nat.le_of_not_lt hle)] at ht
    cases ht
  refine ⟨⟨?_, ?_, ?_, ?_, ?_⟩, ?_⟩
  · intro t ht
    change s.issued + requests.length ≤ t at ht
    rw [Operations.ask, if_neg (by omega), List.getElem?_eq_none, Option.map_none]
    rw [List.length_map]
    omega
  · intro call hcall
    change call ∈ (s.unsent ++ calls client s.issued requests) ++ s.sent at hcall
    have hcall : call ∈ s.unsent ++ s.sent ∨ call ∈ calls client s.issued requests := by
      simp only [List.mem_append] at hcall ⊢
      tauto
    rcases hcall with hcall | hcall
    · obtain ⟨hop, hP⟩ := hs.waiting call hcall
      exact ⟨hold _ _ hop, hP⟩
    · refine ⟨?_, hP call hcall⟩
      obtain ⟨k, hk, hticket, -⟩ := mem_calls hcall
      rw [Operations.ask, hticket, if_neg (by omega), Nat.add_sub_cancel_left, List.getElem?_map,
        hk]
      rfl
  · change (((s.unsent ++ calls client s.issued requests) ++ s.sent).map Call.ticket).Nodup
    have hperm : ((s.unsent ++ calls client s.issued requests) ++ s.sent).Perm
        ((s.unsent ++ s.sent) ++ calls client s.issued requests) := by
      rw [List.append_assoc, List.append_assoc]
      exact List.perm_append_comm.append_left _
    rw [(hperm.map Call.ticket).nodup_iff, List.map_append, tickets_calls]
    refine hs.nodup.append List.nodup_range' ?_
    intro t ht ht'
    obtain ⟨call, hcall, rfl⟩ := List.mem_map.mp ht
    have hnone := hs.fresh call.ticket (List.mem_range'_1.mp ht').1
    rw [(hs.waiting call hcall).1] at hnone
    cases hnone
  · intro lane t a h
    obtain ⟨request, ht⟩ := hs.answering h
    exact ⟨request, hold _ _ ht⟩
  · intro t a h
    obtain ⟨request, ht⟩ := hs.response h
    exact ⟨request, hold _ _ ht⟩
  · intro t request answer ht
    exact ⟨answer, hold _ _ ht, fun _ ha => ha⟩

theorem Sound.send (hs : Sound P s ops) {client : Nat} (h : s.send client = some s') :
    Sound P s' ops ∧ ∀ {c t}, s.OnTheWay c t → s'.OnTheWay c t := by
  obtain ⟨⟨call, unsent⟩, htake, rfl⟩ := Option.map_eq_some_iff.mp h
  obtain ⟨hperm, -⟩ := takeFirst_perm htake
  constructor
  · refine hs.moved (List.Perm.subperm ?_) rfl hs.answering hs.response
    refine List.Perm.trans ?_ (hperm.symm.append_right s.sent)
    rw [List.cons_append, ← List.append_assoc]
    exact List.perm_append_singleton _ _
  · rintro c t (⟨other, hother, hclient⟩ | ⟨other, hother, hticket⟩ | hway)
    · rcases List.mem_cons.mp (hperm.subset hother) with rfl | hother
      · exact .inr (.inl ⟨other, List.mem_append_right _ List.mem_cons_self, hclient.2⟩)
      · exact .inl ⟨other, hother, hclient⟩
    · exact .inr (.inl ⟨other, List.mem_append_left _ hother, hticket⟩)
    · exact .inr (.inr hway)

/-- An operation is done when its call is handled. -/
theorem Sound.handle (hs : Sound P s ops) {lane : Nat × Nat} {answer : Q → Option (A × X)} {x : X}
    (h : s.handle lane answer = some (x, s')) :
    ∃ call a, call.lane = lane ∧ P call ∧ ops call.ticket = some ⟨call.request, none⟩ ∧
      answer call.request = some (a, x) ∧
      Sound P s' (ops.done call.ticket call.request a) ∧
      ∀ {c t}, s.OnTheWay c t → s'.OnTheWay c t := by
  unfold Board.handle at h
  split at h
  · cases h
  rename_i hidle
  obtain ⟨⟨call, sent⟩, htake, h⟩ := Option.bind_eq_some_iff.mp h
  obtain ⟨⟨a, _⟩, hanswer, heq⟩ := Option.map_eq_some_iff.mp h
  cases heq
  obtain ⟨hperm, hlane⟩ := takeFirst_perm htake
  have hall : (s.unsent ++ s.sent).Perm (call :: (s.unsent ++ sent)) :=
    (hperm.append_left s.unsent).trans List.perm_middle
  obtain ⟨hop, hP⟩ := hs.waiting call (hall.symm.subset List.mem_cons_self)
  have hgrows := Operations.grows_done hop a
  have hself : ops.done call.ticket call.request a call.ticket = some ⟨call.request, some a⟩ :=
    Function.update_self _ _ _
  have hnodup := (hall.map Call.ticket).nodup_iff.mp hs.nodup
  rw [List.map_cons, List.nodup_cons] at hnodup
  refine ⟨call, a, of_decide_eq_true hlane, hP, hop, hanswer, ⟨?_, ?_, hnodup.2, ?_, ?_⟩, ?_⟩
  · intro t ht
    have hnone := hs.fresh t ht
    have hne : t ≠ call.ticket := by
      rintro rfl
      rw [hop] at hnone
      cases hnone
    rw [Operations.done, Function.update_of_ne hne, hnone]
  · intro other hother
    obtain ⟨hop', hP'⟩ := hs.waiting other (hall.symm.subset (List.mem_cons_of_mem _ hother))
    have hne : other.ticket ≠ call.ticket := by
      intro heq
      exact hnodup.1 (heq ▸ List.mem_map_of_mem hother)
    refine ⟨?_, hP'⟩
    rw [Operations.done, Function.update_of_ne hne, hop']
  · intro lane' t a' hanswering
    dsimp only at hanswering
    by_cases heq : lane' = lane
    · rw [heq, Function.update_self] at hanswering
      cases hanswering
      exact ⟨_, hself⟩
    · rw [Function.update_of_ne heq] at hanswering
      obtain ⟨request, ht⟩ := hs.answering hanswering
      exact ⟨request, hgrows.answered ht⟩
  · intro t a' hresponse
    obtain ⟨request, ht⟩ := hs.response hresponse
    exact ⟨request, hgrows.answered ht⟩
  · rintro c t (hunsent | ⟨other, hother, hticket⟩ | ⟨lane', a', hanswering⟩ | hresponse)
    · exact .inl hunsent
    · rcases List.mem_cons.mp (hperm.subset hother) with rfl | hother
      · exact .inr (.inr (.inl ⟨lane, a, hticket ▸ Function.update_self _ _ _⟩))
      · exact .inr (.inl ⟨other, hother, hticket⟩)
    · refine .inr (.inr (.inl ⟨lane', a', ?_⟩))
      have hne : lane' ≠ lane := by
        rintro rfl
        exact hidle (hanswering ▸ rfl)
      exact (Function.update_of_ne hne _ _).trans hanswering
    · exact .inr (.inr (.inr hresponse))

theorem Sound.deliver (hs : Sound P s ops) {lane : Nat × Nat} (h : s.deliver lane = some s') :
    Sound P s' ops ∧ ∀ {c t}, s.OnTheWay c t → s'.OnTheWay c t := by
  obtain ⟨⟨ticket, a⟩, hlane, rfl⟩ := Option.map_eq_some_iff.mp h
  constructor
  · refine hs.moved (List.Perm.refl _).subperm rfl ?_ ?_
    · intro lane' t a' hanswering
      dsimp only at hanswering
      by_cases heq : lane' = lane
      · rw [heq, Function.update_self] at hanswering
        cases hanswering
      · rw [Function.update_of_ne heq] at hanswering
        exact hs.answering hanswering
    · intro t a' hresponse
      dsimp only at hresponse
      by_cases heq : t = ticket
      · rw [heq, Function.update_self] at hresponse
        cases hresponse
        exact heq ▸ hs.answering hlane
      · rw [Function.update_of_ne heq] at hresponse
        exact hs.response hresponse
  · have hresponse : ∀ {t}, t = ticket ∨ (s.responses t).isSome = true →
        (Function.update s.responses ticket (some a) t).isSome = true := by
      intro t ht
      by_cases heq : t = ticket
      · rw [heq, Function.update_self]
        rfl
      · rw [Function.update_of_ne heq]
        exact ht.resolve_left heq
    rintro c t (hunsent | hsent | ⟨lane', a', hanswering⟩ | hsome)
    · exact .inl hunsent
    · exact .inr (.inl hsent)
    · by_cases heq : lane' = lane
      · rw [heq, hlane] at hanswering
        cases hanswering
        exact .inr (.inr (.inr (hresponse (.inl rfl))))
      · exact .inr (.inr (.inl ⟨lane', a', (Function.update_of_ne heq _ _).trans hanswering⟩))
    · exact .inr (.inr (.inr (hresponse (.inr hsome))))

theorem Sound.dismiss (hs : Sound P s ops) (client : Nat) :
    Sound P (s.dismiss client) ops ∧
      ∀ {c t}, c ≠ client → s.OnTheWay c t → (s.dismiss client).OnTheWay c t := by
  constructor
  · exact hs.moved (List.filter_sublist.append_right _).subperm rfl hs.answering hs.response
  · rintro c t hne (⟨call, hcall, hclient⟩ | hway)
    · refine .inl ⟨call, List.mem_filter.mpr ⟨hcall, ?_⟩, hclient⟩
      rw [hclient.1]
      exact decide_eq_true hne
    · exact .inr hway

/-- The calls of a client, and what was on its way before. -/
theorem OnTheWay.issue (client : Nat) (requests : List ((Nat × Nat) × Q)) {c t : Nat}
    (h : s.OnTheWay c t ∨ c = client ∧ s.issued ≤ t ∧ t < s.issued + requests.length) :
    (s.issue client requests).OnTheWay c t := by
  rcases h with (⟨call, hcall, hclient⟩ | hway) | ⟨rfl, hle, hlt⟩
  · exact .inl ⟨call, List.mem_append_left _ hcall, hclient⟩
  · exact .inr hway
  · obtain ⟨call, hcall, hticket, hclient⟩ :=
      @exists_calls _ c s.issued (t - s.issued) requests (by omega)
    exact .inl ⟨call, List.mem_append_right _ hcall, hclient, by omega⟩

end Board

end Calls
