import Aquatic.HttpProtocol.RequestRoundTrip

/-!
# The plain definition of a query string

A query string is cut at its ampersands, and every segment at its first equal sign.
The parsers walk over all equal signs and all ampersands side by side. A segment
without an equal sign, or with more than one, brings the two out of step, and from
then on no key or value can be cut out.
-/

namespace Aquatic.HttpProtocol
open Text Http
set_option autoImplicit false

/-- The pairs of a query string. Segments without an equal sign are skipped. -/
def pairsOf (queryString : List Char) : List Pair :=
  (queryString.splitOn '&').filterMap (splitOnce ['='])

/-- The pairs, interpreted one after the other. -/
def foldPairs {σ : Type} (setField : σ → List Char → List Char → Except String σ)
    (pairs : List Pair) (fields : σ) : Except String σ :=
  pairs.foldlM (fun fields pair => setField fields pair.1 pair.2) fields

def AnnounceRequest.parsePlainly (urlencoding : UrlEncoding) (queryString : List Char) :
    Except String AnnounceRequest := do
  let fields ← foldPairs (AnnounceFields.setField urlencoding) (pairsOf queryString)
    AnnounceFields.default
  fields.finish

def ScrapeRequest.parsePlainly (queryString : List Char) : Except String ScrapeRequest := do
  let infoHashes ← foldPairs ScrapeRequest.setField (pairsOf queryString) []
  if infoHashes.isEmpty then throw "No info hashes sent" else return ⟨infoHashes⟩

theorem pairsOf_last {segment : List Char} (h : '&' ∉ segment) :
    pairsOf segment = (splitOnce ['='] segment).toList := by
  rw [pairsOf, List.splitOn_eq_singleton h]
  cases hpair : splitOnce ['='] segment with
  | none => rw [List.filterMap_cons_none hpair]; rfl
  | some pair => rw [List.filterMap_cons_some hpair]; rfl

theorem pairsOf_append_cons {segment : List Char} (h : '&' ∉ segment) (more : List Char) :
    pairsOf (segment ++ '&' :: more) = (splitOnce ['='] segment).toList ++ pairsOf more := by
  rw [pairsOf, List.splitOn_append_cons_self_of_not_mem h, List.filterMap_cons, pairsOf]
  cases splitOnce ['='] segment <;> rfl

theorem pairsOf_eq_nil {text : List Char} (h : '=' ∉ text) : pairsOf text = [] := by
  induction text using splitOn_induction '&' with
  | last segment hsegment => rw [pairsOf_last hsegment, splitOnce_eq_none h]; rfl
  | more segment text hsegment ih =>
    rw [List.mem_append, List.mem_cons, not_or, not_or] at h
    rw [pairsOf_append_cons hsegment, splitOnce_eq_none h.1, ih h.2.2]
    rfl

/-- A segment with an equal sign is the text of its pair. -/
theorem exists_pair {segment : List Char} (hsegment : '&' ∉ segment) (hequal : '=' ∈ segment) :
    ∃ pair : Pair, segment = pairText pair ∧ '=' ∉ pair.1 ∧ '&' ∉ pair.1 ∧ '&' ∉ pair.2 := by
  obtain ⟨key, value, rfl, hkey⟩ := List.eq_append_cons_of_mem hequal
  rw [List.mem_append, List.mem_cons, not_or, not_or] at hsegment
  exact ⟨(key, value), rfl, hkey, hsegment.1, hsegment.2.2⟩

theorem splitOnce_pairText {pair : Pair} (h : '=' ∉ pair.1) :
    splitOnce ['='] (pairText pair) = some pair :=
  splitOnce_of_not_mem h pair.2

theorem exists_idxsOf {c : Char} {text : List Char} (h : c ∈ text) (start : Nat) :
    ∃ i < text.length, ∃ more, text.idxsOf c start = (start + i) :: more := by
  obtain ⟨front, rest, rfl, hfront⟩ := List.eq_append_cons_of_mem h
  refine ⟨front.length, by simp, rest.idxsOf c (start + front.length + 1), ?_⟩
  simp [List.idxsOf_append, idxsOf_of_not_mem hfront]

section Loop
variable {σ : Type} (setField : σ → List Char → List Char → Except String σ)

/-- The equal sign is not in the segment that the loop is at. -/
theorem parsePairs_out_of_step {queryString : List Char} {equalSign position : Nat}
    {equalSigns ampersands : List Nat} {fields out : σ}
    (h : equalSign < position ∨ ampersands.headD queryString.length ≤ equalSign) :
    parsePairs setField queryString (equalSign :: equalSigns) ampersands position fields ≠
      .ok out := by
  intro hout
  rw [parsePairs] at hout
  obtain ⟨key, hkey, hout⟩ := bind_eq_ok hout
  obtain ⟨value, hvalue, hout⟩ := bind_eq_ok hout
  unfold slice at hkey hvalue
  split at hkey
  · rename_i hstart
    split at hvalue
    · omega
    · cases hvalue
  · cases hkey

theorem foldPairs_of_parsePairs {text : List Char} (before : List Char) {fields out : σ}
    (h : parsePairs setField (before ++ text) (text.idxsOf '=' before.length)
      (text.idxsOf '&' before.length) before.length fields = .ok out) :
    foldPairs setField (pairsOf text) fields = .ok out := by
  induction text using splitOn_induction '&' generalizing before fields with
  | last segment hsegment =>
    by_cases hequal : '=' ∈ segment
    · obtain ⟨pair, rfl, hpair, hkey, hvalue⟩ := exists_pair hsegment hequal
      have hstep := parsePairs_step setField hpair hkey hvalue before [] fields (.inl rfl)
      rw [List.append_nil] at hstep
      rw [hstep] at h
      obtain ⟨fields', hfields, hout⟩ := bind_eq_ok h
      cases hout
      rw [pairsOf_last hsegment, splitOnce_pairText hpair]
      exact congrArg (fun result => Except.bind result .ok) hfields
    · rw [idxsOf_of_not_mem hequal] at h
      rw [pairsOf_eq_nil hequal]
      exact h
  | more segment text hsegment ih =>
    by_cases hequal : '=' ∈ segment
    · obtain ⟨pair, rfl, hpair, hkey, hvalue⟩ := exists_pair hsegment hequal
      rw [pairsOf_append_cons hsegment, splitOnce_pairText hpair]
      by_cases hsingle : '=' ∈ pair.2
      · -- the next equal sign is in the value that has just been read
        rw [parsePairs_step setField hpair hkey hvalue before _ fields (.inr ⟨text, rfl⟩)] at h
        obtain ⟨fields', -, hout⟩ := bind_eq_ok h
        have hlength : pair.1.length + 1 + pair.2.length = (pairText pair).length := by
          simp [pairText]
          omega
        obtain ⟨i, hi, more, hidx⟩ :=
          exists_idxsOf hsingle (before.length + pair.1.length + 1)
        rw [if_neg (List.cons_ne_nil _ _), List.idxsOf_append, hidx] at hout
        exact absurd hout (parsePairs_out_of_step setField (.inl (by omega)))
      · rw [parsePairs_cons setField hpair hsingle hkey hvalue] at h
        obtain ⟨fields', hfields, hout⟩ := bind_eq_ok h
        have hfold := ih _ hout
        unfold foldPairs at hfold ⊢
        rw [Option.toList_some, List.singleton_append, List.foldlM_cons, hfields]
        exact hfold
    · have hsigns : (segment ++ '&' :: text).idxsOf '=' before.length =
          text.idxsOf '=' (before.length + segment.length + 1) := by
        have hnext : ('&' == '=') = false := by decide
        simp [List.idxsOf_append, idxsOf_of_not_mem hequal, hnext]
      have hends : (segment ++ '&' :: text).idxsOf '&' before.length =
          (before.length + segment.length) :: text.idxsOf '&' (before.length + segment.length + 1) := by
        simp [List.idxsOf_append, idxsOf_of_not_mem hsegment]
      rw [hsigns, hends] at h
      by_cases hlater : '=' ∈ text
      · -- the segment ends before the equal sign
        obtain ⟨i, -, more, hidx⟩ := exists_idxsOf hlater (before.length + segment.length + 1)
        rw [hidx] at h
        refine absurd h (parsePairs_out_of_step setField (.inr ?_))
        change before.length + segment.length ≤ _
        omega
      · rw [idxsOf_of_not_mem hlater] at h
        rw [pairsOf_append_cons hsegment, splitOnce_eq_none hequal, pairsOf_eq_nil hlater]
        exact h

/-- The two iterators stay in step over segments with one equal sign each. -/
theorem parsePairs_of_single {text : List Char}
    (h : ∀ segment ∈ text.splitOn '&', segment.count '=' = 1) (before : List Char) (fields : σ) :
    parsePairs setField (before ++ text) (text.idxsOf '=' before.length)
        (text.idxsOf '&' before.length) before.length fields =
      foldPairs setField (pairsOf text) fields := by
  have hpair : ∀ {segment : List Char}, '&' ∉ segment → segment.count '=' = 1 →
      ∃ pair : Pair, segment = pairText pair ∧ '=' ∉ pair.1 ∧ '&' ∉ pair.1 ∧ '&' ∉ pair.2 ∧
        '=' ∉ pair.2 := by
    intro segment hsegment hcount
    obtain ⟨pair, rfl, hequal, hkey, hvalue⟩ :=
      exists_pair hsegment (List.count_pos_iff.mp (by omega))
    refine ⟨pair, rfl, hequal, hkey, hvalue, ?_⟩
    apply List.count_eq_zero.mp
    rw [pairText, List.count_append, List.count_cons_self, List.count_eq_zero.mpr hequal] at hcount
    omega
  induction text using splitOn_induction '&' generalizing before fields with
  | last segment hsegment =>
    rw [List.splitOn_eq_singleton hsegment] at h
    obtain ⟨pair, rfl, hequal, hkey, hvalue, -⟩ :=
      hpair hsegment (h segment (List.mem_singleton_self _))
    have hstep := parsePairs_step setField hequal hkey hvalue before [] fields (.inl rfl)
    rw [List.append_nil] at hstep
    rw [hstep, pairsOf_last hsegment, splitOnce_pairText hequal]
    rfl
  | more segment text hsegment ih =>
    rw [List.splitOn_append_cons_self_of_not_mem hsegment, List.forall_mem_cons] at h
    obtain ⟨pair, rfl, hequal, hkey, hvalue, hsingle⟩ := hpair hsegment h.1
    rw [parsePairs_cons setField hequal hsingle hkey hvalue, pairsOf_append_cons hsegment,
      splitOnce_pairText hequal]
    unfold foldPairs
    rw [Option.toList_some, List.singleton_append, List.foldlM_cons]
    apply congrArg (Except.bind (setField fields pair.1 pair.2))
    funext fields
    exact ih h.2 _ fields

end Loop

/-- How a parser of query strings compares to the plain one. -/
structure Agrees {ρ : Type} (parse parsePlainly : List Char → Except String ρ) : Prop where
  of_ok : ∀ queryString request, parse queryString = .ok request →
    parsePlainly queryString = .ok request
  of_single : ∀ queryString, (∀ segment ∈ queryString.splitOn '&', segment.count '=' = 1) →
    parse queryString = parsePlainly queryString

theorem parseQueryString_agrees (urlencoding : UrlEncoding) :
    Agrees (AnnounceRequest.parseQueryString urlencoding)
        (AnnounceRequest.parsePlainly urlencoding) ∧
      Agrees ScrapeRequest.parseQueryString ScrapeRequest.parsePlainly := by
  refine ⟨⟨?_, ?_⟩, ⟨?_, ?_⟩⟩
  · intro queryString request h
    obtain ⟨fields, hfields, hfinish⟩ := bind_eq_ok h
    rw [AnnounceRequest.parsePlainly, foldPairs_of_parsePairs _ [] hfields]
    exact hfinish
  · intro queryString h
    rw [AnnounceRequest.parsePlainly, ← parsePairs_of_single _ h []]
    rfl
  · intro queryString request h
    obtain ⟨infoHashes, hfields, hfinish⟩ := bind_eq_ok h
    rw [ScrapeRequest.parsePlainly, foldPairs_of_parsePairs _ [] hfields]
    exact hfinish
  · intro queryString h
    rw [ScrapeRequest.parsePlainly, ← parsePairs_of_single _ h []]
    rfl

end Aquatic.HttpProtocol
