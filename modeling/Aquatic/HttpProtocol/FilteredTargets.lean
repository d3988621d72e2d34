import Aquatic.Common.RequestFilter
import Aquatic.HttpProtocol.RequestRoundTrip

/-!
# What the request filter finds in announces that were written here

A pattern without separators occurs in a key or in a value. In the sixty characters
of an id it can only be a pattern of escapes, and `%2e%2e` is the one that occurs.
-/

namespace Aquatic.HttpProtocol
open Text Http
set_option autoImplicit false

/-- None of the patterns occurs in the text, whatever its case. -/
def Clean (patterns : List (List Char)) (text : List Char) : Prop :=
  ∀ pattern ∈ patterns, ¬ pattern.map Char.toLower <:+: text.map Char.toLower

instance (patterns : List (List Char)) (text : List Char) : Decidable (Clean patterns text) :=
  inferInstanceAs (Decidable (∀ pattern ∈ patterns, ¬ _ <:+: _))

/-- A pattern that cannot reach beyond a separator. -/
def Unseparated (pattern : List Char) : Prop :=
  pattern ≠ [] ∧ ∀ c ∈ pattern, c ≠ '=' ∧ c ≠ '&' ∧ c ≠ '?'

instance (pattern : List Char) : Decidable (Unseparated pattern) :=
  inferInstanceAs (Decidable (_ ∧ ∀ c ∈ pattern, _))

theorem isSqlInjection_eq_false_of_clean {text : List Char}
    (h : Clean sqlInjectionPatterns text) : isSqlInjection text = false := by
  rw [isSqlInjection, List.any_eq_false]
  intro pattern hpattern hmatches
  exact h pattern hpattern (infix_of_matchesPattern hmatches)

theorem isPathTraversal_eq_false_iff {text : List Char} :
    isPathTraversal text = false ↔ Clean pathTraversalPatterns text := by
  simp only [isPathTraversal, List.any_eq_false, containsAsciiCaseInsensitive_iff]
  rfl

section Parts
variable {part : List Char} (hpart : Unseparated part)
include hpart

theorem infix_pairText {pair : Pair} (h : part <:+: pairText pair) :
    part <:+: pair.1 ∨ part <:+: pair.2 :=
  infix_of_separated (fun hmem => (hpart.2 _ hmem).1 rfl) h

theorem infix_furtherText (front : List Char) {pairs : List Pair}
    (h : part <:+: front ++ AnnounceRequest.furtherText pairs) :
    part <:+: front ∨ ∃ pair ∈ pairs, part <:+: pairText pair := by
  induction pairs generalizing front with
  | nil =>
    rw [AnnounceRequest.furtherText, List.flatMap_nil, List.append_nil] at h
    exact .inl h
  | cons pair pairs ih =>
    have hsep : part <:+: front ++ '&' :: (pairText pair ++ AnnounceRequest.furtherText pairs) := h
    rcases infix_of_separated (fun hmem => (hpart.2 _ hmem).2.1 rfl) hsep with h | h
    · exact .inl h
    · right
      rcases ih _ h with h | ⟨next, hnext, h⟩
      · exact ⟨pair, List.mem_cons_self, h⟩
      · exact ⟨next, List.mem_cons_of_mem _ hnext, h⟩

theorem infix_pairsText {pairs : List Pair} (h : part <:+: pairsText pairs) :
    ∃ pair ∈ pairs, part <:+: pair.1 ∨ part <:+: pair.2 := by
  cases pairs with
  | nil => exact absurd (List.eq_nil_of_infix_nil h) hpart.1
  | cons pair pairs =>
    rcases infix_furtherText hpart (pairText pair) h with h | ⟨next, hnext, h⟩
    · exact ⟨pair, List.mem_cons_self, infix_pairText hpart h⟩
    · exact ⟨next, List.mem_cons_of_mem _ hnext, infix_pairText hpart h⟩

end Parts

/-- Patterns are in lower case and cannot reach beyond a separator. -/
def Patterns (patterns : List (List Char)) : Prop :=
  ∀ pattern ∈ patterns, pattern.map Char.toLower = pattern ∧ Unseparated pattern

instance (patterns : List (List Char)) : Decidable (Patterns patterns) :=
  inferInstanceAs (Decidable (∀ pattern ∈ patterns, _ ∧ _))

theorem unseparated_of_map {part pattern : List Char} (hpattern : Unseparated pattern)
    (h : pattern = part.map Char.toLower) : Unseparated part := by
  subst h
  refine ⟨fun hnil => hpattern.1 (by rw [hnil]; rfl), fun c hc => ?_⟩
  have hlower := hpattern.2 c.toLower (List.mem_map_of_mem hc)
  refine ⟨?_, ?_, ?_⟩
  · rintro rfl
    exact hlower.1 rfl
  · rintro rfl
    exact hlower.2.1 rfl
  · rintro rfl
    exact hlower.2.2 rfl

theorem clean_target (location : List Char) {patterns : List (List Char)}
    (hpatterns : Patterns patterns) (hlocation : Clean patterns location) {pairs : List Pair}
    (hpairs : ∀ pair ∈ pairs, Clean patterns pair.1 ∧ Clean patterns pair.2) :
    Clean patterns (location ++ '?' :: pairsText pairs) := by
  intro pattern hpattern hoccurs
  obtain ⟨hlower, hunseparated⟩ := hpatterns pattern hpattern
  rw [hlower] at hoccurs
  obtain ⟨part, hpart, heq⟩ := List.infix_map_iff.mp hoccurs
  have hsep := unseparated_of_map hunseparated heq
  have hnot : ∀ {text : List Char}, Clean patterns text → ¬ part <:+: text := by
    intro text hclean h
    apply hclean pattern hpattern
    rw [hlower, heq]
    exact h.map _
  rcases infix_of_separated (fun hmem => (hsep.2 _ hmem).2.2 rfl) hpart with h | h
  · exact hnot hlocation h
  · obtain ⟨pair, hpair, h⟩ := infix_pairsText hsep h
    rcases h with h | h
    · exact hnot (hpairs pair hpair).1 h
    · exact hnot (hpairs pair hpair).2 h

/-- A text all of whose characters are of a kind, in which the patterns have others. -/
theorem clean_of_forall {patterns : List (List Char)} {text : List Char} (kind : Char → Bool)
    (hpatterns : ∀ pattern ∈ patterns, ∃ c ∈ pattern.map Char.toLower, kind c = false)
    (htext : ∀ c ∈ text, kind c.toLower = true) : Clean patterns text := by
  intro pattern hpattern hoccurs
  obtain ⟨c, hc, hkind⟩ := hpatterns pattern hpattern
  obtain ⟨d, hd, rfl⟩ := List.mem_map.mp (hoccurs.subset hc)
  rw [htext d hd] at hkind
  cases hkind

theorem toLower_of_isDigit {c : Char} (h : c.isDigit = true) : c.toLower = c := by
  have hupper : ¬ (c.val ≥ 'A'.val ∧ c.val ≤ 'Z'.val) := by
    simp only [Char.isDigit, Bool.and_eq_true, decide_eq_true_eq] at h
    rintro ⟨hA, -⟩
    have hle : 'A'.val ≤ '9'.val := UInt32.le_trans hA h.2
    revert hle
    decide
  exact dif_neg hupper

theorem clean_decimal {patterns : List (List Char)}
    (hpatterns : ∀ pattern ∈ patterns, ∃ c ∈ pattern.map Char.toLower, c.isDigit = false) (n : Nat) :
    Clean patterns (decimal n) := by
  apply clean_of_forall Char.isDigit hpatterns
  intro c hc
  have hdigit := isDigit_of_mem_decimal hc
  rw [toLower_of_isDigit hdigit, hdigit]

/-- The characters of an escape. -/
def isEscapeChar (c : Char) : Bool := "%0123456789abcdef".toList.contains c

theorem isEscapeChar_of_mem {bytes : List UInt8} {c : Char} (h : c ∈ bytes.flatMap urlencodeByte) :
    isEscapeChar c.toLower = true ∧ c.toLower = c := by
  have hdigit : ∀ n < 16, isEscapeChar (Nat.digitChar n).toLower = true ∧
      (Nat.digitChar n).toLower = Nat.digitChar n := by decide
  rcases mem_urlencode h with rfl | ⟨n, hn, rfl⟩
  · decide
  · exact hdigit n hn

theorem map_toLower_flatMap (bytes : List UInt8) :
    (bytes.flatMap urlencodeByte).map Char.toLower = bytes.flatMap urlencodeByte := by
  conv_rhs => rw [← List.map_id (bytes.flatMap urlencodeByte)]
  exact List.map_congr_left fun c hc => (isEscapeChar_of_mem hc).2

theorem clean_sqlInjection_urlencode (bytes : List UInt8) :
    Clean sqlInjectionPatterns (bytes.flatMap urlencodeByte) :=
  clean_of_forall isEscapeChar (by decide) fun c hc => (isEscapeChar_of_mem hc).1

/-- Two bytes of the value 0x2e, one after the other. -/
def HasDotPair (bytes : List UInt8) : Prop := [0x2e, 0x2e] <:+: bytes

instance (bytes : List UInt8) : Decidable (HasDotPair bytes) :=
  inferInstanceAs (Decidable (_ <:+: bytes))

theorem digitChar_ne_percent {n : Nat} (h : n < 16) : Nat.digitChar n ≠ '%' := by
  have hall : ∀ n < 16, Nat.digitChar n ≠ '%' := by decide
  exact hall n h

/-- What begins with a percent sign begins where a byte does. -/
theorem infix_urlencode (part : List Char) {bytes : List UInt8}
    (h : '%' :: part <:+: bytes.flatMap urlencodeByte) :
    ∃ rest, rest <:+ bytes ∧ '%' :: part <+: rest.flatMap urlencodeByte := by
  induction bytes with
  | nil => cases List.eq_nil_of_infix_nil h
  | cons byte bytes ih =>
    have hlt : byte.toNat < 256 := byte.toNat_lt
    have hnot : ∀ {n : Nat} {text : List Char}, n < 16 → ¬ '%' :: part <+: Nat.digitChar n :: text :=
      fun hn hstarts => digitChar_ne_percent hn (List.cons_prefix_cons.mp hstarts).1.symm
    rw [List.flatMap_cons, urlencodeByte, List.cons_append, List.cons_append, List.cons_append,
      List.nil_append] at h
    rcases List.infix_cons_iff.mp h with h | h
    · refine ⟨byte :: bytes, List.suffix_refl _, ?_⟩
      rw [List.flatMap_cons]
      exact h
    · rcases List.infix_cons_iff.mp h with h | h
      · exact absurd h (hnot (by omega))
      · rcases List.infix_cons_iff.mp h with h | h
        · exact absurd h (hnot (by omega))
        · obtain ⟨rest, hrest, hstarts⟩ := ih h
          exact ⟨rest, hrest.trans (List.suffix_cons byte bytes), hstarts⟩

theorem urlencodeByte_eq_dot (part : List Char) {byte : UInt8} {text : List Char}
    (h : '%' :: '2' :: 'e' :: part <+: urlencodeByte byte ++ text) : byte = 0x2e ∧ part <+: text := by
  simp only [urlencodeByte, List.cons_append, List.nil_append, List.cons_prefix_cons] at h
  obtain ⟨-, htwo, he, hpart⟩ := h
  have hhigh : byte.toNat / 16 = 2 := Nat.digitChar_eq_two.mp htwo.symm
  have hlow : byte.toNat % 16 = 14 := Nat.digitChar_eq_e.mp he.symm
  refine ⟨UInt8.toNat_inj.mp ?_, hpart⟩
  change byte.toNat = 46
  omega

theorem not_infix_dotSlash (bytes : List UInt8) :
    ¬ "%252e".toList <:+: bytes.flatMap urlencodeByte := by
  intro h
  obtain ⟨rest, -, hstarts⟩ := infix_urlencode "252e".toList h
  rcases rest with _ | ⟨byte, _ | ⟨next, rest⟩⟩
  · cases List.prefix_nil.mp hstarts
  · simp [urlencodeByte] at hstarts
  · simp [urlencodeByte] at hstarts

theorem hasDotPair_iff (bytes : List UInt8) :
    "%2e%2e".toList <:+: bytes.flatMap urlencodeByte ↔ HasDotPair bytes := by
  constructor
  · intro h
    obtain ⟨rest, hrest, hstarts⟩ := infix_urlencode "2e%2e".toList h
    rcases rest with _ | ⟨byte, _ | ⟨next, rest⟩⟩
    · cases List.prefix_nil.mp hstarts
    · obtain ⟨-, hnil⟩ := urlencodeByte_eq_dot "%2e".toList hstarts
      cases List.prefix_nil.mp hnil
    · obtain ⟨rfl, hnext⟩ := urlencodeByte_eq_dot "%2e".toList hstarts
      obtain ⟨rfl, -⟩ := urlencodeByte_eq_dot [] hnext
      exact (List.prefix_append [0x2e, 0x2e] rest).isInfix.trans hrest.isInfix
  · rintro ⟨before, after, rfl⟩
    refine ⟨before.flatMap urlencodeByte, after.flatMap urlencodeByte, ?_⟩
    rw [List.flatMap_append, List.flatMap_append]
    rfl

theorem clean_pathTraversal_urlencode (bytes : List UInt8) :
    Clean pathTraversalPatterns (bytes.flatMap urlencodeByte) ↔ ¬ HasDotPair bytes := by
  rw [Clean, map_toLower_flatMap, ← hasDotPair_iff]
  constructor
  · intro h
    exact h "%2e%2e".toList (by decide)
  · intro h pattern hpattern hoccurs
    have hkinds : ∀ pattern ∈ pathTraversalPatterns,
        (∃ c ∈ pattern.map Char.toLower, isEscapeChar c = false) ∨
          pattern.map Char.toLower = "%2e%2e".toList ∨
          pattern.map Char.toLower = "%252e".toList := by decide
    rcases hkinds pattern hpattern with ⟨c, hc, hkind⟩ | hpattern | hpattern
    · have hmem := isEscapeChar_of_mem (hoccurs.subset hc)
      rw [hmem.2, hkind] at hmem
      cases hmem.1
    · rw [hpattern] at hoccurs
      exact h hoccurs
    · rw [hpattern] at hoccurs
      exact not_infix_dotSlash bytes hoccurs

/-- The keys and values that do not depend on an id. -/
theorem clean_pair {patterns : List (List Char)} (urlencoding : UrlEncoding)
    {request : AnnounceRequest} (hkey : request.key = none)
    (hdecimal : ∀ n, Clean patterns (decimal n))
    (hinfoHash : Clean patterns (urlencode20Bytes request.infoHash.bytes))
    (hpeerId : Clean patterns (urlencode20Bytes request.peerId.bytes))
    (hwords : ∀ word ∈ ["info_hash", "peer_id", "port", "uploaded", "downloaded", "left", "event",
      "started", "stopped", "completed", "numwant", "compact", "1"], Clean patterns word.toList) :
    ∀ pair ∈ request.pairs urlencoding, Clean patterns pair.1 ∧ Clean patterns pair.2 := by
  simp only [List.forall_mem_cons] at hwords
  obtain ⟨h1, h2, h3, h4, h5, h6, h7, h8, h9, h10, h11, h12, h13, -⟩ := hwords
  intro pair hpair
  rw [AnnounceRequest.pairs, AnnounceRequest.morePairs, hkey] at hpair
  simp only [AnnounceRequest.keyPairs, List.mem_cons, List.mem_append, List.not_mem_nil, or_false]
    at hpair
  rcases hpair with rfl | (((rfl | rfl | rfl | rfl | rfl) | hpair) | hpair) | rfl
  · exact ⟨h1, hinfoHash⟩
  · exact ⟨h2, hpeerId⟩
  · exact ⟨h3, hdecimal _⟩
  · exact ⟨h4, hdecimal _⟩
  · exact ⟨h5, hdecimal _⟩
  · exact ⟨h6, hdecimal _⟩
  · cases hevent : request.event
    all_goals rw [hevent] at hpair
    case empty => cases hpair
    all_goals obtain rfl := List.mem_singleton.mp hpair
    · exact ⟨h7, h8⟩
    · exact ⟨h7, h9⟩
    · exact ⟨h7, h10⟩
  · cases hnumwant : request.numwant with
    | none =>
      rw [hnumwant] at hpair
      cases hpair
    | some numwant =>
      rw [hnumwant] at hpair
      obtain rfl := List.mem_singleton.mp hpair
      exact ⟨h11, hdecimal _⟩
  · exact ⟨h12, h13⟩

theorem isSqlInjection_target (urlencoding : UrlEncoding) {request : AnnounceRequest}
    (hkey : request.key = none) : isSqlInjection (request.target urlencoding) = false := by
  apply isSqlInjection_eq_false_of_clean
  apply clean_target "/announce".toList (by decide) (by decide)
  exact clean_pair urlencoding hkey (clean_decimal (by decide)) (clean_sqlInjection_urlencode _)
    (clean_sqlInjection_urlencode _) (by decide)

theorem infix_pairsText_of_mem {pairs : List Pair} {pair : Pair} (h : pair ∈ pairs) :
    pair.2 <:+: pairsText pairs := by
  have hvalue : pair.2 <:+: pairText pair :=
    ((List.suffix_cons '=' pair.2).trans (List.suffix_append pair.1 _)).isInfix
  cases pairs with
  | nil => cases h
  | cons first pairs =>
    rcases List.mem_cons.mp h with rfl | h
    · exact hvalue.trans (List.prefix_append _ _).isInfix
    · have hfurther : pairText pair <:+: AnnounceRequest.furtherText pairs := by
        apply (List.suffix_cons '&' (pairText pair)).isInfix.trans
        rw [AnnounceRequest.furtherText, List.flatMap_def]
        exact List.infix_of_mem_flatten (List.mem_map_of_mem h)
      exact hvalue.trans (hfurther.trans (List.suffix_append _ _).isInfix)

theorem clean_pathTraversal_target_iff (urlencoding : UrlEncoding) {request : AnnounceRequest}
    (hkey : request.key = none) :
    Clean pathTraversalPatterns (request.target urlencoding) ↔
      ¬ HasDotPair request.infoHash.bytes.toList ∧ ¬ HasDotPair request.peerId.bytes.toList := by
  constructor
  · intro h
    have hvalue : ∀ {pair : Pair}, pair ∈ request.pairs urlencoding →
        Clean pathTraversalPatterns pair.2 := by
      intro pair hpair pattern hpattern hoccurs
      have htext : pair.2 <:+: request.target urlencoding :=
        (infix_pairsText_of_mem hpair).trans (List.suffix_append _ _).isInfix
      exact h pattern hpattern (hoccurs.trans (htext.map _))
    have hinfoHash : ("info_hash".toList, urlencode20Bytes request.infoHash.bytes) ∈
        request.pairs urlencoding := List.mem_cons_self
    have hpeerId : ("peer_id".toList, urlencode20Bytes request.peerId.bytes) ∈
        request.pairs urlencoding := List.mem_cons_of_mem _ List.mem_cons_self
    exact ⟨(clean_pathTraversal_urlencode _).mp (hvalue hinfoHash),
      (clean_pathTraversal_urlencode _).mp (hvalue hpeerId)⟩
  · rintro ⟨hinfoHash, hpeerId⟩
    apply clean_target "/announce".toList (by decide) (by decide)
    exact clean_pair urlencoding hkey (clean_decimal (by decide))
      ((clean_pathTraversal_urlencode _).mpr hinfoHash)
      ((clean_pathTraversal_urlencode _).mpr hpeerId) (by decide)

theorem requestTarget_of_key {urlencoding : UrlEncoding} {request : AnnounceRequest}
    (hkey : request.key = none) :
    requestTarget (request.writeBytes urlencoding []) = request.target urlencoding := by
  apply requestTarget_announce
  intro key h
  rw [hkey] at h
  cases h

/-- The filters let an announce through if and only if neither id has two dots in a row. -/
theorem unfiltered_iff (urlencoding : UrlEncoding) {request : AnnounceRequest}
    (hkey : request.key = none) :
    (isSqlInjection (requestTarget (request.writeBytes urlencoding [])) = false ∧
        isPathTraversal (requestTarget (request.writeBytes urlencoding [])) = false) ↔
      ¬ HasDotPair request.infoHash.bytes.toList ∧ ¬ HasDotPair request.peerId.bytes.toList := by
  rw [requestTarget_of_key hkey, isPathTraversal_eq_false_iff,
    clean_pathTraversal_target_iff urlencoding hkey]
  constructor
  · rintro ⟨-, h⟩
    exact h
  · intro h
    exact ⟨isSqlInjection_target urlencoding hkey, h⟩

/-- An announce whose info hash begins with two dots. -/
def dotRequest : AnnounceRequest where
  infoHash := ⟨#v[0x2e, 0x2e, 1, 2, 3, 4, 5, 6, 7, 8, 9, 10, 11, 12, 13, 14, 15, 16, 17, 18]⟩
  peerId := ⟨.replicate 20 0x41⟩
  port := 6881
  bytesUploaded := 0
  bytesDownloaded := 0
  bytesLeft := 0
  event := .started
  numwant := none
  key := none

theorem unfiltered_plainRequest :
    { dotRequest with infoHash := ⟨.replicate 20 0x2f⟩ }.key = none ∧
      ((isSqlInjection (requestTarget
          ({ dotRequest with infoHash := ⟨.replicate 20 0x2f⟩ }.writeBytes percentEncoding [])) =
            false ∧
        isPathTraversal (requestTarget
          ({ dotRequest with infoHash := ⟨.replicate 20 0x2f⟩ }.writeBytes percentEncoding [])) =
            false) ↔
      ¬ HasDotPair (List.replicate 20 0x2f) ∧ ¬ HasDotPair (List.replicate 20 0x41)) :=
  ⟨rfl, unfiltered_iff percentEncoding rfl⟩

/-- Not every announce that is written here passes. -/
theorem filtered_dotRequest :
    ¬ ∀ request : AnnounceRequest, request.key = none →
      isSqlInjection (requestTarget (request.writeBytes percentEncoding [])) = false ∧
        isPathTraversal (requestTarget (request.writeBytes percentEncoding [])) = false := by
  intro h
  have hallowed := (h dotRequest rfl).2
  rw [requestTarget_of_key rfl, isPathTraversal_eq_false_iff,
    clean_pathTraversal_target_iff percentEncoding rfl] at hallowed
  revert hallowed
  decide

end Aquatic.HttpProtocol
