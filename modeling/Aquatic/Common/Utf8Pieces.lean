import Aquatic.Common.Utf8

/-!
# The pieces that the lossy decoder reads

Bytes are cut into characters and into sequences that are none, each of which is read as one
replacement character. Which bytes a piece has follows from its character, unless that is the
replacement character.
-/

namespace Aquatic
set_option autoImplicit false

/-- The bytes of a text, cut where the decoder goes on to the next character. -/
def pieces : List UInt8 → List (List UInt8)
  | [] => []
  | first :: bytes =>
    (first :: utf8Tail first bytes) :: pieces (bytes.drop (utf8Tail first bytes).length)
termination_by bytes => bytes.length
decreasing_by
  simp only [List.length_drop, List.length_cons]
  omega

def pieceChar : List UInt8 → Char
  | [] => '\ufffd'
  | first :: tail => utf8Char first tail

theorem pieces_nil : pieces [] = [] := by rw [pieces]

theorem pieces_cons (first : UInt8) (bytes : List UInt8) :
    pieces (first :: bytes) =
      (first :: utf8Tail first bytes) :: pieces (bytes.drop (utf8Tail first bytes).length) := by
  rw [pieces]

theorem map_pieceChar (bytes : List UInt8) :
    (pieces bytes).map pieceChar = fromUtf8Lossy bytes := by
  induction bytes using pieces.induct with
  | case1 =>
    rw [pieces_nil]
    rfl
  | case2 first bytes ih =>
    rw [pieces_cons, List.map_cons, ih, fromUtf8Lossy_cons, pieceChar]

theorem utf8Tail_take (first : UInt8) (bytes : List UInt8) (n : Nat) :
    utf8Tail first (bytes.take n) = (utf8Tail first bytes).take n := by
  simp only [utf8Tail]
  split
  · exact List.take_nil.symm
  · cases n with
    | zero => rfl
    | succ n =>
      cases bytes with
      | nil => rfl
      | cons second rest =>
        simp only [List.take_succ_cons]
        split
        · rw [List.take_succ_cons, List.take_takeWhile, List.take_take, List.take_take,
            Nat.min_comm]
        · exact List.take_nil.symm

theorem utf8Tail_begins (first : UInt8) (bytes : List UInt8) : utf8Tail first bytes <+: bytes := by
  simp only [utf8Tail]
  split
  · exact List.nil_prefix
  · cases bytes with
    | nil => exact List.nil_prefix
    | cons second rest =>
      simp only
      split
      · rw [List.prefix_cons_inj]
        exact (List.takeWhile_prefix _).trans (List.take_prefix _ _)
      · exact List.nil_prefix

theorem tail_append_drop (first : UInt8) (bytes : List UInt8) :
    utf8Tail first bytes ++ bytes.drop (utf8Tail first bytes).length = bytes :=
  List.prefix_iff_eq_append.mp (utf8Tail_begins first bytes)

/-- What is read as the rest of a piece is so before whatever comes behind it. -/
theorem utf8Tail_append_of_begins {first : UInt8} {bytes rest : List UInt8}
    (h : utf8Tail first bytes ++ rest <+: bytes) :
    utf8Tail first (utf8Tail first bytes ++ rest) = utf8Tail first bytes := by
  have hcut := utf8Tail_take first bytes (utf8Tail first bytes ++ rest).length
  rw [← List.prefix_iff_eq_take.mp h, List.length_append] at hcut
  rw [hcut]
  exact List.take_of_length_le (Nat.le_add_right _ _)

/-- The second byte and the continuation bytes of a piece. -/
theorem utf8Tail_spec {first : UInt8} {bytes : List UInt8} (h : utf8Tail first bytes ≠ []) :
    ∃ second rest, utf8Tail first bytes = second :: rest ∧
      rest.length + 2 ≤ utf8CharWidth first ∧ isSecond first second = true ∧
      ∀ byte ∈ rest, isContinuation byte = true := by
  simp only [utf8Tail] at h ⊢
  split at h
  · cases h rfl
  · rename_i hwidth
    rw [if_neg hwidth]
    cases bytes with
    | nil => cases h rfl
    | cons second bytes =>
      simp only at h ⊢
      split at h
      · rename_i hsecond
        rw [if_pos hsecond]
        have hlength := (List.takeWhile_prefix isContinuation
          (l := bytes.take (utf8CharWidth first - 2))).length_le
        rw [List.length_take] at hlength
        exact ⟨second, _, rfl, by omega, hsecond, List.all_eq_true.mp List.all_takeWhile⟩
      · cases h rfl

theorem flatten_pieces (bytes : List UInt8) : (pieces bytes).flatten = bytes := by
  induction bytes using pieces.induct with
  | case1 => rw [pieces_nil, List.flatten_nil]
  | case2 first bytes ih =>
    rw [pieces_cons, List.flatten_cons, ih, List.cons_append, tail_append_drop]

theorem pieces_flatten_front {bytes : List UInt8} {front back : List (List UInt8)}
    (h : pieces bytes = front ++ back) : pieces front.flatten = front := by
  induction front generalizing bytes with
  | nil => exact pieces_nil
  | cons piece front ih =>
    cases bytes with
    | nil =>
      rw [pieces_nil] at h
      cases h
    | cons first bytes =>
      rw [pieces_cons, List.cons_append] at h
      obtain ⟨rfl, hback⟩ := List.cons.inj h
      have hbytes := flatten_pieces (bytes.drop (utf8Tail first bytes).length)
      rw [hback, List.flatten_append] at hbytes
      have hbegins : utf8Tail first bytes ++ front.flatten <+: bytes := by
        refine ⟨back.flatten, ?_⟩
        rw [List.append_assoc, hbytes, tail_append_drop]
      rw [List.flatten_cons, List.cons_append, pieces_cons, utf8Tail_append_of_begins hbegins,
        List.drop_left, ih hback]

theorem pieces_flatten_back {bytes : List UInt8} {front back : List (List UInt8)}
    (h : pieces bytes = front ++ back) : pieces back.flatten = back := by
  induction front generalizing bytes with
  | nil =>
    rw [List.nil_append] at h
    rw [← h, flatten_pieces]
  | cons piece front ih =>
    cases bytes with
    | nil =>
      rw [pieces_nil] at h
      cases h
    | cons first bytes =>
      rw [pieces_cons, List.cons_append] at h
      exact ih (List.cons.inj h).2

/-- Pieces that follow each other are read as they stand. -/
theorem pieces_flatten_of_infix {bytes : List UInt8} {part : List (List UInt8)}
    (h : part <:+: pieces bytes) : pieces part.flatten = part := by
  obtain ⟨front, back, h⟩ := h
  exact pieces_flatten_back (pieces_flatten_front h.symm)

/-- The pieces of what comes first: of the last one there may be a beginning only. -/
theorem pieces_of_prefix {entry bytes : List UInt8} (hle : entry <+: bytes) :
    pieces entry <+: pieces bytes ∨
      ∃ front cut piece back, pieces entry = front ++ [cut] ∧
        pieces bytes = front ++ piece :: back ∧ cut ≠ [] ∧
        cut.length < piece.length ∧ pieceChar cut = '\ufffd' := by
  induction bytes using pieces.induct generalizing entry with
  | case1 =>
    rw [List.prefix_nil.mp hle]
    exact .inl (List.prefix_refl _)
  | case2 first bytes ih =>
    cases entry with
    | nil =>
      rw [pieces_nil]
      exact .inl List.nil_prefix
    | cons first' entry =>
      obtain ⟨rfl, h⟩ := List.cons_prefix_cons.mp hle
      have htail : utf8Tail first' entry = (utf8Tail first' bytes).take entry.length := by
        rw [← utf8Tail_take, ← List.prefix_iff_eq_take.mp h]
      by_cases hlength : (utf8Tail first' bytes).length ≤ entry.length
      · rw [List.take_of_length_le hlength] at htail
        obtain ⟨rest, rfl⟩ := h
        have hdrop : entry.drop (utf8Tail first' (entry ++ rest)).length <+:
            (entry ++ rest).drop (utf8Tail first' (entry ++ rest)).length := by
          rw [List.drop_append_of_le_length hlength]
          exact List.prefix_append _ _
        rw [pieces_cons, pieces_cons, htail]
        rcases ih hdrop with hpieces | ⟨front, cut, piece, back, hentry, hpieces, hcut⟩
        · exact .inl (List.prefix_cons_inj _ |>.mpr hpieces)
        · refine .inr ⟨(first' :: utf8Tail first' (entry ++ rest)) :: front, cut, piece, back,
            ?_, ?_, hcut⟩
          · rw [hentry, List.cons_append]
          · rw [hpieces, List.cons_append]
      · have hlt : entry.length < (utf8Tail first' bytes).length := Nat.not_le.mp hlength
        have hall : utf8Tail first' entry = entry := by
          have hbegins := List.prefix_of_prefix_length_le h (utf8Tail_begins first' bytes)
            (Nat.le_of_lt hlt)
          rw [htail, ← List.prefix_iff_eq_take.mp hbegins]
        have hne : utf8Tail first' bytes ≠ [] := by
          intro hnil
          rw [hnil] at hlt
          cases hlt
        obtain ⟨second, rest, hrest, hwidth, -⟩ := utf8Tail_spec hne
        rw [hrest, List.length_cons] at hlt
        refine .inr ⟨[], first' :: entry, _, _, ?_, pieces_cons first' bytes, List.cons_ne_nil _ _,
          ?_, ?_⟩
        · rw [pieces_cons, hall, List.drop_length, pieces_nil]
          rfl
        · rw [List.length_cons, List.length_cons, hrest, List.length_cons]
          exact Nat.succ_lt_succ hlt
        · rw [pieceChar, utf8Char, if_neg (by omega)]

/-- How the first byte of a character says how many there are. -/
theorem utf8CharWidth_cases (first : UInt8) :
    (utf8CharWidth first = 0) ∨
      (utf8CharWidth first = 1 ∧ first.toNat < 0x80) ∨
      (utf8CharWidth first = 2 ∧ 0xc2 ≤ first.toNat ∧ first.toNat ≤ 0xdf) ∨
      (utf8CharWidth first = 3 ∧ 0xe0 ≤ first.toNat ∧ first.toNat ≤ 0xef) ∨
      (utf8CharWidth first = 4 ∧ 0xf0 ≤ first.toNat ∧ first.toNat ≤ 0xf4) := by
  simp only [utf8CharWidth, UInt8.lt_iff_toNat_lt, UInt8.le_iff_toNat_le, Bool.and_eq_true,
    decide_eq_true_eq, UInt8.toNat_ofNat]
  grind

theorem encode_ofNat {v : Nat} (h : v < 0xd800 ∨ (0xdfff < v ∧ v < 0x110000)) :
    String.utf8EncodeChar (Char.ofNat v) =
      if v ≤ 0x7f then [UInt8.ofNat v]
      else if v ≤ 0x7ff then [UInt8.ofNat (v / 64 % 32 + 0xc0), UInt8.ofNat (v % 64 + 0x80)]
      else if v ≤ 0xffff then
        [UInt8.ofNat (v / 4096 % 16 + 0xe0), UInt8.ofNat (v / 64 % 64 + 0x80),
          UInt8.ofNat (v % 64 + 0x80)]
      else
        [UInt8.ofNat (v / 262144 % 8 + 0xf0), UInt8.ofNat (v / 4096 % 64 + 0x80),
          UInt8.ofNat (v / 64 % 64 + 0x80), UInt8.ofNat (v % 64 + 0x80)] := by
  have hval : (Char.ofNat v).val.toNat = v := by
    rw [Char.ofNat, dif_pos h]
    rfl
  rw [String.utf8EncodeChar]
  simp only [hval]

/-- A byte whose number is written in another way. -/
theorem ofNat_eq (byte : UInt8) {n : Nat} (h : n = byte.toNat) : UInt8.ofNat n = byte := by
  rw [h, UInt8.ofNat_toNat]

section Encode
variable {first second third fourth : UInt8}

theorem encode_one (hfirst : first.toNat < 0x80) (hwidth : utf8CharWidth first = 1) :
    String.utf8EncodeChar (utf8Char first []) = [first] := by
  have hchar : utf8Char first [] = Char.ofNat first.toNat := by
    simp [utf8Char, hwidth, Nat.mod_eq_of_lt hfirst]
  rw [hchar, encode_ofNat (.inl (by omega)), if_pos (by omega), UInt8.ofNat_toNat]

theorem encode_two (hfirst : 0xc2 ≤ first.toNat ∧ first.toNat ≤ 0xdf)
    (hwidth : utf8CharWidth first = 2) (hsecond : isSecond first second = true) :
    String.utf8EncodeChar (utf8Char first [second]) = [first, second] := by
  have hchar : utf8Char first [second] =
      Char.ofNat (first.toNat % 32 * 64 + second.toNat % 64) := by
    simp [utf8Char, hwidth]
  have hbounds : 0x80 ≤ second.toNat ∧ second.toNat ≤ 0xbf := by
    have h := isSecond_iff.mp hsecond
    grind
  rw [hchar, encode_ofNat (.inl (by omega)), if_neg (by omega), if_pos (by omega),
    ofNat_eq first (by omega), ofNat_eq second (by omega)]

theorem encode_three (hfirst : 0xe0 ≤ first.toNat ∧ first.toNat ≤ 0xef)
    (hwidth : utf8CharWidth first = 3) (hsecond : isSecond first second = true)
    (hthird : isContinuation third = true) :
    String.utf8EncodeChar (utf8Char first [second, third]) = [first, second, third] := by
  have hchar : utf8Char first [second, third] =
      Char.ofNat ((first.toNat % 16 * 64 + second.toNat % 64) * 64 + third.toNat % 64) := by
    simp [utf8Char, hwidth]
  have hbounds := isContinuation_iff.mp hthird
  have hlow : 0x80 ≤ second.toNat ∧ second.toNat ≤ 0xbf ∧
      (first.toNat = 0xe0 → 0xa0 ≤ second.toNat) ∧
      (first.toNat = 0xed → second.toNat ≤ 0x9f) := by
    have h := isSecond_iff.mp hsecond
    grind
  rw [hchar, encode_ofNat (by omega), if_neg (by omega), if_neg (by omega), if_pos (by omega),
    ofNat_eq first (by omega), ofNat_eq second (by omega),
    ofNat_eq third (by omega)]

theorem encode_four (hfirst : 0xf0 ≤ first.toNat ∧ first.toNat ≤ 0xf4)
    (hwidth : utf8CharWidth first = 4) (hsecond : isSecond first second = true)
    (hthird : isContinuation third = true) (hfourth : isContinuation fourth = true) :
    String.utf8EncodeChar (utf8Char first [second, third, fourth]) =
      [first, second, third, fourth] := by
  have hchar : utf8Char first [second, third, fourth] =
      Char.ofNat (((first.toNat % 8 * 64 + second.toNat % 64) * 64 + third.toNat % 64) * 64 +
        fourth.toNat % 64) := by
    simp [utf8Char, hwidth]
  have hbounds := isContinuation_iff.mp hthird
  have hbounds' := isContinuation_iff.mp hfourth
  have hlow : 0x80 ≤ second.toNat ∧ second.toNat ≤ 0xbf ∧
      (first.toNat = 0xf0 → 0x90 ≤ second.toNat) ∧
      (first.toNat = 0xf4 → second.toNat ≤ 0x8f) := by
    have h := isSecond_iff.mp hsecond
    grind
  rw [hchar, encode_ofNat (by omega), if_neg (by omega), if_neg (by omega), if_neg (by omega),
    ofNat_eq first (by omega), ofNat_eq second (by omega),
    ofNat_eq third (by omega), ofNat_eq fourth (by omega)]

end Encode

theorem encode_utf8Char {first : UInt8} {bytes : List UInt8}
    (h : utf8Char first (utf8Tail first bytes) ≠ '\ufffd') :
    String.utf8EncodeChar (utf8Char first (utf8Tail first bytes)) =
      first :: utf8Tail first bytes := by
  have hlength : (utf8Tail first bytes).length + 1 = utf8CharWidth first := by
    apply Decidable.byContradiction
    intro hlength
    rw [utf8Char, if_neg hlength] at h
    exact h rfl
  rcases utf8CharWidth_cases first with hwidth | ⟨hwidth, hfirst⟩ | ⟨hwidth, hfirst⟩ |
    ⟨hwidth, hfirst⟩ | ⟨hwidth, hfirst⟩
  · omega
  · rw [List.eq_nil_of_length_eq_zero (l := utf8Tail first bytes) (by omega)]
    exact encode_one hfirst hwidth
  all_goals
    have hne : utf8Tail first bytes ≠ [] := by
      intro hnil
      rw [hnil, hwidth] at hlength
      cases hlength
    obtain ⟨second, rest, htail, -, hsecond, hrest⟩ := utf8Tail_spec hne
    rw [htail, hwidth, List.length_cons] at hlength
    rw [htail]
  · rw [List.eq_nil_of_length_eq_zero (l := rest) (by omega)]
    exact encode_two hfirst hwidth hsecond
  · obtain ⟨third, rfl⟩ := List.length_eq_one_iff.mp (show rest.length = 1 by omega)
    exact encode_three hfirst hwidth hsecond (hrest third List.mem_cons_self)
  · obtain ⟨third, fourth, rfl⟩ := List.length_eq_two.mp (show rest.length = 2 by omega)
    exact encode_four hfirst hwidth hsecond (hrest third List.mem_cons_self)
      (hrest fourth (List.mem_cons_of_mem _ List.mem_cons_self))

/-- A piece that is not read as the replacement character has the bytes of its character. -/
theorem piece_eq_utf8 {bytes piece : List UInt8} (hpiece : piece ∈ pieces bytes)
    (h : pieceChar piece ≠ '\ufffd') : piece = String.utf8EncodeChar (pieceChar piece) := by
  induction bytes using pieces.induct with
  | case1 =>
    rw [pieces_nil] at hpiece
    cases hpiece
  | case2 first bytes ih =>
    rw [pieces_cons] at hpiece
    rcases List.mem_cons.mp hpiece with rfl | hmem
    · exact (encode_utf8Char h).symm
    · exact ih hmem

/-- A text without replacement characters begins some bytes as it begins what they decode to. -/
theorem prefix_fromUtf8Lossy_iff {text : List Char} {bytes : List UInt8} (h : '\ufffd' ∉ text) :
    text <+: fromUtf8Lossy bytes ↔ utf8 text <+: bytes := by
  constructor
  · rintro ⟨rest, hrest⟩
    rw [← map_pieceChar] at hrest
    obtain ⟨front, back, hpieces, hfront, -⟩ := List.map_eq_append_iff.mp hrest.symm
    have hbytes : utf8 text = front.flatten := by
      rw [utf8, ← hfront, List.flatMap_map, ← List.flatMap_id]
      refine List.flatMap_congr fun piece hpiece => ?_
      have hmem : piece ∈ pieces bytes := hpieces ▸ List.mem_append_left back hpiece
      refine (piece_eq_utf8 hmem ?_).symm
      intro hchar
      exact h (hfront ▸ hchar ▸ List.mem_map_of_mem hpiece)
    rw [hbytes, ← flatten_pieces bytes, hpieces, List.flatten_append]
    exact List.prefix_append _ _
  · rintro ⟨rest, rfl⟩
    rw [fromUtf8Lossy_append]
    exact List.prefix_append _ _

section Lowercase
variable {first byte : UInt8} {bytes : List UInt8}

theorem toAsciiLowercase_of_le (h : 0x80 ≤ byte.toNat) : toAsciiLowercase byte = byte := by
  have hupper : isAsciiUppercase byte = false := by
    simp only [isAsciiUppercase, UInt8.le_iff_toNat_le, UInt8.toNat_ofNat]
    grind
  rw [toAsciiLowercase, if_neg (by simp [hupper])]

theorem toAsciiLowercase_lt (h : byte.toNat < 0x80) : (toAsciiLowercase byte).toNat < 0x80 := by
  have hall : ∀ n < 128, (toAsciiLowercase (UInt8.ofNat n)).toNat < 0x80 := by decide
  have hbyte := hall byte.toNat h
  rwa [UInt8.ofNat_toNat] at hbyte

theorem toLower_ofNat (h : byte.toNat < 0x80) :
    (Char.ofNat byte.toNat).toLower = Char.ofNat (toAsciiLowercase byte).toNat := by
  have hall : ∀ n < 128, (Char.ofNat n).toLower =
      Char.ofNat (toAsciiLowercase (UInt8.ofNat n)).toNat := by decide
  have hbyte := hall byte.toNat h
  rwa [UInt8.ofNat_toNat] at hbyte

theorem isSecond_toAsciiLowercase :
    isSecond first (toAsciiLowercase byte) = isSecond first byte := by
  by_cases h : 0x80 ≤ byte.toNat
  · rw [toAsciiLowercase_of_le h]
  · have hlower := toAsciiLowercase_lt (Nat.not_le.mp h)
    rw [Bool.eq_iff_iff, isSecond_iff, isSecond_iff]
    grind

theorem isContinuation_toAsciiLowercase :
    isContinuation (toAsciiLowercase byte) = isContinuation byte := by
  by_cases h : 0x80 ≤ byte.toNat
  · rw [toAsciiLowercase_of_le h]
  · have hlower := toAsciiLowercase_lt (Nat.not_le.mp h)
    rw [Bool.eq_iff_iff, isContinuation_iff, isContinuation_iff]
    omega

theorem toNat_of_mem_utf8Tail (h : byte ∈ utf8Tail first bytes) : 0x80 ≤ byte.toNat := by
  obtain ⟨second, rest, htail, -, hsecond, hrest⟩ := utf8Tail_spec (List.ne_nil_of_mem h)
  rw [htail] at h
  rcases List.mem_cons.mp h with rfl | hmem
  · have hbounds := isSecond_iff.mp hsecond
    grind
  · exact (isContinuation_iff.mp (hrest byte hmem)).1

theorem utf8Tail_of_lt (h : first.toNat < 0x80) : utf8Tail first bytes = [] := by
  rw [utf8Tail.eq_def, if_pos (by rw [utf8CharWidth_one h]; omega)]

/-- Lower case changes single bytes only. -/
theorem utf8Tail_map_toAsciiLowercase :
    utf8Tail (toAsciiLowercase first) (bytes.map toAsciiLowercase) = utf8Tail first bytes := by
  by_cases hfirst : 0x80 ≤ first.toNat
  · rw [toAsciiLowercase_of_le hfirst]
    have hsame : (utf8Tail first bytes).map toAsciiLowercase = utf8Tail first bytes := by
      conv_rhs => rw [← List.map_id (utf8Tail first bytes)]
      refine List.map_congr_left fun byte hbyte => ?_
      exact toAsciiLowercase_of_le (toNat_of_mem_utf8Tail hbyte)
    rw [← hsame]
    simp only [utf8Tail]
    split
    · rfl
    · cases bytes with
      | nil => rfl
      | cons second bytes =>
        simp only [List.map_cons, isSecond_toAsciiLowercase]
        split
        · have hcontinuation : isContinuation ∘ toAsciiLowercase = isContinuation :=
            funext fun byte => isContinuation_toAsciiLowercase
          rw [List.map_cons, ← List.map_take, List.takeWhile_map, hcontinuation]
        · rfl
  · have hfirst := Nat.not_le.mp hfirst
    rw [utf8Tail_of_lt hfirst, utf8Tail_of_lt (toAsciiLowercase_lt hfirst)]

theorem le_toNat_utf8Char (h : 0x80 ≤ first.toNat) :
    0x80 ≤ (utf8Char first (utf8Tail first bytes)).toNat := by
  by_cases hchar : utf8Char first (utf8Tail first bytes) = '\ufffd'
  · rw [hchar]
    decide
  · apply Nat.le_of_not_lt
    intro hlt
    have hbytes := utf8_cons_ascii hlt []
    rw [utf8, List.flatMap_cons, encode_utf8Char hchar] at hbytes
    rw [(List.cons.inj hbytes).1, toNat_ofNat_byte (by omega)] at h
    omega

theorem utf8Char_toAsciiLowercase :
    utf8Char (toAsciiLowercase first) (utf8Tail first bytes) =
      (utf8Char first (utf8Tail first bytes)).toLower := by
  by_cases hfirst : 0x80 ≤ first.toNat
  · rw [toAsciiLowercase_of_le hfirst, Text.toLower_of_le (le_toNat_utf8Char hfirst)]
  · have hascii : ∀ {byte : UInt8}, byte.toNat < 0x80 →
        utf8Char byte [] = Char.ofNat byte.toNat := by
      intro byte hbyte
      have hwidth := utf8CharWidth_one hbyte
      simp [utf8Char, hwidth, Nat.mod_eq_of_lt hbyte]
    have hfirst := Nat.not_le.mp hfirst
    rw [utf8Tail_of_lt hfirst, hascii hfirst, hascii (toAsciiLowercase_lt hfirst),
      toLower_ofNat hfirst]

end Lowercase

theorem fromUtf8Lossy_map_toAsciiLowercase (bytes : List UInt8) :
    fromUtf8Lossy (bytes.map toAsciiLowercase) = (fromUtf8Lossy bytes).map Char.toLower := by
  induction bytes using pieces.induct with
  | case1 => rfl
  | case2 first bytes ih =>
    rw [List.map_cons, fromUtf8Lossy_cons, fromUtf8Lossy_cons, utf8Tail_map_toAsciiLowercase,
      List.map_cons, utf8Char_toAsciiLowercase, ← List.map_drop, ih]

end Aquatic
