import Aquatic.Common.ClientBan

/-!
# Texts and their bytes

The lossy decoder gives back every text from its bytes, whatever comes after them.
-/

namespace Aquatic
set_option autoImplicit false

/-- The bytes of a text. -/
def utf8 (text : List Char) : List UInt8 := text.flatMap String.utf8EncodeChar

/-- `str::from_utf8`: the text with these bytes, if there is one. -/
def fromUtf8 (bytes : List UInt8) : Option (List Char) :=
  if utf8 (fromUtf8Lossy bytes) = bytes then some (fromUtf8Lossy bytes) else none

theorem utf8_append (text rest : List Char) : utf8 (text ++ rest) = utf8 text ++ utf8 rest :=
  List.flatMap_append

theorem lossyChars_congr {fuel fuel' : Nat} {bytes : List UInt8} (h : bytes.length ≤ fuel)
    (h' : bytes.length ≤ fuel') : lossyChars fuel bytes = lossyChars fuel' bytes := by
  induction fuel generalizing fuel' bytes with
  | zero =>
    obtain rfl := List.eq_nil_of_length_eq_zero (Nat.le_zero.mp h)
    cases fuel' <;> rfl
  | succ fuel ih =>
    cases bytes with
    | nil => cases fuel' <;> rfl
    | cons first bytes =>
      cases fuel' with
      | zero => cases h'
      | succ fuel' =>
        simp only [List.length_cons, Nat.add_le_add_iff_right] at h h'
        have hdrop : (bytes.drop (utf8Tail first bytes).length).length ≤ bytes.length := by
          rw [List.length_drop]
          exact Nat.sub_le _ _
        simp only [lossyChars]
        rw [ih (Nat.le_trans hdrop h) (Nat.le_trans hdrop h')]

theorem fromUtf8Lossy_cons (first : UInt8) (bytes : List UInt8) :
    fromUtf8Lossy (first :: bytes) = utf8Char first (utf8Tail first bytes) ::
      fromUtf8Lossy (bytes.drop (utf8Tail first bytes).length) := by
  have hdrop : (bytes.drop (utf8Tail first bytes).length).length ≤ bytes.length := by
    rw [List.length_drop]
    exact Nat.sub_le _ _
  unfold fromUtf8Lossy
  simp only [List.length_cons, lossyChars]
  rw [lossyChars_congr hdrop (Nat.le_refl _)]

section Width
variable {first second : UInt8}

theorem utf8CharWidth_one (h : first.toNat < 0x80) : utf8CharWidth first = 1 := by
  have hlt : first < 0x80 := h
  rw [utf8CharWidth, if_pos hlt]

theorem utf8CharWidth_two (h : 0xc2 ≤ first.toNat) (h' : first.toNat ≤ 0xdf) :
    utf8CharWidth first = 2 := by
  simp only [utf8CharWidth, UInt8.lt_iff_toNat_lt, UInt8.le_iff_toNat_le, Bool.and_eq_true,
    decide_eq_true_eq, UInt8.toNat_ofNat]
  grind

theorem utf8CharWidth_three (h : 0xe0 ≤ first.toNat) (h' : first.toNat ≤ 0xef) :
    utf8CharWidth first = 3 := by
  simp only [utf8CharWidth, UInt8.lt_iff_toNat_lt, UInt8.le_iff_toNat_le, Bool.and_eq_true,
    decide_eq_true_eq, UInt8.toNat_ofNat]
  grind

theorem utf8CharWidth_four (h : 0xf0 ≤ first.toNat) (h' : first.toNat ≤ 0xf4) :
    utf8CharWidth first = 4 := by
  simp only [utf8CharWidth, UInt8.lt_iff_toNat_lt, UInt8.le_iff_toNat_le, Bool.and_eq_true,
    decide_eq_true_eq, UInt8.toNat_ofNat]
  grind

theorem isContinuation_iff {byte : UInt8} :
    isContinuation byte = true ↔ 0x80 ≤ byte.toNat ∧ byte.toNat ≤ 0xbf := by
  simp [isContinuation, UInt8.le_iff_toNat_le]

theorem isSecond_iff : isSecond first second = true ↔
    (if first.toNat = 0xe0 then 0xa0 else if first.toNat = 0xf0 then 0x90 else 0x80) ≤
        second.toNat ∧
      second.toNat ≤
        if first.toNat = 0xed then 0x9f else if first.toNat = 0xf4 then 0x8f else 0xbf := by
  simp only [isSecond, ← UInt8.toNat_inj, isContinuation, UInt8.le_iff_toNat_le,
    UInt8.toNat_ofNat]
  grind

/-- A character of the bytes `first` and `tail`, which belong together. -/
theorem fromUtf8Lossy_of_tail {tail rest : List UInt8}
    (htail : utf8Tail first (tail ++ rest) = tail) :
    fromUtf8Lossy (first :: tail ++ rest) = utf8Char first tail :: fromUtf8Lossy rest := by
  rw [List.cons_append, fromUtf8Lossy_cons, htail, List.drop_left]

end Width

/-- A byte given by a number below 256. -/
theorem toNat_ofNat_byte {n : Nat} (h : n < 256) : (UInt8.ofNat n).toNat = n := by
  rw [UInt8.toNat_ofNat']
  exact Nat.mod_eq_of_lt h

section Bytes
variable {first second third fourth : UInt8} (rest : List UInt8)

theorem fromUtf8Lossy_one (hfirst : first.toNat < 0x80) :
    fromUtf8Lossy ([first] ++ rest) = Char.ofNat first.toNat :: fromUtf8Lossy rest := by
  have hwidth := utf8CharWidth_one hfirst
  have htail : utf8Tail first ([] ++ rest) = [] := by simp [utf8Tail.eq_def, hwidth]
  rw [fromUtf8Lossy_of_tail htail]
  simp [utf8Char, hwidth, Nat.mod_eq_of_lt hfirst]

theorem fromUtf8Lossy_two (hwidth : utf8CharWidth first = 2)
    (hsecond : isSecond first second = true) :
    fromUtf8Lossy ([first, second] ++ rest) =
      Char.ofNat (first.toNat % 32 * 64 + second.toNat % 64) :: fromUtf8Lossy rest := by
  have htail : utf8Tail first ([second] ++ rest) = [second] := by
    simp [utf8Tail, hwidth, hsecond]
  have h := fromUtf8Lossy_of_tail htail
  simpa [utf8Char, hwidth] using h

theorem fromUtf8Lossy_three (hwidth : utf8CharWidth first = 3)
    (hsecond : isSecond first second = true) (hthird : isContinuation third = true) :
    fromUtf8Lossy ([first, second, third] ++ rest) =
      Char.ofNat ((first.toNat % 16 * 64 + second.toNat % 64) * 64 + third.toNat % 64) ::
        fromUtf8Lossy rest := by
  have htail : utf8Tail first ([second, third] ++ rest) = [second, third] := by
    simp [utf8Tail, hwidth, hsecond, hthird]
  have h := fromUtf8Lossy_of_tail htail
  simpa [utf8Char, hwidth] using h

theorem fromUtf8Lossy_four (hwidth : utf8CharWidth first = 4)
    (hsecond : isSecond first second = true) (hthird : isContinuation third = true)
    (hfourth : isContinuation fourth = true) :
    fromUtf8Lossy ([first, second, third, fourth] ++ rest) =
      Char.ofNat (((first.toNat % 8 * 64 + second.toNat % 64) * 64 + third.toNat % 64) * 64 +
        fourth.toNat % 64) :: fromUtf8Lossy rest := by
  have htail : utf8Tail first ([second, third, fourth] ++ rest) = [second, third, fourth] := by
    simp [utf8Tail, hwidth, hsecond, hthird, hfourth]
  have h := fromUtf8Lossy_of_tail htail
  simpa [utf8Char, hwidth] using h

end Bytes

theorem fromUtf8Lossy_encodeChar_append (c : Char) (rest : List UInt8) :
    fromUtf8Lossy (String.utf8EncodeChar c ++ rest) = c :: fromUtf8Lossy rest := by
  have hvalid : c.toNat < 0xd800 ∨ (0xdfff < c.toNat ∧ c.toNat < 0x110000) := c.valid
  have hc : Char.ofNat c.toNat = c := Char.ofNat_toNat c
  generalize hv : c.toNat = v at hvalid hc
  have hval : c.val.toNat = v := hv
  have hlast : (UInt8.ofNat (v % 64 + 0x80)).toNat = v % 64 + 0x80 := toNat_ofNat_byte (by omega)
  have hmiddle : (UInt8.ofNat (v / 64 % 64 + 0x80)).toNat = v / 64 % 64 + 0x80 :=
    toNat_ofNat_byte (by omega)
  unfold String.utf8EncodeChar
  simp only [hval]
  split
  · rename_i h1
    have hfirst : (UInt8.ofNat v).toNat = v := toNat_ofNat_byte (by omega)
    rw [fromUtf8Lossy_one rest (by omega), hfirst, hc]
  split
  · rename_i h1 h2
    have hfirst : (UInt8.ofNat (v / 64 % 32 + 0xc0)).toNat = v / 64 % 32 + 0xc0 :=
      toNat_ofNat_byte (by omega)
    rw [fromUtf8Lossy_two rest (utf8CharWidth_two (by omega) (by omega))
      (isSecond_iff.mpr (by rw [hfirst, hlast]; grind)), hfirst, hlast]
    rw [show (v / 64 % 32 + 0xc0) % 32 * 64 + (v % 64 + 0x80) % 64 = v by omega, hc]
  split
  · rename_i h1 h2 h3
    have hfirst : (UInt8.ofNat (v / 4096 % 16 + 0xe0)).toNat = v / 4096 % 16 + 0xe0 :=
      toNat_ofNat_byte (by omega)
    rw [fromUtf8Lossy_three rest (utf8CharWidth_three (by omega) (by omega))
      (isSecond_iff.mpr (by rw [hfirst, hmiddle]; grind))
      (isContinuation_iff.mpr (by omega)), hfirst, hmiddle, hlast]
    rw [show ((v / 4096 % 16 + 0xe0) % 16 * 64 + (v / 64 % 64 + 0x80) % 64) * 64 +
      (v % 64 + 0x80) % 64 = v by omega, hc]
  · rename_i h1 h2 h3
    have hfirst : (UInt8.ofNat (v / 262144 % 8 + 0xf0)).toNat = v / 262144 % 8 + 0xf0 :=
      toNat_ofNat_byte (by omega)
    have hsecond : (UInt8.ofNat (v / 4096 % 64 + 0x80)).toNat = v / 4096 % 64 + 0x80 :=
      toNat_ofNat_byte (by omega)
    rw [fromUtf8Lossy_four rest (utf8CharWidth_four (by omega) (by omega))
      (isSecond_iff.mpr (by rw [hfirst, hsecond]; grind))
      (isContinuation_iff.mpr (by omega)) (isContinuation_iff.mpr (by omega)),
      hfirst, hsecond, hmiddle, hlast]
    rw [show (((v / 262144 % 8 + 0xf0) % 8 * 64 + (v / 4096 % 64 + 0x80) % 64) * 64 +
      (v / 64 % 64 + 0x80) % 64) * 64 + (v % 64 + 0x80) % 64 = v by omega, hc]

theorem fromUtf8Lossy_append (text : List Char) (rest : List UInt8) :
    fromUtf8Lossy (utf8 text ++ rest) = text ++ fromUtf8Lossy rest := by
  induction text with
  | nil => rfl
  | cons c text ih =>
    rw [utf8, List.flatMap_cons, List.append_assoc, fromUtf8Lossy_encodeChar_append]
    exact congrArg (List.cons c) ih

theorem fromUtf8Lossy_utf8 (text : List Char) : fromUtf8Lossy (utf8 text) = text := by
  have h := fromUtf8Lossy_append text []
  rwa [List.append_nil, show fromUtf8Lossy [] = [] from rfl, List.append_nil] at h

theorem fromUtf8_utf8 (text : List Char) : fromUtf8 (utf8 text) = some text := by
  rw [fromUtf8, fromUtf8Lossy_utf8, if_pos rfl]

theorem utf8_fromUtf8Lossy_of_ascii {bytes : List UInt8} (h : ∀ byte ∈ bytes, byte.toNat < 0x80) :
    utf8 (fromUtf8Lossy bytes) = bytes := by
  induction bytes with
  | nil => rfl
  | cons first bytes ih =>
    have hfirst := h first List.mem_cons_self
    have hchar : (Char.ofNat first.toNat).val.toNat = first.toNat := by
      rw [Char.ofNat, dif_pos (.inl (by omega))]
      rfl
    have hencode : String.utf8EncodeChar (Char.ofNat first.toNat) = [first] := by
      rw [String.utf8EncodeChar]
      simp [hchar, Nat.le_of_lt_succ hfirst]
    have hlossy := fromUtf8Lossy_one bytes hfirst
    rw [List.singleton_append] at hlossy
    rw [hlossy, utf8, List.flatMap_cons, hencode]
    exact congrArg (List.cons first) (ih fun byte hbyte => h byte (List.mem_cons_of_mem _ hbyte))

theorem fromUtf8_of_ascii {bytes : List UInt8} (h : ∀ byte ∈ bytes, byte.toNat < 0x80) :
    fromUtf8 bytes = some (fromUtf8Lossy bytes) := by
  rw [fromUtf8, if_pos (utf8_fromUtf8Lossy_of_ascii h)]

theorem utf8_of_fromUtf8 {bytes : List UInt8} {text : List Char} (h : fromUtf8 bytes = some text) :
    utf8 text = bytes := by
  unfold fromUtf8 at h
  split at h
  · rename_i hbytes
    cases h
    exact hbytes
  · cases h

theorem fromUtf8_eq_some_iff {bytes : List UInt8} {text : List Char} :
    fromUtf8 bytes = some text ↔ utf8 text = bytes := by
  constructor
  · exact utf8_of_fromUtf8
  · rintro rfl
    exact fromUtf8_utf8 text

theorem takeWhile_take_append {rest : List UInt8} (hrest : ∀ byte ∈ rest.head?, byte.toNat < 0x80)
    (bytes : List UInt8) (n : Nat) :
    ((bytes ++ rest).take n).takeWhile isContinuation =
      (bytes.take n).takeWhile isContinuation := by
  induction bytes generalizing n with
  | nil =>
    cases rest with
    | nil => rfl
    | cons byte rest =>
      have hbyte : ¬ isContinuation byte = true := by
        have hlt := hrest byte rfl
        rw [isContinuation_iff]
        omega
      cases n with
      | zero => rfl
      | succ n =>
        rw [List.nil_append, List.take_succ_cons, List.takeWhile_cons_of_neg hbyte, List.take_nil]
        rfl
  | cons byte bytes ih =>
    cases n with
    | zero => rfl
    | succ n => rw [List.cons_append, List.take_succ_cons, List.take_succ_cons, List.takeWhile_cons,
        List.takeWhile_cons, ih]

/-- What is left of a character ends before them. -/
theorem utf8Tail_append (first : UInt8) (bytes : List UInt8) {rest : List UInt8}
    (hrest : ∀ byte ∈ rest.head?, byte.toNat < 0x80) :
    utf8Tail first (bytes ++ rest) = utf8Tail first bytes := by
  cases bytes with
  | nil =>
    cases rest with
    | nil => rfl
    | cons byte rest =>
      have hbyte : ¬ isSecond first byte = true := by
        have hlt := hrest byte rfl
        rw [isSecond_iff]
        intro h
        have hlow := h.1
        split at hlow
        · omega
        · split at hlow <;> omega
      simp [utf8Tail, hbyte]
  | cons second bytes =>
    simp only [List.cons_append, utf8Tail, takeWhile_take_append hrest]

theorem length_utf8Tail_le (first : UInt8) (bytes : List UInt8) :
    (utf8Tail first bytes).length ≤ bytes.length := by
  unfold utf8Tail
  split
  · exact Nat.zero_le _
  · split
    · exact Nat.le_refl _
    · rename_i second rest
      split
      · have htake := (List.takeWhile_prefix isContinuation
          (l := rest.take (utf8CharWidth first - 2))).length_le
        rw [List.length_take] at htake
        rw [List.length_cons, List.length_cons]
        omega
      · exact Nat.zero_le _

theorem fromUtf8Lossy_append_ascii (bytes : List UInt8) {rest : List UInt8}
    (hrest : ∀ byte ∈ rest.head?, byte.toNat < 0x80) :
    fromUtf8Lossy (bytes ++ rest) = fromUtf8Lossy bytes ++ fromUtf8Lossy rest := by
  induction hlength : bytes.length using Nat.strong_induction_on generalizing bytes with
  | _ n ih =>
    cases bytes with
    | nil => rfl
    | cons first bytes =>
      have hle := length_utf8Tail_le first bytes
      rw [List.cons_append, fromUtf8Lossy_cons, fromUtf8Lossy_cons, utf8Tail_append first bytes hrest,
        List.drop_append_of_le_length hle, List.cons_append]
      refine congrArg (List.cons _) (ih _ ?_ _ rfl)
      rw [List.length_drop, ← hlength, List.length_cons]
      omega

theorem utf8_cons_ascii {c : Char} (hc : c.toNat < 0x80) (text : List Char) :
    utf8 (c :: text) = UInt8.ofNat c.toNat :: utf8 text := by
  have hencode : String.utf8EncodeChar c = [UInt8.ofNat c.toNat] := by
    have hle : c.val.toNat ≤ 127 := Nat.le_of_lt_succ hc
    rw [String.utf8EncodeChar]
    simp only [hle, if_true]
    rfl
  rw [utf8, List.flatMap_cons, hencode]
  rfl

/-- A text that begins with an ASCII character, behind any bytes. -/
theorem fromUtf8Lossy_append_cons (bytes : List UInt8) {c : Char} (hc : c.toNat < 0x80)
    (text : List Char) :
    fromUtf8Lossy (bytes ++ utf8 (c :: text)) = fromUtf8Lossy bytes ++ c :: text := by
  rw [fromUtf8Lossy_append_ascii, fromUtf8Lossy_utf8]
  intro byte hbyte
  rw [utf8_cons_ascii hc] at hbyte
  obtain rfl : UInt8.ofNat c.toNat = byte := Option.some.inj hbyte
  rw [toNat_ofNat_byte (by omega)]
  exact hc

/-- A byte below 128 is a character of its own. -/
theorem eq_singleton_of_mem_encodeChar {c : Char} {byte : UInt8} (hbyte : byte.toNat < 0x80)
    (h : byte ∈ String.utf8EncodeChar c) :
    String.utf8EncodeChar c = [byte] ∧ c = Char.ofNat byte.toNat := by
  have hvalid : c.toNat < 0xd800 ∨ (0xdfff < c.toNat ∧ c.toNat < 0x110000) := c.valid
  have hc : Char.ofNat c.toNat = c := Char.ofNat_toNat c
  generalize hv : c.toNat = v at hvalid hc
  have hval : c.val.toNat = v := hv
  have hhigh : ∀ n, n < 128 → byte ≠ UInt8.ofNat (n + 0x80) := by
    intro n hn heq
    rw [heq, toNat_ofNat_byte (by omega)] at hbyte
    omega
  unfold String.utf8EncodeChar at h ⊢
  simp only [hval] at h ⊢
  split
  · rename_i hone
    rw [if_pos hone, List.mem_singleton] at h
    rw [h, toNat_ofNat_byte (by omega), hc]
    exact ⟨rfl, rfl⟩
  · rename_i hone
    rw [if_neg hone] at h
    exfalso
    split at h
    · simp only [List.mem_cons, List.not_mem_nil, or_false] at h
      rcases h with h | h
      · exact hhigh (v / 64 % 32 + 0x40) (by omega) h
      · exact hhigh (v % 64) (by omega) h
    split at h
    · simp only [List.mem_cons, List.not_mem_nil, or_false] at h
      rcases h with h | h | h
      · exact hhigh (v / 4096 % 16 + 0x60) (by omega) h
      · exact hhigh (v / 64 % 64) (by omega) h
      · exact hhigh (v % 64) (by omega) h
    · simp only [List.mem_cons, List.not_mem_nil, or_false] at h
      rcases h with h | h | h | h
      · exact hhigh (v / 262144 % 8 + 0x70) (by omega) h
      · exact hhigh (v / 4096 % 64) (by omega) h
      · exact hhigh (v / 64 % 64) (by omega) h
      · exact hhigh (v % 64) (by omega) h

theorem utf8_eq_append_cons {text : List Char} {front back : List UInt8} {byte : UInt8}
    (hbyte : byte.toNat < 0x80) (h : utf8 text = front ++ byte :: back) :
    ∃ before after, text = before ++ Char.ofNat byte.toNat :: after ∧ utf8 before = front ∧
      utf8 after = back := by
  induction text generalizing front with
  | nil => simp [utf8] at h
  | cons c text ih =>
    have hcons : utf8 (c :: text) = String.utf8EncodeChar c ++ utf8 text := List.flatMap_cons
    rw [hcons] at h
    rcases List.append_eq_append_iff.mp h with ⟨rest, rfl, hrest⟩ | ⟨rest, hencode, hrest⟩
    · obtain ⟨before, after, rfl, rfl, rfl⟩ := ih hrest
      exact ⟨c :: before, after, rfl, List.flatMap_cons, rfl⟩
    · cases rest with
      | nil =>
        rw [List.append_nil] at hencode
        have hback : utf8 text = [] ++ byte :: back := hrest.symm
        obtain ⟨before, after, rfl, hbefore, rfl⟩ := ih hback
        refine ⟨c :: before, after, rfl, ?_, rfl⟩
        rw [← hencode, utf8, List.flatMap_cons, ← utf8, hbefore, List.append_nil]
      | cons byte' rest =>
        obtain ⟨rfl, hafter⟩ := List.cons.inj hrest
        obtain ⟨hsingle, rfl⟩ := eq_singleton_of_mem_encodeChar hbyte
          (hencode ▸ List.mem_append_right front List.mem_cons_self)
        rw [hsingle] at hencode
        obtain ⟨rfl, hencode⟩ : front = [] ∧ [byte] = byte :: rest := by
          cases front with
          | nil => exact ⟨rfl, hencode⟩
          | cons _ front => simp at hencode
        obtain rfl := (List.cons.inj hencode).2
        exact ⟨[], text, rfl, rfl, hafter.symm⟩

/-- Bytes around one below 128 are a text if both sides are. -/
theorem fromUtf8_append_cons (front back : List UInt8) {byte : UInt8} (hbyte : byte.toNat < 0x80) :
    fromUtf8 (front ++ byte :: back) =
      (fromUtf8 front).bind fun before => (fromUtf8 back).map fun after =>
        before ++ Char.ofNat byte.toNat :: after := by
  apply Option.ext
  intro text
  simp only [Option.bind_eq_some_iff, Option.map_eq_some_iff, fromUtf8_eq_some_iff]
  constructor
  · intro h
    obtain ⟨before, after, rfl, hbefore, hafter⟩ := utf8_eq_append_cons hbyte h
    exact ⟨before, hbefore, after, hafter, rfl⟩
  · rintro ⟨before, rfl, after, rfl, rfl⟩
    have hascii : ∀ b ∈ [byte], b.toNat < 0x80 := by simpa using hbyte
    have hlossy := utf8_of_fromUtf8 (fromUtf8_of_ascii hascii)
    have hchar : fromUtf8Lossy [byte] = [Char.ofNat byte.toNat] := fromUtf8Lossy_one [] hbyte
    rw [hchar] at hlossy
    rw [utf8_append, ← List.singleton_append, utf8_append, hlossy]
    rfl

end Aquatic
