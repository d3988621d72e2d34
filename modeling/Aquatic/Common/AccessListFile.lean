import Aquatic.Common.ClientBanBytes

/-!
# The access list file

Each entry is an info hash in hexadecimal digits of either case. A single entry that is none
makes the whole file unusable.
-/

namespace Aquatic
set_option autoImplicit false

def hexVal (c : UInt8) : Option UInt8 :=
  if 65 ≤ c && c ≤ 70 then some (c - 65 + 10)
  else if 97 ≤ c && c ≤ 102 then some (c - 97 + 10)
  else if 48 ≤ c && c ≤ 57 then some (c - 48)
  else none

/-- `decode_to_slice`, as far as the digits go. -/
def decodeHex : List UInt8 → Option (List UInt8)
  | [] => some []
  | [_] => none
  | first :: second :: rest => do
    let high ← hexVal first
    let low ← hexVal second
    return (high <<< 4 ||| low) :: (← decodeHex rest)

def parseInfoHash (line : List Char) : Option InfoHash :=
  (decodeHex (utf8 line)).bind fun bytes =>
    if h : bytes.length = 20 then some ⟨⟨bytes.toArray, h⟩⟩ else none

namespace AccessList

def insertFromLine (list : AccessList) (line : List Char) : Option AccessList :=
  (parseInfoHash line).map fun infoHash => ⟨list.hashes.insert infoHash⟩

/-- One turn of the loop in `create_from_path`. -/
def insertEntry (list : AccessList) (entry : Nat × List Char) : Except String AccessList :=
  match list.insertFromLine entry.2 with
  | some list => .ok list
  | none => .error s!"Invalid access list entry on line {entry.1}: {String.ofList entry.2}"

def createFromPath (bytes : List UInt8) : Except String AccessList :=
  (readListFile bytes).foldlM insertEntry ⟨[]⟩

end AccessList

def hexDigit (n : UInt8) : UInt8 := if n < 10 then 48 + n else 87 + n

def hexText (bytes : List UInt8) : List UInt8 :=
  bytes.flatMap fun byte => [hexDigit (byte / 16), hexDigit (byte % 16)]

/-- The entry is the info hash in hexadecimal digits, up to case. -/
def Spells (entry : List UInt8) (infoHash : InfoHash) : Prop :=
  entry.map toAsciiLowercase = hexText infoHash.bytes.toList

theorem hexVal_eq_some_iff (c n : UInt8) :
    hexVal c = some n ↔ n < 16 ∧ toAsciiLowercase c = hexDigit n := by
  have hall : ∀ c < 256, ∀ n < 16, hexVal (UInt8.ofNat c) = some (UInt8.ofNat n) ↔
      toAsciiLowercase (UInt8.ofNat c) = hexDigit (UInt8.ofNat n) := by decide +kernel
  have hsmall : ∀ c < 256, ∀ n ∈ hexVal (UInt8.ofNat c), n < 16 := by decide +kernel
  have hiff : n < 16 → (hexVal c = some n ↔ toAsciiLowercase c = hexDigit n) := by
    intro hn
    have h := hall c.toNat c.toNat_lt n.toNat hn
    rwa [UInt8.ofNat_toNat, UInt8.ofNat_toNat] at h
  constructor
  · intro h
    have hn := hsmall c.toNat c.toNat_lt n
    rw [UInt8.ofNat_toNat] at hn
    exact ⟨hn h, (hiff (hn h)).mp h⟩
  · rintro ⟨hn, h⟩
    exact (hiff hn).mpr h

/-- Two digits and the byte that they make. -/
theorem byte_of_digits {high low : UInt8} (hhigh : high < 16) (hlow : low < 16) :
    (high <<< 4 ||| low) / 16 = high ∧ (high <<< 4 ||| low) % 16 = low := by
  have hall : ∀ high < 16, ∀ low < 16,
      (UInt8.ofNat high <<< 4 ||| UInt8.ofNat low) / 16 = UInt8.ofNat high ∧
      (UInt8.ofNat high <<< 4 ||| UInt8.ofNat low) % 16 = UInt8.ofNat low := by decide
  have h := hall high.toNat hhigh low.toNat hlow
  rwa [UInt8.ofNat_toNat, UInt8.ofNat_toNat] at h

theorem digits_of_byte (byte : UInt8) :
    byte / 16 < 16 ∧ byte % 16 < 16 ∧ (byte / 16) <<< 4 ||| byte % 16 = byte := by
  have hall : ∀ n < 256, UInt8.ofNat n / 16 < 16 ∧ UInt8.ofNat n % 16 < 16 ∧
      (UInt8.ofNat n / 16) <<< 4 ||| UInt8.ofNat n % 16 = UInt8.ofNat n := by decide +kernel
  have h := hall byte.toNat byte.toNat_lt
  rwa [UInt8.ofNat_toNat] at h

theorem decodeHex_eq_some_iff (text bytes : List UInt8) :
    decodeHex text = some bytes ↔ text.map toAsciiLowercase = hexText bytes := by
  induction text using decodeHex.induct generalizing bytes with
  | case1 =>
    cases bytes with
    | nil => exact ⟨fun _ => rfl, fun _ => rfl⟩
    | cons byte bytes => exact ⟨nofun, nofun⟩
  | case2 c =>
    cases bytes with
    | nil => exact ⟨nofun, nofun⟩
    | cons byte bytes =>
      refine ⟨nofun, ?_⟩
      intro h
      injection h with _ h
      cases h
  | case3 first second rest ih =>
    constructor
    · intro h
      obtain ⟨high, hhigh, h⟩ := Option.bind_eq_some_iff.mp h
      obtain ⟨low, hlow, h⟩ := Option.bind_eq_some_iff.mp h
      obtain ⟨more, hmore, h⟩ := Option.bind_eq_some_iff.mp h
      cases h
      obtain ⟨hhigh16, hfirst⟩ := (hexVal_eq_some_iff first high).mp hhigh
      obtain ⟨hlow16, hsecond⟩ := (hexVal_eq_some_iff second low).mp hlow
      obtain ⟨hdiv, hmod⟩ := byte_of_digits hhigh16 hlow16
      change _ = hexDigit ((high <<< 4 ||| low) / 16) ::
        hexDigit ((high <<< 4 ||| low) % 16) :: hexText more
      rw [List.map_cons, List.map_cons, (ih more).mp hmore, hfirst, hsecond, hdiv, hmod]
    · intro h
      cases bytes with
      | nil => cases h
      | cons byte bytes =>
        obtain ⟨hdiv16, hmod16, hbyte⟩ := digits_of_byte byte
        injection h with hfirst h
        injection h with hsecond hrest
        have hhigh := (hexVal_eq_some_iff first _).mpr ⟨hdiv16, hfirst⟩
        have hlow := (hexVal_eq_some_iff second _).mpr ⟨hmod16, hsecond⟩
        have hmore := (ih bytes).mpr hrest
        unfold decodeHex
        rw [hhigh, hlow, hmore]
        exact congrArg (fun byte => some (byte :: bytes)) hbyte

theorem parseInfoHash_eq_some_iff (line : List Char) (infoHash : InfoHash) :
    parseInfoHash line = some infoHash ↔ Spells (utf8 line) infoHash := by
  unfold parseInfoHash Spells
  rw [← decodeHex_eq_some_iff]
  constructor
  · intro h
    obtain ⟨bytes, hbytes, h⟩ := Option.bind_eq_some_iff.mp h
    split at h
    · cases h
      exact hbytes
    · cases h
  · intro h
    have hlength : infoHash.bytes.toList.length = 20 := infoHash.bytes.length_toList
    rw [h, Option.bind_some, dif_pos hlength]
    rfl

theorem hexText_lt {bytes : List UInt8} {byte : UInt8} (h : byte ∈ hexText bytes) :
    byte.toNat < 0x80 := by
  have hall : ∀ n < 16, (hexDigit (UInt8.ofNat n)).toNat < 0x80 := by decide
  have hdigit : ∀ {n : UInt8}, n < 16 → (hexDigit n).toNat < 0x80 := by
    intro n hn
    have h := hall n.toNat hn
    rwa [UInt8.ofNat_toNat] at h
  obtain ⟨of, -, hbyte⟩ := List.mem_flatMap.mp h
  obtain ⟨hdiv, hmod, -⟩ := digits_of_byte of
  rcases List.mem_cons.mp hbyte with rfl | hbyte
  · exact hdigit hdiv
  · cases List.mem_singleton.mp hbyte
    exact hdigit hmod

/-- The decoder changes nothing where it puts in no replacement. -/
theorem utf8_fromUtf8Lossy {bytes : List UInt8} (h : '\ufffd' ∉ fromUtf8Lossy bytes) :
    utf8 (fromUtf8Lossy bytes) = bytes := by
  obtain ⟨rest, hrest⟩ := (prefix_fromUtf8Lossy_iff h).mp (List.prefix_refl _)
  have hlossy := fromUtf8Lossy_append (fromUtf8Lossy bytes) rest
  rw [hrest] at hlossy
  have hnil : fromUtf8Lossy rest = [] := List.append_right_eq_self.mp hlossy.symm
  cases rest with
  | nil => rwa [List.append_nil] at hrest
  | cons first rest =>
    rw [fromUtf8Lossy_cons] at hnil
    cases hnil

theorem Spells.ascii {entry : List UInt8} {infoHash : InfoHash} (h : Spells entry infoHash)
    {byte : UInt8} (hbyte : byte ∈ entry) : byte.toNat < 0x80 := by
  by_contra hle
  have hlt := hexText_lt (h ▸ List.mem_map_of_mem hbyte)
  rw [toAsciiLowercase_of_le (Nat.le_of_not_lt hle)] at hlt
  exact hle hlt

/-- Only the digits themselves are read as digits. -/
theorem spells_fromUtf8Lossy_iff (entry : List UInt8) (infoHash : InfoHash) :
    Spells (utf8 (fromUtf8Lossy entry)) infoHash ↔ Spells entry infoHash := by
  constructor
  · intro h
    have hkept : '\ufffd' ∉ fromUtf8Lossy entry := by
      intro hmem
      have hbyte : (0xef : UInt8) ∈ utf8 (fromUtf8Lossy entry) :=
        List.mem_flatMap.mpr ⟨_, hmem, by decide⟩
      exact absurd (h.ascii hbyte) (by decide)
    rwa [utf8_fromUtf8Lossy hkept] at h
  · intro h
    rwa [utf8_fromUtf8Lossy_of_ascii fun _ hbyte => h.ascii hbyte]

namespace AccessList

theorem insertEntry_cases (list : AccessList) (entry : Nat × List Char) :
    (∃ infoHash, parseInfoHash entry.2 = some infoHash ∧
      list.insertEntry entry = .ok ⟨list.hashes.insert infoHash⟩) ∨
    parseInfoHash entry.2 = none ∧ list.insertEntry entry =
      .error s!"Invalid access list entry on line {entry.1}: {String.ofList entry.2}" := by
  unfold insertEntry insertFromLine
  cases hparse : parseInfoHash entry.2 with
  | some infoHash => exact .inl ⟨infoHash, rfl, rfl⟩
  | none => exact .inr ⟨rfl, rfl⟩

theorem foldlM_insertEntry_ok {entries : List (Nat × List Char)} {list list' : AccessList}
    (h : entries.foldlM insertEntry list = .ok list') :
    (∀ entry ∈ entries, ∃ infoHash, parseInfoHash entry.2 = some infoHash) ∧
      ∀ infoHash, infoHash ∈ list'.hashes ↔
        infoHash ∈ list.hashes ∨ ∃ entry ∈ entries, parseInfoHash entry.2 = some infoHash := by
  induction entries generalizing list with
  | nil =>
    cases h
    exact ⟨nofun, by simp⟩
  | cons entry entries ih =>
    rw [List.foldlM_cons] at h
    rcases insertEntry_cases list entry with ⟨infoHash, hparse, heq⟩ | ⟨-, heq⟩
    · rw [heq] at h
      obtain ⟨hall, hmem⟩ := ih h
      constructor
      · intro other hother
        rcases List.mem_cons.mp hother with rfl | hother
        · exact ⟨infoHash, hparse⟩
        · exact hall other hother
      · intro other
        rw [hmem, List.mem_insert_iff]
        constructor
        · rintro ((rfl | hold) | ⟨e, he, hparse'⟩)
          · exact .inr ⟨entry, List.mem_cons_self, hparse⟩
          · exact .inl hold
          · exact .inr ⟨e, List.mem_cons_of_mem _ he, hparse'⟩
        · rintro (hold | ⟨e, he, hparse'⟩)
          · exact .inl (.inr hold)
          · rcases List.mem_cons.mp he with rfl | he
            · rw [hparse] at hparse'
              cases hparse'
              exact .inl (.inl rfl)
            · exact .inr ⟨e, he, hparse'⟩
    · rw [heq] at h
      cases h

theorem foldlM_insertEntry_error {entries : List (Nat × List Char)} {list : AccessList}
    {err : String} (h : entries.foldlM insertEntry list = .error err) :
    ∃ entry ∈ entries, parseInfoHash entry.2 = none := by
  induction entries generalizing list with
  | nil => cases h
  | cons entry entries ih =>
    rw [List.foldlM_cons] at h
    rcases insertEntry_cases list entry with ⟨infoHash, -, heq⟩ | ⟨hnone, -⟩
    · rw [heq] at h
      obtain ⟨e, he, hnone⟩ := ih h
      exact ⟨e, List.mem_cons_of_mem _ he, hnone⟩
    · exact ⟨entry, List.mem_cons_self, hnone⟩

/-- The entries of a file, read as text and as bytes. -/
theorem entry_of_line {bytes : List UInt8} {line : Nat × List Char}
    (h : line ∈ readListFile bytes) : ∃ entry ∈ byteEntries bytes,
      ∀ infoHash, parseInfoHash line.2 = some infoHash ↔ Spells entry infoHash := by
  have hmem : line.2 ∈ (byteEntries bytes).map fromUtf8Lossy :=
    map_snd_readListFile bytes ▸ List.mem_map_of_mem h
  obtain ⟨entry, hentry, heq⟩ := List.mem_map.mp hmem
  refine ⟨entry, hentry, ?_⟩
  intro infoHash
  rw [parseInfoHash_eq_some_iff, ← heq, spells_fromUtf8Lossy_iff]

theorem line_of_entry {bytes entry : List UInt8} (h : entry ∈ byteEntries bytes) :
    ∃ line ∈ readListFile bytes,
      ∀ infoHash, parseInfoHash line.2 = some infoHash ↔ Spells entry infoHash := by
  have hmem : fromUtf8Lossy entry ∈ (readListFile bytes).map Prod.snd :=
    map_snd_readListFile bytes ▸ List.mem_map_of_mem h
  obtain ⟨line, hline, heq⟩ := List.mem_map.mp hmem
  refine ⟨line, hline, ?_⟩
  intro infoHash
  rw [parseInfoHash_eq_some_iff, heq, spells_fromUtf8Lossy_iff]

/-- All entries of a file that is loaded are info hashes, and the list has just these. -/
theorem createFromPath_ok {bytes : List UInt8} {list : AccessList}
    (h : createFromPath bytes = .ok list) :
    (∀ entry ∈ byteEntries bytes, ∃ infoHash, Spells entry infoHash) ∧
      ∀ infoHash, infoHash ∈ list.hashes ↔ ∃ entry ∈ byteEntries bytes, Spells entry infoHash := by
  obtain ⟨hall, hmem⟩ := foldlM_insertEntry_ok h
  constructor
  · intro entry hentry
    obtain ⟨line, hline, hiff⟩ := line_of_entry hentry
    obtain ⟨infoHash, hparse⟩ := hall line hline
    exact ⟨infoHash, (hiff infoHash).mp hparse⟩
  · intro infoHash
    rw [hmem]
    constructor
    · rintro (hnil | ⟨line, hline, hparse⟩)
      · cases hnil
      · obtain ⟨entry, hentry, hiff⟩ := entry_of_line hline
        exact ⟨entry, hentry, (hiff infoHash).mp hparse⟩
    · rintro ⟨entry, hentry, hspells⟩
      obtain ⟨line, hline, hiff⟩ := line_of_entry hentry
      exact .inr ⟨line, hline, (hiff infoHash).mpr hspells⟩

theorem createFromPath_error {bytes : List UInt8} {err : String}
    (h : createFromPath bytes = .error err) :
    ∃ entry ∈ byteEntries bytes, ∀ infoHash, ¬ Spells entry infoHash := by
  obtain ⟨line, hline, hnone⟩ := foldlM_insertEntry_error h
  obtain ⟨entry, hentry, hiff⟩ := entry_of_line hline
  refine ⟨entry, hentry, ?_⟩
  intro infoHash hspells
  rw [← hiff, hnone] at hspells
  cases hspells

end AccessList

end Aquatic
