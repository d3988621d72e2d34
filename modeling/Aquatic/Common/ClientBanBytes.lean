import Aquatic.Common.ListFile
import Aquatic.Common.Utf8Pieces

/-!
# Client bans and the bytes they come from

The entries of a ban list and the peer ids are compared as texts. A ban that is read off the bytes
is another one where an undecodable sequence stands for a different one, and where an entry ends
inside of a character of the peer id.
-/

namespace Aquatic
open Text
set_option autoImplicit false

/-- The entry on a line, if it is not blank. Characters are looked at, and bytes are kept. -/
def byteEntry (line : List UInt8) : Option (List UInt8) :=
  let isWhite (piece : List UInt8) : Bool := isWhitespace (pieceChar piece)
  let line := (pieces line).dropWhile fun piece => pieceChar piece == '\ufeff'
  let line := line.takeWhile fun piece => pieceChar piece != '#'
  let entry := ((line.dropWhile isWhite).reverse.dropWhile isWhite).reverse
  if entry.isEmpty then none else some entry.flatten

def byteEntries (file : List UInt8) : List (List UInt8) := (file.splitOn 0x0a).filterMap byteEntry

theorem fromUtf8Lossy_flatten {bytes : List UInt8} {part : List (List UInt8)}
    (h : part <:+: pieces bytes) : fromUtf8Lossy part.flatten = part.map pieceChar := by
  rw [← map_pieceChar, pieces_flatten_of_infix h]

theorem listEntry_fromUtf8Lossy (line : List UInt8) :
    listEntry (fromUtf8Lossy line) = (byteEntry line).map fromUtf8Lossy := by
  have hcut : (pieces line).dropWhile (fun piece => pieceChar piece == '\ufeff') <:+: pieces line :=
    (List.dropWhile_suffix _).isInfix
  have hcut := ((List.takeWhile_prefix fun piece => pieceChar piece != '#').isInfix).trans hcut
  simp only [byteEntry, listEntry, cut_eq_takeWhile]
  rw [← map_pieceChar, List.dropWhile_map, List.takeWhile_map, trim, List.dropWhile_map,
    ← List.map_reverse, List.dropWhile_map, ← List.map_reverse, List.isEmpty_map]
  simp only [Function.comp_def]
  split
  · rfl
  · rw [Option.map_some, fromUtf8Lossy_flatten]
    refine List.IsInfix.trans ?_ hcut
    rw [← List.reverse_infix, List.reverse_reverse]
    refine (List.dropWhile_suffix _).isInfix.trans ?_
    rw [List.reverse_infix]
    exact (List.dropWhile_suffix _).isInfix

theorem mem_of_mem_fromUtf8Lossy {bytes : List UInt8} {c : Char} (h : c ∈ fromUtf8Lossy bytes)
    (hc : c ≠ '\ufffd') : String.utf8EncodeChar c ⊆ bytes := by
  rw [← map_pieceChar] at h
  obtain ⟨piece, hpiece, rfl⟩ := List.mem_map.mp h
  rw [← piece_eq_utf8 hpiece hc, ← flatten_pieces bytes]
  exact fun byte hbyte => List.mem_flatten.mpr ⟨piece, hpiece, hbyte⟩

/-- No character but a line feed has the byte of one. -/
theorem splitOn_plain {segment : List UInt8} (h : 0x0a ∉ segment) :
    (fromUtf8Lossy segment).splitOn '\n' = (segment.splitOn 0x0a).map fromUtf8Lossy := by
  have hfeed : ∀ c ∈ fromUtf8Lossy segment, (c == '\n') = false := by
    intro c hc
    rw [beq_eq_false_iff_ne]
    rintro rfl
    exact h (mem_of_mem_fromUtf8Lossy hc (by decide) List.mem_cons_self)
  have hbyte : ∀ byte ∈ segment, (byte == 0x0a) = false := by
    intro byte hbyte
    rw [beq_eq_false_iff_ne]
    rintro rfl
    exact h hbyte
  rw [List.splitOn, List.splitOnP_eq_singleton hfeed, List.splitOn,
    List.splitOnP_eq_singleton hbyte]
  rfl

theorem splitOn_fromUtf8Lossy (file : List UInt8) :
    (fromUtf8Lossy file).splitOn '\n' = (file.splitOn 0x0a).map fromUtf8Lossy := by
  induction file using splitOn_induction (0x0a : UInt8) with
  | last segment h =>
    exact splitOn_plain h
  | more segment text h ih =>
    have hfeed : fromUtf8Lossy (0x0a :: text) = '\n' :: fromUtf8Lossy text :=
      fromUtf8Lossy_one text (by decide)
    have hbytes : (segment ++ 0x0a :: text).splitOn 0x0a =
        segment.splitOn 0x0a ++ text.splitOn 0x0a :=
      List.splitOnP_append_cons segment text (by decide)
    have hchars : (fromUtf8Lossy segment ++ '\n' :: fromUtf8Lossy text).splitOn '\n' =
        (fromUtf8Lossy segment).splitOn '\n' ++ (fromUtf8Lossy text).splitOn '\n' :=
      List.splitOnP_append_cons _ _ (by decide)
    rw [fromUtf8Lossy_append_ascii segment (by simp), hfeed, hbytes, hchars, List.map_append, ih,
      splitOn_plain h]

theorem map_snd_readListFile (file : List UInt8) :
    (readListFile file).map Prod.snd = (byteEntries file).map fromUtf8Lossy := by
  have hsnd : ∀ lines : List (List Char),
      (entriesOfLines lines).map Prod.snd = lines.filterMap listEntry := by
    intro lines
    rw [entriesOfLines, List.map_filterMap, ← List.zipIdx_map_fst 0 lines, List.filterMap_map]
    simp [numberedEntry, Function.comp_def]
  have hstrip : listEntry ∘ stripCarriageReturn = listEntry :=
    funext fun line => listEntry_stripCarriageReturn line
  have hlossy : listEntry ∘ fromUtf8Lossy = fun line => (byteEntry line).map fromUtf8Lossy :=
    funext fun line => listEntry_fromUtf8Lossy line
  rw [readListFile, ← entriesOfLines_endedLines, hsnd, endedLines, List.filterMap_map, hstrip,
    splitOn_fromUtf8Lossy, List.filterMap_map, hlossy, byteEntries, List.map_filterMap]

/-- The first of the bytes end inside of a character. -/
def EndsInside (n : Nat) (bytes : List UInt8) : Prop :=
  ∃ front piece back, pieces bytes = front ++ piece :: back ∧ pieceChar piece ≠ '\ufffd' ∧
    front.flatten.length < n ∧ n < front.flatten.length + piece.length

/-- The same bytes, or two sequences that are read as the replacement character. -/
def Alike (piece piece' : List UInt8) : Prop :=
  piece = piece' ∨ pieceChar piece = '\ufffd' ∧ pieceChar piece' = '\ufffd'

/-- The bytes begin like the entry, but have another undecodable sequence somewhere. -/
def BeginsBlurred (entry bytes : List UInt8) : Prop :=
  ∃ front back, pieces bytes = front ++ back ∧ List.Forall₂ Alike (pieces entry) front ∧
    pieces entry ≠ front

section Beginnings
variable {entry bytes : List UInt8}

theorem map_pieceChar_of_alike {part part' : List (List UInt8)}
    (h : List.Forall₂ Alike part part') :
    part.map pieceChar = part'.map pieceChar := by
  induction h with
  | nil => rfl
  | cons hpiece _ ih =>
    rw [List.map_cons, List.map_cons, ih]
    rcases hpiece with rfl | ⟨hpiece, hpiece'⟩
    · rfl
    · rw [hpiece, hpiece']

theorem alike_of_map_pieceChar {part part' : List (List UInt8)} (hpart : part ⊆ pieces entry)
    (hpart' : part' ⊆ pieces bytes) (h : part.map pieceChar = part'.map pieceChar) :
    List.Forall₂ Alike part part' := by
  induction part generalizing part' with
  | nil =>
    rw [List.map_nil, eq_comm, List.map_eq_nil_iff] at h
    rw [h]
    exact .nil
  | cons piece part ih =>
    cases part' with
    | nil => cases h
    | cons piece' part' =>
      rw [List.map_cons, List.map_cons] at h
      obtain ⟨hchar, hrest⟩ := List.cons.inj h
      obtain ⟨hpiece, hpart⟩ := List.cons_subset.mp hpart
      obtain ⟨hpiece', hpart'⟩ := List.cons_subset.mp hpart'
      refine .cons ?_ (ih hpart hpart' hrest)
      by_cases hblurred : pieceChar piece = '\ufffd'
      · exact .inr ⟨hblurred, hchar ▸ hblurred⟩
      · left
        rw [piece_eq_utf8 hpiece hblurred, hchar, ← piece_eq_utf8 hpiece' (hchar ▸ hblurred)]

theorem not_endsInside_of_pieces {front back : List (List UInt8)}
    (h : pieces bytes = front ++ back) : ¬ EndsInside front.flatten.length bytes := by
  rintro ⟨before, piece, after, hpieces, -, hlow, hhigh⟩
  rw [h] at hpieces
  rcases List.append_eq_append_iff.mp hpieces with ⟨rest, rfl, -⟩ | ⟨rest, rfl, hrest⟩
  · rw [List.flatten_append, List.length_append] at hlow
    omega
  · cases rest with
    | nil =>
      rw [List.append_nil] at hlow
      omega
    | cons piece' rest =>
      obtain ⟨rfl, -⟩ := List.cons.inj hrest
      rw [List.flatten_append, List.flatten_cons, List.length_append, List.length_append] at hhigh
      omega

/-- What the bytes begin with and what their text begins with. -/
theorem prefix_lossy_iff : fromUtf8Lossy entry <+: fromUtf8Lossy bytes ↔
    (entry <+: bytes ∧ ¬ EndsInside entry.length bytes) ∨ BeginsBlurred entry bytes := by
  constructor
  · rintro ⟨rest, hrest⟩
    rw [← map_pieceChar, ← map_pieceChar bytes] at hrest
    obtain ⟨front, back, hpieces, hfront, -⟩ := List.map_eq_append_iff.mp hrest.symm
    by_cases heq : pieces entry = front
    · left
      obtain rfl := heq
      have hinside := not_endsInside_of_pieces hpieces
      have hbytes := flatten_pieces bytes
      rw [hpieces, List.flatten_append] at hbytes
      rw [flatten_pieces] at hinside hbytes
      exact ⟨⟨back.flatten, hbytes⟩, hinside⟩
    · have hsubset : front ⊆ pieces bytes := hpieces ▸ List.subset_append_left front back
      exact .inr ⟨front, back, hpieces,
        alike_of_map_pieceChar (List.Subset.refl _) hsubset hfront.symm, heq⟩
  · rw [← map_pieceChar, ← map_pieceChar bytes]
    rintro (⟨hbegins, hinside⟩ | ⟨front, back, hpieces, halike, -⟩)
    · rcases pieces_of_prefix hbegins with h | ⟨front, cut, piece, back, hentry, hpieces, hne,
        hlt, hcut⟩
      · exact h.map pieceChar
      · have hlength : entry.length = front.flatten.length + cut.length := by
          rw [← flatten_pieces entry, hentry, List.flatten_append, List.length_append,
            List.flatten_singleton]
        have hchar : pieceChar piece = '\ufffd' := by
          apply Decidable.byContradiction
          intro hchar
          have hpos := List.length_pos_of_ne_nil hne
          exact hinside ⟨front, piece, back, hpieces, hchar, by omega, by omega⟩
        rw [hentry, hpieces, List.map_append, List.map_append, List.map_cons, List.map_cons, hcut,
          hchar, List.prefix_append_right_inj]
        exact ⟨back.map pieceChar, rfl⟩
    · rw [hpieces, List.map_append, map_pieceChar_of_alike halike]
      exact List.prefix_append _ _

end Beginnings

/-- Up to ASCII case. -/
def StartsWith (entry peerId : List UInt8) : Prop :=
  entry.map toAsciiLowercase <+: peerId.map toAsciiLowercase

namespace ClientBanList

/-- A file that is not given is not read. -/
def create (banList : Option (List UInt8)) (banVampireClients : Bool)
    (allowlist : Option (List UInt8)) : ClientBanList where
  bannedPatterns := banList.toList.flatMap fun file =>
    (readListFile file).map fun (_, line) => line.map Char.toLower
  allowedPeerIdPrefixes := allowlist.toList.flatMap fun file =>
    (readListFile file).filterMap fun (_, line) =>
      if 20 < (utf8 line).length then none else some (line.map Char.toLower)
  banVampireClients := banVampireClients

/-- The bans as they can be read off the bytes of the file and of the peer id. -/
def BannedByBytes (file : List UInt8) (banVampireClients : Bool) (peerId : List UInt8) : Prop :=
  (banVampireClients = true ∧ ∃ start ∈ vampirePrefixes, StartsWith (utf8 start) peerId) ∨
    ∃ entry ∈ byteEntries file, StartsWith entry peerId

/-- The decoder changes nothing: some ban stands on a beginning that it keeps, or there is an
entry that it takes for a beginning if and only if there is a beginning that it cuts off. -/
def Undistorted (file : List UInt8) (banVampireClients : Bool) (peerId : List UInt8) : Prop :=
  let lower := peerId.map toAsciiLowercase
  (banVampireClients = true ∧ ∃ start ∈ vampirePrefixes, StartsWith (utf8 start) peerId) ∨
    (∃ entry ∈ byteEntries file, StartsWith entry peerId ∧ ¬ EndsInside entry.length lower) ∨
    ((∃ entry ∈ byteEntries file, BeginsBlurred (entry.map toAsciiLowercase) lower) ↔
      ∃ entry ∈ byteEntries file, StartsWith entry peerId ∧ EndsInside entry.length lower)

theorem isVampireClient_iff {peerId : List UInt8} :
    isVampireClient (fromUtf8Lossy peerId) = true ↔
      ∃ start ∈ vampirePrefixes, StartsWith (utf8 start) peerId := by
  have hstarts : ∀ start ∈ vampirePrefixes,
      (utf8 start).map toAsciiLowercase = utf8 start ∧ '\ufffd' ∉ start := by decide
  rw [isVampireClient, List.any_eq_true]
  refine exists_congr fun start => and_congr_right fun hstart => ?_
  obtain ⟨hlower, hplain⟩ := hstarts start hstart
  rw [StartsWith, hlower, ← prefix_fromUtf8Lossy_iff hplain, fromUtf8Lossy_map_toAsciiLowercase,
    beq_iff_eq, List.map_take, eq_comm, ← List.prefix_iff_eq_take]

theorem mem_bannedPatterns {file : List UInt8} {banVampireClients : Bool}
    {allowlist : Option (List UInt8)} {pattern : List Char} :
    pattern ∈ (create (some file) banVampireClients allowlist).bannedPatterns ↔
      ∃ entry ∈ byteEntries file, fromUtf8Lossy (entry.map toAsciiLowercase) = pattern := by
  have hpatterns : (create (some file) banVampireClients allowlist).bannedPatterns =
      ((readListFile file).map Prod.snd).map fun line => line.map Char.toLower := by
    simp [create]
  rw [hpatterns, map_snd_readListFile, List.map_map, List.mem_map]
  simp only [Function.comp_apply, fromUtf8Lossy_map_toAsciiLowercase]

theorem isBanned_iff {file : List UInt8} {banVampireClients : Bool}
    {allowlist : Option (List UInt8)} {peerId : List UInt8} :
    (create (some file) banVampireClients allowlist).isBanned (fromUtf8Lossy peerId) = true ↔
      (banVampireClients = true ∧ ∃ start ∈ vampirePrefixes, StartsWith (utf8 start) peerId) ∨
        (∃ entry ∈ byteEntries file, StartsWith entry peerId ∧
          ¬ EndsInside entry.length (peerId.map toAsciiLowercase)) ∨
        ∃ entry ∈ byteEntries file,
          BeginsBlurred (entry.map toAsciiLowercase) (peerId.map toAsciiLowercase) := by
  have hentries : ((create (some file) banVampireClients allowlist).bannedPatterns.any
      fun pattern => pattern.isPrefixOf ((fromUtf8Lossy peerId).map Char.toLower)) = true ↔
      ∃ entry ∈ byteEntries file, fromUtf8Lossy (entry.map toAsciiLowercase) <+:
        fromUtf8Lossy (peerId.map toAsciiLowercase) := by
    rw [List.any_eq_true, ← fromUtf8Lossy_map_toAsciiLowercase]
    simp only [mem_bannedPatterns, List.isPrefixOf_iff_prefix]
    constructor
    · rintro ⟨_, ⟨entry, hentry, rfl⟩, hbegins⟩
      exact ⟨entry, hentry, hbegins⟩
    · rintro ⟨entry, hentry, hbegins⟩
      exact ⟨_, ⟨entry, hentry, rfl⟩, hbegins⟩
  rw [isBanned, Bool.or_eq_true, Bool.and_eq_true, isVampireClient_iff, hentries]
  refine or_congr Iff.rfl ?_
  simp only [prefix_lossy_iff, List.length_map, ← StartsWith.eq_1, and_or_left, exists_or]

theorem or_or_iff_or_or {banned kept blurred cut : Prop} :
    ((banned ∨ kept ∨ blurred) ↔ banned ∨ kept ∨ cut) ↔ banned ∨ kept ∨ (blurred ↔ cut) := by
  by_cases hbanned : banned
  · simp [hbanned]
  · by_cases hkept : kept
    · simp [hkept]
    · simp [hbanned, hkept]

/-- A ban list bans what its bytes say if and only if the decoder changes nothing. -/
theorem isBanned_exact_iff (file : List UInt8) (banVampireClients : Bool)
    (allowlist : Option (List UInt8)) (peerId : PeerId) :
    ((create (some file) banVampireClients allowlist).isBanned
        (fromUtf8Lossy peerId.bytes.toList) = true ↔
      BannedByBytes file banVampireClients peerId.bytes.toList) ↔
      Undistorted file banVampireClients peerId.bytes.toList := by
  generalize peerId.bytes.toList = peerId
  have hcases : (∃ entry ∈ byteEntries file, StartsWith entry peerId) ↔
      (∃ entry ∈ byteEntries file, StartsWith entry peerId ∧
        ¬ EndsInside entry.length (peerId.map toAsciiLowercase)) ∨
      ∃ entry ∈ byteEntries file, StartsWith entry peerId ∧
        EndsInside entry.length (peerId.map toAsciiLowercase) := by
    rw [← exists_or]
    refine exists_congr fun entry => ?_
    rw [← and_or_left, ← and_or_left, or_comm, and_iff_left (Classical.em _)]
  rw [isBanned_iff, BannedByBytes, hcases]
  exact or_or_iff_or_or

/-- Two bytes that begin no character. -/
theorem not_exact_undecodable :
    ¬ ((create (some [0xff]) false none).isBanned
        (fromUtf8Lossy (PeerId.mk (Vector.replicate 20 0xfe)).bytes.toList) = true ↔
      BannedByBytes [0xff] false (PeerId.mk (Vector.replicate 20 0xfe)).bytes.toList) := by
  have hentries : byteEntries [0xff] = [[0xff]] := by
    have hpieces : pieces [0xff] = [[0xff]] := by
      rw [pieces_cons]
      exact congrArg (List.cons _) pieces_nil
    have hsplit : List.splitOn 0x0a [(0xff : UInt8)] = [[0xff]] := by decide
    rw [byteEntries, hsplit, List.filterMap_cons, byteEntry, hpieces]
    rfl
  have hbanned : (create (some [0xff]) false none).isBanned
      (fromUtf8Lossy (PeerId.mk (Vector.replicate 20 0xfe)).bytes.toList) = true := by decide
  intro h
  rcases h.mp hbanned with ⟨hvampire, -⟩ | ⟨entry, hentry, hstarts⟩
  · cases hvampire
  · rw [hentries, List.mem_singleton] at hentry
    obtain rfl := hentry
    revert hstarts
    rw [StartsWith]
    decide

end ClientBanList

end Aquatic
