import Aquatic.HttpProtocol.Request

/-!
# What is written is read back

A query string is a list of pairs. The loop over its equal signs and ampersands
handles the pairs one after the other, as long as none of them has such a sign in it.
-/

namespace Aquatic.HttpProtocol
open Text Http
set_option autoImplicit false

theorem hexValue_digitChar {n : Nat} (h : n < 16) : hexValue (Nat.digitChar n) = some n := by
  have hall : ∀ n < 16, hexValue (Nat.digitChar n) = some n := by decide
  exact hall n h

theorem urldecodeByte_urlencodeByte (byte : UInt8) (rest : List Char) :
    urldecodeByte (urlencodeByte byte ++ rest) = .ok (byte, rest) := by
  have hlt : byte.toNat < 256 := byte.toNat_lt
  have hhigh : hexValue (Nat.digitChar (byte.toNat / 16)) = some (byte.toNat / 16) :=
    hexValue_digitChar (by omega)
  have hlow : hexValue (Nat.digitChar (byte.toNat % 16)) = some (byte.toNat % 16) :=
    hexValue_digitChar (by omega)
  have hbyte : byte.toNat / 16 * 16 + byte.toNat % 16 = byte.toNat := by omega
  simp [urlencodeByte, urldecodeByte, hhigh, hlow, hbyte]

theorem urldecodeBytes_succ {n : Nat} {chars more rest : List Char} {out : Vector UInt8 n}
    {byte : UInt8} (hout : urldecodeBytes n chars = .ok (out, more))
    (hbyte : urldecodeByte more = .ok (byte, rest)) :
    urldecodeBytes (n + 1) chars = .ok (out.push byte, rest) := by
  rw [urldecodeBytes, hout]
  change (urldecodeByte more >>= _) = _
  rw [hbyte]
  rfl

theorem urldecodeBytes_flatMap {n : Nat} (bytes : Vector UInt8 n) (rest : List Char) :
    urldecodeBytes n (bytes.toList.flatMap urlencodeByte ++ rest) = .ok (bytes, rest) := by
  induction n generalizing rest with
  | zero =>
    obtain rfl : bytes = #v[] := Vector.eq_empty
    rfl
  | succ n ih =>
    have hlist : bytes.toList = bytes.pop.toList ++ [bytes.back] := by
      conv_lhs => rw [← Vector.push_pop_back bytes]
      exact Vector.toList_push
    have hback := urldecodeByte_urlencodeByte bytes.back rest
    rw [hlist, List.flatMap_append, List.append_assoc, List.flatMap_singleton,
      urldecodeBytes_succ (ih bytes.pop _) hback, Vector.push_pop_back]

theorem urldecode20Bytes_urlencode20Bytes (bytes : Vector UInt8 20) :
    urldecode20Bytes (urlencode20Bytes bytes) = .ok bytes := by
  have h := urldecodeBytes_flatMap bytes []
  rw [List.append_nil] at h
  rw [urldecode20Bytes, urlencode20Bytes, h]
  rfl

/-- A character that neither separates pairs nor ends the target. -/
def Plain (c : Char) : Prop := c ≠ '=' ∧ c ≠ '&' ∧ c ≠ ' '

instance (c : Char) : Decidable (Plain c) := inferInstanceAs (Decidable (_ ∧ _ ∧ _))

theorem plain_digitChar {n : Nat} (h : n < 16) : Plain (Nat.digitChar n) := by
  have hall : ∀ n < 16, Plain (Nat.digitChar n) := by decide
  exact hall n h

/-- Escapes consist of percent signs and digits. -/
theorem mem_urlencode {bytes : List UInt8} {c : Char} (h : c ∈ bytes.flatMap urlencodeByte) :
    c = '%' ∨ ∃ n < 16, c = Nat.digitChar n := by
  obtain ⟨byte, -, hc⟩ := List.mem_flatMap.mp h
  have hlt : byte.toNat < 256 := byte.toNat_lt
  simp only [urlencodeByte, List.mem_cons, List.not_mem_nil, or_false] at hc
  rcases hc with hc | hc | hc
  · exact .inl hc
  · exact .inr ⟨byte.toNat / 16, by omega, hc⟩
  · exact .inr ⟨byte.toNat % 16, by omega, hc⟩

theorem plain_of_mem_urlencode20Bytes {bytes : Vector UInt8 20} {c : Char}
    (h : c ∈ urlencode20Bytes bytes) : Plain c := by
  rcases mem_urlencode h with rfl | ⟨n, hn, rfl⟩
  · decide
  · exact plain_digitChar hn

theorem plain_of_mem_decimal {n : Nat} {c : Char} (h : c ∈ decimal n) : Plain c := by
  have hdigit := isDigit_of_mem_decimal h
  refine ⟨?_, ?_, ?_⟩
  all_goals
    rintro rfl
    cases hdigit

abbrev Pair := List Char × List Char

def pairText (pair : Pair) : List Char := pair.1 ++ '=' :: pair.2

def pairsText : List Pair → List Char
  | [] => []
  | pair :: pairs => pairText pair ++ pairs.flatMap fun pair => '&' :: pairText pair

/-- No sign that could be taken for a separator. -/
def Separated (pair : Pair) : Prop := ∀ c ∈ pair.1 ++ pair.2, Plain c

instance (pair : Pair) : Decidable (Separated pair) :=
  inferInstanceAs (Decidable (∀ c ∈ pair.1 ++ pair.2, Plain c))

theorem separated_of {key value : List Char} (hkey : ∀ c ∈ key, Plain c)
    (hvalue : ∀ c ∈ value, Plain c) : Separated (key, value) := by
  intro c hc
  rcases List.mem_append.mp hc with hc | hc
  · exact hkey c hc
  · exact hvalue c hc

theorem Separated.key {pair : Pair} (h : Separated pair) : '=' ∉ pair.1 ∧ '&' ∉ pair.1 :=
  ⟨fun hmem => (h _ (List.mem_append_left _ hmem)).1 rfl,
    fun hmem => (h _ (List.mem_append_left _ hmem)).2.1 rfl⟩

theorem Separated.value {pair : Pair} (h : Separated pair) : '=' ∉ pair.2 ∧ '&' ∉ pair.2 :=
  ⟨fun hmem => (h _ (List.mem_append_right _ hmem)).1 rfl,
    fun hmem => (h _ (List.mem_append_right _ hmem)).2.1 rfl⟩

theorem not_mem_pairsText {pairs : List Pair} (h : ∀ pair ∈ pairs, Separated pair) :
    ' ' ∉ pairsText pairs := by
  have hpair : ∀ pair ∈ pairs, ' ' ∉ pairText pair := by
    intro pair hmem hspace
    rcases List.mem_append.mp hspace with hspace | hspace
    · exact (h pair hmem _ (List.mem_append_left _ hspace)).2.2 rfl
    · rcases List.mem_cons.mp hspace with heq | hspace
      · revert heq
        decide
      · exact (h pair hmem _ (List.mem_append_right _ hspace)).2.2 rfl
  cases pairs with
  | nil => exact List.not_mem_nil
  | cons pair pairs =>
    rw [List.forall_mem_cons] at hpair
    intro hspace
    rcases List.mem_append.mp hspace with hspace | hspace
    · exact hpair.1 hspace
    · obtain ⟨next, hnext, hspace⟩ := List.mem_flatMap.mp hspace
      rcases List.mem_cons.mp hspace with heq | hspace
      · revert heq
        decide
      · exact hpair.2 next hnext hspace

theorem idxsOf_of_not_mem {c : Char} {text : List Char} (h : c ∉ text) (start : Nat) :
    text.idxsOf c start = [] := by
  rw [List.idxsOf_eq_nil_iff]
  intro d hd
  exact beq_false_of_ne fun heq => h (heq ▸ hd)

section Scan
variable {pair : Pair} (start : Nat) (rest : List Char)

theorem idxsOf_equalSign (hkey : '=' ∉ pair.1) : (pairText pair ++ rest).idxsOf '=' start =
    (start + pair.1.length) :: (pair.2 ++ rest).idxsOf '=' (start + pair.1.length + 1) := by
  simp [pairText, List.idxsOf_append, idxsOf_of_not_mem hkey, Nat.add_assoc]

theorem idxsOf_ampersand (hkey : '&' ∉ pair.1) (hvalue : '&' ∉ pair.2) :
    (pairText pair ++ rest).idxsOf '&' start =
      rest.idxsOf '&' (start + (pairText pair).length) := by
  simp [pairText, List.idxsOf_append, idxsOf_of_not_mem hkey, idxsOf_of_not_mem hvalue,
    Nat.add_assoc, Nat.add_comm 1]

end Scan

section Pairs
variable {σ : Type} (setField : σ → List Char → List Char → Except String σ)

/-- The fields of a pair are where the signs say they are. -/
theorem slice_key (before rest : List Char) (pair : Pair) :
    slice (before ++ (pairText pair ++ rest)) before.length (before.length + pair.1.length) =
      some pair.1 := by
  rw [pairText, List.append_assoc]
  exact slice_append before pair.1 _ rfl rfl

theorem slice_value (before rest : List Char) (pair : Pair) :
    slice (before ++ (pairText pair ++ rest)) (before.length + pair.1.length + 1)
      (before.length + (pairText pair).length) = some pair.2 := by
  have htext : before ++ (pairText pair ++ rest) =
      (before ++ pair.1 ++ ['=']) ++ (pair.2 ++ rest) := by
    simp [pairText]
  rw [htext]
  apply slice_append
  · simp [Nat.add_assoc]
  · simp [pairText]
    omega

/-- One turn of the loop: the pair is handled, the loop goes on behind the next ampersand. -/
theorem parsePairs_step {pair : Pair} (hequal : '=' ∉ pair.1) (hkey : '&' ∉ pair.1)
    (hvalue : '&' ∉ pair.2) (before rest : List Char) (fields : σ)
    (hrest : rest = [] ∨ ∃ more, rest = '&' :: more) :
    parsePairs setField (before ++ (pairText pair ++ rest))
        ((pairText pair ++ rest).idxsOf '=' before.length)
        ((pairText pair ++ rest).idxsOf '&' before.length) before.length fields =
      (setField fields pair.1 pair.2).bind fun fields =>
        if rest = [] then .ok fields
        else parsePairs setField (before ++ (pairText pair ++ rest))
          ((pair.2 ++ rest).idxsOf '=' (before.length + pair.1.length + 1))
          (rest.idxsOf '&' (before.length + (pairText pair).length)).tail
          (before.length + (pairText pair).length + 1) fields := by
  have hend : (rest.idxsOf '&' (before.length + (pairText pair).length)).headD
      (before ++ (pairText pair ++ rest)).length = before.length + (pairText pair).length := by
    rcases hrest with rfl | ⟨more, rfl⟩
    · simp
    · simp
  have hlast : (before.length + (pairText pair).length = (before ++ (pairText pair ++ rest)).length) =
      (rest = []) := by
    rw [← List.length_eq_zero_iff, List.length_append, List.length_append]
    exact propext (by omega)
  rw [idxsOf_equalSign _ _ hequal, idxsOf_ampersand _ _ hkey hvalue, parsePairs]
  simp only [hend, slice_key, slice_value, withContext, hlast]
  rfl

/-- The loop is behind the next ampersand when the value has no equal sign. -/
theorem parsePairs_cons {pair : Pair} (hequal : '=' ∉ pair.1) (hsingle : '=' ∉ pair.2)
    (hkey : '&' ∉ pair.1) (hvalue : '&' ∉ pair.2) (before more : List Char) (fields : σ) :
    parsePairs setField (before ++ (pairText pair ++ '&' :: more))
        ((pairText pair ++ '&' :: more).idxsOf '=' before.length)
        ((pairText pair ++ '&' :: more).idxsOf '&' before.length) before.length fields =
      (setField fields pair.1 pair.2).bind fun fields =>
        parsePairs setField ((before ++ pairText pair ++ ['&']) ++ more)
          (more.idxsOf '=' (before ++ pairText pair ++ ['&']).length)
          (more.idxsOf '&' (before ++ pairText pair ++ ['&']).length)
          (before ++ pairText pair ++ ['&']).length fields := by
  have htext : before ++ pairText pair ++ ['&'] ++ more =
      before ++ (pairText pair ++ '&' :: more) := by simp
  have hlength : (before ++ pairText pair ++ ['&']).length =
      before.length + (pairText pair).length + 1 := by simp [Nat.add_assoc]
  have hsigns : (pair.2 ++ '&' :: more).idxsOf '=' (before.length + pair.1.length + 1) =
      more.idxsOf '=' (before.length + (pairText pair).length + 1) := by
    have hnext : ('&' == '=') = false := by decide
    rw [List.idxsOf_append, idxsOf_of_not_mem hsingle, List.nil_append]
    simp [hnext, pairText]
    grind
  rw [parsePairs_step setField hequal hkey hvalue before _ fields (.inr ⟨more, rfl⟩), htext,
    hlength, hsigns]
  simp

theorem parsePairs_from {pair : Pair} {pairs : List Pair} (hpair : Separated pair)
    (hpairs : ∀ pair ∈ pairs, Separated pair) (before : List Char) (fields : σ) :
    parsePairs setField (before ++ pairsText (pair :: pairs))
        ((pairsText (pair :: pairs)).idxsOf '=' before.length)
        ((pairsText (pair :: pairs)).idxsOf '&' before.length) before.length fields =
      (pair :: pairs).foldlM (fun fields pair => setField fields pair.1 pair.2) fields := by
  induction pairs generalizing pair before fields with
  | nil =>
    rw [pairsText, List.flatMap_nil, parsePairs_step setField hpair.key.1 hpair.key.2
      hpair.value.2 before [] fields (.inl rfl)]
    rfl
  | cons next pairs ih =>
    rw [List.forall_mem_cons] at hpairs
    have hrest : (next :: pairs).flatMap (fun pair => '&' :: pairText pair) =
        '&' :: pairsText (next :: pairs) := by simp [pairsText]
    rw [pairsText, hrest, parsePairs_cons setField hpair.key.1 hpair.value.1 hpair.key.2
      hpair.value.2 before _ fields, List.foldlM_cons]
    apply congrArg (Except.bind (setField fields pair.1 pair.2))
    funext fields
    exact ih hpairs.1 hpairs.2 _ fields

theorem parsePairs_pairsText {pairs : List Pair} (hpairs : ∀ pair ∈ pairs, Separated pair)
    (fields : σ) : parsePairs setField (pairsText pairs) ((pairsText pairs).idxsOf '=')
        ((pairsText pairs).idxsOf '&') 0 fields =
      pairs.foldlM (fun fields pair => setField fields pair.1 pair.2) fields := by
  cases pairs with
  | nil => rfl
  | cons pair pairs =>
    have hpairs' := List.forall_mem_cons.mp hpairs
    exact parsePairs_from setField hpairs'.1 hpairs'.2 [] fields

end Pairs

/-- What is relied on: decoding undoes encoding, and separators and spaces are escaped. -/
structure UrlEncoding.Lawful (urlencoding : UrlEncoding) : Prop where
  decode_encode : ∀ key, urlencoding.decode (urlencoding.encode key) = .ok key
  plain : ∀ key, ∀ c ∈ urlencoding.encode key, Plain c

namespace AnnounceRequest

def eventPairs : AnnounceEvent → List Pair
  | .started => [("event".toList, "started".toList)]
  | .stopped => [("event".toList, "stopped".toList)]
  | .completed => [("event".toList, "completed".toList)]
  | .empty => []

def numwantPairs : Option UInt64 → List Pair
  | some numwant => [("numwant".toList, decimal numwant.toNat)]
  | none => []

def keyPairs (urlencoding : UrlEncoding) : Option (List Char) → List Pair
  | some key => [("key".toList, urlencoding.encode key)]
  | none => []

/-- The pairs of an announce request after its info hash. -/
def morePairs (urlencoding : UrlEncoding) (request : AnnounceRequest) : List Pair :=
  [("peer_id".toList, urlencode20Bytes request.peerId.bytes),
    ("port".toList, decimal request.port.toNat),
    ("uploaded".toList, decimal request.bytesUploaded.toNat),
    ("downloaded".toList, decimal request.bytesDownloaded.toNat),
    ("left".toList, decimal request.bytesLeft.toNat)] ++
  eventPairs request.event ++ numwantPairs request.numwant ++ keyPairs urlencoding request.key ++
  [("compact".toList, "1".toList)]

def pairs (urlencoding : UrlEncoding) (request : AnnounceRequest) : List Pair :=
  ("info_hash".toList, urlencode20Bytes request.infoHash.bytes) :: request.morePairs urlencoding

/-- The request target, when there is no suffix. -/
def target (urlencoding : UrlEncoding) (request : AnnounceRequest) : List Char :=
  "/announce?".toList ++ pairsText (request.pairs urlencoding)

/-- Pairs that do not come first, as text. -/
def furtherText (pairs : List Pair) : List Char := pairs.flatMap fun pair => '&' :: pairText pair

theorem writeEvent_eq (event : AnnounceEvent) :
    writeEvent event = utf8 (furtherText (eventPairs event)) := by
  cases event <;> rfl

theorem writeNumwant_eq (numwant : Option UInt64) :
    writeNumwant numwant = utf8 (furtherText (numwantPairs numwant)) := by
  cases numwant with
  | none => rfl
  | some numwant =>
    rw [writeNumwant, ← utf8_append]
    simp [furtherText, numwantPairs, pairText]

theorem writeKey_eq (urlencoding : UrlEncoding) (key : Option (List Char)) :
    writeKey urlencoding key = utf8 (furtherText (keyPairs urlencoding key)) := by
  cases key with
  | none => rfl
  | some key =>
    rw [writeKey, ← utf8_append]
    simp [furtherText, keyPairs, pairText]

theorem writeBytes_eq (urlencoding : UrlEncoding) (request : AnnounceRequest) :
    request.writeBytes urlencoding [] = utf8 ("GET ".toList ++ request.target urlencoding ++
      " HTTP/1.1\r\nHost: localhost\r\n\r\n".toList) := by
  unfold writeBytes
  rw [writeEvent_eq, writeNumwant_eq, writeKey_eq, List.append_nil]
  simp only [← utf8_append]
  apply congrArg utf8
  unfold target pairs morePairs
  simp [pairsText, pairText, furtherText]

section Fields
variable {urlencoding : UrlEncoding} {fields : AnnounceFields}
open AnnounceFields

theorem setField_infoHash (infoHash : InfoHash) :
    setField urlencoding fields "info_hash".toList (urlencode20Bytes infoHash.bytes) =
      .ok { fields with infoHash := some infoHash } := by
  simp [setField, urldecode20Bytes_urlencode20Bytes]

theorem setField_peerId (peerId : PeerId) :
    setField urlencoding fields "peer_id".toList (urlencode20Bytes peerId.bytes) =
      .ok { fields with peerId := some peerId } := by
  simp [setField, urldecode20Bytes_urlencode20Bytes]

theorem parsePort_decimal (port : UInt16) : parsePort (decimal port.toNat) = .ok port := by
  rw [parsePort, parseUnsigned_decimal port.toNat_lt]
  simp [withContext]

theorem parseUsize_decimal (message : String) (n : UInt64) :
    parseUsize message (decimal n.toNat) = .ok n := by
  rw [parseUsize, parseUnsigned_decimal n.toNat_lt]
  simp [withContext]

theorem parseNumwant_decimal (numwant : UInt64) :
    parseNumwant (decimal numwant.toNat) = .ok (some numwant) := by
  have hlt : numwant.toNat < UInt64.size := numwant.toNat_lt
  have hsize : UInt64.size < 170141183460469231731687303715884105728 := by decide
  rw [parseNumwant, parseSigned_decimal (by omega)]
  have hnumwant : numwantOf (Int.ofNat numwant.toNat) = some numwant := by
    rw [numwantOf, if_pos ⟨Int.natCast_nonneg _, Int.ofNat_lt.mpr hlt⟩]
    simp
  exact congrArg Except.ok hnumwant

theorem setField_port (port : UInt16) :
    setField urlencoding fields "port".toList (decimal port.toNat) =
      .ok { fields with port := some port } := by
  simp [setField, parsePort_decimal]

theorem setField_uploaded (n : UInt64) :
    setField urlencoding fields "uploaded".toList (decimal n.toNat) =
      .ok { fields with bytesUploaded := some n } := by
  simp [setField, parseUsize_decimal]

theorem setField_downloaded (n : UInt64) :
    setField urlencoding fields "downloaded".toList (decimal n.toNat) =
      .ok { fields with bytesDownloaded := some n } := by
  simp [setField, parseUsize_decimal]

theorem setField_left (n : UInt64) :
    setField urlencoding fields "left".toList (decimal n.toNat) =
      .ok { fields with bytesLeft := some n } := by
  simp [setField, parseUsize_decimal]

theorem setField_compact :
    setField urlencoding fields "compact".toList "1".toList = .ok fields := by
  simp [setField]
  rfl

theorem setField_event {text : List Char} {event : AnnounceEvent}
    (h : HttpProtocol.AnnounceEvent.fromStr text = .ok event) :
    setField urlencoding fields "event".toList text = .ok { fields with event := event } := by
  simp [setField, h, Except.mapError]

theorem setField_numwant (numwant : UInt64) :
    setField urlencoding fields "numwant".toList (decimal numwant.toNat) =
      .ok { fields with numwant := some numwant } := by
  simp [setField, parseNumwant_decimal]

theorem setField_key (h : urlencoding.Lawful) {key : List Char}
    (hkey : (utf8 (urlencoding.encode key)).length ≤ 100) :
    setField urlencoding fields "key".toList (urlencoding.encode key) =
      .ok { fields with key := some key } := by
  simp [setField, Nat.not_lt.mpr hkey, h.decode_encode]

theorem foldlM_eventPairs (event : AnnounceEvent) (h : fields.event = .empty) :
    (eventPairs event).foldlM (fun fields pair => setField urlencoding fields pair.1 pair.2) fields =
      .ok { fields with event := event } := by
  cases event with
  | empty =>
    cases fields
    cases h
    rfl
  | started => exact (bind_pure _).trans (setField_event rfl)
  | stopped => exact (bind_pure _).trans (setField_event rfl)
  | completed => exact (bind_pure _).trans (setField_event rfl)

theorem foldlM_numwantPairs (numwant : Option UInt64) (h : fields.numwant = none) :
    (numwantPairs numwant).foldlM (fun fields pair => setField urlencoding fields pair.1 pair.2)
      fields = .ok { fields with numwant := numwant } := by
  cases numwant with
  | none =>
    cases fields
    cases h
    rfl
  | some numwant => exact (bind_pure _).trans (setField_numwant numwant)

theorem foldlM_keyPairs (h : urlencoding.Lawful) {key : Option (List Char)}
    (hkey : ∀ k ∈ key, (utf8 (urlencoding.encode k)).length ≤ 100) (hnone : fields.key = none) :
    (keyPairs urlencoding key).foldlM (fun fields pair => setField urlencoding fields pair.1 pair.2)
      fields = .ok { fields with key := key } := by
  cases key with
  | none =>
    cases fields
    cases hnone
    rfl
  | some key => exact (bind_pure _).trans (setField_key h (hkey key rfl))

end Fields

variable {urlencoding : UrlEncoding}

theorem foldlM_pairs (h : urlencoding.Lawful) (request : AnnounceRequest)
    (hkey : ∀ key ∈ request.key, (utf8 (urlencoding.encode key)).length ≤ 100) :
    (request.pairs urlencoding).foldlM
        (fun fields pair => AnnounceFields.setField urlencoding fields pair.1 pair.2)
        AnnounceFields.default =
      .ok ⟨some request.infoHash, some request.peerId, some request.port, some request.bytesLeft,
        some request.bytesUploaded, some request.bytesDownloaded, request.event, request.numwant,
        request.key⟩ := by
  unfold pairs morePairs
  simp only [List.cons_append, List.nil_append, List.append_assoc, List.foldlM_cons,
    List.foldlM_append, List.foldlM_nil, setField_infoHash, setField_peerId, setField_port,
    setField_uploaded, setField_downloaded, setField_left, bind, Except.bind]
  rw [foldlM_eventPairs request.event rfl]
  simp only
  rw [foldlM_numwantPairs request.numwant rfl]
  simp only
  rw [foldlM_keyPairs h hkey rfl]
  simp only [setField_compact]
  rfl

theorem separated_pairs {request : AnnounceRequest}
    (hplain : ∀ key ∈ request.key, ∀ c ∈ urlencoding.encode key, Plain c) :
    ∀ pair ∈ request.pairs urlencoding, Separated pair := by
  have hevent : ∀ pair ∈ eventPairs request.event, Separated pair := by
    cases request.event <;> decide
  have hnumwant : ∀ pair ∈ numwantPairs request.numwant, Separated pair := by
    intro pair hpair
    cases hrequest : request.numwant with
    | none =>
      rw [hrequest] at hpair
      cases hpair
    | some numwant =>
      rw [hrequest] at hpair
      obtain rfl := List.mem_singleton.mp hpair
      exact separated_of (by decide) fun c hc => plain_of_mem_decimal hc
  have hkey : ∀ pair ∈ keyPairs urlencoding request.key, Separated pair := by
    intro pair hpair
    cases hrequest : request.key with
    | none =>
      rw [hrequest] at hpair
      cases hpair
    | some key =>
      rw [hrequest] at hpair
      obtain rfl := List.mem_singleton.mp hpair
      exact separated_of (by decide) (hplain key hrequest)
  have hdecimal : ∀ n : Nat, ∀ c ∈ decimal n, Plain c := fun n c hc => plain_of_mem_decimal hc
  have hbytes : ∀ bytes : Vector UInt8 20, ∀ c ∈ urlencode20Bytes bytes, Plain c :=
    fun bytes c hc => plain_of_mem_urlencode20Bytes hc
  intro pair hpair
  simp only [pairs, morePairs, List.mem_cons, List.mem_append, List.not_mem_nil, or_false] at hpair
  rcases hpair with rfl | ((((rfl | rfl | rfl | rfl | rfl) | hpair) | hpair) | hpair) | rfl
  · exact separated_of (by decide) (hbytes _)
  · exact separated_of (by decide) (hbytes _)
  · exact separated_of (by decide) (hdecimal _)
  · exact separated_of (by decide) (hdecimal _)
  · exact separated_of (by decide) (hdecimal _)
  · exact separated_of (by decide) (hdecimal _)
  · exact hevent pair hpair
  · exact hnumwant pair hpair
  · exact hkey pair hpair
  · decide

theorem parseQueryString_pairsText (h : urlencoding.Lawful) (request : AnnounceRequest)
    (hkey : ∀ key ∈ request.key, (utf8 (urlencoding.encode key)).length ≤ 100) :
    parseQueryString urlencoding (pairsText (request.pairs urlencoding)) = .ok request := by
  rw [parseQueryString, parsePairs_pairsText _ (separated_pairs fun key _ => h.plain key),
    foldlM_pairs h request hkey]
  rfl

end AnnounceRequest

namespace ScrapeRequest

def pairs (request : ScrapeRequest) : List Pair :=
  request.infoHashes.map fun infoHash => ("info_hash".toList, urlencode20Bytes infoHash.bytes)

theorem pairs_cons (infoHash : InfoHash) (infoHashes : List InfoHash) :
    pairs ⟨infoHash :: infoHashes⟩ =
      ("info_hash".toList, urlencode20Bytes infoHash.bytes) :: pairs ⟨infoHashes⟩ := rfl

def target (request : ScrapeRequest) : List Char := "/scrape?".toList ++ pairsText (pairs request)

theorem writeInfoHashes_false (infoHashes : List InfoHash) :
    writeInfoHashes false infoHashes =
      utf8 ((pairs ⟨infoHashes⟩).flatMap fun pair => '&' :: pairText pair) := by
  induction infoHashes with
  | nil => rfl
  | cons infoHash infoHashes ih =>
    rw [writeInfoHashes, ih, pairs_cons, List.flatMap_cons, utf8_append]
    simp [pairText, ← utf8_append]

theorem writeInfoHashes_true (infoHashes : List InfoHash) :
    writeInfoHashes true infoHashes = utf8 (pairsText (pairs ⟨infoHashes⟩)) := by
  cases infoHashes with
  | nil => rfl
  | cons infoHash infoHashes =>
    rw [writeInfoHashes, writeInfoHashes_false, pairs_cons, pairsText, utf8_append]
    simp [pairText, ← utf8_append]

theorem writeBytes_eq (request : ScrapeRequest) :
    writeBytes request [] = utf8 ("GET ".toList ++ target request ++
      " HTTP/1.1\r\nHost: localhost\r\n\r\n".toList) := by
  unfold writeBytes target
  rw [writeInfoHashes_true, List.append_nil]
  simp only [← utf8_append]
  apply congrArg utf8
  simp

theorem separated_pairs (request : ScrapeRequest) : ∀ pair ∈ pairs request, Separated pair := by
  intro pair hpair
  obtain ⟨infoHash, -, rfl⟩ := List.mem_map.mp hpair
  exact separated_of (by decide) fun c hc => plain_of_mem_urlencode20Bytes hc

theorem foldlM_pairs (infoHashes read : List InfoHash) :
    (pairs ⟨infoHashes⟩).foldlM (fun infoHashes pair => setField infoHashes pair.1 pair.2) read =
      .ok (read ++ infoHashes) := by
  induction infoHashes generalizing read with
  | nil =>
    rw [List.append_nil]
    rfl
  | cons infoHash infoHashes ih =>
    have hset : setField read "info_hash".toList (urlencode20Bytes infoHash.bytes) =
        .ok (read ++ [infoHash]) := by
      simp [setField, urldecode20Bytes_urlencode20Bytes]
    have h := ih (read ++ [infoHash])
    rw [List.append_assoc] at h
    rw [pairs_cons, List.foldlM_cons, hset]
    exact h

theorem parseQueryString_pairsText {request : ScrapeRequest} (h : request.infoHashes ≠ []) :
    parseQueryString (pairsText (pairs request)) = .ok request := by
  have hfold := foldlM_pairs request.infoHashes []
  have hempty : request.infoHashes.isEmpty = false := List.isEmpty_eq_false_iff.mpr h
  rw [parseQueryString, parsePairs_pairsText _ (separated_pairs request), hfold]
  change (if request.infoHashes.isEmpty then _ else _) = _
  rw [hempty]
  rfl

end ScrapeRequest

/-- What stands between the first two spaces. -/
def requestTarget (bytes : List UInt8) : List Char :=
  ((fromUtf8Lossy bytes).dropWhile (· ≠ ' ')).tail.takeWhile (· ≠ ' ')

theorem requestTarget_utf8 {target : List Char} (h : ' ' ∉ target) (rest : List Char) :
    requestTarget (utf8 ("GET ".toList ++ target ++ ' ' :: rest)) = target := by
  have htake : (target ++ ' ' :: rest).takeWhile (· ≠ ' ') = target := by
    rw [List.takeWhile_append_of_pos]
    · simp
    · intro c hc
      exact decide_eq_true fun heq => h (heq ▸ hc)
  rw [requestTarget, fromUtf8Lossy_utf8]
  simpa using htake

theorem not_mem_append_pairsText {location : List Char} (hlocation : ' ' ∉ location)
    {pairs : List Pair} (h : ∀ pair ∈ pairs, Separated pair) : ' ' ∉ location ++ pairsText pairs := by
  rw [List.mem_append, not_or]
  exact ⟨hlocation, not_mem_pairsText h⟩

/-- Requests that can be sent: the key is short enough, a scrape asks for something. -/
def Request.Writable (urlencoding : UrlEncoding) : Request → Prop
  | .announce request => ∀ key ∈ request.key, (utf8 (urlencoding.encode key)).length ≤ 100
  | .scrape request => request.infoHashes ≠ []

theorem parseHttpGetPath_announce {urlencoding : UrlEncoding} (h : urlencoding.Lawful)
    {request : AnnounceRequest} (hrequest : (Request.announce request).Writable urlencoding) :
    Request.parseHttpGetPath urlencoding (request.target urlencoding) = .ok (.announce request) := by
  have hparse := AnnounceRequest.parseQueryString_pairsText h request hrequest
  have hsplit := splitOnce_of_not_mem (show '?' ∉ "/announce".toList by decide)
    (pairsText (request.pairs urlencoding))
  have htarget : request.target urlencoding =
      "/announce".toList ++ '?' :: pairsText (request.pairs urlencoding) := rfl
  rw [Request.parseHttpGetPath, htarget, hsplit]
  simp only [if_true, hparse]
  rfl

theorem parseHttpGetPath_scrape (urlencoding : UrlEncoding) {request : ScrapeRequest}
    (hrequest : (Request.scrape request).Writable urlencoding) :
    Request.parseHttpGetPath urlencoding (ScrapeRequest.target request) = .ok (.scrape request) := by
  have hparse := ScrapeRequest.parseQueryString_pairsText hrequest
  have hsplit := splitOnce_of_not_mem (show '?' ∉ "/scrape".toList by decide)
    (pairsText (ScrapeRequest.pairs request))
  have htarget : ScrapeRequest.target request =
      "/scrape".toList ++ '?' :: pairsText (ScrapeRequest.pairs request) := rfl
  have hlocation : "/scrape".toList ≠ "/announce".toList := by decide
  rw [Request.parseHttpGetPath, htarget, hsplit]
  simp only [if_neg hlocation, if_true, hparse]
  rfl

theorem requestTarget_announce {urlencoding : UrlEncoding} {request : AnnounceRequest}
    (h : ∀ key ∈ request.key, ∀ c ∈ urlencoding.encode key, Plain c) :
    requestTarget (request.writeBytes urlencoding []) = request.target urlencoding := by
  rw [AnnounceRequest.writeBytes_eq]
  exact requestTarget_utf8
    (not_mem_append_pairsText (by decide) (AnnounceRequest.separated_pairs h)) _

theorem requestTarget_scrape (request : ScrapeRequest) :
    requestTarget (ScrapeRequest.writeBytes request []) = ScrapeRequest.target request := by
  rw [ScrapeRequest.writeBytes_eq]
  exact requestTarget_utf8
    (not_mem_append_pairsText (by decide) (ScrapeRequest.separated_pairs request)) _

/-- What `Request.write` writes is parsed as the same request. -/
theorem parseHttpGetPath_requestTarget {urlencoding : UrlEncoding} (h : urlencoding.Lawful)
    {request : Request} (hrequest : request.Writable urlencoding) :
    Request.parseHttpGetPath urlencoding (requestTarget (request.write urlencoding [])) =
      .ok request := by
  cases request with
  | announce request =>
    rw [Request.write, requestTarget_announce fun key _ => h.plain key]
    exact parseHttpGetPath_announce h hrequest
  | scrape request =>
    rw [Request.write, requestTarget_scrape]
    exact parseHttpGetPath_scrape urlencoding hrequest

/-- Everything but letters, digits and four signs is escaped. -/
def isUnreserved (byte : UInt8) : Bool :=
  isAsciiAlphanumeric byte || [45, 95, 46, 126].contains byte

def percentEncodeByte (byte : UInt8) : List UInt8 :=
  if isUnreserved byte then [byte]
  else [37, (Nat.digitChar (byte.toNat / 16)).toUpper.toUInt8,
    (Nat.digitChar (byte.toNat % 16)).toUpper.toUInt8]

/-- What is no escape is left as it is. -/
def percentDecode : List UInt8 → List UInt8
  | [] => []
  | [byte] => [byte]
  | [byte, second] => [byte, second]
  | byte :: first :: second :: rest =>
    match byte == 37, hexValue (Char.ofUInt8 first), hexValue (Char.ofUInt8 second) with
    | true, some high, some low => UInt8.ofNat (high * 16 + low) :: percentDecode rest
    | _, _, _ => byte :: percentDecode (first :: second :: rest)

def percentEncoding : UrlEncoding where
  encode key := ((utf8 key).flatMap percentEncodeByte).map Char.ofUInt8
  decode value := withContext "invalid utf-8 sequence" (fromUtf8 (percentDecode (utf8 value)))

theorem percentDecode_cons_of_ne {byte : UInt8} (h : byte ≠ 37) (rest : List UInt8) :
    percentDecode (byte :: rest) = byte :: percentDecode rest := by
  have hne : (byte == 37) = false := beq_false_of_ne h
  rcases rest with _ | ⟨first, _ | ⟨second, rest⟩⟩
  · rfl
  · rfl
  · rw [percentDecode]
    simp [hne]

theorem hexValue_upper {n : Nat} (h : n < 16) :
    hexValue (Char.ofUInt8 (Nat.digitChar n).toUpper.toUInt8) = some n := by
  have hall : ∀ n < 16, hexValue (Char.ofUInt8 (Nat.digitChar n).toUpper.toUInt8) = some n := by
    decide
  exact hall n h

theorem percentDecode_percentEncodeByte (byte : UInt8) (rest : List UInt8) :
    percentDecode (percentEncodeByte byte ++ rest) = byte :: percentDecode rest := by
  unfold percentEncodeByte
  split
  · rename_i hunreserved
    apply percentDecode_cons_of_ne
    rintro rfl
    revert hunreserved
    decide
  · have hlt : byte.toNat < 256 := byte.toNat_lt
    have hbyte : byte.toNat / 16 * 16 + byte.toNat % 16 = byte.toNat := by omega
    simp only [List.cons_append, List.nil_append]
    rw [percentDecode]
    simp only [hexValue_upper (show byte.toNat / 16 < 16 by omega),
      hexValue_upper (show byte.toNat % 16 < 16 by omega), beq_self_eq_true]
    rw [hbyte, UInt8.ofNat_toNat]

theorem percentDecode_flatMap (bytes : List UInt8) :
    percentDecode (bytes.flatMap percentEncodeByte) = bytes := by
  induction bytes with
  | nil => rfl
  | cons byte bytes ih => rw [List.flatMap_cons, percentDecode_percentEncodeByte, ih]

/-- Bytes that are characters by themselves, and no separators. -/
def PlainByte (byte : UInt8) : Prop := byte.toNat < 128 ∧ byte ≠ 61 ∧ byte ≠ 38 ∧ byte ≠ 32

instance (byte : UInt8) : Decidable (PlainByte byte) := inferInstanceAs (Decidable (_ ∧ _ ∧ _ ∧ _))

theorem plainByte_of_isUnreserved {byte : UInt8} (h : isUnreserved byte = true) : PlainByte byte := by
  refine ⟨?_, ?_, ?_, ?_⟩
  · simp only [isUnreserved, isAsciiAlphanumeric, isAsciiAlphabetic, isAsciiUppercase,
      isAsciiLowercase, isAsciiDigit, Bool.or_eq_true, Bool.and_eq_true, decide_eq_true_eq,
      UInt8.le_iff_toNat_le, List.contains_iff_mem, List.mem_cons, List.not_mem_nil, or_false,
      ← UInt8.toNat_inj, UInt8.toNat_ofNat] at h
    omega
  all_goals
    rintro rfl
    revert h
    decide

theorem plainByte_upper {n : Nat} (h : n < 16) : PlainByte (Nat.digitChar n).toUpper.toUInt8 := by
  have hall : ∀ n < 16, PlainByte (Nat.digitChar n).toUpper.toUInt8 := by decide
  exact hall n h

theorem plainByte_of_mem {byte b : UInt8} (h : b ∈ percentEncodeByte byte) : PlainByte b := by
  have hlt : byte.toNat < 256 := byte.toNat_lt
  unfold percentEncodeByte at h
  split at h
  · rename_i hunreserved
    obtain rfl := List.mem_singleton.mp h
    exact plainByte_of_isUnreserved hunreserved
  · simp only [List.mem_cons, List.not_mem_nil, or_false] at h
    rcases h with rfl | rfl | rfl
    · decide
    · exact plainByte_upper (by omega)
    · exact plainByte_upper (by omega)

theorem utf8_map_ofUInt8 {bytes : List UInt8} (h : ∀ byte ∈ bytes, PlainByte byte) :
    utf8 (bytes.map Char.ofUInt8) = bytes := by
  induction bytes with
  | nil => rfl
  | cons byte bytes ih =>
    rw [List.forall_mem_cons] at h
    have hbyte : String.utf8EncodeChar (Char.ofUInt8 byte) = [byte] := by
      have hle : (Char.ofUInt8 byte).val.toNat ≤ 0x7f := Nat.le_of_lt_succ h.1.1
      rw [String.utf8EncodeChar, if_pos hle]
      exact congrArg (fun b => [b]) (UInt8.ofNat_toNat)
    have h' := ih h.2
    rw [List.map_cons, utf8, List.flatMap_cons, hbyte]
    exact congrArg (List.cons byte) h'

theorem percentEncoding_lawful : percentEncoding.Lawful where
  decode_encode key := by
    have hplain : ∀ byte ∈ (utf8 key).flatMap percentEncodeByte, PlainByte byte := by
      intro byte hbyte
      obtain ⟨b, -, hmem⟩ := List.mem_flatMap.mp hbyte
      exact plainByte_of_mem hmem
    change withContext _ (fromUtf8 (percentDecode (utf8 _))) = .ok key
    rw [percentEncoding, utf8_map_ofUInt8 hplain, percentDecode_flatMap, fromUtf8_utf8,
      withContext]
  plain key := by
    intro c hc
    obtain ⟨byte, hbyte, rfl⟩ := List.mem_map.mp hc
    obtain ⟨b, -, hmem⟩ := List.mem_flatMap.mp hbyte
    obtain ⟨-, hequal, hampersand, hspace⟩ := plainByte_of_mem hmem
    have hinj : ∀ {d : UInt8}, Char.ofUInt8 byte = Char.ofUInt8 d → byte = d :=
      fun heq => UInt8.toNat_inj.mp (congrArg Char.toNat heq)
    exact ⟨fun heq => hequal (hinj heq), fun heq => hampersand (hinj heq),
      fun heq => hspace (hinj heq)⟩

/-- A request whose ids and key are full of separators. -/
def separatorRequest : AnnounceRequest where
  infoHash := ⟨.replicate 20 0x3d⟩
  peerId := ⟨.replicate 20 0x26⟩
  port := 6881
  bytesUploaded := 0
  bytesDownloaded := 10
  bytesLeft := 0xffffffffffffffff
  event := .stopped
  numwant := some 0xffffffffffffffff
  key := some "é&=%+ ".toList

theorem parseHttpGetPath_separatorRequest :
    (Request.announce separatorRequest).Writable percentEncoding ∧
      Request.parseHttpGetPath percentEncoding
        (requestTarget ((Request.announce separatorRequest).write percentEncoding [])) =
          .ok (.announce separatorRequest) := by
  have hwritable : (Request.announce separatorRequest).Writable percentEncoding := by
    intro key hkey
    cases hkey
    decide
  exact ⟨hwritable, parseHttpGetPath_requestTarget percentEncoding_lawful hwritable⟩

end Aquatic.HttpProtocol
