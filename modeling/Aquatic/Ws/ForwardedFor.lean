import Aquatic.Http.RequestParsing

/-!
# The client address of a handshake

A proxy that has taken a request over from somewhere else may append to the header or add
another instance of it. The handshake sees the first instance only.
-/

namespace Aquatic.Ws
open Http (Header collectHeaderValues parseForwardedHeader)
open HttpProtocol (withContext)
set_option autoImplicit false

/-- The library's map of headers and the conversion of its values. -/
structure HeaderMap where
  get : List Header → List Char → Option (List UInt8)
  toStr : List UInt8 → Option (List Char)

def isVisibleAscii (byte : UInt8) : Bool := byte == 9 || (32 ≤ byte && byte < 127)

/-- What is relied on: of several instances the first one is found, and a value is a text if
all of its bytes are visible. -/
structure HeaderMap.Lawful (headerMap : HeaderMap) : Prop where
  get_eq : ∀ headers name, headerMap.get headers name =
    (headers.find? fun header => eqIgnoreAsciiCase header.name name).map Header.value
  toStr_eq : ∀ value, headerMap.toStr value =
    if value.all isVisibleAscii then fromUtf8 value else none

def optXff (headerMap : HeaderMap) (headers : List Header) : Option (List Char) := do
  let xff ← headerMap.get headers "x-forwarded-for".toList
  headerMap.toStr xff

def resolveHandshakePeerIp (config : TrustedProxiesConfig) (trustedProxies : TrustedProxies)
    (socketPeerIp : IpAddr) (optXff : Option (List Char)) : IpAddr :=
  let socketPeerIp := canonicalIp socketPeerIp
  if config.enabled then
    if trustedProxies.isTrusted socketPeerIp then
      match optXff with
      | some xff =>
        match lastForwardedForIp xff trustedProxies with
        | some clientIp => canonicalIp clientIp
        | none => socketPeerIp
      | none => socketPeerIp
    else socketPeerIp
  else socketPeerIp

/-- The address that the handshake callback checks. -/
def handshakePeerIp (config : TrustedProxiesConfig) (headerMap : HeaderMap)
    (trustedProxies : TrustedProxies) (socketPeerIp : IpAddr) (headers : List Header) : IpAddr :=
  resolveHandshakePeerIp config trustedProxies socketPeerIp (optXff headerMap headers)

/-- The values of all instances of the header. -/
def forwardedValues (headers : List Header) : List (List UInt8) :=
  (headers.filter fun header => eqIgnoreAsciiCase header.name "X-Forwarded-For".toList).map
    Header.value

/-- The valid addresses of all instances, in order. -/
def allAddresses (headers : List Header) : List IpAddr :=
  (forwardedValues headers).flatMap fun value => forwardedAddresses (fromUtf8Lossy value)

/-- The valid addresses that the handshake sees. -/
def seenAddresses (headerMap : HeaderMap) (headers : List Header) : List IpAddr :=
  match optXff headerMap headers with
  | some xff => forwardedAddresses xff
  | none => []

/-- Of the addresses that decide whose request it is, the handshake sees what there is. -/
structure SameClient (proxies : TrustedProxies) (socketPeerIp : IpAddr)
    (seen all : List IpAddr) : Prop where
  untrusted : ∀ ip, proxies.lastUntrusted all = some ip → proxies.lastUntrusted seen = some ip
  leftmost : seen = [] → ∀ ip, all.head? = some ip → ip = socketPeerIp

/-- Where a front of the addresses gives the same client, if not the proxy itself. -/
theorem sameClient_iff {proxies : TrustedProxies} {socketPeerIp : IpAddr} {seen all : List IpAddr}
    (hseen : seen <+: all) (htrusted : proxies.isTrusted socketPeerIp = true) :
    (∀ ip, proxies.clientAddress all = some ip →
      (proxies.clientAddress seen).getD socketPeerIp = ip) ↔
        SameClient proxies socketPeerIp seen all := by
  constructor
  · intro h
    have huntrusted : ∀ ip, proxies.lastUntrusted all = some ip →
        proxies.lastUntrusted seen = some ip := by
      intro ip hip
      have hsame := h ip (by rw [TrustedProxies.clientAddress, hip, Option.some_or])
      have hnot := (proxies.not_trusted_of_lastUntrusted hip).2
      cases hlast : proxies.lastUntrusted seen with
      | some other =>
        rw [TrustedProxies.clientAddress, hlast] at hsame
        exact congrArg some hsame
      | none =>
        -- a trusted address has been taken for the client
        have htrust := proxies.lastUntrusted_eq_none_iff.mp hlast
        rw [TrustedProxies.clientAddress, hlast, Option.none_or] at hsame
        cases seen with
        | nil =>
          obtain rfl : socketPeerIp = ip := hsame
          rw [htrusted] at hnot
          cases hnot
        | cons first seen =>
          obtain rfl : first = ip := hsame
          rw [htrust first List.mem_cons_self] at hnot
          cases hnot
    refine ⟨huntrusted, ?_⟩
    rintro rfl ip hhead
    have hnone : proxies.lastUntrusted all = none := by
      cases hlast : proxies.lastUntrusted all with
      | none => rfl
      | some other => cases huntrusted other hlast
    exact (h ip (by rw [TrustedProxies.clientAddress, hnone, Option.none_or, hhead])).symm
  · intro h ip hip
    cases hlast : proxies.lastUntrusted all with
    | some other =>
      rw [TrustedProxies.clientAddress, hlast] at hip
      rw [TrustedProxies.clientAddress, h.untrusted other hlast]
      exact Option.some.inj hip
    | none =>
      obtain ⟨unseen, rfl⟩ := hseen
      rw [TrustedProxies.clientAddress, hlast, Option.none_or] at hip
      rw [TrustedProxies.lastUntrusted_append, Option.or_eq_none_iff] at hlast
      rw [TrustedProxies.clientAddress, hlast.2, Option.none_or]
      cases seen with
      | nil => exact (h.leftmost rfl ip hip).symm
      | cons first seen => exact Option.some.inj hip

section Headers
variable {headers : List Header}

theorem collectHeaderValues_eq
    (hascii : ∀ value ∈ forwardedValues headers, ∀ byte ∈ value, byte.toNat < 0x80)
    (values : List Char) : ∃ joined,
    collectHeaderValues "X-Forwarded-For".toList values headers = .ok joined ∧
      forwardedAddresses joined = forwardedAddresses values ++ allAddresses headers := by
  induction headers generalizing values with
  | nil => exact ⟨values, rfl, (List.append_nil _).symm⟩
  | cons header headers ih =>
    cases hname : eqIgnoreAsciiCase header.name "X-Forwarded-For".toList with
    | false =>
      have hvalues : forwardedValues (header :: headers) = forwardedValues headers := by
        rw [forwardedValues, List.filter_cons, if_neg (by rw [hname]; decide), forwardedValues]
      rw [hvalues] at hascii
      obtain ⟨joined, hjoined, haddresses⟩ := ih hascii values
      refine ⟨joined, ?_, ?_⟩
      · rw [collectHeaderValues, hname]
        exact hjoined
      · rw [haddresses, allAddresses, allAddresses, hvalues]
    | true =>
      have hvalues : forwardedValues (header :: headers) =
          header.value :: forwardedValues headers := by
        rw [forwardedValues, List.filter_cons, if_pos hname, List.map_cons, forwardedValues]
      rw [hvalues] at hascii
      have htext := fromUtf8_of_ascii (hascii header.value List.mem_cons_self)
      obtain ⟨joined, hjoined, haddresses⟩ :=
        ih (fun value hvalue => hascii value (List.mem_cons_of_mem _ hvalue))
          ((if values.isEmpty then values else values ++ ", ".toList) ++
            fromUtf8Lossy header.value)
      refine ⟨joined, ?_, ?_⟩
      · rw [collectHeaderValues, hname, htext]
        exact hjoined
      · rw [haddresses, allAddresses, allAddresses, hvalues, List.flatMap_cons,
          ← List.append_assoc]
        congr 1
        cases values with
        | nil => rw [forwardedAddresses_nil]; rfl
        | cons c values => exact forwardedAddresses_append (c :: values) _

/-- Over all instances the client is found among all addresses. -/
theorem parseForwardedHeader_eq_ok_iff {proxies : TrustedProxies} {ip : IpAddr}
    (hascii : ∀ value ∈ forwardedValues headers, ∀ byte ∈ value, byte.toNat < 0x80) :
    parseForwardedHeader "X-Forwarded-For".toList .lastAddress proxies headers = .ok ip ↔
      proxies.clientAddress (allAddresses headers) = some ip := by
  obtain ⟨joined, hjoined, haddresses⟩ := collectHeaderValues_eq hascii []
  rw [forwardedAddresses_nil, List.nil_append] at haddresses
  unfold parseForwardedHeader
  rw [hjoined, ← haddresses]
  cases joined with
  | nil =>
    constructor
    · intro h
      cases h
    · intro h
      rw [forwardedAddresses_nil] at h
      cases h
  | cons c joined =>
    change withContext _ (lastForwardedForIp (c :: joined) proxies) = .ok ip ↔ _
    rw [TrustedProxies.lastForwardedForIp_eq]
    cases proxies.clientAddress (forwardedAddresses (c :: joined)) with
    | none => simp [withContext]
    | some addr => simp [withContext]

theorem seenAddresses_isPrefix {headerMap : HeaderMap} (hheaders : headerMap.Lawful) :
    seenAddresses headerMap headers <+: allAddresses headers := by
  unfold seenAddresses
  cases hxff : optXff headerMap headers with
  | none => exact List.nil_prefix
  | some xff =>
    unfold optXff at hxff
    obtain ⟨value, hget, hstr⟩ := Option.bind_eq_some_iff.mp hxff
    rw [hheaders.get_eq] at hget
    obtain ⟨header, hfind, rfl⟩ := Option.map_eq_some_iff.mp hget
    rw [hheaders.toStr_eq] at hstr
    have htext : fromUtf8Lossy header.value = xff := by
      split at hstr
      · rw [← utf8_of_fromUtf8 hstr, fromUtf8Lossy_utf8]
      · cases hstr
    have hlower : "x-forwarded-for".toList.map Char.toLower =
        "X-Forwarded-For".toList.map Char.toLower := by decide
    have hnames : (fun header : Header => eqIgnoreAsciiCase header.name "x-forwarded-for".toList) =
        fun header => eqIgnoreAsciiCase header.name "X-Forwarded-For".toList := by
      funext header
      rw [eqIgnoreAsciiCase, eqIgnoreAsciiCase, hlower]
    rw [hnames, ← List.head?_filter] at hfind
    obtain ⟨others, hothers⟩ := List.head?_eq_some_iff.mp hfind
    rw [allAddresses, forwardedValues, hothers, List.map_cons, List.flatMap_cons, htext]
    exact List.prefix_append _ _

/-- A trusted proxy's handshake is from the client among the addresses that are seen. -/
theorem handshakePeerIp_eq {config : TrustedProxiesConfig} {headerMap : HeaderMap}
    {proxies : TrustedProxies} {socketPeerIp : IpAddr} (henabled : config.enabled = true)
    (htrusted : proxies.isTrusted (canonicalIp socketPeerIp) = true) :
    handshakePeerIp config headerMap proxies socketPeerIp headers =
      (proxies.clientAddress (seenAddresses headerMap headers)).getD (canonicalIp socketPeerIp) := by
  unfold handshakePeerIp resolveHandshakePeerIp seenAddresses
  simp only [henabled, htrusted, if_true]
  cases optXff headerMap headers with
  | none => rfl
  | some xff =>
    simp only [TrustedProxies.lastForwardedForIp_eq]
    cases hclient : proxies.clientAddress (forwardedAddresses xff) with
    | none => rfl
    | some clientIp =>
      exact canonicalIp_of_mem_forwardedAddresses (proxies.mem_of_clientAddress hclient)

/-- The two servers attribute a request from a trusted proxy to one client exactly where the
handshake sees the address that decides. -/
theorem sameAddress_iff {config : TrustedProxiesConfig} {headerMap : HeaderMap}
    {proxies : TrustedProxies} {socketPeerIp : IpAddr} (hheaders : headerMap.Lawful)
    (hascii : ∀ value ∈ forwardedValues headers, ∀ byte ∈ value, byte.toNat < 0x80)
    (henabled : config.enabled = true)
    (htrusted : proxies.isTrusted (canonicalIp socketPeerIp) = true) :
    (∀ ip, parseForwardedHeader "X-Forwarded-For".toList .lastAddress proxies headers = .ok ip →
      handshakePeerIp config headerMap proxies socketPeerIp headers = ip) ↔
        SameClient proxies (canonicalIp socketPeerIp) (seenAddresses headerMap headers)
          (allAddresses headers) := by
  rw [← sameClient_iff (seenAddresses_isPrefix hheaders) htrusted,
    handshakePeerIp_eq henabled htrusted]
  simp only [parseForwardedHeader_eq_ok_iff hascii]

end Headers

def exampleHeaderMap : HeaderMap where
  get := fun headers name =>
    (headers.find? fun header => eqIgnoreAsciiCase header.name name).map Header.value
  toStr := fun value => if value.all isVisibleAscii then fromUtf8 value else none

theorem lawful_exampleHeaderMap : exampleHeaderMap.Lawful := ⟨fun _ _ => rfl, fun _ => rfl⟩

def exampleProxy : IpAddr := .v4 ⟨#v[10, 0, 0, 1]⟩

/-- One proxy is trusted. -/
def exampleProxies : TrustedProxies where
  table := {
    isEmpty := false
    longestMatch := fun addr =>
      if addr = exampleProxy then some ⟨exampleProxy, 32, by decide⟩ else none }

/-- What the client claims, and what the proxy appends to it. -/
def appendedHeaders : List Header :=
  [⟨"X-Forwarded-For".toList, utf8 "198.51.100.7, 203.0.113.9".toList⟩]

/-- What the client claims, and what the proxy adds behind it. -/
def addedHeaders : List Header :=
  [⟨"X-Forwarded-For".toList, utf8 "198.51.100.7".toList⟩,
    ⟨"X-Forwarded-For".toList, utf8 "203.0.113.9".toList⟩]

theorem ascii_of_all {values : List (List UInt8)}
    (h : (values.all fun value => value.all fun byte => byte.toNat < 0x80) = true) :
    ∀ value ∈ values, ∀ byte ∈ value, byte.toNat < 0x80 := by
  intro value hvalue byte hbyte
  have hbytes := List.all_eq_true.mp (List.all_eq_true.mp h value hvalue)
  exact of_decide_eq_true (hbytes byte hbyte)

theorem sameAddress_appendedHeaders :
    exampleProxies.isTrusted (canonicalIp exampleProxy) = true ∧
    ∀ ip, parseForwardedHeader "X-Forwarded-For".toList .lastAddress exampleProxies
        appendedHeaders = .ok ip →
      handshakePeerIp ⟨true⟩ exampleHeaderMap exampleProxies exampleProxy appendedHeaders = ip := by
  have htrusted : exampleProxies.isTrusted (canonicalIp exampleProxy) = true := by decide
  refine ⟨htrusted, (sameAddress_iff lawful_exampleHeaderMap (ascii_of_all (by decide)) rfl
    htrusted).mpr ?_⟩
  have hall : allAddresses appendedHeaders =
      [.v4 ⟨#v[198, 51, 100, 7]⟩, .v4 ⟨#v[203, 0, 113, 9]⟩] := by decide
  have hseen : seenAddresses exampleHeaderMap appendedHeaders =
      [.v4 ⟨#v[198, 51, 100, 7]⟩, .v4 ⟨#v[203, 0, 113, 9]⟩] := by decide
  rw [hall, hseen]
  exact ⟨fun ip h => h, fun h => absurd h (by decide)⟩

/-- The handshake takes what the client claims for its address. -/
theorem claimed_addedHeaders :
    exampleProxies.isTrusted (canonicalIp exampleProxy) = true ∧
    parseForwardedHeader "X-Forwarded-For".toList .lastAddress exampleProxies addedHeaders =
      .ok (.v4 ⟨#v[203, 0, 113, 9]⟩) ∧
    handshakePeerIp ⟨true⟩ exampleHeaderMap exampleProxies exampleProxy addedHeaders =
      .v4 ⟨#v[198, 51, 100, 7]⟩ ∧
    ¬ ∀ ip, parseForwardedHeader "X-Forwarded-For".toList .lastAddress exampleProxies
        addedHeaders = .ok ip →
      handshakePeerIp ⟨true⟩ exampleHeaderMap exampleProxies exampleProxy addedHeaders = ip := by
  have hall : allAddresses addedHeaders =
      [.v4 ⟨#v[198, 51, 100, 7]⟩, .v4 ⟨#v[203, 0, 113, 9]⟩] := by decide
  have hparse : parseForwardedHeader "X-Forwarded-For".toList .lastAddress exampleProxies
      addedHeaders = .ok (.v4 ⟨#v[203, 0, 113, 9]⟩) := by
    rw [parseForwardedHeader_eq_ok_iff (ascii_of_all (by decide)), hall]
    decide
  have hhandshake : handshakePeerIp ⟨true⟩ exampleHeaderMap exampleProxies exampleProxy
      addedHeaders = .v4 ⟨#v[198, 51, 100, 7]⟩ := by decide
  refine ⟨by decide, hparse, hhandshake, ?_⟩
  intro h
  have hsame := hhandshake.symm.trans (h _ hparse)
  revert hsame
  decide

end Aquatic.Ws
