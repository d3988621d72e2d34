import Aquatic.Http.RequestTarget

/-!
# Requests and packet boundaries

What the calls of `read_request` return does not depend on how the transport cuts what
the client sends: each call acts as if everything that fits had been read at once.
-/

namespace Aquatic.Http
open HttpProtocol Text
set_option autoImplicit false

/-- What is relied on: whatever the parser says but that it needs more, it says about every
longer buffer, and a request is not longer than the buffer it is complete in. -/
structure Httparse.PrefixStable (httparse : Httparse) : Prop where
  bounded : ∀ {buffer consumed path headers},
    httparse buffer = .ok (.complete consumed path headers) → consumed ≤ buffer.length
  stable : ∀ {buffer} (more : List UInt8),
    httparse buffer ≠ .ok .moreNeeded → httparse (buffer ++ more) = httparse buffer

section Parse
variable {httparse : Httparse} {urlencoding : UrlEncoding} {config : ServerConfig}
  {trustForwardedIp : Bool} {trustedProxies : TrustedProxies} {buffer : List UInt8}

theorem moreDataNeeded_of_moreNeeded (h : httparse buffer = .ok .moreNeeded) :
    parseRequest httparse urlencoding config trustForwardedIp trustedProxies buffer =
      .error .moreDataNeeded := by
  unfold parseRequest
  rw [h]

theorem parseRequest_append (hhttparse : httparse.PrefixStable)
    (h : parseRequest httparse urlencoding config trustForwardedIp trustedProxies buffer ≠
      .error .moreDataNeeded) (more : List UInt8) :
    parseRequest httparse urlencoding config trustForwardedIp trustedProxies (buffer ++ more) =
      parseRequest httparse urlencoding config trustForwardedIp trustedProxies buffer := by
  have hcomplete : httparse buffer ≠ .ok .moreNeeded := fun hmore =>
    h (moreDataNeeded_of_moreNeeded hmore)
  unfold parseRequest
  rw [hhttparse.stable more hcomplete]

theorem consumed_le (hhttparse : httparse.PrefixStable) {parsed : ParsedRequest}
    (h : parseRequest httparse urlencoding config trustForwardedIp trustedProxies buffer =
      .ok parsed) : parsed.consumed ≤ buffer.length := by
  obtain ⟨path, headers, hcomplete, -⟩ := path_of_parseRequest h
  exact hhttparse.bounded hcomplete

end Parse

/-- The stream delivers everything in order. -/
theorem Stream.read_append (stream : Stream) (free : Nat) :
    (stream.read free).1.val ++ (stream.read free).2.unread = stream.unread :=
  List.take_append_drop _ _

theorem Stream.read_eq_nil {stream : Stream} {free : Nat} (hfree : 0 < free)
    (h : (stream.read free).1.val.length = 0) : stream.unread = [] := by
  have hlength : (stream.unread.take (min (max 1 (stream.sizes 0)) free)).length = 0 := h
  rw [List.length_take] at hlength
  apply List.eq_nil_of_length_eq_zero
  omega

namespace Connection

/-- What was read and not consumed, and what was not read. -/
def pending (connection : Connection) : List UInt8 :=
  connection.requestBuffer.bytes ++ connection.stream.unread

/-- Two connections on which the same requests arrive, cut in different ways. -/
structure SamePending (c d : Connection) : Prop where
  config : c.config = d.config
  peerPort : c.peerPort = d.peerPort
  trustedProxies : c.trustedProxies = d.trustedProxies
  trustForwardedIp : c.trustForwardedIp = d.trustForwardedIp
  pending : c.pending = d.pending

/-- Two calls that return the same and leave the same bytes. -/
def SameOutcome (x y : Option (Except ConnectionError ReadRequest × Connection)) : Prop :=
  ∃ value c d, x = some (value, c) ∧ y = some (value, d) ∧ SamePending c d

namespace SamePending
variable {c d e : Connection}

theorem refl (c : Connection) : SamePending c c := ⟨rfl, rfl, rfl, rfl, rfl⟩

theorem symm (h : SamePending c d) : SamePending d c :=
  ⟨h.config.symm, h.peerPort.symm, h.trustedProxies.symm, h.trustForwardedIp.symm,
    h.pending.symm⟩

theorem trans (hcd : SamePending c d) (hde : SamePending d e) : SamePending c e :=
  ⟨hcd.config.trans hde.config, hcd.peerPort.trans hde.peerPort,
    hcd.trustedProxies.trans hde.trustedProxies,
    hcd.trustForwardedIp.trans hde.trustForwardedIp, hcd.pending.trans hde.pending⟩

end SamePending

namespace SameOutcome
variable {x y z : Option (Except ConnectionError ReadRequest × Connection)}

theorem symm (h : SameOutcome x y) : SameOutcome y x := by
  obtain ⟨value, c, d, hx, hy, hsame⟩ := h
  exact ⟨value, d, c, hy, hx, hsame.symm⟩

theorem trans (hxy : SameOutcome x y) (hyz : SameOutcome y z) : SameOutcome x z := by
  obtain ⟨value, c, d, hx, hy, hsame⟩ := hxy
  obtain ⟨value', d', e, hy', hz, hsame'⟩ := hyz
  obtain ⟨rfl, rfl⟩ := Prod.mk.inj (Option.some.inj (hy.symm.trans hy'))
  exact ⟨value, c, e, hx, hz, hsame.trans hsame'⟩

end SameOutcome

/-- The bytes that are in the buffer are the first ones that are pending. -/
theorem take_buffer (connection : Connection) {n : Nat}
    (h : n ≤ connection.requestBuffer.bytes.length) :
    connection.requestBuffer.bytes.take n = connection.pending.take n := by
  rw [pending, List.take_append_of_le_length h]

theorem drop_buffer (connection : Connection) {n : Nat}
    (h : n ≤ connection.requestBuffer.bytes.length) :
    connection.requestBuffer.bytes.drop n ++ connection.stream.unread =
      connection.pending.drop n := by
  rw [pending, List.drop_append_of_le_length h]

section Calls
variable {c d : Connection}

/-- What is made of a request and the bytes it was parsed from. -/
def finished (connection : Connection) (parsed : ParsedRequest) (consumed : List UInt8) :
    Except ConnectionError ReadRequest :=
  let requestTarget := extractRequestTarget (fromUtf8Lossy consumed)
  match connection.trustForwardedIp, parsed.optPeerIp with
  | true, some peerIp =>
    .ok ⟨parsed.request, some (.new ⟨peerIp, connection.peerPort⟩), parsed.optUserAgent,
      requestTarget⟩
  | true, none =>
    .error (.other "logic error: peer ip must have been extracted at this point")
  | false, _ => .ok ⟨parsed.request, none, parsed.optUserAgent, requestTarget⟩

theorem finishRequest_eq {parsed : ParsedRequest}
    (hc : parsed.consumed ≤ c.requestBuffer.bytes.length) :
    c.finishRequest parsed = some (c.finished parsed (c.pending.take parsed.consumed),
      { c with requestBuffer := c.requestBuffer.drop parsed.consumed }) := by
  unfold finishRequest finished
  simp only [usizeSub_of_le hc, c.take_buffer hc]
  cases c.trustForwardedIp with
  | true =>
    cases parsed.optPeerIp with
    | some peerIp => rfl
    | none => rfl
  | false => rfl

/-- The bytes of a request that has been parsed are found in the same place. -/
theorem finishRequest_same (h : SamePending c d) {parsed : ParsedRequest}
    (hc : parsed.consumed ≤ c.requestBuffer.bytes.length)
    (hd : parsed.consumed ≤ d.requestBuffer.bytes.length) :
    SameOutcome (c.finishRequest parsed) (d.finishRequest parsed) := by
  have hvalue : c.finished parsed (c.pending.take parsed.consumed) =
      d.finished parsed (d.pending.take parsed.consumed) := by
    unfold finished
    rw [h.trustForwardedIp, h.peerPort, h.pending]
  have hd' := finishRequest_eq hd
  rw [← hvalue] at hd'
  refine ⟨_, _, _, finishRequest_eq hc, hd', h.config, h.peerPort, h.trustedProxies,
    h.trustForwardedIp, ?_⟩
  change c.requestBuffer.bytes.drop parsed.consumed ++ c.stream.unread =
    d.requestBuffer.bytes.drop parsed.consumed ++ d.stream.unread
  rw [c.drop_buffer hc, d.drop_buffer hd, h.pending]

theorem handleParsed_eq_none_iff {outcome : Except RequestParseError ParsedRequest} :
    c.handleParsed outcome = none ↔ outcome = .error .moreDataNeeded := by
  rcases outcome with (err | err | err) | parsed
  · simp [handleParsed]
  · simp [handleParsed]
  · simp [handleParsed]
  · simp [handleParsed]

theorem handleParsed_same (h : SamePending c d)
    {outcome : Except RequestParseError ParsedRequest}
    (hmore : outcome ≠ .error .moreDataNeeded)
    (hc : ∀ parsed, outcome = .ok parsed → parsed.consumed ≤ c.requestBuffer.bytes.length)
    (hd : ∀ parsed, outcome = .ok parsed → parsed.consumed ≤ d.requestBuffer.bytes.length) :
    ∃ x y, c.handleParsed outcome = some x ∧ d.handleParsed outcome = some y ∧
      SameOutcome x y := by
  rcases outcome with (err | err | err) | parsed
  · exact ⟨_, _, rfl, rfl, _, c, d, rfl, rfl, h⟩
  · exact absurd rfl hmore
  · exact ⟨_, _, rfl, rfl, _, c, d, rfl, rfl, h⟩
  · exact ⟨_, _, rfl, rfl, finishRequest_same h (hc parsed rfl) (hd parsed rfl)⟩

/-- The bytes that fit into the buffer have been read. -/
def readAhead (connection : Connection) : Connection :=
  { connection with
    requestBuffer := ⟨connection.pending.take requestBufferSize, List.length_take_le _ _⟩
    stream := { connection.stream with unread := connection.pending.drop requestBufferSize } }

variable (httparse : Httparse) (urlencoding : UrlEncoding)

/-- The parser at what is in the buffer; it is not asked about an empty one. -/
def parseBuffer (connection : Connection) :
    Option (Option (Except ConnectionError ReadRequest × Connection)) :=
  if connection.requestBuffer.bytes.length > 0 then
    connection.handleParsed (parseRequest httparse urlencoding connection.config
      connection.trustForwardedIp connection.trustedProxies connection.requestBuffer.bytes)
  else none

/-- A call that reads only once. -/
def readAtOnce (connection : Connection) :
    Option (Except ConnectionError ReadRequest × Connection) :=
  match connection.readAhead.parseBuffer httparse urlencoding with
  | some result => result
  | none =>
    if connection.readAhead.requestBuffer.bytes.length = requestBufferSize then
      some (.error .requestBufferFull, connection.readAhead)
    else some (.error .peerClosed, connection.readAhead)

theorem readAhead_same (connection : Connection) : SamePending connection connection.readAhead :=
  ⟨rfl, rfl, rfl, rfl, (List.take_append_drop requestBufferSize connection.pending).symm⟩

/-- More bytes may follow those that are in the buffer. -/
theorem readAhead_bytes (connection : Connection) : ∃ more,
    connection.readAhead.requestBuffer.bytes = connection.requestBuffer.bytes ++ more := by
  refine ⟨connection.stream.unread.take
    (requestBufferSize - connection.requestBuffer.bytes.length), ?_⟩
  change connection.pending.take requestBufferSize = _
  rw [pending, List.take_append, List.take_of_length_le connection.requestBuffer.bounded]

/-- Nothing more is read where the buffer is full or nothing is left. -/
theorem readAhead_bytes_eq {connection : Connection}
    (h : connection.requestBuffer.bytes.length = requestBufferSize ∨
      connection.stream.unread = []) :
    connection.readAhead.requestBuffer.bytes = connection.requestBuffer.bytes := by
  change connection.pending.take requestBufferSize = _
  rcases h with hfull | hnil
  · rw [pending, List.take_append, ← hfull, List.take_length, Nat.sub_self, List.take_zero,
      List.append_nil]
  · rw [pending, hnil, List.append_nil, List.take_of_length_le connection.requestBuffer.bounded]

theorem readAhead_bytes_same (h : SamePending c d) :
    c.readAhead.requestBuffer.bytes = d.readAhead.requestBuffer.bytes :=
  congrArg (List.take requestBufferSize) h.pending

variable {httparse urlencoding}

theorem parseBuffer_eq_none_iff : c.parseBuffer httparse urlencoding = none ↔
    (c.requestBuffer.bytes.length > 0 → parseRequest httparse urlencoding c.config
      c.trustForwardedIp c.trustedProxies c.requestBuffer.bytes = .error .moreDataNeeded) := by
  unfold parseBuffer
  split
  · rename_i hpos
    rw [handleParsed_eq_none_iff]
    simp [hpos]
  · rename_i hpos
    simp [hpos]

/-- Where the parser needs no more, it says the same about a longer buffer. -/
theorem parseBuffer_same (hhttparse : httparse.PrefixStable) (h : SamePending c d)
    (hmore : ∃ more, d.requestBuffer.bytes = c.requestBuffer.bytes ++ more)
    {x : Option (Except ConnectionError ReadRequest × Connection)}
    (hx : c.parseBuffer httparse urlencoding = some x) :
    ∃ y, d.parseBuffer httparse urlencoding = some y ∧ SameOutcome x y := by
  obtain ⟨more, hmore⟩ := hmore
  unfold parseBuffer at hx
  split at hx
  · rename_i hpos
    have hneeded : parseRequest httparse urlencoding c.config c.trustForwardedIp c.trustedProxies
        c.requestBuffer.bytes ≠ .error .moreDataNeeded := by
      intro hneeded
      rw [hneeded] at hx
      cases hx
    have hparse := parseRequest_append hhttparse hneeded more
    rw [← hmore] at hparse
    obtain ⟨x', y, hx', hy, hsame⟩ := handleParsed_same h hneeded
      (fun parsed hok => consumed_le hhttparse hok)
      (fun parsed hok => by
        rw [hmore, List.length_append]
        exact Nat.le_add_right_of_le (consumed_le hhttparse hok))
    obtain rfl := Option.some.inj (hx.symm.trans hx')
    refine ⟨y, ?_, hsame⟩
    have hpos' : d.requestBuffer.bytes.length > 0 := by
      rw [hmore, List.length_append]
      omega
    unfold parseBuffer
    rw [if_pos hpos', ← h.config, ← h.trustForwardedIp, ← h.trustedProxies, hparse]
    exact hy
  · cases hx

theorem readAtOnce_same (hhttparse : httparse.PrefixStable) (h : SamePending c d) :
    SameOutcome (c.readAtOnce httparse urlencoding) (d.readAtOnce httparse urlencoding) := by
  have hbytes := readAhead_bytes_same h
  have hahead := (c.readAhead_same.symm.trans h).trans d.readAhead_same
  unfold readAtOnce
  cases hc : c.readAhead.parseBuffer httparse urlencoding with
  | some x =>
    obtain ⟨y, hy, hsame⟩ := parseBuffer_same hhttparse hahead
      ⟨[], by rw [hbytes, List.append_nil]⟩ hc
    rw [hy]
    exact hsame
  | none =>
    cases hd : d.readAhead.parseBuffer httparse urlencoding with
    | some y =>
      obtain ⟨x, hx, -⟩ := parseBuffer_same hhttparse hahead.symm
        ⟨[], by rw [hbytes, List.append_nil]⟩ hd
      rw [hc] at hx
      cases hx
    | none =>
      simp only [hbytes]
      split
      · exact ⟨_, _, _, rfl, rfl, hahead⟩
      · exact ⟨_, _, _, rfl, rfl, hahead⟩

/-- The connection after one more read. -/
def afterRead (connection : Connection) : Connection :=
  { connection with
    requestBuffer := connection.requestBuffer.append
      (connection.stream.read connection.requestBuffer.free).1
    stream := (connection.stream.read connection.requestBuffer.free).2 }

theorem afterRead_same (connection : Connection) :
    SamePending connection connection.afterRead := by
  refine ⟨rfl, rfl, rfl, rfl, ?_⟩
  change connection.requestBuffer.bytes ++ connection.stream.unread =
    connection.requestBuffer.bytes ++ (connection.stream.read connection.requestBuffer.free).1.val ++
      (connection.stream.read connection.requestBuffer.free).2.unread
  rw [List.append_assoc, connection.stream.read_append]

theorem readLoop_succ (turns : Nat) (connection : Connection) :
    connection.readLoop httparse urlencoding (turns + 1) =
      match connection.parseBuffer httparse urlencoding with
      | some result => result
      | none =>
        if connection.requestBuffer.bytes.length = requestBufferSize then
          some (.error .requestBufferFull, connection)
        else if (connection.stream.read connection.requestBuffer.free).1.val.length = 0 then
          some (.error .peerClosed, connection)
        else connection.afterRead.readLoop httparse urlencoding turns :=
  rfl

/-- A call that ends without reading more has read everything that it could. -/
theorem readAtOnce_of_parseBuffer {connection : Connection}
    (hnone : connection.parseBuffer httparse urlencoding = none)
    (hbytes : connection.readAhead.requestBuffer.bytes = connection.requestBuffer.bytes) :
    connection.readAtOnce httparse urlencoding =
      if connection.requestBuffer.bytes.length = requestBufferSize then
        some (.error .requestBufferFull, connection.readAhead)
      else some (.error .peerClosed, connection.readAhead) := by
  have hahead : connection.readAhead.parseBuffer httparse urlencoding = none := by
    rw [parseBuffer_eq_none_iff] at hnone ⊢
    rw [hbytes]
    exact hnone
  unfold readAtOnce
  rw [hahead, hbytes]

theorem readLoop_same (hhttparse : httparse.PrefixStable) (turns : Nat) (connection : Connection)
    (hturns : connection.stream.unread.length < turns) :
    SameOutcome (connection.readLoop httparse urlencoding turns)
      (connection.readAtOnce httparse urlencoding) := by
  induction turns generalizing connection with
  | zero => omega
  | succ turns ih =>
    rw [readLoop_succ]
    cases hparse : connection.parseBuffer httparse urlencoding with
    | some x =>
      obtain ⟨y, hy, hsame⟩ := parseBuffer_same hhttparse connection.readAhead_same
        connection.readAhead_bytes hparse
      unfold readAtOnce
      rw [hy]
      exact hsame
    | none =>
      by_cases hfull : connection.requestBuffer.bytes.length = requestBufferSize
      · rw [readAtOnce_of_parseBuffer hparse (readAhead_bytes_eq (.inl hfull))]
        simp only [if_pos hfull]
        exact ⟨_, _, _, rfl, rfl, connection.readAhead_same⟩
      · have hfree : 0 < connection.requestBuffer.free := by
          have hbounded := connection.requestBuffer.bounded
          unfold RequestBuffer.free
          omega
        simp only [if_neg hfull]
        by_cases hread : (connection.stream.read connection.requestBuffer.free).1.val.length = 0
        · have hnil := Stream.read_eq_nil hfree hread
          rw [if_pos hread, readAtOnce_of_parseBuffer hparse (readAhead_bytes_eq (.inr hnil)),
            if_neg hfull]
          exact ⟨_, _, _, rfl, rfl, connection.readAhead_same⟩
        · -- what was read is missing from what is left to read
          rw [if_neg hread]
          have hless : connection.afterRead.stream.unread.length < turns := by
            have hlength := congrArg List.length
              (connection.stream.read_append connection.requestBuffer.free)
            rw [List.length_append] at hlength
            change (connection.stream.read connection.requestBuffer.free).2.unread.length < turns
            omega
          exact (ih connection.afterRead hless).trans
            (readAtOnce_same hhttparse connection.afterRead_same).symm

/-- A call that finds a request in the buffer does not read. -/
theorem readRequest_of_parsed {connection : Connection} {parsed : ParsedRequest}
    (hpos : connection.requestBuffer.bytes.length > 0)
    (hparsed : parseRequest httparse urlencoding connection.config connection.trustForwardedIp
      connection.trustedProxies connection.requestBuffer.bytes = .ok parsed) :
    connection.readRequest httparse urlencoding = connection.finishRequest parsed := by
  have hparse : connection.parseBuffer httparse urlencoding =
      some (connection.finishRequest parsed) := by
    unfold parseBuffer
    rw [if_pos hpos, hparsed]
    rfl
  rw [readRequest, readLoop_succ, hparse]

/-- A call always returns, and what it returns is decided by the bytes that are pending. -/
theorem readRequest_same (hhttparse : httparse.PrefixStable) (h : SamePending c d) :
    SameOutcome (c.readRequest httparse urlencoding) (d.readRequest httparse urlencoding) := by
  have hc : SameOutcome (c.readRequest httparse urlencoding)
      (c.readAtOnce httparse urlencoding) :=
    readLoop_same hhttparse _ c (Nat.lt_succ_self _)
  have hd : SameOutcome (d.readRequest httparse urlencoding)
      (d.readAtOnce httparse urlencoding) :=
    readLoop_same hhttparse _ d (Nat.lt_succ_self _)
  exact (hc.trans (readAtOnce_same hhttparse h)).trans hd.symm

end Calls

/-- A value that a call returned, and the bytes it consumed. -/
structure Returned where
  value : Except ConnectionError ReadRequest
  consumed : List UInt8

variable (httparse : Httparse) (urlencoding : UrlEncoding)

/-- The values of at most `n` calls, up to the first error. -/
def readRequests : Nat → Connection → Option (List Returned)
  | 0, _ => some []
  | n + 1, connection => do
    let (value, after) ← connection.readRequest httparse urlencoding
    let consumed := connection.pending.take (connection.pending.length - after.pending.length)
    match value with
    | .ok _ =>
      let returned ← readRequests n after
      return ⟨value, consumed⟩ :: returned
    | .error _ => return [⟨value, consumed⟩]

variable {httparse urlencoding}

theorem readRequests_same (hhttparse : httparse.PrefixStable) (n : Nat) {c d : Connection}
    (h : SamePending c d) : ∃ returned, c.readRequests httparse urlencoding n = some returned ∧
      d.readRequests httparse urlencoding n = some returned := by
  induction n generalizing c d with
  | zero => exact ⟨[], rfl, rfl⟩
  | succ n ih =>
    have hcall : SameOutcome (c.readRequest httparse urlencoding)
        (d.readRequest httparse urlencoding) := readRequest_same hhttparse h
    obtain ⟨value, c', d', hc, hd, hsame⟩ := hcall
    unfold readRequests
    simp only [hc, hd, h.pending, hsame.pending, Option.bind_eq_bind, Option.bind_some]
    cases value with
    | error err => exact ⟨_, rfl, rfl⟩
    | ok request =>
      obtain ⟨returned, hc', hd'⟩ := ih hsame
      simp only [hc', hd', Option.bind_some]
      exact ⟨_, rfl, rfl⟩

/-- The transport cuts the stream in another way. -/
def cut (connection : Connection) (sizes : Nat → Nat) : Connection :=
  { connection with stream := { connection.stream with sizes } }

theorem readRequests_cut (hhttparse : httparse.PrefixStable) (connection : Connection)
    (sizes sizes' : Nat → Nat) (n : Nat) : ∃ returned,
      (connection.cut sizes).readRequests httparse urlencoding n = some returned ∧
      (connection.cut sizes').readRequests httparse urlencoding n = some returned :=
  readRequests_same hhttparse n ⟨rfl, rfl, rfl, rfl, rfl⟩

end Connection

theorem prefixStable_lineParser (text path : List Char) : (lineParser text path).PrefixStable := by
  constructor
  · intro buffer consumed path' headers h
    obtain ⟨hbuffer, rfl, -⟩ := lineParser_complete h
    exact hbuffer.length_le
  · intro buffer more h
    unfold lineParser at h ⊢
    by_cases hcomplete : utf8 text <+: buffer
    · rw [if_pos hcomplete, if_pos (hcomplete.trans (List.prefix_append _ _))]
    · rw [if_neg hcomplete] at h ⊢
      by_cases hmore : buffer <+: utf8 text
      · rw [if_pos hmore] at h
        exact absurd rfl h
      · have hcomplete' : ¬ utf8 text <+: buffer ++ more := fun htext =>
          (List.prefix_or_prefix_of_prefix htext (List.prefix_append _ _)).elim hcomplete hmore
        have hmore' : ¬ buffer ++ more <+: utf8 text := fun htext =>
          hmore ((List.prefix_append _ _).trans htext)
        rw [if_neg hmore, if_neg hcomplete', if_neg hmore']

/-- Two requests are sent at once. -/
def pipelinedConnection : Connection :=
  { exampleConnection with
    stream := ⟨utf8 (commentText []) ++ utf8 (commentText []), fun _ => 1⟩ }

/-- Read byte by byte or all at once, they are the same. -/
theorem readRequests_bytewise : ∃ returned,
    (pipelinedConnection.cut fun _ => 1).readRequests (lineParser (commentText []) commentPath)
      percentEncoding 3 = some returned ∧
    (pipelinedConnection.cut fun _ => 2048).readRequests (lineParser (commentText []) commentPath)
      percentEncoding 3 = some returned :=
  Connection.readRequests_cut (prefixStable_lineParser _ _) pipelinedConnection _ _ 3

end Aquatic.Http
