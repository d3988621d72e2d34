import Aquatic.Http.Connection
import Aquatic.HttpProtocol.RequestRoundTrip

/-!
# The target that is checked and the path that is served

The filters look at a target that is taken from the bytes of the request once more. The
parser of the request skips empty lines first; the second reading does not know them.
-/

namespace Aquatic.Http
open HttpProtocol Text
set_option autoImplicit false

def isNewline (c : Char) : Bool := c == '\r' || c == '\n'

/-- Empty lines, then a method and a path with a space after each of them. -/
structure RequestLine (text path : List Char) where
  emptyLines : List (List Char)
  method : List Char
  rest : List Char
  eq : text = emptyLines.flatten ++ (method ++ ' ' :: (path ++ ' ' :: rest))
  empty : ∀ line ∈ emptyLines, line = ['\r', '\n'] ∨ line = ['\n']
  method_ne_nil : method ≠ []
  method_visible : ∀ c ∈ method, '!' ≤ c ∧ c ≤ '~'
  path_ne_nil : path ≠ []
  path_visible : ∀ c ∈ path, '!' ≤ c ∧ c ≠ '\x7f'

/-- What is relied on: a complete request is not longer than the buffer and begins, after
empty lines, with a method and a path. -/
structure Httparse.FindsLines (httparse : Httparse) : Prop where
  bounded : ∀ {buffer consumed path headers},
    httparse buffer = .ok (.complete consumed path headers) → consumed ≤ buffer.length
  line : ∀ {buffer consumed path headers},
    httparse buffer = .ok (.complete consumed (some path) headers) →
      ∃ text rest, buffer.take consumed = utf8 text ++ rest ∧ Nonempty (RequestLine text path)

/-- The path of a complete request. -/
def servedPath (httparse : Httparse) (buffer : List UInt8) : Option (List Char) :=
  match httparse buffer with
  | .ok (.complete _ path _) => path
  | _ => none

/-- The text from which the target is extracted. -/
def rawRequest (buffer : List UInt8) (parsed : ParsedRequest) : List Char :=
  fromUtf8Lossy (buffer.take parsed.consumed)

theorem isNewline_of_visible {c : Char} (h : '!' ≤ c) : isNewline c = false := by
  rw [isNewline, Bool.or_eq_false_iff, beq_eq_false_iff_ne, beq_eq_false_iff_ne]
  constructor
  · rintro rfl
    exact absurd h (by decide)
  · rintro rfl
    exact absurd h (by decide)

theorem not_white_of_visible {c : Char} (h : '!' ≤ c) (h' : c ≤ '~') : isWhitespace c = false := by
  have hlow : 33 ≤ c.toNat := h
  have hhigh : c.toNat ≤ 126 := h'
  unfold isWhitespace
  simp only [Bool.or_eq_false_iff, Bool.and_eq_false_iff, decide_eq_false_iff_not,
    List.contains_eq_mem, List.mem_cons, List.not_mem_nil, or_false]
  omega

theorem white_of_isNewline {c : Char} (h : isNewline c = true) : isWhitespace c = true := by
  rw [isNewline, Bool.or_eq_true, beq_iff_eq, beq_iff_eq] at h
  rcases h with rfl | rfl
  · decide
  · decide

theorem splitWhitespace_append {white : List Char} (h : ∀ c ∈ white, isWhitespace c = true)
    (text : List Char) :
    splitWhitespace isWhitespace (white ++ text) = splitWhitespace isWhitespace text := by
  induction white with
  | nil => rfl
  | cons c white ih =>
    rw [List.cons_append, splitWhitespace_cons (h c List.mem_cons_self)]
    exact ih fun d hd => h d (List.mem_cons_of_mem _ hd)

/-- Empty lines end in bare line feeds, or a first one of them does not. -/
theorem emptyLines_cases {emptyLines : List (List Char)}
    (h : ∀ line ∈ emptyLines, line = ['\r', '\n'] ∨ line = ['\n']) :
    '\r' ∉ emptyLines.flatten ∨ ∃ newlines more, '\r' ∉ newlines ∧
      emptyLines.flatten = newlines ++ '\r' :: '\n' :: more := by
  induction emptyLines with
  | nil => exact .inl List.not_mem_nil
  | cons line emptyLines ih =>
    rcases h line List.mem_cons_self with rfl | rfl
    · exact .inr ⟨[], emptyLines.flatten, List.not_mem_nil, rfl⟩
    · have hrest := ih fun line hline => h line (List.mem_cons_of_mem _ hline)
      rcases hrest with hcr | ⟨newlines, more, hcr, heq⟩
      · left
        simp [hcr]
      · right
        refine ⟨'\n' :: newlines, more, by simp [hcr], ?_⟩
        rw [List.flatten_cons, heq]
        rfl

section Lines
variable {front : List Char} (rest : List Char)

/-- Nothing in which no line ends is cut. -/
theorem requestLine_append (h : ∀ c ∈ front, isNewline c = false) :
    ∃ more, requestLine (front ++ rest) = front ++ more := by
  have hcr : '\r' ∉ front := fun hmem => absurd (h _ hmem) (by decide)
  have hlf : '\n' ∉ front := fun hmem => absurd (h _ hmem) (by decide)
  unfold requestLine
  rw [show "\r\n".toList = ['\r', '\n'] from rfl, splitOnce_append_cons hcr,
    splitOnce_append_cons hlf]
  cases splitOnce ['\r', '\n'] rest with
  | some parts => exact ⟨parts.1, rfl⟩
  | none =>
    cases splitOnce ['\n'] rest with
    | some parts => exact ⟨parts.1, rfl⟩
    | none => exact ⟨rest, rfl⟩

/-- Bare line feeds are not the end of the line if there is another one. -/
theorem requestLine_of_infix (hcr : '\r' ∉ front) (h : "\r\n".toList <:+: front ++ rest) :
    ∃ more, requestLine (front ++ rest) = front ++ more := by
  have hsome := (splitOnce_isSome_iff (by decide)).mpr h
  unfold requestLine
  rw [show "\r\n".toList = ['\r', '\n'] from rfl, splitOnce_append_cons hcr] at hsome ⊢
  cases hrest : splitOnce ['\r', '\n'] rest with
  | some parts => exact ⟨parts.1, rfl⟩
  | none =>
    rw [hrest] at hsome
    cases hsome

theorem requestLine_of_lf (h : ¬ "\r\n".toList <:+: '\n' :: rest) :
    requestLine ('\n' :: rest) = [] := by
  have hnone : splitOnce "\r\n".toList ('\n' :: rest) = none := by
    rw [← Option.not_isSome_iff_eq_none, splitOnce_isSome_iff (by decide)]
    exact h
  unfold requestLine
  rw [hnone, splitOnce]
  rfl

theorem requestLine_of_crlf (hcr : '\r' ∉ front) :
    requestLine (front ++ '\r' :: '\n' :: rest) = front := by
  unfold requestLine
  rw [show "\r\n".toList = ['\r', '\n'] from rfl, splitOnce_append_cons hcr, splitOnce]
  simp [List.isPrefixOf]

end Lines

namespace RequestLine
variable {text path : List Char}

/-- More may come after it. -/
def append (line : RequestLine text path) (more : List Char) : RequestLine (text ++ more) path :=
  { line with
    rest := line.rest ++ more
    eq := by
      conv_lhs => rw [line.eq]
      simp }

variable (line : RequestLine text path)
include line

theorem empty_newline : ∀ c ∈ line.emptyLines.flatten, isNewline c = true := by
  intro c hc
  obtain ⟨emptyLine, hline, hc⟩ := List.mem_flatten.mp hc
  rcases line.empty emptyLine hline with rfl | rfl
  · rcases List.mem_cons.mp hc with rfl | hc
    · decide
    · obtain rfl := List.mem_singleton.mp hc
      decide
  · obtain rfl := List.mem_singleton.mp hc
    decide

theorem method_newline : ∀ c ∈ line.method, isNewline c = false :=
  fun c hc => isNewline_of_visible (line.method_visible c hc).1

theorem path_newline : ∀ c ∈ path, isNewline c = false :=
  fun c hc => isNewline_of_visible (line.path_visible c hc).1

/-- The empty lines are what newlines the text begins with. -/
theorem takeWhile_eq : text.takeWhile isNewline = line.emptyLines.flatten := by
  obtain ⟨first, more, hmethod⟩ := List.exists_cons_of_ne_nil line.method_ne_nil
  have hfirst : isNewline first = false :=
    line.method_newline first (by rw [hmethod]; exact List.mem_cons_self)
  conv_lhs => rw [line.eq]
  rw [List.takeWhile_append_of_pos line.empty_newline, hmethod, List.cons_append,
    List.takeWhile_cons_of_neg (by rw [hfirst]; decide), List.append_nil]

/-- Method and path are the first two words of the request line, if the path is a word. -/
theorem target_eq_path_iff {white more : List Char}
    (hwhite : ∀ c ∈ white, isWhitespace c = true)
    (hline : requestLine text = white ++ (line.method ++ ' ' :: (path ++ ' ' :: more))) :
    extractRequestTarget text = path ↔ ∀ c ∈ path, isWhitespace c = false := by
  have hwords : splitWhitespace isWhitespace (requestLine text) =
      line.method :: splitWhitespace isWhitespace (path ++ ' ' :: more) := by
    rw [hline, splitWhitespace_append hwhite]
    exact splitWhitespace_append_cons line.method_ne_nil
      (fun c hc => not_white_of_visible (line.method_visible c hc).1 (line.method_visible c hc).2)
      (by decide) _
  constructor
  · intro htarget
    unfold extractRequestTarget at htarget
    rw [hwords] at htarget
    cases hrest : splitWhitespace isWhitespace (path ++ ' ' :: more) with
    | nil =>
      rw [hrest] at htarget
      have hspace : ' ' ∈ path := by
        have hmem : ' ' ∈ requestLine text := by
          rw [hline]
          simp
        exact htarget ▸ hmem
      exact absurd (line.path_visible ' ' hspace).1 (by decide)
    | cons target targets =>
      rw [hrest] at htarget
      have hmem : path ∈ splitWhitespace isWhitespace (path ++ ' ' :: more) := by
        rw [hrest]
        change target = path at htarget
        rw [htarget]
        exact List.mem_cons_self
      exact white_of_mem_splitWhitespace hmem
  · intro hblack
    unfold extractRequestTarget
    rw [hwords, splitWhitespace_append_cons line.path_ne_nil hblack (by decide)]

/-- Where no line is left before the request line, there is no target. -/
theorem target_ne_path {newlines : List Char} (hnewlines : ∀ c ∈ newlines, isNewline c = true)
    (hline : requestLine text = newlines) : extractRequestTarget text ≠ path := by
  have hwords : splitWhitespace isWhitespace (requestLine text) = [] := by
    have hwhite := splitWhitespace_append
      (fun c hc => white_of_isNewline (hnewlines c hc)) ([] : List Char)
    rw [List.append_nil] at hwhite
    rw [hline, hwhite]
    rfl
  intro htarget
  unfold extractRequestTarget at htarget
  rw [hwords, hline] at htarget
  obtain ⟨first, more, hpath⟩ := List.exists_cons_of_ne_nil line.path_ne_nil
  have hfirst : first ∈ path := by
    rw [hpath]
    exact List.mem_cons_self
  change newlines = path at htarget
  have hnew := hnewlines first (by rw [htarget]; exact hfirst)
  rw [line.path_newline first hfirst] at hnew
  cases hnew

end RequestLine

/-- No empty line is before the request line, or only such that end in a bare line feed
while some line of the request does not. -/
def LineFound (text : List Char) : Prop :=
  text.takeWhile isNewline = [] ∨
    '\r' ∉ text.takeWhile isNewline ∧ "\r\n".toList <:+: text

instance (text : List Char) : Decidable (LineFound text) := inferInstanceAs (Decidable (_ ∨ _ ∧ _))

namespace RequestLine
variable {text path : List Char} (line : RequestLine text path)
include line

theorem requestLine_of_found (h : LineFound text) : ∃ more, requestLine text =
    line.emptyLines.flatten ++ (line.method ++ ' ' :: (path ++ ' ' :: more)) := by
  rw [LineFound, line.takeWhile_eq] at h
  have hfront : ∀ c ∈ line.method ++ ' ' :: (path ++ [' ']), isNewline c = false := by
    intro c hc
    rw [List.mem_append, List.mem_cons, List.mem_append, List.mem_singleton] at hc
    rcases hc with hc | rfl | hc | rfl
    · exact line.method_newline c hc
    · decide
    · exact line.path_newline c hc
    · decide
  have htext : text = line.emptyLines.flatten ++ (line.method ++ ' ' :: (path ++ [' '])) ++
      line.rest := by
    conv_lhs => rw [line.eq]
    simp
  obtain ⟨more, hmore⟩ : ∃ more, requestLine text =
      line.emptyLines.flatten ++ (line.method ++ ' ' :: (path ++ [' '])) ++ more := by
    rcases h with hempty | ⟨hcr, hcrlf⟩
    · obtain ⟨more, hmore⟩ := requestLine_append line.rest hfront
      refine ⟨more, ?_⟩
      rw [hempty, List.nil_append] at htext ⊢
      exact (congrArg requestLine htext).trans hmore
    · have hfree : '\r' ∉ line.emptyLines.flatten ++ (line.method ++ ' ' :: (path ++ [' '])) := by
        intro hmem
        rcases List.mem_append.mp hmem with hmem | hmem
        · exact hcr hmem
        · exact absurd (hfront _ hmem) (by decide)
      obtain ⟨more, hmore⟩ := requestLine_of_infix line.rest hfree (htext ▸ hcrlf)
      exact ⟨more, (congrArg requestLine htext).trans hmore⟩
  refine ⟨more, hmore.trans ?_⟩
  simp

theorem requestLine_of_not_found (h : ¬ LineFound text) :
    ∃ newlines, (∀ c ∈ newlines, isNewline c = true) ∧ requestLine text = newlines := by
  rw [LineFound, line.takeWhile_eq] at h
  rcases emptyLines_cases line.empty with hcr | ⟨newlines, more, hcr, heq⟩
  · obtain ⟨first, more, hlines⟩ := List.exists_cons_of_ne_nil fun hempty => h (.inl hempty)
    have hfirst : first = '\n' := by
      have hnew := line.empty_newline first (by rw [hlines]; exact List.mem_cons_self)
      rw [isNewline, Bool.or_eq_true, beq_iff_eq, beq_iff_eq] at hnew
      refine hnew.resolve_left ?_
      rintro rfl
      rw [hlines] at hcr
      exact hcr List.mem_cons_self
    have htext : text = '\n' :: (more ++ (line.method ++ ' ' :: (path ++ ' ' :: line.rest))) := by
      conv_lhs => rw [line.eq, hlines, hfirst]
      rfl
    have hcrlf : ¬ "\r\n".toList <:+: text := fun hcrlf => h (.inr ⟨hcr, hcrlf⟩)
    refine ⟨[], by simp, (congrArg requestLine htext).trans (requestLine_of_lf _ ?_)⟩
    exact fun hinner => hcrlf (htext ▸ hinner)
  · have htext : text = newlines ++ '\r' :: '\n' ::
        (more ++ (line.method ++ ' ' :: (path ++ ' ' :: line.rest))) := by
      conv_lhs => rw [line.eq, heq]
      simp
    refine ⟨newlines, ?_, (congrArg requestLine htext).trans (requestLine_of_crlf _ hcr)⟩
    intro c hc
    exact line.empty_newline c (by rw [heq]; exact List.mem_append_left _ hc)

/-- The second reading finds the path exactly where it finds the line and the path is a word. -/
theorem extractRequestTarget_eq_iff : extractRequestTarget text = path ↔
    LineFound text ∧ ∀ c ∈ path, isWhitespace c = false := by
  by_cases hfound : LineFound text
  · obtain ⟨more, hmore⟩ := line.requestLine_of_found hfound
    rw [line.target_eq_path_iff (fun c hc => white_of_isNewline (line.empty_newline c hc)) hmore]
    simp [hfound]
  · obtain ⟨newlines, hnewlines, hline⟩ := line.requestLine_of_not_found hfound
    have hne := line.target_ne_path hnewlines hline
    simp [hne, hfound]

end RequestLine

/-- A request that has passed the checks has been filtered by its target. -/
theorem Connection.allowed_of_runSecurityChecks {connection : Connection}
    {peerAddr : CanonicalSocketAddr} {optUserAgent : Option (List Char)} {request : Request}
    {requestTarget : List Char}
    (h : (connection.runSecurityChecks peerAddr optUserAgent request requestTarget).1 = none) :
    isAllowedWithConfig requestTarget optUserAgent connection.config.requestFilter = true := by
  unfold runSecurityChecks at h
  simp only at h
  split at h
  · cases h
  split at h
  · cases h
  split at h
  · cases h
  · rename_i hallowed
    simpa using hallowed

/-- The target is the path from which the request was parsed, and who is served has passed
the filters with that path. -/
def FilteredAsServed (buffer : List UInt8) (parsed : ParsedRequest) (path : List Char) : Prop :=
  extractRequestTarget (rawRequest buffer parsed) = path ∧
    ∀ (connection : Connection) (peerAddr : CanonicalSocketAddr),
      (connection.runSecurityChecks peerAddr parsed.optUserAgent parsed.request
        (extractRequestTarget (rawRequest buffer parsed))).1 = none →
      isAllowedWithConfig path parsed.optUserAgent connection.config.requestFilter = true

section Parse
variable {httparse : Httparse} {urlencoding : UrlEncoding} {config : ServerConfig}
  {trustForwardedIp : Bool} {trustedProxies : TrustedProxies} {buffer : List UInt8}
  {parsed : ParsedRequest}

/-- A request that is accepted has been parsed from the path of its request line. -/
theorem path_of_parseRequest (h : parseRequest httparse urlencoding config trustForwardedIp
    trustedProxies buffer = .ok parsed) :
    ∃ path headers, httparse buffer = .ok (.complete parsed.consumed (some path) headers) ∧
      Request.parseHttpGetPath urlencoding path = .ok parsed.request := by
  unfold parseRequest at h
  split at h
  · cases h
  · cases h
  · rename_i consumed path headers hhttp
    split at h
    · cases h
    · rename_i path
      split at h
      · cases h
      · rename_i request hrequest
        cases hip : optPeerIp config trustForwardedIp trustedProxies headers with
        | error err =>
          rw [hip] at h
          cases h
        | ok ip =>
          rw [hip] at h
          cases h
          exact ⟨path, headers, hhttp, hrequest⟩

theorem filteredAsServed_iff (hhttparse : httparse.FindsLines)
    (hparsed : parseRequest httparse urlencoding config trustForwardedIp trustedProxies buffer =
      .ok parsed) :
    ∃ path, servedPath httparse buffer = some path ∧
      Request.parseHttpGetPath urlencoding path = .ok parsed.request ∧
      (FilteredAsServed buffer parsed path ↔
        LineFound (rawRequest buffer parsed) ∧ ∀ c ∈ path, isWhitespace c = false) := by
  obtain ⟨path, headers, hhttp, hrequest⟩ := path_of_parseRequest hparsed
  obtain ⟨text, rest, hbytes, ⟨line⟩⟩ := hhttparse.line hhttp
  have hraw : rawRequest buffer parsed = text ++ fromUtf8Lossy rest := by
    rw [rawRequest, hbytes, fromUtf8Lossy_append]
  have htarget := (line.append (fromUtf8Lossy rest)).extractRequestTarget_eq_iff
  rw [← hraw] at htarget
  refine ⟨path, by rw [servedPath, hhttp], hrequest, ?_⟩
  rw [← htarget]
  constructor
  · intro h
    exact h.1
  · intro heq
    refine ⟨heq, ?_⟩
    intro connection peerAddr hserved
    rw [heq] at hserved
    exact Connection.allowed_of_runSecurityChecks hserved

end Parse

/-- A parser that knows one request, which has no headers. -/
def lineParser (text path : List Char) : Httparse := fun buffer =>
  if utf8 text <+: buffer then .ok (.complete (utf8 text).length (some path) [])
  else if buffer <+: utf8 text then .ok .moreNeeded
  else .error "invalid token"

theorem lineParser_complete {text path : List Char} {buffer : List UInt8} {consumed : Nat}
    {path' : Option (List Char)} {headers : List Header}
    (h : lineParser text path buffer = .ok (.complete consumed path' headers)) :
    utf8 text <+: buffer ∧ consumed = (utf8 text).length ∧ path' = some path := by
  unfold lineParser at h
  split at h
  · rename_i hbuffer
    cases h
    exact ⟨hbuffer, rfl, rfl⟩
  · split at h
    · cases h
    · cases h

theorem findsLines_lineParser {text path : List Char} (line : RequestLine text path) :
    (lineParser text path).FindsLines := by
  constructor
  · intro buffer consumed path' headers h
    obtain ⟨hbuffer, rfl, -⟩ := lineParser_complete h
    exact hbuffer.length_le
  · intro buffer consumed path' headers h
    obtain ⟨hbuffer, rfl, heq⟩ := lineParser_complete h
    cases heq
    refine ⟨text, [], ?_, ⟨line⟩⟩
    rw [List.append_nil]
    exact (List.prefix_iff_eq_take.mp hbuffer).symm

/-- A scrape with a comment of SQL in its target. -/
def commentPath : List Char := "/scrape?info_hash=aaaaaaaaaaaaaaaaaaaa&a=/*".toList

def commentText (lead : List Char) : List Char :=
  lead ++ ("GET".toList ++ ' ' :: (commentPath ++ ' ' :: "HTTP/1.1\r\n\r\n".toList))

def commentParsed (lead : List Char) : ParsedRequest where
  request := .scrape ⟨[⟨.replicate 20 97⟩]⟩
  optPeerIp := none
  optUserAgent := none
  consumed := (utf8 (commentText lead)).length

/-- The request comes after empty lines. -/
def commentLine (emptyLines : List (List Char))
    (hempty : ∀ line ∈ emptyLines, line = ['\r', '\n'] ∨ line = ['\n']) :
    RequestLine (commentText emptyLines.flatten) commentPath where
  emptyLines := emptyLines
  method := "GET".toList
  rest := "HTTP/1.1\r\n\r\n".toList
  eq := rfl
  empty := hempty
  method_ne_nil := by decide
  method_visible := by decide
  path_ne_nil := by decide
  path_visible := by decide

def exampleServerConfig : ServerConfig where
  protocol := ⟨100, 50⟩
  accessListMode := .off
  swarmWorkers := 1
  peerAnnounceInterval := 120
  network := ⟨true, false, "X-Forwarded-For".toList, .lastAddress⟩
  ipBanMode := .off
  requestFilter := ⟨true, true, false, false, false⟩
  clientBan := ⟨⟨.off, .off⟩, .off⟩

def exampleConnection : Connection where
  config := exampleServerConfig
  accessList := ⟨[]⟩
  ipBanList := .empty
  clientBanList := ⟨[], [], false⟩
  autoBanTracker := none
  violations := []
  clock := ⟨0⟩
  peerPort := 6881
  requestBuffer := ⟨[], Nat.zero_le _⟩
  responseBuffer := []
  stream := ⟨[], fun _ => 1⟩
  trustedProxies := ⟨⟨true, fun _ => none⟩⟩
  trustForwardedIp := false

/-- The one request that the parser knows is parsed, whatever its path asks for. -/
theorem parseRequest_lineParser (text : List Char) {path : List Char} {request : Request}
    (h : Request.parseHttpGetPath percentEncoding path = .ok request) (config : ServerConfig)
    (trustedProxies : TrustedProxies) :
    parseRequest (lineParser text path) percentEncoding config false trustedProxies (utf8 text) =
      .ok ⟨request, none, none, (utf8 text).length⟩ := by
  have hhttp : lineParser text path (utf8 text) =
      .ok (.complete (utf8 text).length (some path) []) := if_pos (List.prefix_refl _)
  unfold parseRequest
  rw [hhttp]
  simp only [h]
  rfl

theorem parseRequest_comment (lead : List Char) :
    parseRequest (lineParser (commentText lead) commentPath) percentEncoding exampleServerConfig
      false exampleConnection.trustedProxies (utf8 (commentText lead)) =
        .ok (commentParsed lead) :=
  parseRequest_lineParser _ rfl _ _

theorem rawRequest_comment (lead : List Char) :
    rawRequest (utf8 (commentText lead)) (commentParsed lead) = commentText lead := by
  rw [rawRequest, commentParsed, List.take_length, fromUtf8Lossy_utf8]

/-- Without an empty line the target is checked. -/
theorem filteredAsServed_comment :
    FilteredAsServed (utf8 (commentText [])) (commentParsed []) commentPath := by
  obtain ⟨path, hpath, -, hiff⟩ := filteredAsServed_iff
    (findsLines_lineParser (commentLine [] (by simp))) (parseRequest_comment [])
  have hserved : servedPath (lineParser (commentText []) commentPath) (utf8 (commentText [])) =
      some commentPath := by
    rw [servedPath, lineParser, if_pos (List.prefix_refl _)]
  obtain rfl := Option.some.inj (hserved.symm.trans hpath)
  refine hiff.mpr ⟨?_, by decide⟩
  rw [rawRequest_comment]
  decide

/-- After an empty line the target is empty, and the path is served. -/
theorem comment_served :
    (lineParser (commentText "\r\n".toList) commentPath).FindsLines ∧
    parseRequest (lineParser (commentText "\r\n".toList) commentPath) percentEncoding
      exampleServerConfig false exampleConnection.trustedProxies
      (utf8 (commentText "\r\n".toList)) = .ok (commentParsed "\r\n".toList) ∧
    extractRequestTarget (rawRequest (utf8 (commentText "\r\n".toList))
      (commentParsed "\r\n".toList)) = [] ∧
    (exampleConnection.runSecurityChecks (.new ⟨.v4 ⟨#v[198, 51, 100, 1]⟩, 6881⟩) none
      (commentParsed "\r\n".toList).request []).1 = none ∧
    isAllowedWithConfig commentPath none exampleServerConfig.requestFilter = false ∧
    ¬ FilteredAsServed (utf8 (commentText "\r\n".toList)) (commentParsed "\r\n".toList)
      commentPath := by
  have htarget : extractRequestTarget (rawRequest (utf8 (commentText "\r\n".toList))
      (commentParsed "\r\n".toList)) = [] := by
    rw [rawRequest_comment]
    rfl
  refine ⟨?_, parseRequest_comment _, htarget, by decide, by decide, ?_⟩
  · exact findsLines_lineParser (commentLine ["\r\n".toList] (by decide))
  · intro h
    have heq := htarget.symm.trans h.1
    revert heq
    decide

end Aquatic.Http
