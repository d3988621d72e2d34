import Aquatic.Lib.Transition
import Aquatic.Udp.MioWorker

/-!
# The mio worker sends each response once

A response is sent as soon as its request has been read, and once more at the end of the
iteration if the system had no space for it and there was room to keep it. The buffer of these
responses is empty when the worker waits for more.
-/

namespace Aquatic.Udp.Mio
open Protocol Transition
set_option autoImplicit false

def SendResult.retryable : SendResult → Bool
  | .ok _ => false
  | .enobufs => true
  | .wouldBlock => true
  | .failed => false

/-- Whether the response can be written to the buffer. -/
def fits (answer : Answer) : Bool := (answer.2.serialize bufferSize).isSome

/-- The responses that the system had no space for, as many as are kept. -/
def Iteration.toSendAgain (iteration : Iteration) (resendBufferMaxLen : Nat) : List Answer :=
  ((iteration.first.filter fun attempt => attempt.result.retryable).take resendBufferMaxLen).map
    Attempt.answer

/-- Each response was sent once, in the order of the requests, and those kept once more. -/
structure Iteration.Exact (resendBufferMaxLen : Nat) (iteration : Iteration) : Prop where
  first : iteration.first.map Attempt.answer = iteration.answers.filter fits
  again : iteration.again.map Attempt.answer = iteration.toSendAgain resendBufferMaxLen

def addedOf (attempt : Attempt) : List Added :=
  match attempt.result with
  | .ok bytesSent =>
    sentResponse attempt.canonicalAddr.isIpv4 (responseCounter attempt.response) bytesSent
  | .enobufs => []
  | .wouldBlock => []
  | .failed => []

/-- What is counted for responses is what the system took. -/
structure WorkerSharedData.Exact (statisticsActive : Bool) (resendBufferMaxLen : Nat)
    (shared : WorkerSharedData) : Prop where
  maxLen : shared.resendBufferMaxLen = resendBufferMaxLen
  active : shared.statisticsActive = statisticsActive
  counted : shared.counted.filter isSentCounter =
    if statisticsActive then shared.sent.flatMap addedOf else []

namespace Socket

/-- A socket while datagrams are read. -/
structure Exact (isV4 : Bool) (resendBufferMaxLen : Nat) (socket : Socket) : Prop where
  kind : socket.isV4 = isV4
  first : socket.current.first.map Attempt.answer = socket.current.answers.filter fits
  again : socket.current.again = []
  buffer : socket.optResendBuffer =
    if 0 < resendBufferMaxLen then some (socket.current.toSendAgain resendBufferMaxLen) else none
  addrs : isV4 = true → ∀ answer ∈ socket.current.answers, answer.1.isIpv4 = true
  past : ∀ iteration ∈ socket.past, iteration.Exact resendBufferMaxLen

variable {socket socket' : Socket} {shared shared' : WorkerSharedData} {isV4 active : Bool}
variable {maxLen : Nat} {canonicalAddr : CanonicalSocketAddr} {response : Response}

theorem exact_create (isV4 : Bool) (maxLen : Nat) : (create isV4 maxLen).Exact isV4 maxLen where
  kind := rfl
  first := rfl
  again := rfl
  buffer := by
    rw [Iteration.toSendAgain]
    exact congrArg (fun answers => if 0 < maxLen then some answers else none)
      (congrArg (List.map Attempt.answer) List.take_nil).symm
  addrs := by
    intro _ answer hanswer
    cases hanswer
  past := by
    intro iteration hiteration
    cases hiteration

theorem exists_sendAddr (hkind : socket.isV4 = isV4)
    (haddr : isV4 = true → canonicalAddr.isIpv4 = true) :
    ∃ addr, socket.sendAddr canonicalAddr = some addr := by
  rw [sendAddr, hkind]
  cases isV4 with
  | true =>
    rw [haddr rfl]
    exact ⟨_, rfl⟩
  | false => exact ⟨_, rfl⟩

/-- Of a list that is cut off, one more element is kept if there is room for it. -/
theorem take_append_singleton {α : Type} (n : Nat) (l : List α) (a : α) :
    (l ++ [a]).take n = if (l.take n).length < n then l.take n ++ [a] else l.take n := by
  rw [List.length_take]
  by_cases hlt : l.length < n
  · rw [if_pos (by omega), List.take_of_length_le (Nat.le_of_lt hlt), List.take_of_length_le]
    rw [List.length_append, List.length_singleton]
    exact hlt
  · rw [if_neg (by omega), List.take_append_of_le_length (Nat.le_of_not_lt hlt)]

theorem filter_sentResponse (isIpv4 : Bool) (response : Response) (bytes : UInt64) :
    (sentResponse isIpv4 (responseCounter response) bytes).filter isSentCounter =
      sentResponse isIpv4 (responseCounter response) bytes := by
  cases response <;> rfl

/-- What an attempt does besides keeping the response. -/
theorem sendResponse_eq (hshared : shared.Exact active maxLen)
    (hfits : fits (canonicalAddr, response) = true) {addr : SocketAddr}
    (haddr : socket.sendAddr canonicalAddr = some addr) (disableResendBuffer : Bool)
    (result : SendResult) :
    ∃ shared', shared'.Exact active maxLen ∧
      socket.sendResponse shared canonicalAddr response disableResendBuffer result =
        some (if result.retryable then
          (socket.record disableResendBuffer ⟨canonicalAddr, response, addr, result⟩).keep shared'
            (canonicalAddr, response) disableResendBuffer
          else socket.record disableResendBuffer ⟨canonicalAddr, response, addr, result⟩,
          shared') := by
  obtain ⟨hmaxLen, hactive, hcounted⟩ := hshared
  obtain ⟨bytes, hbytes⟩ := Option.isSome_iff_exists.mp hfits
  rw [sendResponse]
  simp only [hbytes, haddr, Option.bind_eq_bind, Option.bind_some]
  cases result with
  | ok bytesSent =>
    refine ⟨_, ⟨?_, ?_, ?_⟩, rfl⟩
    · exact hmaxLen
    · exact hactive
    · simp only [List.filter_append, hcounted, List.flatMap_append, hactive]
      cases active with
      | true => simp [addedOf, filter_sentResponse]
      | false => rfl
  | enobufs =>
    refine ⟨_, ⟨?_, ?_, ?_⟩, rfl⟩
    · exact hmaxLen
    · exact hactive
    · simp [hcounted, addedOf]
  | wouldBlock =>
    refine ⟨_, ⟨?_, ?_, ?_⟩, rfl⟩
    · exact hmaxLen
    · exact hactive
    · simp [hcounted, addedOf]
  | failed =>
    refine ⟨_, ⟨?_, ?_, ?_⟩, rfl⟩
    · exact hmaxLen
    · exact hactive
    · simp [hcounted, addedOf]

theorem toSendAgain_append (iteration : Iteration) (attempt : Attempt) (maxLen : Nat) :
    { iteration with first := iteration.first ++ [attempt] }.toSendAgain maxLen =
      if attempt.result.retryable ∧ (iteration.toSendAgain maxLen).length < maxLen then
        iteration.toSendAgain maxLen ++ [attempt.answer]
      else iteration.toSendAgain maxLen := by
  rw [Iteration.toSendAgain, Iteration.toSendAgain, List.filter_append]
  cases hretryable : attempt.result.retryable with
  | true =>
    have hfilter : ([attempt].filter fun attempt => attempt.result.retryable) = [attempt] := by
      simp [hretryable]
    rw [hfilter, take_append_singleton, List.length_map]
    by_cases hroom : ((iteration.first.filter fun attempt =>
        attempt.result.retryable).take maxLen).length < maxLen
    · rw [if_pos hroom, if_pos ⟨rfl, hroom⟩, List.map_append]
      rfl
    · rw [if_neg hroom, if_neg fun hkept => hroom hkept.2]
  | false =>
    have hfilter : ([attempt].filter fun attempt => attempt.result.retryable) = [] := by
      simp [hretryable]
    rw [hfilter, List.append_nil, if_neg fun hkept => Bool.false_ne_true hkept.1]

theorem eq_setBuffer {optResendBuffer : Option (List Answer)}
    (h : socket.optResendBuffer = optResendBuffer) : socket = { socket with optResendBuffer } := by
  rw [← h]

theorem keep_eq {kept : List Answer}
    (hbuffer : socket.optResendBuffer = if 0 < maxLen then some kept else none)
    (hmaxLen : shared.resendBufferMaxLen = maxLen) (answer : Answer) :
    socket.keep shared answer false = { socket with
      optResendBuffer :=
        if 0 < maxLen then some (if kept.length < maxLen then kept ++ [answer] else kept)
        else none } := by
  rw [keep, hbuffer]
  by_cases hpos : 0 < maxLen
  · simp only [if_pos hpos, hmaxLen, Bool.not_false, Bool.true_and, decide_eq_true_eq]
    split
    · rfl
    · exact eq_setBuffer (hbuffer.trans (if_pos hpos))
  · simp only [if_neg hpos]
    exact eq_setBuffer (hbuffer.trans (if_neg hpos))

/-- A response is sent for the first time. -/
theorem sendResponse_first (h : socket.Exact isV4 maxLen) (hshared : shared.Exact active maxLen)
    (haddr : isV4 = true → canonicalAddr.isIpv4 = true) (response : Response)
    (result : SendResult) :
    ∃ socket' shared', (socket.recordAnswer (canonicalAddr, response)).sendResponse shared
        canonicalAddr response false result = some (socket', shared') ∧
      socket'.Exact isV4 maxLen ∧ shared'.Exact active maxLen := by
  have haddrs : isV4 = true → ∀ answer ∈ socket.current.answers ++ [(canonicalAddr, response)],
      answer.1.isIpv4 = true := by
    intro hV4 answer hanswer
    rcases List.mem_append.mp hanswer with hanswer | hanswer
    · exact h.addrs hV4 answer hanswer
    · rw [List.mem_singleton.mp hanswer]
      exact haddr hV4
  cases hfits : fits (canonicalAddr, response) with
  | false =>
    refine ⟨socket.recordAnswer (canonicalAddr, response), shared, ?_,
      ⟨h.kind, ?_, h.again, h.buffer, haddrs, h.past⟩, hshared⟩
    · rw [sendResponse, Option.isNone_iff_eq_none.mp (Option.isSome_eq_false_iff.mp hfits)]
    · rw [recordAnswer, List.filter_append, List.filter_cons_of_neg (by simp [hfits]),
        List.filter_nil, List.append_nil]
      exact h.first
  | true =>
    obtain ⟨addr, hsendAddr⟩ : ∃ addr,
        (socket.recordAnswer (canonicalAddr, response)).sendAddr canonicalAddr = some addr :=
      exists_sendAddr h.kind haddr
    obtain ⟨shared', hshared', heq⟩ := sendResponse_eq hshared hfits hsendAddr false result
    refine ⟨_, shared', heq, ?_, hshared'⟩
    have hfirst : (socket.current.first ++
        [(⟨canonicalAddr, response, addr, result⟩ : Attempt)]).map Attempt.answer =
        (socket.current.answers ++ [(canonicalAddr, response)]).filter fits := by
      rw [List.map_append, List.filter_append, h.first, List.filter_cons_of_pos hfits]
      rfl
    have happend := toSendAgain_append socket.current ⟨canonicalAddr, response, addr, result⟩ maxLen
    cases hretryable : result.retryable with
    | true =>
      simp only [hretryable, true_and] at happend
      have hbuffer : ((socket.recordAnswer (canonicalAddr, response)).record false
          ⟨canonicalAddr, response, addr, result⟩).optResendBuffer =
          if 0 < maxLen then some (socket.current.toSendAgain maxLen) else none := h.buffer
      rw [if_pos rfl, keep_eq hbuffer hshared'.maxLen]
      refine ⟨h.kind, hfirst, h.again, ?_, haddrs, h.past⟩
      exact congrArg (fun kept => if 0 < maxLen then some kept else none) happend.symm
    | false =>
      simp only [hretryable, Bool.false_eq_true, false_and, if_false] at happend ⊢
      refine ⟨h.kind, hfirst, h.again, ?_, haddrs, h.past⟩
      refine h.buffer.trans ?_
      rw [← happend]
      rfl

theorem filter_receivedAdded (shared : WorkerSharedData) (datagram : Datagram) :
    (receivedAdded shared datagram).filter isSentCounter = [] := by
  rw [receivedAdded]
  split
  · rw [List.filter_cons_of_neg (by simp [isSentCounter, receivedBytes])]
    split
    · rfl
    · split <;> rfl
  · rfl

theorem readAndHandle_spec (h : socket.Exact isV4 maxLen) (hshared : shared.Exact active maxLen)
    {datagram : Datagram} (haddr : isV4 = true → (CanonicalSocketAddr.new datagram.src).isIpv4)
    (result : SendResult) :
    ∃ socket' shared', socket.readAndHandle shared datagram result = some (socket', shared') ∧
      socket'.Exact isV4 maxLen ∧ shared'.Exact active maxLen := by
  rw [readAndHandle]
  cases hanswer : readAndHandleRequest shared.worker datagram with
  | mk answer worker =>
    have hshared' : WorkerSharedData.Exact active maxLen { shared with
        worker, counted := shared.counted ++ receivedAdded shared datagram } := by
      refine ⟨hshared.maxLen, hshared.active, ?_⟩
      rw [List.filter_append, filter_receivedAdded, List.append_nil]
      exact hshared.counted
    cases answer with
    | none => exact ⟨socket, _, rfl, h, hshared'⟩
    | some answer =>
      obtain ⟨src, response⟩ := answer
      have hreceive : Backend.mio.receive shared.worker datagram = (some (src, response), worker) :=
        hanswer
      obtain rfl := SocketWorker.addr_of_receive hreceive
      exact sendResponse_first h hshared' haddr response result

theorem keep_disabled (socket : Socket) (shared : WorkerSharedData) (answer : Answer) :
    socket.keep shared answer true = socket := by
  rw [keep]
  split <;> rfl

theorem foldlM_resendNext (results : Nat → SendResult) {answers : List (Answer × Nat)}
    (hkind : socket.isV4 = isV4) (hshared : shared.Exact active maxLen)
    (hfits : ∀ answer ∈ answers, fits answer.1 = true ∧
      (isV4 = true → answer.1.1.isIpv4 = true)) :
    ∃ again shared', answers.foldlM (resendNext results) (socket, shared) =
        some ({ socket with
          current := { socket.current with again := socket.current.again ++ again } }, shared') ∧
      again.map Attempt.answer = answers.map Prod.fst ∧ shared'.Exact active maxLen := by
  induction answers generalizing socket shared with
  | nil => exact ⟨[], shared, by simp, rfl, hshared⟩
  | cons answer answers ih =>
    obtain ⟨⟨canonicalAddr, response⟩, i⟩ := answer
    obtain ⟨hfit, haddr⟩ := hfits _ List.mem_cons_self
    obtain ⟨addr, hsendAddr⟩ := exists_sendAddr hkind haddr
    obtain ⟨shared₁, hshared₁, heq⟩ := sendResponse_eq hshared hfit hsendAddr true (results i)
    rw [keep_disabled, ite_self] at heq
    have hkind' : (socket.record true ⟨canonicalAddr, response, addr, results i⟩).isV4 = isV4 :=
      hkind
    obtain ⟨again, shared', hrest, hanswers, hshared'⟩ := ih hkind' hshared₁
      fun answer hanswer => hfits answer (List.mem_cons_of_mem _ hanswer)
    refine ⟨⟨canonicalAddr, response, addr, results i⟩ :: again, shared', ?_, ?_, hshared'⟩
    · rw [List.foldlM_cons, resendNext, heq, Option.bind_eq_bind, Option.bind_some]
      refine hrest.trans ?_
      simp [record]
    · rw [List.map_cons, hanswers]
      rfl

/-- All responses that were kept are sent again, and the next iteration starts with none. -/
theorem resendFailed_spec (h : socket.Exact isV4 maxLen) (hshared : shared.Exact active maxLen)
    (results : Nat → SendResult) :
    ∃ socket' shared', socket.resendFailed shared results = some (socket', shared') ∧
      socket'.nextIteration.Exact isV4 maxLen ∧ shared'.Exact active maxLen := by
  have hnext : ∀ again : List Attempt,
      again.map Attempt.answer = socket.current.toSendAgain maxLen →
      ∀ iteration ∈ socket.past ++ [{ socket.current with again }], iteration.Exact maxLen := by
    intro again hagain iteration hiteration
    rcases List.mem_append.mp hiteration with hiteration | hiteration
    · exact h.past iteration hiteration
    · rw [List.mem_singleton.mp hiteration]
      exact ⟨h.first, hagain⟩
  have hnil : (⟨[], [], []⟩ : Iteration).toSendAgain maxLen = [] := by simp [Iteration.toSendAgain]
  have hfits : ∀ answer ∈ (socket.current.toSendAgain maxLen).zipIdx, fits answer.1 = true ∧
      (isV4 = true → answer.1.1.isIpv4 = true) := by
    intro answer hanswer
    obtain ⟨attempt, hattempt, heq⟩ := List.mem_map.mp (List.fst_mem_of_mem_zipIdx hanswer)
    have hfirst := (List.mem_filter.mp (List.mem_of_mem_take hattempt)).1
    have hmem : answer.1 ∈ socket.current.answers.filter fits := by
      rw [← h.first, ← heq]
      exact List.mem_map_of_mem hfirst
    obtain ⟨hmem, hfit⟩ := List.mem_filter.mp hmem
    exact ⟨hfit, fun hV4 => h.addrs hV4 _ hmem⟩
  have hbuffer := h.buffer
  by_cases hpos : 0 < maxLen
  · rw [if_pos hpos] at hbuffer
    have hkind : ({ socket with optResendBuffer := some [] } : Socket).isV4 = isV4 := h.kind
    obtain ⟨again, shared', hfold, hanswers, hshared'⟩ :=
      foldlM_resendNext results hkind hshared hfits
    rw [List.zipIdx_map_fst] at hanswers
    have hagain : socket.current.again ++ again = again := by rw [h.again, List.nil_append]
    rw [resendFailed, hbuffer]
    simp only [hfold, Option.bind_eq_bind, Option.bind_some, hagain]
    refine ⟨_, shared', rfl, ⟨h.kind, rfl, rfl, ?_, ?_, hnext again hanswers⟩, hshared'⟩
    · rw [if_pos hpos, nextIteration, hnil]
      rfl
    · intro _ answer hanswer
      cases hanswer
  · rw [if_neg hpos] at hbuffer
    rw [resendFailed, hbuffer]
    refine ⟨socket, shared, rfl, ⟨h.kind, rfl, rfl, ?_, ?_, ?_⟩, hshared⟩
    · rw [if_neg hpos, nextIteration]
      exact hbuffer
    · intro _ answer hanswer
      cases hanswer
    · have hnone : socket.current.toSendAgain maxLen = [] := by
        rw [Nat.eq_zero_of_not_pos hpos, Iteration.toSendAgain, List.take_zero, List.map_nil]
      have hpast := hnext [] hnone.symm
      rw [← h.again] at hpast
      exact hpast

end Socket

namespace MioWorker
variable {useIpv4 useIpv6 active : Bool} {maxLen : Nat} {s s' : MioWorker}

structure Sound (useIpv4 useIpv6 active : Bool) (maxLen : Nat) (s : MioWorker) : Prop where
  openIpv4 : s.optSocketIpv4.isSome = useIpv4
  openIpv6 : s.optSocketIpv6.isSome = useIpv6
  ipv4 : ∀ socket, s.optSocketIpv4 = some socket → socket.Exact true maxLen
  ipv6 : ∀ socket, s.optSocketIpv6 = some socket → socket.Exact false maxLen
  shared : s.shared.Exact active maxLen

/-- The datagram can come in on the socket. -/
def arrives (useIpv4 useIpv6 onIpv4 : Bool) (datagram : Datagram) : Bool :=
  match onIpv4, datagram.src.ip with
  | true, .v4 _ => useIpv4
  | false, .v6 _ => useIpv6
  | _, _ => false

theorem sound_init (useIpv4 useIpv6 : Bool) (worker : SocketWorker) (active : Bool)
    (maxLen : Nat) (maxPeerAge : UInt32) :
    (init useIpv4 useIpv6 worker active maxLen maxPeerAge).Sound useIpv4 useIpv6 active maxLen where
  openIpv4 := by cases useIpv4 <;> rfl
  openIpv6 := by cases useIpv6 <;> rfl
  ipv4 := by
    intro socket hsocket
    obtain ⟨_, heq⟩ := Option.ite_none_right_eq_some.mp hsocket
    cases heq
    exact Socket.exact_create true maxLen
  ipv6 := by
    intro socket hsocket
    obtain ⟨_, heq⟩ := Option.ite_none_right_eq_some.mp hsocket
    cases heq
    exact Socket.exact_create false maxLen
  shared := ⟨rfl, rfl, by cases active <;> rfl⟩

theorem arrives_iff {onIpv4 : Bool} {datagram : Datagram} :
    arrives useIpv4 useIpv6 onIpv4 datagram = true ↔
      (onIpv4 = true ∧ useIpv4 = true ∧ (CanonicalSocketAddr.new datagram.src).isIpv4 = true ∧
        ∃ addr, datagram.src.ip = .v4 addr) ∨
      (onIpv4 = false ∧ useIpv6 = true ∧ ∃ addr, datagram.src.ip = .v6 addr) := by
  obtain ⟨⟨ip, port⟩, payload⟩ := datagram
  cases onIpv4 <;> cases ip <;>
    simp [arrives, CanonicalSocketAddr.new, CanonicalSocketAddr.isIpv4, canonicalIp]

theorem read_spec (h : s.Sound useIpv4 useIpv6 active maxLen) {onIpv4 : Bool}
    {datagram : Datagram} (harrives : arrives useIpv4 useIpv6 onIpv4 datagram = true)
    (result : SendResult) :
    ∃ s', s.read onIpv4 datagram result = some s' ∧ s'.Sound useIpv4 useIpv6 active maxLen := by
  rcases arrives_iff.mp harrives with ⟨rfl, huse, haddr, addr, hsrc⟩ | ⟨rfl, huse, addr, hsrc⟩
  · obtain ⟨socket, hsocket⟩ := Option.isSome_iff_exists.mp (h.openIpv4.trans huse)
    obtain ⟨socket', shared', hread, hexact, hshared⟩ :=
      Socket.readAndHandle_spec (h.ipv4 socket hsocket) h.shared (fun _ => haddr) result
    refine ⟨{ s with optSocketIpv4 := some socket', shared := shared' }, ?_, huse.symm,
      h.openIpv6, ?_, h.ipv6, hshared⟩
    · simp only [read, hsrc, hsocket, hread, Option.bind_eq_bind, Option.bind_some, Option.pure_def]
    · intro socket hsocket
      cases hsocket
      exact hexact
  · obtain ⟨socket, hsocket⟩ := Option.isSome_iff_exists.mp (h.openIpv6.trans huse)
    have hkind : false = true → (CanonicalSocketAddr.new datagram.src).isIpv4 = true :=
      fun hfalse => absurd hfalse Bool.false_ne_true
    obtain ⟨socket', shared', hread, hexact, hshared⟩ :=
      Socket.readAndHandle_spec (h.ipv6 socket hsocket) h.shared hkind result
    refine ⟨{ s with optSocketIpv6 := some socket', shared := shared' }, ?_, h.openIpv4,
      huse.symm, h.ipv4, ?_, hshared⟩
    · simp only [read, hsrc, hsocket, hread, Option.bind_eq_bind, Option.bind_some, Option.pure_def]
    · intro socket hsocket
      cases hsocket
      exact hexact

/-- What is read comes in on one of the sockets. -/
theorem arrives_of_read (h : s.Sound useIpv4 useIpv6 active maxLen) {onIpv4 : Bool}
    {datagram : Datagram} {result : SendResult} (hread : s.read onIpv4 datagram result = some s') :
    arrives useIpv4 useIpv6 onIpv4 datagram = true := by
  rw [← h.openIpv4, ← h.openIpv6]
  obtain ⟨⟨ip, port⟩, payload⟩ := datagram
  cases onIpv4 <;> cases ip
  · cases hread
  · obtain ⟨socket, hsocket, _⟩ := Option.bind_eq_some_iff.mp hread
    rw [hsocket]
    rfl
  · obtain ⟨socket, hsocket, _⟩ := Option.bind_eq_some_iff.mp hread
    rw [hsocket]
    rfl
  · cases hread

theorem resendOpt_spec {optSocket : Option Socket} {shared : WorkerSharedData} {isV4 : Bool}
    (h : ∀ socket, optSocket = some socket → socket.Exact isV4 maxLen)
    (hshared : shared.Exact active maxLen) (results : Nat → SendResult) :
    ∃ optSocket' shared', resendOpt optSocket shared results = some (optSocket', shared') ∧
      optSocket'.isSome = optSocket.isSome ∧
      (∀ socket, optSocket' = some socket →
        socket.Exact isV4 maxLen ∧ socket.current = ⟨[], [], []⟩) ∧
      shared'.Exact active maxLen := by
  cases optSocket with
  | none =>
    refine ⟨none, shared, rfl, rfl, ?_, hshared⟩
    intro socket hsocket
    cases hsocket
  | some socket =>
    obtain ⟨socket', shared', hresend, hexact, hshared'⟩ :=
      Socket.resendFailed_spec (h socket rfl) hshared results
    refine ⟨some socket'.nextIteration, shared', ?_, rfl, ?_, hshared'⟩
    · rw [resendOpt]
      simp only [hresend, Option.bind_eq_bind, Option.bind_some]
      rfl
    · intro socket hsocket
      cases hsocket
      exact ⟨hexact, rfl⟩

def sockets (s : MioWorker) : List Socket := s.optSocketIpv4.toList ++ s.optSocketIpv6.toList

/-- After an iteration nothing waits to be sent. -/
theorem endIteration_spec (h : s.Sound useIpv4 useIpv6 active maxLen)
    (resultsIpv4 resultsIpv6 : Nat → SendResult) (elapsed : Nat) (now : SecondsSinceServerStart) :
    ∃ s', s.endIteration resultsIpv4 resultsIpv6 elapsed now = some s' ∧
      s'.Sound useIpv4 useIpv6 active maxLen ∧
      ∀ socket ∈ s'.sockets, socket.current = ⟨[], [], []⟩ := by
  obtain ⟨optSocketIpv4, shared, hipv4, hopen4, hexact4, hshared⟩ :=
    resendOpt_spec h.ipv4 h.shared resultsIpv4
  obtain ⟨optSocketIpv6, shared', hipv6, hopen6, hexact6, hshared'⟩ :=
    resendOpt_spec h.ipv6 hshared resultsIpv6
  rw [endIteration]
  simp only [hipv4, hipv6, Option.bind_eq_bind, Option.bind_some]
  refine ⟨_, rfl, ⟨hopen4.trans h.openIpv4, hopen6.trans h.openIpv6,
    fun socket hsocket => (hexact4 socket hsocket).1,
    fun socket hsocket => (hexact6 socket hsocket).1, ?_⟩, ?_⟩
  · simp only
    split
    · exact ⟨hshared'.maxLen, hshared'.active, hshared'.counted⟩
    · exact hshared'
  · intro socket hsocket
    rcases List.mem_append.mp hsocket with hsocket | hsocket
    · exact (hexact4 socket (Option.mem_toList.mp hsocket)).2
    · exact (hexact6 socket (Option.mem_toList.mp hsocket)).2

theorem sound_step {a : Action} (h : s.Sound useIpv4 useIpv6 active maxLen)
    (hstep : s.step a = some s') : s'.Sound useIpv4 useIpv6 active maxLen := by
  cases a with
  | read onIpv4 datagram result =>
    obtain ⟨t, ht, hsound⟩ := read_spec h (arrives_of_read h hstep) result
    obtain rfl := Option.some.inj (ht.symm.trans hstep)
    exact hsound
  | endIteration resultsIpv4 resultsIpv6 elapsed now =>
    obtain ⟨t, ht, hsound, _⟩ := endIteration_spec h resultsIpv4 resultsIpv6 elapsed now
    obtain rfl := Option.some.inj (ht.symm.trans hstep)
    exact hsound

/-- Of a state: each socket has sent each response once and those it kept once more, holds as
many to be sent again as it may, nothing that comes in makes the worker fail, and at the end of
an iteration nothing is left. -/
structure Exact (useIpv4 useIpv6 active : Bool) (maxLen : Nat) (s : MioWorker) : Prop where
  ipv4 : ∀ socket, s.optSocketIpv4 = some socket → socket.Exact true maxLen
  ipv6 : ∀ socket, s.optSocketIpv6 = some socket → socket.Exact false maxLen
  shared : s.shared.Exact active maxLen
  reads : ∀ onIpv4 datagram result, arrives useIpv4 useIpv6 onIpv4 datagram = true →
    ∃ s', s.step (.read onIpv4 datagram result) = some s'
  ends : ∀ resultsIpv4 resultsIpv6 elapsed now,
    ∃ s', s.step (.endIteration resultsIpv4 resultsIpv6 elapsed now) = some s' ∧
      ∀ socket ∈ s'.sockets, socket.current = ⟨[], [], []⟩

theorem Sound.exact (h : s.Sound useIpv4 useIpv6 active maxLen) :
    s.Exact useIpv4 useIpv6 active maxLen where
  ipv4 := h.ipv4
  ipv6 := h.ipv6
  shared := h.shared
  reads := by
    intro onIpv4 datagram result harrives
    obtain ⟨s', hs', _⟩ := read_spec h harrives result
    exact ⟨s', hs'⟩
  ends := by
    intro resultsIpv4 resultsIpv6 elapsed now
    obtain ⟨s', hs', _, hempty⟩ := endIteration_spec h resultsIpv4 resultsIpv6 elapsed now
    exact ⟨s', hs', hempty⟩

theorem responses_sent_once (useIpv4 useIpv6 : Bool) (worker : SocketWorker) (active : Bool)
    (maxLen : Nat) (maxPeerAge : UInt32) (as : List Action) :
    (init useIpv4 useIpv6 worker active maxLen maxPeerAge).Exact useIpv4 useIpv6 active maxLen ∧
      AllSteps step (fun _ _ s' => s'.Exact useIpv4 useIpv6 active maxLen)
        (init useIpv4 useIpv6 worker active maxLen maxPeerAge) as := by
  have hinit := sound_init useIpv4 useIpv6 worker active maxLen maxPeerAge
  exact ⟨hinit.exact, allSteps_of_kept sound_step (fun h hstep => (sound_step h hstep).exact)
    hinit as⟩

end MioWorker

end Aquatic.Udp.Mio
