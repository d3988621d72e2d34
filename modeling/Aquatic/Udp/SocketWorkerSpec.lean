import Aquatic.Udp.ProtocolSpec
import Aquatic.Udp.SocketWorker

/-!
# What the socket worker answers

Both backends do the same with the bytes that they hand to the parser. They differ in
which bytes these are.
-/

namespace Aquatic.Udp
open Protocol
set_option autoImplicit false

/-- The bytes that the parser is given, if it is given any. -/
def Datagram.received (datagram : Datagram) : Backend → Option (List UInt8)
  | .mio => if datagram.src.port = 0 then none else some (datagram.payload.take Mio.bufferSize)
  | .uring =>
    if datagram.src.port = 0 ∨ Uring.payloadCapacity datagram.src < datagram.payload.length then none
    else some datagram.payload

namespace SocketWorker

/-- The response to what the parser has made of a datagram. -/
def answer (worker : SocketWorker) (src : CanonicalSocketAddr) :
    Except RequestParseError Request → Option (CanonicalSocketAddr × Response) × SocketWorker
  | .ok request => Uring.handleRequest worker request src
  | .error (.sendable connectionId transactionId err) =>
    if (worker.validator.connectionIdValid src connectionId).1 then
      (some (src, .error ⟨transactionId, err⟩), worker)
    else (none, worker)
  | .error (.unsendable _) => (none, worker)

variable (worker : SocketWorker) (src : CanonicalSocketAddr)

/-- What both backends do with an error that names a connection id. -/
theorem answer_sendable (connectionId : ConnectionId) (transactionId : Int32) (err : String) :
    (let (valid, validator) := worker.validator.connectionIdValid src connectionId
      let worker := { worker with validator }
      if valid then (some (src, Response.error ⟨transactionId, err⟩), worker)
      else (none, worker)) =
      worker.answer src (.error (.sendable connectionId transactionId err)) := by
  rw [ConnectionValidator.connectionIdValid_eq]
  rfl

theorem receive_eq (backend : Backend) (datagram : Datagram) :
    backend.receive worker datagram =
      match datagram.received backend with
      | none => (none, worker)
      | some bytes => worker.answer (CanonicalSocketAddr.new datagram.src)
          (Request.parseBytes bytes worker.config.maxScrapeTorrents) := by
  cases backend with
  | mio =>
    simp only [Backend.receive, Mio.readAndHandleRequest, Datagram.received]
    by_cases hport : datagram.src.port = 0
    · simp only [hport, if_true]
    simp only [hport, if_false]
    generalize Request.parseBytes _ _ = parsed
    cases parsed with
    | ok request =>
      simp only [answer, Uring.handleRequest]
      split
      · rename_i response worker' heq
        rw [heq]
        rfl
      · rename_i worker' heq
        rw [heq]
        rfl
    | error err =>
      cases err with
      | sendable connectionId transactionId err => exact answer_sendable worker _ _ _ _
      | unsendable err => rfl
  | uring =>
    simp only [Backend.receive, Uring.handleRecvCqe, Uring.parse, Datagram.received]
    by_cases htruncated : Uring.payloadCapacity datagram.src < datagram.payload.length
    · simp only [htruncated, or_true, if_true]
    by_cases hport : datagram.src.port = 0
    · simp only [htruncated, hport, or_false, if_true, if_false]
    simp only [htruncated, hport, or_self, if_false]
    generalize Request.parseBytes _ _ = parsed
    cases parsed with
    | ok request => rfl
    | error err =>
      cases err with
      | sendable connectionId transactionId err => exact answer_sendable worker _ _ _ _
      | unsendable err => rfl

section Received
variable {backend : Backend} {worker} {datagram : Datagram}

theorem receive_of_none (h : datagram.received backend = none) :
    backend.receive worker datagram = (none, worker) := by
  rw [receive_eq, h]

theorem receive_of_some {bytes : List UInt8} (h : datagram.received backend = some bytes) :
    backend.receive worker datagram = worker.answer (CanonicalSocketAddr.new datagram.src)
      (Request.parseBytes bytes worker.config.maxScrapeTorrents) := by
  rw [receive_eq, h]

/-- Whoever sent the datagram is answered. -/
theorem addr_of_receive {worker' : SocketWorker} {addr : CanonicalSocketAddr} {response : Response}
    (h : backend.receive worker datagram = (some (addr, response), worker')) :
    addr = .new datagram.src := by
  rw [receive_eq] at h
  split at h
  · cases h
  generalize Request.parseBytes _ _ = parsed at h
  cases parsed with
  | ok request =>
    obtain ⟨hanswer, _⟩ := Prod.mk.inj h
    obtain ⟨_, _, heq⟩ := Option.map_eq_some_iff.mp hanswer
    exact (congrArg Prod.fst heq).symm
  | error err =>
    cases err with
    | sendable connectionId transactionId err =>
      rw [answer] at h
      split at h
      · cases h
        rfl
      · cases h
    | unsendable err => cases h

end Received

section Handlers
variable {worker src}

theorem handleRequest_of_listBanned (h : worker.isListBanned src = true) (request : Request) :
    worker.handleRequest request src = (none, worker) := if_pos h

theorem handleAnnounce_of_invalid {request : Protocol.AnnounceRequest}
    (h : (worker.validator.connectionIdValid src request.connectionId).1 = false) :
    worker.handleAnnounce request src = (none, worker) := by
  unfold handleAnnounce
  rw [ConnectionValidator.connectionIdValid_eq, h]
  rfl

theorem handleScrape_of_invalid {request : ScrapeRequest}
    (h : (worker.validator.connectionIdValid src request.connectionId).1 = false) :
    worker.handleScrape request src = (none, worker) := by
  unfold handleScrape
  rw [ConnectionValidator.connectionIdValid_eq, h]
  rfl

/-- A connect is refused or answered; nothing is noted of it. -/
theorem handleRequest_connect (worker : SocketWorker) (src : CanonicalSocketAddr)
    (request : ConnectRequest) :
    worker.handleRequest (.connect request) src = (none, worker) ∨
      ∃ response, worker.handleRequest (.connect request) src =
        (some (.connect response), worker) := by
  unfold handleRequest
  split
  · exact .inl rfl
  simp only
  split
  · exact .inl rfl
  · rw [ConnectionValidator.createConnectionId_eq]
    exact .inr ⟨_, rfl⟩

/-- Without a peer id only the address is checked. -/
theorem runSecurityChecks_none (h : worker.isPrivateIpBlocked src = false) :
    worker.runSecurityChecks src none = (false, worker) := by
  unfold runSecurityChecks
  simp only [h, Bool.false_eq_true, if_false]
  split <;> rfl

theorem handleRequest_scrape (hlisted : worker.isListBanned src = false) {request : ScrapeRequest}
    (hvalid : (worker.validator.connectionIdValid src request.connectionId).1 = true)
    (hprivate : worker.isPrivateIpBlocked src = false) :
    worker.handleRequest (.scrape request) src =
      (some (.scrape (worker.torrentMaps.scrape (request.filterInfoHashes fun infoHash =>
        worker.accessList.allows worker.config.accessListMode infoHash) src)), worker) := by
  unfold handleRequest
  rw [if_neg (by simp [hlisted])]
  simp only [handleScrape]
  rw [ConnectionValidator.connectionIdValid_eq, hvalid]
  simp only [Bool.not_true, Bool.false_eq_true, if_false]
  rw [runSecurityChecks_none hprivate]
  rfl

theorem handleRequest_announce (hlisted : worker.isListBanned src = false)
    {request : Protocol.AnnounceRequest}
    (hvalid : (worker.validator.connectionIdValid src request.connectionId).1 = true)
    (hchecks : worker.runSecurityChecks src (some request.peerId) = (false, worker))
    (hallowed : worker.accessList.allows worker.config.accessListMode request.infoHash = true) :
    (worker.handleRequest (.announce request) src).1 =
      some (worker.torrentMaps.announce worker.config.toConfig worker.rng
        request.toAnnounceRequest src worker.peerValidUntil).1 := by
  unfold handleRequest
  rw [if_neg (by simp [hlisted])]
  simp only [handleAnnounce]
  rw [ConnectionValidator.connectionIdValid_eq, hvalid]
  simp only [Bool.not_true, Bool.false_eq_true, if_false]
  rw [hchecks]
  simp only [Bool.false_eq_true, if_false, hallowed, if_true]

end Handlers

end SocketWorker

end Aquatic.Udp
