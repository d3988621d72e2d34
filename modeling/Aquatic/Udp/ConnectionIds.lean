import Aquatic.Udp.SocketWorkerSpec

/-!
# Spoofed and banned senders

A datagram without a valid connection id may come from anyone. It changes nothing and
is answered at most with a connection id, in 16 bytes. A sender on a ban list is not
answered either, but for one case: the parser's errors are answered before the lists
are looked into.
-/

namespace Aquatic.Udp
open Collections Protocol
set_option autoImplicit false

namespace SocketWorker

/-- The datagram carries a connection id that was given to its sender. -/
def Authenticated (worker : SocketWorker) (datagram : Datagram) : Prop :=
  ∃ connectionId, carriedConnectionId datagram.payload = some connectionId ∧
    (worker.validator.connectionIdValid (CanonicalSocketAddr.new datagram.src) connectionId).1 = true

/-- The error that the parser reports is answered. -/
def AnswersError (backend : Backend) (worker : SocketWorker) (datagram : Datagram) : Prop :=
  ∃ bytes connectionId, datagram.received backend = some bytes ∧ Malformed bytes connectionId ∧
    (worker.validator.connectionIdValid (CanonicalSocketAddr.new datagram.src) connectionId).1 = true

section
variable {backend : Backend} {worker : SocketWorker} {datagram : Datagram} {bytes : List UInt8}

/-- The parser sees the front of the payload, with the header of the request. -/
theorem take_of_received (h : datagram.received backend = some bytes) :
    ∃ m, 12 ≤ m ∧ bytes = datagram.payload.take m := by
  unfold Datagram.received at h
  split at h
  · split at h
    · cases h
    · cases h
      exact ⟨Mio.bufferSize, by decide, rfl⟩
  · split at h
    · cases h
    · cases h
      refine ⟨datagram.payload.length + 12, by omega, ?_⟩
      rw [List.take_of_length_le (by omega)]

theorem carried_of_received (h : datagram.received backend = some bytes) :
    carriedConnectionId bytes = carriedConnectionId datagram.payload := by
  obtain ⟨m, hm, rfl⟩ := take_of_received h
  exact carriedConnectionId_take hm

theorem isConnect_of_received (h : datagram.received backend = some bytes)
    (hconnect : IsConnect bytes) : IsConnect datagram.payload := by
  obtain ⟨m, hm, rfl⟩ := take_of_received h
  exact hconnect.of_take hm

/-- Without a valid connection id, only connects are answered. -/
theorem answer_of_invalid {src : CanonicalSocketAddr} {maxScrapeTorrents : UInt8}
    (h : ∀ connectionId, carriedConnectionId bytes = some connectionId →
      (worker.validator.connectionIdValid src connectionId).1 = false)
    {r : Except RequestParseError Request} (hparsed : Request.Parsed bytes maxScrapeTorrents r) :
    worker.answer src r = (none, worker) ∨ IsConnect bytes ∧
      ∃ response, worker.answer src r = (some (src, .connect response), worker) := by
  have hcarried : ∀ connectionId, reportedConnectionId r = some connectionId →
      carriedConnectionId bytes = some connectionId := fun _ => hparsed.carried
  cases hparsed with
  | unsendable err => exact .inl rfl
  | sendable transactionId err hmalformed =>
    have hinvalid := h _ (hcarried _ rfl)
    exact .inl (if_neg (by simp [hinvalid]))
  | connect request hconnect =>
    simp only [answer, Uring.handleRequest]
    obtain heq | ⟨response, heq⟩ := handleRequest_connect worker src request
    · rw [heq]
      exact .inl rfl
    · rw [heq]
      exact .inr ⟨hconnect, response, rfl⟩
  | @announce request haction hfields =>
    have hinvalid := h _ (hcarried _ rfl)
    simp only [answer, Uring.handleRequest, handleRequest]
    split
    · exact .inl rfl
    · rw [handleAnnounce_of_invalid hinvalid]
      exact .inl rfl
  | scrape transactionId haction hfields hhashes =>
    have hinvalid := h _ (hcarried _ rfl)
    simp only [answer, Uring.handleRequest, handleRequest]
    split
    · exact .inl rfl
    · rw [handleScrape_of_invalid hinvalid]
      exact .inl rfl

end

/-- The address 203.0.113.7 is banned. -/
def exampleWorker : SocketWorker where
  config :=
    { exampleConfig with
      maxScrapeTorrents := 70
      ipBanMode := .on
      filterPrivateIps := false
      clientBan := ⟨.off, .off⟩ }
  accessList := ⟨[]⟩
  ipBanList := IpBanList.fromEntries [.address (.v4 ⟨#v[203, 0, 113, 7]⟩)]
  clientBanList := ⟨[], [], true⟩
  torrentMaps := ⟨⟨fun _ => IndexMap.empty⟩, ⟨fun _ => IndexMap.empty⟩⟩
  autoBanTracker := none
  violations := []
  validator := ⟨120, ⟨fun _ => #v[1, 2, 3, 4], []⟩, 0, rfl⟩
  clock := ⟨0⟩
  rng := ⟨fun _ => 0⟩
  peerValidUntil := ⟨1000⟩
  statisticsMessages := []

/-- A scrape without info hashes, with the given bytes as its connection id. -/
def emptyScrape (src : SocketAddr) (connectionId : List UInt8) : Datagram where
  src := src
  payload := connectionId ++ [0, 0, 0, 2, 0, 0, 0, 9]

/-- Whoever sends a datagram without a connection id of its own gets nothing or one
connect response, which is not longer than what was sent, and leaves no trace. -/
theorem unauthenticated_gets_connect_only {worker : SocketWorker} {datagram : Datagram}
    (h : ¬ worker.Authenticated datagram) (backend : Backend) :
    (backend.receive worker datagram).2 = worker ∧
      ((backend.receive worker datagram).1 = none ∨ ∃ response,
        (backend.receive worker datagram).1 =
          some (CanonicalSocketAddr.new datagram.src, .connect response) ∧
        (Response.connect response).writeBytes.length = 16 ∧ IsConnect datagram.payload) := by
  cases hreceived : datagram.received backend with
  | none =>
    rw [receive_of_none hreceived]
    exact ⟨rfl, .inl rfl⟩
  | some bytes =>
    rw [receive_of_some hreceived]
    have hinvalid : ∀ connectionId, carriedConnectionId bytes = some connectionId →
        (worker.validator.connectionIdValid (CanonicalSocketAddr.new datagram.src)
          connectionId).1 = false := by
      intro connectionId hid
      rw [carried_of_received hreceived] at hid
      exact Bool.eq_false_iff.mpr fun hvalid => h ⟨connectionId, hid, hvalid⟩
    obtain heq | ⟨hconnect, response, heq⟩ := answer_of_invalid hinvalid
      (Request.parseBytes_spec bytes worker.config.maxScrapeTorrents)
    · rw [heq]
      exact ⟨rfl, .inl rfl⟩
    · rw [heq]
      exact ⟨rfl, .inr ⟨response, rfl, length_connect response,
        isConnect_of_received hreceived hconnect⟩⟩

theorem guessed_id_ignored :
    (Backend.mio.receive exampleWorker
      (emptyScrape ⟨.v4 ⟨#v[198, 51, 100, 1]⟩, 6881⟩ [0, 0, 0, 0, 0, 0, 0, 0])).2 =
      exampleWorker := by
  have hguessed : ¬ exampleWorker.Authenticated
      (emptyScrape ⟨.v4 ⟨#v[198, 51, 100, 1]⟩, 6881⟩ [0, 0, 0, 0, 0, 0, 0, 0]) := by
    rintro ⟨connectionId, hid, hvalid⟩
    have hzero : some connectionId = some ⟨0⟩ := hid.symm.trans (by decide)
    cases hzero
    revert hvalid
    decide
  exact (unauthenticated_gets_connect_only hguessed .mio).1

section
variable {worker : SocketWorker} {src : CanonicalSocketAddr}

/-- A listed sender is answered in one case. -/
theorem answer_of_listBanned (h : worker.isListBanned src = true)
    (r : Except RequestParseError Request) :
    worker.answer src r = (none, worker) ∨
      ∃ connectionId transactionId err, r = .error (.sendable connectionId transactionId err) ∧
        (worker.validator.connectionIdValid src connectionId).1 = true ∧
        worker.answer src r = (some (src, .error ⟨transactionId, err⟩), worker) := by
  cases r with
  | ok request =>
    simp only [answer, Uring.handleRequest, handleRequest_of_listBanned h]
    exact .inl rfl
  | error err =>
    cases err with
    | unsendable err => exact .inl rfl
    | sendable connectionId transactionId err =>
      cases hvalid : (worker.validator.connectionIdValid src connectionId).1 with
      | false => exact .inl (if_neg (by simp [hvalid]))
      | true => exact .inr ⟨connectionId, transactionId, err, rfl, hvalid, if_pos hvalid⟩

end

/-- Nothing changes for a listed sender, and nothing is sent unless it has sent a
malformed request with a connection id that is still valid. -/
theorem listed_silent_iff {worker : SocketWorker} {datagram : Datagram}
    (h : worker.isListBanned (CanonicalSocketAddr.new datagram.src) = true) (backend : Backend) :
    (backend.receive worker datagram).2 = worker ∧
      (backend.receive worker datagram = (none, worker) ↔
        ¬ worker.AnswersError backend datagram) := by
  cases hreceived : datagram.received backend with
  | none =>
    rw [receive_of_none hreceived]
    refine ⟨rfl, iff_of_true rfl ?_⟩
    rintro ⟨bytes, connectionId, hbytes, -⟩
    rw [hreceived] at hbytes
    cases hbytes
  | some bytes =>
    rw [receive_of_some hreceived]
    obtain heq | ⟨connectionId, transactionId, err, hsendable, hvalid, heq⟩ :=
      answer_of_listBanned h (Request.parseBytes bytes worker.config.maxScrapeTorrents)
    · rw [heq]
      refine ⟨rfl, iff_of_true rfl ?_⟩
      rintro ⟨bytes', connectionId, hbytes, hmalformed, hvalid⟩
      rw [hreceived] at hbytes
      cases hbytes
      obtain ⟨transactionId, err, hsendable⟩ := sendable_iff.mpr hmalformed
      rw [hsendable, answer, if_pos hvalid] at heq
      cases heq
    · rw [heq]
      refine ⟨rfl, iff_of_false ?_ ?_⟩
      · intro hnone
        cases hnone
      · intro hquiet
        exact hquiet ⟨bytes, connectionId, hreceived, sendable_iff.mp ⟨_, _, hsendable⟩, hvalid⟩

/-- A scrape with a connection id from before the ban. -/
def bannedScrape : Datagram :=
  emptyScrape ⟨.v4 ⟨#v[203, 0, 113, 7]⟩, 6881⟩ [4, 3, 2, 1, 0, 0, 0, 0]

theorem banned_scrape_unnoted :
    (Backend.mio.receive exampleWorker bannedScrape).2 = exampleWorker :=
  (listed_silent_iff (by decide) .mio).1

/-- The ban came after the connection id: the error goes out in both backends. -/
theorem banned_scrape_answered :
    exampleWorker.isListBanned (CanonicalSocketAddr.new bannedScrape.src) = true ∧
      (Backend.mio.receive exampleWorker bannedScrape).1 =
        some (CanonicalSocketAddr.new bannedScrape.src,
          .error ⟨9, "Full scrapes are not allowed"⟩) ∧
      (Backend.uring.receive exampleWorker bannedScrape).1 =
        some (CanonicalSocketAddr.new bannedScrape.src,
          .error ⟨9, "Full scrapes are not allowed"⟩) :=
  ⟨by decide, by decide, by decide⟩

end SocketWorker

end Aquatic.Udp
