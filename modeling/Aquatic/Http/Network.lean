import Aquatic.Http.ScrapeFanOut
import Aquatic.Lib.Calls

/-!
# Connections and swarm workers

Each connection handles its requests one after the other: it passes a request on to the swarm
workers, along the channel between its socket worker and each of them, and waits for their
responses. A swarm worker has a task for each socket worker, and all of them work on the same
torrent maps; between its tasks there are cleaning rounds and updates of the time until which
peers are valid. Channels of a mesh that are full make a connection wait.
-/

namespace Aquatic.Http
open Calls HttpProtocol
set_option autoImplicit false

/-- A request that a connection has passed on. `tickets` are the response channels, `receivers`
those that it still waits for. -/
structure Exchange where
  request : Request
  peerAddr : CanonicalSocketAddr
  tickets : List Nat
  receivers : List Nat
  pending : Option PendingScrapeResponse

structure Network where
  connections : Nat → Option Exchange
  board : Board ChannelRequest ChannelResponse
  swarmWorkers : Nat → TorrentMaps
  peerValidUntil : Nat → ValidUntil

namespace Network

inductive Action where
  | handleRequest (c : Nat) (accessList : AccessList) (peerAddr : CanonicalSocketAddr)
      (request : Request)
  | sendRequest (c : Nat)
  /-- The task of a swarm worker for a socket worker takes the next request. -/
  | handleChannelRequest (swarmWorker socketWorker : Nat) (rng : Rng)
  | sendResponse (swarmWorker socketWorker : Nat)
  /-- A connection receives one of the responses that it waits for. -/
  | receiveResponse (c ticket : Nat)
  /-- A connection waits for the responses to a scrape, and there are none left. -/
  | streamEnded (c : Nat)
  | clean (swarmWorker : Nat) (accessList : AccessList) (now : SecondsSinceServerStart)
  | updatePeerValidUntil (swarmWorker : Nat) (validUntil : ValidUntil)
  | closeConnection (c : Nat)

/-- What a connection has got for its request. -/
inductive Answer where
  | responded (response : Response)
  | failed (err : ConnectionError)
  | none

def init (peerValidUntil : Nat → ValidUntil) : Network :=
  ⟨fun _ => none, .empty, fun _ => .empty, peerValidUntil⟩

def setConnection (s : Network) (c : Nat) (exchange : Option Exchange) : Network :=
  { s with connections := Function.update s.connections c exchange }

def setSwarmWorker (s : Network) (i : Nat) (torrents : TorrentMaps) : Network :=
  { s with swarmWorkers := Function.update s.swarmWorkers i torrents }

/-- The count of a scrape that has been split up. -/
def pendingResponse (config : ServerConfig) : Request → Option PendingScrapeResponse
  | .announce _ => none
  | .scrape request => some (pendingScrapeResponse config request)

/-- The responses are awaited when all requests have been sent. -/
def awaiting (s : Network) (c : Nat) : Option Exchange :=
  if s.board.unsent.any fun call => call.client = c then none else s.connections c

/-- A response arrives. The channel of an announce is for one response to an announce, and so
are those of a scrape. -/
def receive (s : Network) (c ticket : Nat) (exchange : Exchange) :
    ChannelResponse → Option (Answer × Network)
  | .announce response =>
    match exchange.pending with
    | none => some (.responded (.announce response), s.setConnection c none)
    | some _ => none
  | .scrape response =>
    exchange.pending.bind fun pending =>
      (pending.merge response).map fun pending =>
        if pending.pendingWorkerResponses = 0 then
          (.responded (.scrape ⟨pending.stats⟩), s.setConnection c none)
        else
          (.none, s.setConnection c (some { exchange with
            receivers := exchange.receivers.erase ticket
            pending := some pending }))

/-- `socketWorker` is where a connection runs. -/
def step (config : ServerConfig) (socketWorker : Nat → Nat) (s : Network) :
    Action → Option (Answer × Network)
  | .handleRequest c accessList peerAddr request =>
    if (s.connections c).isSome then none
    else
      match channelRequests config accessList peerAddr request with
      | .error response => some (.responded response, s)
      | .ok requests =>
        let tickets := List.range' s.board.issued requests.length
        let exchange : Exchange :=
          ⟨request, peerAddr, tickets, tickets, pendingResponse config request⟩
        some (.none, { s.setConnection c (some exchange) with
          board := s.board.issue c
            (requests.map fun (i, request) => ((i, socketWorker c), request)) })
  | .sendRequest c => (s.board.send c).map fun board => (.none, { s with board })
  | .handleChannelRequest i j rng =>
    (s.board.handle (i, j) fun request =>
      ((s.swarmWorkers i).handleRequest config rng (s.peerValidUntil i) request).map
        fun (response, torrents, _) => (response, torrents)).map fun (torrents, board) =>
          (.none, { s.setSwarmWorker i torrents with board })
  | .sendResponse i j => (s.board.deliver (i, j)).map fun board => (.none, { s with board })
  | .receiveResponse c ticket =>
    (s.awaiting c).bind fun exchange =>
      if ticket ∈ exchange.receivers then
        (s.board.responses ticket).bind fun response => s.receive c ticket exchange response
      else none
  | .streamEnded c =>
    (s.awaiting c).bind fun exchange =>
      if exchange.receivers = [] then
        some (.failed (.scrapeChannelError
          "stream ended before all partial scrape responses received"), s.setConnection c none)
      else none
  | .clean i accessList now =>
    ((s.swarmWorkers i).clean config accessList now).map fun torrents =>
      (.none, s.setSwarmWorker i torrents)
  | .updatePeerValidUntil i validUntil =>
    some (.none, { s with peerValidUntil := Function.update s.peerValidUntil i validUntil })
  | .closeConnection c => some (.none, { s.setConnection c none with board := s.board.dismiss c })

end Network

end Aquatic.Http
