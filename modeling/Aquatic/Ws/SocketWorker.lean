import Aquatic.Lib.Tasks
import Aquatic.Lib.Transition
import Aquatic.Ws.ConnectionHandles
import Aquatic.Ws.PendingScrapes

/-!
# A WebSocket socket worker

The worker accepts connections up to a limit and starts a task for each. By the handles that it
keeps, it passes on what swarm workers have for the connections, and tells those to close that
have been idle for too long, or that have run for too long on a replaced certificate.
-/

namespace Aquatic.Ws
open Collections
set_option autoImplicit false

structure SocketWorkerConfig where
  maxConnectionsPerWorker : Nat
  maxConnectionIdle : UInt32
  closeAfterTlsUpdateGracePeriod : UInt32
  outMessageConsumerId : ConsumerId

/-- What a connection's reader and writer work with. The time and the channel to the writer are
shared with the handle. Once the connection is closed, its receiver is gone, and what is left is
the clean-up. -/
structure ConnectionRunner where
  connectionValidUntil : ValidUntil
  outMessages : ArrayVec (OutMessageMeta × WriterMessage) localChannelSize
  pendingScrapeSlab : Nat → Option PendingScrapeResponse
  closed : Bool

namespace ConnectionRunner

/-- What goes on in one connection. -/
inductive Action where
  /-- The reader has taken a scrape, with info hashes of so many swarm workers, and the slab has
  handed out a key. -/
  | scrapeRequest (workers key : Nat)
  | errorResponse (response : ErrorResponse)
  /-- The writer takes a message; sending it may fail or take too long. -/
  | writeOutMessage (sent : Bool) (now : SecondsSinceServerStart)
  /-- The reader or the writer ends, or the worker has told the connection to close. -/
  | close

def new (config : SocketWorkerConfig) (now : SecondsSinceServerStart) : ConnectionRunner :=
  ⟨.newWithNow now config.maxConnectionIdle, .empty, fun _ => none, false⟩

def close (runner : ConnectionRunner) : ConnectionRunner :=
  { runner with outMessages := .empty, closed := true }

def setSlot (runner : ConnectionRunner) (key : Nat) (slot : Option PendingScrapeResponse) :
    ConnectionRunner :=
  { runner with
    pendingScrapeSlab := fun k => if k = key then slot else runner.pendingScrapeSlab k }

/-- `try_send`, from the handle: a full channel takes nothing, and no more does a closed one. -/
def receiveOutMessage (message : OutMessageMeta × WriterMessage) (runner : ConnectionRunner) :
    ConnectionRunner :=
  if runner.closed then runner
  else
    match runner.outMessages.push message with
    | some outMessages => { runner with outMessages }
    | none => runner

/-- Whether a message extends the time that the connection is valid. -/
def isResponse : WriterMessage → Bool
  | .scrapeResponse _ => true
  | .other (.announceResponse _) => true
  | .other _ => false

/-- What the peer has got, and the connection after that. -/
def sendOutMessage (config : SocketWorkerConfig) (runner : ConnectionRunner)
    (message : WriterMessage) (sent : Bool) (now : SecondsSinceServerStart) :
    Option WriterMessage × ConnectionRunner :=
  if sent then
    (some message,
      if isResponse message then
        { runner with connectionValidUntil := .newWithNow now config.maxConnectionIdle }
      else runner)
  else (none, runner.close)

/-- A turn of the writer's loop, which waits for a message; `none` where a count underflows. -/
def writeOutMessage (config : SocketWorkerConfig) (runner : ConnectionRunner) (sent : Bool)
    (now : SecondsSinceServerStart) : Option (Option WriterMessage × ConnectionRunner) :=
  match runner.outMessages.toList with
  | [] => none
  | (metadata, message) :: _ =>
    let runner := { runner with outMessages := runner.outMessages.eraseIdx 0 }
    match message with
    | .other message => some (runner.sendOutMessage config (.other message) sent now)
    | .scrapeResponse response =>
      match metadata.pendingScrapeId with
      | none => some (none, runner.close)
      | some id =>
        match runner.pendingScrapeSlab id.index.toNat with
        | none => some (none, runner.close)
        | some pending =>
          (pending.merge response).map fun pending =>
            if pending.pendingWorkerOutMessages = 0 then
              (runner.setSlot id.index.toNat none).sendOutMessage config
                (.scrapeResponse ⟨pending.stats⟩) sent now
            else (none, runner.setSlot id.index.toNat (some pending))

/-- What the connection with that id sends to its peer, if anything. -/
def step (config : SocketWorkerConfig) (connectionId : ConnectionId) (runner : ConnectionRunner)
    (action : Action) : Option (Option WriterMessage × ConnectionRunner) :=
  if runner.closed then none
  else
    match action with
    | .scrapeRequest workers key =>
      if (runner.pendingScrapeSlab key).isSome then none
      -- Reached 256 pending scrape responses.
      else if 256 ≤ key then some (none, runner.close)
      else some (none, runner.setSlot key (some ⟨workers, .empty⟩))
    | .errorResponse response =>
      -- The reader waits for room.
      (runner.outMessages.push
        (⟨config.outMessageConsumerId, connectionId, none⟩, .other (.errorResponse response))).map
          fun outMessages => (none, { runner with outMessages })
    | .writeOutMessage sent now => runner.writeOutMessage config sent now
    | .close => some (none, runner.close)

end ConnectionRunner

/-- What only the handle of a connection has. -/
structure TlsState where
  optTlsConfig : Option RustlsConfig
  validUntilAfterTlsUpdate : Option ValidUntil

structure SocketWorker where
  connections : Tasks.Table ConnectionId TlsState ConnectionRunner
  optTlsConfig : Option RustlsConfig

/-- The handle of a connection, with the time that it shares. -/
def TlsState.handle (tls : TlsState) (runner : ConnectionRunner) : ConnectionHandle :=
  ⟨runner.connectionValidUntil, tls.optTlsConfig, tls.validUntilAfterTlsUpdate⟩

def ConnectionHandle.tls (handle : ConnectionHandle) : TlsState :=
  ⟨handle.optTlsConfig, handle.validUntilAfterTlsUpdate⟩

namespace SocketWorker

inductive Action where
  /-- A connection comes in. Its address may be unknown, and its task may fail to start; `key` is
  what the slot map hands out. -/
  | accept (peerAddr spawned : Bool) (now : SecondsSinceServerStart) (key : ConnectionId)
  /-- The clock is read again for connections whose certificate has been replaced. -/
  | cleanConnections (now : SecondsSinceServerStart)
      (clock : ConnectionId → SecondsSinceServerStart)
  | updateTlsConfig (config : RustlsConfig)
  /-- A message from a swarm worker. -/
  | receiveOutMessage (metadata : OutMessageMeta) (message : WriterMessage)
  | connection (n : Nat) (action : ConnectionRunner.Action)
  /-- The clean-up of a closed connection is done, and its handle is removed. -/
  | remove (n : Nat)

inductive Answer where
  | rejected
  | noPeerAddr
  | notSpawned
  | accepted (n : Nat)
  | told (connections : List ConnectionId)
  | sent (message : Option WriterMessage)
  | none

def init (optTlsConfig : Option RustlsConfig) : SocketWorker := ⟨.empty, optTlsConfig⟩

/-- The limit of the connections is reached; 0 is for no limit. -/
def Full (config : SocketWorkerConfig) (currentConnections : Nat) : Prop :=
  0 < config.maxConnectionsPerWorker ∧ config.maxConnectionsPerWorker ≤ currentConnections

instance (config : SocketWorkerConfig) (currentConnections : Nat) :
    Decidable (Full config currentConnections) := inferInstanceAs (Decidable (_ ∧ _))

/-- The visit of a handle by `clean_connections`. -/
def cleanConnection (config : SocketWorkerConfig) (now : SecondsSinceServerStart)
    (clock : ConnectionId → SecondsSinceServerStart) (optCurrentTlsConfig : Option RustlsConfig)
    (id : ConnectionId) (tls : TlsState) (runner : ConnectionRunner) : Option TlsState :=
  ((tls.handle runner).clean now (clock id) optCurrentTlsConfig
    config.closeAfterTlsUpdateGracePeriod).map ConnectionHandle.tls

def step (config : SocketWorkerConfig) (s : SocketWorker) : Action → Option (Answer × SocketWorker)
  | .accept peerAddr spawned now key =>
    if Full config s.connections.handles.len then some (.rejected, s)
    else if !peerAddr then some (.noPeerAddr, s)
    else
      (s.connections.start key ⟨s.optTlsConfig, none⟩ (.new config now)).bind fun connections =>
        if spawned then some (.accepted s.connections.started, { s with connections })
        else (connections.finish s.connections.started fun _ => true).map fun connections =>
          (.notSpawned, { s with connections })
  | .cleanConnections now clock =>
    let visit := cleanConnection config now clock s.optTlsConfig
    some (.told (s.connections.dropped visit).keys,
      { s with connections := s.connections.sweep visit })
  | .updateTlsConfig config =>
    if s.optTlsConfig.isSome then some (.none, { s with optTlsConfig := some config }) else none
  | .receiveOutMessage metadata message =>
    some (.none, { s with
      connections := s.connections.modifyShared metadata.connectionId
        (ConnectionRunner.receiveOutMessage (metadata, message)) })
  | .connection n action =>
    (s.connections.act n fun id runner => runner.step config id action).map
      fun (message, connections) => (.sent message, { s with connections })
  | .remove n =>
    (s.connections.finish n ConnectionRunner.closed).map fun connections =>
      (.none, { s with connections })

end SocketWorker

end Aquatic.Ws
