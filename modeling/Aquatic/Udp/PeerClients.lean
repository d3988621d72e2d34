import Aquatic.Udp.Shards

/-!
# Peer clients: what the statistics worker is told

The torrents of both address families with everything that their steps tell the
statistics worker, the thread that cleans one family after the other and sends
what it has collected on the way, and the worker, which counts peers by their id.
Histograms are left out.
-/

namespace Aquatic.Udp
open Collections
set_option autoImplicit false

namespace TorrentMapShards
variable {I : Type} [DecidableEq I]

/-- What an announce sends at once. -/
def announceMessages (config : Config) (s : TorrentMapShards I) :
    Action I → List StatisticsMessage
  | .announce worker rng =>
    match s.inFlight worker with
    | some flight =>
      match PeerMap.announce config (s.torrentData flight.torrentData).peerMap rng flight.request
        flight.ipAddress flight.validUntil with
      | some (_, messages, _) => messages
      | none => []
    | none => []
  | _ => []

/-- What the cleaning of a torrent adds to the messages of the round. -/
def cleaningMessages (config : Config) (s : TorrentMapShards I) :
    Action I → List StatisticsMessage
  | .cleanTorrent arc =>
    match s.cleaner with
    | .cleaning round _ _ =>
      match PeerMap.clean config (s.torrentData arc).peerMap round.now with
      | some (_, messages, _) => messages
      | none => []
    | _ => []
  | _ => []

/-- Steps that both families take together: a round goes through one after the
other, and they share the clock and the access list. -/
def Action.shared : Action I → Bool
  | .startRound _ | .tick _ | .updateAccessList _ => true
  | _ => false

end TorrentMapShards

/-- What the statistics are collected for. -/
structure StatisticsOutput where
  interval : Nat
  printToStdout : Bool
  writeHtmlToFile : Bool
  runPrometheusEndpoint : Bool
  deriving DecidableEq, Repr

/-- Only then there is a statistics worker. -/
def StatisticsOutput.active (output : StatisticsOutput) : Bool :=
  output.interval != 0 &&
    (output.printToStdout || output.writeHtmlToFile || output.runPrometheusEndpoint)

namespace StatisticsWorker

def processPeerClientData (config : Config) (output : StatisticsOutput) : Bool :=
  (output.writeHtmlToFile || output.runPrometheusEndpoint) && config.statistics.peerClients

/-- One message. `peers` counts the peers of an id; `none` stands for an underflow. -/
def handleMessage (processPeerClientData : Bool) (peers : IndexMap PeerId Nat) :
    StatisticsMessage → Option (IndexMap PeerId Nat)
  | .peerAdded peerId =>
    if processPeerClientData then some (peers.insert peerId ((peers.get peerId).getD 0 + 1))
    else some peers
  | .peerRemoved peerId =>
    if processPeerClientData then
      match peers.get peerId with
      | some count => do
        let count ← usizeSub count 1
        return if count = 0 then peers.swapRemove peerId else peers.insert peerId count
      | none => some peers
    else some peers

/-- What the worker has counted after the messages. -/
def handleMessages (processPeerClientData : Bool) (messages : List StatisticsMessage) :
    Option (IndexMap PeerId Nat) :=
  messages.foldlM (handleMessage processPeerClientData) IndexMap.empty

end StatisticsWorker

/-- Where the cleaning thread is in `clean_and_update_statistics`. -/
inductive CleaningThread where
  | sleeping
  | ipv4 (now : SecondsSinceServerStart)
  | ipv6
  | sending
  deriving DecidableEq, Repr

/-- `sent` is all that the channel was given so far, `statisticsMessages` what the
cleaning thread still has to send. -/
structure ClientStatistics where
  ipv4 : TorrentMapShards Ipv4AddrBytes
  ipv6 : TorrentMapShards Ipv6AddrBytes
  thread : CleaningThread
  statisticsMessages : List StatisticsMessage
  sent : List StatisticsMessage

namespace ClientStatistics

inductive Action where
  | ipv4 (act : TorrentMapShards.Action Ipv4AddrBytes)
  | ipv6 (act : TorrentMapShards.Action Ipv6AddrBytes)
  | startRound (now : SecondsSinceServerStart)
  | startIpv6
  | finishRound
  | sendMessage
  | sleep
  | tick (clock : SecondsSinceServerStart)
  | updateAccessList (accessList : AccessList)

def init : ClientStatistics where
  ipv4 := TorrentMapShards.init
  ipv6 := TorrentMapShards.init
  thread := .sleeping
  statisticsMessages := []
  sent := []

def step (config : Config) (output : StatisticsOutput) (s : ClientStatistics) :
    Action → Option ClientStatistics
  | .ipv4 act =>
    if act.shared then none
    else (s.ipv4.step config act).map fun ipv4 =>
      { s with
        ipv4 := ipv4
        sent := s.sent ++ s.ipv4.announceMessages config act
        statisticsMessages := s.statisticsMessages ++ s.ipv4.cleaningMessages config act }
  | .ipv6 act =>
    if act.shared then none
    else (s.ipv6.step config act).map fun ipv6 =>
      { s with
        ipv6 := ipv6
        sent := s.sent ++ s.ipv6.announceMessages config act
        statisticsMessages := s.statisticsMessages ++ s.ipv6.cleaningMessages config act }
  | .startRound now =>
    match s.thread with
    | .sleeping => (s.ipv4.step config (.startRound now)).map fun ipv4 =>
      { s with ipv4 := ipv4, thread := .ipv4 now }
    | _ => none
  | .startIpv6 =>
    match s.thread, s.ipv4.cleaner with
    | .ipv4 now, .idle => (s.ipv6.step config (.startRound now)).map fun ipv6 =>
      { s with ipv6 := ipv6, thread := .ipv6 }
    | _, _ => none
  | .finishRound =>
    match s.thread, s.ipv6.cleaner with
    | .ipv6, .idle =>
      some { s with
        thread := .sending
        statisticsMessages := if output.active then s.statisticsMessages else [] }
    | _, _ => none
  | .sendMessage =>
    match s.thread, s.statisticsMessages with
    | .sending, message :: messages =>
      some { s with sent := s.sent ++ [message], statisticsMessages := messages }
    | _, _ => none
  | .sleep =>
    match s.thread, s.statisticsMessages with
    | .sending, [] => some { s with thread := .sleeping }
    | _, _ => none
  | .tick clock => do
    let ipv4 ← s.ipv4.step config (.tick clock)
    let ipv6 ← s.ipv6.step config (.tick clock)
    return { s with ipv4 := ipv4, ipv6 := ipv6 }
  | .updateAccessList accessList => do
    let ipv4 ← s.ipv4.step config (.updateAccessList accessList)
    let ipv6 ← s.ipv6.step config (.updateAccessList accessList)
    return { s with ipv4 := ipv4, ipv6 := ipv6 }

end ClientStatistics

end Aquatic.Udp
