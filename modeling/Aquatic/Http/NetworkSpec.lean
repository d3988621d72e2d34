import Aquatic.Http.Network

/-!
# The swarm workers are one tracker

Whatever is sent, handled, answered and cleaned up in whatever order: each request that is passed
on, and each part of a scrape, is an operation on one map of torrents. It is done once, at one
moment between the request and the response, and the response is the one it had then.
-/

namespace Aquatic.Http
open Calls Collections HttpProtocol Swarm Transition
set_option autoImplicit false

namespace Torrents
variable {I : Type}

/-- The torrents that a worker has. -/
def part (config : ServerConfig) (i : Nat) (ts : Torrents I) : Torrents I := fun infoHash =>
  if calculateRequestConsumerIndex config infoHash = i then ts infoHash else none

/-- One worker cleans its torrents. -/
noncomputable def cleanPart (config : ServerConfig) (i : Nat) (ts : Torrents I)
    (accessList : AccessList) (now : SecondsSinceServerStart) : Torrents I := fun infoHash =>
  if calculateRequestConsumerIndex config infoHash = i then
    ts.clean config.toConfig accessList now infoHash
  else ts infoHash

variable {config : ServerConfig} {i : Nat} {ts : Torrents I}

theorem part_none (config : ServerConfig) (i : Nat) :
    part config i (fun _ => none : Torrents I) = fun _ => none :=
  funext fun _ => ite_self _

theorem announced_part {request : AnnounceRequest}
    (h : calculateRequestConsumerIndex config request.infoHash = i) :
    (ts.part config i).announced request = ts.announced request := by
  rw [announced, part, if_pos h]
  rfl

theorem part_cleanPart (accessList : AccessList) (now : SecondsSinceServerStart) :
    (ts.cleanPart config i accessList now).part config i =
      (ts.part config i).clean config.toConfig accessList now := by
  funext infoHash
  by_cases howner : calculateRequestConsumerIndex config infoHash = i
  · simp only [part, cleanPart, clean, if_pos howner]
  · simp only [part, clean, if_neg howner, Option.bind_none]

theorem part_cleanPart_of_ne {j : Nat} (h : j ≠ i) (accessList : AccessList)
    (now : SecondsSinceServerStart) :
    (ts.cleanPart config i accessList now).part config j = ts.part config j := by
  funext infoHash
  unfold part cleanPart
  split
  · rename_i howner
    rw [if_neg (howner ▸ h)]
  · rfl

theorem scrapeOne_part {infoHash : InfoHash}
    (h : calculateRequestConsumerIndex config infoHash = i) :
    (ts.part config i).scrapeOne infoHash = ts.scrapeOne infoHash := by
  rw [scrapeOne, part, if_pos h]
  rfl

variable [DecidableEq I]

theorem part_announce {request : AnnounceRequest}
    (h : calculateRequestConsumerIndex config request.infoHash = i) (validUntil : ValidUntil)
    (peerIpAddress : I) : (ts.announce validUntil peerIpAddress request).part config i =
      (ts.part config i).announce validUntil peerIpAddress request := by
  funext infoHash
  rw [announce, announced_part h]
  by_cases heq : infoHash = request.infoHash
  · rw [part, heq, if_pos h, announce, if_pos rfl, if_pos rfl]
  · rw [if_neg heq, part, part, announce, if_neg heq]

theorem part_announce_of_ne {request : AnnounceRequest}
    (h : calculateRequestConsumerIndex config request.infoHash ≠ i) (validUntil : ValidUntil)
    (peerIpAddress : I) :
    (ts.announce validUntil peerIpAddress request).part config i = ts.part config i := by
  funext infoHash
  unfold part
  split
  · rename_i howner
    rw [announce, if_neg]
    rintro rfl
    exact h howner
  · rfl

end Torrents

structure Reference where
  ipv4 : Torrents Ipv4Addr
  ipv6 : Torrents Ipv6Addr

namespace Reference

def empty : Reference := ⟨fun _ => none, fun _ => none⟩

def announce (r : Reference) (validUntil : ValidUntil) (peerAddr : CanonicalSocketAddr)
    (request : HttpProtocol.AnnounceRequest) : Reference :=
  match peerAddr.addr.ip with
  | .v4 peerIpAddress =>
    { r with ipv4 := r.ipv4.announce validUntil peerIpAddress request.announce }
  | .v6 peerIpAddress =>
    { r with ipv6 := r.ipv6.announce validUntil peerIpAddress request.announce }

noncomputable def scrapeOne (r : Reference) (peerAddr : CanonicalSocketAddr)
    (infoHash : InfoHash) : ScrapeStatistics :=
  if peerAddr.isIpv4 then r.ipv4.scrapeOne infoHash else r.ipv6.scrapeOne infoHash

noncomputable def cleanPart (config : ServerConfig) (i : Nat) (r : Reference)
    (accessList : AccessList) (now : SecondsSinceServerStart) : Reference :=
  ⟨r.ipv4.cleanPart config i accessList now, r.ipv6.cleanPart config i accessList now⟩

/-- The answer to an announce, from what is registered of its torrent. -/
def Answers (config : ServerConfig) (r : Reference) (peerAddr : CanonicalSocketAddr)
    (request : HttpProtocol.AnnounceRequest) (response : AnnounceResponse) : Prop :=
  match peerAddr.addr.ip with
  | .v4 peerIpAddress => ∃ a, PeerMap.Answered (r.ipv4.announced request.announce)
      ⟨peerIpAddress, request.announce.port⟩
      (maxNumPeersToTake config.toConfig request.announce) a ∧
    response = ⟨config.peerAnnounceInterval, a.seeders, a.leechers, a.peers, [], none⟩
  | .v6 peerIpAddress => ∃ a, PeerMap.Answered (r.ipv6.announced request.announce)
      ⟨peerIpAddress, request.announce.port⟩
      (maxNumPeersToTake config.toConfig request.announce) a ∧
    response = ⟨config.peerAnnounceInterval, a.seeders, a.leechers, [], a.peers, none⟩

end Reference

/-- A worker has its part of the torrents. -/
structure TorrentMaps.Has (config : ServerConfig) (i : Nat) (m : TorrentMaps) (r : Reference) :
    Prop where
  ipv4 : m.ipv4.Refines (r.ipv4.part config i)
  ipv6 : m.ipv6.Refines (r.ipv6.part config i)

namespace TorrentMaps.Has
variable {config : ServerConfig} {i : Nat} {m m' : TorrentMaps} {r : Reference}

theorem empty (config : ServerConfig) (i : Nat) : TorrentMaps.empty.Has config i .empty := by
  constructor
  · change TorrentMap.Refines _ (Torrents.part config i fun _ => none)
    rw [Torrents.part_none]
    exact ⟨nofun, fun _ => rfl⟩
  · change TorrentMap.Refines _ (Torrents.part config i fun _ => none)
    rw [Torrents.part_none]
    exact ⟨nofun, fun _ => rfl⟩

/-- An announce is answered from one torrent, which the worker has. -/
theorem announced (h : m.Has config i r) {rng rng' : Rng} {validUntil : ValidUntil}
    {peerAddr : CanonicalSocketAddr} {request : HttpProtocol.AnnounceRequest}
    {response : AnnounceResponse}
    (howner : calculateRequestConsumerIndex config request.infoHash = i)
    (hm : m.handleAnnounceRequest config rng validUntil peerAddr request =
      some (response, m', rng')) :
    r.Answers config peerAddr request response ∧
      m'.Has config i (r.announce validUntil peerAddr request) := by
  unfold TorrentMaps.handleAnnounceRequest at hm
  unfold Reference.Answers Reference.announce
  cases hip : peerAddr.addr.ip with
  | v4 peerIpAddress =>
    obtain ⟨a, ipv4, rng'', hupsert, hanswered, hrefines⟩ :=
      announce_answered config.toConfig h.ipv4 rng validUntil peerIpAddress request.announce
    simp only [hip, hupsert] at hm
    cases hm
    rw [Torrents.announced_part howner] at hanswered
    refine ⟨⟨a, hanswered, rfl⟩, ?_, h.ipv6⟩
    rw [Torrents.part_announce howner]
    exact hrefines
  | v6 peerIpAddress =>
    obtain ⟨a, ipv6, rng'', hupsert, hanswered, hrefines⟩ :=
      announce_answered config.toConfig h.ipv6 rng validUntil peerIpAddress request.announce
    simp only [hip, hupsert] at hm
    cases hm
    rw [Torrents.announced_part howner] at hanswered
    refine ⟨⟨a, hanswered, rfl⟩, h.ipv4, ?_⟩
    rw [Torrents.part_announce howner]
    exact hrefines

/-- It is no matter of the other workers. -/
theorem announce_of_ne (h : m.Has config i r) {request : HttpProtocol.AnnounceRequest}
    (hne : calculateRequestConsumerIndex config request.infoHash ≠ i) (validUntil : ValidUntil)
    (peerAddr : CanonicalSocketAddr) : m.Has config i (r.announce validUntil peerAddr request) := by
  unfold Reference.announce
  cases peerAddr.addr.ip with
  | v4 peerIpAddress =>
    refine ⟨?_, h.ipv6⟩
    rw [Torrents.part_announce_of_ne hne]
    exact h.ipv4
  | v6 peerIpAddress =>
    refine ⟨h.ipv4, ?_⟩
    rw [Torrents.part_announce_of_ne hne]
    exact h.ipv6

theorem scraped (h : m.Has config i r) {peerAddr : CanonicalSocketAddr} {request : ScrapeRequest}
    {response : ScrapeResponse}
    (howner : ∀ infoHash ∈ request.infoHashes, calculateRequestConsumerIndex config infoHash = i)
    (hm : m.handleScrapeRequest config peerAddr request = some response) :
    FanOut.Tells (r.scrapeOne peerAddr)
      (request.infoHashes.take config.protocol.maxScrapeTorrents) response.files := by
  have hone : ∀ infoHash, m.scrapeOne peerAddr infoHash =
      some (Reference.scrapeOne ⟨r.ipv4.part config i, r.ipv6.part config i⟩ peerAddr
        infoHash) := by
    intro infoHash
    unfold TorrentMaps.scrapeOne Reference.scrapeOne
    split
    · exact scrapeOne_eq h.ipv4 infoHash
    · exact scrapeOne_eq h.ipv6 infoHash
  obtain ⟨response', hresponse, htells⟩ :=
    TorrentMaps.handleScrapeRequest_tells config hone request
  cases hm.symm.trans hresponse
  apply htells.congr_tell
  intro infoHash hmem
  have howner' := howner infoHash (List.mem_of_mem_take hmem)
  unfold Reference.scrapeOne
  rw [Torrents.scrapeOne_part howner', Torrents.scrapeOne_part howner']

theorem cleaned (h : m.Has config i r) {accessList : AccessList} {now : SecondsSinceServerStart}
    (hm : m.clean config accessList now = some m') :
    m'.Has config i (r.cleanPart config i accessList now) := by
  obtain ⟨ipv4, hipv4, hrefines4⟩ := clean_simulates config.toConfig h.ipv4 accessList now
  obtain ⟨ipv6, hipv6, hrefines6⟩ := clean_simulates config.toConfig h.ipv6 accessList now
  unfold TorrentMaps.clean at hm
  simp only [hipv4, hipv6] at hm
  cases hm
  unfold Reference.cleanPart
  constructor
  · rw [Torrents.part_cleanPart]
    exact hrefines4
  · rw [Torrents.part_cleanPart]
    exact hrefines6

theorem cleanPart_of_ne (h : m.Has config i r) {j : Nat} (hne : i ≠ j) (accessList : AccessList)
    (now : SecondsSinceServerStart) : m.Has config i (r.cleanPart config j accessList now) := by
  unfold Reference.cleanPart
  constructor
  · rw [Torrents.part_cleanPart_of_ne hne]
    exact h.ipv4
  · rw [Torrents.part_cleanPart_of_ne hne]
    exact h.ipv6

end TorrentMaps.Has

namespace Network

/-- What the workers are together, and all that has been asked of them. -/
structure Ledger where
  torrents : Reference
  operations : Operations ChannelRequest ChannelResponse

/-- What is answered to a request: all that may be, in the case of a scrape. -/
def Fits (config : ServerConfig) : ChannelRequest → ChannelResponse → Prop
  | .announce _ _, .announce _ => True
  | .scrape request _, .scrape response => ∀ infoHash, response.files[infoHash]?.isSome = true ↔
      infoHash ∈ request.infoHashes.take config.protocol.maxScrapeTorrents
  | _, _ => False

/-- The operations that are not to be seen, and do nothing to the torrents. -/
def Action.quiet : Action → Bool
  | .sendRequest _ | .sendResponse _ _ | .receiveResponse _ _ | .updatePeerValidUntil _ _
  | .closeConnection _ => true
  | _ => false

/-- What a step means for the torrents, for the operations and for the client. -/
inductive Means (config : ServerConfig) (s : Network) (l : Ledger) :
    Action → Answer → Ledger → Prop where
  | refused {c accessList peerAddr request response}
      (hrequests : channelRequests config accessList peerAddr request = .error response) :
      Means config s l (.handleRequest c accessList peerAddr request) (.responded response) l
  | asked {c accessList peerAddr request requests}
      (hrequests : channelRequests config accessList peerAddr request = .ok requests)
      (hfresh : ∀ t, s.board.issued ≤ t → l.operations t = none) :
      Means config s l (.handleRequest c accessList peerAddr request) .none
        { l with operations := l.operations.ask s.board.issued (requests.map Prod.snd) }
  | announced {i j rng t request peerAddr response}
      (hasked : l.operations t = some ⟨.announce request peerAddr, none⟩)
      (hanswers : l.torrents.Answers config peerAddr request response) :
      Means config s l (.handleChannelRequest i j rng) .none
        ⟨l.torrents.announce (s.peerValidUntil i) peerAddr request,
          l.operations.done t (.announce request peerAddr) (.announce response)⟩
  | scraped {i j rng t request peerAddr response}
      (hasked : l.operations t = some ⟨.scrape request peerAddr, none⟩)
      (htells : FanOut.Tells (l.torrents.scrapeOne peerAddr)
        (request.infoHashes.take config.protocol.maxScrapeTorrents) response.files) :
      Means config s l (.handleChannelRequest i j rng) .none
        { l with operations := l.operations.done t (.scrape request peerAddr) (.scrape response) }
  | announceResponded {c t e request response} (he : s.connections c = some e)
      (hrequest : e.request = .announce request) (htickets : e.tickets = [t])
      (hdone : l.operations t =
        some ⟨.announce request e.peerAddr, some (.announce response)⟩) :
      Means config s l (.receiveResponse c t) (.responded (.announce response)) l
  | scrapeResponded {c t e request response} (he : s.connections c = some e)
      (hrequest : e.request = .scrape request)
      (hfiles : ∀ (infoHash : InfoHash) (statistics : ScrapeStatistics),
        response.files[infoHash]? = some statistics → ∃ t ∈ e.tickets, ∃ part files,
          l.operations t = some ⟨.scrape part e.peerAddr, some (.scrape files)⟩ ∧
          files.files[infoHash]? = some statistics)
      (hall : ∀ infoHash : InfoHash, response.files[infoHash]?.isSome = true ↔
        infoHash ∈ answeredHashes config request) :
      Means config s l (.receiveResponse c t) (.responded (.scrape response)) l
  | failed {c e err} (he : s.connections c = some e) (hrequest : e.request = .scrape ⟨[]⟩) :
      Means config s l (.streamEnded c) (.failed err) l
  | cleaned {i accessList now} :
      Means config s l (.clean i accessList now) .none
        { l with torrents := l.torrents.cleanPart config i accessList now }
  | quiet {action} (haction : action.quiet = true) : Means config s l action .none l

/-- A request goes to the worker that has its torrents. -/
def Placed (config : ServerConfig) (call : Call ChannelRequest) : Prop :=
  ∀ infoHash ∈ call.request.infoHashes,
    calculateRequestConsumerIndex config infoHash = call.lane.1

/-- The statistics are those of the operations, and none of these are left out. -/
structure MergedFrom (ops : Operations ChannelRequest ChannelResponse) (tickets : List Nat)
    (stats : Std.TreeMap InfoHash ScrapeStatistics) : Prop where
  told : ∀ {infoHash : InfoHash} {statistics : ScrapeStatistics},
    stats[infoHash]? = some statistics → ∃ t ∈ tickets, ∃ request response,
      ops t = some ⟨request, some (.scrape response)⟩ ∧ response.files[infoHash]? = some statistics
  all : ∀ {t request response} {infoHash : InfoHash}, t ∈ tickets →
    ops t = some ⟨request, some (.scrape response)⟩ →
    response.files[infoHash]?.isSome = true → stats[infoHash]?.isSome = true

/-- The channels whose responses have been received. -/
def received (e : Exchange) : List Nat := e.tickets.filter fun t => t ∉ e.receivers

/-- What has been received is in the pending response. -/
def Pending (ops : Operations ChannelRequest ChannelResponse) (e : Exchange) :
    Option PendingScrapeResponse → Prop
  | none => e.receivers = e.tickets ∧ ∃ request, e.request = .announce request
  | some pending => (∃ request, e.request = .scrape request) ∧
      pending.pendingWorkerResponses = e.receivers.length ∧
      MergedFrom ops (received e) pending.stats

/-- The exchange is about operations that have been asked for. None of those that it waits for
is lost, and those that it has received are done. -/
structure Tracked (config : ServerConfig) (board : Board ChannelRequest ChannelResponse)
    (ops : Operations ChannelRequest ChannelResponse) (c : Nat) (e : Exchange) : Prop where
  asked : ∃ accessList requests,
    channelRequests config accessList e.peerAddr e.request = .ok requests ∧
    List.Forall₂ (fun t request => ∃ answer, ops t = some ⟨request.2, answer⟩) e.tickets requests
  receivers : e.receivers ⊆ e.tickets
  nodup : e.receivers.Nodup
  unfinished : e.receivers = [] → e.tickets = []
  kept : ∀ t ∈ e.receivers, board.OnTheWay c t
  received : ∀ t ∈ received e, ∃ request a, ops t = some ⟨request, some a⟩
  pending : Pending ops e e.pending

structure Tracks (config : ServerConfig) (s : Network) (l : Ledger) : Prop where
  sound : Board.Sound (Placed config) s.board l.operations
  fits : ∀ {t request a}, l.operations t = some ⟨request, some a⟩ → Fits config request a
  workers : ∀ i, (s.swarmWorkers i).Has config i l.torrents
  exchanges : ∀ {c e}, s.connections c = some e → Tracked config s.board l.operations c e

variable {config : ServerConfig} {board board' : Board ChannelRequest ChannelResponse}
  {ops ops' : Operations ChannelRequest ChannelResponse} {c : Nat} {e : Exchange}

theorem MergedFrom.mono {tickets : List Nat} {stats : Std.TreeMap InfoHash ScrapeStatistics}
    (h : MergedFrom ops tickets stats)
    (hdone : ∀ t ∈ tickets, ∃ request a, ops t = some ⟨request, some a⟩)
    (hgrows : Operations.Grows ops ops') : MergedFrom ops' tickets stats where
  told := by
    intro infoHash statistics hstats
    obtain ⟨t, ht, request, response, hop, hfile⟩ := h.told hstats
    exact ⟨t, ht, request, response, hgrows.answered hop, hfile⟩
  all := by
    intro t request response infoHash ht hop hfile
    obtain ⟨request', a, hbefore⟩ := hdone t ht
    have hafter := hgrows.answered hbefore
    rw [hop] at hafter
    cases hafter
    exact h.all ht hbefore hfile

theorem Tracked.mono (h : Tracked config board ops c e) (hgrows : Operations.Grows ops ops')
    (hway : ∀ {t}, board.OnTheWay c t → board'.OnTheWay c t) :
    Tracked config board' ops' c e where
  asked := by
    obtain ⟨accessList, requests, hrequests, hasked⟩ := h.asked
    refine ⟨accessList, requests, hrequests, hasked.imp ?_⟩
    rintro t request ⟨answer, hop⟩
    obtain ⟨answer', hop', -⟩ := hgrows t _ answer hop
    exact ⟨answer', hop'⟩
  receivers := h.receivers
  nodup := h.nodup
  unfinished := h.unfinished
  kept := fun t ht => hway (h.kept t ht)
  received := by
    intro t ht
    obtain ⟨request, a, hop⟩ := h.received t ht
    exact ⟨request, a, hgrows.answered hop⟩
  pending := by
    have hpending := h.pending
    revert hpending
    cases e.pending with
    | none => exact id
    | some pending =>
      rintro ⟨hscrape, hcount, hmerged⟩
      exact ⟨hscrape, hcount, hmerged.mono h.received hgrows⟩

theorem tracks_init (config : ServerConfig) (peerValidUntil : Nat → ValidUntil) :
    Tracks config (init peerValidUntil) ⟨.empty, fun _ => none⟩ where
  sound := Board.sound_empty
  fits := nofun
  workers := fun i => .empty config i
  exchanges := nofun

variable {s s' : Network} {l : Ledger} {answer : Answer} {socketWorker : Nat → Nat}

/-- Calls move on, and the exchanges wait as before. -/
theorem Tracks.moved (hs : Tracks config s l)
    (hsound : Board.Sound (Placed config) board l.operations)
    (hway : ∀ {c t}, s.board.OnTheWay c t → board.OnTheWay c t) :
    Tracks config { s with board } l where
  sound := hsound
  fits := hs.fits
  workers := hs.workers
  exchanges := fun he => (hs.exchanges he).mono (.refl _) hway

/-- An operation is done, and the workers are as it left them. -/
theorem Tracks.done (hs : Tracks config s l) {t : Nat} {request : ChannelRequest}
    {a : ChannelResponse} (hasked : l.operations t = some ⟨request, none⟩)
    (hfits : Fits config request a)
    (hsound : Board.Sound (Placed config) board (l.operations.done t request a))
    (hway : ∀ {c t}, s.board.OnTheWay c t → board.OnTheWay c t) {i : Nat} {m : TorrentMaps}
    {r : Reference} (hi : m.Has config i r)
    (hothers : ∀ j, j ≠ i → (s.swarmWorkers j).Has config j r) :
    Tracks config { s.setSwarmWorker i m with board } ⟨r, l.operations.done t request a⟩ where
  sound := hsound
  fits := by
    intro t' request' a' hop
    dsimp only at hop
    unfold Operations.done at hop
    by_cases heq : t' = t
    · rw [heq, Function.update_self] at hop
      cases hop
      exact hfits
    · rw [Function.update_of_ne heq] at hop
      exact hs.fits hop
  workers := by
    intro j
    change (Function.update s.swarmWorkers i m j).Has config j r
    by_cases heq : j = i
    · rw [heq, Function.update_self]
      exact hi
    · rw [Function.update_of_ne heq]
      exact hothers j heq
  exchanges := fun he => (hs.exchanges he).mono (Operations.grows_done hasked a) hway

theorem means_of_handleChannelRequest (hs : Tracks config s l) {i j : Nat} {rng : Rng}
    (h : step config socketWorker s (.handleChannelRequest i j rng) = some (answer, s')) :
    ∃ l', Means config s l (.handleChannelRequest i j rng) answer l' ∧ Tracks config s' l' := by
  obtain ⟨⟨m, board⟩, hhandle, heq⟩ := Option.map_eq_some_iff.mp h
  cases heq
  obtain ⟨call, a, hlane, hplaced, hasked, hanswer, hsound, hway⟩ := hs.sound.handle hhandle
  obtain ⟨⟨_, _, rng'⟩, hrequest, heq⟩ := Option.map_eq_some_iff.mp hanswer
  cases heq
  have howner : ∀ infoHash ∈ call.request.infoHashes,
      calculateRequestConsumerIndex config infoHash = i := by
    intro infoHash hmem
    rw [hplaced infoHash hmem, hlane]
  cases hq : call.request with
  | announce request peerAddr =>
    rw [hq] at hasked hrequest hsound howner
    obtain ⟨⟨response, _, _⟩, hannounce, heq⟩ := Option.bind_eq_some_iff.mp hrequest
    cases heq
    have howner := howner request.infoHash List.mem_cons_self
    obtain ⟨hanswers, hhas⟩ := (hs.workers i).announced howner hannounce
    have hfits : Fits config (.announce request peerAddr) (.announce response) := trivial
    refine ⟨_, .announced hasked hanswers, hs.done hasked hfits hsound hway hhas ?_⟩
    intro k hk
    exact (hs.workers k).announce_of_ne (howner ▸ hk.symm) _ _
  | scrape request peerAddr =>
    rw [hq] at hasked hrequest hsound howner
    obtain ⟨response, hscrape, heq⟩ := Option.bind_eq_some_iff.mp hrequest
    cases heq
    have htells := (hs.workers i).scraped howner hscrape
    have hfits : Fits config (.scrape request peerAddr) (.scrape response) := htells.isSome_iff
    refine ⟨_, .scraped hasked htells, hs.done hasked hfits hsound hway (hs.workers i) ?_⟩
    intro k _
    exact hs.workers k

/-- One connection begins an exchange, ends one or gets on with it. -/
theorem Tracks.setConnection (hs : Tracks config s l) {c : Nat} {opt : Option Exchange}
    (h : ∀ e, opt = some e → Tracked config s.board l.operations c e) :
    Tracks config (s.setConnection c opt) l where
  sound := hs.sound
  fits := hs.fits
  workers := hs.workers
  exchanges := by
    intro c' e he
    change Function.update s.connections c opt c' = some e at he
    by_cases heq : c' = c
    · rw [heq, Function.update_self] at he
      exact heq ▸ h e he
    · rw [Function.update_of_ne heq] at he
      exact hs.exchanges he

/-- The pending response before anything has arrived. -/
theorem pending_pendingResponse (ops : Operations ChannelRequest ChannelResponse)
    {accessList : AccessList} {peerAddr : CanonicalSocketAddr} {request : Request}
    {requests : List (Nat × ChannelRequest)} (tickets : List Nat)
    (hrequests : channelRequests config accessList peerAddr request = .ok requests)
    (hlength : tickets.length = requests.length) :
    Pending ops ⟨request, peerAddr, tickets, tickets, pendingResponse config request⟩
      (pendingResponse config request) := by
  cases request with
  | announce request => exact ⟨rfl, request, rfl⟩
  | scrape request =>
    cases hrequests
    rw [List.length_map] at hlength
    refine ⟨⟨request, rfl⟩, hlength.symm, ?_, ?_⟩
    · intro infoHash statistics hstats
      change (∅ : Std.TreeMap InfoHash ScrapeStatistics)[infoHash]? = some statistics at hstats
      rw [Std.TreeMap.getElem?_emptyc] at hstats
      cases hstats
    · intro t request' response infoHash ht
      obtain ⟨hmem, hnot⟩ := List.mem_filter.mp ht
      exact absurd hmem (of_decide_eq_true hnot)

theorem means_of_handleRequest (hs : Tracks config s l) {accessList : AccessList}
    {peerAddr : CanonicalSocketAddr} {request : Request}
    (h : step config socketWorker s (.handleRequest c accessList peerAddr request) =
      some (answer, s')) :
    ∃ l', Means config s l (.handleRequest c accessList peerAddr request) answer l' ∧
      Tracks config s' l' := by
  simp only [step] at h
  split at h
  · cases h
  cases hrequests : channelRequests config accessList peerAddr request with
  | error response =>
    rw [hrequests] at h
    cases h
    exact ⟨l, .refused hrequests, hs⟩
  | ok requests =>
    rw [hrequests] at h
    cases h
    let lanes := requests.map fun sent => ((sent.1, socketWorker c), sent.2)
    have hsnd : lanes.map Prod.snd = requests.map Prod.snd := List.map_map ..
    have hlength : lanes.length = requests.length := List.length_map _
    have hplaced : ∀ call ∈ Board.calls c s.board.issued lanes, Placed config call := by
      intro call hcall infoHash hmem
      obtain ⟨k, hk, -, -⟩ := Board.mem_calls hcall
      obtain ⟨⟨i, request'⟩, hrequest, heq⟩ := List.mem_map.mp (List.mem_of_getElem? hk)
      obtain ⟨hlane, hcall⟩ := Prod.mk.inj heq
      rw [← hcall] at hmem
      rw [← hlane]
      exact (consumerIndex_eq hrequests hrequest hmem).symm
    obtain ⟨hsound, hgrows⟩ := hs.sound.issue c lanes hplaced
    rw [hsnd] at hsound hgrows
    refine ⟨_, .asked hrequests hs.sound.fresh, hsound, ?_, hs.workers, ?_⟩
    · intro t request' a hop
      dsimp only at hop
      unfold Operations.ask at hop
      split at hop
      · exact hs.fits hop
      · obtain ⟨_, -, heq⟩ := Option.map_eq_some_iff.mp hop
        cases heq
    · intro c' e he
      change Function.update s.connections c _ c' = some e at he
      by_cases heq : c' = c
      · rw [heq, Function.update_self] at he
        cases he
        rw [heq]
        refine ⟨⟨accessList, requests, hrequests, ?_⟩, fun _ ht => ht, List.nodup_range', id, ?_,
          ?_, pending_pendingResponse _ _ hrequests (List.length_range' ..)⟩
        · have hasked := l.operations.ask_range' s.board.issued (requests.map Prod.snd)
          rw [List.length_map, List.forall₂_map_right_iff] at hasked
          exact hasked.imp fun t request hop => ⟨none, hop⟩
        · intro t ht
          obtain ⟨hle, hlt⟩ := List.mem_range'_1.mp ht
          exact Board.OnTheWay.issue c lanes (.inr ⟨rfl, hle, hlength.symm ▸ hlt⟩)
        · intro t ht
          obtain ⟨hmem, hnot⟩ := List.mem_filter.mp ht
          exact absurd hmem (of_decide_eq_true hnot)
      · rw [Function.update_of_ne heq] at he
        exact (hs.exchanges he).mono hgrows fun ht => Board.OnTheWay.issue c lanes (.inl ht)

theorem exists_of_forall₂ {α β : Type} {R : α → β → Prop} {xs : List α} {ys : List β}
    (h : List.Forall₂ R xs ys) : (∀ x ∈ xs, ∃ y ∈ ys, R x y) ∧ ∀ y ∈ ys, ∃ x ∈ xs, R x y := by
  induction h with
  | nil => exact ⟨nofun, nofun⟩
  | @cons x y xs ys hxy _ ih =>
    constructor
    · intro x' hx'
      rcases List.mem_cons.mp hx' with rfl | hx'
      · exact ⟨y, List.mem_cons_self, hxy⟩
      · obtain ⟨y', hy', hR⟩ := ih.1 x' hx'
        exact ⟨y', List.mem_cons_of_mem _ hy', hR⟩
    · intro y' hy'
      rcases List.mem_cons.mp hy' with rfl | hy'
      · exact ⟨x, List.mem_cons_self, hxy⟩
      · obtain ⟨x', hx', hR⟩ := ih.2 y' hy'
        exact ⟨x', List.mem_cons_of_mem _ hx', hR⟩

/-- An announce is one operation. -/
theorem Tracked.announce (h : Tracked config board ops c e)
    {request : HttpProtocol.AnnounceRequest} (hrequest : e.request = .announce request) :
    ∃ t answer, e.tickets = [t] ∧ ops t = some ⟨.announce request e.peerAddr, answer⟩ := by
  obtain ⟨accessList, requests, hrequests, hasked⟩ := h.asked
  rw [hrequest, channelRequests] at hrequests
  split at hrequests
  · cases hrequests
    obtain ⟨t, tickets, ⟨answer, hop⟩, hnil, heq⟩ := List.forall₂_cons_right_iff.mp hasked
    cases hnil
    exact ⟨t, answer, heq, hop⟩
  · cases hrequests

/-- A scrape has an operation for each of its parts. -/
theorem Tracked.scrape (h : Tracked config board ops c e) {request : ScrapeRequest}
    (hrequest : e.request = .scrape request) :
    (∀ t ∈ e.tickets, ∃ part ∈ scrapeRequests config request, ∃ answer,
      ops t = some ⟨.scrape part.2 e.peerAddr, answer⟩) ∧
    ∀ part ∈ scrapeRequests config request, ∃ t ∈ e.tickets, ∃ answer,
      ops t = some ⟨.scrape part.2 e.peerAddr, answer⟩ := by
  obtain ⟨accessList, requests, hrequests, hasked⟩ := h.asked
  rw [hrequest] at hrequests
  cases hrequests
  exact exists_of_forall₂ (List.forall₂_map_right_iff.mp hasked)

/-- Another response is merged. -/
theorem MergedFrom.insertMany {tickets tickets' : List Nat}
    {stats : Std.TreeMap InfoHash ScrapeStatistics} (h : MergedFrom ops tickets stats) {t : Nat}
    {request : ChannelRequest} {response : ScrapeResponse}
    (hop : ops t = some ⟨request, some (.scrape response)⟩)
    (hmem : ∀ t', t' ∈ tickets' ↔ t' ∈ tickets ∨ t' = t) :
    MergedFrom ops tickets' (stats.insertMany response.files.toList) where
  told := by
    intro infoHash statistics hstats
    rw [FanOut.getElem?_insertMany_toList] at hstats
    rcases Option.or_eq_some_iff.mp hstats with hfile | ⟨-, hstats⟩
    · exact ⟨t, (hmem t).mpr (.inr rfl), request, response, hop, hfile⟩
    · obtain ⟨t', ht', htold⟩ := h.told hstats
      exact ⟨t', (hmem t').mpr (.inl ht'), htold⟩
  all := by
    intro t' request' response' infoHash ht' hop' hfile
    rw [FanOut.getElem?_insertMany_toList, Option.isSome_or, Bool.or_eq_true]
    rcases (hmem t').mp ht' with hbefore | rfl
    · exact .inr (h.all hbefore hop' hfile)
    · rw [hop] at hop'
      cases hop'
      exact .inl hfile

/-- What a scrape responds when all of its operations are done. -/
theorem scrapeResponded_of_merged (hs : Tracks config s l) {t : Nat} (he : s.connections c = some e)
    {request : ScrapeRequest} (hrequest : e.request = .scrape request)
    {stats : Std.TreeMap InfoHash ScrapeStatistics}
    (hmerged : MergedFrom l.operations e.tickets stats)
    (hdone : ∀ t ∈ e.tickets, ∃ request a, l.operations t = some ⟨request, some a⟩) :
    Means config s l (.receiveResponse c t) (.responded (.scrape ⟨stats⟩)) l := by
  obtain ⟨hparts, htickets⟩ := (hs.exchanges he).scrape hrequest
  have htold : ∀ (infoHash : InfoHash) (statistics : ScrapeStatistics),
      stats[infoHash]? = some statistics → ∃ t ∈ e.tickets, ∃ part ∈ scrapeRequests config request,
        ∃ files, l.operations t = some ⟨.scrape part.2 e.peerAddr, some (.scrape files)⟩ ∧
          files.files[infoHash]? = some statistics := by
    intro infoHash statistics hstats
    obtain ⟨t, ht, asked, response, hop, hfile⟩ := hmerged.told hstats
    obtain ⟨part, hpart, answer, hop'⟩ := hparts t ht
    rw [hop] at hop'
    cases hop'
    exact ⟨t, ht, part, hpart, response, hop, hfile⟩
  refine .scrapeResponded he hrequest ?_ ?_
  · intro infoHash statistics hstats
    obtain ⟨t, ht, part, -, files, hop, hfile⟩ := htold infoHash statistics hstats
    exact ⟨t, ht, part.2, files, hop, hfile⟩
  · intro infoHash
    rw [answeredHashes, List.mem_flatMap]
    constructor
    · intro hsome
      obtain ⟨statistics, hstats⟩ := Option.isSome_iff_exists.mp hsome
      obtain ⟨t, -, part, hpart, files, hop, hfile⟩ := htold infoHash statistics hstats
      exact ⟨part, hpart, (hs.fits hop infoHash).mp (hfile ▸ rfl)⟩
    · rintro ⟨part, hpart, hmem⟩
      obtain ⟨t, ht, answer, hop⟩ := htickets part hpart
      obtain ⟨asked, a, hop'⟩ := hdone t ht
      rw [hop] at hop'
      cases hop'
      have hfits := hs.fits hop
      cases a with
      | announce response => cases hfits
      | scrape response => exact hmerged.all ht hop ((hfits infoHash).mpr hmem)

theorem connections_of_awaiting (h : s.awaiting c = some e) : s.connections c = some e := by
  unfold awaiting at h
  split at h
  · cases h
  · exact h

theorem eq_of_merge {pending pending' : PendingScrapeResponse} {response : ScrapeResponse}
    (h : pending.merge response = some pending') :
    pending'.stats = pending.stats.insertMany response.files.toList ∧
      pending.pendingWorkerResponses = pending'.pendingWorkerResponses + 1 := by
  obtain ⟨n, hn, heq⟩ := Option.bind_eq_some_iff.mp h
  cases heq
  unfold usizeSub at hn
  split at hn
  · cases hn
    refine ⟨rfl, ?_⟩
    dsimp only
    omega
  · cases hn

/-- The exchange when one more response has been merged. -/
def without (e : Exchange) (t : Nat) (pending : PendingScrapeResponse) : Exchange :=
  { e with
    receivers := e.receivers.erase t
    pending := some pending }

theorem mem_received_without {t : Nat} {pending : PendingScrapeResponse}
    (h : Tracked config board ops c e) (ht : t ∈ e.receivers) (t' : Nat) :
    t' ∈ received (without e t pending) ↔ t' ∈ received e ∨ t' = t := by
  change t' ∈ e.tickets.filter (fun t' => t' ∉ e.receivers.erase t) ↔
    t' ∈ e.tickets.filter (fun t' => t' ∉ e.receivers) ∨ t' = t
  rw [List.mem_filter, List.mem_filter, decide_eq_true_eq, decide_eq_true_eq,
    h.nodup.mem_erase_iff]
  by_cases heq : t' = t
  · rw [heq]
    simp [h.receivers ht]
  · simp [heq]

theorem received_without_done {t : Nat} {pending : PendingScrapeResponse}
    (h : Tracked config board ops c e) (ht : t ∈ e.receivers)
    (hop : ∃ request a, ops t = some ⟨request, some a⟩) :
    ∀ t' ∈ received (without e t pending), ∃ request a, ops t' = some ⟨request, some a⟩ := by
  intro t' ht'
  rcases (mem_received_without h ht t').mp ht' with hbefore | rfl
  · exact h.received t' hbefore
  · exact hop

theorem means_of_receiveResponse (hs : Tracks config s l) {t : Nat}
    (h : step config socketWorker s (.receiveResponse c t) = some (answer, s')) :
    ∃ l', Means config s l (.receiveResponse c t) answer l' ∧ Tracks config s' l' := by
  obtain ⟨e, hawaiting, h⟩ := Option.bind_eq_some_iff.mp h
  have he := connections_of_awaiting hawaiting
  have htracked := hs.exchanges he
  split at h
  on_goal 2 => cases h
  rename_i hreceiver
  obtain ⟨response, hresponse, h⟩ := Option.bind_eq_some_iff.mp h
  obtain ⟨asked, hop⟩ := hs.sound.response hresponse
  have hpending := htracked.pending
  cases response with
  | announce response =>
    unfold receive at h
    cases hnone : e.pending with
    | some pending =>
      rw [hnone] at h
      cases h
    | none =>
      rw [hnone] at h hpending
      cases h
      obtain ⟨hreceivers, request, hrequest⟩ := hpending
      obtain ⟨t', answer, htickets, hop'⟩ := htracked.announce hrequest
      rw [hreceivers, htickets] at hreceiver
      cases List.mem_singleton.mp hreceiver
      rw [hop] at hop'
      cases hop'
      exact ⟨l, .announceResponded he hrequest htickets hop, hs.setConnection nofun⟩
  | scrape response =>
    obtain ⟨pending, hsome, h⟩ := Option.bind_eq_some_iff.mp h
    obtain ⟨pending', hmerge, h⟩ := Option.map_eq_some_iff.mp h
    rw [hsome] at hpending
    obtain ⟨⟨request, hrequest⟩, hcount, hmerged⟩ := hpending
    obtain ⟨hstats, hcount'⟩ := eq_of_merge hmerge
    rw [hcount] at hcount'
    have hmerged' : MergedFrom l.operations (received (without e t pending')) pending'.stats := by
      rw [hstats]
      exact hmerged.insertMany hop (mem_received_without htracked hreceiver)
    have hreceived : ∀ t' ∈ received (without e t pending'), ∃ request a,
        l.operations t' = some ⟨request, some a⟩ :=
      received_without_done htracked hreceiver ⟨asked, _, hop⟩
    split at h
    · rename_i hzero
      cases h
      have hnil : e.receivers.erase t = [] := by
        rw [← List.length_eq_zero_iff, List.length_erase_of_mem hreceiver]
        omega
      have hall : received (without e t pending') = e.tickets := by
        apply List.filter_eq_self.mpr
        intro t' _
        have hnot : t' ∉ e.receivers.erase t := hnil ▸ List.not_mem_nil
        exact decide_eq_true hnot
      rw [hall] at hmerged' hreceived
      exact ⟨l, scrapeResponded_of_merged hs he hrequest hmerged' hreceived, hs.setConnection nofun⟩
    · rename_i hmore
      cases h
      refine ⟨l, .quiet rfl, hs.setConnection ?_⟩
      rintro _ ⟨⟩
      have hlength : pending'.pendingWorkerResponses = (e.receivers.erase t).length := by
        rw [List.length_erase_of_mem hreceiver]
        omega
      refine ⟨htracked.asked, fun _ ht => htracked.receivers (List.mem_of_mem_erase ht),
        htracked.nodup.erase t, ?_, fun t ht => htracked.kept t (List.mem_of_mem_erase ht),
        hreceived, ⟨request, hrequest⟩, hlength, hmerged'⟩
      intro hnil
      exact absurd (hlength.trans (congrArg List.length hnil)) hmore

theorem means_of_streamEnded (hs : Tracks config s l)
    (h : step config socketWorker s (.streamEnded c) = some (answer, s')) :
    ∃ l', Means config s l (.streamEnded c) answer l' ∧ Tracks config s' l' := by
  obtain ⟨e, hawaiting, h⟩ := Option.bind_eq_some_iff.mp h
  have he := connections_of_awaiting hawaiting
  have htracked := hs.exchanges he
  split at h
  on_goal 2 => cases h
  rename_i hreceivers
  cases h
  have htickets := htracked.unfinished hreceivers
  have hscrape : ∃ request, e.request = .scrape request := by
    cases hrequest : e.request with
    | scrape request => exact ⟨request, rfl⟩
    | announce request =>
      obtain ⟨t, answer, hone, -⟩ := htracked.announce hrequest
      rw [htickets] at hone
      cases hone
  obtain ⟨request, hrequest⟩ := hscrape
  refine ⟨l, .failed he ?_, hs.setConnection nofun⟩
  have hparts := (htracked.scrape hrequest).2
  rw [hrequest]
  suffices hnil : request.infoHashes = [] by rw [← hnil]
  by_contra hne
  obtain ⟨infoHash, rest, hcons⟩ := List.exists_cons_of_ne_nil hne
  obtain ⟨⟨i, group⟩, hgroup, -⟩ := (FanOut.exists_group_iff
    (calculateRequestConsumerIndex config) request.infoHashes infoHash).mpr
      (hcons ▸ List.mem_cons_self)
  obtain ⟨t, ht, -⟩ := hparts _ (List.mem_map_of_mem hgroup)
  rw [htickets] at ht
  cases ht

theorem means_of_step (hs : Tracks config s l) {action : Action}
    (h : step config socketWorker s action = some (answer, s')) :
    ∃ l', Means config s l action answer l' ∧ Tracks config s' l' := by
  cases action with
  | handleRequest c accessList peerAddr request => exact means_of_handleRequest hs h
  | sendRequest c =>
    obtain ⟨board, hsend, heq⟩ := Option.map_eq_some_iff.mp h
    cases heq
    obtain ⟨hsound, hway⟩ := hs.sound.send hsend
    exact ⟨l, .quiet rfl, hs.moved hsound hway⟩
  | handleChannelRequest i j rng => exact means_of_handleChannelRequest hs h
  | sendResponse i j =>
    obtain ⟨board, hdeliver, heq⟩ := Option.map_eq_some_iff.mp h
    cases heq
    obtain ⟨hsound, hway⟩ := hs.sound.deliver hdeliver
    exact ⟨l, .quiet rfl, hs.moved hsound hway⟩
  | receiveResponse c t => exact means_of_receiveResponse hs h
  | streamEnded c => exact means_of_streamEnded hs h
  | clean i accessList now =>
    obtain ⟨m, hclean, heq⟩ := Option.map_eq_some_iff.mp h
    cases heq
    refine ⟨_, .cleaned, hs.sound, hs.fits, ?_, hs.exchanges⟩
    intro j
    change (Function.update s.swarmWorkers i m j).Has config j _
    by_cases heq : j = i
    · rw [heq, Function.update_self]
      exact (hs.workers i).cleaned hclean
    · rw [Function.update_of_ne heq]
      exact (hs.workers j).cleanPart_of_ne heq _ _
  | updatePeerValidUntil i validUntil =>
    cases h
    exact ⟨l, .quiet rfl, hs.sound, hs.fits, hs.workers, hs.exchanges⟩
  | closeConnection c =>
    cases h
    obtain ⟨hsound, hway⟩ := hs.sound.dismiss c
    refine ⟨l, .quiet rfl, hsound, hs.fits, hs.workers, ?_⟩
    intro c' e he
    change Function.update s.connections c none c' = some e at he
    by_cases heq : c' = c
    · rw [heq, Function.update_self] at he
      cases he
    · rw [Function.update_of_ne heq] at he
      exact (hs.exchanges he).mono (.refl _) (hway heq)

/-- Requests linearize: every step is one step of a single tracker with all torrents. -/
theorem requests_linearize (config : ServerConfig) (socketWorker : Nat → Nat)
    (peerValidUntil : Nat → ValidUntil) (as : List Action) :
    Follows (step config socketWorker) (Means config) (Tracks config) (init peerValidUntil)
      ⟨.empty, fun _ => none⟩ as := by
  have keep : ∀ {s action answer s'}, True →
      step config socketWorker s action = some (answer, s') → True := fun _ _ => trivial
  refine follows_of_simulation keep ?_ trivial (tracks_init config peerValidUntil) as
  intro s l action answer s' _ hs h
  exact means_of_step hs h

end Network

end Aquatic.Http
