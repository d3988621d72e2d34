import Mathlib.Data.List.Perm.Basic
import Aquatic.Lib.FanOut
import Aquatic.Ws.Connections

/-!
# Pending scrapes of a WebSocket connection

One connection, from the scrape requests that its reader takes to the responses that its
writer sends. Swarm workers answer in any order and the socket worker passes their messages
on in any order, but only as long as the local channel to the writer has room.
-/

namespace Aquatic.Ws
open Collections Transition
set_option autoImplicit false

def localChannelSize : Nat := 16

structure PendingScrapeResponse where
  pendingWorkerOutMessages : Nat
  stats : IndexMap InfoHash ScrapeStatistics

/-- A partial response has arrived; `none` where the count would underflow. -/
def PendingScrapeResponse.merge (pending : PendingScrapeResponse) (response : ScrapeResponse) :
    Option PendingScrapeResponse := do
  let stats := response.files.entries.foldl (fun stats e => stats.insert e.1 e.2) pending.stats
  let pendingWorkerOutMessages ← usizeSub pending.pendingWorkerOutMessages 1
  return { pendingWorkerOutMessages, stats }

/-- What the writer receives; everything but scrape responses it sends as it is. -/
inductive WriterMessage where
  | scrapeResponse (response : ScrapeResponse)
  | other (message : OutMessage)

def WriterMessage.isScrapeResponse : WriterMessage → Bool
  | .scrapeResponse _ => true
  | .other _ => false

/-- A slot in use. The number says which of the accepted scrapes it belongs to. -/
structure ScrapeSlot where
  number : Nat
  response : PendingScrapeResponse

/-- `unsent` are the requests that the reader's loop has not sent yet. What has been accepted
and answered is kept for the record. -/
structure ScrapeConnection where
  pendingScrapeSlab : Nat → Option ScrapeSlot
  unsent : List (Nat × InMessageMeta × ScrapeRequest)
  inMessages : List (Nat × InMessageMeta × ScrapeRequest)
  outMessages : List (OutMessageMeta × WriterMessage)
  localMessages : List (OutMessageMeta × WriterMessage)
  accepted : Nat
  answered : List (Nat × ScrapeResponse)

namespace ScrapeConnection

/-- A connection that is told to close gets no more messages, as one that has ended. -/
inductive State where
  | open (c : ScrapeConnection)
  | closed

inductive Action where
  /-- The reader takes a scrape request. `blocked` is the outcome of the security checks, `key`
  what the slab hands out. -/
  | scrapeRequest (request : ScrapeRequest) (blocked : Bool) (key : Nat)
  /-- The reader refuses another message. -/
  | errorResponse (response : ErrorResponse)
  | sendInMessage
  /-- A swarm worker handles one of the requests sent to it. -/
  | handleInMessage (i : Nat) (torrents : TorrentMaps)
  /-- A swarm worker has something else for the connection. -/
  | outMessage (message : OutMessage)
  | receiveOutMessage (i : Nat)
  | writeOutMessage
  | close

def init : ScrapeConnection := ⟨fun _ => none, [], [], [], [], 0, []⟩

def setSlot (c : ScrapeConnection) (key : Nat) (slot : Option ScrapeSlot) : ScrapeConnection :=
  { c with pendingScrapeSlab := fun k => if k = key then slot else c.pendingScrapeSlab k }

section Step
variable (config : Config) (maxScrapeTorrents : Nat) (connection : Connection)
  (ipVersion : IpVersion)

def makeConnectionMeta (pendingScrapeId : Option PendingScrapeId) : InMessageMeta :=
  { metaOf connection ipVersion with pendingScrapeId }

/-- The reader waits for room. -/
def sendErrorResponse (c : ScrapeConnection) (response : ErrorResponse) : Option State :=
  if c.localMessages.length < localChannelSize then
    some (.open { c with localMessages := c.localMessages ++
      [((makeConnectionMeta connection ipVersion none).out, .other (.errorResponse response))] })
  else none

/-- The loop over the workers; the requests are sent one by one. -/
def workerRequests (infoHashesByWorker : Std.TreeMap Nat (List InfoHash))
    (pendingScrapeId : PendingScrapeId) : List (Nat × InMessageMeta × ScrapeRequest) :=
  infoHashesByWorker.toList.map fun e =>
    (e.1, makeConnectionMeta connection ipVersion (some pendingScrapeId),
      ⟨some (.multiple e.2)⟩)

/-- The reader's part of a scrape, up to the sends. -/
def handleScrapeRequest (c : ScrapeConnection) (request : ScrapeRequest) (blocked : Bool)
    (key : Nat) : Option State :=
  if blocked then c.sendErrorResponse connection ipVersion ⟨"Access denied", some .scrape, none⟩
  else
    match request.infoHashes with
    | none =>
      c.sendErrorResponse connection ipVersion
        ⟨"Full scrapes are not allowed", some .scrape, none⟩
    | some infoHashes =>
      if (c.pendingScrapeSlab key).isSome then none
      -- Reached 256 pending scrape responses.
      else if 256 ≤ key then some .closed
      else
        let infoHashesByWorker :=
          FanOut.groupBy (calculateInMessageConsumerIndex config) infoHashes.asVec
        let slot : ScrapeSlot := ⟨c.accepted, infoHashesByWorker.size, IndexMap.empty⟩
        some (.open { c.setSlot key (some slot) with
          unsent := workerRequests connection ipVersion infoHashesByWorker ⟨UInt8.ofNat key⟩
          accepted := c.accepted + 1 })

/-- What a swarm worker answers, as the messages that the socket worker receives. -/
def handleInMessage (torrents : TorrentMaps) (e : Nat × InMessageMeta × ScrapeRequest) :
    Option (List (OutMessageMeta × WriterMessage)) :=
  (torrents.handleScrapeRequest maxScrapeTorrents e.2.1 e.2.2).map fun responses =>
    responses.map fun r => (r.1, .scrapeResponse r.2)

/-- `try_send`: a full channel takes nothing. -/
def receiveOutMessage (c : ScrapeConnection) (message : OutMessageMeta × WriterMessage) :
    ScrapeConnection :=
  if c.localMessages.length < localChannelSize then
    { c with localMessages := c.localMessages ++ [message] }
  else c

/-- The writer's part of a scrape response; its loop ends where the slot is not found. -/
def writeScrapeResponse (c : ScrapeConnection) (pendingScrapeId : Option PendingScrapeId)
    (response : ScrapeResponse) : Option State :=
  match pendingScrapeId with
  | none => some .closed
  | some id =>
    match c.pendingScrapeSlab id.index.toNat with
    | none => some .closed
    | some slot =>
      (slot.response.merge response).map fun pending =>
        if pending.pendingWorkerOutMessages = 0 then
          .open { c.setSlot id.index.toNat none with
            answered := c.answered ++ [(slot.number, ⟨pending.stats⟩)] }
        else .open (c.setSlot id.index.toNat (some ⟨slot.number, pending⟩))

def step : State → Action → Option State
  | .closed, _ => none
  | .open c, .scrapeRequest request blocked key =>
    if c.unsent = [] then
      c.handleScrapeRequest config connection ipVersion request blocked key
    else none
  | .open c, .errorResponse response =>
    if c.unsent = [] then c.sendErrorResponse connection ipVersion response else none
  | .open c, .sendInMessage =>
    match c.unsent with
    | request :: requests =>
      some (.open { c with unsent := requests, inMessages := c.inMessages ++ [request] })
    | [] => none
  | .open c, .handleInMessage i torrents =>
    c.inMessages[i]?.bind fun e =>
      (handleInMessage maxScrapeTorrents torrents e).map fun responses =>
        .open { c with
          inMessages := c.inMessages.eraseIdx i
          outMessages := c.outMessages ++ responses }
  | .open c, .outMessage message =>
    some (.open { c with outMessages := c.outMessages ++
      [((makeConnectionMeta connection ipVersion none).out, .other message)] })
  | .open c, .receiveOutMessage i =>
    c.outMessages[i]?.map fun message =>
      .open (receiveOutMessage { c with outMessages := c.outMessages.eraseIdx i } message)
  | .open c, .writeOutMessage =>
    match c.localMessages with
    | (metadata, .scrapeResponse response) :: messages =>
      writeScrapeResponse { c with localMessages := messages } metadata.pendingScrapeId response
    | (_, .other _) :: messages => some (.open { c with localMessages := messages })
    | [] => none
  | .open _, .close => some .closed

end Step

/-- The partial requests and responses on the way to the writer whose pending scrape satisfies
`p`. -/
def onTheWay (c : ScrapeConnection) (p : Option PendingScrapeId → Bool) : Nat :=
  (c.unsent.countP fun e => p e.2.1.pendingScrapeId) +
  (c.inMessages.countP fun e => p e.2.1.pendingScrapeId) +
  (c.outMessages.countP fun e => e.2.isScrapeResponse && p e.1.pendingScrapeId) +
  (c.localMessages.countP fun e => e.2.isScrapeResponse && p e.1.pendingScrapeId)

def isFor (key : Nat) (pendingScrapeId : Option PendingScrapeId) : Bool :=
  pendingScrapeId.any fun id => id.index.toNat == key

/-- No accepted request is empty, and no partial response finds the local channel full. -/
def Faultless : State → Action → Prop
  | .open _, .scrapeRequest request blocked key => blocked = false → key < 256 →
    ∀ infoHashes, request.infoHashes = some infoHashes → infoHashes.asVec ≠ []
  | .open c, .receiveOutMessage i => ∀ metadata response,
    c.outMessages[i]? = some (metadata, .scrapeResponse response) →
      c.localMessages.length < localChannelSize
  | _, _ => True

variable {config : Config} {maxScrapeTorrents : Nat} {connection : Connection}
  {ipVersion : IpVersion} {c c' : ScrapeConnection}

/-- Requests have info hashes, so that swarm workers answer them. -/
def Requested (c : ScrapeConnection) : Prop :=
  ∀ e ∈ c.unsent ++ c.inMessages, ∃ infoHashes, e.2.2.infoHashes = some infoHashes

/-- One constructor for each thing that can happen, in a step that is faultless or is not. -/
inductive Stepped (c c' : ScrapeConnection) (faultless : Prop) : Prop where
  | moved (hfault : faultless) (hslab : c'.pendingScrapeSlab = c.pendingScrapeSlab)
      (haccepted : c'.accepted = c.accepted) (hanswered : c'.answered = c.answered)
      (hway : ∀ p, c'.onTheWay p = c.onTheWay p)
  | accepted (key : Nat) {slot : ScrapeSlot}
      (hfault : faultless ↔ 0 < slot.response.pendingWorkerOutMessages)
      (hkey : key < 256) (hvacant : c.pendingScrapeSlab key = none)
      (hslab : ∀ k, c'.pendingScrapeSlab k =
        if k = key then some slot else c.pendingScrapeSlab k)
      (hnumber : slot.number = c.accepted) (haccepted : c'.accepted = c.accepted + 1)
      (hanswered : c'.answered = c.answered)
      (hway : ∀ p, c'.onTheWay p = c.onTheWay p +
        if p (some ⟨UInt8.ofNat key⟩) then slot.response.pendingWorkerOutMessages else 0)
  | dropped (id : Option PendingScrapeId) (hfault : ¬ faultless)
      (hslab : c'.pendingScrapeSlab = c.pendingScrapeSlab)
      (hway : ∀ p, c.onTheWay p = c'.onTheWay p + if p id then 1 else 0)
  | merged {id : PendingScrapeId} {slot : ScrapeSlot} (slot' : ScrapeSlot) (hfault : faultless)
      (hslot : c.pendingScrapeSlab id.index.toNat = some slot)
      (hpending : slot.response.pendingWorkerOutMessages =
        slot'.response.pendingWorkerOutMessages + 1)
      (hpos : 0 < slot'.response.pendingWorkerOutMessages) (hnumber : slot'.number = slot.number)
      (hslab : ∀ k, c'.pendingScrapeSlab k =
        if k = id.index.toNat then some slot' else c.pendingScrapeSlab k)
      (haccepted : c'.accepted = c.accepted) (hanswered : c'.answered = c.answered)
      (hway : ∀ p, c.onTheWay p = c'.onTheWay p + if p (some id) then 1 else 0)
  | answered {id : PendingScrapeId} {slot : ScrapeSlot} {response : ScrapeResponse}
      (hfault : faultless) (hslot : c.pendingScrapeSlab id.index.toNat = some slot)
      (hpending : slot.response.pendingWorkerOutMessages = 1)
      (hslab : ∀ k, c'.pendingScrapeSlab k =
        if k = id.index.toNat then none else c.pendingScrapeSlab k)
      (haccepted : c'.accepted = c.accepted)
      (hanswered : c'.answered = c.answered ++ [(slot.number, response)])
      (hway : ∀ p, c.onTheWay p = c'.onTheWay p + if p (some id) then 1 else 0)

theorem countP_of_getElem? {T : Type} {xs : List T} {i : Nat} {x : T} (h : xs[i]? = some x)
    (p : T → Bool) : xs.countP p = (xs.eraseIdx i).countP p + if p x then 1 else 0 := by
  obtain ⟨hi, rfl⟩ := List.getElem?_eq_some_iff.mp h
  rw [← (List.getElem_cons_eraseIdx_perm hi).countP_eq, List.countP_cons]

theorem stepped_sendErrorResponse {response : ErrorResponse} {s : State} {faultless : Prop}
    (hc : c.Requested) (hfault : faultless)
    (h : c.sendErrorResponse connection ipVersion response = some s) :
    ∃ c', s = .open c' ∧ Stepped c c' faultless ∧ c'.Requested := by
  rw [sendErrorResponse] at h
  split at h
  · cases h
    refine ⟨_, rfl, .moved hfault rfl rfl rfl ?_, hc⟩
    intro p
    simp [onTheWay, WriterMessage.isScrapeResponse]
  · cases h

theorem countP_workerRequests (groups : Std.TreeMap Nat (List InfoHash)) (id : PendingScrapeId)
    (p : Option PendingScrapeId → Bool) :
    (workerRequests connection ipVersion groups id).countP (fun e => p e.2.1.pendingScrapeId) =
      if p (some id) then groups.size else 0 := by
  rw [workerRequests, List.countP_map, ← Std.TreeMap.length_toList]
  cases hp : p (some id) with
  | true =>
    rw [if_pos rfl, List.countP_eq_length]
    intro e _
    exact hp
  | false =>
    rw [if_neg Bool.false_ne_true, List.countP_eq_zero]
    intro e _
    exact Bool.eq_false_iff.mp hp

/-- A slot is taken, and its requests are to be sent. -/
theorem stepped_accept {infoHashes : List InfoHash} {key : Nat} {faultless : Prop}
    (hc : c.Requested) (hunsent : c.unsent = []) (hvacant : c.pendingScrapeSlab key = none)
    (hkey : key < 256) (hfault : faultless ↔ infoHashes ≠ []) :
    let groups := FanOut.groupBy (calculateInMessageConsumerIndex config) infoHashes
    let c' := { c.setSlot key (some ⟨c.accepted, groups.size, IndexMap.empty⟩) with
      unsent := workerRequests connection ipVersion groups ⟨UInt8.ofNat key⟩
      accepted := c.accepted + 1 }
    c'.Requested ∧ Stepped c c' faultless := by
  constructor
  · intro e he
    rcases List.mem_append.mp he with he | he
    · obtain ⟨e', -, rfl⟩ := List.mem_map.mp he
      exact ⟨_, rfl⟩
    · exact hc e (List.mem_append_right _ he)
  · refine .accepted key (hfault.trans FanOut.size_groupBy_pos.symm) hkey hvacant (fun _ => rfl)
      rfl rfl rfl ?_
    intro p
    simp only [onTheWay, countP_workerRequests, hunsent, setSlot, List.countP_nil]
    omega

theorem stepped_handleScrapeRequest {request : ScrapeRequest} {blocked : Bool} {key : Nat}
    {s : State} (hc : c.Requested) (hunsent : c.unsent = [])
    (h : c.handleScrapeRequest config connection ipVersion request blocked key = some s) :
    s = .closed ∧ Faultless (.open c) (.scrapeRequest request blocked key) ∨
      ∃ c', s = .open c' ∧ c'.Requested ∧
        Stepped c c' (Faultless (.open c) (.scrapeRequest request blocked key)) := by
  unfold handleScrapeRequest at h
  split at h
  · rename_i hblocked
    have hfault : Faultless (.open c) (.scrapeRequest request blocked key) := by
      intro hopen
      rw [hblocked] at hopen
      cases hopen
    obtain ⟨c', rfl, hstepped, hc'⟩ := stepped_sendErrorResponse hc hfault h
    exact .inr ⟨c', rfl, hc', hstepped⟩
  rename_i hblocked
  split at h
  · rename_i hnone
    have hfault : Faultless (.open c) (.scrapeRequest request blocked key) := by
      intro _ _ infoHashes hsome
      rw [hnone] at hsome
      cases hsome
    obtain ⟨c', rfl, hstepped, hc'⟩ := stepped_sendErrorResponse hc hfault h
    exact .inr ⟨c', rfl, hc', hstepped⟩
  rename_i infoHashes hinfoHashes
  split at h
  · cases h
  rename_i hvacant
  split at h
  · rename_i hkey
    cases h
    exact .inl ⟨rfl, fun _ hlt => absurd hlt (Nat.not_lt.mpr hkey)⟩
  rename_i hkey
  cases h
  have hfault : Faultless (.open c) (.scrapeRequest request blocked key) ↔
      infoHashes.asVec ≠ [] := by
    constructor
    · intro hfault
      exact hfault (Bool.not_eq_true _ ▸ hblocked) (Nat.lt_of_not_le hkey) _ hinfoHashes
    · intro hne _ _ infoHashes' hinfoHashes'
      rw [hinfoHashes] at hinfoHashes'
      cases hinfoHashes'
      exact hne
  exact .inr ⟨_, rfl, stepped_accept hc hunsent (Option.not_isSome_iff_eq_none.mp hvacant)
    (Nat.lt_of_not_le hkey) hfault⟩

theorem stepped_sendInMessage {request : Nat × InMessageMeta × ScrapeRequest}
    {requests : List (Nat × InMessageMeta × ScrapeRequest)} {faultless : Prop}
    (hc : c.Requested) (hfault : faultless) (hunsent : c.unsent = request :: requests) :
    let c' := { c with unsent := requests, inMessages := c.inMessages ++ [request] }
    c'.Requested ∧ Stepped c c' faultless := by
  constructor
  · intro e he
    refine hc e ?_
    simp only [List.mem_append, List.mem_singleton] at he
    simp only [hunsent, List.mem_append, List.mem_cons]
    rcases he with he | he | he
    · exact .inl (.inr he)
    · exact .inr he
    · exact .inl (.inl he)
  · refine .moved hfault rfl rfl rfl ?_
    intro p
    simp only [onTheWay, hunsent, List.countP_append, List.countP_cons, List.countP_nil]
    omega

/-- A request with info hashes gets one response. -/
theorem handleInMessage_eq {torrents : TorrentMaps} {e : Nat × InMessageMeta × ScrapeRequest}
    {responses : List (OutMessageMeta × WriterMessage)}
    (he : ∃ infoHashes, e.2.2.infoHashes = some infoHashes)
    (h : handleInMessage maxScrapeTorrents torrents e = some responses) :
    ∃ response, responses = [(e.2.1.out, .scrapeResponse response)] := by
  obtain ⟨infoHashes, hinfoHashes⟩ := he
  obtain ⟨out, hout, rfl⟩ := Option.map_eq_some_iff.mp h
  simp only [TorrentMaps.handleScrapeRequest, TorrentMap.handleScrapeRequest, hinfoHashes] at hout
  obtain ⟨files, -, hout⟩ := Option.bind_eq_some_iff.mp hout
  cases hout
  exact ⟨_, rfl⟩

theorem stepped_handleInMessage {i : Nat} {torrents : TorrentMaps}
    {e : Nat × InMessageMeta × ScrapeRequest}
    {responses : List (OutMessageMeta × WriterMessage)} {faultless : Prop} (hc : c.Requested)
    (hfault : faultless) (he : c.inMessages[i]? = some e)
    (hresponses : handleInMessage maxScrapeTorrents torrents e = some responses) :
    let c' := { c with
      inMessages := c.inMessages.eraseIdx i
      outMessages := c.outMessages ++ responses }
    c'.Requested ∧ Stepped c c' faultless := by
  obtain ⟨response, rfl⟩ := handleInMessage_eq
    (hc e (List.mem_append_right _ (List.mem_of_getElem? he))) hresponses
  constructor
  · intro e' he'
    refine hc e' ?_
    rcases List.mem_append.mp he' with he' | he'
    · exact List.mem_append_left _ he'
    · exact List.mem_append_right _ (List.mem_of_mem_eraseIdx he')
  · refine .moved hfault rfl rfl rfl ?_
    intro p
    simp only [onTheWay, countP_of_getElem? he, List.countP_append, List.countP_singleton,
      WriterMessage.isScrapeResponse, Bool.true_and, InMessageMeta.out]
    omega

theorem stepped_receiveOutMessage {i : Nat} {message : OutMessageMeta × WriterMessage}
    (hmessage : c.outMessages[i]? = some message) :
    Stepped c (receiveOutMessage { c with outMessages := c.outMessages.eraseIdx i } message)
      (Faultless (.open c) (.receiveOutMessage i)) := by
  obtain ⟨metadata, message⟩ := message
  unfold receiveOutMessage
  split
  · rename_i hroom
    refine .moved (fun _ _ _ => hroom) rfl rfl rfl ?_
    intro p
    simp only [onTheWay, countP_of_getElem? hmessage, List.countP_append, List.countP_singleton]
    omega
  · rename_i hfull
    cases message with
    | scrapeResponse response =>
      refine .dropped metadata.pendingScrapeId
        (fun hfault => hfull (hfault metadata response hmessage)) rfl ?_
      intro p
      simp only [onTheWay, countP_of_getElem? hmessage, WriterMessage.isScrapeResponse,
        Bool.true_and]
      omega
    | other message =>
      refine .moved ?_ rfl rfl rfl ?_
      · intro metadata' response hresponse
        rw [hmessage] at hresponse
        cases hresponse
      · intro p
        simp only [onTheWay, countP_of_getElem? hmessage, WriterMessage.isScrapeResponse,
          Bool.false_and, Bool.false_eq_true, if_false]
        omega

theorem merge_eq {pending pending' : PendingScrapeResponse} {response : ScrapeResponse}
    (h : pending.merge response = some pending') :
    pending.pendingWorkerOutMessages = pending'.pendingWorkerOutMessages + 1 := by
  obtain ⟨n, hn, h⟩ := Option.bind_eq_some_iff.mp h
  cases h
  rw [usizeSub] at hn
  split at hn
  · cases hn
    change pending.pendingWorkerOutMessages = pending.pendingWorkerOutMessages - 1 + 1
    omega
  · cases hn

theorem stepped_writeScrapeResponse {metadata : OutMessageMeta} {response : ScrapeResponse}
    {messages : List (OutMessageMeta × WriterMessage)} {s : State} {faultless : Prop}
    (hc : c.Requested) (hfault : faultless)
    (hmessages : c.localMessages = (metadata, .scrapeResponse response) :: messages)
    (h : writeScrapeResponse { c with localMessages := messages } metadata.pendingScrapeId
      response = some s) :
    s = .closed ∨ ∃ c', s = .open c' ∧ c'.Requested ∧ Stepped c c' faultless := by
  unfold writeScrapeResponse at h
  split at h
  · cases h
    exact .inl rfl
  rename_i id hid
  have hway : ∀ p, c.onTheWay p =
      onTheWay { c with localMessages := messages } p + if p (some id) then 1 else 0 := by
    intro p
    simp only [onTheWay, hmessages, List.countP_cons, WriterMessage.isScrapeResponse,
      Bool.true_and, hid]
    omega
  split at h
  · cases h
    exact .inl rfl
  rename_i slot hslot
  obtain ⟨pending, hmerge, rfl⟩ := Option.map_eq_some_iff.mp h
  have hpending := merge_eq hmerge
  split
  · rename_i hzero
    refine .inr ⟨_, rfl, hc, .answered hfault hslot ?_ (fun _ => rfl) rfl rfl hway⟩
    rw [hpending, hzero]
  · rename_i hpos
    exact .inr ⟨_, rfl, hc, .merged ⟨slot.number, pending⟩ hfault hslot hpending
      (Nat.pos_of_ne_zero hpos) rfl (fun _ => rfl) rfl rfl hway⟩

theorem stepped_of_step {act : Action} {s : State} (hc : c.Requested)
    (h : step config maxScrapeTorrents connection ipVersion (.open c) act = some s) :
    s = .closed ∧ Faultless (.open c) act ∨ ∃ c', s = .open c' ∧ c'.Requested ∧
      Stepped c c' (Faultless (.open c) act) := by
  cases act with
  | scrapeRequest request blocked key =>
    simp only [step] at h
    split at h
    · rename_i hunsent
      exact stepped_handleScrapeRequest hc hunsent h
    · cases h
  | errorResponse response =>
    simp only [step] at h
    split at h
    · obtain ⟨c', hs, hstepped, hc'⟩ := stepped_sendErrorResponse hc trivial h
      exact .inr ⟨c', hs, hc', hstepped⟩
    · cases h
  | sendInMessage =>
    simp only [step] at h
    split at h
    · rename_i request requests hunsent
      cases h
      exact .inr ⟨_, rfl, stepped_sendInMessage hc trivial hunsent⟩
    · cases h
  | handleInMessage i torrents =>
    obtain ⟨e, he, h⟩ := Option.bind_eq_some_iff.mp h
    obtain ⟨responses, hresponses, rfl⟩ := Option.map_eq_some_iff.mp h
    exact .inr ⟨_, rfl, stepped_handleInMessage hc trivial he hresponses⟩
  | outMessage message =>
    cases h
    refine .inr ⟨_, rfl, hc, .moved trivial rfl rfl rfl ?_⟩
    intro p
    simp [onTheWay, WriterMessage.isScrapeResponse]
  | receiveOutMessage i =>
    obtain ⟨message, hmessage, rfl⟩ := Option.map_eq_some_iff.mp h
    refine .inr ⟨_, rfl, ?_, stepped_receiveOutMessage hmessage⟩
    unfold receiveOutMessage
    split
    · exact hc
    · exact hc
  | writeOutMessage =>
    simp only [step] at h
    split at h
    · rename_i metadata response messages hmessages
      rcases stepped_writeScrapeResponse hc trivial hmessages h with hs | hopen
      · exact .inl ⟨hs, trivial⟩
      · exact .inr hopen
    · rename_i metadata message messages hmessages
      cases h
      refine .inr ⟨_, rfl, hc, .moved trivial rfl rfl rfl ?_⟩
      intro p
      simp [onTheWay, hmessages, WriterMessage.isScrapeResponse]
    · cases h
  | close =>
    cases h
    exact .inl ⟨rfl, trivial⟩

end ScrapeConnection

end Aquatic.Ws
