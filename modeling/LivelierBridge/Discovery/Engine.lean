import LivelierBridge.Discovery.Identity
import LivelierBridge.Discovery.Store
import LivelierBridge.Framework.KeyedJobs
import LivelierBridge.Js.Json

namespace LivelierBridge.Discovery

open Framework Js

/-- A stream that the source lists as live. -/
structure DiscoveredLive (ν : Type) where
  url : JsString
  name : JsString
  streamTitle : JsString
  description : JsString
  picture : JsString
  image : JsString
  nsfw : Bool
  /-- Unix seconds. -/
  startsAt : Option Int
  streamUrl : JsString
  tags : List (Json ν)

/-- The engine's configuration, its adapter's constants and the library code it calls. -/
structure Engine where
  runtime : Runtime
  sourceKey : JsString
  sourceName : JsString
  dTagPrefix : JsString
  proxyProtocol : JsString
  bridgeKeySecret : JsString
  /-- The public key of the bridge identity, the author of every 30311. -/
  bridgePubkey : JsString
  eventRelayUrl : JsString
  chatRelayUrl : JsString
  profileWriteRelays : List JsString
  republishIntervalMs : Int
  snapshotIntervalMs : Int
  maxConsecutiveFailures : Nat
  defaultDiscoveryEnabled : Bool
  defaultChatEnabled : Bool

structure StreamMeta (ν : Type) where
  title : JsString
  summary : JsString
  image : JsString
  tags : List (Json ν)

structure LivePublishInput (ν : Type) where
  signer : JsString
  hostPubkey : JsString
  dTag : JsString
  metadata : StreamMeta ν
  streamingUrl : JsString
  startsTimestamp : Int
  status : Status
  proxyUrl : JsString
  proxyProtocol : JsString
  relayUrl : JsString
  chatRelayUrl : JsString
  nsfw : Bool
  currentParticipants : Option ν

/-- What each relay of a publish answered. -/
abbrev RelayResults := List (JsString × Bool)

def anyRelayAccepted (results : RelayResults) : Bool := results.any Prod.snd

/-- The counters of a cycle. -/
inductive Metric where
  | hlsLive
  | hlsEnded
  | hlsError
  | newInstances
  | published30311
  | publishedProfiles
  | endedThisCycle
  | disabledSkipped
  | relayWriteFailures
  deriving DecidableEq

/-- What the engine does to the outside for one instance; a publish stands with its outcome,
which is absent when it threw. -/
inductive Call (ν : Type) where
  | checkLiveness (streamUrl : JsString)
  | fetchViewerCount (instanceUrl : JsString)
  | publishProfile (signer : JsString) (profile : BridgedProfileInput) (relayUrls : List JsString)
      (results : Option RelayResults)
  | publishRelayList (signer eventRelayUrl chatRelayUrl : JsString) (relayUrls : List JsString)
      (results : Option RelayResults)
  | publishLiveEvent (input : LivePublishInput ν) (results : Option RelayResults)
  | count (metric : Metric)

/-- What is known of one instance while a cycle runs. -/
structure Slot (ν : Type) where
  row : Option (InstanceRow ν)
  inLiveUrls : Bool

abbrev Local (ν α : Type) := Faulty (Slot ν) (Call ν) α

/-- The answers to the profile publishes; an absent one is a throw. -/
structure ProfileAnswers where
  profile : Option RelayResults
  relayList : Option RelayResults
  stored : Bool

/-- The answers met while a listed instance is processed: `now()` of the upsert, the probe, the
viewer count (thrown, undefined, hidden or a number), the publishes, the last update, and the
clock readings before and after the publish. -/
structure LiveAnswers (ν : Type) where
  upsert : Option Int
  liveness : Option Liveness
  profile : ProfileAnswers
  viewers : Option (Option (Option ν))
  dueAt : Int
  publish : Option RelayResults
  publishedAt : Int
  stored : Bool

structure ManualAnswers (ν : Type) where
  liveness : Option Liveness
  profile : ProfileAnswers
  startsAt : Int
  viewers : Option (Option (Option ν))
  dueAt : Int
  publish : Option RelayResults
  publishedAt : Int
  stored : Bool

structure ReconcileAnswers where
  liveness : Option Liveness
  publish : Option RelayResults
  publishedAt : Int
  stored : Bool

section Local

variable {ν : Type}

def count (metric : Metric) : Local ν Unit := Faulty.tell (.count metric)

def countRejected (results : RelayResults) : Local ν Unit :=
  if anyRelayAccepted results then pure () else count .relayWriteFailures

def addLiveUrl : Local ν Unit := Faulty.modify fun slot => { slot with inLiveUrls := true }

/-- Insert the row or refresh it, and return it with whether it is new. -/
def upsertSeen (input : UpsertSeenInput) (answer : Option Int) :
    Local ν (InstanceRow ν × Bool) := do
  let now ← Faulty.await answer
  let slot ← Faulty.get
  let row := upsertedRow slot.row input now
  Faulty.modify fun slot => { slot with row := some row }
  pure (row, slot.row.isNone)

/-- `UPDATE … WHERE url = $1` -/
def update (stored : Bool) (fields : InstanceRow ν → InstanceRow ν) : Local ν Unit := do
  Faulty.await (if stored then some () else none)
  Faulty.modify fun slot => { slot with row := slot.row.map fields }

def checkLiveness (streamUrl : JsString) (answer : Option Liveness) : Local ν Liveness := do
  Faulty.tell (.checkLiveness streamUrl)
  Faulty.await answer

def fetchViewerCount (instanceUrl : JsString) (answer : Option (Option (Option ν))) :
    Local ν (Option (Option ν)) := do
  Faulty.tell (.fetchViewerCount instanceUrl)
  Faulty.await answer

def publishLiveEvent (input : LivePublishInput ν) (answer : Option RelayResults) :
    Local ν RelayResults := do
  Faulty.tell (.publishLiveEvent input answer)
  Faulty.await answer

end Local

namespace Engine

variable (E : Engine) {ν : Type}

def signerFor (instanceUrl : JsString) : Option JsString :=
  instanceSigner E.runtime instanceUrl E.bridgeKeySecret E.sourceKey

/-- Publish the kind-0 and the relay list when the profile has changed. -/
def maybePublishProfile (signer : JsString) (name description picture website : JsString)
    (row : InstanceRow ν) (A : ProfileAnswers) : Local ν Unit := do
  let profile : BridgedProfileInput := ⟨name, description, picture, website, E.sourceName⟩
  let hash := profileHash E.runtime (buildBridgedProfileContent profile)
  if row.profileHash = some hash then
    pure ()
  else
    Faulty.tell (.publishProfile signer profile E.profileWriteRelays A.profile)
    let result ← Faulty.await A.profile
    count .publishedProfiles
    countRejected result
    Faulty.tell (.publishRelayList signer E.eventRelayUrl E.chatRelayUrl E.profileWriteRelays
      A.relayList)
    let relayListResult ← Faulty.await A.relayList
    countRejected relayListResult
    update A.stored fun r => { r with profileHash := some hash }

def republishDue (row : InstanceRow ν) (now : Int) : Bool :=
  match row.lastPublishedAt with
  | none => true
  | some t => E.republishIntervalMs ≤ now - t

/-- `polled !== undefined && polled !== row.viewer_count` -/
def viewersChanged [DecidableEq ν] (polled : Option (Option ν)) (row : InstanceRow ν) : Bool :=
  match polled with
  | none => false
  | some viewers => viewers ≠ row.viewerCount

def statusOf (liveness : Liveness) : Status := if liveness = .ended then .ended else .live

/-- A probe that gives an error keeps the count of failures, any other resets it. -/
def failuresAfter (liveness : Liveness) (row : InstanceRow ν) : Nat :=
  if liveness = .error then row.consecutiveFailures else 0

/-- The date to a start in seconds; a start at zero counts as missing. -/
def startsDate : Option Int → Option Int
  | none => none
  | some t => if t = 0 then none else some (t * 1000)

/-- The row input of a listed instance. -/
def seenInput (inst : DiscoveredLive ν) (pubkey dTag : JsString) : UpsertSeenInput where
  source := E.sourceKey
  pubkey := pubkey
  dTag := dTag
  name := inst.name
  streamTitle := inst.streamTitle
  description := inst.description
  image := inst.image
  nsfw := inst.nsfw
  startsAt := startsDate inst.startsAt
  hlsUrl := inst.streamUrl
  discoveryEnabled := E.defaultDiscoveryEnabled
  chatEnabled := E.defaultChatEnabled

/-- The live event of a stored row. -/
def rowEvent (url : JsString) (row : InstanceRow ν) (startsTimestamp : Int) (status : Status)
    (currentParticipants : Option ν) : LivePublishInput ν where
  signer := E.bridgePubkey
  hostPubkey := row.pubkey
  dTag := row.dTag
  metadata := ⟨orText row.streamTitle (orText row.name (js "Live")), row.description, row.image, []⟩
  streamingUrl := row.hlsUrl
  startsTimestamp := startsTimestamp
  status := status
  proxyUrl := url
  proxyProtocol := E.proxyProtocol
  relayUrl := E.eventRelayUrl
  chatRelayUrl := E.chatRelayUrl
  nsfw := row.nsfw
  currentParticipants := currentParticipants

/-- The live event of a listed instance. -/
def discoveredEvent (inst : DiscoveredLive ν) (hostPubkey dTag : JsString)
    (row : InstanceRow ν) (status : Status) (polled : Option (Option ν)) :
    LivePublishInput ν where
  signer := E.bridgePubkey
  hostPubkey := hostPubkey
  dTag := dTag
  metadata := ⟨orText inst.streamTitle (orText inst.name (js "Live")),
    inst.description, inst.image, inst.tags⟩
  streamingUrl := inst.streamUrl
  startsTimestamp := inst.startsAt.getD (row.firstSeenAt / 1000)
  status := status
  proxyUrl := inst.url
  proxyProtocol := E.proxyProtocol
  relayUrl := E.eventRelayUrl
  chatRelayUrl := E.chatRelayUrl
  nsfw := inst.nsfw
  currentParticipants := polled.getD row.viewerCount

variable [DecidableEq ν]

/-- Publish a listed instance when there is something to say, and store what was found. -/
def publishLive (inst : DiscoveredLive ν) (hostPubkey dTag : JsString) (row : InstanceRow ν)
    (isNew : Bool) (liveness : Liveness) (polled : Option (Option ν)) (A : LiveAnswers ν) :
    Local ν Unit := do
  let status := statusOf liveness
  let failures := failuresAfter liveness row
  if isNew || row.status ≠ status || E.republishDue row A.dueAt || viewersChanged polled row then
    let result ← publishLiveEvent (E.discoveredEvent inst hostPubkey dTag row status polled)
      A.publish
    count .published30311
    countRejected result
    update A.stored fun r =>
      { r with
        status := status
        lastLiveness := some liveness
        consecutiveFailures := failures
        lastPublishedAt := some A.publishedAt
        viewerCount := polled.getD r.viewerCount }
  else
    update A.stored fun r =>
      { r with status := status, lastLiveness := some liveness, consecutiveFailures := failures }

def countNew (isNew : Bool) : Local ν Unit :=
  if isNew then count .newInstances else pure ()

/-- Only a live instance is asked for its viewers. -/
def pollViewers (status : Status) (instanceUrl : JsString) (answer : Option (Option (Option ν))) :
    Local ν (Option (Option ν)) :=
  if status = .live then fetchViewerCount instanceUrl answer else pure none

/-- Process a listed instance whose row is stored: probe it, then its profile, its viewer count
and its live event. An opted-out one is only counted. -/
def processSeen (inst : DiscoveredLive ν) (signer dTag : JsString) (row : InstanceRow ν)
    (isNew : Bool) (A : LiveAnswers ν) : Local ν Unit := do
  countNew isNew
  if !row.discoveryEnabled then
    count .disabledSkipped
  else
    let liveness ← checkLiveness inst.streamUrl A.liveness
    count (match liveness with
      | .live => .hlsLive
      | .ended => .hlsEnded
      | .error => .hlsError)
    E.maybePublishProfile signer (orText inst.name inst.url) inst.description
      inst.picture inst.url row A.profile
    let polled ← pollViewers (statusOf liveness) inst.url A.viewers
    E.publishLive inst signer dTag row isNew liveness polled A

def processLive (inst : DiscoveredLive ν) (A : LiveAnswers ν) : Local ν Unit := do
  let signer ← Faulty.await (E.signerFor inst.url)
  let dTag ← Faulty.await (dTagFor E.runtime inst.url E.dTagPrefix)
  let (row, isNew) ← upsertSeen (E.seenInput inst signer dTag) A.upsert
  E.processSeen inst signer dTag row isNew A

/-- Publish a manual row that was probed live, or only note that it is live. -/
def publishManual (url : JsString) (row : InstanceRow ν) (polled : Option (Option ν))
    (A : ManualAnswers ν) : Local ν Unit := do
  let wasEnded : Bool := row.status = .ended
  let startsTimestamp :=
    match row.startsAt with
    | none => A.startsAt / 1000
    | some t => if wasEnded then A.startsAt / 1000 else t / 1000
  if !wasEnded && !E.republishDue row A.dueAt && !viewersChanged polled row then
    update A.stored fun r =>
      { r with status := .live, lastLiveness := some .live, consecutiveFailures := 0 }
  else
    let result ← publishLiveEvent
      (E.rowEvent url row startsTimestamp .live (polled.getD row.viewerCount)) A.publish
    count .published30311
    countRejected result
    update A.stored fun r =>
      { r with
        status := .live
        lastLiveness := some .live
        consecutiveFailures := 0
        startsAt := some (startsTimestamp * 1000)
        lastPublishedAt := some A.publishedAt
        viewerCount := polled.getD r.viewerCount }

/-- Process a manual row that was found live. -/
def processLiveManual (url : JsString) (row : InstanceRow ν) (A : ManualAnswers ν) :
    Local ν Unit := do
  let signer ← Faulty.await (E.signerFor url)
  E.maybePublishProfile signer (orText row.name url) row.description row.image url row A.profile
  let polled ← fetchViewerCount url A.viewers
  E.publishManual url row polled A

/-- The pass over manually added rows, for one row. -/
def processManualRow (url : JsString) (row : InstanceRow ν) (A : ManualAnswers ν) :
    Local ν Unit := do
  let slot ← Faulty.get
  if slot.inLiveUrls then
    pure ()
  else if !row.discoveryEnabled then
    count .disabledSkipped
  else
    let liveness ← checkLiveness row.hlsUrl A.liveness
    if liveness ≠ .live then
      pure ()
    else
      count .hlsLive
      addLiveUrl
      E.processLiveManual url row A

/-- Publish the terminal event of a row and mark it ended. -/
def publishEnded (url : JsString) (row : InstanceRow ν) (liveness : Liveness)
    (A : ReconcileAnswers) : Local ν Unit := do
  let startsTimestamp := row.startsAt.getD row.firstSeenAt / 1000
  let result ← publishLiveEvent (E.rowEvent url row startsTimestamp .ended none) A.publish
  countRejected result
  count .endedThisCycle
  update A.stored fun r =>
    { r with
      status := .ended
      lastLiveness := some liveness
      consecutiveFailures := row.consecutiveFailures + 1
      lastPublishedAt := some A.publishedAt }

/-- The pass over rows that dropped out of the live set, for one row. -/
def reconcileRow (url : JsString) (row : InstanceRow ν) (A : ReconcileAnswers) :
    Local ν Unit := do
  let slot ← Faulty.get
  if slot.inLiveUrls then
    pure ()
  else if !row.discoveryEnabled then
    pure ()
  else
    let liveness ← checkLiveness row.hlsUrl A.liveness
    if liveness = .live then
      update A.stored fun r =>
        { r with consecutiveFailures := 0, lastLiveness := some .live }
    else if row.consecutiveFailures + 1 < E.maxConsecutiveFailures then
      update A.stored fun r =>
        { r with
          consecutiveFailures := row.consecutiveFailures + 1
          lastLiveness := some liveness }
    else
      E.publishEnded url row liveness A

end Engine

end LivelierBridge.Discovery
