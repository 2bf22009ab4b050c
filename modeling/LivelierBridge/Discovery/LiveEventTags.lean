import LivelierBridge.Discovery.Engine

namespace LivelierBridge.Discovery

open Framework Js

variable {ν : Type}

/-- `Number.isFinite(n)` -/
class JsFinite (ν : Type) where
  isFinite : ν → Bool

instance : JsFinite Int := ⟨fun _ => true⟩

/-- The status of a NIP-53 live event. -/
inductive LiveEventStatus where
  | planned
  | live
  | ended
  deriving DecidableEq

/-- The statuses that a bridged stream goes through. -/
def Status.toLiveEventStatus : Status → LiveEventStatus
  | .live => .live
  | .ended => .ended

/-- NIP-48 proxy attribution of a bridged live event. -/
structure LiveEventProxy where
  url : JsString
  protocol : Option JsString

structure LiveEventTagParams (ν : Type) where
  dTag : JsString
  metadata : StreamMeta ν
  streamingUrl : JsString
  hostPubkey : JsString
  status : LiveEventStatus
  startsTimestamp : Int
  relays : List JsString
  proxy : Option LiveEventProxy
  contentWarning : Option JsString
  currentParticipants : Option ν

/-- A tag of an event; the directory's own tags need not be texts. -/
abbrev Tag (ν : Type) := List (Json ν)

def textTag (texts : List JsString) : Tag ν := texts.map .str

def statusText : LiveEventStatus → JsString
  | .planned => js "planned"
  | .live => js "live"
  | .ended => js "ended"

variable [JsNumber ν] [JsFinite ν]

def participantsTag (n : ν) : Tag ν := textTag [js "current_participants", JsNumber.print n]

/-- The tags of a NIP-53 live event. -/
def buildLiveEventTags (params : LiveEventTagParams ν) : List (Tag ν) :=
  [textTag [js "d", params.dTag],
    textTag [js "title", params.metadata.title],
    textTag [js "summary", params.metadata.summary],
    textTag [js "image", params.metadata.image],
    textTag [js "streaming", params.streamingUrl],
    textTag [js "status", statusText params.status],
    textTag [js "starts", intToString 10 params.startsTimestamp],
    textTag [js "p", params.hostPubkey, js "", js "host"]] ++
  params.metadata.tags.map (fun tag => [.str (js "t"), tag]) ++
  (if params.relays = [] then [] else [textTag (js "relays" :: params.relays)]) ++
  params.proxy.toList.map (fun proxy =>
    textTag [js "proxy", proxy.url, proxy.protocol.getD (js "web")]) ++
  (params.contentWarning.toList.filter (· ≠ [])).map (fun reason =>
    textTag [js "content-warning", reason]) ++
  (params.currentParticipants.toList.filter JsFinite.isFinite).map participantsTag

/-- The tags that a live event is published with. -/
def liveEventTags (input : LivePublishInput ν) : List (Tag ν) :=
  buildLiveEventTags {
    dTag := input.dTag
    metadata := input.metadata
    streamingUrl := input.streamingUrl
    hostPubkey := input.hostPubkey
    status := input.status.toLiveEventStatus
    startsTimestamp := input.startsTimestamp
    relays := [input.chatRelayUrl]
    proxy := some ⟨input.proxyUrl, some input.proxyProtocol⟩
    contentWarning := if input.nsfw then some (js "nsfw") else none
    currentParticipants := input.currentParticipants }

/-- The tag goes by this name. -/
def Tag.named (name : JsString) : Tag ν → Bool
  | .str text :: _ => text = name
  | _ => false

/-- The tags that go by a name. -/
def tagsNamed (name : JsString) (tags : List (Tag ν)) : List (Tag ν) := tags.filter (Tag.named name)

section Named

omit [JsNumber ν] [JsFinite ν]

variable {name : JsString}

theorem tagsNamed_append (tags tags' : List (Tag ν)) :
    tagsNamed name (tags ++ tags') = tagsNamed name tags ++ tagsNamed name tags' :=
  List.filter_append ..

/-- Tags that are made under one name all go by it, or none does. -/
theorem tagsNamed_map {α : Type} (f : α → Tag ν) (b : Bool) (h : ∀ a, (f a).named name = b)
    (as : List α) : tagsNamed name (as.map f) = if b then as.map f else [] := by
  have hcongr : tagsNamed name (as.map f) = (as.map f).filter fun _ => b := by
    apply List.filter_congr
    intro tag htag
    obtain ⟨a, -, rfl⟩ := List.mem_map.mp htag
    exact h a
  rw [hcongr]
  cases b <;> simp

end Named

/-- A live event carries its viewer count when there is a finite one, and no other count. -/
theorem liveEventTags_participants (input : LivePublishInput ν) :
    tagsNamed (js "current_participants") (liveEventTags input) =
      (input.currentParticipants.toList.filter JsFinite.isFinite).map participantsTag := by
  unfold liveEventTags buildLiveEventTags
  simp only [tagsNamed_append]
  rw [tagsNamed_map _ false, tagsNamed_map _ false, tagsNamed_map _ false, tagsNamed_map _ true]
  · rfl
  all_goals exact fun _ => rfl

/-- The room hint of a live event names the chat relay only. -/
theorem liveEventTags_relays (input : LivePublishInput ν) :
    tagsNamed (js "relays") (liveEventTags input) =
      [textTag [js "relays", input.chatRelayUrl]] := by
  unfold liveEventTags buildLiveEventTags
  simp only [tagsNamed_append]
  rw [tagsNamed_map _ false, tagsNamed_map _ false, tagsNamed_map _ false, tagsNamed_map _ false]
  · rfl
  all_goals exact fun _ => rfl

end LivelierBridge.Discovery
