import LivelierBridge.Discovery.LiveEventTags
import LivelierBridge.Owncast.Frames
import LivelierBridge.Nostr.ReplaceableKeys

namespace LivelierBridge.Discovery

open Framework Js Nostr

/-- What `Number` makes of a text: only the integers are told apart. -/
inductive Numeral where
  | integer (n : Int)
  | other (text : JsString)

def integerText : JsString → Bool
  | 45 :: digits => digits ≠ [] && digits.all isDigit
  | digits => digits ≠ [] && digits.all isDigit

/-- `Number(text)` -/
def number (text : JsString) : Numeral :=
  if integerText text then .integer (numberOfText text) else .other text

/-- All values of a repeated tag; a tag that is just its name has none. -/
def tagValues (tags : List (List JsString)) (name : JsString) : List JsString :=
  (tags.filter fun t => t[0]? = some name).filterMap fun t => t[1]?

/-- A channel as the site shows it. -/
structure Channel where
  event : Event
  dTag : JsString
  title : JsString
  summary : Option JsString
  image : Option JsString
  streaming : Option JsString
  status : JsString
  starts : Option Numeral
  hostPubkey : Option JsString
  proxyUrl : Option JsString
  topics : List JsString
  nsfw : Bool

def toChannel (event : Event) : Channel where
  event := event
  dTag := (tagValue event.tags (js "d")).getD []
  title := (tagValue event.tags (js "title")).getD (js "Untitled stream")
  summary := tagValue event.tags (js "summary")
  image := tagValue event.tags (js "image")
  streaming := tagValue event.tags (js "streaming")
  status := (tagValue event.tags (js "status")).getD (js "unknown")
  starts := ((tagValue event.tags (js "starts")).filter (· ≠ [])).map number
  hostPubkey := tagValue event.tags (js "p")
  proxyUrl := tagValue event.tags (js "proxy")
  topics := tagValues event.tags (js "t")
  nsfw := event.tags.any fun t => t[0]? = some (js "content-warning")

theorem number_intToString (n : Int) : number (intToString 10 n) = .integer n := by
  have hdigits := natToString_digits (n.natAbs + 1) n.natAbs
  have hne : natToString 10 (n.natAbs + 1) n.natAbs ≠ [] := by
    unfold natToString
    split_ifs
    · simp
    · simp
  have hinteger : integerText (intToString 10 n) = true := by
    unfold intToString
    generalize natToString 10 (n.natAbs + 1) n.natAbs = digits at hdigits hne
    have hall : digits.all isDigit = true := List.all_eq_true.mpr hdigits
    split_ifs
    · change (decide (digits ≠ []) && digits.all isDigit) = true
      simp [hne, hall]
    · rw [List.nil_append]
      unfold integerText
      split
      · exact absurd (hdigits 45 List.mem_cons_self) (by decide)
      · simp [hne, hall]
  rw [number, if_pos hinteger, numberOfText_intToString]

section Texts

variable {ν : Type}

theorem textTag_injective : Function.Injective (textTag : List JsString → Tag ν) := by
  have hstr : Function.Injective (Json.str : JsString → Json ν) := fun _ _ h => by cases h; rfl
  exact List.map_injective_iff.mpr hstr

theorem exists_texts {topics : List (Json ν)} (h : ∀ topic ∈ topics, ∃ text, topic = .str text) :
    ∃ texts, topics = List.map Json.str texts := by
  induction topics with
  | nil => exact ⟨[], rfl⟩
  | cons topic topics ih =>
    obtain ⟨⟨text, rfl⟩, hrest⟩ := List.forall_mem_cons.mp h
    obtain ⟨texts, rfl⟩ := ih hrest
    exact ⟨text :: texts, rfl⟩

variable [JsNumber ν] [JsFinite ν]

def baseTexts (params : LiveEventTagParams ν) : List (List JsString) :=
  [[js "d", params.dTag],
    [js "title", params.metadata.title],
    [js "summary", params.metadata.summary],
    [js "image", params.metadata.image],
    [js "streaming", params.streamingUrl],
    [js "status", statusText params.status],
    [js "starts", intToString 10 params.startsTimestamp],
    [js "p", params.hostPubkey, js "", js "host"]]

/-- The texts that the tags of a live event are made of. -/
def tagTexts (params : LiveEventTagParams ν) (topics : List JsString) : List (List JsString) :=
  baseTexts params ++
  (topics.map (fun topic => [js "t", topic]) ++
  ((if params.relays = [] then [] else [js "relays" :: params.relays]) ++
  (params.proxy.toList.map (fun proxy => [js "proxy", proxy.url, proxy.protocol.getD (js "web")]) ++
  ((params.contentWarning.toList.filter (· ≠ [])).map (fun reason => [js "content-warning", reason]) ++
  (params.currentParticipants.toList.filter JsFinite.isFinite).map fun n =>
    [js "current_participants", JsNumber.print n]))))

theorem buildLiveEventTags_texts {params : LiveEventTagParams ν} {topics : List JsString}
    (h : params.metadata.tags = topics.map .str) :
    buildLiveEventTags params = (tagTexts params topics).map textTag := by
  unfold buildLiveEventTags tagTexts baseTexts
  rw [h]
  split_ifs
  · simp [textTag, participantsTag, List.map_map, Function.comp_def]
  · simp [textTag, participantsTag, List.map_map, Function.comp_def]

/-- An event with the built tags has the texts that they are made of. -/
theorem texts_of_built {params : LiveEventTagParams ν} {tags : List (List JsString)}
    {clientTag : List JsString}
    (h : tags.map textTag = buildLiveEventTags params ++ [textTag clientTag]) :
    ∃ topics, params.metadata.tags = topics.map .str ∧
      tags = tagTexts params topics ++ [clientTag] := by
  have htexts : ∀ topic ∈ params.metadata.tags, ∃ text, topic = .str text := by
    intro topic htopic
    have hmem : [.str (js "t"), topic] ∈ tags.map (textTag (ν := ν)) := by
      rw [h]
      simp [buildLiveEventTags, htopic]
    obtain ⟨texts, -, htexts⟩ := List.mem_map.mp hmem
    cases texts with
    | nil => cases htexts
    | cons name texts =>
      cases texts with
      | nil => cases htexts
      | cons text texts =>
        injection htexts with _ htail
        injection htail with hvalue
        exact ⟨text, hvalue.symm⟩
  obtain ⟨topics, htopics⟩ := exists_texts htexts
  refine ⟨topics, htopics, ?_⟩
  have hsame : tags.map textTag = (tagTexts params topics ++ [clientTag]).map (textTag (ν := ν)) := by
    rw [h, buildLiveEventTags_texts htopics, List.map_append]
    rfl
  exact List.map_injective_iff.mpr textTag_injective hsame

end Texts

section Reading

variable {name : JsString} {tag : List JsString} {tags tags' : List (List JsString)}

theorem tagValue_cons (name : JsString) (tag : List JsString) (tags : List (List JsString)) :
    tagValue (tag :: tags) name = if tag[0]? = some name then tag[1]? else tagValue tags name := by
  unfold tagValue
  rw [List.find?_cons]
  split_ifs with h
  · simp [h]
  · simp [h]

/-- Tags of other names are passed over. -/
theorem tagValue_append (h : ∀ tag ∈ tags, tag[0]? ≠ some name) :
    tagValue (tags ++ tags') name = tagValue tags' name := by
  induction tags with
  | nil => rfl
  | cons tag tags ih =>
    obtain ⟨hfirst, hrest⟩ := List.forall_mem_cons.mp h
    rw [List.cons_append, tagValue_cons, if_neg hfirst, ih hrest]

theorem tagValues_append :
    tagValues (tags ++ tags') name = tagValues tags name ++ tagValues tags' name := by
  rw [tagValues, List.filter_append, List.filterMap_append]
  rfl

theorem tagValues_eq_nil (h : ∀ tag ∈ tags, tag[0]? ≠ some name) : tagValues tags name = [] := by
  have hnone : (tags.filter fun t => t[0]? = some name) = [] := by
    rw [List.filter_eq_nil_iff]
    intro tag htag
    simpa using h tag htag
  rw [tagValues, hnone, List.filterMap_nil]

/-- The parts of a live event's tags that are made under one name. -/
theorem forall_name_ne {α : Type} (made : JsString) {f : α → List JsString} (xs : List α)
    (hmade : ∀ x, (f x)[0]? = some made) (hne : made ≠ name) :
    ∀ tag ∈ xs.map f, tag[0]? ≠ some name := by
  intro tag htag
  obtain ⟨x, -, rfl⟩ := List.mem_map.mp htag
  rw [hmade]
  exact fun h => hne (Option.some.inj h)

end Reading

section RoundTrip

variable {ν : Type} [JsNumber ν] [JsFinite ν]

variable {params : LiveEventTagParams ν} {topics clientTag : List JsString} {name : JsString}

omit [JsNumber ν] [JsFinite ν] in
theorem baseTexts_ne (hname : name ∉ [js "d", js "title", js "summary", js "image", js "streaming",
    js "status", js "starts", js "p"]) : ∀ tag ∈ baseTexts params, tag[0]? ≠ some name := by
  intro tag htag heq
  have hmem : tag[0]? ∈ (baseTexts params).map fun t => t[0]? := List.mem_map_of_mem htag
  have hnames : ((baseTexts params).map fun t => t[0]?) = [js "d", js "title", js "summary",
      js "image", js "streaming", js "status", js "starts", js "p"].map some := rfl
  rw [hnames, heq, List.mem_map] at hmem
  obtain ⟨made, hmade, hsame⟩ := hmem
  exact hname (Option.some.inj hsame ▸ hmade)

theorem relaysTexts_ne (relays : List JsString) (hname : js "relays" ≠ name) :
    ∀ tag ∈ (if relays = [] then [] else [js "relays" :: relays]), tag[0]? ≠ some name := by
  intro tag htag heq
  split_ifs at htag
  · cases htag
  · obtain rfl := List.mem_singleton.mp htag
    exact hname (Option.some.inj heq)

theorem clientTag_ne (hclient : clientTag[0]? = some (js "client")) (hname : js "client" ≠ name) :
    ∀ tag ∈ [clientTag], tag[0]? ≠ some name := by
  intro tag htag heq
  rw [List.mem_singleton.mp htag, hclient] at heq
  exact hname (Option.some.inj heq)

theorem tagValue_eq_none {tags : List (List JsString)} (h : ∀ tag ∈ tags, tag[0]? ≠ some name) :
    tagValue tags name = none := by
  have hnone : tagValue (tags ++ []) name = tagValue [] name := tagValue_append h
  rwa [List.append_nil] at hnone

theorem proxy_tagTexts (hclient : clientTag[0]? = some (js "client")) :
    tagValue (tagTexts params topics ++ [clientTag]) (js "proxy") =
      params.proxy.map LiveEventProxy.url := by
  unfold tagTexts
  simp only [List.append_assoc]
  rw [tagValue_append (baseTexts_ne (by decide)),
    tagValue_append (forall_name_ne (js "t") topics (fun _ => rfl) (by decide)),
    tagValue_append (relaysTexts_ne params.relays (by decide))]
  cases params.proxy with
  | some proxy => rfl
  | none =>
    rw [Option.toList_none, List.map_nil, List.nil_append,
      tagValue_append (forall_name_ne (js "content-warning") _ (fun _ => rfl) (by decide)),
      tagValue_append (forall_name_ne (js "current_participants") _ (fun _ => rfl) (by decide)),
      tagValue_eq_none (clientTag_ne hclient (by decide))]
    rfl

theorem topics_tagTexts (hclient : clientTag[0]? = some (js "client")) :
    tagValues (tagTexts params topics ++ [clientTag]) (js "t") = topics := by
  have htopics : tagValues (topics.map fun topic => [js "t", topic]) (js "t") = topics := by
    induction topics with
    | nil => rfl
    | cons topic topics ih => exact congrArg (List.cons topic) ih
  unfold tagTexts
  simp only [tagValues_append]
  rw [htopics, tagValues_eq_nil (baseTexts_ne (by decide)),
    tagValues_eq_nil (relaysTexts_ne params.relays (by decide)),
    tagValues_eq_nil (forall_name_ne (js "proxy") _ (fun _ => rfl) (by decide)),
    tagValues_eq_nil (forall_name_ne (js "content-warning") _ (fun _ => rfl) (by decide)),
    tagValues_eq_nil (forall_name_ne (js "current_participants") _ (fun _ => rfl) (by decide)),
    tagValues_eq_nil (clientTag_ne hclient (by decide))]
  simp

theorem warning_tagTexts (hclient : clientTag[0]? = some (js "client")) :
    ((tagTexts params topics ++ [clientTag]).any fun t => t[0]? = some (js "content-warning")) =
      params.contentWarning.any fun reason => reason ≠ [] := by
  have hnone {tags : List (List JsString)} (h : ∀ tag ∈ tags, tag[0]? ≠ some (js "content-warning")) :
      (tags.any fun t => t[0]? = some (js "content-warning")) = false := by
    rw [List.any_eq_false]
    intro tag htag
    simpa using h tag htag
  have hparticipants : ∀ tag ∈ (params.currentParticipants.toList.filter JsFinite.isFinite).map
      (fun n => [js "current_participants", JsNumber.print n]),
      tag[0]? ≠ some (js "content-warning") :=
    forall_name_ne (js "current_participants") _ (fun _ => rfl) (by decide)
  unfold tagTexts
  simp only [List.any_append]
  rw [hnone (baseTexts_ne (by decide)),
    hnone (forall_name_ne (js "t") topics (fun _ => rfl) (by decide)),
    hnone (relaysTexts_ne params.relays (by decide)),
    hnone (forall_name_ne (js "proxy") _ (fun _ => rfl) (by decide)),
    hnone hparticipants,
    hnone (clientTag_ne hclient (by decide))]
  cases params.contentWarning with
  | none => rfl
  | some reason =>
    by_cases hreason : reason = []
    · simp [hreason]
    · simp [hreason]

/-- The site reads a live event as the bridge built it. -/
theorem toChannel_built (params : LiveEventTagParams ν) (event : Event) (clientTag : List JsString)
    (hclient : clientTag[0]? = some (js "client"))
    (htags : event.tags.map textTag = buildLiveEventTags params ++ [textTag clientTag]) :
    ∃ topics, params.metadata.tags = List.map Json.str topics ∧ toChannel event =
      { event := event
        dTag := params.dTag
        title := params.metadata.title
        summary := some params.metadata.summary
        image := some params.metadata.image
        streaming := some params.streamingUrl
        status := statusText params.status
        starts := some (.integer params.startsTimestamp)
        hostPubkey := some params.hostPubkey
        proxyUrl := params.proxy.map LiveEventProxy.url
        topics := topics
        nsfw := params.contentWarning.any fun reason => reason ≠ [] } := by
  obtain ⟨topics, htopics, htexts⟩ := texts_of_built htags
  refine ⟨topics, htopics, ?_⟩
  have hstarts : ((tagValue event.tags (js "starts")).filter (· ≠ [])).map number =
      some (.integer params.startsTimestamp) := by
    have htext : tagValue event.tags (js "starts") = some (intToString 10 params.startsTimestamp) := by
      rw [htexts]
      rfl
    have hne : intToString 10 params.startsTimestamp ≠ [] := by
      intro hempty
      have hnumber := number_intToString params.startsTimestamp
      rw [hempty] at hnumber
      cases hnumber
    rw [htext, Option.filter_some, if_pos (by simpa using hne), Option.map_some, number_intToString]
  unfold toChannel
  rw [hstarts, htexts, proxy_tagTexts hclient, topics_tagTexts hclient, warning_tagTexts hclient]
  rfl

abbrev demoParams : LiveEventTagParams Int where
  dTag := js "owncast"
  metadata := ⟨js "A stream", js "Music", js "https://o.example/logo.png", [.str (js "music")]⟩
  streamingUrl := js "https://o.example/hls/stream.m3u8"
  hostPubkey := js "aa"
  status := .planned
  startsTimestamp := 1700000000
  relays := [js "wss://chat.example"]
  proxy := none
  contentWarning := some (js "nsfw")
  currentParticipants := none

abbrev demoChannelEvent : Event :=
  ⟨js "01", js "aa", 5, 30311,
    tagTexts demoParams [js "music"] ++ [[js "client", js "Livelier"]], [], []⟩

theorem toChannel_built_demo : (toChannel demoChannelEvent).nsfw = true ∧
    (toChannel demoChannelEvent).proxyUrl = none ∧
    (toChannel demoChannelEvent).starts = some (.integer 1700000000) := by
  obtain ⟨topics, -, hchannel⟩ := toChannel_built demoParams demoChannelEvent
    [js "client", js "Livelier"] rfl (by rw [List.map_append, ← buildLiveEventTags_texts rfl]; rfl)
  rw [hchannel]
  exact ⟨rfl, rfl, rfl⟩

end RoundTrip

end LivelierBridge.Discovery
