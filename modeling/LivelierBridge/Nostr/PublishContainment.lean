import LivelierBridge.Framework.FirstSeen
import LivelierBridge.Nostr.EventVerifier
import LivelierBridge.Nostr.Publishing
import LivelierBridge.Nostr.ReplaceableLoader

namespace LivelierBridge.Nostr

open Framework Js

/-- The relays that `publishEvent` is given. -/
inductive RelayArgument where
  | absent
  | urls (relays : List JsString)
  | relayList (read write : List JsString)

/-- The relays that the argument names. -/
def RelayArgument.named : RelayArgument → List JsString
  | .absent => []
  | .urls relays => relays
  | .relayList read write => read ++ write

/-- How a relay answers: it is not reached, or throws on the event, or takes it. -/
inductive RelayOutcome where
  | unreachable
  | rejected
  | accepted
  deriving DecidableEq

inductive PublishEffect where
  | markEventVerified (id : JsString)
  | ensureRelay (url : JsString)
  | publish (url : JsString) (event : Event)
  | addEventToCache (event : Event)
  | prime (event : Event)

/-- Every publish must name its target relays. -/
def getRelayUrls : RelayArgument → Except JsString (List JsString)
  | .absent => .error (js "publishEvent requires an explicit relay list")
  | .urls relays =>
    if relays = [] then .error (js "publishEvent requires an explicit relay list") else .ok relays
  | .relayList read write => .ok (read ++ write)

section Publish

variable (event : Event) (outcome : JsString → RelayOutcome)

/-- All relays are asked, and those that are reached are sent the event. -/
def publishPromises (urls : List JsString) : List PublishEffect :=
  urls.map .ensureRelay ++
    (urls.filter fun url => outcome url ≠ .unreachable).map fun url => .publish url event

/-- All false at first, then true for every relay that takes the event. -/
def relayResults (urls : List JsString) : OrderedMap JsString Bool :=
  (urls.filter fun url => outcome url = .accepted).foldl (fun results url => results.set url true)
    (urls.foldl (fun results url => results.set url false) .empty)

/-- What a publish does, in order, and what it resolves to or throws. -/
def publishEvent (relays : RelayArgument) :
    List PublishEffect × Except JsString (OrderedMap JsString Bool) :=
  match getRelayUrls relays with
  | .error message => ([], .error message)
  | .ok relayUrls =>
    let uniqueRelayUrls := dedupe relayUrls
    let results := relayResults outcome uniqueRelayUrls
    (.markEventVerified event.id :: publishPromises event outcome uniqueRelayUrls ++
      .addEventToCache event ::
        if decide (event.kind ∈ CACHEABLE_REPLACEABLE_KINDS) && results.values.any id then
          [.prime event]
        else [], .ok results)

def PublishEffect.contact : PublishEffect → Option JsString
  | .ensureRelay url => some url
  | _ => none

def PublishEffect.recipient : PublishEffect → Option JsString
  | .publish url _ => some url
  | _ => none

/-- A publish names its relays or does nothing. -/
structure Contained (relays : RelayArgument) : Prop where
  rejects : relays.named = [] → ∃ message, publishEvent event outcome relays = ([], .error message)
  publishes : relays.named ≠ [] → ∃ results, (publishEvent event outcome relays).2 = .ok results ∧
    (∀ url, results.get? url =
      if url ∈ relays.named then some (decide (outcome url = .accepted)) else none) ∧
    ((publishEvent event outcome relays).1.filterMap PublishEffect.contact).Nodup ∧
    (∀ url, url ∈ (publishEvent event outcome relays).1.filterMap PublishEffect.contact ↔
      url ∈ relays.named) ∧
    (∀ url ∈ (publishEvent event outcome relays).1.filterMap PublishEffect.recipient,
      url ∈ relays.named) ∧
    (.prime event ∈ (publishEvent event outcome relays).1 ↔
      event.kind ∈ CACHEABLE_REPLACEABLE_KINDS ∧ ∃ url ∈ relays.named, outcome url = .accepted)

end Publish

section Results

variable {event : Event} {outcome : JsString → RelayOutcome} {urls : List JsString} {url : JsString}

theorem get?_foldl_set (value : Bool) (results : OrderedMap JsString Bool) (urls : List JsString)
    (url : JsString) :
    (urls.foldl (fun results url => results.set url value) results).get? url =
      if url ∈ urls then some value else results.get? url := by
  induction urls generalizing results with
  | nil => simp
  | cons u urls ih =>
    rw [List.foldl_cons, ih, OrderedMap.get?_set]
    by_cases hu : url = u
    · simp [hu]
    · simp [hu]

theorem get?_relayResults (url : JsString) : (relayResults outcome urls).get? url =
    if url ∈ urls then some (decide (outcome url = .accepted)) else none := by
  have hempty : (OrderedMap.empty : OrderedMap JsString Bool).get? url = none := rfl
  unfold relayResults
  rw [get?_foldl_set, get?_foldl_set, hempty]
  by_cases hmem : url ∈ urls
  · by_cases haccepted : outcome url = .accepted
    · simp [hmem, haccepted]
    · simp [hmem, haccepted]
  · simp [hmem]

theorem any_relayResults : (relayResults outcome urls).values.any id = true ↔
    ∃ url ∈ urls, outcome url = .accepted := by
  have hentry (url : JsString) (value : Bool) : (url, value) ∈ (relayResults outcome urls).entries ↔
      (relayResults outcome urls).get? url = some value :=
    (OrderedMap.get?_eq_some_iff _ url value).symm
  rw [OrderedMap.values, List.any_map, List.any_eq_true]
  constructor
  · rintro ⟨⟨url, value⟩, hmem, hvalue⟩
    obtain rfl : value = true := hvalue
    rw [hentry, get?_relayResults] at hmem
    split_ifs at hmem with hurl
    exact ⟨url, hurl, by simpa using hmem⟩
  · rintro ⟨url, hurl, haccepted⟩
    refine ⟨(url, true), ?_, rfl⟩
    rw [hentry, get?_relayResults, if_pos hurl, haccepted]
    rfl

theorem contact_publishPromises :
    (publishPromises event outcome urls).filterMap PublishEffect.contact = urls := by
  have hasked : (urls.map PublishEffect.ensureRelay).filterMap PublishEffect.contact = urls := by
    rw [List.filterMap_map]
    exact List.filterMap_some
  have hsent (us : List JsString) :
      (us.map fun url => PublishEffect.publish url event).filterMap PublishEffect.contact = [] := by
    rw [List.filterMap_map, List.filterMap_eq_nil_iff]
    exact fun _ _ => rfl
  rw [publishPromises, List.filterMap_append, hasked, hsent, List.append_nil]

theorem recipient_publishPromises :
    (publishPromises event outcome urls).filterMap PublishEffect.recipient =
      urls.filter fun url => outcome url ≠ .unreachable := by
  have hasked : (urls.map PublishEffect.ensureRelay).filterMap PublishEffect.recipient = [] := by
    rw [List.filterMap_map, List.filterMap_eq_nil_iff]
    exact fun _ _ => rfl
  have hsent (us : List JsString) :
      (us.map fun url => PublishEffect.publish url event).filterMap PublishEffect.recipient = us := by
    rw [List.filterMap_map]
    exact List.filterMap_some
  rw [publishPromises, List.filterMap_append, hasked, hsent, List.nil_append]

end Results

section Containment

variable {event : Event} {outcome : JsString → RelayOutcome} {relays : RelayArgument}

theorem getRelayUrls_named (h : relays.named ≠ []) : getRelayUrls relays = .ok relays.named := by
  cases relays with
  | absent => exact absurd rfl h
  | urls us => exact if_neg h
  | relayList read write => rfl

theorem publishEvent_of_named (event : Event) (outcome : JsString → RelayOutcome)
    (h : getRelayUrls relays = .ok relays.named) : publishEvent event outcome relays =
      (.markEventVerified event.id :: publishPromises event outcome (dedupe relays.named) ++
        .addEventToCache event ::
          if decide (event.kind ∈ CACHEABLE_REPLACEABLE_KINDS) &&
              (relayResults outcome (dedupe relays.named)).values.any id then
            [.prime event]
          else [], .ok (relayResults outcome (dedupe relays.named))) := by
  unfold publishEvent
  rw [h]

/-- What an effect does to the loader. -/
def PublishEffect.onLoader (loader : ReplaceableEventLoader) : PublishEffect → ReplaceableEventLoader
  | .prime event => loader.prime event
  | _ => loader

/-- The loader is left as its own step for a publication leaves it. -/
theorem publishEvent_onLoader (loader : ReplaceableEventLoader)
    (h : getRelayUrls relays = .ok relays.named) :
    (publishEvent event outcome relays).1.foldl PublishEffect.onLoader loader =
      loader.publishEvent event (relayResults outcome (dedupe relays.named)).entries := by
  have hpromises (effects : List PublishEffect)
      (heffects : ∀ effect ∈ effects, ∀ e, effect ≠ .prime e) :
      effects.foldl PublishEffect.onLoader loader = loader := by
    induction effects with
    | nil => rfl
    | cons effect effects ih =>
      obtain ⟨hfirst, hrest⟩ := List.forall_mem_cons.mp heffects
      have hsame : effect.onLoader loader = loader := by
        cases effect with
        | prime e => exact absurd rfl (hfirst e)
        | markEventVerified id => rfl
        | ensureRelay url => rfl
        | publish url e => rfl
        | addEventToCache e => rfl
      rw [List.foldl_cons, hsame, ih hrest]
  have hbefore : ∀ effect ∈ PublishEffect.markEventVerified event.id ::
      publishPromises event outcome (dedupe relays.named), ∀ e, effect ≠ .prime e := by
    intro effect heffect e hprime
    subst hprime
    simp [publishPromises] at heffect
  have hany : (relayResults outcome (dedupe relays.named)).values.any id =
      (relayResults outcome (dedupe relays.named)).entries.any Prod.snd := by
    rw [OrderedMap.values, List.any_map]
    rfl
  rw [publishEvent_of_named event outcome h, hany]
  change List.foldl _ loader (_ ++ _) = _
  rw [List.foldl_append, hpromises _ hbefore, List.foldl_cons]
  unfold ReplaceableEventLoader.publishEvent ReplaceableEventLoader.writesThrough
  split_ifs
  · rfl
  · rfl

theorem publishes_named (event : Event) (outcome : JsString → RelayOutcome)
    (h : getRelayUrls relays = .ok relays.named) :
    ∃ results, (publishEvent event outcome relays).2 = .ok results ∧
    (∀ url, results.get? url =
      if url ∈ relays.named then some (decide (outcome url = .accepted)) else none) ∧
    ((publishEvent event outcome relays).1.filterMap PublishEffect.contact).Nodup ∧
    (∀ url, url ∈ (publishEvent event outcome relays).1.filterMap PublishEffect.contact ↔
      url ∈ relays.named) ∧
    (∀ url ∈ (publishEvent event outcome relays).1.filterMap PublishEffect.recipient,
      url ∈ relays.named) ∧
    (.prime event ∈ (publishEvent event outcome relays).1 ↔
      event.kind ∈ CACHEABLE_REPLACEABLE_KINDS ∧ ∃ url ∈ relays.named, outcome url = .accepted) := by
  have hcontact : (publishEvent event outcome relays).1.filterMap PublishEffect.contact =
      dedupe relays.named := by
    rw [publishEvent_of_named event outcome h]
    change List.filterMap _ (publishPromises event outcome (dedupe relays.named) ++ _) = _
    rw [List.filterMap_append, contact_publishPromises]
    split_ifs
    · exact List.append_nil _
    · exact List.append_nil _
  have hrecipient : (publishEvent event outcome relays).1.filterMap PublishEffect.recipient =
      (dedupe relays.named).filter fun url => outcome url ≠ .unreachable := by
    rw [publishEvent_of_named event outcome h]
    change List.filterMap _ (publishPromises event outcome (dedupe relays.named) ++ _) = _
    rw [List.filterMap_append, recipient_publishPromises]
    split_ifs
    · exact List.append_nil _
    · exact List.append_nil _
  refine ⟨relayResults outcome (dedupe relays.named), ?_, fun url => ?_, ?_, fun url => ?_,
    fun url hurl => ?_, ?_⟩
  · rw [publishEvent_of_named event outcome h]
  · rw [get?_relayResults]
    simp only [mem_dedupe]
  · rw [hcontact]
    exact nodup_eraseDups _
  · rw [hcontact, mem_dedupe]
  · rw [hrecipient] at hurl
    exact mem_dedupe.mp (List.mem_of_mem_filter hurl)
  · have haccepted : (relayResults outcome (dedupe relays.named)).values.any id = true ↔
        ∃ url ∈ relays.named, outcome url = .accepted := by
      simp only [any_relayResults, mem_dedupe]
    rw [publishEvent_of_named event outcome h, ← haccepted]
    simp [publishPromises]

/-- A publish names its relays or does nothing, unless it is given a relay list without relays: that
one is not rejected. -/
theorem publishEvent_contained_iff (event : Event) (outcome : JsString → RelayOutcome)
    (relays : RelayArgument) : Contained event outcome relays ↔ relays ≠ .relayList [] [] := by
  constructor
  · rintro h rfl
    obtain ⟨message, hrejects⟩ := h.rejects rfl
    cases hrejects
  · intro h
    refine ⟨fun hnamed => ?_, fun hnamed => publishes_named event outcome (getRelayUrls_named hnamed)⟩
    cases relays with
    | absent => exact ⟨_, rfl⟩
    | urls us =>
      obtain rfl : us = [] := hnamed
      exact ⟨_, rfl⟩
    | relayList read write =>
      obtain ⟨rfl, rfl⟩ := List.append_eq_nil_iff.mp hnamed
      exact absurd rfl h

/-- A relay list without relays: the id is marked as verified and the event is cached. -/
theorem publishEvent_contained_fails :
    ¬ Contained ⟨js "id", js "aa", 1, 1311, [], [], []⟩ (fun _ => .accepted) (.relayList [] []) := by
  intro h
  obtain ⟨message, hrejects⟩ := h.rejects rfl
  cases hrejects

end Containment

end LivelierBridge.Nostr
