import LivelierBridge.Nostr.ReplaceableLoader

namespace LivelierBridge.Nostr

open Framework Js

/-- The request with an empty `d` taken for none. -/
def ReplaceableEventRequest.normal (r : ReplaceableEventRequest) : ReplaceableEventRequest :=
  { r with d := r.d.filter fun d => d ≠ [] }

/-- The event has the kind and pubkey of the request and its `d`, an empty one being none. Only
addressable kinds have a `d`. -/
structure OfCoordinate (event : Event) (r : ReplaceableEventRequest) : Prop where
  kind : event.kind = r.kind
  pubkey : event.pubkey = r.pubkey
  d : r.normal.d =
    if isAddressableKind event.kind then (tagValue event.tags (js "d")).filter fun d => d ≠ []
    else none

/-- The coordinate that `buildNewestMaps` gives an event. -/
def newestCoordinate (event : Event) : JsString :=
  let d := if isAddressableKind event.kind then (tagValue event.tags (js "d")).getD [] else []
  intToString 10 event.kind ++ js ":" ++ event.pubkey ++ js ":" ++ d

/-- The newest event of each coordinate, and of each kind of a pubkey. -/
structure NewestMaps where
  newestByCoordinate : OrderedMap JsString Event
  newestByKindPubkey : OrderedMap JsString Event

/-- Write the event under the key, unless one at least as new stands there. -/
def setNewest (m : OrderedMap JsString Event) (key : JsString) (event : Event) :
    OrderedMap JsString Event :=
  match m.get? key with
  | none => m.set key event
  | some existing => if existing.created_at < event.created_at then m.set key event else m

def buildNewestMaps (events : List Event) : NewestMaps :=
  events.foldl
    (fun maps event =>
      { newestByCoordinate := setNewest maps.newestByCoordinate (newestCoordinate event) event
        newestByKindPubkey :=
          setNewest maps.newestByKindPubkey (kindPubkey event.kind event.pubkey) event })
    ⟨.empty, .empty⟩

/-- `resolveRequest` over the maps. -/
def resolveIn (key : JsString) (request : ReplaceableEventRequest) (maps : NewestMaps) :
    Option Event :=
  match maps.newestByCoordinate.get? key with
  | some exact => some exact
  | none =>
    if isAddressableKind request.kind && request.d.getD [] = [] then
      maps.newestByKindPubkey.get? (kindPubkey request.kind request.pubkey)
    else none

section NewestMaps

variable {event : Event} {r : ReplaceableEventRequest}

theorem get?_setNewest (m : OrderedMap JsString Event) (name key : JsString) (event : Event) :
    (setNewest m name event).get? key =
      if name = key then newer (m.get? key) event else m.get? key := by
  by_cases hk : name = key
  · subst hk
    rw [if_pos rfl]
    unfold setNewest newer
    cases hold : m.get? name with
    | none => simp
    | some old =>
      by_cases hlt : old.created_at < event.created_at
      · simp [hlt]
      · simp [hlt, hold]
  · have hne : key ≠ name := Ne.symm hk
    rw [if_neg hk]
    unfold setNewest
    split
    · exact m.get?_set_of_ne hne event
    · split_ifs
      · exact m.get?_set_of_ne hne event
      · rfl

/-- A fold of `setNewest` keeps under each key the newest event of that name. -/
theorem get?_foldl_setNewest (name : Event → JsString) (key : JsString) (events : List Event) :
    (events.foldl (fun m e => setNewest m (name e) e) .empty).get? key =
      newestUnder name key events := by
  induction events using List.reverseRecOn with
  | nil => rfl
  | append_singleton events e ih =>
    rw [List.foldl_append, List.foldl_cons, List.foldl_nil, get?_setNewest, ih]
    unfold newestUnder
    rw [List.filter_append, List.foldl_append]
    by_cases hk : name e = key
    · simp [hk]
    · simp [hk]

theorem buildNewestMaps_eq (events : List Event) : buildNewestMaps events =
    ⟨events.foldl (fun m e => setNewest m (newestCoordinate e) e) .empty,
      events.foldl (fun m e => setNewest m (kindPubkey e.kind e.pubkey) e) .empty⟩ := by
  induction events using List.reverseRecOn with
  | nil => rfl
  | append_singleton events e ih =>
    unfold buildNewestMaps at ih ⊢
    rw [List.foldl_append, ih]
    simp

theorem toKey_normal (r : ReplaceableEventRequest) : toKey r.normal = toKey r := by
  cases hd : r.d with
  | none => simp [toKey, ReplaceableEventRequest.normal, hd]
  | some d =>
    by_cases hempty : d = []
    · simp [toKey, ReplaceableEventRequest.normal, hd, hempty, Option.filter]
    · simp [toKey, ReplaceableEventRequest.normal, hd, hempty, Option.filter]

/-- `buildNewestMaps` and `prime` name an event alike. -/
theorem newestCoordinate_eq (event : Event) : newestCoordinate event = coordinateOf event := by
  unfold newestCoordinate coordinateOf toKey
  split_ifs
  · rfl
  · rfl

theorem coordinateOf_eq_toKey (h : OfCoordinate event r) :
    coordinateOf event = toKey r := by
  obtain ⟨hkind, hpubkey, hd⟩ := h
  have hnormal : (ReplaceableEventRequest.mk event.pubkey event.kind
      (if isAddressableKind event.kind then tagValue event.tags (js "d") else none)).normal =
      r.normal := by
    unfold ReplaceableEventRequest.normal at hd ⊢
    dsimp only at hd ⊢
    rw [hd, hkind, hpubkey]
    split_ifs
    · rfl
    · rfl
  calc coordinateOf event = toKey r.normal := by rw [← hnormal, toKey_normal]; rfl
    _ = toKey r := toKey_normal r

/-- What is primed serves every request for its coordinate. -/
theorem prime_serves (s : ReplaceableEventLoader) (h : OfCoordinate event r) (now : Nat) :
    ((s.prime event).cache.get (toKey r) now).1 = some event := by
  rw [LruCache.get_fst, ← coordinateOf_eq_toKey h]
  exact LruCache.get?_set_self

/-- A key resolves alike by a pass over the events and from the maps. -/
theorem resolveRequest_eq_resolveIn (key : JsString) (events : List Event) :
    resolveRequest key events = resolveIn key (parseKey key) (buildNewestMaps events) := by
  have hname : newestCoordinate = coordinateOf := funext newestCoordinate_eq
  unfold resolveRequest resolveIn
  rw [buildNewestMaps_eq]
  dsimp only
  rw [get?_foldl_setNewest, get?_foldl_setNewest, hname]
  have hnamed : ((parseKey key).d.isNone = true) ↔ (parseKey key).d.getD [] = [] := by
    unfold parseKey
    dsimp only
    split_ifs with hd
    · simp
    · simp [hd]
  cases newestUnder coordinateOf key events with
  | some exact' => rfl
  | none => simp only [← hnamed, Bool.decide_eq_true]

end NewestMaps

/-- A key reads back as its request, an empty `d` as none; two requests have one key only when they
are alike; and an event's key in `prime` and its coordinate in `buildNewestMaps` are the key of
every request for it. -/
theorem loaderKeys_agree :
    (∀ r : ReplaceableEventRequest, (58 : UInt16) ∉ r.pubkey → parseKey (toKey r) = r.normal) ∧
    (∀ r r' : ReplaceableEventRequest, (58 : UInt16) ∉ r.pubkey → (58 : UInt16) ∉ r'.pubkey →
      (toKey r = toKey r' ↔ r.normal = r'.normal)) ∧
    ∀ (event : Event) (r : ReplaceableEventRequest), OfCoordinate event r →
      coordinateOf event = toKey r ∧ newestCoordinate event = toKey r := by
  refine ⟨fun r h => parseKey_toKey h, fun r r' h h' => ⟨fun hkey => ?_, fun hsame => ?_⟩,
    fun event r h => ⟨coordinateOf_eq_toKey h, ?_⟩⟩
  · have hread : parseKey (toKey r) = r.normal := parseKey_toKey h
    have hread' : parseKey (toKey r') = r'.normal := parseKey_toKey h'
    rw [← hread, hkey, hread']
  · rw [← toKey_normal r, hsame, toKey_normal]
  · rw [newestCoordinate_eq]
    exact coordinateOf_eq_toKey h

end LivelierBridge.Nostr
