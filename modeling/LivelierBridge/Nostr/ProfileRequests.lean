import LivelierBridge.Js.Json
import LivelierBridge.Nostr.Event

namespace LivelierBridge.Nostr

open Framework Js

/-- The profile that a kind-0 event shows, without the times of its reading. -/
structure ProfileInfo (ν : Type) where
  name : Json ν
  picture : Json ν
  about : Option (Json ν)
  nip05 : Option (Json ν)
  banner : Option (Json ν)
  website : Option (Json ν)
  lud16 : Option (Json ν)

section Kind0

variable {ν : Type} [JsNumber ν]

/-- `v || w` -/
def truthyOr (v : Option (Json ν)) (w : Json ν) : Json ν := (v.filter Json.truthy).getD w

/-- `v || undefined` -/
def truthyOnly (v : Option (Json ν)) : Option (Json ν) := v.filter Json.truthy

/-- The profile of a kind-0 content; a content that is no JSON, or the value null, has none. -/
def parseKind0Content (content : JsString) : Option (ProfileInfo ν) := do
  let c ← jsonParse content
  let name ← (c.prop (js "name")).toOption
  let displayName ← (c.prop (js "display_name")).toOption
  let picture ← (c.prop (js "picture")).toOption
  let about ← (c.prop (js "about")).toOption
  let nip05 ← (c.prop (js "nip05")).toOption
  let banner ← (c.prop (js "banner")).toOption
  let website ← (c.prop (js "website")).toOption
  let lud16 ← (c.prop (js "lud16")).toOption
  pure {
    name := truthyOr name (truthyOr displayName (.str (js "Guest")))
    picture := truthyOr picture .null
    about := truthyOnly about
    nip05 := truthyOnly nip05
    banner := truthyOnly banner
    website := truthyOnly website
    lud16 := truthyOnly lud16 }

end Kind0

/-- The later of two events; the first one seen stays when they are equally old. -/
def newer (newest : Option Event) (e : Event) : Option Event :=
  match newest with
  | none => some e
  | some old => if old.created_at < e.created_at then some e else some old

/-- `buildNewestMaps` and `resolveRequest` for the kind-0 event of one pubkey. -/
def newestOf (pubkey : JsString) (events : List Event) : Option Event :=
  (events.filter fun e => e.kind = 0 ∧ e.pubkey = pubkey).foldl newer none

theorem newer_mem {newest : Option Event} {e x : Event} (h : newer newest e = some x) :
    newest = some x ∨ e = x := by
  unfold newer at h
  split at h
  · exact .inr (Option.some.inj h)
  · split at h
    · exact .inr (Option.some.inj h)
    · exact .inl h

theorem foldl_newer_mem {events : List Event} {newest : Option Event} {x : Event}
    (h : events.foldl newer newest = some x) : newest = some x ∨ x ∈ events := by
  induction events generalizing newest with
  | nil => exact .inl h
  | cons e events ih =>
    rcases ih h with hnew | hmem
    · rcases newer_mem hnew with hold | rfl
      · exact .inl hold
      · exact .inr List.mem_cons_self
    · exact .inr (List.mem_cons_of_mem _ hmem)

/-- A request resolves to an event that was received. -/
theorem newestOf_mem {pubkey : JsString} {events : List Event} {x : Event}
    (h : newestOf pubkey events = some x) : x ∈ events := by
  rcases foldl_newer_mem h with hnone | hmem
  · cases hnone
  · exact List.mem_of_mem_filter hmem

/-- One relay query of the loader. -/
structure ProfileQuery where
  authors : List JsString
  knownIds : List JsString
  events : List Event

/-- The query's filter: kind 0 of the authors it asks for. -/
def ProfileQuery.matches (query : ProfileQuery) (event : Event) : Bool :=
  event.kind = 0 ∧ event.pubkey ∈ query.authors

/-- Which relays a batch is asking; the second tier keeps what the first has brought. -/
inductive Tier where
  | primary
  | fallback (earlier : List Event)
  | settled

/-- The tier's query still takes answers. -/
def Tier.asking : Tier → Bool
  | .settled => false
  | _ => true

/-- What a tier keeps of the tier before it. -/
def Tier.earlier : Tier → List Event
  | .fallback earlier => earlier
  | _ => []

/-- A dispatch of the coordinator: the pubkeys, the kind-0 events that the loader's cache had of
them, and the query for the others. -/
structure ProfileFetch where
  pubkeys : List JsString
  hits : List (JsString × Event)
  keys : List JsString
  tier : Tier
  query : ProfileQuery

structure ProfileState (ν : Type) where
  loaderCache : OrderedMap JsString Event
  fetches : List ProfileFetch
  earlyProfileCreatedAt : OrderedMap JsString Int
  /-- The `storeProfile` calls on the profile cache with their events, latest first. -/
  stored : List (Event × ProfileInfo ν)

namespace ProfileState

variable {ν : Type}

def init : ProfileState ν := ⟨.empty, [], .empty, []⟩

/-- `fetchProfileEvents` of the pubkeys that the coordinator misses. -/
def dispatch (s : ProfileState ν) (pubkeys : List JsString) : ProfileState ν :=
  let keys := pubkeys.filter fun p => !s.loaderCache.has p
  { s with fetches := s.fetches ++ [{
      pubkeys := pubkeys
      hits := pubkeys.filterMap fun p => (s.loaderCache.get? p).map (Prod.mk p)
      keys := keys
      tier := .primary
      query := ⟨keys, [], []⟩ }] }

def setFetch (s : ProfileState ν) (f : Nat) (fetch : ProfileFetch) : ProfileState ν :=
  { s with fetches := s.fetches.set f fetch }

variable [JsNumber ν]

def applyEarlyProfileEvent (s : ProfileState ν) (event : Event) : ProfileState ν :=
  if event.kind ≠ 0 then s
  else if (s.earlyProfileCreatedAt.get? event.pubkey).any fun newest => event.created_at ≤ newest then s
  else
    match parseKind0Content event.content with
    | none => s
    | some profile =>
      { s with
        earlyProfileCreatedAt := s.earlyProfileCreatedAt.set event.pubkey event.created_at
        stored := (event, profile) :: s.stored }

/-- A relay's answer to a query reaches its `onevent`. -/
def receive (s : ProfileState ν) (f : Nat) (fetch : ProfileFetch) (event : Event) :
    ProfileState ν :=
  if event.id ∈ fetch.query.knownIds then s
  else
    (s.setFetch f { fetch with
      query := { fetch.query with
        knownIds := event.id :: fetch.query.knownIds
        events := fetch.query.events ++ [event] } }).applyEarlyProfileEvent event

/-- The event that a dispatch resolves a pubkey to. -/
def resolve (fetch : ProfileFetch) (events : List Event) (pubkey : JsString) : Option Event :=
  match fetch.hits.find? fun hit => hit.1 = pubkey with
  | some hit => some hit.2
  | none => newestOf pubkey events

/-- The batch resolves: the loader caches what it found and the coordinator stores the profiles. -/
def settle (s : ProfileState ν) (f : Nat) (fetch : ProfileFetch) (events : List Event) :
    ProfileState ν :=
  let found := fetch.keys.filterMap fun p => (newestOf p events).map (Prod.mk p)
  let profiles := fetch.pubkeys.filterMap fun p =>
    (resolve fetch events p).bind fun e => (parseKind0Content e.content).map (Prod.mk e)
  { s.setFetch f { fetch with tier := .settled } with
    loaderCache := found.foldl (fun cache e => cache.set e.1 e.2) s.loaderCache
    stored := profiles.reverse ++ s.stored }

/-- The query of a tier ends: the pubkeys that the first tier misses are asked for again. -/
def endTier (s : ProfileState ν) (f : Nat) (fetch : ProfileFetch) : Option (ProfileState ν) :=
  match fetch.tier with
  | .settled => none
  | .fallback earlier => some (s.settle f fetch (earlier ++ fetch.query.events))
  | .primary =>
    let unresolved := fetch.keys.filter fun p => (newestOf p fetch.query.events).isNone
    if unresolved = [] then some (s.settle f fetch fetch.query.events)
    else
      some (s.setFetch f
        { fetch with tier := .fallback fetch.query.events, query := ⟨unresolved, [], []⟩ })

/-- All events that the profile requests hold, and all whose profile was stored, satisfy `P`. -/
structure Sourced (P : Event → Prop) (s : ProfileState ν) : Prop where
  cached : ∀ k e, s.loaderCache.get? k = some e → P e
  hits : ∀ fetch ∈ s.fetches, ∀ hit ∈ fetch.hits, P hit.2
  earlier : ∀ fetch ∈ s.fetches, ∀ e ∈ fetch.tier.earlier, P e
  received : ∀ fetch ∈ s.fetches, ∀ e ∈ fetch.query.events, P e
  stored : ∀ x ∈ s.stored, P x.1

section Sourced

variable {P : Event → Prop} {s : ProfileState ν}

omit [JsNumber ν] in
theorem sourced_init : (init : ProfileState ν).Sourced P where
  cached _ _ h := nomatch h
  hits _ h := absurd h List.not_mem_nil
  earlier _ h := absurd h List.not_mem_nil
  received _ h := absurd h List.not_mem_nil
  stored _ h := absurd h List.not_mem_nil

omit [JsNumber ν] in
theorem Sourced.prime (h : s.Sourced P) (k : JsString) {e : Event} (he : P e) :
    Sourced P { s with loaderCache := s.loaderCache.set k e } := by
  refine ⟨fun k' e' hget => ?_, h.hits, h.earlier, h.received, h.stored⟩
  rw [OrderedMap.get?_set] at hget
  split at hget
  · exact Option.some.inj hget ▸ he
  · exact h.cached k' e' hget

omit [JsNumber ν] in
theorem Sourced.evict (h : s.Sourced P) (k : JsString) :
    Sourced P { s with loaderCache := s.loaderCache.delete k } := by
  refine ⟨fun k' e' hget => ?_, h.hits, h.earlier, h.received, h.stored⟩
  rw [OrderedMap.get?_delete] at hget
  split at hget
  · cases hget
  · exact h.cached k' e' hget

omit [JsNumber ν] in
theorem Sourced.dispatch (h : s.Sourced P) (pubkeys : List JsString) :
    (s.dispatch pubkeys).Sourced P := by
  have hnew {Q : ProfileFetch → Prop} {fetch : ProfileFetch} (hold : ∀ f ∈ s.fetches, Q f)
      (hq : Q fetch) : ∀ f ∈ s.fetches ++ [fetch], Q f := by
    simpa using fun f hf => hf.elim (hold f) fun he => he ▸ hq
  refine ⟨h.cached, hnew h.hits ?_, hnew h.earlier ?_, hnew h.received ?_, h.stored⟩
  · intro hit hhit
    obtain ⟨p, -, hp⟩ := List.mem_filterMap.mp hhit
    obtain ⟨e, he, rfl⟩ := Option.map_eq_some_iff.mp hp
    exact h.cached p e he
  · exact fun _ he => absurd he List.not_mem_nil
  · exact fun _ he => absurd he List.not_mem_nil

omit [JsNumber ν] in
theorem Sourced.setFetch (h : s.Sourced P) (f : Nat) {fetch : ProfileFetch}
    (hhits : ∀ hit ∈ fetch.hits, P hit.2) (hearlier : ∀ e ∈ fetch.tier.earlier, P e)
    (hreceived : ∀ e ∈ fetch.query.events, P e) : (s.setFetch f fetch).Sourced P := by
  have hset {Q : ProfileFetch → Prop} (hold : ∀ f ∈ s.fetches, Q f) (hq : Q fetch) :
      ∀ g ∈ s.fetches.set f fetch, Q g := fun g hg =>
    (List.mem_or_eq_of_mem_set hg).elim (hold g) fun he => he ▸ hq
  exact ⟨h.cached, hset h.hits hhits, hset h.earlier hearlier, hset h.received hreceived, h.stored⟩

theorem Sourced.applyEarly (h : s.Sourced P) {event : Event} (he : P event) :
    (s.applyEarlyProfileEvent event).Sourced P := by
  unfold applyEarlyProfileEvent
  split_ifs
  · exact h
  · exact h
  · split
    · exact h
    · exact ⟨h.cached, h.hits, h.earlier, h.received, List.forall_mem_cons.mpr ⟨he, h.stored⟩⟩

theorem Sourced.receive (h : s.Sourced P) (f : Nat) {fetch : ProfileFetch}
    (hf : fetch ∈ s.fetches) {event : Event} (he : event.id ∉ fetch.query.knownIds → P event) :
    (s.receive f fetch event).Sourced P := by
  unfold ProfileState.receive
  split_ifs with hknown
  · exact h
  · refine Sourced.applyEarly ?_ (he hknown)
    refine Sourced.setFetch h f (h.hits fetch hf) (h.earlier fetch hf) fun e hmem => ?_
    rcases List.mem_append.mp hmem with hold | hnew
    · exact h.received fetch hf e hold
    · exact List.mem_singleton.mp hnew ▸ he hknown

omit [JsNumber ν] in
theorem resolve_sourced {fetch : ProfileFetch} {events : List Event}
    (hhits : ∀ hit ∈ fetch.hits, P hit.2) (hevents : ∀ e ∈ events, P e) {p : JsString} {e : Event}
    (h : resolve fetch events p = some e) : P e := by
  unfold resolve at h
  split at h
  · rename_i hit hfind
    exact Option.some.inj h ▸ hhits hit (List.mem_of_find?_eq_some hfind)
  · exact hevents e (newestOf_mem h)

omit [JsNumber ν] in
theorem Sourced.primeAll (h : s.Sourced P) {found : List (JsString × Event)}
    (hfound : ∀ x ∈ found, P x.2) :
    Sourced P { s with
      loaderCache := found.foldl (fun cache e => cache.set e.1 e.2) s.loaderCache } := by
  induction found generalizing s with
  | nil => exact h
  | cons x found ih =>
    obtain ⟨hx, hfound⟩ := List.forall_mem_cons.mp hfound
    exact ih (h.prime x.1 hx) hfound

theorem Sourced.settle (h : s.Sourced P) (f : Nat) {fetch : ProfileFetch} (hf : fetch ∈ s.fetches)
    {events : List Event} (hevents : ∀ e ∈ events, P e) : (s.settle f fetch events).Sourced P := by
  have hset : (s.setFetch f { fetch with tier := .settled }).Sourced P :=
    h.setFetch f (h.hits fetch hf) (fun _ he => absurd he List.not_mem_nil) (h.received fetch hf)
  have hfound : ∀ x ∈ fetch.keys.filterMap fun p => (newestOf p events).map (Prod.mk p), P x.2 := by
    intro x hx
    obtain ⟨p, -, hp⟩ := List.mem_filterMap.mp hx
    obtain ⟨e, he, rfl⟩ := Option.map_eq_some_iff.mp hp
    exact hevents e (newestOf_mem he)
  obtain ⟨hcached, hhits, hearlier, hreceived, -⟩ := hset.primeAll hfound
  refine ⟨hcached, hhits, hearlier, hreceived, fun x hx => ?_⟩
  rcases List.mem_append.mp hx with hnew | hold
  · obtain ⟨p, -, hp⟩ := List.mem_filterMap.mp (List.mem_reverse.mp hnew)
    obtain ⟨e, he, hprofile⟩ := Option.bind_eq_some_iff.mp hp
    obtain ⟨profile, -, rfl⟩ := Option.map_eq_some_iff.mp hprofile
    exact resolve_sourced (h.hits fetch hf) hevents he
  · exact h.stored x hold

theorem Sourced.endTier (h : s.Sourced P) (f : Nat) {fetch : ProfileFetch} (hf : fetch ∈ s.fetches)
    {s' : ProfileState ν} (hs : s.endTier f fetch = some s') : s'.Sourced P := by
  unfold ProfileState.endTier at hs
  split at hs
  · cases hs
  · rename_i earlier htier
    cases hs
    refine h.settle f hf fun e he => ?_
    rcases List.mem_append.mp he with hold | hnew
    · exact h.earlier fetch hf e (by rw [htier]; exact hold)
    · exact h.received fetch hf e hnew
  · dsimp only at hs
    split at hs
    · cases hs
      exact h.settle f hf (h.received fetch hf)
    · cases hs
      exact h.setFetch f (h.hits fetch hf) (h.received fetch hf)
        (fun _ he => absurd he List.not_mem_nil)

end Sourced

end ProfileState

end LivelierBridge.Nostr
