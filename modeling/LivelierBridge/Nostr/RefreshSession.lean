import LivelierBridge.Nostr.ProfileSession
import LivelierBridge.Nostr.TracedLoader

namespace LivelierBridge.Nostr

open Framework Js

/-- The coordinator and the loader that it fetches through. -/
structure RefreshSession (ν : Type) where
  core : ProfileCoordinator ν
  traced : TracedLoader
  /-- The loads that each dispatch waits for. -/
  promises : List (List LoadRecord)
  /-- The coordinator as each refresh found it. -/
  found : List (ProfileCoordinator ν)
  /-- How many events had been applied when `getProfiles` of a refresh returned. -/
  answeredAt : Nat → Nat

inductive RefreshAction where
  | streamed (event : Event)
  | retain (pubkeys : List JsString)
  | release (pubkeys : List JsString)
  | flush
  /-- All loads of a dispatch have resolved. -/
  | batchResult (f : Nat)
  | batchFailed (f : Nat)
  | refreshProfiles (pubkeys : List JsString)
  | settled (r : Nat)
  | answered (r : Nat)
  | restored (r : Nat)
  | read (pubkey : JsString)
  | tick (ms : Nat)
  /-- A batch of the loader moves on, or another caller uses the loader. -/
  | loader (a : LoaderAction)

/-- The refresh has still to read the pubkey's profile. -/
def ProfileRefresh.awaits {ν : Type} (refresh : ProfileRefresh ν) (pubkey : JsString) : Bool :=
  match refresh.phase with
  | .waiting | .woken => decide (pubkey ∈ refresh.pubkeys)
  | .answered _ | .done _ => false

/-- The refresh has still to read the pubkey's profile, or has read it and not returned. -/
def ProfileRefresh.relies {ν : Type} (refresh : ProfileRefresh ν) (pubkey : JsString) : Bool :=
  match refresh.phase with
  | .waiting | .woken => decide (pubkey ∈ refresh.pubkeys)
  | .answered result => result.has pubkey
  | .done _ => false

/-- The event that a publication puts into the loader's cache. -/
def LoaderAction.published : LoaderAction → Option Event
  | .prime event => some event
  | .publishEvent event results =>
    if ReplaceableEventLoader.writesThrough event results then some event else none
  | _ => none

namespace RefreshSession

section Operations

variable {ν : Type} (batchSize : Nat) (hasFallback : Bool)

def init (cache : ProfileCache ν) (missedPubkeys : List JsString) (now : Nat) : RefreshSession ν where
  core := .init cache missedPubkeys now
  traced := { TracedLoader.init with loader := { ReplaceableEventLoader.init with now := now } }
  promises := []
  found := []
  answeredAt := fun _ => 0

variable (s : RefreshSession ν)

/-- The number of refreshes called so far: what is asked for in a later epoch than `r` is asked for
after refresh `r` was called. -/
def epoch : Nat := s.core.refreshes.length

def flush : RefreshSession ν :=
  match ((s.core.flush).fetches[s.core.fetches.length]?).join with
  | none => { s with core := s.core.flush }
  | some pubkeys =>
    let traced := s.traced.fetchProfileEvents batchSize pubkeys
    { s with
      core := s.core.flush
      traced := traced
      promises := s.promises ++ [traced.loader.loads.drop s.traced.loader.loads.length] }

/-- What the loads of a dispatch have resolved to, once all have. -/
def results (f : Nat) : Option (List (Option Event)) :=
  (s.promises[f]?).bind fun loads =>
    if loads.all fun load => (s.traced.loader.resultOf load).isSome then
      some (loads.map fun load => (s.traced.loader.resultOf load).join)
    else none

/-- `clearProfileEvent` of each pubkey -/
def clearProfileEvents (traced : TracedLoader) (pubkeys : List JsString) : TracedLoader :=
  { traced with
    loader := pubkeys.foldl (fun loader pubkey => loader.clear ⟨pubkey, 0, none⟩) traced.loader }

def refreshProfiles (pubkeys : List JsString) : RefreshSession ν :=
  { s with
    core := s.core.refreshProfiles pubkeys
    traced := clearProfileEvents s.traced pubkeys.eraseDups
    found := s.found ++ [s.core] }

/-- The profile comes from a kind-0 event of the pubkey that was asked for, or streamed, after refresh
`r` was called. -/
def FetchedSince (r : Nat) (pubkey : JsString) (info : ProfileInfo ν) [JsNumber ν] : Prop :=
  ∃ event, s.traced.Received r event ∧ event.kind = 0 ∧ event.pubkey = pubkey ∧
    parseKind0Content event.content = some info

/-- The copy that was cached when refresh `r` was called. -/
def cachedBefore (r : Nat) (pubkey : JsString) : Option (CachedProfile ν) :=
  (s.found[r]?).bind fun core => (core.cache.read pubkey core.now).1

/-- No profile of the pubkey came in between the call of the refresh and the return of its
`getProfiles`. -/
def BroughtNothing (r : Nat) (refresh : ProfileRefresh ν) (pubkey : JsString) : Prop :=
  ∀ event ∈ (s.core.applied.take (s.answeredAt r)).drop refresh.since, event.pubkey ≠ pubkey

/-- Whatever a refresh returns was asked for after its call, or it is the copy that the call found in
the cache, restored because nothing else came. -/
def Refetched [JsNumber ν] : Prop :=
  ∀ r refresh result, s.core.refreshes[r]? = some refresh → refresh.phase = .done result →
    ∀ pubkey profile, result.get? pubkey = some profile →
      s.FetchedSince r pubkey profile.info ∨
        s.cachedBefore r pubkey = some profile ∧ s.BroughtNothing r refresh pubkey

/-- What was cached when refresh `r` was called is cached in `t`. -/
def KeepsCached (r : Nat) (t : RefreshSession ν) : Prop :=
  ∀ refresh ∈ s.core.refreshes[r]?, ∀ pubkey ∈ refresh.pubkeys,
    (s.cachedBefore r pubkey).isSome = true → (t.core.cache.hasProfile pubkey t.core.now).1 = true

/-- The loads that the dispatches under way wait for. -/
def awaited : List LoadRecord :=
  ((s.core.fetches.zip s.promises).filter fun x => x.1.isSome).flatMap Prod.snd

/-- The load has a place in a batch that still collects, or has missed. -/
def StillCollecting (load : LoadRecord) : Bool :=
  match load.outcome with
  | .resolved value => value.isNone
  | .joined entry => (s.traced.loader.collecting entry.batch).isSome

/-- No query for the pubkey's profile is under way, and no answer to one has still to be stored or
applied. -/
def Unqueried (pubkey : JsString) : Prop :=
  (∀ load ∈ s.awaited, load.key = profileKey pubkey → s.StillCollecting load = true) ∧
    (∀ entry ∈ s.traced.loader.inFlight.get? (profileKey pubkey),
      (s.traced.loader.collecting entry.batch).isSome = true) ∧
    ∀ b ∈ List.range s.traced.loader.batches.length, profileKey pubkey ∈ s.traced.loader.keysOf b →
      (s.traced.loader.collecting b).isSome = true ∨ (s.traced.loader.settled b).isSome = true

/-- A refresh takes away no profile that another one relies on. -/
def Spares (pubkey : JsString) : Prop :=
  (s.core.cache.hasProfile pubkey s.core.now).1 = true →
    ∀ other ∈ s.core.refreshes, other.relies pubkey = false

/-- What the refresh restores has not expired, and no other refresh has still to read it. -/
def RestoresAlone (refresh : ProfileRefresh ν) : Prop :=
  ∀ result ∈ refresh.phase.answer?, ∀ pubkey ∈ refresh.pubkeys, result.has pubkey = false →
    ∀ copy ∈ refresh.previous.get? pubkey, ProfileCache.expired copy s.core.now = false ∧
      ∀ other ∈ s.core.refreshes, other.awaits pubkey = false

/-- No cached profile that a refresh relies on expires. -/
def OutlivesRefreshes (ms : Nat) : Prop :=
  ∀ refresh ∈ s.core.refreshes, ∀ pubkey ∈ refresh.pubkeys, refresh.relies pubkey = true →
    (s.core.cache.hasProfile pubkey s.core.now).1 = true →
      (s.core.cache.hasProfile pubkey (s.core.now + ms)).1 = true

/-- The publication is not one of a profile that a refresh has still to read. -/
def PublishesApart (event : Event) : Prop :=
  ∀ refresh ∈ s.core.refreshes, ∀ pubkey ∈ refresh.pubkeys, refresh.awaits pubkey = true →
    coordinateOf event ≠ profileKey pubkey

/-- Below the limit of the profile cache. -/
def Room (profiles : Nat) : Prop := s.core.cache.cache.size + profiles ≤ ProfileCache.MAX_CACHE_SIZE

instance (r : Nat) (refresh : ProfileRefresh ν) (pubkey : JsString) :
    Decidable (s.BroughtNothing r refresh pubkey) :=
  inferInstanceAs (Decidable (∀ event ∈ (s.core.applied.take (s.answeredAt r)).drop refresh.since,
    event.pubkey ≠ pubkey))

instance (pubkey : JsString) : Decidable (s.Unqueried pubkey) :=
  inferInstanceAs (Decidable (
    (∀ load ∈ s.awaited, load.key = profileKey pubkey → s.StillCollecting load = true) ∧
      (∀ entry ∈ s.traced.loader.inFlight.get? (profileKey pubkey),
        (s.traced.loader.collecting entry.batch).isSome = true) ∧
      ∀ b ∈ List.range s.traced.loader.batches.length, profileKey pubkey ∈ s.traced.loader.keysOf b →
        (s.traced.loader.collecting b).isSome = true ∨ (s.traced.loader.settled b).isSome = true))

instance (pubkey : JsString) : Decidable (s.Spares pubkey) :=
  inferInstanceAs (Decidable ((s.core.cache.hasProfile pubkey s.core.now).1 = true →
    ∀ other ∈ s.core.refreshes, other.relies pubkey = false))

instance (refresh : ProfileRefresh ν) : Decidable (s.RestoresAlone refresh) :=
  inferInstanceAs (Decidable (∀ result ∈ refresh.phase.answer?, ∀ pubkey ∈ refresh.pubkeys,
    result.has pubkey = false → ∀ copy ∈ refresh.previous.get? pubkey,
      ProfileCache.expired copy s.core.now = false ∧
        ∀ other ∈ s.core.refreshes, other.awaits pubkey = false))

instance (ms : Nat) : Decidable (s.OutlivesRefreshes ms) :=
  inferInstanceAs (Decidable (∀ refresh ∈ s.core.refreshes, ∀ pubkey ∈ refresh.pubkeys,
    refresh.relies pubkey = true → (s.core.cache.hasProfile pubkey s.core.now).1 = true →
      (s.core.cache.hasProfile pubkey (s.core.now + ms)).1 = true))

instance (event : Event) : Decidable (s.PublishesApart event) :=
  inferInstanceAs (Decidable (∀ refresh ∈ s.core.refreshes, ∀ pubkey ∈ refresh.pubkeys,
    refresh.awaits pubkey = true → coordinateOf event ≠ profileKey pubkey))

instance (profiles : Nat) : Decidable (s.Room profiles) := Nat.decLe _ _

end Operations

section Steps

variable {ν : Type} [JsNumber ν] (batchSize : Nat) (hasFallback : Bool) (s : RefreshSession ν)

def coreStep (a : CoordinatorAction) : Option (RefreshSession ν) :=
  (s.core.step a).map fun core => { s with core := core }

/-- One step of the coordinator with its loader. -/
def step : RefreshAction → Option (RefreshSession ν)
  | .streamed event => (s.coreStep (.streamed event)).map fun t =>
      { t with traced := { s.traced with received := s.traced.received ++ [⟨event, s.epoch⟩] } }
  | .retain pubkeys => s.coreStep (.retain pubkeys)
  | .release pubkeys => s.coreStep (.release pubkeys)
  | .flush => some (s.flush batchSize)
  | .batchResult f => (s.results f).bind fun events => s.coreStep (.batchResult f events)
  | .batchFailed f => s.coreStep (.batchFailed f)
  | .refreshProfiles pubkeys => some (s.refreshProfiles pubkeys)
  | .settled r => s.coreStep (.settled r)
  | .answered r => (s.coreStep (.answered r)).map fun t =>
      { t with answeredAt := Function.update s.answeredAt r s.core.applied.length }
  | .restored r => s.coreStep (.restored r)
  | .read pubkey => s.coreStep (.read pubkey)
  | .tick ms => (s.coreStep (.tick ms)).map fun t =>
      { t with traced := { s.traced with loader := { s.traced.loader with now := t.core.now } } }
  | .loader (.clock _) => none
  | .loader a => (s.traced.step batchSize hasFallback s.epoch a).map fun traced =>
      { s with traced := traced }

/-- A refresh is called when no query for one of its pubkeys is under way and takes away nothing that
another relies on; a refresh restores nothing that another has still to read, and nothing expired;
nobody publishes such a profile meanwhile; and the profile cache has room. -/
def Orderly : RefreshAction → Prop
  | .streamed event => (s.core.earlyProfile event).isSome = true → s.Room 1
  | .batchResult f => ∀ pubkeys ∈ (s.core.fetches[f]?).join, s.Room pubkeys.length
  | .refreshProfiles pubkeys => ∀ pubkey ∈ pubkeys, s.Unqueried pubkey ∧ s.Spares pubkey
  | .restored r => ∀ refresh ∈ s.core.refreshes[r]?,
      s.Room refresh.pubkeys.length ∧ s.RestoresAlone refresh
  | .tick ms => s.OutlivesRefreshes ms
  | .loader a => ∀ event ∈ a.published, s.PublishesApart event
  | _ => True

instance Orderly.decidable : ∀ a, Decidable (s.Orderly a)
  | .streamed event =>
    inferInstanceAs (Decidable ((s.core.earlyProfile event).isSome = true → s.Room 1))
  | .batchResult f =>
    inferInstanceAs (Decidable (∀ pubkeys ∈ (s.core.fetches[f]?).join, s.Room pubkeys.length))
  | .refreshProfiles pubkeys =>
    inferInstanceAs (Decidable (∀ pubkey ∈ pubkeys, s.Unqueried pubkey ∧ s.Spares pubkey))
  | .restored r => inferInstanceAs (Decidable (∀ refresh ∈ s.core.refreshes[r]?,
      s.Room refresh.pubkeys.length ∧ s.RestoresAlone refresh))
  | .tick ms => inferInstanceAs (Decidable (s.OutlivesRefreshes ms))
  | .loader a => inferInstanceAs (Decidable (∀ event ∈ a.published, s.PublishesApart event))
  | .retain _ | .release _ | .flush | .batchFailed _ | .settled _ | .answered _ | .read _ =>
    inferInstanceAs (Decidable True)

end Steps

end RefreshSession

end LivelierBridge.Nostr
