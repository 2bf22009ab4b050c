import LivelierBridge.Framework.Run
import LivelierBridge.Js.Stringify
import LivelierBridge.Nostr.ProfileBackoff
import LivelierBridge.Nostr.ProfileCache

namespace LivelierBridge.Nostr

open Framework Js

def PROFILE_BOOT_FAST_RETRY_MS : Nat := 5000

def PROFILE_BOOT_FAST_RETRY_WINDOW_MS : Nat := 60000

def PROFILE_BOOT_FAST_RETRY_MAX_ATTEMPTS : Nat := 2

/-- The `timeoutMs` of `getProfiles`. -/
def GET_PROFILES_TIMEOUT_MS : Nat := 8000

/-- A kind-0 event whose profile was stored. -/
structure AppliedEvent where
  pubkey : JsString
  created_at : Int
  /-- It was applied when a relay delivered it, and not with the result of its batch. -/
  early : Bool

inductive RefreshPhase (ν : Type) where
  | waiting
  | woken
  /-- `getProfiles` has returned. -/
  | answered (result : OrderedMap JsString (CachedProfile ν))
  | done (result : OrderedMap JsString (CachedProfile ν))

def RefreshPhase.answer? {ν : Type} :
    RefreshPhase ν → Option (OrderedMap JsString (CachedProfile ν))
  | .answered result => some result
  | _ => none

/-- One call of `refreshProfiles`. -/
structure ProfileRefresh (ν : Type) where
  pubkeys : List JsString
  previous : OrderedMap JsString (CachedProfile ν)
  /-- How many events had been applied when the call took the profiles away. -/
  since : Nat
  deadline : Nat
  phase : RefreshPhase ν

structure ProfileCoordinator (ν : Type) where
  now : Nat
  cache : ProfileCache ν
  wanted : OrderedMap JsString Nat
  /-- The pubkeys of each `retain` that is not released. -/
  retained : List (List JsString)
  inFlight : List JsString
  failures : OrderedMap JsString FailedProfileFetch
  version : Nat
  fastRetryUntil : Nat
  earlyProfileCreatedAt : OrderedMap JsString Int
  /-- The pubkeys of each dispatch, until it has settled. -/
  fetches : List (Option (List JsString))
  refreshes : List (ProfileRefresh ν)
  /-- The kind-0 events of the session whose profiles were stored, in order. -/
  applied : List AppliedEvent

inductive CoordinatorAction where
  /-- The client streams an event. -/
  | streamed (event : Event)
  | retain (pubkeys : List JsString)
  | release (pubkeys : List JsString)
  /-- A flush gets past hydration and pacing. -/
  | flush
  /-- `fetchProfileEvents` resolves. -/
  | batchResult (f : Nat) (events : List (Option Event))
  | batchFailed (f : Nat)
  | refreshProfiles (pubkeys : List JsString)
  /-- The wait of a refresh ends. -/
  | settled (r : Nat)
  /-- `getProfiles` of a refresh returns. -/
  | answered (r : Nat)
  /-- The refresh restores what came back empty. -/
  | restored (r : Nat)
  /-- A surface reads the cache. -/
  | read (pubkey : JsString)
  | tick (ms : Nat)

/-- `eventToProfile`, at the time of the reading. -/
def eventToProfile {ν : Type} [JsNumber ν] (now : Nat) (event : Option Event) :
    Option (CachedProfile ν) :=
  event.bind fun e => (parseKind0Content e.content).map fun info => ⟨info, now, now, now, 1, e.created_at⟩

namespace ProfileCoordinator

section Operations

variable {ν : Type}

/-- A session whose profile cache and recorded misses have been loaded. -/
def init (cache : ProfileCache ν) (missedPubkeys : List JsString) (now : Nat) :
    ProfileCoordinator ν where
  now := now
  cache := cache
  wanted := .empty
  retained := []
  inFlight := []
  failures := .ofList (missedPubkeys.map fun p => (p, ⟨PROFILE_RETRY_MAX_ATTEMPTS, 0⟩))
  version := 0
  fastRetryUntil := now + PROFILE_BOOT_FAST_RETRY_WINDOW_MS
  earlyProfileCreatedAt := .empty
  fetches := []
  refreshes := []
  applied := []

variable (s : ProfileCoordinator ν)

def emit : ProfileCoordinator ν := { s with version := s.version + 1 }

def addWanted (pubkeys : List JsString) : ProfileCoordinator ν :=
  { s with wanted := pubkeys.foldl (fun w p => w.set p ((w.get? p).getD 0 + 1)) s.wanted }

def dropWanted (pubkeys : List JsString) : ProfileCoordinator ν :=
  { s with
    wanted := pubkeys.foldl
      (fun w p =>
        match w.get? p with
        | none => w
        | some count => if count ≤ 1 then w.delete p else w.set p (count - 1))
      s.wanted }

structure PubkeyPartition (ν : Type) where
  cache : ProfileCache ν
  cachedProfiles : OrderedMap JsString (CachedProfile ν)
  missingPubkeys : List JsString

/-- A pubkey that is not in the cache is missing unless it is in flight or cooling down. -/
def partitionPubkey (acc : PubkeyPartition ν) (pubkey : JsString) : PubkeyPartition ν :=
  let asked := acc.cache.read pubkey s.now
  match asked.1 with
  | some profile =>
    { acc with cache := asked.2, cachedProfiles := acc.cachedProfiles.set pubkey profile }
  | none =>
    if pubkey ∈ s.inFlight then { acc with cache := asked.2 }
    else if (s.failures.get? pubkey).any fun failure => s.now < failure.nextRetryAt then
      { acc with cache := asked.2 }
    else { acc with cache := asked.2, missingPubkeys := acc.missingPubkeys ++ [pubkey] }

def partitionPubkeys (pubkeys : List JsString) : PubkeyPartition ν :=
  pubkeys.foldl s.partitionPubkey ⟨s.cache, .empty, []⟩

def dispatch (pubkeys : List JsString) : ProfileCoordinator ν :=
  { s with
    inFlight := s.inFlight ++ pubkeys.filter (· ∉ s.inFlight)
    fetches := s.fetches ++ [some pubkeys] }

def flush : ProfileCoordinator ν :=
  if s.wanted.keys = [] then s
  else
    let partition := s.partitionPubkeys s.wanted.keys
    let s := { s with cache := partition.cache }
    let s := if partition.cachedProfiles.size = 0 then s else s.emit
    if partition.missingPubkeys = [] then s else s.dispatch partition.missingPubkeys

/-- `applyFetchedProfiles`, for one pubkey. -/
def applyFetchedProfile (fetched : JsString × Option (CachedProfile ν)) : ProfileCoordinator ν :=
  match fetched.2 with
  | some profile =>
    { s with
      cache := s.cache.storeProfile fetched.1 profile s.now
      failures := s.failures.delete fetched.1
      applied := s.applied ++ [⟨fetched.1, profile.created_at, false⟩] }
  | none =>
    { s with
      inFlight := s.inFlight.filter (· ≠ fetched.1)
      failures := recordFailedProfileFetch s.failures fetched.1 s.now }

/-- In the boot window the first failures are retried sooner. -/
def fastRetry (failures : OrderedMap JsString FailedProfileFetch) (pubkey : JsString) :
    OrderedMap JsString FailedProfileFetch :=
  match failures.get? pubkey with
  | none => failures
  | some failure =>
    if hasExhaustedProfileRetries (some failure) ||
        PROFILE_BOOT_FAST_RETRY_MAX_ATTEMPTS < failure.attempts then failures
    else
      let fastRetryAt := ceilTo PROFILE_BOOT_FAST_RETRY_MS (s.now + PROFILE_BOOT_FAST_RETRY_MS)
      failures.set pubkey { failure with nextRetryAt := min failure.nextRetryAt fastRetryAt }

def applyBootFastRetryLane (pubkeys : List JsString) : ProfileCoordinator ν :=
  if s.fastRetryUntil ≤ s.now then s
  else { s with failures := pubkeys.foldl s.fastRetry s.failures }

/-- What every settled dispatch ends with. -/
def endFetch (f : Nat) (pubkeys : List JsString) : ProfileCoordinator ν :=
  let s := { s with
    inFlight := s.inFlight.filter (· ∉ pubkeys)
    fetches := s.fetches.set f none }
  (s.applyBootFastRetryLane pubkeys).emit

def applyFetchedProfiles (fetched : OrderedMap JsString (Option (CachedProfile ν))) :
    ProfileCoordinator ν :=
  fetched.entries.foldl applyFetchedProfile s

def releaseFailedPubkeys (pubkeys : List JsString) : ProfileCoordinator ν :=
  { s with
    inFlight := s.inFlight.filter (· ∉ pubkeys)
    failures := pubkeys.foldl (fun m p => recordFailedProfileFetch m p s.now) s.failures }

/-- What a refresh does to one pubkey before it asks again. -/
def takeAway (acc : OrderedMap JsString (CachedProfile ν) × ProfileCoordinator ν)
    (pubkey : JsString) : OrderedMap JsString (CachedProfile ν) × ProfileCoordinator ν :=
  let asked := acc.2.cache.read pubkey acc.2.now
  (match asked.1 with
    | some cached => acc.1.set pubkey cached
    | none => acc.1,
  { acc.2 with cache := asked.2.remove pubkey, failures := acc.2.failures.delete pubkey })

def refreshProfiles (pubkeys : List JsString) : ProfileCoordinator ν :=
  let unique := pubkeys.eraseDups
  let taken := unique.foldl takeAway (.empty, s)
  let s := taken.2.addWanted unique
  { s with
    refreshes := s.refreshes ++
      [⟨unique, taken.1, s.applied.length, s.now + GET_PROFILES_TIMEOUT_MS, .waiting⟩] }

/-- `every(isSettled)`, on what the reads leave of the cache. -/
def allSettled (cache : ProfileCache ν) : List JsString → Bool × ProfileCache ν
  | [] => (true, cache)
  | pubkey :: pubkeys =>
    let asked := cache.hasProfile pubkey s.now
    if asked.1 || s.failures.has pubkey then allSettled asked.2 pubkeys else (false, asked.2)

def setRefresh (r : Nat) (refresh : ProfileRefresh ν) : ProfileCoordinator ν :=
  { s with refreshes := s.refreshes.set r refresh }

/-- The result of `getProfiles`, as far as it is not null. -/
def readResult (acc : OrderedMap JsString (CachedProfile ν) × ProfileCache ν) (pubkey : JsString) :
    OrderedMap JsString (CachedProfile ν) × ProfileCache ν :=
  let asked := acc.2.read pubkey s.now
  (match asked.1 with
    | some profile => acc.1.set pubkey profile
    | none => acc.1,
  asked.2)

/-- A pubkey that came back empty gets its previous profile again. -/
def restoreProfile (previous : OrderedMap JsString (CachedProfile ν))
    (acc : OrderedMap JsString (CachedProfile ν) × ProfileCoordinator ν) (pubkey : JsString) :
    OrderedMap JsString (CachedProfile ν) × ProfileCoordinator ν :=
  if acc.1.has pubkey then acc
  else
    match previous.get? pubkey with
    | none => acc
    | some restored =>
      (acc.1.set pubkey restored,
      { acc.2 with cache := acc.2.cache.storeProfile pubkey restored acc.2.now })

/-- The cache shows of no pubkey a profile older than an event of it that the session applied. -/
def NeverBack : Prop :=
  ∀ pubkey t, s.cache.shows pubkey = some t →
    ∀ event ∈ s.applied, event.pubkey = pubkey → event.created_at ≤ t

/-- No event of the pubkey that came with a batch is newer. -/
def NoNewerFetched (pubkey : JsString) (t : Int) : Prop :=
  ∀ event ∈ s.applied, event.pubkey = pubkey → event.early = false → event.created_at ≤ t

end Operations

section Steps

variable {ν : Type} [JsNumber ν] (s : ProfileCoordinator ν)

/-- What a dispatch found, by pubkey. -/
def fetchedProfiles (pubkeys : List JsString) (events : List (Option Event)) :
    OrderedMap JsString (Option (CachedProfile ν)) :=
  .ofList (pubkeys.zipIdx.map fun x => (x.1, eventToProfile s.now (events[x.2]?).join))

/-- The profile that a streamed event brings, unless it is no newer than one streamed before. -/
def earlyProfile (event : Event) : Option (CachedProfile ν) :=
  if event.kind ≠ 0 then none
  else if (s.earlyProfileCreatedAt.get? event.pubkey).any fun newest => event.created_at ≤ newest then
    none
  else eventToProfile s.now (some event)

def applyEarlyProfileEvent (event : Event) : ProfileCoordinator ν :=
  match s.earlyProfile event with
  | none => s
  | some profile =>
    emit { s with
      earlyProfileCreatedAt := s.earlyProfileCreatedAt.set event.pubkey event.created_at
      cache := s.cache.storeProfile event.pubkey profile s.now
      failures := s.failures.delete event.pubkey
      applied := s.applied ++ [⟨event.pubkey, event.created_at, true⟩] }

/-- One step of the coordinator. -/
def step : CoordinatorAction → Option (ProfileCoordinator ν)
  | .streamed event => some (s.applyEarlyProfileEvent event)
  | .retain pubkeys =>
    let unique := pubkeys.eraseDups
    some { s.addWanted unique with retained := s.retained ++ [unique] }
  | .release pubkeys =>
    if pubkeys ∈ s.retained then
      some { s.dropWanted pubkeys with retained := s.retained.erase pubkeys }
    else none
  | .flush => some s.flush
  | .batchResult f events =>
    (s.fetches[f]?).join.map fun pubkeys =>
      (s.applyFetchedProfiles (s.fetchedProfiles pubkeys events)).endFetch f pubkeys
  | .batchFailed f =>
    (s.fetches[f]?).join.map fun pubkeys => (s.releaseFailedPubkeys pubkeys).endFetch f pubkeys
  | .refreshProfiles pubkeys => some (s.refreshProfiles pubkeys)
  | .settled r =>
    (s.refreshes[r]?).bind fun refresh =>
      match refresh.phase with
      | .waiting =>
        let asked := s.allSettled s.cache refresh.pubkeys
        if asked.1 || refresh.deadline ≤ s.now then
          some ({ s with cache := asked.2 }.setRefresh r { refresh with phase := .woken })
        else none
      | _ => none
  | .answered r =>
    (s.refreshes[r]?).bind fun refresh =>
      match refresh.phase with
      | .woken =>
        let asked := refresh.pubkeys.foldl s.readResult (.empty, s.cache)
        some (({ s with cache := asked.2 }.dropWanted refresh.pubkeys).setRefresh r
          { refresh with phase := .answered asked.1 })
      | _ => none
  | .restored r =>
    (s.refreshes[r]?).bind fun refresh =>
      match refresh.phase with
      | .answered result =>
        let restored := refresh.pubkeys.foldl (restoreProfile refresh.previous) (result, s)
        some (restored.2.setRefresh r { refresh with phase := .done restored.1 }).emit
      | _ => none
  | .read pubkey => some { s with cache := (s.cache.read pubkey s.now).2 }
  | .tick ms => some { s with now := s.now + ms }

/-- A streamed event is not older than what a batch brought of its pubkey, a batch brings nothing
older than what was streamed or came with a batch, and when a refresh restores a profile, no newer
event of the pubkey was applied since the refresh took the profile away. -/
def KeepsNewest : CoordinatorAction → Prop
  | .streamed event =>
    (s.earlyProfile event).isSome = true → s.NoNewerFetched event.pubkey event.created_at
  | .batchResult f events => ∀ pubkeys ∈ (s.fetches[f]?).join,
      ∀ fetched ∈ (s.fetchedProfiles pubkeys events).entries, ∀ profile ∈ fetched.2,
        (∀ newest ∈ s.earlyProfileCreatedAt.get? fetched.1, newest ≤ profile.created_at) ∧
          s.NoNewerFetched fetched.1 profile.created_at
  | .restored r => ∀ refresh ∈ s.refreshes[r]?, ∀ result ∈ refresh.phase.answer?,
      ∀ pubkey ∈ refresh.pubkeys, result.has pubkey = false →
        ∀ restored ∈ refresh.previous.get? pubkey, ∀ event ∈ s.applied.drop refresh.since,
          event.pubkey = pubkey → event.created_at ≤ restored.created_at
  | _ => True

instance (pubkey : JsString) (t : Int) : Decidable (s.NoNewerFetched pubkey t) :=
  inferInstanceAs (Decidable (∀ event ∈ s.applied, event.pubkey = pubkey → event.early = false →
    event.created_at ≤ t))

instance KeepsNewest.decidable : ∀ a, Decidable (s.KeepsNewest a)
  | .streamed event => inferInstanceAs (Decidable ((s.earlyProfile event).isSome = true →
      s.NoNewerFetched event.pubkey event.created_at))
  | .batchResult f events => inferInstanceAs (Decidable (∀ pubkeys ∈ (s.fetches[f]?).join,
      ∀ fetched ∈ (s.fetchedProfiles pubkeys events).entries, ∀ profile ∈ fetched.2,
        (∀ newest ∈ s.earlyProfileCreatedAt.get? fetched.1, newest ≤ profile.created_at) ∧
          s.NoNewerFetched fetched.1 profile.created_at))
  | .restored r => inferInstanceAs (Decidable (∀ refresh ∈ s.refreshes[r]?,
      ∀ result ∈ refresh.phase.answer?, ∀ pubkey ∈ refresh.pubkeys, result.has pubkey = false →
        ∀ restored ∈ refresh.previous.get? pubkey, ∀ event ∈ s.applied.drop refresh.since,
          event.pubkey = pubkey → event.created_at ≤ restored.created_at))
  | .retain _ | .release _ | .flush | .batchFailed _ | .refreshProfiles _ | .settled _ | .answered _
  | .read _ | .tick _ => inferInstanceAs (Decidable True)

end Steps

section Invariant

variable {ν : Type} {s t : ProfileCoordinator ν} {pubkey : JsString}

/-- The watermark of the streaming path is over all that was streamed. -/
def Watermark (s : ProfileCoordinator ν) : Prop :=
  ∀ event ∈ s.applied, event.early = true →
    ∃ newest, s.earlyProfileCreatedAt.get? event.pubkey = some newest ∧ event.created_at ≤ newest

/-- What a refresh would restore is not older than what was applied before it. -/
def Snapshots (s : ProfileCoordinator ν) : Prop :=
  ∀ refresh ∈ s.refreshes, refresh.since ≤ s.applied.length ∧
    ∀ pubkey previous, refresh.previous.get? pubkey = some previous →
      ∀ event ∈ s.applied.take refresh.since, event.pubkey = pubkey →
        event.created_at ≤ previous.created_at

structure Kept (s : ProfileCoordinator ν) : Prop where
  neverBack : s.NeverBack
  watermark : s.Watermark
  snapshots : s.Snapshots

theorem kept_init (cache : ProfileCache ν) (missedPubkeys : List JsString) (now : Nat) :
    (init cache missedPubkeys now).Kept :=
  ⟨fun _ _ _ _ h => absurd h List.not_mem_nil, fun _ h => absurd h List.not_mem_nil,
    fun _ h => absurd h List.not_mem_nil⟩

/-- A step that stores nothing. -/
theorem Kept.frame (h : s.Kept) (hcache : s.cache.Fades t.cache) (happlied : t.applied = s.applied)
    (hearly : t.earlyProfileCreatedAt = s.earlyProfileCreatedAt)
    (hrefreshes : ∀ refresh ∈ t.refreshes, ∃ old ∈ s.refreshes,
      refresh.previous = old.previous ∧ refresh.since = old.since) : t.Kept := by
  refine ⟨?_, ?_, ?_⟩
  · intro p c hshows
    rw [happlied]
    exact h.neverBack p c (hcache p c hshows)
  · unfold Watermark
    rw [happlied, hearly]
    exact h.watermark
  · intro refresh hrefresh
    obtain ⟨old, hold, hprevious, hsince⟩ := hrefreshes refresh hrefresh
    rw [happlied, hprevious, hsince]
    exact h.snapshots old hold

/-- What the watermark and the batches bound, the applied events bound. -/
theorem Watermark.bound (h : s.Watermark) {c : Int}
    (hearly : ∀ newest ∈ s.earlyProfileCreatedAt.get? pubkey, newest ≤ c)
    (hfetched : s.NoNewerFetched pubkey c) :
    ∀ event ∈ s.applied, event.pubkey = pubkey → event.created_at ≤ c := by
  intro event hevent hpubkey
  cases hkind : event.early with
  | true =>
    obtain ⟨newest, hnewest, hle⟩ := h event hevent hkind
    have hbound : newest ≤ c := hearly newest (hpubkey ▸ hnewest)
    omega
  | false => exact hfetched event hevent hpubkey hkind

/-- A store of what is not older than the applied events of its pubkey. -/
theorem neverBack_store (h : s.NeverBack) {profile : CachedProfile ν}
    (hnew : ∀ event ∈ s.applied, event.pubkey = pubkey → event.created_at ≤ profile.created_at)
    (hcache : t.cache = s.cache.storeProfile pubkey profile s.now)
    (happlied : t.applied = s.applied) : t.NeverBack := by
  intro p c hshows
  rw [happlied]
  rw [hcache] at hshows
  rcases ProfileCache.shows_storeProfile hshows with ⟨rfl, rfl⟩ | ⟨-, hold⟩
  · exact hnew
  · exact h p c hold

/-- The same when the stored profile's event counts as applied. -/
theorem neverBack_apply (early : Bool) (h : s.NeverBack) {profile : CachedProfile ν}
    (hnew : ∀ event ∈ s.applied, event.pubkey = pubkey → event.created_at ≤ profile.created_at)
    (hcache : t.cache = s.cache.storeProfile pubkey profile s.now)
    (happlied : t.applied = s.applied ++ [⟨pubkey, profile.created_at, early⟩]) : t.NeverBack := by
  intro p c hshows event hevent hpubkey
  rw [hcache] at hshows
  rw [happlied] at hevent
  rcases List.mem_append.mp hevent with hbefore | hlast
  · rcases ProfileCache.shows_storeProfile hshows with ⟨rfl, rfl⟩ | ⟨-, hold⟩
    · exact hnew event hbefore hpubkey
    · exact h p c hold event hbefore hpubkey
  · obtain rfl := List.mem_singleton.mp hlast
    rcases ProfileCache.shows_storeProfile hshows with ⟨-, rfl⟩ | ⟨hne, -⟩
    · exact Int.le_refl _
    · exact absurd hpubkey.symm hne

theorem snapshots_append (h : s.Snapshots) {event : AppliedEvent}
    (hrefreshes : t.refreshes = s.refreshes) (happlied : t.applied = s.applied ++ [event]) :
    t.Snapshots := by
  intro refresh hrefresh
  obtain ⟨hlength, hprevious⟩ := h refresh (hrefreshes ▸ hrefresh)
  rw [happlied, List.take_append_of_le_length hlength, List.length_append]
  exact ⟨Nat.le_trans hlength (Nat.le_add_right _ _), hprevious⟩

theorem watermark_append (h : s.Watermark) {event : AppliedEvent} (hfetched : event.early = false)
    (hearly : t.earlyProfileCreatedAt = s.earlyProfileCreatedAt)
    (happlied : t.applied = s.applied ++ [event]) : t.Watermark := by
  intro e he hkind
  rw [hearly]
  rw [happlied] at he
  rcases List.mem_append.mp he with hbefore | hlast
  · exact h e hbefore hkind
  · rw [List.mem_singleton.mp hlast, hfetched] at hkind
    cases hkind

theorem Kept.applyFetchedProfile (h : s.Kept) {fetched : JsString × Option (CachedProfile ν)}
    (hnew : ∀ profile ∈ fetched.2, ∀ event ∈ s.applied, event.pubkey = fetched.1 →
      event.created_at ≤ profile.created_at) : (s.applyFetchedProfile fetched).Kept := by
  unfold ProfileCoordinator.applyFetchedProfile
  split
  · rename_i profile hprofile
    refine ⟨?_, ?_, ?_⟩
    · exact neverBack_apply false h.neverBack (hnew profile hprofile) rfl rfl
    · exact watermark_append h.watermark rfl rfl rfl
    · exact snapshots_append h.snapshots rfl rfl
  · exact h.frame (.refl _) rfl rfl fun refresh hr => ⟨refresh, hr, rfl, rfl⟩

/-- What a batch adds for one pubkey is none of another's. -/
theorem applied_applyFetchedProfile {fetched : JsString × Option (CachedProfile ν)}
    {event : AppliedEvent} (h : event ∈ (s.applyFetchedProfile fetched).applied) :
    event ∈ s.applied ∨ event.pubkey = fetched.1 := by
  unfold ProfileCoordinator.applyFetchedProfile at h
  split at h
  · rcases List.mem_append.mp h with hbefore | hlast
    · exact .inl hbefore
    · exact .inr (List.mem_singleton.mp hlast ▸ rfl)
  · exact .inl h

theorem Kept.applyFetchedEntries {entries : List (JsString × Option (CachedProfile ν))}
    (hn : (entries.map Prod.fst).Nodup) (h : s.Kept)
    (hnew : ∀ fetched ∈ entries, ∀ profile ∈ fetched.2, ∀ event ∈ s.applied,
      event.pubkey = fetched.1 → event.created_at ≤ profile.created_at) :
    (entries.foldl ProfileCoordinator.applyFetchedProfile s).Kept := by
  induction entries generalizing s with
  | nil => exact h
  | cons fetched entries ih =>
    obtain ⟨hkey, hn⟩ := List.nodup_cons.mp hn
    refine ih hn (h.applyFetchedProfile (hnew fetched List.mem_cons_self)) ?_
    intro later hlater profile hprofile event hevent hpubkey
    rcases applied_applyFetchedProfile hevent with hbefore | hsame
    · exact hnew later (List.mem_cons_of_mem _ hlater) profile hprofile event hbefore hpubkey
    · have hmem : later.1 ∈ entries.map Prod.fst := List.mem_map_of_mem hlater
      rw [← hpubkey, hsame] at hmem
      exact absurd hmem hkey

theorem Kept.endFetch (h : s.Kept) (f : Nat) (pubkeys : List JsString) :
    (s.endFetch f pubkeys).Kept := by
  simp only [ProfileCoordinator.endFetch, applyBootFastRetryLane]
  split_ifs
  · exact h.frame (.refl _) rfl rfl fun refresh hr => ⟨refresh, hr, rfl, rfl⟩
  · exact h.frame (.refl _) rfl rfl fun refresh hr => ⟨refresh, hr, rfl, rfl⟩

/-- What taking profiles away leaves of a session, and what it keeps for the refresh. -/
structure Taken (s : ProfileCoordinator ν)
    (acc : OrderedMap JsString (CachedProfile ν) × ProfileCoordinator ν) : Prop where
  fades : s.cache.Fades acc.2.cache
  applied : acc.2.applied = s.applied
  early : acc.2.earlyProfileCreatedAt = s.earlyProfileCreatedAt
  refreshes : acc.2.refreshes = s.refreshes
  previous : ∀ pubkey previous, acc.1.get? pubkey = some previous →
    s.cache.shows pubkey = some previous.created_at

theorem taken_takeAway {acc : OrderedMap JsString (CachedProfile ν) × ProfileCoordinator ν}
    (h : Taken s acc) (pubkey : JsString) : Taken s (takeAway acc pubkey) := by
  refine ⟨?_, h.applied, h.early, h.refreshes, ?_⟩
  · exact (h.fades.trans (ProfileCache.fades_read _ _ _)).trans (ProfileCache.fades_remove _ _)
  · intro p previous hget
    simp only [takeAway] at hget
    split at hget
    · rename_i cached hread
      rw [OrderedMap.get?_set] at hget
      by_cases hp : p = pubkey
      · rw [if_pos hp] at hget
        cases hget
        exact hp ▸ h.fades pubkey _ (ProfileCache.read_shows hread)
      · rw [if_neg hp] at hget
        exact h.previous p previous hget
    · exact h.previous p previous hget

/-- A refresh starts with profiles that are not older than what was applied so far. -/
theorem Kept.addRefresh (h : s.Kept) {refresh : ProfileRefresh ν}
    (hsince : refresh.since = s.applied.length)
    (hprevious : ∀ pubkey previous, refresh.previous.get? pubkey = some previous →
      ∀ event ∈ s.applied, event.pubkey = pubkey → event.created_at ≤ previous.created_at) :
    Kept { s with refreshes := s.refreshes ++ [refresh] } := by
  refine ⟨h.neverBack, h.watermark, ?_⟩
  intro r hr
  rcases List.mem_append.mp hr with hold | hnew
  · exact h.snapshots r hold
  · obtain rfl := List.mem_singleton.mp hnew
    refine ⟨Nat.le_of_eq hsince, fun pubkey previous hget event hevent => ?_⟩
    exact hprevious pubkey previous hget event (List.mem_of_mem_take hevent)

theorem Kept.refreshProfiles (h : s.Kept) (pubkeys : List JsString) :
    (s.refreshProfiles pubkeys).Kept := by
  have htaken : Taken s (pubkeys.eraseDups.foldl takeAway (.empty, s)) := by
    refine List.foldlRecOn _ _ ⟨.refl _, rfl, rfl, rfl, fun _ _ hget => nomatch hget⟩ ?_
    exact fun acc hacc pubkey _ => taken_takeAway hacc pubkey
  have hkept : ((pubkeys.eraseDups.foldl takeAway (.empty, s)).2.addWanted pubkeys.eraseDups).Kept :=
    h.frame htaken.fades htaken.applied htaken.early
      fun refresh hr => ⟨refresh, htaken.refreshes ▸ hr, rfl, rfl⟩
  refine hkept.addRefresh rfl fun pubkey previous hget event hevent hpubkey => ?_
  have hshown := htaken.previous pubkey previous hget
  exact h.neverBack pubkey _ hshown event (htaken.applied ▸ hevent) hpubkey

/-- A restoration under way: nothing more was applied, and the result only grows. -/
structure Restoring (s : ProfileCoordinator ν) (result : OrderedMap JsString (CachedProfile ν))
    (acc : OrderedMap JsString (CachedProfile ν) × ProfileCoordinator ν) : Prop where
  kept : acc.2.Kept
  applied : acc.2.applied = s.applied
  refreshes : acc.2.refreshes = s.refreshes
  grows : ∀ pubkey, result.has pubkey = true → acc.1.has pubkey = true

theorem restoring_restoreProfile {previous result : OrderedMap JsString (CachedProfile ν)}
    {acc : OrderedMap JsString (CachedProfile ν) × ProfileCoordinator ν}
    (h : Restoring s result acc)
    (hnew : result.has pubkey = false → ∀ restored ∈ previous.get? pubkey,
      ∀ event ∈ s.applied, event.pubkey = pubkey → event.created_at ≤ restored.created_at) :
    Restoring s result (restoreProfile previous acc pubkey) := by
  unfold restoreProfile
  split_ifs with hhas
  · exact h
  · split
    · exact h
    · rename_i restored hprevious
      have hempty : result.has pubkey = false := by
        cases hresult : result.has pubkey with
        | false => rfl
        | true => exact absurd (h.grows pubkey hresult) hhas
      have hbound := hnew hempty restored hprevious
      refine ⟨⟨?_, h.kept.watermark, h.kept.snapshots⟩, h.applied, h.refreshes, ?_⟩
      · exact neverBack_store h.kept.neverBack (h.applied ▸ hbound) rfl rfl
      · intro p hp
        have hgrown := h.grows p hp
        unfold OrderedMap.has at hgrown ⊢
        rw [OrderedMap.get?_set]
        split_ifs
        · rfl
        · exact hgrown

theorem fades_partitionPubkeys (pubkeys : List JsString) :
    s.cache.Fades (s.partitionPubkeys pubkeys).cache := by
  unfold partitionPubkeys
  refine List.foldlRecOn (motive := fun acc => s.cache.Fades acc.cache) pubkeys s.partitionPubkey ?_
    fun acc hacc pubkey _ => ?_
  · exact .refl s.cache
  · have hread := hacc.trans (ProfileCache.fades_read acc.cache pubkey s.now)
    simp only [partitionPubkey]
    split
    · exact hread
    · split_ifs
      · exact hread
      · exact hread
      · exact hread

theorem Kept.flush (h : s.Kept) : s.flush.Kept := by
  have hfades := fades_partitionPubkeys (s := s) s.wanted.keys
  simp only [ProfileCoordinator.flush]
  split_ifs
  · exact h
  all_goals exact h.frame hfades rfl rfl fun refresh hr => ⟨refresh, hr, rfl, rfl⟩

theorem fades_allSettled (pubkeys : List JsString) (c : ProfileCache ν) :
    c.Fades (s.allSettled c pubkeys).2 := by
  induction pubkeys generalizing c with
  | nil => exact .refl c
  | cons pubkey pubkeys ih =>
    have hasked := ProfileCache.fades_hasProfile c pubkey s.now
    simp only [allSettled]
    split_ifs
    · exact hasked.trans (ih _)
    · exact hasked

theorem fades_readResults (pubkeys : List JsString) :
    s.cache.Fades (pubkeys.foldl s.readResult (.empty, s.cache)).2 := by
  refine List.foldlRecOn (motive := fun acc => s.cache.Fades acc.2) pubkeys s.readResult ?_
    fun acc hacc pubkey _ => ?_
  · exact .refl s.cache
  · exact hacc.trans (ProfileCache.fades_read acc.2 pubkey s.now)

/-- A refresh that moves on is the refresh that it was. -/
theorem mem_setRefresh {r : Nat} {refresh : ProfileRefresh ν} {phase : RefreshPhase ν}
    (hr : s.refreshes[r]? = some refresh) :
    ∀ new ∈ (s.setRefresh r { refresh with phase := phase }).refreshes,
      ∃ old ∈ s.refreshes, new.previous = old.previous ∧ new.since = old.since := by
  intro new hnew
  rcases List.mem_or_eq_of_mem_set hnew with hold | rfl
  · exact ⟨new, hold, rfl, rfl⟩
  · exact ⟨refresh, List.mem_of_getElem? hr, rfl, rfl⟩

theorem Kept.restoreProfiles (h : s.Kept) {refresh : ProfileRefresh ν}
    (hrefresh : refresh ∈ s.refreshes) {result : OrderedMap JsString (CachedProfile ν)}
    (hnew : ∀ pubkey ∈ refresh.pubkeys, result.has pubkey = false →
      ∀ restored ∈ refresh.previous.get? pubkey, ∀ event ∈ s.applied.drop refresh.since,
        event.pubkey = pubkey → event.created_at ≤ restored.created_at) :
    Restoring s result (refresh.pubkeys.foldl (restoreProfile refresh.previous) (result, s)) := by
  refine List.foldlRecOn (motive := Restoring s result) _ _ ?_ fun acc hacc pubkey hpubkey => ?_
  · exact ⟨h, rfl, rfl, fun _ hp => hp⟩
  · refine restoring_restoreProfile hacc fun hempty restored hget event hevent hp => ?_
    rw [← List.take_append_drop refresh.since s.applied] at hevent
    rcases List.mem_append.mp hevent with hbefore | hsince
    · exact (h.snapshots refresh hrefresh).2 pubkey restored hget event hbefore hp
    · exact hnew pubkey hpubkey hempty restored hget event hsince hp

section Steps

variable [JsNumber ν]

theorem earlyProfile_some {event : Event} {profile : CachedProfile ν}
    (h : s.earlyProfile event = some profile) :
    (∀ newest ∈ s.earlyProfileCreatedAt.get? event.pubkey, newest < event.created_at) ∧
      profile.created_at = event.created_at := by
  unfold earlyProfile at h
  split_ifs at h with hkind hwatermark
  refine ⟨fun newest hnewest => ?_, ?_⟩
  · rw [Option.mem_def.mp hnewest] at hwatermark
    simpa using hwatermark
  · obtain ⟨info, -, rfl⟩ := Option.map_eq_some_iff.mp (by simpa [eventToProfile] using h)
    rfl

/-- A streamed event passes the watermark, so only what came with a batch can be newer. -/
theorem Kept.streamed (h : s.Kept) {event : Event}
    (hguard : (s.earlyProfile event).isSome = true →
      s.NoNewerFetched event.pubkey event.created_at) : (s.applyEarlyProfileEvent event).Kept := by
  unfold applyEarlyProfileEvent
  split
  · exact h
  · rename_i profile hprofile
    obtain ⟨hwatermark, hcreated⟩ := earlyProfile_some hprofile
    have hbound : ∀ a ∈ s.applied, a.pubkey = event.pubkey → a.created_at ≤ event.created_at :=
      h.watermark.bound (fun newest hn => Int.le_of_lt (hwatermark newest hn))
        (hguard (by rw [hprofile]; rfl))
    refine ⟨?_, ?_, ?_⟩
    · refine neverBack_apply true h.neverBack (hcreated ▸ hbound) rfl ?_
      rw [hcreated]
      rfl
    · intro a ha hearly
      rcases List.mem_append.mp ha with hbefore | hlast
      · by_cases hp : a.pubkey = event.pubkey
        · refine ⟨event.created_at, ?_, hbound a hbefore hp⟩
          rw [hp]
          exact OrderedMap.get?_set_self ..
        · obtain ⟨newest, hnewest, hle⟩ := h.watermark a hbefore hearly
          refine ⟨newest, ?_, hle⟩
          exact (OrderedMap.get?_set_of_ne _ hp _).trans hnewest
      · obtain rfl := List.mem_singleton.mp hlast
        exact ⟨event.created_at, OrderedMap.get?_set_self .., Int.le_refl _⟩
    · exact snapshots_append h.snapshots rfl rfl

theorem Kept.step {a : CoordinatorAction} (h : s.Kept) (hguard : s.KeepsNewest a)
    (hs : s.step a = some t) : t.Kept := by
  have hsame : ∀ refresh ∈ s.refreshes, ∃ old ∈ s.refreshes,
      refresh.previous = old.previous ∧ refresh.since = old.since :=
    fun refresh hr => ⟨refresh, hr, rfl, rfl⟩
  cases a with
  | streamed event =>
    cases hs
    exact h.streamed hguard
  | retain pubkeys =>
    cases hs
    exact h.frame (.refl _) rfl rfl hsame
  | release pubkeys =>
    simp only [ProfileCoordinator.step] at hs
    split_ifs at hs
    cases hs
    exact h.frame (.refl _) rfl rfl hsame
  | flush =>
    cases hs
    exact h.flush
  | batchResult f events =>
    obtain ⟨pubkeys, hpubkeys, rfl⟩ := Option.map_eq_some_iff.mp hs
    refine Kept.endFetch (h.applyFetchedEntries (s.fetchedProfiles pubkeys events).nodup ?_) f _
    intro fetched hfetched profile hprofile
    obtain ⟨hearly, hbatches⟩ := hguard pubkeys hpubkeys fetched hfetched profile hprofile
    exact h.watermark.bound hearly hbatches
  | batchFailed f =>
    obtain ⟨pubkeys, -, rfl⟩ := Option.map_eq_some_iff.mp hs
    have hreleased : (s.releaseFailedPubkeys pubkeys).Kept := h.frame (.refl _) rfl rfl hsame
    exact hreleased.endFetch f pubkeys
  | refreshProfiles pubkeys =>
    cases hs
    exact h.refreshProfiles pubkeys
  | settled r =>
    obtain ⟨refresh, hr, hphase⟩ := Option.bind_eq_some_iff.mp hs
    dsimp only at hphase
    split at hphase
    · split_ifs at hphase
      cases hphase
      exact h.frame (fades_allSettled _ _) rfl rfl (mem_setRefresh hr)
    · cases hphase
  | answered r =>
    obtain ⟨refresh, hr, hphase⟩ := Option.bind_eq_some_iff.mp hs
    dsimp only at hphase
    split at hphase
    · cases hphase
      exact h.frame (fades_readResults _) rfl rfl (mem_setRefresh hr)
    · cases hphase
  | restored r =>
    obtain ⟨refresh, hr, hphase⟩ := Option.bind_eq_some_iff.mp hs
    dsimp only at hphase
    split at hphase
    · rename_i result hanswered
      cases hphase
      have hmem : refresh ∈ s.refreshes := List.mem_of_getElem? hr
      have hrestoring := h.restoreProfiles hmem (hguard refresh hr result (by rw [hanswered]; rfl))
      refine hrestoring.kept.frame (.refl _) rfl rfl ?_
      exact mem_setRefresh (by rw [hrestoring.refreshes]; exact hr)
    · cases hphase
  | read pubkey =>
    cases hs
    exact h.frame (ProfileCache.fades_read _ _ _) rfl rfl hsame
  | tick ms =>
    cases hs
    exact h.frame (.refl _) rfl rfl hsame

/-- In a run whose batches and streams bring nothing older than the other path applied before, and
whose refreshes restore no profile that was overtaken, the cache never goes back. -/
theorem profiles_neverBack {cache : ProfileCache ν} {missedPubkeys : List JsString} {now : Nat}
    {as : List CoordinatorAction}
    (hguard : Guarded step KeepsNewest (init cache missedPubkeys now) as)
    (hrun : run step (init cache missedPubkeys now) as = some s) : s.NeverBack := by
  have hkept : s.Kept :=
    run_invariant (fun _ _ _ h hg hs => h.step hg hs) (kept_init cache missedPubkeys now) hguard hrun
  exact hkept.neverBack

end Steps

end Invariant

section Runs

/-- Natural numbers as the numbers of a run on concrete input. -/
instance naturals : JsNumber Nat where
  parse := digitsValue
  print n := intToString 10 n
  isZero n := n = 0
  same m n := m = n

/-- A user's kind-0 event, as published at a time. -/
def profileAt (created_at : Int) : Event :=
  ⟨js "e", js "user", created_at, 0, [], js "\x7b\"name\":\"A\"\x7d", []⟩

def emptySession : ProfileCoordinator Nat := init ⟨.empty⟩ [] 0

/-- A surface shows the user, and the relays bring a profile; then the user is refreshed. -/
def refreshedSession (first again : Int) : List CoordinatorAction :=
  [.retain [js "user"], .tick 2000, .flush, .streamed (profileAt first),
    .batchResult 0 [some (profileAt first)], .tick 5000, .refreshProfiles [js "user"], .flush,
    .streamed (profileAt again), .batchResult 1 [some (profileAt again)]]

theorem profiles_neverBack_refreshed :
    ∃ s, run step emptySession (refreshedSession 10 20) = some s ∧ s.NeverBack := by
  obtain ⟨s, hs⟩ := Option.isSome_iff_exists.mp
    (show (run step emptySession (refreshedSession 10 20)).isSome = true by decide +kernel)
  exact ⟨s, hs, profiles_neverBack (by decide +kernel) hs⟩

/-- Two refreshes of the user, the first of them waiting for another pubkey, too: a newer profile is
streamed between them, and the first restores the one that it took away. -/
def crossedRefreshes : List CoordinatorAction :=
  [.retain [js "user"], .tick 2000, .flush, .streamed (profileAt 10),
    .batchResult 0 [some (profileAt 10)], .tick 5000, .refreshProfiles [js "user", js "other"],
    .flush, .streamed (profileAt 20), .refreshProfiles [js "user"], .tick 8000, .settled 0,
    .answered 0, .restored 0]

/-- The cache shows an old profile of the user after a newer event of the user was applied. -/
def WentBack (s : ProfileCoordinator Nat) : Prop :=
  s.cache.shows (js "user") = some 10 ∧
    ∃ event ∈ s.applied, event.pubkey = js "user" ∧ event.created_at = 20

instance (s : ProfileCoordinator Nat) : Decidable s.WentBack :=
  inferInstanceAs (Decidable (s.cache.shows (js "user") = some 10 ∧
    ∃ event ∈ s.applied, event.pubkey = js "user" ∧ event.created_at = 20))

theorem WentBack.not_neverBack {s : ProfileCoordinator Nat} (h : s.WentBack) : ¬ s.NeverBack := by
  obtain ⟨hshows, event, hevent, hpubkey, hcreated⟩ := h
  intro hnever
  have hle : event.created_at ≤ 10 := hnever _ 10 hshows event hevent hpubkey
  omega

/-- After a refresh the batch brings an older profile than the one that was streamed before; and a
refresh restores a profile that was overtaken while it waited. -/
theorem profiles_neverBack_fails :
    (∃ s, run step emptySession (refreshedSession 20 10) = some s ∧ s.WentBack ∧ ¬ s.NeverBack) ∧
      ∃ s, run step emptySession crossedRefreshes = some s ∧ s.WentBack ∧ ¬ s.NeverBack := by
  constructor
  · have hback : (run step emptySession (refreshedSession 20 10)).any (fun s => s.WentBack) = true := by
      decide +kernel
    obtain ⟨s, hrun, hs⟩ := (Option.any_eq_true _ _).mp hback
    have hwent : s.WentBack := of_decide_eq_true hs
    exact ⟨s, hrun, hwent, hwent.not_neverBack⟩
  · have hback : (run step emptySession crossedRefreshes).any (fun s => s.WentBack) = true := by
      decide +kernel
    obtain ⟨s, hrun, hs⟩ := (Option.any_eq_true _ _).mp hback
    have hwent : s.WentBack := of_decide_eq_true hs
    exact ⟨s, hrun, hwent, hwent.not_neverBack⟩

end Runs

end ProfileCoordinator

end LivelierBridge.Nostr
