import LivelierBridge.Nostr.ProfileCoordinator

namespace LivelierBridge.Nostr

open Framework Js

def PROFILE_BOOT_AGGREGATION_MS : Nat := 2000

def PROFILE_DISPATCH_MIN_SPACING_MS : Nat := 5000

/-- Where a call of `flush` stands. -/
inductive FlushPhase where
  /-- It waits for the persisted caches, or is about to go on. -/
  | called
  /-- It waits for its dispatch. -/
  | dispatched (f : Nat)
  | resumed
  deriving DecidableEq

/-- A call of `retain`. -/
structure Retain where
  pubkeys : List JsString
  released : Bool

inductive CallPhase (ν : Type) where
  | waiting
  | woken
  /-- `getProfiles` has returned. -/
  | answered (result : OrderedMap JsString (CachedProfile ν))
  /-- `refreshProfiles` has returned. -/
  | restored (result : OrderedMap JsString (CachedProfile ν))

def CallPhase.answer? {ν : Type} : CallPhase ν → Option (OrderedMap JsString (CachedProfile ν))
  | .answered result => some result
  | _ => none

/-- A call of `getProfiles`, on its own or by a refresh. -/
structure ProfileCall (ν : Type) where
  pubkeys : List JsString
  /-- The retain that the call holds. -/
  retain : Nat
  deadline : Nat
  /-- What the refresh took away. -/
  previous : Option (OrderedMap JsString (CachedProfile ν))
  phase : CallPhase ν

/-- The coordinator of one session with its pacing and its timers, from its construction on. The
session keeps its own retains and calls; those of `core` stay empty. -/
structure ProfileSession (ν : Type) where
  core : ProfileCoordinator ν
  /-- The profile cache has been loaded. -/
  initialized : Bool
  /-- The recorded misses have been loaded. -/
  missesReady : Bool
  flushes : List FlushPhase
  bootWindowUntil : Nat
  /-- When the timer is due. -/
  bootTimer : Option Nat
  retryTimer : Option Nat
  lastDispatchAt : Nat
  dispatchMinSpacingMs : Nat
  retains : List Retain
  calls : List (ProfileCall ν)
  /-- When each dispatch started. -/
  dispatchedAt : List Nat
  /-- The pubkeys of the dispatches that have settled. -/
  attempted : List JsString

inductive SessionAction (ν : Type) where
  | hydrateCache (persisted : OrderedMap JsString (CachedProfile ν))
  | hydrateMisses (missedPubkeys : List JsString)
  /-- The client streams an event. -/
  | streamed (event : Event)
  | retain (pubkeys : List JsString)
  /-- The function that a retain returned is called. -/
  | release (i : Nat)
  | getProfiles (pubkeys : List JsString) (timeoutMs : Nat)
  | refreshProfiles (pubkeys : List JsString)
  /-- The wait of a call ends. -/
  | wake (c : Nat)
  /-- `getProfiles` releases its retain and returns. -/
  | answer (c : Nat)
  /-- The refresh restores what came back empty. -/
  | restore (c : Nat)
  /-- A flush goes on once the caches have been loaded. -/
  | flush
  /-- `fetchProfileEvents` resolves. -/
  | batchResult (f : Nat) (events : List (Option Event))
  | batchFailed (f : Nat)
  /-- A flush goes on after its dispatch. -/
  | resumeFlush
  | bootTimerFires
  | retryTimerFires
  /-- A surface reads the cache. -/
  | read (pubkey : JsString)
  | tick (ms : Nat)

/-- Only strictly future retry times count. -/
def earlierRetry (failures : OrderedMap JsString FailedProfileFetch) (now : Nat)
    (earliest : Option Nat) (pubkey : JsString) : Option Nat :=
  match failures.get? pubkey with
  | none => earliest
  | some failure =>
    if failure.nextRetryAt ≤ now then earliest
    else
      match earliest with
      | none => some failure.nextRetryAt
      | some e => if failure.nextRetryAt < e then some failure.nextRetryAt else earliest

def earliestRetryAt (pubkeys : List JsString) (failures : OrderedMap JsString FailedProfileFetch)
    (now : Nat) : Option Nat :=
  pubkeys.foldl (earlierRetry failures now) none

theorem isSome_earlierRetry {failures : OrderedMap JsString FailedProfileFetch} {now : Nat}
    {earliest : Option Nat} (h : earliest.isSome = true) (pubkey : JsString) :
    (earlierRetry failures now earliest pubkey).isSome = true := by
  unfold earlierRetry
  split
  · exact h
  · split_ifs
    · exact h
    · split
      · rfl
      · split_ifs
        · rfl
        · exact h

theorem earlierRetry_future {failures : OrderedMap JsString FailedProfileFetch} {now : Nat}
    {pubkey : JsString} {failure : FailedProfileFetch} (hget : failures.get? pubkey = some failure)
    (hfuture : now < failure.nextRetryAt) (earliest : Option Nat) :
    (earlierRetry failures now earliest pubkey).isSome = true := by
  unfold earlierRetry
  rw [hget]
  simp only [if_neg (Nat.not_le.mpr hfuture)]
  split
  · rfl
  · split_ifs
    · rfl
    · rfl

theorem earliestRetryAt_isSome {failures : OrderedMap JsString FailedProfileFetch} {now : Nat}
    {pubkeys : List JsString} {pubkey : JsString} {failure : FailedProfileFetch}
    (hmem : pubkey ∈ pubkeys) (hget : failures.get? pubkey = some failure)
    (hfuture : now < failure.nextRetryAt) : (earliestRetryAt pubkeys failures now).isSome = true := by
  obtain ⟨before, after, rfl⟩ := List.append_of_mem hmem
  rw [earliestRetryAt, List.foldl_append, List.foldl_cons]
  refine List.foldlRecOn (motive := fun earliest : Option Nat => earliest.isSome = true) after _ ?_
    fun earliest hearliest p _ => ?_
  · exact earlierRetry_future hget hfuture _
  · exact isSome_earlierRetry hearliest p

namespace ProfileSession

section Operations

variable {ν : Type}

/-- A session at its construction. -/
def init (ν : Type) (now : Nat) : ProfileSession ν where
  core := .init ⟨.empty⟩ [] now
  initialized := false
  missesReady := false
  flushes := []
  bootWindowUntil := now + PROFILE_BOOT_AGGREGATION_MS
  bootTimer := none
  retryTimer := none
  lastDispatchAt := 0
  dispatchMinSpacingMs := PROFILE_DISPATCH_MIN_SPACING_MS
  retains := []
  calls := []
  dispatchedAt := []
  attempted := []

variable (s : ProfileSession ν)

def hydrated : Bool := s.initialized && s.missesReady

def scheduleRetry : ProfileSession ν :=
  { s with retryTimer := earliestRetryAt s.core.wanted.keys s.core.failures s.core.now }

/-- The coordinator as its reads see it: nothing is found in the cache before it has been loaded. -/
def shown : ProfileCoordinator ν :=
  if s.initialized then s.core else { s.core with cache := ⟨.empty⟩ }

/-- What reads and removals leave of the cache: before it has been loaded they do nothing. -/
def setShown (cache : ProfileCache ν) : ProfileSession ν :=
  if s.initialized then { s with core := { s.core with cache := cache } } else s

/-- Loading: the profiles that have not expired go over what was stored before. -/
def hydrateCache (persisted : OrderedMap JsString (CachedProfile ν)) : ProfileSession ν :=
  let live := persisted.filter fun entry =>
    entry.2.timestamp ≠ 0 && s.core.now - entry.2.timestamp < ProfileCache.CACHE_TTL
  let cache := live.entries.foldl (fun cache entry => cache.set entry.1 entry.2) s.core.cache.cache
  { s with
    core := { s.core with cache := ⟨cache⟩ }
    initialized := true }

/-- A recorded miss starts with its retries used up and may be asked for at once. -/
def hydrateMisses (missedPubkeys : List JsString) : ProfileSession ν :=
  let failures := missedPubkeys.foldl
    (fun m p => if m.has p then m else m.set p ⟨PROFILE_RETRY_MAX_ATTEMPTS, 0⟩) s.core.failures
  { s with
    core := { s.core with failures := failures }
    missesReady := true }

def retain (pubkeys : List JsString) : ProfileSession ν :=
  let unique := pubkeys.eraseDups
  { s with
    core := s.core.addWanted unique
    retains := s.retains ++ [⟨unique, false⟩]
    flushes := s.flushes ++ [.called] }

/-- The first call of a retain's release. -/
def releaseRetain (i : Nat) (retain : Retain) : ProfileSession ν :=
  { s with
    core := s.core.dropWanted retain.pubkeys
    retains := s.retains.set i { retain with released := true } }

def release (i : Nat) : ProfileSession ν :=
  match s.retains[i]? with
  | none => s
  | some retain => if retain.released then s else (s.releaseRetain i retain).scheduleRetry

def getProfiles (pubkeys : List JsString) (timeoutMs : Nat)
    (previous : Option (OrderedMap JsString (CachedProfile ν))) : ProfileSession ν :=
  { s.retain pubkeys with
    calls := s.calls ++ [⟨pubkeys, s.retains.length, s.core.now + timeoutMs, previous, .waiting⟩] }

/-- What a refresh takes away, and what that leaves. -/
def takeAll (pubkeys : List JsString) :
    OrderedMap JsString (CachedProfile ν) × ProfileCoordinator ν :=
  pubkeys.foldl ProfileCoordinator.takeAway (.empty, s.shown)

def refreshProfiles (pubkeys : List JsString) : ProfileSession ν :=
  let unique := pubkeys.eraseDups
  let taken := s.takeAll unique
  let s := s.setShown taken.2.cache
  let s := { s with core := { s.core with failures := taken.2.failures } }
  s.getProfiles unique GET_PROFILES_TIMEOUT_MS (some taken.1)

def setCall (c : Nat) (call : ProfileCall ν) : ProfileSession ν :=
  { s with calls := s.calls.set c call }

def wake (c : Nat) (call : ProfileCall ν) : Option (ProfileSession ν) :=
  let asked := s.shown.allSettled s.shown.cache call.pubkeys.eraseDups
  if asked.1 || call.deadline ≤ s.core.now then
    some ((s.setShown asked.2).setCall c { call with phase := .woken })
  else none

def answer (c : Nat) (call : ProfileCall ν) : ProfileSession ν :=
  let s := s.release call.retain
  let asked := call.pubkeys.foldl s.shown.readResult (.empty, s.shown.cache)
  (s.setShown asked.2).setCall c { call with phase := .answered asked.1 }

/-- What a refresh returns, and what its restorations leave. -/
def restoreAll (call : ProfileCall ν) (previous result : OrderedMap JsString (CachedProfile ν)) :
    OrderedMap JsString (CachedProfile ν) × ProfileCoordinator ν :=
  call.pubkeys.foldl (ProfileCoordinator.restoreProfile previous) (result, s.core)

def restore (c : Nat) (call : ProfileCall ν) (previous result : OrderedMap JsString (CachedProfile ν)) :
    ProfileSession ν :=
  let restored := s.restoreAll call previous result
  { s with core := restored.2.emit }.setCall c { call with phase := .restored restored.1 }

def earliestDispatchAt : Nat := max s.bootWindowUntil (s.lastDispatchAt + s.dispatchMinSpacingMs)

/-- The pubkeys that a flush would ask for now. -/
def missingPubkeys : List JsString := (s.core.partitionPubkeys s.core.wanted.keys).missingPubkeys

def dispatch : ProfileSession ν :=
  { s with
    core := s.core.flush
    lastDispatchAt := s.core.now
    dispatchedAt := s.dispatchedAt ++ [s.core.now]
    flushes := s.flushes ++ [.dispatched s.core.fetches.length] }

/-- `flush`, after the wait for the persisted caches. -/
def flush : ProfileSession ν :=
  if s.core.now < s.earliestDispatchAt then
    if s.bootTimer.isNone then { s with bootTimer := some s.earliestDispatchAt } else s
  else if s.core.wanted.keys = [] then { s with retryTimer := none }
  else if s.missingPubkeys = [] then { s with core := s.core.flush }.scheduleRetry
  else s.dispatch

/-- A dispatch settles, and its flush goes on. -/
def settle (f : Nat) (pubkeys : List JsString) (core : ProfileCoordinator ν) : ProfileSession ν :=
  { s with
    core := core.endFetch f pubkeys
    flushes := s.flushes.map fun phase => if phase = .dispatched f then .resumed else phase
    attempted := s.attempted ++ pubkeys }

end Operations

section Steps

variable {ν : Type} [JsNumber ν] (s : ProfileSession ν)

/-- One step of the session. -/
def step : SessionAction ν → Option (ProfileSession ν)
  | .hydrateCache persisted => if s.initialized then none else some (s.hydrateCache persisted)
  | .hydrateMisses missedPubkeys =>
    if s.missesReady then none else some (s.hydrateMisses missedPubkeys)
  | .streamed event => some { s with core := s.core.applyEarlyProfileEvent event }
  | .retain pubkeys => some (s.retain pubkeys)
  | .release i =>
    if i < s.retains.length ∧ ∀ call ∈ s.calls, call.retain ≠ i then some (s.release i) else none
  | .getProfiles pubkeys timeoutMs => some (s.getProfiles pubkeys timeoutMs none)
  | .refreshProfiles pubkeys => some (s.refreshProfiles pubkeys)
  | .wake c =>
    (s.calls[c]?).bind fun call =>
      match call.phase with
      | .waiting => s.wake c call
      | _ => none
  | .answer c =>
    (s.calls[c]?).bind fun call =>
      match call.phase with
      | .woken => some (s.answer c call)
      | _ => none
  | .restore c =>
    (s.calls[c]?).bind fun call =>
      call.previous.bind fun previous => call.phase.answer?.map (s.restore c call previous)
  | .flush =>
    if s.hydrated ∧ .called ∈ s.flushes then
      some (flush { s with flushes := s.flushes.erase .called })
    else none
  | .batchResult f events =>
    (s.core.fetches[f]?).join.map fun pubkeys =>
      s.settle f pubkeys (s.core.applyFetchedProfiles (s.core.fetchedProfiles pubkeys events))
  | .batchFailed f =>
    (s.core.fetches[f]?).join.map fun pubkeys =>
      s.settle f pubkeys (s.core.releaseFailedPubkeys pubkeys)
  | .resumeFlush =>
    if .resumed ∈ s.flushes then some { s with flushes := s.flushes.erase .resumed }.scheduleRetry
    else none
  | .bootTimerFires =>
    s.bootTimer.bind fun due =>
      if due ≤ s.core.now then some { s with bootTimer := none, flushes := s.flushes ++ [.called] }
      else none
  | .retryTimerFires =>
    s.retryTimer.bind fun due =>
      if due ≤ s.core.now then some { s with retryTimer := none, flushes := s.flushes ++ [.called] }
      else none
  | .read pubkey => some (s.setShown (s.shown.cache.read pubkey s.core.now).2)
  | .tick ms => some { s with core := { s.core with now := s.core.now + ms } }

/-- What a step does, by its action. -/
inductive Stepped : SessionAction ν → ProfileSession ν → Prop
  | hydrateCache {persisted : OrderedMap JsString (CachedProfile ν)} (hinit : s.initialized = false) :
    Stepped (.hydrateCache persisted) (s.hydrateCache persisted)
  | hydrateMisses {missedPubkeys : List JsString} :
    Stepped (.hydrateMisses missedPubkeys) (s.hydrateMisses missedPubkeys)
  | streamed {event : Event} :
    Stepped (.streamed event) { s with core := s.core.applyEarlyProfileEvent event }
  | retain {pubkeys : List JsString} : Stepped (.retain pubkeys) (s.retain pubkeys)
  | release {i : Nat} : Stepped (.release i) (s.release i)
  | getProfiles {pubkeys : List JsString} {timeoutMs : Nat} :
    Stepped (.getProfiles pubkeys timeoutMs) (s.getProfiles pubkeys timeoutMs none)
  | refreshProfiles {pubkeys : List JsString} :
    Stepped (.refreshProfiles pubkeys) (s.refreshProfiles pubkeys)
  | wake {c : Nat} {call : ProfileCall ν} (hcall : s.calls[c]? = some call)
    (hphase : call.phase = .waiting)
    (hready : (s.shown.allSettled s.shown.cache call.pubkeys.eraseDups).1 = true ∨
      call.deadline ≤ s.core.now) :
    Stepped (.wake c)
      ((s.setShown (s.shown.allSettled s.shown.cache call.pubkeys.eraseDups).2).setCall c
        { call with phase := .woken })
  | answer {c : Nat} {call : ProfileCall ν} (hcall : s.calls[c]? = some call)
    (hphase : call.phase = .woken) : Stepped (.answer c) (s.answer c call)
  | restore {c : Nat} {call : ProfileCall ν} {previous result : OrderedMap JsString (CachedProfile ν)}
    (hcall : s.calls[c]? = some call) (hprevious : call.previous = some previous)
    (hresult : call.phase.answer? = some result) :
    Stepped (.restore c) (s.restore c call previous result)
  | flush (hready : s.hydrated = true) (hcalled : .called ∈ s.flushes) :
    Stepped .flush (flush { s with flushes := s.flushes.erase .called })
  | batchResult {f : Nat} {events : List (Option Event)} {pubkeys : List JsString}
    (hf : s.core.fetches[f]? = some (some pubkeys)) :
    Stepped (.batchResult f events) (s.settle f pubkeys
      (s.core.applyFetchedProfiles (s.core.fetchedProfiles pubkeys events)))
  | batchFailed {f : Nat} {pubkeys : List JsString} (hf : s.core.fetches[f]? = some (some pubkeys)) :
    Stepped (.batchFailed f) (s.settle f pubkeys (s.core.releaseFailedPubkeys pubkeys))
  | resumeFlush (hresumed : .resumed ∈ s.flushes) :
    Stepped .resumeFlush (scheduleRetry { s with flushes := s.flushes.erase .resumed })
  | bootTimerFires {due : Nat} (hset : s.bootTimer = some due) (hdue : due ≤ s.core.now) :
    Stepped .bootTimerFires { s with bootTimer := none, flushes := s.flushes ++ [.called] }
  | retryTimerFires {due : Nat} (hset : s.retryTimer = some due) (hdue : due ≤ s.core.now) :
    Stepped .retryTimerFires { s with retryTimer := none, flushes := s.flushes ++ [.called] }
  | read {pubkey : JsString} :
    Stepped (.read pubkey) (s.setShown (s.shown.cache.read pubkey s.core.now).2)
  | tick {ms : Nat} :
    Stepped (.tick ms) { s with core := { s.core with now := s.core.now + ms } }

variable {s} {t : ProfileSession ν} {a : SessionAction ν}

theorem step_cases (hs : s.step a = some t) : s.Stepped a t := by
  cases a with
  | hydrateCache persisted =>
    simp only [step] at hs
    split_ifs at hs with hinit
    cases hs
    exact .hydrateCache (by simpa using hinit)
  | hydrateMisses missedPubkeys =>
    simp only [step] at hs
    split_ifs at hs
    cases hs
    exact .hydrateMisses
  | streamed event =>
    cases hs
    exact .streamed
  | retain pubkeys =>
    cases hs
    exact .retain
  | release i =>
    simp only [step] at hs
    split_ifs at hs
    cases hs
    exact .release
  | getProfiles pubkeys timeoutMs =>
    cases hs
    exact .getProfiles
  | refreshProfiles pubkeys =>
    cases hs
    exact .refreshProfiles
  | wake c =>
    obtain ⟨call, hcall, hphase⟩ := Option.bind_eq_some_iff.mp hs
    split at hphase
    · rename_i hwaiting
      simp only [wake] at hphase
      split_ifs at hphase with hready
      cases hphase
      exact .wake hcall hwaiting (by simpa using hready)
    · cases hphase
  | answer c =>
    obtain ⟨call, hcall, hphase⟩ := Option.bind_eq_some_iff.mp hs
    split at hphase
    · rename_i hwoken
      cases hphase
      exact .answer hcall hwoken
    · cases hphase
  | restore c =>
    obtain ⟨call, hcall, hphase⟩ := Option.bind_eq_some_iff.mp hs
    obtain ⟨previous, hprevious, hphase⟩ := Option.bind_eq_some_iff.mp hphase
    obtain ⟨result, hresult, rfl⟩ := Option.map_eq_some_iff.mp hphase
    exact .restore hcall hprevious hresult
  | flush =>
    simp only [step] at hs
    split_ifs at hs with hready
    cases hs
    exact .flush hready.1 hready.2
  | batchResult f events =>
    obtain ⟨pubkeys, hf, rfl⟩ := Option.map_eq_some_iff.mp hs
    exact .batchResult (Option.join_eq_some_iff.mp hf)
  | batchFailed f =>
    obtain ⟨pubkeys, hf, rfl⟩ := Option.map_eq_some_iff.mp hs
    exact .batchFailed (Option.join_eq_some_iff.mp hf)
  | resumeFlush =>
    simp only [step] at hs
    split_ifs at hs with hresumed
    cases hs
    exact .resumeFlush hresumed
  | bootTimerFires =>
    obtain ⟨due, hset, hdue⟩ := Option.bind_eq_some_iff.mp hs
    split_ifs at hdue with hnow
    cases hdue
    exact .bootTimerFires hset hnow
  | retryTimerFires =>
    obtain ⟨due, hset, hdue⟩ := Option.bind_eq_some_iff.mp hs
    split_ifs at hdue with hnow
    cases hdue
    exact .retryTimerFires hset hnow
  | read pubkey =>
    cases hs
    exact .read
  | tick ms =>
    cases hs
    exact .tick

end Steps

section Cached

variable {ν : Type} {s : ProfileSession ν} {pubkey : JsString}

/-- `hasProfile` now; nothing is there before the cache has been loaded. -/
def cached (s : ProfileSession ν) (pubkey : JsString) : Bool :=
  s.initialized && (s.core.cache.hasProfile pubkey s.core.now).1

theorem shown_now : s.shown.now = s.core.now := by
  unfold shown
  split_ifs
  · rfl
  · rfl

theorem shown_failures : s.shown.failures = s.core.failures := by
  unfold shown
  split_ifs
  · rfl
  · rfl

theorem hasProfile_shown : (s.shown.cache.hasProfile pubkey s.core.now).1 = s.cached pubkey := by
  unfold cached shown
  cases s.initialized with
  | true => rfl
  | false => rfl

theorem setShown_eq (cache : ProfileCache ν) : s.setShown cache =
    { s with core := { s.core with cache := if s.initialized then cache else s.core.cache } } := by
  unfold setShown
  split_ifs
  · rfl
  · rfl

theorem cached_setShown (cache : ProfileCache ν) : (s.setShown cache).cached pubkey =
    (s.initialized && (cache.hasProfile pubkey s.core.now).1) := by
  rw [setShown_eq]
  unfold cached
  cases h : s.initialized with
  | true => rfl
  | false => rfl

/-- A step that only reads the cache leaves the same pubkeys cached. -/
theorem cached_setShown_of_sameHas {cache : ProfileCache ν}
    (h : s.shown.cache.SameHas cache s.core.now) : (s.setShown cache).cached pubkey = s.cached pubkey := by
  rw [cached_setShown, h pubkey, hasProfile_shown]
  unfold cached
  cases s.initialized with
  | true => rfl
  | false => rfl

end Cached

end ProfileSession

namespace ProfileCoordinator

variable {ν : Type} {s : ProfileCoordinator ν} {pubkeys : List JsString} {pubkey : JsString}

/-- A flush asks for what is not cached, not in flight and not cooling down. -/
def asksFor (s : ProfileCoordinator ν) (pubkey : JsString) : Bool :=
  !(s.cache.hasProfile pubkey s.now).1 && pubkey ∉ s.inFlight &&
    !(s.failures.get? pubkey).any fun failure => s.now < failure.nextRetryAt

theorem partitionPubkeys_spec (s : ProfileCoordinator ν) (pubkeys : List JsString) :
    s.cache.SameHas (s.partitionPubkeys pubkeys).cache s.now ∧
      (s.partitionPubkeys pubkeys).missingPubkeys = pubkeys.filter s.asksFor := by
  suffices h : ∀ acc : PubkeyPartition ν, s.cache.SameHas acc.cache s.now →
      s.cache.SameHas (pubkeys.foldl s.partitionPubkey acc).cache s.now ∧
        (pubkeys.foldl s.partitionPubkey acc).missingPubkeys =
          acc.missingPubkeys ++ pubkeys.filter s.asksFor by
    exact h _ (.refl _)
  induction pubkeys with
  | nil => exact fun acc hacc => ⟨hacc, (List.append_nil _).symm⟩
  | cons pubkey pubkeys ih =>
    intro acc hacc
    have hread := hacc.trans (ProfileCache.sameHas_read acc.cache pubkey s.now)
    have hsome := ProfileCache.read_isSome acc.cache pubkey s.now
    rw [hacc pubkey] at hsome
    simp only [List.foldl_cons, partitionPubkey]
    split
    · rename_i profile hprofile
      have hasks : s.asksFor pubkey = false := by
        rw [hprofile, Option.isSome_some] at hsome
        simp [asksFor, ← hsome]
      rw [List.filter_cons_of_neg (by simp [hasks])]
      exact ih _ hread
    · rename_i hnone
      have hmiss : (s.cache.hasProfile pubkey s.now).1 = false := by
        rw [hnone, Option.isSome_none] at hsome
        exact hsome.symm
      split_ifs with hflight hcooling
      · have hasks : s.asksFor pubkey = false := by simp [asksFor, hflight]
        rw [List.filter_cons_of_neg (by simp [hasks])]
        exact ih _ hread
      · have hasks : s.asksFor pubkey = false := by simp [asksFor, hcooling]
        rw [List.filter_cons_of_neg (by simp [hasks])]
        exact ih _ hread
      · have hasks : s.asksFor pubkey = true := by
          simp only [asksFor, hmiss, hflight, hcooling]
          rfl
        have hrest := ih ⟨(acc.cache.read pubkey s.now).2, acc.cachedProfiles,
          acc.missingPubkeys ++ [pubkey]⟩ hread
        rw [List.append_assoc, List.singleton_append] at hrest
        rw [List.filter_cons_of_pos hasks]
        exact hrest

theorem sameHas_allSettled (pubkeys : List JsString) (c : ProfileCache ν) :
    c.SameHas (s.allSettled c pubkeys).2 s.now := by
  induction pubkeys generalizing c with
  | nil => exact .refl c
  | cons pubkey pubkeys ih =>
    have hasked := ProfileCache.sameHas_hasProfile c pubkey s.now
    simp only [allSettled]
    split_ifs
    · exact hasked.trans (ih _)
    · exact hasked

theorem settled_of_allSettled {c : ProfileCache ν} (h : (s.allSettled c pubkeys).1 = true) :
    ∀ pubkey ∈ pubkeys, (c.hasProfile pubkey s.now).1 = true ∨ s.failures.has pubkey = true := by
  induction pubkeys generalizing c with
  | nil => exact fun _ hmem => absurd hmem List.not_mem_nil
  | cons p pubkeys ih =>
    simp only [allSettled] at h
    split_ifs at h with hp
    intro pubkey hmem
    rcases List.mem_cons.mp hmem with rfl | hrest
    · simpa using hp
    · have hlater := ih h pubkey hrest
      rwa [ProfileCache.sameHas_hasProfile c p s.now pubkey] at hlater

/-- What `getProfiles` reads: the cache keeps its pubkeys, and those it has are in the result. -/
theorem readResults_spec (s : ProfileCoordinator ν) (pubkeys : List JsString) :
    s.cache.SameHas (pubkeys.foldl s.readResult (.empty, s.cache)).2 s.now ∧
      ∀ pubkey ∈ pubkeys, (s.cache.hasProfile pubkey s.now).1 = true →
        (pubkeys.foldl s.readResult (.empty, s.cache)).1.has pubkey = true := by
  suffices h : ∀ acc : OrderedMap JsString (CachedProfile ν) × ProfileCache ν,
      s.cache.SameHas acc.2 s.now →
        s.cache.SameHas (pubkeys.foldl s.readResult acc).2 s.now ∧
          ∀ pubkey, acc.1.has pubkey = true ∨
            pubkey ∈ pubkeys ∧ (s.cache.hasProfile pubkey s.now).1 = true →
              (pubkeys.foldl s.readResult acc).1.has pubkey = true by
    obtain ⟨hsame, hread⟩ := h (.empty, s.cache) (.refl _)
    exact ⟨hsame, fun pubkey hmem hhas => hread pubkey (.inr ⟨hmem, hhas⟩)⟩
  induction pubkeys with
  | nil =>
    refine fun acc hacc => ⟨hacc, fun pubkey h => ?_⟩
    rcases h with hdone | ⟨hmem, -⟩
    · exact hdone
    · exact absurd hmem List.not_mem_nil
  | cons p pubkeys ih =>
    intro acc hacc
    have hsome := ProfileCache.read_isSome acc.2 p s.now
    rw [hacc p] at hsome
    obtain ⟨hsame, hread⟩ := ih (s.readResult acc p)
      (hacc.trans (ProfileCache.sameHas_read acc.2 p s.now))
    refine ⟨hsame, fun pubkey h => hread pubkey ?_⟩
    have hkept : acc.1.has pubkey = true → (s.readResult acc p).1.has pubkey = true := by
      intro hdone
      simp only [readResult]
      split
      · unfold OrderedMap.has at hdone ⊢
        rw [OrderedMap.get?_set]
        split_ifs
        · rfl
        · exact hdone
      · exact hdone
    rcases h with hdone | ⟨hmem, hhas⟩
    · exact .inl (hkept hdone)
    · rcases List.mem_cons.mp hmem with rfl | hrest
      · obtain ⟨profile, hprofile⟩ := Option.isSome_iff_exists.mp (hsome.trans hhas)
        left
        simp only [readResult, hprofile]
        unfold OrderedMap.has
        rw [OrderedMap.get?_set_self]
        rfl
      · exact .inr ⟨hrest, hhas⟩

theorem get?_addWanted (s : ProfileCoordinator ν) (pubkey : JsString) (hn : pubkeys.Nodup) :
    (pubkey ∈ pubkeys →
      (s.addWanted pubkeys).wanted.get? pubkey = some ((s.wanted.get? pubkey).getD 0 + 1)) ∧
      (pubkey ∉ pubkeys → (s.addWanted pubkeys).wanted.get? pubkey = s.wanted.get? pubkey) := by
  refine OrderedMap.get?_foldl (g := fun count => some (count.getD 0 + 1)) ?_ hn _ _
  intro m k k'
  rw [OrderedMap.get?_set]
  by_cases hk : k' = k
  · rw [if_pos hk, if_pos hk, hk]
  · rw [if_neg hk, if_neg hk]

/-- One retain fewer counts; without one the pubkey is not wanted. -/
def lessWanted (count : Option Nat) : Option Nat :=
  count.bind fun n => if n ≤ 1 then none else some (n - 1)

theorem get?_dropWanted (s : ProfileCoordinator ν) (pubkey : JsString) (hn : pubkeys.Nodup) :
    (pubkey ∈ pubkeys →
      (s.dropWanted pubkeys).wanted.get? pubkey = lessWanted (s.wanted.get? pubkey)) ∧
      (pubkey ∉ pubkeys → (s.dropWanted pubkeys).wanted.get? pubkey = s.wanted.get? pubkey) := by
  refine OrderedMap.get?_foldl (g := lessWanted) ?_ hn _ _
  intro m k k'
  by_cases hk : k' = k
  · subst hk
    rw [if_pos rfl]
    split
    · rename_i hget
      rw [hget]
      rfl
    · rename_i count hget
      rw [hget]
      simp only [lessWanted, Option.bind_some]
      split_ifs
      · rw [OrderedMap.get?_delete, if_pos rfl]
      · rw [OrderedMap.get?_set_self]
  · rw [if_neg hk]
    split
    · rfl
    · split_ifs
      · rw [OrderedMap.get?_delete, if_neg hk]
      · rw [OrderedMap.get?_set_of_ne _ hk]

theorem mem_dropWanted (h : pubkey ∈ (s.dropWanted pubkeys).wanted.keys) :
    pubkey ∈ s.wanted.keys := by
  rw [← OrderedMap.has_iff] at h ⊢
  revert h
  simp only [dropWanted]
  refine List.foldlRecOn (motive := fun w : OrderedMap JsString Nat =>
    w.has pubkey = true → s.wanted.has pubkey = true) pubkeys _ ?_ fun w hw p _ => ?_
  · exact id
  · intro h
    apply hw
    split at h
    · exact h
    · rename_i count hget
      unfold OrderedMap.has at h ⊢
      split_ifs at h
      · rw [OrderedMap.get?_delete] at h
        split_ifs at h
        · cases h
        · exact h
      · rw [OrderedMap.get?_set] at h
        split_ifs at h with hp
        · rw [hp, hget]
          rfl
        · exact h

/-- A flush that asks for nothing changes the cache's records of access at most. -/
theorem flush_of_nil (h : (s.partitionPubkeys s.wanted.keys).missingPubkeys = []) :
    ∃ cache version, s.flush = { s with cache := cache, version := version } ∧
      s.cache.SameHas cache s.now := by
  have hsame := (partitionPubkeys_spec s s.wanted.keys).1
  simp only [flush, h, if_true]
  split_ifs
  · exact ⟨s.cache, s.version, rfl, .refl _⟩
  · exact ⟨_, _, rfl, hsame⟩
  · exact ⟨_, _, rfl, hsame⟩

theorem flush_of_ne_nil (h : (s.partitionPubkeys s.wanted.keys).missingPubkeys ≠ []) :
    ∃ cache version, s.flush = { s with
        cache := cache
        version := version
        inFlight := s.inFlight ++
          (s.partitionPubkeys s.wanted.keys).missingPubkeys.filter (· ∉ s.inFlight)
        fetches := s.fetches ++ [some (s.partitionPubkeys s.wanted.keys).missingPubkeys] } ∧
      s.cache.SameHas cache s.now := by
  have hsame := (partitionPubkeys_spec s s.wanted.keys).1
  have hwanted : s.wanted.keys ≠ [] := by
    intro hnil
    rw [hnil] at h
    exact h rfl
  simp only [flush, h, hwanted, if_false]
  split_ifs
  · exact ⟨_, _, rfl, hsame⟩
  · exact ⟨_, _, rfl, hsame⟩

/-- A flush changes no failure, and which pubkeys are cached stays as it is. -/
theorem flush_keeps (s : ProfileCoordinator ν) : s.flush.failures = s.failures ∧
    s.flush.now = s.now ∧ s.cache.SameHas s.flush.cache s.now := by
  by_cases h : (s.partitionPubkeys s.wanted.keys).missingPubkeys = []
  · obtain ⟨cache, version, hflush, hsame⟩ := flush_of_nil h
    rw [hflush]
    exact ⟨rfl, rfl, hsame⟩
  · obtain ⟨cache, version, hflush, hsame⟩ := flush_of_ne_nil h
    rw [hflush]
    exact ⟨rfl, rfl, hsame⟩

theorem fastRetry_of_ne {failures : OrderedMap JsString FailedProfileFetch} {q : JsString}
    (h : pubkey ≠ q) : (s.fastRetry failures q).get? pubkey = failures.get? pubkey := by
  unfold fastRetry
  split
  · rfl
  · split_ifs
    · rfl
    · exact OrderedMap.get?_set_of_ne _ h _

theorem has_fastRetry {failures : OrderedMap JsString FailedProfileFetch} {q : JsString}
    (h : failures.has pubkey = true) : (s.fastRetry failures q).has pubkey = true := by
  unfold fastRetry
  split
  · exact h
  · split_ifs
    · exact h
    · unfold OrderedMap.has at h ⊢
      rw [OrderedMap.get?_set]
      split_ifs
      · rfl
      · exact h

theorem endFetch_eq (s : ProfileCoordinator ν) (f : Nat) (pubkeys : List JsString) :
    ∃ failures, s.endFetch f pubkeys = { s with
        inFlight := s.inFlight.filter (· ∉ pubkeys)
        fetches := s.fetches.set f none
        failures := failures
        version := s.version + 1 } ∧
      (∀ pubkey, pubkey ∉ pubkeys → failures.get? pubkey = s.failures.get? pubkey) ∧
      ∀ pubkey, s.failures.has pubkey = true → failures.has pubkey = true := by
  simp only [endFetch, applyBootFastRetryLane]
  split_ifs
  · exact ⟨s.failures, rfl, fun _ _ => rfl, fun _ h => h⟩
  · refine ⟨_, rfl, fun pubkey hnot => ?_, fun pubkey hhas => ?_⟩
    · refine List.foldlRecOn (motive := fun m : OrderedMap JsString FailedProfileFetch =>
        m.get? pubkey = s.failures.get? pubkey) pubkeys _ ?_ fun m hm q hq => ?_
      · rfl
      · rw [← hm]
        exact fastRetry_of_ne (ne_of_mem_of_not_mem hq hnot).symm
    · refine List.foldlRecOn (motive := fun m : OrderedMap JsString FailedProfileFetch =>
        m.has pubkey = true) pubkeys _ ?_ fun m hm q _ => ?_
      · exact hhas
      · exact has_fastRetry hm

/-- What the results of a dispatch leave alone, and what they say of each of its pubkeys. -/
structure FetchApplied (s t : ProfileCoordinator ν) (pubkeys found : List JsString) : Prop where
  now : t.now = s.now
  wanted : t.wanted = s.wanted
  fetches : t.fetches = s.fetches
  inFlight : ∀ pubkey, pubkey ∉ pubkeys → (pubkey ∈ t.inFlight ↔ pubkey ∈ s.inFlight)
  others : ∀ pubkey, pubkey ∉ pubkeys → t.failures.get? pubkey = s.failures.get? pubkey
  missed : ∀ pubkey ∈ pubkeys, pubkey ∉ found → t.failures.has pubkey = true

theorem releaseFailedPubkeys_applied (s : ProfileCoordinator ν) (pubkeys : List JsString) :
    s.FetchApplied (s.releaseFailedPubkeys pubkeys) pubkeys [] := by
  refine ⟨rfl, rfl, rfl, fun pubkey hnot => ?_, fun pubkey hnot => ?_, fun pubkey hmem _ => ?_⟩
  · simp [releaseFailedPubkeys, hnot]
  · refine List.foldlRecOn (motive := fun m : OrderedMap JsString FailedProfileFetch =>
      m.get? pubkey = s.failures.get? pubkey) pubkeys _ ?_ fun m hm q hq => ?_
    · rfl
    · rw [← hm]
      exact OrderedMap.get?_set_of_ne _ (ne_of_mem_of_not_mem hq hnot).symm _
  · suffices h : ∀ m : OrderedMap JsString FailedProfileFetch,
        pubkey ∈ pubkeys ∨ m.has pubkey = true →
          (pubkeys.foldl (fun m p => recordFailedProfileFetch m p s.now) m).has pubkey = true by
      exact h _ (.inl hmem)
    clear hmem
    induction pubkeys with
    | nil => exact fun m h => h.resolve_left List.not_mem_nil
    | cons q pubkeys ih =>
      intro m h
      apply ih
      by_cases hq : pubkey = q
      · right
        unfold recordFailedProfileFetch OrderedMap.has
        rw [hq, OrderedMap.get?_set_self]
        rfl
      · rcases h with hmem | hhas
        · exact .inl ((List.mem_cons.mp hmem).resolve_left hq)
        · right
          unfold OrderedMap.has at hhas
          unfold recordFailedProfileFetch OrderedMap.has
          rwa [OrderedMap.get?_set_of_ne _ hq]

/-- The pubkeys for which a dispatch found a profile. -/
def found (fetched : OrderedMap JsString (Option (CachedProfile ν))) : List JsString :=
  (fetched.entries.filter fun entry => entry.2.isSome).map Prod.fst

theorem applyFetchedProfiles_applied (s : ProfileCoordinator ν)
    (fetched : OrderedMap JsString (Option (CachedProfile ν))) :
    s.FetchApplied (s.applyFetchedProfiles fetched) fetched.keys (found fetched) := by
  obtain ⟨entries, hn⟩ := fetched
  simp only [applyFetchedProfiles, OrderedMap.keys, found]
  induction entries generalizing s with
  | nil =>
    exact ⟨rfl, rfl, rfl, fun _ _ => Iff.rfl, fun _ _ => rfl, fun _ h => absurd h List.not_mem_nil⟩
  | cons entry entries ih =>
    obtain ⟨hkey, hn⟩ := List.nodup_cons.mp hn
    have hrest := ih (s.applyFetchedProfile entry) hn
    have hone : s.FetchApplied (s.applyFetchedProfile entry) [entry.1]
        (([entry].filter fun entry => entry.2.isSome).map Prod.fst) := by
      unfold applyFetchedProfile
      split
      · rename_i profile hprofile
        refine ⟨rfl, rfl, rfl, fun _ _ => Iff.rfl, fun p hnot => ?_, fun p hmem hnot => ?_⟩
        · rw [OrderedMap.get?_delete, if_neg (by simpa using hnot)]
        · simp [hprofile] at hnot
          exact absurd (List.mem_singleton.mp hmem) hnot
      · rename_i hnone
        refine ⟨rfl, rfl, rfl, fun p hnot => ?_, fun p hnot => ?_, fun p hmem _ => ?_⟩
        · have hne : p ≠ entry.1 := by simpa using hnot
          simp [hne]
        · exact OrderedMap.get?_set_of_ne _ (by simpa using hnot) _
        · unfold recordFailedProfileFetch OrderedMap.has
          rw [List.mem_singleton.mp hmem, OrderedMap.get?_set_self]
          rfl
    refine ⟨?_, ?_, ?_, ?_, ?_, ?_⟩
    · exact hrest.now.trans hone.now
    · exact hrest.wanted.trans hone.wanted
    · exact hrest.fetches.trans hone.fetches
    · intro p hnot
      rw [List.map_cons, List.mem_cons, not_or] at hnot
      exact (hrest.inFlight p hnot.2).trans (hone.inFlight p (by simpa using hnot.1))
    · intro p hnot
      rw [List.map_cons, List.mem_cons, not_or] at hnot
      exact (hrest.others p hnot.2).trans (hone.others p (by simpa using hnot.1))
    · intro p hmem hnot
      rcases List.mem_cons.mp hmem with hp | hlater
      · -- The entries after it are those of other pubkeys.
        have hlast : p ∉ entries.map Prod.fst := hp ▸ hkey
        have hfirst : (s.applyFetchedProfile entry).failures.has p = true := by
          apply hone.missed p (by simpa using hp)
          intro hin
          apply hnot
          rw [← List.singleton_append, List.filter_append, List.map_append]
          exact List.mem_append_left _ hin
        unfold OrderedMap.has at hfirst ⊢
        rw [List.foldl_cons, hrest.others p hlast]
        exact hfirst
      · apply hrest.missed p hlater
        intro hin
        apply hnot
        rw [← List.singleton_append, List.filter_append, List.map_append]
        exact List.mem_append_right _ hin

theorem mem_keys_fetchedProfiles [JsNumber ν] {events : List (Option Event)} :
    pubkey ∈ (s.fetchedProfiles pubkeys events).keys ↔ pubkey ∈ pubkeys := by
  unfold fetchedProfiles
  rw [OrderedMap.mem_keys_ofList, List.map_map]
  have hfst : ((Prod.fst ∘ fun x : JsString × Nat =>
      (x.1, (eventToProfile s.now (events[x.2]?).join : Option (CachedProfile ν)))) :
      JsString × Nat → JsString) = Prod.fst := rfl
  rw [hfst, List.zipIdx_map_fst]

theorem applyFetchedProfiles_fetched [JsNumber ν] (s : ProfileCoordinator ν) (pubkeys : List JsString)
    (events : List (Option Event)) :
    s.FetchApplied (s.applyFetchedProfiles (s.fetchedProfiles pubkeys events)) pubkeys
      (found (s.fetchedProfiles pubkeys events)) := by
  have h := applyFetchedProfiles_applied s (s.fetchedProfiles pubkeys events)
  have hkeys : ∀ p, p ∈ (s.fetchedProfiles pubkeys events).keys ↔ p ∈ pubkeys :=
    fun _ => mem_keys_fetchedProfiles
  refine ⟨h.now, h.wanted, h.fetches, fun p hp => ?_, fun p hp => ?_, fun p hp => ?_⟩
  · exact h.inFlight p (mt (hkeys p).mp hp)
  · exact h.others p (mt (hkeys p).mp hp)
  · exact h.missed p ((hkeys p).mpr hp)

/-- What a refresh takes away is neither cached nor counted as failed, and the rest stays. -/
structure TakenAway (s t : ProfileCoordinator ν) (pubkeys : List JsString) : Prop where
  now : t.now = s.now
  cached : ∀ pubkey, (t.cache.hasProfile pubkey s.now).1 =
    (!decide (pubkey ∈ pubkeys) && (s.cache.hasProfile pubkey s.now).1)
  failures : ∀ pubkey failure, t.failures.get? pubkey = some failure ↔
    pubkey ∉ pubkeys ∧ s.failures.get? pubkey = some failure

theorem takeAway_takenAway (acc : OrderedMap JsString (CachedProfile ν) × ProfileCoordinator ν)
    (pubkeys : List JsString) : TakenAway acc.2 (pubkeys.foldl takeAway acc).2 pubkeys := by
  induction pubkeys generalizing acc with
  | nil => exact ⟨rfl, fun _ => by simp, fun _ _ => by simp⟩
  | cons p pubkeys ih =>
    have hrest := ih (takeAway acc p)
    have hread := ProfileCache.sameHas_read acc.2.cache p acc.2.now
    refine ⟨hrest.now, fun q => ?_, fun q failure => ?_⟩
    · have hlater := hrest.cached q
      have hnow : (takeAway acc p).2.now = acc.2.now := rfl
      have hone : ((takeAway acc p).2.cache.hasProfile q acc.2.now).1 =
          (!decide (q = p) && (acc.2.cache.hasProfile q acc.2.now).1) := by
        simp only [takeAway]
        rw [ProfileCache.hasProfile_remove, hread q]
        split_ifs with hq
        · simp [hq]
        · simp [hq]
      rw [hnow] at hlater
      rw [List.foldl_cons, hlater, hone, ← Bool.and_assoc, ← Bool.not_or, Bool.or_comm]
      simp
    · rw [List.foldl_cons, hrest.failures q failure]
      have hone : (takeAway acc p).2.failures.get? q =
          if q = p then none else acc.2.failures.get? q := OrderedMap.get?_delete ..
      rw [hone, List.mem_cons, not_or]
      by_cases hq : q = p
      · simp [hq]
      · simp [hq]

/-- Restoring changes the cache only. -/
theorem restoreProfiles_eq (previous : OrderedMap JsString (CachedProfile ν))
    (acc : OrderedMap JsString (CachedProfile ν) × ProfileCoordinator ν) (pubkeys : List JsString) :
    ∃ cache, (pubkeys.foldl (restoreProfile previous) acc).2 = { acc.2 with cache := cache } := by
  refine List.foldlRecOn (motive := fun r : OrderedMap JsString (CachedProfile ν) ×
      ProfileCoordinator ν => ∃ cache, r.2 = { acc.2 with cache := cache }) pubkeys _ ?_
    fun r hr pubkey _ => ?_
  · exact ⟨acc.2.cache, rfl⟩
  · obtain ⟨cache, hcache⟩ := hr
    unfold restoreProfile
    split_ifs
    · exact ⟨cache, hcache⟩
    · split
      · exact ⟨cache, hcache⟩
      · rename_i restored _
        exact ⟨r.2.cache.storeProfile pubkey restored r.2.now, by rw [hcache]⟩

end ProfileCoordinator

end LivelierBridge.Nostr
