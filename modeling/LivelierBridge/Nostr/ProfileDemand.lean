import LivelierBridge.Nostr.ProfileSession

namespace LivelierBridge.Nostr

open Framework Js

namespace ProfileSession

section Demand

variable {ν : Type}

/-- The pubkey is wanted, not in the cache and not in flight. -/
def Open (s : ProfileSession ν) (pubkey : JsString) : Prop :=
  pubkey ∈ s.core.wanted.keys ∧ s.cached pubkey = false ∧ pubkey ∉ s.core.inFlight

/-- A flush is neither about to go on nor set to the boot timer. -/
def Resting (s : ProfileSession ν) : Prop := s.bootTimer = none ∧ .called ∉ s.flushes

/-- The coordinator never forgets demand: with the caches loaded and no flush running, what is open
has a timer. -/
def NeverForgets (s : ProfileSession ν) : Prop :=
  s.hydrated = true → s.flushes = [] → ∀ pubkey, s.Open pubkey →
    s.bootTimer.isSome = true ∨ s.retryTimer.isSome = true

/-- When the heartbeat is set again, no open pubkey's retry time has passed, unless a flush is about
to go on or set to the boot timer. -/
def NoneElapsed (s : ProfileSession ν) : Prop :=
  s.Resting → ∀ pubkey ∈ s.core.wanted.keys, s.cached pubkey = false → pubkey ∉ s.core.inFlight →
    ∀ failure ∈ s.core.failures.get? pubkey, s.core.now < failure.nextRetryAt

/-- Of what is wanted, `cache` has at `now` what was cached and what was found. -/
def KeepsWanted (s : ProfileSession ν) (found : List JsString) (cache : ProfileCache ν) (now : Nat) :
    Prop :=
  s.Resting → ∀ pubkey ∈ s.core.wanted.keys, pubkey ∈ found ∨ s.cached pubkey = true →
    (cache.hasProfile pubkey now).1 = true

instance (s : ProfileSession ν) : Decidable s.Resting :=
  inferInstanceAs (Decidable (s.bootTimer = none ∧ .called ∉ s.flushes))

instance (s : ProfileSession ν) : Decidable s.NoneElapsed :=
  inferInstanceAs (Decidable (s.Resting → ∀ pubkey ∈ s.core.wanted.keys, s.cached pubkey = false →
    pubkey ∉ s.core.inFlight → ∀ failure ∈ s.core.failures.get? pubkey,
      s.core.now < failure.nextRetryAt))

instance (s : ProfileSession ν) (found : List JsString) (cache : ProfileCache ν) (now : Nat) :
    Decidable (s.KeepsWanted found cache now) :=
  inferInstanceAs (Decidable (s.Resting → ∀ pubkey ∈ s.core.wanted.keys,
    pubkey ∈ found ∨ s.cached pubkey = true → (cache.hasProfile pubkey now).1 = true))

/-- No open pubkey's retry time has passed when the retain is released. -/
def KeepsRelease (s : ProfileSession ν) (i : Nat) : Prop :=
  ∀ retain ∈ s.retains[i]?, retain.released = false → (s.releaseRetain i retain).NoneElapsed

instance (s : ProfileSession ν) (i : Nat) : Decidable (s.KeepsRelease i) :=
  inferInstanceAs (Decidable (∀ retain ∈ s.retains[i]?, retain.released = false →
    (s.releaseRetain i retain).NoneElapsed))

end Demand

section Guard

variable {ν : Type} [JsNumber ν] (s : ProfileSession ν)

/-- No open pubkey's retry time has passed when the heartbeat is set again, and neither the limit nor
the age of the cache takes a wanted profile away. -/
def KeepsDemand : SessionAction ν → Prop
  | .release i => s.KeepsRelease i
  | .answer c => ∀ call ∈ s.calls[c]?, s.KeepsRelease call.retain
  | .resumeFlush => NoneElapsed { s with flushes := s.flushes.erase .resumed }
  | .streamed event =>
    s.KeepsWanted (if (s.core.earlyProfile event).isSome then [event.pubkey] else [])
      (s.core.applyEarlyProfileEvent event).cache s.core.now
  | .batchResult f events => ∀ pubkeys ∈ (s.core.fetches[f]?).join,
      let fetched := s.core.fetchedProfiles pubkeys events
      s.KeepsWanted (ProfileCoordinator.found fetched) (s.core.applyFetchedProfiles fetched).cache
        s.core.now
  | .restore c => ∀ call ∈ s.calls[c]?, ∀ previous ∈ call.previous, ∀ result ∈ call.phase.answer?,
      s.KeepsWanted [] (s.restoreAll call previous result).2.cache s.core.now
  | .tick ms => s.KeepsWanted [] s.core.cache (s.core.now + ms)
  | _ => True

instance KeepsDemand.decidable : ∀ a, Decidable (s.KeepsDemand a)
  | .release i => inferInstanceAs (Decidable (s.KeepsRelease i))
  | .answer c => inferInstanceAs (Decidable (∀ call ∈ s.calls[c]?, s.KeepsRelease call.retain))
  | .resumeFlush =>
    inferInstanceAs (Decidable (NoneElapsed { s with flushes := s.flushes.erase .resumed }))
  | .streamed event =>
    inferInstanceAs (Decidable (s.KeepsWanted
      (if (s.core.earlyProfile event).isSome then [event.pubkey] else [])
      (s.core.applyEarlyProfileEvent event).cache s.core.now))
  | .batchResult f events => inferInstanceAs (Decidable (∀ pubkeys ∈ (s.core.fetches[f]?).join,
      s.KeepsWanted (ProfileCoordinator.found (s.core.fetchedProfiles pubkeys events))
        (s.core.applyFetchedProfiles (s.core.fetchedProfiles pubkeys events)).cache s.core.now))
  | .restore c => inferInstanceAs (Decidable (∀ call ∈ s.calls[c]?, ∀ previous ∈ call.previous,
      ∀ result ∈ call.phase.answer?,
        s.KeepsWanted [] (s.restoreAll call previous result).2.cache s.core.now))
  | .tick ms => inferInstanceAs (Decidable (s.KeepsWanted [] s.core.cache (s.core.now + ms)))
  | .hydrateCache _ | .hydrateMisses _ | .retain _ | .getProfiles _ _ | .refreshProfiles _ | .wake _
  | .flush | .batchFailed _ | .bootTimerFires | .retryTimerFires | .read _ =>
    inferInstanceAs (Decidable True)

end Guard

section Invariant

variable {ν : Type} {s t : ProfileSession ν} {pubkey : JsString}

/-- Every dispatch has a flush that waits for it. -/
def Waits (s : ProfileSession ν) : Prop :=
  ∀ f pubkeys, s.core.fetches[f]? = some (some pubkeys) →
    s.initialized = true ∧ .dispatched f ∈ s.flushes

/-- While nothing else is about to run, what is open has failed and waits for the heartbeat or for a
flush that sets it. -/
structure Minded (s : ProfileSession ν) : Prop where
  tended : s.Resting → ∀ pubkey, s.Open pubkey → s.initialized = true ∧
    s.core.failures.has pubkey = true ∧ (s.retryTimer.isSome = true ∨ s.flushes ≠ [])
  waits : s.Waits

theorem minded_init (now : Nat) : (init ν now).Minded :=
  ⟨fun _ _ h => absurd h.1 List.not_mem_nil, fun _ _ h => nomatch h⟩

theorem Minded.neverForgets (h : s.Minded) : s.NeverForgets := by
  intro _ hflushes pubkey hopen
  by_cases hboot : s.bootTimer = none
  · have hresting : s.Resting := ⟨hboot, by rw [hflushes]; exact List.not_mem_nil⟩
    rcases (h.tended hresting pubkey hopen).2.2 with hretry | hrunning
    · exact .inr hretry
    · exact absurd hflushes hrunning
  · exact .inl (Option.isSome_iff_ne_none.mpr hboot)

theorem Waits.frame (h : s.Waits) (hinit : s.initialized = true → t.initialized = true)
    (hfetches : t.core.fetches = s.core.fetches) (hflushes : s.flushes ⊆ t.flushes) : t.Waits := by
  intro f pubkeys hf
  obtain ⟨hloaded, hmem⟩ := h f pubkeys (hfetches ▸ hf)
  exact ⟨hinit hloaded, hflushes hmem⟩

/-- A step that leaves the timers and the flushes alone and opens nothing. -/
theorem Minded.frame (h : s.Minded) (hinit : s.initialized = true → t.initialized = true)
    (hboot : t.bootTimer = s.bootTimer)
    (hretry : t.retryTimer = s.retryTimer) (hflushes : t.flushes = s.flushes)
    (hfetches : t.core.fetches = s.core.fetches)
    (hopen : s.Resting → ∀ pubkey, t.Open pubkey → s.Open pubkey ∧
      (s.core.failures.has pubkey = true → t.core.failures.has pubkey = true)) : t.Minded := by
  refine ⟨fun hresting pubkey ht => ?_, ?_⟩
  · rw [Resting, hboot, hflushes] at hresting
    obtain ⟨hbefore, hfailed⟩ := hopen hresting pubkey ht
    obtain ⟨hloaded, hhas, htimer⟩ := h.tended hresting pubkey hbefore
    rw [hretry, hflushes]
    exact ⟨hinit hloaded, hfailed hhas, htimer⟩
  · exact h.waits.frame hinit hfetches (by rw [hflushes]; exact List.Subset.refl _)

/-- A step that calls `flush`. -/
theorem Minded.call (h : s.Minded) (hinit : t.initialized = s.initialized)
    (hflushes : t.flushes = s.flushes ++ [.called])
    (hfetches : t.core.fetches = s.core.fetches) : t.Minded := by
  refine ⟨fun hresting => absurd ?_ hresting.2, ?_⟩
  · rw [hflushes]
    exact List.mem_append_right _ (List.mem_singleton.mpr rfl)
  · refine h.waits.frame (fun hloaded => hinit.trans hloaded) hfetches ?_
    rw [hflushes]
    exact List.subset_append_left _ _

/-- A step that sets the heartbeat again. -/
theorem minded_scheduleRetry (hopen : s.Resting → ∀ pubkey, s.Open pubkey →
      s.initialized = true ∧ s.core.failures.has pubkey = true)
    (hwaits : s.Waits) (helapsed : s.NoneElapsed) : s.scheduleRetry.Minded := by
  refine ⟨fun hresting pubkey ht => ?_, hwaits⟩
  obtain ⟨hinit, hhas⟩ := hopen hresting pubkey ht
  obtain ⟨failure, hfailure⟩ := Option.isSome_iff_exists.mp hhas
  obtain ⟨hwanted, hcached, hflight⟩ := ht
  have hfuture := helapsed hresting pubkey hwanted hcached hflight failure hfailure
  exact ⟨hinit, hhas, .inl (earliestRetryAt_isSome hwanted hfailure hfuture)⟩

theorem Minded.release (h : s.Minded) {i : Nat} (hguard : s.KeepsRelease i) :
    (s.release i).Minded := by
  unfold ProfileSession.release
  split
  · exact h
  · rename_i retain hretain
    split_ifs with hreleased
    · exact h
    · refine minded_scheduleRetry (fun hresting pubkey hopen => ?_) h.waits ?_
      · obtain ⟨hwanted, hcached, hflight⟩ := hopen
        have hwanted := ProfileCoordinator.mem_dropWanted hwanted
        obtain ⟨hinit, hhas, -⟩ := h.tended hresting pubkey ⟨hwanted, hcached, hflight⟩
        exact ⟨hinit, hhas⟩
      · exact hguard retain hretain (by simpa using hreleased)

/-- An open pubkey that a flush does not ask for is cooling down. -/
theorem Open.cooling (h : s.Open pubkey) (hinit : s.initialized = true)
    (hnot : pubkey ∉ s.missingPubkeys) :
    ∃ failure, s.core.failures.get? pubkey = some failure ∧ s.core.now < failure.nextRetryAt := by
  obtain ⟨hwanted, hcached, hflight⟩ := h
  have hmiss : (s.core.cache.hasProfile pubkey s.core.now).1 = false := by
    simpa [cached, hinit] using hcached
  have hasked : ¬ s.core.asksFor pubkey = true := by
    intro hasks
    apply hnot
    rw [missingPubkeys, (ProfileCoordinator.partitionPubkeys_spec _ _).2]
    exact List.mem_filter.mpr ⟨hwanted, hasks⟩
  simp only [ProfileCoordinator.asksFor, hmiss, hflight, Bool.not_false, not_false_eq_true,
    decide_true, Bool.true_and, Bool.not_eq_true', Bool.not_eq_false] at hasked
  obtain ⟨failure, hfailure, hcooling⟩ := (Option.any_eq_true _ _).mp hasked
  exact ⟨failure, hfailure, of_decide_eq_true hcooling⟩

/-- A flush leaves nothing open that waits neither for a timer nor for the flush. -/
theorem minded_flush (hinit : s.initialized = true) (hwaits : s.Waits) : s.flush.Minded := by
  unfold ProfileSession.flush
  split_ifs with hpaced hboot hwanted hmissing
  · exact ⟨fun hresting => absurd hresting.1 (by simp), hwaits⟩
  · exact ⟨fun hresting => absurd hresting.1 (by simpa using hboot), hwaits⟩
  · refine ⟨fun _ pubkey hopen => ?_, hwaits⟩
    have hmem : pubkey ∈ s.core.wanted.keys := hopen.1
    rw [hwanted] at hmem
    exact absurd hmem List.not_mem_nil
  · obtain ⟨cache, version, hcore, hsame⟩ := ProfileCoordinator.flush_of_nil hmissing
    have hcooling : ∀ pubkey, Open { s with core := s.core.flush } pubkey →
        ∃ failure, s.core.failures.get? pubkey = some failure ∧
          s.core.now < failure.nextRetryAt := by
      intro pubkey hopen
      rw [hcore] at hopen
      have hbefore : s.Open pubkey := by
        obtain ⟨hmem, hcached, hflight⟩ := hopen
        refine ⟨hmem, ?_, hflight⟩
        rw [← hcached]
        simp only [cached, hsame pubkey]
      exact hbefore.cooling hinit (by rw [hmissing]; exact List.not_mem_nil)
    apply minded_scheduleRetry
    · intro _ pubkey hopen
      obtain ⟨failure, hfailure, -⟩ := hcooling pubkey hopen
      rw [hcore]
      exact ⟨hinit, Option.isSome_iff_exists.mpr ⟨failure, hfailure⟩⟩
    · rw [hcore]
      exact hwaits
    · intro _ pubkey hmem hcached hflight failure hfailure
      obtain ⟨failure', hfailure', hfuture⟩ := hcooling pubkey ⟨hmem, hcached, hflight⟩
      rw [hcore] at hfailure ⊢
      obtain rfl : failure' = failure := Option.some.inj (hfailure'.symm.trans hfailure)
      exact hfuture
  · obtain ⟨cache, version, hcore, hsame⟩ := ProfileCoordinator.flush_of_ne_nil hmissing
    unfold dispatch
    rw [hcore]
    refine ⟨fun _ pubkey hopen => ?_, fun f pubkeys hf => ?_⟩
    · obtain ⟨hmem, hcached, hflight⟩ := hopen
      obtain ⟨hbefore, hasked⟩ := not_or.mp (mt List.mem_append.mpr hflight)
      have hopen : s.Open pubkey := by
        refine ⟨hmem, ?_, hbefore⟩
        rw [← hcached]
        simp only [cached, hsame pubkey]
      have hnot : pubkey ∉ s.missingPubkeys := by
        intro hmissed
        exact hasked (List.mem_filter.mpr ⟨hmissed, by simpa using hbefore⟩)
      obtain ⟨failure, hfailure, -⟩ := hopen.cooling hinit hnot
      refine ⟨hinit, Option.isSome_iff_exists.mpr ⟨failure, hfailure⟩, .inr ?_⟩
      simp
    · dsimp only at hf ⊢
      rcases Nat.lt_trichotomy f s.core.fetches.length with hlt | rfl | hgt
      · rw [List.getElem?_append_left hlt] at hf
        obtain ⟨hloaded, hmem⟩ := hwaits f pubkeys hf
        exact ⟨hloaded, List.mem_append_left _ hmem⟩
      · exact ⟨hinit, List.mem_append_right _ (List.mem_singleton.mpr rfl)⟩
      · rw [List.getElem?_eq_none (by simp; omega)] at hf
        cases hf

/-- A dispatch settles: what it found is cached, and what it missed has failed. -/
theorem Minded.settle (h : s.Minded) {f : Nat} {pubkeys found : List JsString}
    {core : ProfileCoordinator ν} (hf : s.core.fetches[f]? = some (some pubkeys))
    (happlied : s.core.FetchApplied core pubkeys found)
    (hkeeps : s.KeepsWanted found core.cache s.core.now) : (s.settle f pubkeys core).Minded := by
  obtain ⟨failures, hend, hothers, hhas⟩ := ProfileCoordinator.endFetch_eq core f pubkeys
  have hresumed : .resumed ∈ (s.settle f pubkeys core).flushes :=
    List.mem_map.mpr ⟨.dispatched f, (h.waits f pubkeys hf).2, if_pos rfl⟩
  refine ⟨fun hresting pubkey hopen => ?_, fun g other hg => ?_⟩
  · have hbefore : s.Resting := by
      refine ⟨hresting.1, fun hcalled => hresting.2 ?_⟩
      exact List.mem_map.mpr ⟨.called, hcalled, rfl⟩
    obtain ⟨hwanted, hcached, hflight⟩ := hopen
    have hinit : s.initialized = true := (h.waits f pubkeys hf).1
    simp only [ProfileSession.settle, hend] at hwanted hcached hflight ⊢
    rw [happlied.wanted] at hwanted
    have hmiss : ¬ (core.cache.hasProfile pubkey s.core.now).1 = true := by
      rw [← happlied.now]
      simpa [cached, hinit] using hcached
    have hlost : ¬ (pubkey ∈ found ∨ s.cached pubkey = true) :=
      fun hkept => hmiss (hkeeps hbefore pubkey hwanted hkept)
    obtain ⟨hnot, huncached⟩ := not_or.mp hlost
    refine ⟨hinit, hhas pubkey ?_, .inr (List.ne_nil_of_mem hresumed)⟩
    by_cases hp : pubkey ∈ pubkeys
    · exact happlied.missed pubkey hp hnot
    · have hflight : pubkey ∉ s.core.inFlight := by
        rw [← happlied.inFlight pubkey hp]
        intro hmem
        exact hflight (List.mem_filter.mpr ⟨hmem, by simpa using hp⟩)
      have hfailed :=
        (h.tended hbefore pubkey ⟨hwanted, by simpa using huncached, hflight⟩).2.1
      unfold OrderedMap.has at hfailed ⊢
      rwa [happlied.others pubkey hp]
  · simp only [ProfileSession.settle, hend] at hg ⊢
    rw [happlied.fetches] at hg
    have hne : f ≠ g := by
      rintro rfl
      rw [List.getElem?_set_self (List.getElem?_eq_some_iff.mp hf).1] at hg
      cases hg
    rw [List.getElem?_set_ne hne] at hg
    obtain ⟨hinit, hwaiting⟩ := h.waits g other hg
    exact ⟨hinit, List.mem_map.mpr ⟨.dispatched g, hwaiting, if_neg (by simp [hne.symm])⟩⟩

theorem Minded.hydrateCache (h : s.Minded) (hinit : s.initialized = false)
    (persisted : OrderedMap JsString (CachedProfile ν)) : (s.hydrateCache persisted).Minded := by
  refine h.frame (fun _ => rfl) rfl rfl rfl rfl fun _ pubkey ⟨hwanted, _, hflight⟩ => ?_
  exact ⟨⟨hwanted, by simp [cached, hinit], hflight⟩, id⟩

theorem Minded.hydrateMisses (h : s.Minded) (missedPubkeys : List JsString) :
    (s.hydrateMisses missedPubkeys).Minded := by
  refine h.frame id rfl rfl rfl rfl fun _ pubkey hopen => ⟨hopen, fun hhas => ?_⟩
  refine List.foldlRecOn (motive := fun m : OrderedMap JsString FailedProfileFetch =>
    m.has pubkey = true) missedPubkeys _ hhas fun m hm p _ => ?_
  split_ifs
  · exact hm
  · unfold OrderedMap.has at hm ⊢
    rw [OrderedMap.get?_set]
    split_ifs
    · rfl
    · exact hm

/-- A step that only reads the cache. -/
theorem Minded.setShown (h : s.Minded) {cache : ProfileCache ν}
    (hsame : s.shown.cache.SameHas cache s.core.now) : (s.setShown cache).Minded := by
  have hcached : ∀ pubkey, (s.setShown cache).cached pubkey = s.cached pubkey :=
    fun _ => cached_setShown_of_sameHas hsame
  rw [setShown_eq] at hcached ⊢
  refine h.frame id rfl rfl rfl rfl fun _ pubkey ⟨hwanted, hmiss, hflight⟩ => ?_
  exact ⟨⟨hwanted, (hcached pubkey).symm.trans hmiss, hflight⟩, id⟩

theorem Minded.setCall (h : s.Minded) (c : Nat) (call : ProfileCall ν) : (s.setCall c call).Minded :=
  h.frame id rfl rfl rfl rfl fun _ _ hopen => ⟨hopen, id⟩

theorem Minded.restore (h : s.Minded) {c : Nat} {call : ProfileCall ν}
    {previous result : OrderedMap JsString (CachedProfile ν)}
    (hkeeps : s.KeepsWanted [] (s.restoreAll call previous result).2.cache s.core.now) :
    (s.restore c call previous result).Minded := by
  obtain ⟨cache, hcache⟩ :=
    ProfileCoordinator.restoreProfiles_eq previous (result, s.core) call.pubkeys
  have hrestored : (s.restoreAll call previous result).2 = { s.core with cache := cache } := hcache
  rw [hrestored] at hkeeps
  simp only [ProfileSession.restore]
  rw [hrestored]
  refine Minded.setCall ?_ c _
  refine h.frame id rfl rfl rfl rfl fun hresting pubkey ⟨hwanted, hmiss, hflight⟩ => ?_
  refine ⟨⟨hwanted, ?_, hflight⟩, id⟩
  cases hbefore : s.cached pubkey with
  | false => rfl
  | true =>
    have hthere := hkeeps hresting pubkey hwanted (.inr hbefore)
    have hinit : s.initialized = true := (Bool.and_eq_true _ _ ▸ hbefore).1
    simp only [cached, hinit, Bool.true_and, ProfileCoordinator.emit] at hmiss
    exact absurd (hthere.symm.trans hmiss) (by simp)

section Steps

variable [JsNumber ν]

/-- A streamed profile is cached unless the limit takes it away at once. -/
theorem Minded.streamed (h : s.Minded) {event : Event} (hguard : s.KeepsDemand (.streamed event)) :
    Minded { s with core := s.core.applyEarlyProfileEvent event } := by
  change s.KeepsWanted _ _ _ at hguard
  unfold ProfileCoordinator.applyEarlyProfileEvent at hguard ⊢
  cases hprofile : s.core.earlyProfile event with
  | none => exact h
  | some profile =>
    simp only [hprofile, Option.isSome_some, if_true] at hguard
    refine h.frame id rfl rfl rfl rfl fun hresting pubkey ⟨hwanted, hcached, hflight⟩ => ?_
    have hkept : ∀ hinit : s.initialized = true,
        ¬ (pubkey ∈ [event.pubkey] ∨ s.cached pubkey = true) := by
      intro hinit hfound
      have hthere := hguard hresting pubkey hwanted hfound
      simp only [cached, hinit, Bool.true_and] at hcached
      exact absurd (hthere.symm.trans hcached) (by simp)
    have hopen : s.Open pubkey := by
      refine ⟨hwanted, ?_, hflight⟩
      cases hbefore : s.cached pubkey with
      | false => rfl
      | true =>
        have hinit : s.initialized = true := (Bool.and_eq_true _ _ ▸ hbefore).1
        exact absurd (.inr hbefore) (hkept hinit)
    refine ⟨hopen, fun hhas => ?_⟩
    have hne : pubkey ≠ event.pubkey := by
      intro hp
      exact hkept (h.tended hresting pubkey hopen).1 (.inl (List.mem_singleton.mpr hp))
    unfold OrderedMap.has at hhas ⊢
    dsimp only [ProfileCoordinator.emit]
    rw [OrderedMap.get?_delete, if_neg hne]
    exact hhas

theorem Minded.step {a : SessionAction ν} (h : s.Minded) (hguard : s.KeepsDemand a)
    (hs : s.step a = some t) : t.Minded := by
  cases step_cases hs with
  | hydrateCache hinit => exact h.hydrateCache hinit _
  | hydrateMisses => exact h.hydrateMisses _
  | streamed => exact h.streamed hguard
  | retain => exact h.call rfl rfl rfl
  | release => exact h.release hguard
  | getProfiles => exact h.call rfl rfl rfl
  | refreshProfiles =>
    simp only [ProfileSession.refreshProfiles, setShown_eq]
    exact h.call rfl rfl rfl
  | wake =>
    refine Minded.setCall (h.setShown ?_) _ _
    rw [← shown_now]
    exact ProfileCoordinator.sameHas_allSettled _ _
  | answer hcall =>
    refine Minded.setCall (Minded.setShown (h.release (hguard _ hcall)) ?_) _ _
    rw [← shown_now]
    exact (ProfileCoordinator.readResults_spec _ _).1
  | restore hcall hprevious hresult =>
    exact h.restore (hguard _ hcall _ hprevious _ hresult)
  | flush hready =>
    refine minded_flush (Bool.and_eq_true _ _ ▸ hready).1 fun f pubkeys hf => ?_
    obtain ⟨hinit, hwaiting⟩ := h.waits f pubkeys hf
    exact ⟨hinit, (List.mem_erase_of_ne (by simp)).mpr hwaiting⟩
  | batchResult hf =>
    exact h.settle hf (ProfileCoordinator.applyFetchedProfiles_fetched _ _ _)
      (hguard _ (Option.join_eq_some_iff.mpr hf))
  | batchFailed hf =>
    refine h.settle hf (ProfileCoordinator.releaseFailedPubkeys_applied _ _)
      fun _ pubkey _ hkept => ?_
    have hcached := hkept.resolve_left List.not_mem_nil
    exact (Bool.and_eq_true _ _ ▸ hcached).2
  | resumeFlush =>
    refine minded_scheduleRetry (fun hresting pubkey hopen => ?_) (fun f pubkeys hf => ?_) hguard
    · have hbefore : s.Resting := by
        refine ⟨hresting.1, fun hcalled => hresting.2 ?_⟩
        exact (List.mem_erase_of_ne (by simp)).mpr hcalled
      obtain ⟨hinit, hhas, -⟩ := h.tended hbefore pubkey hopen
      exact ⟨hinit, hhas⟩
    · obtain ⟨hinit, hwaiting⟩ := h.waits f pubkeys hf
      exact ⟨hinit, (List.mem_erase_of_ne (by simp)).mpr hwaiting⟩
  | bootTimerFires => exact h.call rfl rfl rfl
  | retryTimerFires => exact h.call rfl rfl rfl
  | read => exact h.setShown (ProfileCache.sameHas_read _ _ _)
  | tick =>
    refine h.frame id rfl rfl rfl rfl fun hresting pubkey ⟨hwanted, hmiss, hflight⟩ => ?_
    refine ⟨⟨hwanted, ?_, hflight⟩, id⟩
    cases hbefore : s.cached pubkey with
    | false => rfl
    | true =>
      have hthere := hguard hresting pubkey hwanted (.inr hbefore)
      have hinit : s.initialized = true := (Bool.and_eq_true _ _ ▸ hbefore).1
      simp only [cached, hinit, Bool.true_and] at hmiss
      exact absurd (hthere.symm.trans hmiss) (by simp)

/-- In a run that never sets the heartbeat again when an open pubkey's retry time has just passed, and
whose cache drops no wanted profile, no demand is forgotten. -/
theorem demand_neverForgotten {now : Nat} {as : List (SessionAction ν)}
    (hguard : Guarded step KeepsDemand (init ν now) as) (hrun : run step (init ν now) as = some s) :
    s.NeverForgets := by
  have hminded : s.Minded :=
    run_invariant (fun _ _ _ h hg hs => h.step hg hs) (minded_init now) hguard hrun
  exact hminded.neverForgets

end Steps

end Invariant

section Runs

/-- The pubkey is open, and nothing will ask for it. -/
def Forgotten (s : ProfileSession Nat) (pubkey : JsString) : Prop :=
  s.hydrated = true ∧ s.flushes = [] ∧ s.Open pubkey ∧ s.bootTimer = none ∧ s.retryTimer = none

instance (s : ProfileSession Nat) (pubkey : JsString) : Decidable (s.Open pubkey) :=
  inferInstanceAs (Decidable (pubkey ∈ s.core.wanted.keys ∧ s.cached pubkey = false ∧
    pubkey ∉ s.core.inFlight))

instance (s : ProfileSession Nat) (pubkey : JsString) : Decidable (s.Forgotten pubkey) :=
  inferInstanceAs (Decidable (s.hydrated = true ∧ s.flushes = [] ∧ s.Open pubkey ∧
    s.bootTimer = none ∧ s.retryTimer = none))

theorem Forgotten.not_neverForgets {s : ProfileSession Nat} {pubkey : JsString}
    (h : s.Forgotten pubkey) : ¬ s.NeverForgets := by
  obtain ⟨hhydrated, hflushes, hopen, hboot, hretry⟩ := h
  intro hnever
  rcases hnever hhydrated hflushes pubkey hopen with hset | hset
  · rw [hboot] at hset
    cases hset
  · rw [hretry] at hset
    cases hset

/-- With the caches loaded two surfaces show the user; the fetch of the user misses, and after a while
the second surface is gone. -/
def missedSession (ms : Nat) : List (SessionAction Nat) :=
  [.hydrateCache .empty, .hydrateMisses [], .retain [js "user"], .retain [js "user"], .flush, .flush,
    .tick 2000, .bootTimerFires, .flush, .batchResult 0 [none], .resumeFlush, .tick ms, .release 1]

theorem demand_neverForgotten_missed :
    ∃ s, run step (init Nat 10000) (missedSession 7999) = some s ∧ s.NeverForgets := by
  obtain ⟨s, hs⟩ := Option.isSome_iff_exists.mp
    (show (run step (init Nat 10000) (missedSession 7999)).isSome = true by decide +kernel)
  exact ⟨s, hs, demand_neverForgotten (by decide +kernel) hs⟩

/-- A surface shows the user, whose profile is found; nothing else happens for more than 30 days. -/
def expiredSession : List (SessionAction Nat) :=
  [.hydrateCache .empty, .hydrateMisses [], .retain [js "user"], .tick 2000, .flush,
    .batchResult 0 [some (ProfileCoordinator.profileAt 10)], .resumeFlush,
    .tick (ProfileCache.CACHE_TTL + 1)]

/-- The second surface goes just when the user's retry time has come and the heartbeat has not fired
yet; and a profile expires while it is shown. -/
theorem demand_neverForgotten_fails :
    (∃ s, run step (init Nat 10000) (missedSession 8000) = some s ∧ s.Forgotten (js "user") ∧
        ¬ s.NeverForgets) ∧
      ∃ s, run step (init Nat 10000) expiredSession = some s ∧ s.Forgotten (js "user") ∧
        ¬ s.NeverForgets := by
  constructor
  · have hforgot : (run step (init Nat 10000) (missedSession 8000)).any
        (fun s => s.Forgotten (js "user")) = true := by decide +kernel
    obtain ⟨s, hrun, hs⟩ := (Option.any_eq_true _ _).mp hforgot
    have hlost : s.Forgotten (js "user") := of_decide_eq_true hs
    exact ⟨s, hrun, hlost, hlost.not_neverForgets⟩
  · have hforgot : (run step (init Nat 10000) expiredSession).any
        (fun s => s.Forgotten (js "user")) = true := by decide +kernel
    obtain ⟨s, hrun, hs⟩ := (Option.any_eq_true _ _).mp hforgot
    have hlost : s.Forgotten (js "user") := of_decide_eq_true hs
    exact ⟨s, hrun, hlost, hlost.not_neverForgets⟩

end Runs

end ProfileSession

end LivelierBridge.Nostr
