import LivelierBridge.Nostr.ProfileSession

namespace LivelierBridge.Nostr

open Framework Js

def CallPhase.isWoken {ν : Type} : CallPhase ν → Bool
  | .woken => true
  | _ => false

namespace ProfileSession

section Laws

variable {ν : Type}

/-- Of a pubkey that no dispatch has asked for yet, a call that is about to return still finds in
`cache` at `now` what is cached, or its time is over. -/
def KeepsWoken (s : ProfileSession ν) (cache : ProfileCache ν) (now : Nat) : Prop :=
  ∀ call ∈ s.calls, call.phase.isWoken = true → now < call.deadline → ∀ pubkey ∈ call.pubkeys,
    pubkey ∉ s.attempted → s.cached pubkey = true → (cache.hasProfile pubkey now).1 = true

instance (s : ProfileSession ν) (cache : ProfileCache ν) (now : Nat) :
    Decidable (s.KeepsWoken cache now) :=
  inferInstanceAs (Decidable (∀ call ∈ s.calls, call.phase.isWoken = true → now < call.deadline →
    ∀ pubkey ∈ call.pubkeys, pubkey ∉ s.attempted → s.cached pubkey = true →
      (cache.hasProfile pubkey now).1 = true))

/-- When the wait of a call ends early, none of its missing pubkeys has failed in an earlier session
only: the misses that hydration seeds have no retry time. -/
def WakesAttempted (s : ProfileSession ν) (c : Nat) : Prop :=
  ∀ call ∈ s.calls[c]?, s.core.now < call.deadline → ∀ pubkey ∈ call.pubkeys,
    s.cached pubkey = false → ∀ failure ∈ s.core.failures.get? pubkey, failure.nextRetryAt ≠ 0

instance (s : ProfileSession ν) (c : Nat) : Decidable (s.WakesAttempted c) :=
  inferInstanceAs (Decidable (∀ call ∈ s.calls[c]?, s.core.now < call.deadline →
    ∀ pubkey ∈ call.pubkeys, s.cached pubkey = false →
      ∀ failure ∈ s.core.failures.get? pubkey, failure.nextRetryAt ≠ 0))

end Laws

section Guard

variable {ν : Type} [JsNumber ν] (s : ProfileSession ν)

/-- What `getProfiles` answers null for, its time being over or a dispatch having asked for it. -/
def NullOnlyAfterAttempt : Prop :=
  ∀ c t, s.step (.answer c) = some t → ∀ call ∈ t.calls[c]?, ∀ result ∈ call.phase.answer?,
    ∀ pubkey ∈ call.pubkeys, result.get? pubkey = none →
      call.deadline ≤ s.core.now ∨ pubkey ∈ s.attempted

/-- No wait ends on a miss of an earlier session, and nothing is taken from the cache between the end
of a wait and the answer. -/
def KeepsAttempts : SessionAction ν → Prop
  | .wake c => s.WakesAttempted c
  | .streamed event => s.KeepsWoken (s.core.applyEarlyProfileEvent event).cache s.core.now
  | .refreshProfiles pubkeys => s.KeepsWoken (s.takeAll pubkeys.eraseDups).2.cache s.core.now
  | .batchResult f events => ∀ pubkeys ∈ (s.core.fetches[f]?).join,
      s.KeepsWoken (s.core.applyFetchedProfiles (s.core.fetchedProfiles pubkeys events)).cache
        s.core.now
  | .restore c => ∀ call ∈ s.calls[c]?, ∀ previous ∈ call.previous, ∀ result ∈ call.phase.answer?,
      s.KeepsWoken (s.restoreAll call previous result).2.cache s.core.now
  | .tick ms => s.KeepsWoken s.core.cache (s.core.now + ms)
  | _ => True

instance KeepsAttempts.decidable : ∀ a, Decidable (s.KeepsAttempts a)
  | .wake c => inferInstanceAs (Decidable (s.WakesAttempted c))
  | .streamed event => inferInstanceAs (Decidable
      (s.KeepsWoken (s.core.applyEarlyProfileEvent event).cache s.core.now))
  | .refreshProfiles pubkeys => inferInstanceAs (Decidable
      (s.KeepsWoken (s.takeAll pubkeys.eraseDups).2.cache s.core.now))
  | .batchResult f events => inferInstanceAs (Decidable (∀ pubkeys ∈ (s.core.fetches[f]?).join,
      s.KeepsWoken (s.core.applyFetchedProfiles (s.core.fetchedProfiles pubkeys events)).cache
        s.core.now))
  | .restore c => inferInstanceAs (Decidable (∀ call ∈ s.calls[c]?, ∀ previous ∈ call.previous,
      ∀ result ∈ call.phase.answer?,
        s.KeepsWoken (s.restoreAll call previous result).2.cache s.core.now))
  | .tick ms => inferInstanceAs (Decidable (s.KeepsWoken s.core.cache (s.core.now + ms)))
  | .hydrateCache _ | .hydrateMisses _ | .retain _ | .release _ | .getProfiles _ _ | .answer _ | .flush
  | .batchFailed _ | .resumeFlush | .bootTimerFires | .retryTimerFires | .read _ =>
    inferInstanceAs (Decidable True)

end Guard

section Invariant

variable {ν : Type} {s t : ProfileSession ν} {pubkey : JsString}

/-- A failure with a retry time is one of this session, and a call that is about to return has each
of its pubkeys cached or attempted, or is late. -/
structure Attempted (s : ProfileSession ν) : Prop where
  failed : ∀ pubkey failure, s.core.failures.get? pubkey = some failure → failure.nextRetryAt ≠ 0 →
    pubkey ∈ s.attempted
  woken : ∀ call ∈ s.calls, call.phase.isWoken = true → ∀ pubkey ∈ call.pubkeys,
    s.cached pubkey = true ∨ pubkey ∈ s.attempted ∨ call.deadline ≤ s.core.now

theorem attempted_init (now : Nat) : (init ν now).Attempted :=
  ⟨fun _ _ h => (nomatch h), fun _ h => absurd h List.not_mem_nil⟩

/-- A step that records no failure of its own and takes nothing from a call that is about to return. -/
theorem Attempted.frame (h : s.Attempted)
    (hfailed : ∀ pubkey failure, t.core.failures.get? pubkey = some failure →
      failure.nextRetryAt = 0 ∨ s.core.failures.get? pubkey = some failure)
    (hattempted : s.attempted ⊆ t.attempted)
    (hnow : s.core.now ≤ t.core.now)
    (hcalls : ∀ call ∈ t.calls, call.phase.isWoken = true → call ∈ s.calls)
    (hcached : ∀ call ∈ s.calls, call.phase.isWoken = true → t.core.now < call.deadline →
      ∀ pubkey ∈ call.pubkeys, pubkey ∉ s.attempted → s.cached pubkey = true →
        t.cached pubkey = true) : t.Attempted := by
  refine ⟨fun p failure hget hne => ?_, fun call hcall hphase p hp => ?_⟩
  · exact hattempted (h.failed p failure ((hfailed p failure hget).resolve_left hne) hne)
  · have hold := hcalls call hcall hphase
    by_cases hlate : call.deadline ≤ t.core.now
    · exact .inr (.inr hlate)
    · by_cases hdone : p ∈ s.attempted
      · exact .inr (.inl (hattempted hdone))
      · rcases h.woken call hold hphase p hp with hhas | hasked | hover
        · exact .inl (hcached call hold hphase (Nat.not_le.mp hlate) p hp hdone hhas)
        · exact absurd hasked hdone
        · exact absurd (Nat.le_trans hover hnow) hlate

/-- A step that only reads the cache. -/
theorem Attempted.setShown (h : s.Attempted) {cache : ProfileCache ν}
    (hsame : s.shown.cache.SameHas cache s.core.now) : (s.setShown cache).Attempted := by
  have hcached : ∀ p, (s.setShown cache).cached p = s.cached p :=
    fun _ => cached_setShown_of_sameHas hsame
  rw [setShown_eq] at hcached ⊢
  refine h.frame (fun _ _ hget => .inr hget) (List.Subset.refl _) (Nat.le_refl _)
    (fun _ hcall _ => hcall) ?_
  exact fun _ _ _ _ p _ _ hhas => (hcached p).trans hhas

theorem initialized_of_cached (h : s.cached pubkey = true) : s.initialized = true :=
  (Bool.and_eq_true _ _ ▸ h).1

/-- A step that stores into the cache or takes from it, as it is then or later. -/
theorem Attempted.store (h : s.Attempted) {cache : ProfileCache ν} (hcache : t.core.cache = cache)
    (hinit : t.initialized = s.initialized) (hnow : s.core.now ≤ t.core.now)
    (hfailed : ∀ pubkey failure, t.core.failures.get? pubkey = some failure →
      s.core.failures.get? pubkey = some failure)
    (hattempted : s.attempted = t.attempted)
    (hcalls : ∀ call ∈ t.calls, call.phase.isWoken = true → call ∈ s.calls)
    (hkeeps : s.KeepsWoken cache t.core.now) : t.Attempted := by
  refine h.frame (fun p failure hget => .inr (hfailed p failure hget))
    (hattempted ▸ List.Subset.refl _) hnow hcalls fun call hcall hphase hlate p hp hnot hhas => ?_
  have hthere := hkeeps call hcall hphase hlate p hp hnot hhas
  simp only [cached, hinit, initialized_of_cached hhas, hcache, hthere, Bool.and_self]

theorem mem_setCall {c : Nat} {call new : ProfileCall ν} (h : new ∈ (s.setCall c call).calls) :
    new ∈ s.calls ∨ new = call :=
  List.mem_or_eq_of_mem_set h

/-- A call that moves on to a phase in which it is not about to return. -/
theorem Attempted.setCall (h : s.Attempted) {c : Nat} {call : ProfileCall ν}
    (hphase : call.phase.isWoken = false) : (s.setCall c call).Attempted := by
  refine h.frame (fun _ _ hget => .inr hget) (List.Subset.refl _) (Nat.le_refl _) ?_
    fun _ _ _ _ _ _ _ hhas => hhas
  intro new hnew hwoken
  rcases mem_setCall hnew with hold | rfl
  · exact hold
  · rw [hphase] at hwoken
    cases hwoken

theorem cached_release (i : Nat) : (s.release i).cached pubkey = s.cached pubkey := by
  unfold ProfileSession.release
  split
  · rfl
  · split_ifs
    · rfl
    · rfl

theorem calls_release (i : Nat) : (s.release i).calls = s.calls := by
  unfold ProfileSession.release
  split
  · rfl
  · split_ifs
    · rfl
    · rfl

theorem Attempted.release (h : s.Attempted) (i : Nat) : (s.release i).Attempted := by
  unfold ProfileSession.release
  split
  · exact h
  · split_ifs
    · exact h
    · exact ⟨h.failed, h.woken⟩

theorem Attempted.retain (h : s.Attempted) (pubkeys : List JsString) : (s.retain pubkeys).Attempted :=
  ⟨h.failed, h.woken⟩

/-- A new call waits. -/
theorem Attempted.getProfiles (h : s.Attempted) (pubkeys : List JsString) (timeoutMs : Nat)
    (previous : Option (OrderedMap JsString (CachedProfile ν))) :
    (s.getProfiles pubkeys timeoutMs previous).Attempted := by
  refine ⟨h.failed, fun call hcall hphase => ?_⟩
  rcases List.mem_append.mp hcall with hold | hnew
  · exact h.woken call hold hphase
  · rw [List.mem_singleton.mp hnew] at hphase
    cases hphase

theorem Attempted.refreshProfiles (h : s.Attempted) (pubkeys : List JsString)
    (hkeeps : s.KeepsWoken (s.takeAll pubkeys.eraseDups).2.cache s.core.now) :
    (s.refreshProfiles pubkeys).Attempted := by
  have htaken := ProfileCoordinator.takeAway_takenAway (.empty, s.shown) pubkeys.eraseDups
  refine Attempted.getProfiles ?_ _ _ _
  rw [setShown_eq]
  refine h.frame (fun p failure hget => .inr ?_) (List.Subset.refl _) (Nat.le_refl _)
    (fun _ hcall _ => hcall) fun call hcall hphase hlate p hp hnot hhas => ?_
  · rw [← shown_failures]
    exact ((htaken.failures p failure).mp hget).2
  · have hthere := hkeeps call hcall hphase hlate p hp hnot hhas
    simp only [cached, initialized_of_cached hhas, if_true, hthere, Bool.and_self]

/-- A recorded miss has no retry time. -/
theorem Attempted.hydrateMisses (h : s.Attempted) (missedPubkeys : List JsString) :
    (s.hydrateMisses missedPubkeys).Attempted := by
  refine h.frame ?_ (List.Subset.refl _) (Nat.le_refl _) (fun _ hcall _ => hcall)
    fun _ _ _ _ _ _ _ hhas => hhas
  refine List.foldlRecOn (motive := fun m : OrderedMap JsString FailedProfileFetch =>
    ∀ p failure, m.get? p = some failure →
      failure.nextRetryAt = 0 ∨ s.core.failures.get? p = some failure) missedPubkeys _ ?_
      fun m hm q _ p failure hget => ?_
  · exact fun _ _ hget => .inr hget
  · split_ifs at hget with hhas
    · exact hm p failure hget
    · rw [OrderedMap.get?_set] at hget
      split_ifs at hget
      · obtain rfl := Option.some.inj hget
        exact .inl rfl
      · exact hm p failure hget

theorem Attempted.restore (h : s.Attempted) {c : Nat} {call : ProfileCall ν}
    {previous result : OrderedMap JsString (CachedProfile ν)}
    (hkeeps : s.KeepsWoken (s.restoreAll call previous result).2.cache s.core.now) :
    (s.restore c call previous result).Attempted := by
  obtain ⟨cache, hcache⟩ :=
    ProfileCoordinator.restoreProfiles_eq previous (result, s.core) call.pubkeys
  have hrestored : (s.restoreAll call previous result).2 = { s.core with cache := cache } := hcache
  rw [hrestored] at hkeeps
  simp only [ProfileSession.restore]
  rw [hrestored]
  refine Attempted.setCall ?_ rfl
  exact h.store rfl rfl (Nat.le_refl _) (fun _ _ hget => hget) rfl (fun _ hcall _ => hcall) hkeeps

/-- What a flush leaves of the core, with the calls as they were. -/
theorem Attempted.flushed (h : s.Attempted) (hcore : t.core = s.core.flush)
    (hinit : t.initialized = s.initialized) (hcalls : t.calls = s.calls)
    (hattempted : t.attempted = s.attempted) : t.Attempted := by
  obtain ⟨hfailures, hnow, hsame⟩ := ProfileCoordinator.flush_keeps s.core
  refine h.frame (fun p failure hget => .inr ?_) (hattempted ▸ List.Subset.refl _)
    (by rw [hcore, hnow]) (fun call hcall _ => hcalls ▸ hcall) fun _ _ _ _ p _ _ hhas => ?_
  · rwa [hcore, hfailures] at hget
  · rw [← hhas]
    simp only [cached, hinit, hcore, hnow, hsame p]

theorem Attempted.flush (h : s.Attempted) : s.flush.Attempted := by
  unfold ProfileSession.flush
  split_ifs
  · exact ⟨h.failed, h.woken⟩
  · exact h
  · exact ⟨h.failed, h.woken⟩
  · exact h.flushed rfl rfl rfl rfl
  · exact h.flushed rfl rfl rfl rfl

/-- The failures of a dispatch are those of pubkeys that it asked for. -/
theorem Attempted.settle (h : s.Attempted) {f : Nat} {pubkeys found : List JsString}
    {core : ProfileCoordinator ν} (happlied : s.core.FetchApplied core pubkeys found)
    (hkeeps : s.KeepsWoken core.cache s.core.now) : (s.settle f pubkeys core).Attempted := by
  obtain ⟨failures, hend, hothers, -⟩ := ProfileCoordinator.endFetch_eq core f pubkeys
  refine ⟨fun p failure hget hne => ?_, fun call hcall hphase p hp => ?_⟩
  · by_cases hmem : p ∈ pubkeys
    · exact List.mem_append_right _ hmem
    · simp only [ProfileSession.settle, hend] at hget
      rw [hothers p hmem, happlied.others p hmem] at hget
      exact List.mem_append_left _ (h.failed p failure hget hne)
  · by_cases hdone : p ∈ s.attempted
    · exact .inr (.inl (List.mem_append_left _ hdone))
    · simp only [ProfileSession.settle, hend, happlied.now]
      rcases h.woken call hcall hphase p hp with hhas | hasked | hover
      · by_cases hlate : call.deadline ≤ s.core.now
        · exact .inr (.inr hlate)
        · have hthere := hkeeps call hcall hphase (Nat.not_le.mp hlate) p hp hdone hhas
          left
          simp only [cached, initialized_of_cached hhas, hthere, Bool.and_self]
      · exact absurd hasked hdone
      · exact .inr (.inr hover)

/-- A call wakes when each of its pubkeys is cached or has failed, or when its time is over. -/
theorem Attempted.wake (h : s.Attempted) {c : Nat} {call : ProfileCall ν}
    (hcall : s.calls[c]? = some call)
    (hready : (s.shown.allSettled s.shown.cache call.pubkeys.eraseDups).1 = true ∨
      call.deadline ≤ s.core.now) (hguard : s.WakesAttempted c) :
    ((s.setShown (s.shown.allSettled s.shown.cache call.pubkeys.eraseDups).2).setCall c
      { call with phase := .woken }).Attempted := by
  have hsame : s.shown.cache.SameHas
      (s.shown.allSettled s.shown.cache call.pubkeys.eraseDups).2 s.core.now := by
    rw [← shown_now]
    exact ProfileCoordinator.sameHas_allSettled _ _
  have hread := h.setShown hsame
  have hcached : ∀ p, (s.setShown (s.shown.allSettled s.shown.cache call.pubkeys.eraseDups).2).cached p =
      s.cached p := fun _ => cached_setShown_of_sameHas hsame
  refine ⟨hread.failed, fun new hnew hphase p hp => ?_⟩
  rcases mem_setCall hnew with hold | rfl
  · exact hread.woken new hold hphase p hp
  · rw [setShown_eq] at hcached ⊢
    by_cases hlate : call.deadline ≤ s.core.now
    · exact .inr (.inr hlate)
    · have hsettled := ProfileCoordinator.settled_of_allSettled (hready.resolve_right hlate) p
        (List.mem_eraseDups.mpr hp)
      rw [shown_now, hasProfile_shown, shown_failures] at hsettled
      cases hhas : s.cached p with
      | true => exact .inl ((hcached p).trans hhas)
      | false =>
        obtain ⟨failure, hfailure⟩ :=
          Option.isSome_iff_exists.mp (hsettled.resolve_left (by simp [hhas]))
        have hne := hguard call hcall (Nat.not_le.mp hlate) p hp hhas failure hfailure
        exact .inr (.inl (h.failed p failure hfailure hne))

section Steps

variable [JsNumber ν]

theorem Attempted.streamed (h : s.Attempted) {event : Event}
    (hguard : s.KeepsAttempts (.streamed event)) :
    Attempted { s with core := s.core.applyEarlyProfileEvent event } := by
  change s.KeepsWoken _ _ at hguard
  refine h.store rfl rfl ?_ ?_ rfl (fun _ hcall _ => hcall) ?_
  · unfold ProfileCoordinator.applyEarlyProfileEvent
    split
    · exact Nat.le_refl _
    · exact Nat.le_refl _
  · intro p failure hget
    unfold ProfileCoordinator.applyEarlyProfileEvent at hget
    split at hget
    · exact hget
    · have hdeleted : (s.core.failures.delete event.pubkey).get? p = some failure := hget
      rw [OrderedMap.get?_delete] at hdeleted
      split_ifs at hdeleted
      exact hdeleted
  · have hnow : (s.core.applyEarlyProfileEvent event).now = s.core.now := by
      unfold ProfileCoordinator.applyEarlyProfileEvent
      split
      · rfl
      · rfl
    rw [hnow]
    exact hguard

theorem Attempted.step {a : SessionAction ν} (h : s.Attempted) (hguard : s.KeepsAttempts a)
    (hs : s.step a = some t) : t.Attempted := by
  cases step_cases hs with
  | hydrateCache hinit =>
    refine h.frame (fun _ _ hget => .inr hget) (List.Subset.refl _) (Nat.le_refl _)
      (fun _ hcall _ => hcall) fun _ _ _ _ p _ _ hhas => ?_
    cases hinit.symm.trans (initialized_of_cached hhas)
  | hydrateMisses => exact h.hydrateMisses _
  | streamed => exact h.streamed hguard
  | retain => exact h.retain _
  | release => exact h.release _
  | getProfiles => exact h.getProfiles _ _ _
  | refreshProfiles => exact h.refreshProfiles _ hguard
  | wake hcall _ hready => exact h.wake hcall hready hguard
  | answer =>
    refine Attempted.setCall (Attempted.setShown (h.release _) ?_) rfl
    rw [← shown_now]
    exact (ProfileCoordinator.readResults_spec _ _).1
  | restore hcall hprevious hresult =>
    exact h.restore (hguard _ hcall _ hprevious _ hresult)
  | flush =>
    have hgone : Attempted { s with flushes := s.flushes.erase .called } := ⟨h.failed, h.woken⟩
    exact hgone.flush
  | batchResult hf =>
    exact h.settle (ProfileCoordinator.applyFetchedProfiles_fetched _ _ _)
      (hguard _ (Option.join_eq_some_iff.mpr hf))
  | batchFailed =>
    refine h.settle (ProfileCoordinator.releaseFailedPubkeys_applied _ _) ?_
    exact fun _ _ _ _ _ _ _ hhas => (Bool.and_eq_true _ _ ▸ hhas).2
  | read => exact h.setShown (ProfileCache.sameHas_read _ _ _)
  | tick =>
    exact h.store rfl rfl (Nat.le_add_right _ _) (fun _ _ hget => hget) rfl
      (fun _ hcall _ => hcall) hguard
  | resumeFlush | bootTimerFires | retryTimerFires => exact ⟨h.failed, h.woken⟩

/-- The answer finds what is cached, and the others were attempted or are late. -/
theorem Attempted.answer (h : s.Attempted) : s.NullOnlyAfterAttempt := by
  intro c t hs call hcall result hresult p hp hnull
  cases step_cases hs with
  | @answer c old hold hphase =>
    have hlt := (List.getElem?_eq_some_iff.mp hold).1
    have hcalls : ((s.release old.retain).setShown (old.pubkeys.foldl
        (s.release old.retain).shown.readResult (.empty, (s.release old.retain).shown.cache)).2).calls =
          s.calls := by
      rw [setShown_eq]
      exact calls_release _
    simp only [ProfileSession.answer, ProfileSession.setCall, hcalls, List.getElem?_set_self hlt] at hcall
    cases hcall
    obtain rfl := Option.some.inj hresult
    rcases h.woken old (List.mem_of_getElem? hold) (by rw [hphase]; rfl) p hp with hhas | hasked | hlate
    · have hread := (ProfileCoordinator.readResults_spec (s.release old.retain).shown old.pubkeys).2 p hp
      rw [shown_now, hasProfile_shown, cached_release] at hread
      have hfound := hread hhas
      rw [OrderedMap.has, hnull] at hfound
      cases hfound
    · exact .inr hasked
    · exact .inl hlate

/-- In a run in which no wait ends on a miss of an earlier session and nothing is taken from the cache
between the end of a wait and the answer, `getProfiles` answers null only after an attempt. -/
theorem getProfiles_nullOnlyAfterAttempt {now : Nat} {as : List (SessionAction ν)}
    (hguard : Guarded step KeepsAttempts (init ν now) as) (hrun : run step (init ν now) as = some s) :
    s.NullOnlyAfterAttempt := by
  have hattempted : s.Attempted :=
    run_invariant (fun _ _ _ h hg hs => h.step hg hs) (attempted_init now) hguard hrun
  exact hattempted.answer

end Steps

end Invariant

section Runs

/-- The first fetch of the user misses, and the caller is told so. -/
def firstMiss : List (SessionAction Nat) :=
  [.hydrateCache .empty, .hydrateMisses [], .getProfiles [js "user"] 8000, .tick 2000, .flush,
    .batchResult 0 [none], .wake 0]

theorem getProfiles_nullOnlyAfterAttempt_firstMiss :
    ∃ s, run step (init Nat 10000) firstMiss = some s ∧ s.NullOnlyAfterAttempt := by
  obtain ⟨s, hs⟩ := Option.isSome_iff_exists.mp
    (show (run step (init Nat 10000) firstMiss).isSome = true by decide +kernel)
  exact ⟨s, hs, getProfiles_nullOnlyAfterAttempt (by decide +kernel) hs⟩

/-- The user was missed in an earlier session. -/
def missedBefore : List (SessionAction Nat) :=
  [.hydrateCache .empty, .hydrateMisses [js "user"], .getProfiles [js "user"] 8000, .wake 0]

/-- The user is cached and a caller asks for the profile, just when another refreshes it. -/
def refreshedMeanwhile : List (SessionAction Nat) :=
  [.hydrateCache .empty, .hydrateMisses [],
    .streamed (ProfileCoordinator.profileAt 10), .getProfiles [js "user"] 8000, .wake 0,
    .refreshProfiles [js "user"]]

/-- The first caller asked for the user, has time until 18000 and is answered null. -/
def AnsweredNull (t : ProfileSession Nat) : Prop :=
  ∃ call ∈ t.calls[0]?, ∃ result ∈ call.phase.answer?, js "user" ∈ call.pubkeys ∧
    call.deadline = 18000 ∧ result.get? (js "user") = none

instance (t : ProfileSession Nat) : Decidable t.AnsweredNull :=
  inferInstanceAs (Decidable (∃ call ∈ t.calls[0]?, ∃ result ∈ call.phase.answer?,
    js "user" ∈ call.pubkeys ∧ call.deadline = 18000 ∧ result.get? (js "user") = none))

/-- The next answer to the first caller is null, before its time and without a fetch. -/
def AnswersTooSoon (s : ProfileSession Nat) : Prop :=
  s.attempted = [] ∧ s.core.now < 18000 ∧ ∃ t ∈ s.step (.answer 0), t.AnsweredNull

instance (s : ProfileSession Nat) : Decidable s.AnswersTooSoon :=
  inferInstanceAs (Decidable (s.attempted = [] ∧ s.core.now < 18000 ∧
    ∃ t ∈ s.step (.answer 0), t.AnsweredNull))

theorem AnswersTooSoon.not_nullOnlyAfterAttempt {s : ProfileSession Nat} (h : s.AnswersTooSoon) :
    ¬ s.NullOnlyAfterAttempt := by
  obtain ⟨hattempted, hnow, t, ht, call, hcall, result, hresult, hmem, hdeadline, hnull⟩ := h
  intro hlaw
  rcases hlaw 0 t ht call hcall result hresult (js "user") hmem hnull with hlate | hasked
  · omega
  · rw [hattempted] at hasked
    exact absurd hasked List.not_mem_nil

/-- A pubkey that was missed in an earlier session is answered null at once; and a refresh takes a
profile away that the caller was about to read. -/
theorem getProfiles_nullOnlyAfterAttempt_fails :
    (∃ s, run step (init Nat 10000) missedBefore = some s ∧ s.AnswersTooSoon ∧
        ¬ s.NullOnlyAfterAttempt) ∧
      ∃ s, run step (init Nat 10000) refreshedMeanwhile = some s ∧ s.AnswersTooSoon ∧
        ¬ s.NullOnlyAfterAttempt := by
  constructor
  · have hsoon : (run step (init Nat 10000) missedBefore).any (fun s => s.AnswersTooSoon) = true := by
      decide +kernel
    obtain ⟨s, hrun, hs⟩ := (Option.any_eq_true _ _).mp hsoon
    have hearly : s.AnswersTooSoon := of_decide_eq_true hs
    exact ⟨s, hrun, hearly, hearly.not_nullOnlyAfterAttempt⟩
  · have hsoon : (run step (init Nat 10000) refreshedMeanwhile).any (fun s => s.AnswersTooSoon) = true := by
      decide +kernel
    obtain ⟨s, hrun, hs⟩ := (Option.any_eq_true _ _).mp hsoon
    have hearly : s.AnswersTooSoon := of_decide_eq_true hs
    exact ⟨s, hrun, hearly, hearly.not_nullOnlyAfterAttempt⟩

end Runs

end ProfileSession

end LivelierBridge.Nostr
