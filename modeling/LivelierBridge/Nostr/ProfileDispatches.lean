import Mathlib.Data.List.Chain
import LivelierBridge.Framework.FirstSeen
import LivelierBridge.Nostr.ProfileSession

namespace LivelierBridge.Nostr

open Framework Js

namespace ProfileSession

section Laws

variable {ν : Type}

/-- How many retains that hold the pubkey are not released. -/
def retainCount (s : ProfileSession ν) (pubkey : JsString) : Nat :=
  s.retains.countP fun retain => !retain.released && decide (pubkey ∈ retain.pubkeys)

/-- `wanted` counts the retains that are not released. -/
def WantedCounts (s : ProfileSession ν) : Prop :=
  ∀ pubkey, s.core.wanted.get? pubkey =
    if s.retainCount pubkey = 0 then none else some (s.retainCount pubkey)

/-- No pubkey is in two dispatches that have not settled. -/
def FetchedOnce (s : ProfileSession ν) : Prop :=
  ∀ (f g : Nat) (pubkeys others : List JsString), s.core.fetches[f]? = some (some pubkeys) →
    s.core.fetches[g]? = some (some others) → f ≠ g → pubkeys.Disjoint others

/-- Dispatches that follow each other start at least the spacing apart. -/
def Spaced (s : ProfileSession ν) : Prop :=
  s.dispatchedAt.IsChain fun earlier later => earlier + s.dispatchMinSpacingMs ≤ later

/-- What a step dispatches is wanted and not cached, each pubkey once, and no dispatch starts before
the caches have been loaded and the boot window is over. -/
def DispatchesRight (s t : ProfileSession ν) (bootEnd : Nat) : Prop :=
  ∀ (f : Nat) (pubkeys : List JsString), s.core.fetches.length ≤ f → t.core.fetches[f]? = some (some pubkeys) →
    pubkeys.Nodup ∧ (∀ pubkey ∈ pubkeys, pubkey ∈ s.core.wanted.keys ∧ s.cached pubkey = false) ∧
      s.hydrated = true ∧ bootEnd ≤ s.core.now ∧ t.dispatchedAt = s.dispatchedAt ++ [s.core.now]

end Laws

section Invariant

variable {ν : Type} {s t : ProfileSession ν} {pubkey : JsString} {bootEnd : Nat}

structure Coordinated (bootEnd : Nat) (s : ProfileSession ν) : Prop where
  nodup : ∀ retain ∈ s.retains, retain.pubkeys.Nodup
  wanted : s.WantedCounts
  inFlight : ∀ (f : Nat) (pubkeys : List JsString), s.core.fetches[f]? = some (some pubkeys) →
    ∀ pubkey ∈ pubkeys, pubkey ∈ s.core.inFlight
  apart : s.FetchedOnce
  last : ∀ t ∈ s.dispatchedAt.getLast?, t = s.lastDispatchAt
  spaced : s.Spaced
  window : s.bootWindowUntil = bootEnd

theorem coordinated_init (now : Nat) :
    (init ν now).Coordinated (now + PROFILE_BOOT_AGGREGATION_MS) := by
  refine ⟨?_, fun _ => rfl, ?_, ?_, ?_, List.isChain_nil, rfl⟩
  · exact fun _ h => absurd h List.not_mem_nil
  · exact fun _ _ h => nomatch h
  · exact fun _ _ _ _ h => nomatch h
  · exact fun _ h => nomatch h

/-- What the laws of the dispatches speak about. -/
structure SameBooks (s t : ProfileSession ν) : Prop where
  retains : t.retains = s.retains
  wanted : t.core.wanted = s.core.wanted
  inFlight : t.core.inFlight = s.core.inFlight
  fetches : t.core.fetches = s.core.fetches
  dispatchedAt : t.dispatchedAt = s.dispatchedAt
  lastDispatchAt : t.lastDispatchAt = s.lastDispatchAt
  spacing : t.dispatchMinSpacingMs = s.dispatchMinSpacingMs
  window : t.bootWindowUntil = s.bootWindowUntil

theorem Coordinated.frame (h : s.Coordinated bootEnd) (hsame : s.SameBooks t) :
    t.Coordinated bootEnd := by
  have hcount : ∀ p, t.retainCount p = s.retainCount p := by
    intro p
    rw [retainCount, hsame.retains, retainCount]
  refine ⟨?_, ?_, ?_, ?_, ?_, ?_, hsame.window.trans h.window⟩
  · rw [hsame.retains]
    exact h.nodup
  · intro p
    rw [hsame.wanted, hcount]
    exact h.wanted p
  · rw [hsame.fetches, hsame.inFlight]
    exact h.inFlight
  · rw [FetchedOnce, hsame.fetches]
    exact h.apart
  · rw [hsame.dispatchedAt, hsame.lastDispatchAt]
    exact h.last
  · rw [Spaced, hsame.dispatchedAt, hsame.spacing]
    exact h.spaced

theorem sameBooks_setShown (cache : ProfileCache ν) : s.SameBooks (s.setShown cache) := by
  rw [setShown_eq]
  exact ⟨rfl, rfl, rfl, rfl, rfl, rfl, rfl, rfl⟩

/-- A retain counts one more of each of its pubkeys. -/
theorem Coordinated.retain (h : s.Coordinated bootEnd) (pubkeys : List JsString) :
    (s.retain pubkeys).Coordinated bootEnd := by
  have hn := nodup_eraseDups pubkeys
  refine ⟨?_, fun p => ?_, h.inFlight, h.apart, h.last, h.spaced, h.window⟩
  · intro retain hretain
    rcases List.mem_append.mp hretain with hold | hnew
    · exact h.nodup retain hold
    · rw [List.mem_singleton.mp hnew]
      exact hn
  · obtain ⟨hin, hout⟩ := ProfileCoordinator.get?_addWanted s.core p hn
    have hcount : (s.retain pubkeys).retainCount p =
        s.retainCount p + if p ∈ pubkeys.eraseDups then 1 else 0 := by
      simp only [retainCount, ProfileSession.retain, List.countP_append, List.countP_singleton]
      simp
    rw [hcount]
    change ((s.core.addWanted pubkeys.eraseDups).wanted.get? p) = _
    by_cases hp : p ∈ pubkeys.eraseDups
    · rw [hin hp, h.wanted p, if_pos hp]
      by_cases hzero : s.retainCount p = 0
      · simp [hzero]
      · simp [hzero]
    · rw [hout hp, h.wanted p, if_neg hp, Nat.add_zero]

/-- The first call of a release counts one fewer of each of its pubkeys. -/
theorem Coordinated.releaseRetain (h : s.Coordinated bootEnd) {i : Nat} {retain : Retain}
    (hi : s.retains[i]? = some retain) (hheld : retain.released = false) :
    (s.releaseRetain i retain).Coordinated bootEnd := by
  obtain ⟨hlt, hget⟩ := List.getElem?_eq_some_iff.mp hi
  have hn := h.nodup retain (List.mem_of_getElem? hi)
  refine ⟨?_, fun p => ?_, h.inFlight, h.apart, h.last, h.spaced, h.window⟩
  · intro other hother
    rcases List.mem_or_eq_of_mem_set hother with hold | rfl
    · exact h.nodup other hold
    · exact hn
  · obtain ⟨hin, hout⟩ := ProfileCoordinator.get?_dropWanted s.core p hn
    have hcount : (s.releaseRetain i retain).retainCount p =
        s.retainCount p - if p ∈ retain.pubkeys then 1 else 0 := by
      simp only [retainCount, ProfileSession.releaseRetain, List.countP_set hlt, hget, hheld]
      simp
    rw [hcount]
    change ((s.core.dropWanted retain.pubkeys).wanted.get? p) = _
    by_cases hp : p ∈ retain.pubkeys
    · have hpos : 0 < s.retainCount p := by
        refine List.countP_pos_iff.mpr ⟨retain, List.mem_of_getElem? hi, ?_⟩
        simp [hheld, hp]
      rw [hin hp, h.wanted p, if_neg (Nat.pos_iff_ne_zero.mp hpos), if_pos hp]
      by_cases hone : s.retainCount p ≤ 1
      · simp [ProfileCoordinator.lessWanted, hone]
      · have hmore : s.retainCount p - 1 ≠ 0 := by omega
        simp [ProfileCoordinator.lessWanted, hone, hmore]
    · rw [hout hp, h.wanted p, if_neg hp, Nat.sub_zero]

theorem Coordinated.release (h : s.Coordinated bootEnd) (i : Nat) :
    (s.release i).Coordinated bootEnd := by
  unfold ProfileSession.release
  split
  · exact h
  · rename_i retain hretain
    split_ifs with hreleased
    · exact h
    · have hdropped := h.releaseRetain hretain (by simpa using hreleased)
      exact hdropped.frame ⟨rfl, rfl, rfl, rfl, rfl, rfl, rfl, rfl⟩

/-- A dispatch asks for wanted pubkeys that are neither cached nor in flight. -/
theorem mem_missingPubkeys (h : pubkey ∈ s.missingPubkeys) :
    pubkey ∈ s.core.wanted.keys ∧ s.cached pubkey = false ∧ pubkey ∉ s.core.inFlight := by
  rw [missingPubkeys, (ProfileCoordinator.partitionPubkeys_spec _ _).2] at h
  obtain ⟨hwanted, hasked⟩ := List.mem_filter.mp h
  simp only [ProfileCoordinator.asksFor, Bool.and_eq_true, Bool.not_eq_true', decide_eq_true_eq]
    at hasked
  exact ⟨hwanted, by simp [cached, hasked.1.1], hasked.1.2⟩

theorem nodup_missingPubkeys : s.missingPubkeys.Nodup := by
  rw [missingPubkeys, (ProfileCoordinator.partitionPubkeys_spec _ _).2]
  exact s.core.wanted.nodup.filter _

theorem Coordinated.dispatch (h : s.Coordinated bootEnd) (hpaced : s.earliestDispatchAt ≤ s.core.now)
    (hmissing : s.missingPubkeys ≠ []) : s.dispatch.Coordinated bootEnd := by
  obtain ⟨cache, version, hcore, -⟩ := ProfileCoordinator.flush_of_ne_nil hmissing
  unfold ProfileSession.dispatch
  rw [hcore]
  have hspacing : s.lastDispatchAt + s.dispatchMinSpacingMs ≤ s.core.now :=
    Nat.le_trans (Nat.le_max_right _ _) hpaced
  have hnew : ∀ (f : Nat) (pubkeys : List JsString),
      (s.core.fetches ++ [some s.missingPubkeys])[f]? = some (some pubkeys) →
        s.core.fetches[f]? = some (some pubkeys) ∨
          f = s.core.fetches.length ∧ pubkeys = s.missingPubkeys := by
    intro f pubkeys hf
    rcases Nat.lt_or_ge f s.core.fetches.length with hlt | hge
    · exact .inl ((List.getElem?_append_left hlt).symm.trans hf)
    · rw [List.getElem?_append_right hge] at hf
      rw [List.getElem?_singleton] at hf
      split_ifs at hf with hfirst
      obtain rfl : s.missingPubkeys = pubkeys := by simpa using hf
      exact .inr ⟨by omega, rfl⟩
  refine ⟨h.nodup, h.wanted, fun f pubkeys hf p hp => ?_, fun f g pubkeys others hf hg hne => ?_,
    fun t ht => ?_, ?_, h.window⟩
  · rcases hnew f pubkeys hf with hold | ⟨-, rfl⟩
    · exact List.mem_append_left _ (h.inFlight f pubkeys hold p hp)
    · refine List.mem_append_right _ (List.mem_filter.mpr ⟨hp, ?_⟩)
      simpa using (mem_missingPubkeys hp).2.2
  · rcases hnew f pubkeys hf with hold | ⟨hlast, rfl⟩
    · rcases hnew g others hg with hold' | ⟨-, rfl⟩
      · exact h.apart f g pubkeys others hold hold' hne
      · exact fun p hp hp' => (mem_missingPubkeys hp').2.2 (h.inFlight f pubkeys hold p hp)
    · rcases hnew g others hg with hold' | ⟨hlast', -⟩
      · exact fun p hp hp' => (mem_missingPubkeys hp).2.2 (h.inFlight g others hold' p hp')
      · exact absurd (hlast.trans hlast'.symm) hne
  · simpa using ht.symm
  · refine List.isChain_append.mpr ⟨h.spaced, List.isChain_singleton _, fun t ht u hu => ?_⟩
    obtain rfl : s.core.now = u := by simpa using hu
    rw [h.last t ht]
    exact hspacing

theorem Coordinated.flush (h : s.Coordinated bootEnd) : s.flush.Coordinated bootEnd := by
  unfold ProfileSession.flush
  split_ifs with hpaced hboot hwanted hmissing
  · exact h.frame ⟨rfl, rfl, rfl, rfl, rfl, rfl, rfl, rfl⟩
  · exact h
  · exact h.frame ⟨rfl, rfl, rfl, rfl, rfl, rfl, rfl, rfl⟩
  · obtain ⟨cache, version, hcore, -⟩ := ProfileCoordinator.flush_of_nil hmissing
    rw [hcore]
    exact h.frame ⟨rfl, rfl, rfl, rfl, rfl, rfl, rfl, rfl⟩
  · exact h.dispatch (Nat.not_lt.mp hpaced) hmissing

/-- A dispatch that settles takes only its own pubkeys out of flight. -/
theorem Coordinated.settle (h : s.Coordinated bootEnd) {f : Nat} {pubkeys found : List JsString}
    {core : ProfileCoordinator ν} (hf : s.core.fetches[f]? = some (some pubkeys))
    (happlied : s.core.FetchApplied core pubkeys found) :
    (s.settle f pubkeys core).Coordinated bootEnd := by
  obtain ⟨failures, hend, -⟩ := ProfileCoordinator.endFetch_eq core f pubkeys
  unfold ProfileSession.settle
  rw [hend, happlied.wanted, happlied.fetches]
  have hold : ∀ (g : Nat) (others : List JsString),
      (s.core.fetches.set f none)[g]? = some (some others) →
        g ≠ f ∧ s.core.fetches[g]? = some (some others) := by
    intro g others hg
    have hne : f ≠ g := by
      rintro rfl
      rw [List.getElem?_set_self (List.getElem?_eq_some_iff.mp hf).1] at hg
      cases hg
    rw [List.getElem?_set_ne hne] at hg
    exact ⟨hne.symm, hg⟩
  refine ⟨h.nodup, h.wanted, fun g others hg p hp => ?_, fun g i others more hg hi hne => ?_, h.last,
    h.spaced, h.window⟩
  · obtain ⟨hne, hg⟩ := hold g others hg
    have hnot : p ∉ pubkeys := h.apart g f others pubkeys hg hf hne hp
    refine List.mem_filter.mpr ⟨?_, by simpa using hnot⟩
    exact (happlied.inFlight p hnot).mpr (h.inFlight g others hg p hp)
  · exact h.apart g i others more (hold g others hg).2 (hold i more hi).2 hne

theorem sameBooks_restore (c : Nat) (call : ProfileCall ν)
    (previous result : OrderedMap JsString (CachedProfile ν)) :
    s.SameBooks (s.restore c call previous result) := by
  obtain ⟨cache, hcache⟩ :=
    ProfileCoordinator.restoreProfiles_eq previous (result, s.core) call.pubkeys
  have hrestored : (s.restoreAll call previous result).2 = { s.core with cache := cache } := hcache
  simp only [restore]
  rw [hrestored]
  exact ⟨rfl, rfl, rfl, rfl, rfl, rfl, rfl, rfl⟩

theorem dispatchesRight_of_fetches (h : t.core.fetches.length ≤ s.core.fetches.length) :
    DispatchesRight s t bootEnd := by
  intro f pubkeys hnew hf
  cases (List.getElem?_eq_none (Nat.le_trans h hnew)).symm.trans hf

/-- Only a flush that is past the boot window and the spacing dispatches. -/
theorem dispatchesRight_flush (hready : s.hydrated = true) (hwindow : s.bootWindowUntil = bootEnd) :
    DispatchesRight s s.flush bootEnd := by
  intro f pubkeys hnew hf
  have hold : s.core.fetches[f]? = none := List.getElem?_eq_none hnew
  unfold flush at hf ⊢
  split_ifs at hf ⊢ with hpaced hboot hwanted hmissing
  · cases hold.symm.trans hf
  · cases hold.symm.trans hf
  · cases hold.symm.trans hf
  · obtain ⟨cache, version, hcore, -⟩ := ProfileCoordinator.flush_of_nil hmissing
    simp only [scheduleRetry, hcore] at hf
    cases hold.symm.trans hf
  · obtain ⟨cache, version, hcore, -⟩ := ProfileCoordinator.flush_of_ne_nil hmissing
    simp only [dispatch, hcore] at hf
    rw [List.getElem?_append_right hnew, List.getElem?_singleton] at hf
    split_ifs at hf
    obtain rfl : s.missingPubkeys = pubkeys := by simpa [missingPubkeys] using hf
    refine ⟨nodup_missingPubkeys, fun p hp => ?_, hready, ?_, rfl⟩
    · exact ⟨(mem_missingPubkeys hp).1, (mem_missingPubkeys hp).2.1⟩
    · exact hwindow ▸ Nat.le_trans (Nat.le_max_left _ _) (Nat.not_lt.mp hpaced)

theorem fetches_release (i : Nat) : (s.release i).core.fetches = s.core.fetches := by
  unfold ProfileSession.release
  split
  · rfl
  · split_ifs
    · rfl
    · rfl

theorem fetches_settle {f : Nat} {pubkeys found : List JsString} {core : ProfileCoordinator ν}
    (happlied : s.core.FetchApplied core pubkeys found) :
    (s.settle f pubkeys core).core.fetches.length ≤ s.core.fetches.length := by
  obtain ⟨failures, hend, -⟩ := ProfileCoordinator.endFetch_eq core f pubkeys
  simp only [settle, hend, happlied.fetches, List.length_set]
  exact Nat.le_refl _

section Steps

variable [JsNumber ν] {a : SessionAction ν}

theorem sameBooks_streamed (event : Event) :
    s.SameBooks { s with core := s.core.applyEarlyProfileEvent event } := by
  unfold ProfileCoordinator.applyEarlyProfileEvent
  split
  · exact ⟨rfl, rfl, rfl, rfl, rfl, rfl, rfl, rfl⟩
  · exact ⟨rfl, rfl, rfl, rfl, rfl, rfl, rfl, rfl⟩

theorem Coordinated.step (h : s.Coordinated bootEnd) (hs : s.step a = some t) :
    t.Coordinated bootEnd := by
  cases step_cases hs with
  | streamed => exact h.frame (sameBooks_streamed _)
  | retain => exact h.retain _
  | release => exact h.release _
  | getProfiles => exact (h.retain _).frame ⟨rfl, rfl, rfl, rfl, rfl, rfl, rfl, rfl⟩
  | @refreshProfiles pubkeys =>
    have htaken := h.frame (sameBooks_setShown (s.takeAll pubkeys.eraseDups).2.cache)
    have hcleared : Coordinated bootEnd { s.setShown (s.takeAll pubkeys.eraseDups).2.cache with
        core := { (s.setShown (s.takeAll pubkeys.eraseDups).2.cache).core with
          failures := (s.takeAll pubkeys.eraseDups).2.failures } } :=
      htaken.frame ⟨rfl, rfl, rfl, rfl, rfl, rfl, rfl, rfl⟩
    exact (hcleared.retain pubkeys.eraseDups).frame ⟨rfl, rfl, rfl, rfl, rfl, rfl, rfl, rfl⟩
  | wake => exact (h.frame (sameBooks_setShown _)).frame ⟨rfl, rfl, rfl, rfl, rfl, rfl, rfl, rfl⟩
  | answer =>
    exact ((h.release _).frame (sameBooks_setShown _)).frame ⟨rfl, rfl, rfl, rfl, rfl, rfl, rfl, rfl⟩
  | restore => exact h.frame (sameBooks_restore _ _ _ _)
  | flush =>
    have hgone : Coordinated bootEnd { s with flushes := s.flushes.erase .called } :=
      h.frame ⟨rfl, rfl, rfl, rfl, rfl, rfl, rfl, rfl⟩
    exact hgone.flush
  | batchResult hf => exact h.settle hf (ProfileCoordinator.applyFetchedProfiles_fetched _ _ _)
  | batchFailed hf => exact h.settle hf (ProfileCoordinator.releaseFailedPubkeys_applied _ _)
  | read => exact h.frame (sameBooks_setShown _)
  | hydrateCache | hydrateMisses | resumeFlush | bootTimerFires | retryTimerFires | tick =>
    exact h.frame ⟨rfl, rfl, rfl, rfl, rfl, rfl, rfl, rfl⟩

theorem Coordinated.dispatches (h : s.Coordinated bootEnd) (hs : s.step a = some t) :
    DispatchesRight s t bootEnd := by
  cases step_cases hs with
  | flush hready =>
    let gone : ProfileSession ν := { s with flushes := s.flushes.erase .called }
    have hgone : gone.DispatchesRight gone.flush bootEnd := dispatchesRight_flush hready h.window
    exact hgone
  | streamed => exact dispatchesRight_of_fetches (Nat.le_of_eq (by rw [(sameBooks_streamed _).fetches]))
  | release => exact dispatchesRight_of_fetches (Nat.le_of_eq (by rw [fetches_release]))
  | @refreshProfiles pubkeys =>
    apply dispatchesRight_of_fetches
    simp only [refreshProfiles, setShown_eq]
    exact Nat.le_refl _
  | wake =>
    apply dispatchesRight_of_fetches
    simp only [setCall, setShown_eq]
    exact Nat.le_refl _
  | answer =>
    apply dispatchesRight_of_fetches
    simp only [answer, setShown_eq]
    rw [← fetches_release (s := s)]
    exact Nat.le_refl _
  | restore => exact dispatchesRight_of_fetches (Nat.le_of_eq (by rw [(sameBooks_restore _ _ _ _).fetches]))
  | @batchResult f events pubkeys hf =>
    have happlied := ProfileCoordinator.applyFetchedProfiles_fetched s.core pubkeys events
    exact dispatchesRight_of_fetches (fetches_settle happlied)
  | @batchFailed f pubkeys hf =>
    have happlied := ProfileCoordinator.releaseFailedPubkeys_applied s.core pubkeys
    exact dispatchesRight_of_fetches (fetches_settle happlied)
  | read => exact dispatchesRight_of_fetches (Nat.le_of_eq (by rw [(sameBooks_setShown _).fetches]))
  | hydrateCache | hydrateMisses | retain | getProfiles | resumeFlush | bootTimerFires
  | retryTimerFires | tick => exact dispatchesRight_of_fetches (Nat.le_refl _)

/-- `wanted` counts the retains that are not released, no pubkey is fetched twice at a time, dispatches
are spaced, and each of them asks for wanted and uncached pubkeys, after the boot window. -/
theorem coordination_invariants {now : Nat} {as : List (SessionAction ν)}
    (hrun : run step (init ν now) as = some s) : s.WantedCounts ∧ s.FetchedOnce ∧ s.Spaced ∧
      ∀ a t, s.step a = some t → DispatchesRight s t (now + PROFILE_BOOT_AGGREGATION_MS) := by
  have h : s.Coordinated (now + PROFILE_BOOT_AGGREGATION_MS) :=
    run_invariant_all (fun _ _ _ h hs => h.step hs) (coordinated_init now) hrun
  exact ⟨h.wanted, h.apart, h.spaced, fun _ _ hs => h.dispatches hs⟩

end Steps

end Invariant

section Runs

/-- While the fetch of one pubkey is on its way another is retained, and the first is released, twice:
the second dispatch waits for the spacing. -/
def twoDispatches : List (SessionAction Nat) :=
  [.hydrateCache .empty, .hydrateMisses [], .retain [js "user", js "user"], .tick 2000, .flush,
    .retain [js "other"], .flush, .tick 5000, .bootTimerFires, .flush, .release 0, .release 0]

example : (run step (init Nat 10000) twoDispatches).map (fun s =>
    (s.dispatchedAt, s.retainCount (js "user"), s.retainCount (js "other"))) =
      some ([12000, 17000], 0, 1) := by decide +kernel

theorem coordination_invariants_twoDispatches :
    ∃ s, run step (init Nat 10000) twoDispatches = some s ∧ s.WantedCounts ∧ s.FetchedOnce ∧ s.Spaced ∧
      ∀ a t, s.step a = some t → DispatchesRight s t (10000 + PROFILE_BOOT_AGGREGATION_MS) := by
  obtain ⟨s, hs⟩ := Option.isSome_iff_exists.mp
    (show (run step (init Nat 10000) twoDispatches).isSome = true by decide +kernel)
  exact ⟨s, hs, coordination_invariants hs⟩

end Runs

end ProfileSession

end LivelierBridge.Nostr
