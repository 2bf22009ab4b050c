import LivelierBridge.Nostr.ProfileAdvances
import LivelierBridge.Nostr.RefreshSession

namespace LivelierBridge.Nostr

open Framework Js

namespace RefreshSession

section Invariant

variable {ν : Type} {s t : RefreshSession ν} {r : Nat} {pubkey : JsString} {refresh : ProfileRefresh ν}

/-- What a load of the pubkey's profile gets from now on, and what the dispatches under way wait for,
was asked for after refresh `r` was called. -/
structure Sourced (s : RefreshSession ν) (r : Nat) (pubkey : JsString) : Prop where
  serves : s.traced.ServesSince r (profileKey pubkey)
  awaited : ∀ load ∈ s.awaited, load.key = profileKey pubkey → s.traced.LoadSince r load

theorem mem_awaited {load : LoadRecord} : load ∈ s.awaited ↔ ∃ (f : Nat) (pubkeys : List JsString)
    (loads : List LoadRecord), s.core.fetches[f]? = some (some pubkeys) ∧
      s.promises[f]? = some loads ∧ load ∈ loads := by
  unfold awaited
  rw [List.mem_flatMap]
  constructor
  · rintro ⟨⟨fetch, loads⟩, hmem, hload⟩
    obtain ⟨hzip, hsome⟩ := List.mem_filter.mp hmem
    obtain ⟨pubkeys, rfl⟩ := Option.isSome_iff_exists.mp hsome
    obtain ⟨f, hf⟩ := List.mem_iff_getElem?.mp hzip
    obtain ⟨hfetch, hloads⟩ := List.getElem?_zip_eq_some.mp hf
    exact ⟨f, pubkeys, loads, hfetch, hloads, hload⟩
  · rintro ⟨f, pubkeys, loads, hfetch, hloads, hload⟩
    refine ⟨(some pubkeys, loads), List.mem_filter.mpr ⟨?_, rfl⟩, hload⟩
    exact List.mem_of_getElem? (List.getElem?_zip_eq_some.mpr ⟨hfetch, hloads⟩)

/-- The loads of each dispatch are those of its pubkeys, and the refreshes keep what they took. -/
structure Linked (s : RefreshSession ν) : Prop where
  indexed : s.traced.loader.Indexed
  promised : s.promises.length = s.core.fetches.length
  keys : ∀ (f : Nat) (pubkeys : List JsString) (loads : List LoadRecord),
    s.core.fetches[f]? = some (some pubkeys) → s.promises[f]? = some loads →
      loads.map LoadRecord.key = pubkeys.map profileKey
  loads : ∀ load ∈ s.awaited, load ∈ s.traced.loader.loads
  found : s.found.length = s.core.refreshes.length
  since : ∀ refresh ∈ s.core.refreshes, refresh.since ≤ s.core.applied.length
  previous : ∀ (r : Nat) (refresh : ProfileRefresh ν), s.core.refreshes[r]? = some refresh →
    ∀ pubkey, refresh.previous.get? pubkey =
      if pubkey ∈ refresh.pubkeys then s.cachedBefore r pubkey else none

/-- The refreshes are the same calls, perhaps further on. -/
structure SameCalls (s t : ProfileCoordinator ν) : Prop where
  length : t.refreshes.length = s.refreshes.length
  calls : ∀ (r : Nat) (new : ProfileRefresh ν), t.refreshes[r]? = some new →
    ∃ old, s.refreshes[r]? = some old ∧ new.pubkeys = old.pubkeys ∧ new.previous = old.previous ∧
      new.since = old.since

theorem sameCalls_of_eq {c d : ProfileCoordinator ν} (h : d.refreshes = c.refreshes) :
    SameCalls c d :=
  ⟨by rw [h], fun _ new hr => ⟨new, h ▸ hr, rfl, rfl, rfl⟩⟩

/-- A refresh moves on. -/
theorem sameCalls_setRefresh {c d : ProfileCoordinator ν} {phase : RefreshPhase ν}
    (hr : c.refreshes[r]? = some refresh)
    (h : d.refreshes = c.refreshes.set r { refresh with phase := phase }) : SameCalls c d := by
  refine ⟨by rw [h, List.length_set], fun r' new hnew => ?_⟩
  rw [h, List.getElem?_set] at hnew
  split_ifs at hnew with hsame
  · subst hsame
    obtain rfl := Option.some.inj hnew
    exact ⟨refresh, hr, rfl, rfl, rfl⟩
  · exact ⟨new, hnew, rfl, rfl, rfl⟩

/-- The fetches are the same, or some of them have ended. -/
structure SameFetches (c d : ProfileCoordinator ν) : Prop where
  length : d.fetches.length = c.fetches.length
  pending : ∀ (f : Nat) (pubkeys : List JsString), d.fetches[f]? = some (some pubkeys) →
    c.fetches[f]? = some (some pubkeys)

theorem sameFetches_of_eq {c d : ProfileCoordinator ν} (h : d.fetches = c.fetches) :
    SameFetches c d :=
  ⟨by rw [h], fun _ _ hf => h ▸ hf⟩

theorem sameFetches_set {c d : ProfileCoordinator ν} {f : Nat} (h : d.fetches = c.fetches.set f none) :
    SameFetches c d := by
  refine ⟨by rw [h, List.length_set], fun g pubkeys hg => ?_⟩
  rw [h, List.getElem?_set] at hg
  split_ifs at hg
  · cases hg
  · exact hg

theorem awaited_subset (hpromises : t.promises = s.promises)
    (hfetches : SameFetches s.core t.core) : t.awaited ⊆ s.awaited := by
  intro load hload
  obtain ⟨f, pubkeys, loads, hf, hp, hmem⟩ := mem_awaited.mp hload
  exact mem_awaited.mpr ⟨f, pubkeys, loads, hfetches.pending f pubkeys hf, hpromises ▸ hp, hmem⟩

/-- A step that starts no dispatch and calls no refresh. -/
theorem Linked.frame (h : s.Linked) (hindexed : t.traced.loader.Indexed)
    (hloads : s.traced.loader.loads ⊆ t.traced.loader.loads) (hpromises : t.promises = s.promises)
    (hfetches : SameFetches s.core t.core)
    (hfound : t.found = s.found) (happlied : s.core.applied <+: t.core.applied)
    (hcalls : SameCalls s.core t.core) : t.Linked := by
  refine ⟨hindexed, ?_, fun f pubkeys loads hf hp => ?_, fun load hload => ?_, ?_,
    fun new hnew => ?_, fun r new hr p => ?_⟩
  · rw [hpromises, h.promised, hfetches.length]
  · exact h.keys f pubkeys loads (hfetches.pending f pubkeys hf) (hpromises ▸ hp)
  · exact hloads (h.loads load (awaited_subset hpromises hfetches hload))
  · rw [hfound, h.found, hcalls.length]
  · obtain ⟨r, hr⟩ := List.mem_iff_getElem?.mp hnew
    obtain ⟨old, hold, -, -, hsince⟩ := hcalls.calls r new hr
    rw [hsince]
    exact Nat.le_trans (h.since old (List.mem_of_getElem? hold)) happlied.length_le
  · obtain ⟨old, hold, hpubkeys, hprevious, -⟩ := hcalls.calls r new hr
    rw [hpubkeys, hprevious, cachedBefore, hfound]
    exact h.previous r old hold p

theorem awaits_spec (h : refresh.awaits pubkey = true) :
    pubkey ∈ refresh.pubkeys ∧ refresh.relies pubkey = true := by
  unfold ProfileRefresh.awaits at h
  unfold ProfileRefresh.relies
  split at h
  · exact ⟨of_decide_eq_true h, h⟩
  · exact ⟨of_decide_eq_true h, h⟩
  · cases h
  · cases h

theorem lt_epoch (hr : s.core.refreshes[r]? = some refresh) : r < s.epoch :=
  (List.getElem?_eq_some_iff.mp hr).1

theorem Sourced.mono (h : s.Sourced r pubkey) (hsame : s.traced.SameBatches t.traced)
    (hinFlight : t.traced.loader.inFlight = s.traced.loader.inFlight)
    (hcache : ∀ event, t.traced.loader.cache.cache.get? (profileKey pubkey) = some event →
      s.traced.loader.cache.cache.get? (profileKey pubkey) = some event)
    (hawaited : t.awaited ⊆ s.awaited) : t.Sourced r pubkey :=
  ⟨h.serves.mono hsame hinFlight hcache,
    fun load hload hkey => (h.awaited load (hawaited hload) hkey).mono hsame⟩

/-- A step that leaves the batches, the cache and the promises as they were. -/
theorem Sourced.frame (h : s.Sourced r pubkey) (hsame : s.traced.SameBatches t.traced)
    (hinFlight : t.traced.loader.inFlight = s.traced.loader.inFlight)
    (hcache : t.traced.loader.cache.cache = s.traced.loader.cache.cache)
    (hpromises : t.promises = s.promises) (hfetches : SameFetches s.core t.core) :
    t.Sourced r pubkey := by
  refine h.mono hsame hinFlight (fun event hcached => ?_) (awaited_subset hpromises hfetches)
  rw [← hcache]
  exact hcached

theorem Linked.withCore {core : ProfileCoordinator ν} {new : JsString → ProfileInfo ν → Prop}
    (h : s.Linked) (hadv : s.core.Advances core new)
    (hfetches : SameFetches s.core core) (hcalls : SameCalls s.core core) :
    Linked { s with core := core } := by
  obtain ⟨more, happlied, -⟩ := hadv.applied
  exact h.frame h.indexed (List.Subset.refl _) rfl hfetches rfl
    ⟨more, happlied.symm⟩ hcalls

/-- What a refresh restores is the copy that its call found. -/
theorem Linked.restored (h : s.Linked) (hr : s.core.refreshes[r]? = some refresh)
    {copy : CachedProfile ν} (hcopy : refresh.previous.get? pubkey = some copy) :
    pubkey ∈ refresh.pubkeys ∧ s.cachedBefore r pubkey = some copy := by
  rw [h.previous r refresh hr pubkey] at hcopy
  split_ifs at hcopy with hmem
  exact ⟨hmem, hcopy⟩

/-- What the loads of a dispatch have resolved to. -/
theorem results_eq_some {f : Nat} {events : List (Option Event)} (h : s.results f = some events) :
    ∃ loads, s.promises[f]? = some loads ∧ ∀ (i : Nat) (event : Event),
      events[i]? = some (some event) → ∃ load, loads[i]? = some load ∧ s.traced.loader.resultOf load = some (some event) := by
  obtain ⟨loads, hloads, hresults⟩ := Option.bind_eq_some_iff.mp h
  split_ifs at hresults
  obtain rfl := Option.some.inj hresults
  refine ⟨loads, hloads, fun i event hevent => ?_⟩
  rw [List.getElem?_map] at hevent
  obtain ⟨load, hload, hresult⟩ := Option.map_eq_some_iff.mp hevent
  exact ⟨load, hload, Option.join_eq_some_iff.mp hresult⟩

/-- What clearing leaves of a loader. -/
structure Cleared (l m : ReplaceableEventLoader) (pubkeys : List JsString) : Prop where
  batches : m.batches = l.batches
  inFlight : m.inFlight = l.inFlight
  pendingBatch : m.pendingBatch = l.pendingBatch
  loads : m.loads = l.loads
  cache : ∀ pubkey event, m.cache.cache.get? (profileKey pubkey) = some event →
    pubkey ∉ pubkeys ∧ l.cache.cache.get? (profileKey pubkey) = some event

theorem clearProfileEvents_cleared (traced : TracedLoader) (pubkeys : List JsString) :
    Cleared traced.loader (clearProfileEvents traced pubkeys).loader pubkeys := by
  unfold clearProfileEvents
  dsimp only
  induction pubkeys generalizing traced with
  | nil => exact ⟨rfl, rfl, rfl, rfl, fun _ _ h => ⟨List.not_mem_nil, h⟩⟩
  | cons p pubkeys ih =>
    have hrest := ih { traced with loader := traced.loader.clear ⟨p, 0, none⟩ }
    refine ⟨hrest.batches, hrest.inFlight, hrest.pendingBatch, hrest.loads, fun q event hget => ?_⟩
    obtain ⟨hnot, hone⟩ := hrest.cache q event hget
    have hdeleted : (traced.loader.cache.delete (profileKey p)).cache.get? (profileKey q) =
        some event := hone
    rw [LruCache.get?_delete] at hdeleted
    split_ifs at hdeleted with hkey
    refine ⟨?_, hdeleted⟩
    rw [List.mem_cons, not_or]
    exact ⟨fun hq => hkey (congrArg profileKey hq), hnot⟩

theorem Cleared.indexed {l m : ReplaceableEventLoader} {pubkeys : List JsString}
    (h : Cleared l m pubkeys) (hindexed : l.Indexed) : m.Indexed := by
  refine hindexed.frame (ReplaceableEventLoader.keysGrow_of_batches h.batches) ?_ ?_ h.loads
  · intro b hb
    rw [h.batches]
    exact hindexed.pending b (h.pendingBatch ▸ hb)
  · exact fun key entry hentry => h.inFlight ▸ hentry

theorem batchSince_of_collecting {b : Nat} {key : JsString}
    (h : (s.traced.loader.collecting b).isSome = true) : s.traced.BatchSince r key b := by
  obtain ⟨x, hx⟩ := Option.isSome_iff_exists.mp h
  have hb := ReplaceableEventLoader.collecting_eq_some hx
  intro batch hbatch
  obtain rfl := Option.some.inj (hb.symm.trans hbatch)
  trivial

/-- When no query for a pubkey is under way, all that it will be served is asked for later. -/
theorem Unqueried.sourced (h : s.Unqueried pubkey) (hsame : s.traced.SameBatches t.traced)
    (hinFlight : t.traced.loader.inFlight = s.traced.loader.inFlight)
    (hcache : t.traced.loader.cache.cache.get? (profileKey pubkey) = none)
    (hawaited : t.awaited ⊆ s.awaited) : t.Sourced r pubkey := by
  obtain ⟨hloads, hflight, hbatches⟩ := h
  refine ⟨⟨fun event hcached => ?_, fun entry hentry => ?_, fun b batch hbatch hmem hunsettled => ?_⟩,
    fun load hload hkey => ?_⟩
  · rw [hcache] at hcached
    cases hcached
  · rw [hinFlight] at hentry
    exact (batchSince_of_collecting (hflight entry hentry)).mono hsame
  · rw [hsame.batches] at hbatch
    have hlt : b < s.traced.loader.batches.length := (List.getElem?_eq_some_iff.mp hbatch).1
    have hkeys := ReplaceableEventLoader.keysOf_of_getElem? hbatch
    rcases hbatches b (List.mem_range.mpr hlt) (hkeys ▸ hmem) with hcollecting | hsettled
    · exact ((batchSince_of_collecting hcollecting).mono hsame) batch (hsame.batches ▸ hbatch)
    · obtain ⟨x, hx⟩ := Option.isSome_iff_exists.mp hsettled
      have hb := ReplaceableEventLoader.settled_eq_some hx
      obtain rfl := Option.some.inj (hb.symm.trans hbatch)
      exact absurd rfl (hunsettled x.2)
  · have hcollecting := hloads load (hawaited hload) hkey
    refine TracedLoader.LoadSince.mono ⟨fun event he => ?_, fun entry he => ?_⟩ hsame
    · simp [StillCollecting, he] at hcollecting
    · simp only [StillCollecting, he] at hcollecting
      exact batchSince_of_collecting hcollecting

/-- The refresh has received nothing but what it asked for, and that is all in the cache. -/
structure Fresh [JsNumber ν] (s : RefreshSession ν) (r : Nat) (refresh : ProfileRefresh ν)
    (pubkey : JsString) : Prop where
  cached : ∀ profile, s.core.cache.cache.get? pubkey = some profile →
    s.FetchedSince r pubkey profile.info
  applied : ∀ event ∈ s.core.applied.drop refresh.since, event.pubkey = pubkey →
    (s.core.cache.hasProfile pubkey s.core.now).1 = true

/-- What `getProfiles` has returned to a refresh. -/
structure Answered [JsNumber ν] (s : RefreshSession ν) (r : Nat) (refresh : ProfileRefresh ν)
    (result : OrderedMap JsString (CachedProfile ν)) : Prop where
  values : ∀ pubkey profile, result.get? pubkey = some profile →
    s.FetchedSince r pubkey profile.info
  cached : ∀ pubkey, result.has pubkey = true → pubkey ∈ refresh.pubkeys ∧
    (s.core.cache.hasProfile pubkey s.core.now).1 = true
  bound : s.answeredAt r ≤ s.core.applied.length
  nothing : ∀ pubkey ∈ refresh.pubkeys, result.has pubkey = false → s.BroughtNothing r refresh pubkey

structure Returned [JsNumber ν] (s : RefreshSession ν) (r : Nat) (refresh : ProfileRefresh ν)
    (result : OrderedMap JsString (CachedProfile ν)) : Prop where
  bound : s.answeredAt r ≤ s.core.applied.length
  values : ∀ pubkey profile, result.get? pubkey = some profile →
    s.FetchedSince r pubkey profile.info ∨
      s.cachedBefore r pubkey = some profile ∧ s.BroughtNothing r refresh pubkey

/-- What holds of a refresh in each phase. -/
structure Holds [JsNumber ν] (s : RefreshSession ν) (r : Nat) (refresh : ProfileRefresh ν) : Prop where
  reading : ∀ pubkey, refresh.awaits pubkey = true → s.Sourced r pubkey ∧ s.Fresh r refresh pubkey
  answered : ∀ result, refresh.phase = .answered result → s.Answered r refresh result
  returned : ∀ result, refresh.phase = .done result → s.Returned r refresh result

structure Kept [JsNumber ν] (s : RefreshSession ν) : Prop where
  linked : s.Linked
  holds : ∀ (r : Nat) (refresh : ProfileRefresh ν), s.core.refreshes[r]? = some refresh →
    s.Holds r refresh

section Frame

variable [JsNumber ν] {result : OrderedMap JsString (CachedProfile ν)}

/-- What a step does to a refresh that it does not move on. -/
structure Keeps (s t : RefreshSession ν) (r : Nat) (refresh : ProfileRefresh ν) : Prop where
  received : s.traced.received ⊆ t.traced.received
  answeredAt : t.answeredAt r = s.answeredAt r
  found : t.cachedBefore r = s.cachedBefore r
  applied : ∃ more, t.core.applied = s.core.applied ++ more ∧ ∀ event ∈ more,
    refresh.awaits event.pubkey = true →
      (t.core.cache.hasProfile event.pubkey t.core.now).1 = true
  cached : ∀ pubkey ∈ refresh.pubkeys, refresh.relies pubkey = true →
    (s.core.cache.hasProfile pubkey s.core.now).1 = true →
      (t.core.cache.hasProfile pubkey t.core.now).1 = true
  source : ∀ pubkey profile, refresh.awaits pubkey = true →
    t.core.cache.cache.get? pubkey = some profile → t.FetchedSince r pubkey profile.info ∨
      ∃ old, s.core.cache.cache.get? pubkey = some old ∧ old.info = profile.info
  sourced : ∀ pubkey, refresh.awaits pubkey = true → s.Sourced r pubkey → t.Sourced r pubkey

theorem FetchedSince.mono {info : ProfileInfo ν} (h : s.FetchedSince r pubkey info)
    (hreceived : s.traced.received ⊆ t.traced.received) : t.FetchedSince r pubkey info := by
  obtain ⟨event, hevent, hparsed⟩ := h
  exact ⟨event, hevent.mono hreceived, hparsed⟩

theorem BroughtNothing.mono (h : s.BroughtNothing r refresh pubkey) (hkeeps : s.Keeps t r refresh)
    (hbound : s.answeredAt r ≤ s.core.applied.length) : t.BroughtNothing r refresh pubkey := by
  obtain ⟨more, happlied, -⟩ := hkeeps.applied
  unfold BroughtNothing
  rw [hkeeps.answeredAt, happlied, List.take_append_of_le_length hbound]
  exact h

theorem Keeps.bound (hkeeps : s.Keeps t r refresh) (hbound : s.answeredAt r ≤ s.core.applied.length) :
    t.answeredAt r ≤ t.core.applied.length := by
  obtain ⟨more, happlied, -⟩ := hkeeps.applied
  rw [hkeeps.answeredAt, happlied, List.length_append]
  exact Nat.le_trans hbound (Nat.le_add_right _ _)

theorem Fresh.frame (h : s.Fresh r refresh pubkey) (hkeeps : s.Keeps t r refresh)
    (hsince : refresh.since ≤ s.core.applied.length) (hawaits : refresh.awaits pubkey = true) :
    t.Fresh r refresh pubkey := by
  obtain ⟨hmem, hrelies⟩ := awaits_spec hawaits
  refine ⟨fun profile hget => ?_, fun event hevent hp => ?_⟩
  · rcases hkeeps.source pubkey profile hawaits hget with hnew | ⟨old, hold, hinfo⟩
    · exact hnew
    · rw [← hinfo]
      exact (h.cached old hold).mono hkeeps.received
  · obtain ⟨more, happlied, hmore⟩ := hkeeps.applied
    rw [happlied, List.drop_append_of_le_length hsince] at hevent
    rcases List.mem_append.mp hevent with hbefore | hlater
    · exact hkeeps.cached pubkey hmem hrelies (h.applied event hbefore hp)
    · have hhas := hmore event hlater
      rw [hp] at hhas
      exact hhas hawaits

/-- A step that keeps a refresh keeps what holds of it. -/
theorem Holds.frame (h : s.Holds r refresh) (hkeeps : s.Keeps t r refresh)
    (hsince : refresh.since ≤ s.core.applied.length) : t.Holds r refresh := by
  refine ⟨fun p hawaits => ?_, fun result hphase => ?_, fun result hphase => ?_⟩
  · obtain ⟨hsourced, hfresh⟩ := h.reading p hawaits
    exact ⟨hkeeps.sourced p hawaits hsourced, hfresh.frame hkeeps hsince hawaits⟩
  · have hanswered := h.answered result hphase
    refine ⟨fun p profile hget => (hanswered.values p profile hget).mono hkeeps.received,
      fun p hhas => ?_, hkeeps.bound hanswered.bound,
      fun p hp hempty => (hanswered.nothing p hp hempty).mono hkeeps hanswered.bound⟩
    obtain ⟨hp, hcached⟩ := hanswered.cached p hhas
    have hrelies : refresh.relies p = true := by simp [ProfileRefresh.relies, hphase, hhas]
    exact ⟨hp, hkeeps.cached p hp hrelies hcached⟩
  · have hreturned := h.returned result hphase
    refine ⟨hkeeps.bound hreturned.bound, fun p profile hget => ?_⟩
    rcases hreturned.values p profile hget with hfetched | ⟨hbefore, hnothing⟩
    · exact .inl (hfetched.mono hkeeps.received)
    · refine .inr ⟨?_, hnothing.mono hkeeps hreturned.bound⟩
      rw [hkeeps.found]
      exact hbefore

/-- A step of the coordinator that gains what refresh `r` has asked for. -/
theorem keeps_of_advances {new : JsString → ProfileInfo ν → Prop} (hadv : s.core.Advances t.core new)
    (hreceived : s.traced.received ⊆ t.traced.received) (hanswered : t.answeredAt r = s.answeredAt r)
    (hfound : t.found = s.found)
    (hnew : ∀ pubkey info, refresh.awaits pubkey = true → new pubkey info →
      t.FetchedSince r pubkey info)
    (hsourced : ∀ pubkey, refresh.awaits pubkey = true → s.Sourced r pubkey → t.Sourced r pubkey) :
    s.Keeps t r refresh := by
  refine ⟨hreceived, hanswered, by unfold cachedBefore; rw [hfound], ?_, ?_, ?_, hsourced⟩
  · obtain ⟨more, happlied, hmore⟩ := hadv.applied
    rw [hadv.now]
    exact ⟨more, happlied, fun event hevent _ => hmore event hevent⟩
  · intro p _ _ hhas
    rw [hadv.now]
    exact hadv.cache.keeps p hhas
  · intro p profile hawaits hget
    exact (hadv.cache.source p profile hget).imp_left (hnew p profile.info hawaits)

/-- It is enough that each refresh is kept, or that it has moved on. -/
theorem Kept.step_of (h : s.Kept) (hlinked : t.Linked)
    (hcases : ∀ (r : Nat) (refresh : ProfileRefresh ν), t.core.refreshes[r]? = some refresh →
      s.core.refreshes[r]? = some refresh ∧ s.Keeps t r refresh ∨ t.Holds r refresh) : t.Kept := by
  refine ⟨hlinked, fun r refresh hr => ?_⟩
  rcases hcases r refresh hr with ⟨hold, hkeeps⟩ | hmoved
  · exact (h.holds r refresh hold).frame hkeeps (h.linked.since refresh (List.mem_of_getElem? hold))
  · exact hmoved

section Core

variable {core : ProfileCoordinator ν} {new : JsString → ProfileInfo ν → Prop}

/-- A step of the coordinator alone keeps a refresh when it gains nothing that the refresh awaits. -/
theorem keeps_withCore (hadv : s.core.Advances core new) (hfetches : SameFetches s.core core)
    (hnew : ∀ pubkey info, refresh.awaits pubkey = true → new pubkey info →
      s.FetchedSince r pubkey info) : s.Keeps { s with core := core } r refresh := by
  refine keeps_of_advances hadv (List.Subset.refl _) rfl rfl ?_ fun p _ hsourced => ?_
  · exact fun p info hawaits hinfo => (hnew p info hawaits hinfo).mono (List.Subset.refl _)
  · exact hsourced.frame ⟨rfl, rfl, rfl, List.Subset.refl _⟩ rfl rfl rfl hfetches

/-- A step of the coordinator alone that moves no refresh on. -/
theorem Kept.withCore (h : s.Kept) (hadv : s.core.Advances core new)
    (hfetches : SameFetches s.core core) (hrefreshes : core.refreshes = s.core.refreshes)
    (hnew : ∀ (r : Nat) (refresh : ProfileRefresh ν), s.core.refreshes[r]? = some refresh →
      ∀ pubkey info, refresh.awaits pubkey = true → new pubkey info → s.FetchedSince r pubkey info) :
    Kept { s with core := core } := by
  refine h.step_of (h.linked.withCore hadv hfetches (sameCalls_of_eq hrefreshes)) fun r refresh hr => ?_
  have hold : s.core.refreshes[r]? = some refresh := hrefreshes ▸ hr
  exact .inl ⟨hold, keeps_withCore hadv hfetches (hnew r refresh hold)⟩

/-- A step of the coordinator that moves refresh `r` on. -/
theorem Kept.move (h : s.Kept)
    (hadv : s.core.Advances core new) (hfetches : SameFetches s.core core)
    (hr : s.core.refreshes[r]? = some refresh) {phase : RefreshPhase ν}
    (hrefreshes : core.refreshes = s.core.refreshes.set r { refresh with phase := phase })
    (hnew : ∀ (r : Nat) (other : ProfileRefresh ν), s.core.refreshes[r]? = some other →
      ∀ pubkey info, other.awaits pubkey = true → new pubkey info → s.FetchedSince r pubkey info)
    (hmoved : Holds { s with core := core } r { refresh with phase := phase }) :
    Kept { s with core := core } := by
  refine h.step_of (h.linked.withCore hadv hfetches (sameCalls_setRefresh hr hrefreshes)) ?_
  intro r' other hother
  have hset : core.refreshes[r']? = some other := hother
  rw [hrefreshes, List.getElem?_set] at hset
  split_ifs at hset with hsame
  · subst hsame
    obtain rfl := Option.some.inj hset
    exact .inr hmoved
  · exact .inl ⟨hset, keeps_withCore hadv hfetches (hnew r' other hset)⟩

end Core

end Frame

section Steps

variable [JsNumber ν] {result : OrderedMap JsString (CachedProfile ν)}

/-- A refresh whose wait is over has still to read what it has asked for. -/
theorem Holds.wake (h : s.Holds r refresh) (hphase : refresh.phase = .waiting) :
    s.Holds r { refresh with phase := .woken } := by
  refine ⟨fun p hawaits => ?_, fun _ hanswered => (by cases hanswered),
    fun _ hreturned => (by cases hreturned)⟩
  have hwaits : refresh.awaits p = true := by
    unfold ProfileRefresh.awaits
    rw [hphase]
    exact hawaits
  obtain ⟨hsourced, hfresh⟩ := h.reading p hwaits
  exact ⟨hsourced, hfresh.cached, hfresh.applied⟩

theorem Kept.settled (h : s.Kept) (hs : s.coreStep (.settled r) = some t) : t.Kept := by
  obtain ⟨core, hcore, rfl⟩ := Option.map_eq_some_iff.mp hs
  obtain ⟨refresh, hr, hphase⟩ := Option.bind_eq_some_iff.mp hcore
  dsimp only at hphase
  split at hphase
  · rename_i hwaiting
    split_ifs at hphase
    cases hphase
    have hadv : s.core.Advances ({ s.core with
          cache := (s.core.allSettled s.core.cache refresh.pubkeys).2 }.setRefresh r
        { refresh with phase := .woken }) fun _ _ => False :=
      ProfileCoordinator.advances_of_gains rfl (ProfileCoordinator.gains_allSettled _ _) rfl
    have hnone : ∀ (r : Nat) (other : ProfileRefresh ν), s.core.refreshes[r]? = some other →
        ∀ (pubkey : JsString) (info : ProfileInfo ν), other.awaits pubkey = true → False →
          s.FetchedSince r pubkey info := fun _ _ _ _ _ _ hnew => hnew.elim
    refine h.move hadv (sameFetches_of_eq rfl) hr rfl hnone ?_
    refine Holds.wake ?_ hwaiting
    exact (h.holds r refresh hr).frame
      (keeps_withCore hadv (sameFetches_of_eq rfl) (hnone r refresh hr)) (h.linked.since refresh (List.mem_of_getElem? hr))
  · cases hphase

/-- What `getProfiles` reads is what the refresh has asked for, and where it reads nothing, nothing
has come. -/
theorem Holds.answer (h : s.Holds r refresh) (hphase : refresh.phase = .woken)
    {acc : OrderedMap JsString (CachedProfile ν) × ProfileCache ν}
    (hread : s.core.ReadFrom refresh.pubkeys acc)
    (hfinds : ∀ pubkey ∈ refresh.pubkeys, (s.core.cache.hasProfile pubkey s.core.now).1 = true →
      acc.1.has pubkey = true)
    (hreceived : t.traced.received = s.traced.received) (hcache : t.core.cache = acc.2)
    (hnow : t.core.now = s.core.now) (happlied : t.core.applied = s.core.applied)
    (hanswered : t.answeredAt r = s.core.applied.length) :
    t.Holds r { refresh with phase := .answered acc.1 } := by
  have hawaits : ∀ p ∈ refresh.pubkeys, refresh.awaits p = true := by
    intro p hp
    unfold ProfileRefresh.awaits
    rw [hphase]
    exact decide_eq_true hp
  refine ⟨fun _ hreads => (by cases hreads), fun result hresult => ?_,
    fun _ hreturned => (by cases hreturned)⟩
  obtain rfl : acc.1 = result := RefreshPhase.answered.inj hresult
  refine ⟨fun p profile hget => ?_, fun p hhas => ?_, ?_, fun p hp hempty => ?_⟩
  · obtain ⟨hp, -, old, hold, hinfo⟩ := hread.source p profile hget
    rw [← hinfo]
    exact ((h.reading p (hawaits p hp)).2.cached old hold).mono (hreceived ▸ List.Subset.refl _)
  · obtain ⟨profile, hget⟩ := Option.isSome_iff_exists.mp hhas
    obtain ⟨hp, hcached, -⟩ := hread.source p profile hget
    refine ⟨hp, ?_⟩
    rw [hcache, hnow, hread.sameHas p]
    exact hcached
  · rw [hanswered, happlied]
  · intro event hevent hsame
    rw [hanswered, happlied, List.take_length] at hevent
    have hcached := (h.reading p (hawaits p hp)).2.applied event hevent hsame
    have hfound := hfinds p hp hcached
    rw [hempty] at hfound
    cases hfound

theorem Kept.answered {batchSize : Nat} {hasFallback : Bool} (h : s.Kept)
    (hs : s.step batchSize hasFallback (.answered r) = some t) : t.Kept := by
  obtain ⟨u, hu, rfl⟩ := Option.map_eq_some_iff.mp hs
  obtain ⟨core, hcore, rfl⟩ := Option.map_eq_some_iff.mp hu
  obtain ⟨refresh, hr, hphase⟩ := Option.bind_eq_some_iff.mp hcore
  dsimp only at hphase
  split at hphase
  · rename_i hwoken
    cases hphase
    have hread : s.core.ReadFrom refresh.pubkeys
        (refresh.pubkeys.foldl s.core.readResult (.empty, s.core.cache)) :=
      ProfileCoordinator.readFrom_readResults _
    have hgains : s.core.cache.Gains (refresh.pubkeys.foldl s.core.readResult (.empty, s.core.cache)).2
        s.core.now (fun _ _ => False) := ProfileCache.gains_of_sameHas hread.sameHas hread.keepsInfo
    refine h.step_of ?_ fun r' other hother => ?_
    · exact h.linked.frame h.linked.indexed (List.Subset.refl _) rfl (sameFetches_of_eq rfl) rfl
        (List.prefix_refl _) (sameCalls_setRefresh hr rfl)
    · have hset : (s.core.refreshes.set r { refresh with phase := .answered _ })[r']? = some other :=
        hother
      rw [List.getElem?_set] at hset
      split_ifs at hset with hsame
      · subst hsame
        obtain rfl := Option.some.inj hset
        right
        exact (h.holds r refresh hr).answer hwoken hread
          (ProfileCoordinator.readResults_spec s.core refresh.pubkeys).2 rfl rfl rfl rfl
          (Function.update_self ..)
      · left
        refine ⟨hset, keeps_of_advances (ProfileCoordinator.advances_of_gains rfl hgains rfl)
          (List.Subset.refl _) (Function.update_of_ne (Ne.symm hsame) _ _) rfl
          (fun _ _ _ hnew => hnew.elim) fun p _ hsourced => ?_⟩
        exact hsourced.frame ⟨rfl, rfl, rfl, List.Subset.refl _⟩ rfl rfl rfl (sameFetches_of_eq rfl)
  · cases hphase

/-- A refresh returns what `getProfiles` has returned to it, and the copies for the rest. -/
theorem Holds.finish (h : s.Holds r refresh) (hlinked : s.Linked)
    (hr : s.core.refreshes[r]? = some refresh) {result : OrderedMap JsString (CachedProfile ν)}
    (hphase : refresh.phase = .answered result) {finished : List JsString}
    {acc : OrderedMap JsString (CachedProfile ν) × ProfileCoordinator ν}
    (hrestored : s.core.RestoredFrom refresh.previous result finished acc)
    (hanswered : t.answeredAt r = s.answeredAt r) (hfound : t.cachedBefore r = s.cachedBefore r)
    (hreceived : t.traced.received = s.traced.received) (happlied : t.core.applied = s.core.applied) :
    t.Holds r { refresh with phase := .done acc.1 } := by
  have hgot := h.answered result hphase
  refine ⟨fun _ hreads => (by cases hreads), fun _ hanswered => (by cases hanswered),
    fun result' hresult => ?_⟩
  obtain rfl : acc.1 = result' := RefreshPhase.done.inj hresult
  refine ⟨?_, fun p profile hget => ?_⟩
  · rw [hanswered, happlied]
    exact hgot.bound
  · rcases hrestored.source p profile hget with hread | ⟨-, hempty, hcopy⟩
    · exact .inl ((hgot.values p profile hread).mono (hreceived ▸ List.Subset.refl _))
    · obtain ⟨hmem, hbefore⟩ := hlinked.restored hr hcopy
      refine .inr ⟨by rw [hfound, hbefore], ?_⟩
      unfold BroughtNothing
      rw [hanswered, happlied]
      exact hgot.nothing p hmem hempty

theorem Kept.restored (h : s.Kept) (hguard : s.Orderly (.restored r))
    (hs : s.coreStep (.restored r) = some t) : t.Kept ∧ s.KeepsCached r t := by
  obtain ⟨core, hcore, rfl⟩ := Option.map_eq_some_iff.mp hs
  obtain ⟨refresh, hr, hphase⟩ := Option.bind_eq_some_iff.mp hcore
  dsimp only at hphase
  split at hphase
  · rename_i result hanswered
    obtain ⟨hroom, halone⟩ := hguard refresh hr
    have hsafe : ∀ p ∈ refresh.pubkeys, result.has p = false → ∀ copy ∈ refresh.previous.get? p,
        ProfileCache.expired copy s.core.now = false ∧
          ∀ other ∈ s.core.refreshes, other.awaits p = false :=
      halone result (by rw [hanswered]; rfl)
    obtain ⟨finished, hall, hrestored⟩ :=
      (ProfileCoordinator.restoredFrom_start (s := s.core) refresh.previous result).restoreProfiles
        hroom fun p hp hempty copy hcopy => (hsafe p hp hempty copy hcopy).1
    obtain ⟨cache, hcache⟩ :=
      ProfileCoordinator.restoreProfiles_eq refresh.previous (result, s.core) refresh.pubkeys
    obtain ⟨⟨returned, last⟩, hacc⟩ : ∃ acc, refresh.pubkeys.foldl
        (ProfileCoordinator.restoreProfile refresh.previous) (result, s.core) = acc := ⟨_, rfl⟩
    rw [hacc] at hcache hrestored hphase
    obtain rfl : last = { s.core with cache := cache } := hcache
    cases hphase
    have hcalls : ∀ (r : Nat) (other : ProfileRefresh ν), s.core.refreshes[r]? = some other →
        ∀ (pubkey : JsString) (info : ProfileInfo ν), other.awaits pubkey = true →
          (result.has pubkey = false ∧ ∃ copy, refresh.previous.get? pubkey = some copy ∧
            copy.info = info) → s.FetchedSince r pubkey info := by
      rintro r' other hother p info hawaits ⟨hempty, copy, hcopy, -⟩
      obtain ⟨hmem, -⟩ := h.linked.restored hr hcopy
      have hsilent := (hsafe p hmem hempty copy hcopy).2 other (List.mem_of_getElem? hother)
      rw [hawaits] at hsilent
      cases hsilent
    constructor
    · refine h.move (hrestored.advances.trans (ProfileCoordinator.advances_of_gains rfl (.refl _) rfl))
        (sameFetches_of_eq rfl) hr rfl hcalls ?_
      exact (h.holds r refresh hr).finish h.linked hr hanswered hrestored rfl rfl rfl rfl
    · intro found hfound p hp hbefore
      obtain rfl : refresh = found := Option.some.inj (hr.symm.trans hfound)
      cases hhas : result.has p with
      | true =>
        obtain ⟨-, hcached⟩ := ((h.holds r refresh hr).answered result hanswered).cached p hhas
        exact hrestored.advances.cache.keeps p hcached
      | false =>
        refine hrestored.cached p ((hall p).mpr (.inr hp)) hhas ?_
        rw [h.linked.previous r refresh hr p, if_pos hp]
        exact hbefore
  · cases hphase

/-- A step of the coordinator that only reads the cache, or not even that. -/
theorem Kept.reads {core : ProfileCoordinator ν} (h : s.Kept) (hnow : core.now = s.core.now)
    (hcache : s.core.cache.Gains core.cache s.core.now fun _ _ => False)
    (happlied : core.applied = s.core.applied) (hfetches : core.fetches = s.core.fetches)
    (hrefreshes : core.refreshes = s.core.refreshes) : Kept { s with core := core } :=
  h.withCore (ProfileCoordinator.advances_of_gains hnow hcache happlied) (sameFetches_of_eq hfetches)
    hrefreshes fun _ _ _ _ _ _ hnew => hnew.elim

theorem Kept.streamed {batchSize : Nat} {hasFallback : Bool} (h : s.Kept) {event : Event}
    (hguard : s.Orderly (.streamed event))
    (hs : s.step batchSize hasFallback (.streamed event) = some t) : t.Kept := by
  cases hs
  obtain ⟨hadv, hrefreshes, hfetches⟩ := ProfileCoordinator.streamed_advances hguard
  obtain ⟨more, happlied, -⟩ := hadv.applied
  have hreceived : s.traced.received ⊆ s.traced.received ++ [⟨event, s.epoch⟩] :=
    List.subset_append_left _ _
  refine h.step_of ?_ fun r refresh hr => ?_
  · exact h.linked.frame h.linked.indexed (List.Subset.refl _) rfl (sameFetches_of_eq hfetches) rfl
      ⟨more, happlied.symm⟩ (sameCalls_of_eq hrefreshes)
  · have hold : s.core.refreshes[r]? = some refresh := hrefreshes ▸ hr
    refine .inl ⟨hold, keeps_of_advances hadv hreceived rfl rfl ?_ fun p _ hsourced => ?_⟩
    · rintro p info - ⟨hkind, hpubkey, hparsed⟩
      exact ⟨event, ⟨_, List.mem_append_right _ List.mem_cons_self, rfl, lt_epoch hold⟩, hkind, hpubkey,
        hparsed⟩
    · exact hsourced.frame ⟨rfl, rfl, rfl, hreceived⟩ rfl rfl rfl (sameFetches_of_eq hfetches)

theorem Kept.batchResult {batchSize : Nat} {hasFallback : Bool} (h : s.Kept) {f : Nat}
    (hguard : s.Orderly (.batchResult f))
    (hs : s.step batchSize hasFallback (.batchResult f) = some t) : t.Kept := by
  obtain ⟨events, hevents, hstep⟩ := Option.bind_eq_some_iff.mp hs
  obtain ⟨core, hcore, rfl⟩ := Option.map_eq_some_iff.mp hstep
  obtain ⟨loads, hloads, hresults⟩ := results_eq_some hevents
  obtain ⟨pubkeys, hpubkeys, -⟩ := Option.map_eq_some_iff.mp hcore
  have hf : s.core.fetches[f]? = some (some pubkeys) := Option.join_eq_some_iff.mp hpubkeys
  obtain ⟨hadv, hrefreshes, hfetches⟩ :=
    ProfileCoordinator.batchResult_advances hf (hguard pubkeys hpubkeys) hcore
  refine h.withCore hadv (sameFetches_set hfetches) hrefreshes ?_
  rintro r refresh hr p info hawaits ⟨i, event, hindex, hevent, hparsed⟩
  obtain ⟨load, hload, hresult⟩ := hresults i event hevent
  have hmem : load ∈ s.awaited :=
    mem_awaited.mpr ⟨f, pubkeys, loads, hf, hloads, List.mem_of_getElem? hload⟩
  have hkey : load.key = profileKey p := by
    have hkeys := congrArg (fun keys : List JsString => keys[i]?)
      (h.linked.keys f pubkeys loads hf hloads)
    simpa [List.getElem?_map, hload, hindex] using hkeys
  have hsourced := ((h.holds r refresh hr).reading p hawaits).1
  obtain ⟨hcoordinate, hreceived⟩ := (hsourced.awaited load hmem hkey).resultOf h.linked.indexed
    (h.linked.loads load hmem) hresult
  rw [hkey] at hcoordinate
  obtain ⟨hkind, hpubkey⟩ := coordinate_profileKey hcoordinate
  exact ⟨event, hreceived, hkind, hpubkey, hparsed⟩

/-- A flush that asks for profiles: the dispatch waits for the loads that it starts. -/
theorem Kept.dispatch (h : s.Kept) {pubkeys : List JsString} {new : List LoadRecord}
    {core : ProfileCoordinator ν} {traced : TracedLoader}
    (hadv : s.core.Advances core fun _ _ => False) (hrefreshes : core.refreshes = s.core.refreshes)
    (hfetches : core.fetches = s.core.fetches ++ [some pubkeys])
    (hloads : s.traced.Fetching traced pubkeys new) :
    Kept { s with core := core, traced := traced, promises := s.promises ++ [new] } := by
  have hlength : s.core.fetches.length = s.promises.length := h.linked.promised.symm
  have hawaited : RefreshSession.awaited { s with
      core := core, traced := traced, promises := s.promises ++ [new] } = s.awaited ++ new := by
    simp [awaited, hfetches, List.zip_append hlength]
  obtain ⟨more, happlied, -⟩ := hadv.applied
  have hcalls := sameCalls_of_eq hrefreshes
  refine h.step_of ⟨hloads.indexed, ?_, ?_, ?_, ?_, ?_, ?_⟩ fun r refresh hr => ?_
  · simp [hfetches, hlength]
  · intro f ps loads hf hp
    dsimp only at hf hp
    rw [hfetches] at hf
    rcases Nat.lt_or_ge f s.core.fetches.length with hlt | hge
    · rw [List.getElem?_append_left hlt] at hf
      rw [List.getElem?_append_left (hlength ▸ hlt)] at hp
      exact h.linked.keys f ps loads hf hp
    · rw [List.getElem?_append_right hge, List.getElem?_singleton] at hf
      rw [List.getElem?_append_right (hlength ▸ hge), List.getElem?_singleton] at hp
      split_ifs at hf hp
      cases hf
      cases hp
      exact hloads.keys
  · intro load hload
    rw [hawaited] at hload
    dsimp only
    rw [hloads.loads]
    rcases List.mem_append.mp hload with hold | hnew
    · exact List.mem_append_left _ (h.linked.loads load hold)
    · exact List.mem_append_right _ hnew
  · exact h.linked.found.trans hcalls.length.symm
  · intro refresh hmem
    dsimp only at hmem ⊢
    rw [hrefreshes] at hmem
    rw [happlied, List.length_append]
    exact Nat.le_trans (h.linked.since refresh hmem) (Nat.le_add_right _ _)
  · intro r refresh hr
    exact h.linked.previous r refresh (hrefreshes ▸ hr)
  · have hold : s.core.refreshes[r]? = some refresh := hrefreshes ▸ hr
    refine .inl ⟨hold, keeps_of_advances hadv ?_ rfl rfl (fun _ _ _ hnew => hnew.elim)
      fun p _ hsourced => ?_⟩
    · dsimp only
      rw [hloads.received]
      exact List.Subset.refl _
    · refine ⟨hloads.serves r p hsourced.serves, fun load hload hkey => ?_⟩
      rw [hawaited] at hload
      rcases List.mem_append.mp hload with hearlier | hnew
      · exact hloads.since r p load hkey (hsourced.awaited load hearlier hkey)
      · exact hloads.new r p hsourced.serves load hnew hkey

theorem Kept.flush (batchSize : Nat) (h : s.Kept) : (s.flush batchSize).Kept := by
  obtain ⟨hadv, hrefreshes, hfetches⟩ := s.core.flush_cases fun _ _ => False
  unfold RefreshSession.flush
  rcases hfetches with hsame | ⟨pubkeys, hmore⟩
  · have hnone : (s.core.flush.fetches[s.core.fetches.length]?).join = none := by
      rw [hsame, List.getElem?_eq_none (Nat.le_refl _)]
      rfl
    rw [hnone]
    exact h.withCore hadv (sameFetches_of_eq hsame) hrefreshes fun _ _ _ _ _ _ hnew => hnew.elim
  · have hsome : (s.core.flush.fetches[s.core.fetches.length]?).join = some pubkeys := by
      rw [hmore, List.getElem?_concat_length]
      rfl
    rw [hsome]
    obtain ⟨new, hloads⟩ :=
      TracedLoader.fetchProfileEvents_fetching batchSize pubkeys h.linked.indexed
    have hnew : (s.traced.fetchProfileEvents batchSize pubkeys).loader.loads.drop
        s.traced.loader.loads.length = new := by
      rw [hloads.loads, List.drop_left]
    dsimp only
    rw [hnew]
    exact h.dispatch hadv hrefreshes hmore hloads

/-- A new refresh has read nothing yet, and all that it will read is asked for later. -/
theorem Kept.refreshProfiles (h : s.Kept) {pubkeys : List JsString}
    (hguard : s.Orderly (.refreshProfiles pubkeys)) : (s.refreshProfiles pubkeys).Kept := by
  obtain ⟨acc, htook, hcache, hnow, happlied, hfetches, hrefreshes⟩ :=
    ProfileCoordinator.refreshProfiles_took (s := s.core) pubkeys
  have hcleared := clearProfileEvents_cleared s.traced pubkeys.eraseDups
  have hsame : s.traced.SameBatches (s.refreshProfiles pubkeys).traced :=
    ⟨hcleared.batches, rfl, rfl, List.Subset.refl _⟩
  have hawaited : (s.refreshProfiles pubkeys).awaited ⊆ s.awaited :=
    awaited_subset rfl (sameFetches_of_eq hfetches)
  have hget : ∀ p, (s.refreshProfiles pubkeys).core.cache.cache.get? p =
      if p ∈ pubkeys then none else s.core.cache.cache.get? p := by
    intro p
    have htaken := htook.cache p
    rw [← hcache] at htaken
    simp only [List.mem_eraseDups] at htaken
    exact htaken
  have hfound : ∀ r < s.core.refreshes.length,
      (s.refreshProfiles pubkeys).cachedBefore r = s.cachedBefore r := by
    intro r hr
    unfold cachedBefore RefreshSession.refreshProfiles
    dsimp only
    rw [List.getElem?_append_left (h.linked.found.symm ▸ hr)]
  have hmem : ∀ {refresh : ProfileRefresh ν} {r : Nat},
      (s.refreshProfiles pubkeys).core.refreshes[r]? = some refresh →
        s.core.refreshes[r]? = some refresh ∨ r = s.core.refreshes.length ∧
          refresh = ⟨pubkeys.eraseDups, acc.1, s.core.applied.length,
            s.core.now + GET_PROFILES_TIMEOUT_MS, .waiting⟩ := by
    intro refresh r hr
    have hlist : (s.core.refreshes ++ [(⟨pubkeys.eraseDups, acc.1, s.core.applied.length,
        s.core.now + GET_PROFILES_TIMEOUT_MS, .waiting⟩ : ProfileRefresh ν)])[r]? = some refresh :=
      hrefreshes ▸ hr
    rcases Nat.lt_or_ge r s.core.refreshes.length with hlt | hge
    · rw [List.getElem?_append_left hlt] at hlist
      exact .inl hlist
    · rw [List.getElem?_append_right hge, List.getElem?_singleton] at hlist
      split_ifs at hlist with hzero
      cases hlist
      exact .inr ⟨by omega, rfl⟩
  refine h.step_of ⟨hcleared.indexed h.linked.indexed, ?_, ?_, ?_, ?_, ?_, ?_⟩ fun r refresh hr => ?_
  · exact h.linked.promised.trans (congrArg List.length hfetches).symm
  · exact fun f ps loads hf hp => h.linked.keys f ps loads (hfetches ▸ hf) hp
  · intro load hload
    rw [show (s.refreshProfiles pubkeys).traced.loader.loads = s.traced.loader.loads from hcleared.loads]
    exact h.linked.loads load (hawaited hload)
  · rw [show (s.refreshProfiles pubkeys).found = s.found ++ [s.core] from rfl, List.length_append,
      h.linked.found, show (s.refreshProfiles pubkeys).core.refreshes = _ from hrefreshes,
      List.length_append]
    rfl
  · intro refresh hrefresh
    rw [show (s.refreshProfiles pubkeys).core.applied = s.core.applied from happlied]
    obtain ⟨r, hr⟩ := List.mem_iff_getElem?.mp hrefresh
    rcases hmem hr with hold | ⟨-, rfl⟩
    · exact h.linked.since refresh (List.mem_of_getElem? hold)
    · exact Nat.le_refl _
  · intro r refresh hr p
    rcases hmem hr with hold | ⟨rfl, rfl⟩
    · rw [hfound r (List.getElem?_eq_some_iff.mp hold).1]
      exact h.linked.previous r refresh hold p
    · rw [htook.previous p]
      unfold cachedBefore RefreshSession.refreshProfiles
      dsimp only
      rw [← h.linked.found, List.getElem?_concat_length]
      rfl
  · rcases hmem hr with hold | ⟨rfl, rfl⟩
    · left
      refine ⟨hold, List.Subset.refl _, rfl, hfound r (List.getElem?_eq_some_iff.mp hold).1,
        ⟨[], ?_, fun _ hnone => absurd hnone List.not_mem_nil⟩, ?_, ?_, ?_⟩
      · rw [List.append_nil]
        exact happlied
      · intro p hp hrelies hhas
        have hnot : p ∉ pubkeys := by
          intro htaken
          have hspared := (hguard p htaken).2 hhas refresh (List.mem_of_getElem? hold)
          rw [hrelies] at hspared
          cases hspared
        rw [ProfileCache.hasProfile_eq, hget, if_neg hnot]
        rw [ProfileCache.hasProfile_eq] at hhas
        rw [show (s.refreshProfiles pubkeys).core.now = s.core.now from hnow]
        exact hhas
      · intro p profile _ hcached
        rw [hget] at hcached
        split_ifs at hcached
        exact .inr ⟨profile, hcached, rfl⟩
      · exact fun p _ hsourced => hsourced.mono hsame hcleared.inFlight
          (fun event hcached => (hcleared.cache p event hcached).2) hawaited
    · right
      refine ⟨fun p hawaits => ?_, fun _ hanswered => (by cases hanswered),
        fun _ hreturned => (by cases hreturned)⟩
      have hp : p ∈ pubkeys := List.mem_eraseDups.mp (awaits_spec hawaits).1
      refine ⟨(hguard p hp).1.sourced hsame hcleared.inFlight ?_ hawaited, ?_, ?_⟩
      · refine Option.eq_none_iff_forall_ne_some.mpr fun event hcached => ?_
        exact (hcleared.cache p event hcached).1 (List.mem_eraseDups.mpr hp)
      · intro profile hcached
        rw [hget, if_pos hp] at hcached
        cases hcached
      · intro event hevent
        rw [show (s.refreshProfiles pubkeys).core.applied = s.core.applied from happlied,
          List.drop_length] at hevent
        exact absurd hevent List.not_mem_nil

theorem Kept.tick {batchSize : Nat} {hasFallback : Bool} (h : s.Kept) {ms : Nat}
    (hguard : s.Orderly (.tick ms)) (hs : s.step batchSize hasFallback (.tick ms) = some t) :
    t.Kept := by
  cases hs
  refine h.step_of ?_ fun r refresh hr => .inl ⟨hr, ?_⟩
  · refine h.linked.frame ?_ (List.Subset.refl _) rfl (sameFetches_of_eq rfl) rfl (List.prefix_refl _)
      (sameCalls_of_eq rfl)
    exact h.linked.indexed.frame (ReplaceableEventLoader.keysGrow_of_batches rfl)
      h.linked.indexed.pending (fun _ _ hentry => hentry) rfl
  · refine ⟨List.Subset.refl _, rfl, rfl, ⟨[], (List.append_nil _).symm,
      fun _ hnone => absurd hnone List.not_mem_nil⟩, ?_, ?_, ?_⟩
    · exact fun p hp hrelies hhas => hguard refresh (List.mem_of_getElem? hr) p hp hrelies hhas
    · exact fun p profile _ hget => .inr ⟨profile, hget, rfl⟩
    · exact fun p _ hsourced => hsourced.frame ⟨rfl, rfl, rfl, List.Subset.refl _⟩ rfl rfl rfl
        (sameFetches_of_eq rfl)

theorem step_loader {batchSize : Nat} {hasFallback : Bool} {a : LoaderAction}
    (hs : s.step batchSize hasFallback (.loader a) = some t) :
    ∃ traced, s.traced.step batchSize hasFallback s.epoch a = some traced ∧
      t = { s with traced := traced } := by
  cases a with
  | clock now => cases hs
  | load | prime | publishEvent | clear | dispatch | primary | fallback | store | delivered =>
    simp only [step] at hs
    obtain ⟨traced, htraced, rfl⟩ := Option.map_eq_some_iff.mp hs
    exact ⟨traced, htraced, rfl⟩

/-- A step of the loader serves a pubkey nothing old, unless such a profile is published. -/
theorem servesSince_loader {batchSize epoch : Nat} {hasFallback : Bool} {a : LoaderAction}
    {traced traced' : TracedLoader} (h : traced.ServesSince r (profileKey pubkey)) (hr : r < epoch)
    (hpublished : ∀ event ∈ a.published, coordinateOf event ≠ profileKey pubkey)
    (hindexed : traced.loader.Indexed)
    (hs : traced.step batchSize hasFallback epoch a = some traced') :
    traced'.ServesSince r (profileKey pubkey) := by
  cases a with
  | prime event =>
    cases hs
    exact h.prime (hpublished event rfl)
  | publishEvent event results =>
    cases hs
    unfold ReplaceableEventLoader.publishEvent
    split_ifs with hwrites
    · exact h.prime (hpublished event (if_pos hwrites))
    · exact h
  | load | clear | dispatch | primary | fallback | store | delivered | clock =>
    exact h.step hr (profileKey_plain pubkey) rfl hindexed hs

theorem Kept.loader {batchSize : Nat} {hasFallback : Bool} {a : LoaderAction} (h : s.Kept)
    (hguard : s.Orderly (.loader a)) (hs : s.step batchSize hasFallback (.loader a) = some t) :
    t.Kept := by
  obtain ⟨traced, htraced, rfl⟩ := step_loader hs
  obtain ⟨hloader, hreceived⟩ := TracedLoader.step_loader htraced
  have hindexed := h.linked.indexed
  have hloads := ReplaceableEventLoader.loads_subset hindexed hloader
  have hadv : s.core.Advances s.core fun _ _ => False :=
    ProfileCoordinator.advances_of_gains rfl (.refl _) rfl
  refine h.step_of ?_ fun r refresh hr => .inl ⟨hr, ?_⟩
  · exact h.linked.frame (hindexed.step hloader) hloads rfl (sameFetches_of_eq rfl) rfl
      (List.prefix_refl _) (sameCalls_of_eq rfl)
  · refine keeps_of_advances hadv hreceived rfl rfl (fun _ _ _ hnew => hnew.elim)
      fun p hawaits hsourced => ⟨?_, fun load hload hkey => ?_⟩
    · refine servesSince_loader hsourced.serves (lt_epoch hr) (fun event hevent => ?_) hindexed htraced
      exact hguard event hevent refresh (List.mem_of_getElem? hr) p (awaits_spec hawaits).1 hawaits
    · exact (hsourced.awaited load hload hkey).step (lt_epoch hr) (hkey ▸ profileKey_plain p) hindexed
        hreceived htraced

theorem Kept.step {batchSize : Nat} {hasFallback : Bool} {a : RefreshAction} (h : s.Kept)
    (hguard : s.Orderly a) (hs : s.step batchSize hasFallback a = some t) : t.Kept := by
  cases a with
  | streamed event => exact h.streamed hguard hs
  | retain pubkeys =>
    cases hs
    exact h.reads rfl (.refl _) rfl rfl rfl
  | release pubkeys =>
    obtain ⟨core, hcore, rfl⟩ := Option.map_eq_some_iff.mp hs
    simp only [ProfileCoordinator.step] at hcore
    split_ifs at hcore
    cases hcore
    exact h.reads rfl (.refl _) rfl rfl rfl
  | flush =>
    cases hs
    exact h.flush batchSize
  | batchResult f => exact h.batchResult hguard hs
  | batchFailed f =>
    obtain ⟨core, hcore, rfl⟩ := Option.map_eq_some_iff.mp hs
    obtain ⟨pubkeys, -, rfl⟩ := Option.map_eq_some_iff.mp hcore
    obtain ⟨failures, hend, -⟩ :=
      ProfileCoordinator.endFetch_eq (s.core.releaseFailedPubkeys pubkeys) f pubkeys
    rw [hend]
    exact h.withCore (ProfileCoordinator.advances_of_gains rfl (.refl _) rfl) (sameFetches_set rfl) rfl
      fun _ _ _ _ _ _ hnew => False.elim hnew
  | refreshProfiles pubkeys =>
    cases hs
    exact h.refreshProfiles hguard
  | settled r => exact h.settled hs
  | answered r => exact h.answered hs
  | restored r => exact (h.restored hguard hs).1
  | read pubkey =>
    cases hs
    exact h.reads rfl (ProfileCache.gains_read _ _ _) rfl rfl rfl
  | tick ms => exact h.tick hguard hs
  | loader a => exact h.loader hguard hs

theorem kept_init (cache : ProfileCache ν) (missedPubkeys : List JsString) (now : Nat) :
    (init cache missedPubkeys now).Kept := by
  have hindexed : (init cache missedPubkeys now).traced.loader.Indexed :=
    ReplaceableEventLoader.indexed_init.frame (ReplaceableEventLoader.keysGrow_of_batches rfl)
      ReplaceableEventLoader.indexed_init.pending (fun _ _ hentry => hentry) rfl
  refine ⟨⟨hindexed, rfl, ?_, ?_, rfl, ?_, ?_⟩, ?_⟩
  · intro f pubkeys loads hf
    cases hf
  · exact fun load hload => absurd hload List.not_mem_nil
  · exact fun refresh hrefresh => absurd hrefresh List.not_mem_nil
  · intro r refresh hr
    cases hr
  · intro r refresh hr
    cases hr

theorem Kept.refetched (h : s.Kept) : s.Refetched := by
  intro r refresh result hr hphase
  exact ((h.holds r refresh hr).returned result hphase).values

/-- In an orderly run every refresh returns only what was asked for after its call, or the copy that
it found where nothing came, and a refresh that restores leaves what was cached in the cache. -/
theorem refreshes_refetch {batchSize : Nat} {hasFallback : Bool} {cache : ProfileCache ν}
    {missedPubkeys : List JsString} {now : Nat} {as : List RefreshAction}
    (hguard : Guarded (step batchSize hasFallback) Orderly (init cache missedPubkeys now) as)
    (hrun : run (step batchSize hasFallback) (init cache missedPubkeys now) as = some s) :
    s.Refetched ∧ ∀ r t, s.Orderly (.restored r) →
      s.step batchSize hasFallback (.restored r) = some t → s.KeepsCached r t := by
  have hkept : s.Kept :=
    run_invariant (fun _ _ _ h hg hs => h.step hg hs) (kept_init cache missedPubkeys now) hguard hrun
  exact ⟨hkept.refetched, fun r t hrestored hs => (hkept.restored hrestored hs).2⟩

end Steps

end Invariant

section Runs

open ProfileCoordinator

/-- The relays answer a dispatch of one pubkey, and each event is streamed as it comes. -/
def answeredFetch (b : Nat) (events : List Event) : List RefreshAction :=
  [.flush, .loader (.dispatch b)] ++ events.map .streamed ++
    [.loader (.primary b (some ⟨events, 1⟩)), .loader (.store b), .loader (.delivered ⟨b, 0⟩),
      .batchResult b]

/-- The user's profile is fetched, refreshed, and refreshed again when the relays have nothing. -/
def refreshedTwice : List RefreshAction :=
  [.retain [js "user"], .tick 2000] ++ answeredFetch 0 [profileAt 10] ++
    [.tick 5000, .refreshProfiles [js "user"]] ++ answeredFetch 1 [profileAt 20] ++
    [.settled 0, .answered 0, .restored 0, .tick 5000, .refreshProfiles [js "user"]] ++
    answeredFetch 2 [] ++ [.settled 1, .answered 1]

abbrev emptySession : RefreshSession Nat := init ⟨.empty⟩ [] 0

theorem refreshes_refetch_twice : ∃ s t, run (step 100 false) emptySession refreshedTwice = some s ∧
    s.Refetched ∧ s.step 100 false (.restored 1) = some t ∧ s.KeepsCached 1 t := by
  have hlast : (run (step 100 false) emptySession refreshedTwice).any (fun s =>
      decide (s.Orderly (.restored 1)) && (s.step 100 false (.restored 1)).isSome) = true := by
    decide +kernel
  obtain ⟨s, hs, hboth⟩ := (Option.any_eq_true _ _).mp hlast
  obtain ⟨horderly, hstep⟩ := Bool.and_eq_true_iff.mp hboth
  obtain ⟨t, ht⟩ := Option.isSome_iff_exists.mp hstep
  have hrefetch := refreshes_refetch (by decide +kernel) hs
  exact ⟨s, t, hs, hrefetch.1, ht, hrefetch.2 1 t (of_decide_eq_true horderly) ht⟩

/-- The user is refreshed when the query has brought the user's profile and waits for another's. -/
def refreshedInFlight : List RefreshAction :=
  [.retain [js "user", js "other"], .tick 2000, .flush, .loader (.dispatch 0),
    .streamed (profileAt 10), .refreshProfiles [js "user"],
    .loader (.primary 0 (some ⟨[profileAt 10], 1⟩)), .loader (.store 0), .loader (.delivered ⟨0, 0⟩),
    .loader (.delivered ⟨0, 1⟩), .batchResult 0, .settled 0, .answered 0, .restored 0]

/-- Two refreshes of the user: the first restores its copy, and the second reads it. -/
def crossedRefreshes : List RefreshAction :=
  [.retain [js "user"], .tick 2000] ++ answeredFetch 0 [profileAt 10] ++
    [.tick 5000, .refreshProfiles [js "user"], .refreshProfiles [js "user"]] ++ answeredFetch 1 [] ++
    [.settled 0, .answered 0, .restored 0, .settled 1, .answered 1, .restored 1]

def returned? : RefreshPhase Nat → Option (OrderedMap JsString (CachedProfile Nat))
  | .done result => some result
  | _ => none

/-- Refresh `r` has returned a profile of the user, when nothing was asked for or streamed after its
call; and it is no copy, for none was cached before, or the session has applied an event since. -/
def ReturnsStale (s : RefreshSession Nat) (r : Nat) : Prop :=
  ∃ refresh ∈ s.core.refreshes[r]?, ∃ result ∈ returned? refresh.phase,
    result.has (js "user") = true ∧ (∀ receipt ∈ s.traced.received, receipt.epoch ≤ r) ∧
      ((s.cachedBefore r (js "user")).isNone = true ∨ ¬ s.BroughtNothing r refresh (js "user"))

instance (s : RefreshSession Nat) (r : Nat) : Decidable (s.ReturnsStale r) :=
  inferInstanceAs (Decidable (∃ refresh ∈ s.core.refreshes[r]?,
    ∃ result ∈ returned? refresh.phase, result.has (js "user") = true ∧
      (∀ receipt ∈ s.traced.received, receipt.epoch ≤ r) ∧
        ((s.cachedBefore r (js "user")).isNone = true ∨ ¬ s.BroughtNothing r refresh (js "user"))))

theorem ReturnsStale.not_refetched {s : RefreshSession Nat} {r : Nat} (h : s.ReturnsStale r) :
    ¬ s.Refetched := by
  obtain ⟨refresh, hr, result, hresult, hhas, hepochs, hcopy⟩ := h
  have hphase : refresh.phase = .done result := by
    unfold returned? at hresult
    split at hresult
    · rename_i returned hdone
      rw [hdone, Option.some.inj hresult]
    · cases hresult
  obtain ⟨profile, hget⟩ := Option.isSome_iff_exists.mp hhas
  intro hlaw
  rcases hlaw r refresh result hr hphase (js "user") profile hget with hfetched | ⟨hbefore, hnothing⟩
  · obtain ⟨event, ⟨receipt, hreceipt, -, hlater⟩, -⟩ := hfetched
    have hearlier := hepochs receipt hreceipt
    omega
  · rcases hcopy with hnone | hsomething
    · rw [hbefore] at hnone
      cases hnone
    · exact hsomething hnothing

/-- A query that was under way answers a refresh; and a refresh returns the copy that another one has
restored. -/
theorem refreshes_refetch_fails :
    (∃ s, run (step 100 false) emptySession refreshedInFlight = some s ∧ s.ReturnsStale 0 ∧
        ¬ s.Refetched) ∧
      ∃ s, run (step 100 false) emptySession crossedRefreshes = some s ∧ s.ReturnsStale 1 ∧
        ¬ s.Refetched := by
  constructor
  · have hstale : (run (step 100 false) emptySession refreshedInFlight).any
        (fun s => s.ReturnsStale 0) = true := by decide +kernel
    obtain ⟨s, hrun, hs⟩ := (Option.any_eq_true _ _).mp hstale
    have hreturns : s.ReturnsStale 0 := of_decide_eq_true hs
    exact ⟨s, hrun, hreturns, hreturns.not_refetched⟩
  · have hstale : (run (step 100 false) emptySession crossedRefreshes).any
        (fun s => s.ReturnsStale 1) = true := by decide +kernel
    obtain ⟨s, hrun, hs⟩ := (Option.any_eq_true _ _).mp hstale
    have hreturns : s.ReturnsStale 1 := of_decide_eq_true hs
    exact ⟨s, hrun, hreturns, hreturns.not_refetched⟩

end Runs

end RefreshSession

end LivelierBridge.Nostr
