import LivelierBridge.Nostr.ProfileSession

namespace LivelierBridge.Nostr

open Framework Js

namespace ProfileCoordinator

section Advances

variable {ν : Type} {s t u : ProfileCoordinator ν} {new : JsString → ProfileInfo ν → Prop}

/-- A step in which the cache gains what is `new` and loses nothing, and in which the profile of each
applied event is cached. -/
structure Advances (s t : ProfileCoordinator ν) (new : JsString → ProfileInfo ν → Prop) : Prop where
  now : t.now = s.now
  cache : s.cache.Gains t.cache s.now new
  applied : ∃ more, t.applied = s.applied ++ more ∧
    ∀ event ∈ more, (t.cache.hasProfile event.pubkey s.now).1 = true

theorem Advances.trans (h : s.Advances t new) (h' : t.Advances u new) : s.Advances u new := by
  obtain ⟨more, happlied, hmore⟩ := h.applied
  obtain ⟨more', happlied', hmore'⟩ := h'.applied
  have hcache : t.cache.Gains u.cache s.now new := h.now ▸ h'.cache
  refine ⟨h'.now.trans h.now, h.cache.trans hcache, more ++ more', ?_, fun event hevent => ?_⟩
  · rw [happlied', happlied, List.append_assoc]
  · rcases List.mem_append.mp hevent with hearlier | hlater
    · exact hcache.keeps _ (hmore event hearlier)
    · exact h.now ▸ hmore' event hlater

/-- A step that applies no event. -/
theorem advances_of_gains (hnow : t.now = s.now) (hcache : s.cache.Gains t.cache s.now new)
    (happlied : t.applied = s.applied) : s.Advances t new := by
  refine ⟨hnow, hcache, [], ?_, fun _ h => absurd h List.not_mem_nil⟩
  rw [happlied, List.append_nil]

/-- A store of a profile that has not expired, with its event. -/
theorem advances_apply {pubkey : JsString} {profile : CachedProfile ν} {event : AppliedEvent}
    (hroom : s.cache.cache.size < ProfileCache.MAX_CACHE_SIZE)
    (hlive : ProfileCache.expired profile s.now = false) (hnew : new pubkey profile.info)
    (hnow : t.now = s.now) (hcache : t.cache = s.cache.storeProfile pubkey profile s.now)
    (happlied : t.applied = s.applied ++ [event]) (hevent : event.pubkey = pubkey) :
    s.Advances t new := by
  refine ⟨hnow, ?_, [event], happlied, fun e he => ?_⟩
  · rw [hcache]
    exact ProfileCache.gains_store hroom hlive hnew
  · rw [List.mem_singleton.mp he, hevent, hcache]
    exact ProfileCache.hasProfile_store_self hroom hlive

theorem gains_partitionPubkeys (pubkeys : List JsString) :
    s.cache.Gains (s.partitionPubkeys pubkeys).cache s.now new := by
  unfold partitionPubkeys
  refine List.foldlRecOn (motive := fun acc => s.cache.Gains acc.cache s.now new) pubkeys
    s.partitionPubkey ?_ fun acc hacc pubkey _ => ?_
  · exact .refl s.cache
  · have hread := hacc.trans (ProfileCache.gains_read acc.cache pubkey s.now)
    simp only [partitionPubkey]
    split
    · exact hread
    · split_ifs
      · exact hread
      · exact hread
      · exact hread

/-- What a flush does: it reads the cache, and there may be a dispatch. -/
theorem flush_cases (s : ProfileCoordinator ν) (new : JsString → ProfileInfo ν → Prop) :
    s.Advances s.flush new ∧ s.flush.refreshes = s.refreshes ∧
      (s.flush.fetches = s.fetches ∨ ∃ pubkeys, s.flush.fetches = s.fetches ++ [some pubkeys]) := by
  have hgains : s.cache.Gains (s.partitionPubkeys s.wanted.keys).cache s.now new :=
    gains_partitionPubkeys _
  simp only [flush]
  split_ifs
  · exact ⟨advances_of_gains rfl (.refl _) rfl, rfl, .inl rfl⟩
  · exact ⟨advances_of_gains rfl hgains rfl, rfl, .inl rfl⟩
  · exact ⟨advances_of_gains rfl hgains rfl, rfl, .inl rfl⟩
  · exact ⟨advances_of_gains rfl hgains rfl, rfl, .inr ⟨_, rfl⟩⟩
  · exact ⟨advances_of_gains rfl hgains rfl, rfl, .inr ⟨_, rfl⟩⟩

theorem gains_allSettled (pubkeys : List JsString) (c : ProfileCache ν) :
    c.Gains (s.allSettled c pubkeys).2 s.now new := by
  induction pubkeys generalizing c with
  | nil => exact .refl c
  | cons pubkey pubkeys ih =>
    have hasked : c.Gains (c.hasProfile pubkey s.now).2 s.now new := ProfileCache.gains_hasProfile ..
    simp only [allSettled]
    split_ifs
    · exact hasked.trans (ih _)
    · exact hasked

/-- What `getProfiles` reads are cached profiles of its pubkeys. -/
structure ReadFrom (s : ProfileCoordinator ν) (pubkeys : List JsString)
    (acc : OrderedMap JsString (CachedProfile ν) × ProfileCache ν) : Prop where
  sameHas : s.cache.SameHas acc.2 s.now
  keepsInfo : s.cache.KeepsInfo acc.2
  source : ∀ pubkey profile, acc.1.get? pubkey = some profile → pubkey ∈ pubkeys ∧
    (s.cache.hasProfile pubkey s.now).1 = true ∧
      ∃ old, s.cache.cache.get? pubkey = some old ∧ old.info = profile.info

theorem ReadFrom.readResult {pubkeys : List JsString}
    {acc : OrderedMap JsString (CachedProfile ν) × ProfileCache ν} (h : s.ReadFrom pubkeys acc)
    {pubkey : JsString} (hmem : pubkey ∈ pubkeys) :
    s.ReadFrom pubkeys (s.readResult acc pubkey) := by
  refine ⟨h.sameHas.trans (ProfileCache.sameHas_read acc.2 pubkey s.now),
    h.keepsInfo.trans (ProfileCache.keepsInfo_read acc.2 pubkey s.now), fun p profile hget => ?_⟩
  simp only [ProfileCoordinator.readResult] at hget
  split at hget
  · rename_i found hread
    rw [OrderedMap.get?_set] at hget
    split_ifs at hget with hp
    · obtain rfl := Option.some.inj hget
      subst hp
      have hsome := ProfileCache.read_isSome acc.2 p s.now
      rw [hread, Option.isSome_some, h.sameHas p] at hsome
      obtain ⟨mid, hmid, hinfo⟩ := ProfileCache.read_info hread
      obtain ⟨old, hold, hinfo'⟩ := h.keepsInfo p mid hmid
      exact ⟨hmem, hsome.symm, old, hold, hinfo'.trans hinfo⟩
    · exact h.source p profile hget
  · exact h.source p profile hget

theorem readFrom_readResults (pubkeys : List JsString) :
    s.ReadFrom pubkeys (pubkeys.foldl s.readResult (.empty, s.cache)) := by
  refine List.foldlRecOn (motive := s.ReadFrom pubkeys) pubkeys s.readResult ?_
    fun acc hacc pubkey hmem => hacc.readResult hmem
  exact ⟨.refl _, .refl _, fun _ _ hget => by cases hget⟩

/-- The results of a dispatch are stored one by one. -/
theorem applyFetchedEntries_advances {entries : List (JsString × Option (CachedProfile ν))}
    (hroom : s.cache.cache.size + entries.length ≤ ProfileCache.MAX_CACHE_SIZE)
    (hnew : ∀ entry ∈ entries, ∀ profile ∈ entry.2,
      ProfileCache.expired profile s.now = false ∧ new entry.1 profile.info) :
    s.Advances (entries.foldl applyFetchedProfile s) new ∧
      (entries.foldl applyFetchedProfile s).refreshes = s.refreshes := by
  induction entries generalizing s with
  | nil => exact ⟨advances_of_gains rfl (.refl _) rfl, rfl⟩
  | cons entry entries ih =>
    rw [List.length_cons] at hroom
    have hone : s.Advances (s.applyFetchedProfile entry) new ∧
        (s.applyFetchedProfile entry).refreshes = s.refreshes ∧
          (s.applyFetchedProfile entry).cache.cache.size ≤ s.cache.cache.size + 1 := by
      unfold applyFetchedProfile
      split
      · rename_i profile hprofile
        obtain ⟨hlive, hinfo⟩ := hnew entry List.mem_cons_self profile hprofile
        have hlt : s.cache.cache.size < ProfileCache.MAX_CACHE_SIZE := by omega
        exact ⟨advances_apply hlt hlive hinfo rfl rfl rfl rfl, rfl, ProfileCache.size_store hlt⟩
      · exact ⟨advances_of_gains rfl (.refl _) rfl, rfl, Nat.le_succ _⟩
    obtain ⟨hadvances, hrefreshes, hsize⟩ := hone
    have hrest := @ih (s.applyFetchedProfile entry) (by omega) fun later hlater profile hprofile => by
      rw [hadvances.now]
      exact hnew later (List.mem_cons_of_mem _ hlater) profile hprofile
    exact ⟨hadvances.trans hrest.1, hrest.2.trans hrefreshes⟩

/-- What has been restored so far of a refresh's pubkeys. -/
structure RestoredFrom (s : ProfileCoordinator ν)
    (previous result : OrderedMap JsString (CachedProfile ν)) (finished : List JsString)
    (acc : OrderedMap JsString (CachedProfile ν) × ProfileCoordinator ν) : Prop where
  advances : s.Advances acc.2 fun pubkey info => result.has pubkey = false ∧
    ∃ copy, previous.get? pubkey = some copy ∧ copy.info = info
  grows : ∀ pubkey, result.has pubkey = true → acc.1.has pubkey = true
  source : ∀ pubkey profile, acc.1.get? pubkey = some profile → result.get? pubkey = some profile ∨
    pubkey ∈ finished ∧ result.has pubkey = false ∧ previous.get? pubkey = some profile
  cached : ∀ pubkey ∈ finished, result.has pubkey = false → (previous.get? pubkey).isSome = true →
    (acc.2.cache.hasProfile pubkey s.now).1 = true

theorem RestoredFrom.restoreProfile {previous result : OrderedMap JsString (CachedProfile ν)}
    {finished : List JsString} {acc : OrderedMap JsString (CachedProfile ν) × ProfileCoordinator ν}
    {pubkey : JsString} (h : s.RestoredFrom previous result finished acc)
    (hroom : acc.2.cache.cache.size < ProfileCache.MAX_CACHE_SIZE)
    (hlive : result.has pubkey = false → ∀ copy ∈ previous.get? pubkey,
      ProfileCache.expired copy s.now = false) :
    s.RestoredFrom previous result (pubkey :: finished) (restoreProfile previous acc pubkey) ∧
      (ProfileCoordinator.restoreProfile previous acc pubkey).2.cache.cache.size ≤
        acc.2.cache.cache.size + 1 := by
  have hsource : ∀ p profile, acc.1.get? p = some profile → result.get? p = some profile ∨
      p ∈ pubkey :: finished ∧ result.has p = false ∧ previous.get? p = some profile := by
    intro p profile hget
    rcases h.source p profile hget with hresult | ⟨hmem, hlater⟩
    · exact .inl hresult
    · exact .inr ⟨List.mem_cons_of_mem _ hmem, hlater⟩
  unfold ProfileCoordinator.restoreProfile
  split_ifs with hhas
  · refine ⟨⟨h.advances, h.grows, hsource, fun p hmem hempty hsome => ?_⟩,
      Nat.le_succ _⟩
    rcases List.mem_cons.mp hmem with rfl | hold
    · obtain ⟨profile, hget⟩ := Option.isSome_iff_exists.mp hhas
      rcases h.source p profile hget with hresult | ⟨hold, -, -⟩
      · rw [OrderedMap.has, hresult] at hempty
        cases hempty
      · exact h.cached p hold hempty hsome
    · exact h.cached p hold hempty hsome
  · have hempty : result.has pubkey = false := by
      cases hresult : result.has pubkey with
      | false => rfl
      | true => exact absurd (h.grows pubkey hresult) hhas
    split
    · rename_i hnone
      refine ⟨⟨h.advances, h.grows, hsource, fun p hmem hp hsome => ?_⟩,
        Nat.le_succ _⟩
      rcases List.mem_cons.mp hmem with rfl | hold
      · rw [hnone] at hsome
        cases hsome
      · exact h.cached p hold hp hsome
    · rename_i copy hcopy
      have hnow : acc.2.now = s.now := h.advances.now
      have hexpired : ProfileCache.expired copy acc.2.now = false := hnow ▸ hlive hempty copy hcopy
      have hstore : acc.2.cache.Gains (acc.2.cache.storeProfile pubkey copy acc.2.now) acc.2.now
          fun pubkey info => result.has pubkey = false ∧
            ∃ copy, previous.get? pubkey = some copy ∧ copy.info = info :=
        ProfileCache.gains_store hroom hexpired ⟨hempty, copy, hcopy, rfl⟩
      refine ⟨⟨h.advances.trans (advances_of_gains rfl hstore rfl), ?_, ?_, ?_⟩,
        ProfileCache.size_store hroom⟩
      · intro p hp
        have hgrown := h.grows p hp
        unfold OrderedMap.has at hgrown ⊢
        rw [OrderedMap.get?_set]
        split_ifs
        · rfl
        · exact hgrown
      · intro p profile hget
        rw [OrderedMap.get?_set] at hget
        split_ifs at hget with hp
        · obtain rfl := Option.some.inj hget
          subst hp
          exact .inr ⟨List.mem_cons_self, hempty, hcopy⟩
        · exact hsource p profile hget
      · intro p hmem hp hsome
        rw [← hnow]
        rcases List.mem_cons.mp hmem with rfl | hold
        · exact ProfileCache.hasProfile_store_self hroom hexpired
        · have hcached := h.cached p hold hp hsome
          rw [← hnow] at hcached
          exact hstore.keeps p hcached

/-- A refresh restores one pubkey after the other. -/
theorem RestoredFrom.restoreProfiles {previous result : OrderedMap JsString (CachedProfile ν)}
    {finished pubkeys : List JsString}
    {acc : OrderedMap JsString (CachedProfile ν) × ProfileCoordinator ν}
    (h : s.RestoredFrom previous result finished acc)
    (hroom : acc.2.cache.cache.size + pubkeys.length ≤ ProfileCache.MAX_CACHE_SIZE)
    (hlive : ∀ pubkey ∈ pubkeys, result.has pubkey = false → ∀ copy ∈ previous.get? pubkey,
      ProfileCache.expired copy s.now = false) :
    ∃ all, (∀ pubkey, pubkey ∈ all ↔ pubkey ∈ finished ∨ pubkey ∈ pubkeys) ∧
      s.RestoredFrom previous result all
        (pubkeys.foldl (ProfileCoordinator.restoreProfile previous) acc) := by
  induction pubkeys generalizing finished acc with
  | nil => exact ⟨finished, fun _ => by simp, h⟩
  | cons pubkey pubkeys ih =>
    rw [List.length_cons] at hroom
    obtain ⟨hone, hsize⟩ := h.restoreProfile (by omega) (hlive pubkey List.mem_cons_self)
    obtain ⟨all, hall, hrest⟩ := ih hone (by omega)
      fun p hp => hlive p (List.mem_cons_of_mem _ hp)
    refine ⟨all, fun p => ?_, hrest⟩
    rw [hall, List.mem_cons, List.mem_cons]
    tauto

theorem restoredFrom_start (previous result : OrderedMap JsString (CachedProfile ν)) :
    s.RestoredFrom previous result [] (result, s) :=
  ⟨advances_of_gains rfl (.refl _) rfl, fun _ h => h, fun _ _ h => .inl h,
    fun _ h => absurd h List.not_mem_nil⟩

/-- What a refresh has taken away so far, and what it keeps. -/
structure Took (s : ProfileCoordinator ν) (taken : List JsString)
    (acc : OrderedMap JsString (CachedProfile ν) × ProfileCoordinator ν) : Prop where
  now : acc.2.now = s.now
  applied : acc.2.applied = s.applied
  refreshes : acc.2.refreshes = s.refreshes
  fetches : acc.2.fetches = s.fetches
  cache : ∀ pubkey, acc.2.cache.cache.get? pubkey =
    if pubkey ∈ taken then none else s.cache.cache.get? pubkey
  previous : ∀ pubkey, acc.1.get? pubkey =
    if pubkey ∈ taken then (s.cache.read pubkey s.now).1 else none

theorem Took.takeAway {taken : List JsString}
    {acc : OrderedMap JsString (CachedProfile ν) × ProfileCoordinator ν} (h : s.Took taken acc)
    (pubkey : JsString) : s.Took (taken ++ [pubkey]) (takeAway acc pubkey) := by
  have hread : (acc.2.cache.read pubkey acc.2.now).1 =
      if pubkey ∈ taken then none else (s.cache.read pubkey s.now).1 := by
    rw [ProfileCache.read_fst, ProfileCache.read_fst, h.cache, h.now]
    split_ifs
    · rfl
    · rfl
  refine ⟨h.now, h.applied, h.refreshes, h.fetches, fun p => ?_, fun p => ?_⟩
  · simp only [ProfileCoordinator.takeAway, ProfileCache.remove, OrderedMap.get?_delete, List.mem_append,
      List.mem_singleton]
    by_cases hp : p = pubkey
    · simp [hp]
    · simp only [hp, or_false, if_false]
      rw [ProfileCache.get?_read_of_ne hp, h.cache]
  · simp only [ProfileCoordinator.takeAway, List.mem_append, List.mem_singleton]
    by_cases hp : p = pubkey
    · subst hp
      have hprevious := h.previous p
      by_cases hmem : p ∈ taken
      · rw [if_pos hmem] at hread hprevious
        simp [hread, hprevious]
      · rw [if_neg hmem] at hread hprevious
        simp only [hread, or_true, if_true]
        split
        · rename_i cached hcached
          rw [OrderedMap.get?_set_self, hcached]
        · rename_i hnone
          rw [hprevious, hnone]
    · simp only [hp, or_false]
      rw [← h.previous p]
      split
      · exact OrderedMap.get?_set_of_ne _ hp _
      · rfl

/-- What a call of `refreshProfiles` does: it takes away the cached profiles, and starts to wait. -/
theorem refreshProfiles_took (pubkeys : List JsString) :
    ∃ acc, s.Took pubkeys.eraseDups acc ∧
      (s.refreshProfiles pubkeys).cache = acc.2.cache ∧ (s.refreshProfiles pubkeys).now = s.now ∧
        (s.refreshProfiles pubkeys).applied = s.applied ∧
          (s.refreshProfiles pubkeys).fetches = s.fetches ∧
            (s.refreshProfiles pubkeys).refreshes = s.refreshes ++ [⟨pubkeys.eraseDups, acc.1,
              s.applied.length, s.now + GET_PROFILES_TIMEOUT_MS, .waiting⟩] := by
  have htook : ∀ (ps taken : List JsString)
      (acc : OrderedMap JsString (CachedProfile ν) × ProfileCoordinator ν),
      s.Took taken acc → s.Took (taken ++ ps) (ps.foldl ProfileCoordinator.takeAway acc) := by
    intro ps
    induction ps with
    | nil => exact fun taken acc h => (List.append_nil taken).symm ▸ h
    | cons p ps ih =>
      intro taken acc h
      have hrest := ih (taken ++ [p]) _ (h.takeAway p)
      rwa [List.append_assoc, List.singleton_append] at hrest
  have hstart : s.Took [] (.empty, s) := ⟨rfl, rfl, rfl, rfl, fun _ => by simp, fun _ => by
    simp [OrderedMap.get?, OrderedMap.empty, OrderedMap.find]⟩
  have h := htook pubkeys.eraseDups [] (.empty, s) hstart
  rw [List.nil_append] at h
  refine ⟨_, h, rfl, h.now, h.applied, h.fetches, ?_⟩
  simp only [ProfileCoordinator.refreshProfiles, addWanted, h.now, h.applied, h.refreshes]

section Fetched

variable [JsNumber ν] {pubkey : JsString}

theorem eventToProfile_some {now : Nat} {event : Event} {profile : CachedProfile ν}
    (h : eventToProfile now (some event) = some profile) :
    parseKind0Content event.content = some profile.info ∧ ProfileCache.expired profile now = false := by
  obtain ⟨info, hinfo, rfl⟩ := Option.map_eq_some_iff.mp h
  exact ⟨hinfo, by simp [ProfileCache.expired]⟩

/-- A profile that a dispatch brings a pubkey is parsed from the event that came for it. -/
theorem fetchedProfiles_source {pubkeys : List JsString} {events : List (Option Event)}
    {profile : CachedProfile ν}
    (h : (s.fetchedProfiles pubkeys events).get? pubkey = some (some profile)) :
    ∃ (i : Nat) (event : Event), pubkeys[i]? = some pubkey ∧ events[i]? = some (some event) ∧
      eventToProfile s.now (some event) = some profile := by
  obtain ⟨⟨p, i⟩, hmem, hentry⟩ := List.mem_map.mp (OrderedMap.mem_of_get?_ofList h)
  obtain ⟨hp, hprofile⟩ := Prod.mk.inj hentry
  have hindex : pubkeys[i]? = some p := List.mk_mem_zipIdx_iff_getElem?.mp hmem
  cases hevent : (events[i]?).join with
  | none =>
    dsimp only at hprofile
    rw [hevent] at hprofile
    cases hprofile
  | some event =>
    dsimp only at hp hprofile
    rw [hevent] at hprofile
    exact ⟨i, event, hp ▸ hindex, Option.join_eq_some_iff.mp hevent, hprofile⟩

/-- What a dispatch brings, by pubkey. -/
def Brings (pubkeys : List JsString) (events : List (Option Event)) (pubkey : JsString)
    (info : ProfileInfo ν) : Prop :=
  ∃ (i : Nat) (event : Event), pubkeys[i]? = some pubkey ∧ events[i]? = some (some event) ∧
    parseKind0Content event.content = some info

theorem batchResult_advances {f : Nat} {events : List (Option Event)} {pubkeys : List JsString}
    (hf : s.fetches[f]? = some (some pubkeys))
    (hroom : s.cache.cache.size + pubkeys.length ≤ ProfileCache.MAX_CACHE_SIZE)
    (hs : s.step (.batchResult f events) = some t) :
    s.Advances t (Brings pubkeys events) ∧ t.refreshes = s.refreshes ∧
      t.fetches = s.fetches.set f none := by
  have hlength : (s.fetchedProfiles pubkeys events).entries.length ≤ pubkeys.length := by
    have hsize := OrderedMap.size_ofList_le (pubkeys.zipIdx.map fun x =>
      (x.1, (eventToProfile s.now (events[x.2]?).join : Option (CachedProfile ν))))
    rwa [List.length_map, List.length_zipIdx] at hsize
  have hentries : ∀ entry ∈ (s.fetchedProfiles pubkeys events).entries, ∀ profile ∈ entry.2,
      ProfileCache.expired profile s.now = false ∧ Brings pubkeys events entry.1 profile.info := by
    intro entry hmem profile hprofile
    have hget : (s.fetchedProfiles pubkeys events).get? entry.1 = some entry.2 :=
      (OrderedMap.get?_eq_some_iff _ _ _).mpr hmem
    obtain ⟨i, event, hindex, hevent, hparsed⟩ :=
      fetchedProfiles_source (hget.trans (congrArg some hprofile))
    obtain ⟨hinfo, hlive⟩ := eventToProfile_some hparsed
    exact ⟨hlive, i, event, hindex, hevent, hinfo⟩
  obtain ⟨hadvances, hrefreshes⟩ := applyFetchedEntries_advances (s := s) (by omega) hentries
  have hfetches := (applyFetchedProfiles_applied s (s.fetchedProfiles pubkeys events)).fetches
  simp only [ProfileCoordinator.step, hf, Option.join_some, Option.map_some, Option.some.injEq] at hs
  obtain ⟨failures, hend, -⟩ :=
    endFetch_eq (s.applyFetchedProfiles (s.fetchedProfiles pubkeys events)) f pubkeys
  rw [hend] at hs
  subst hs
  refine ⟨hadvances.trans (advances_of_gains rfl (.refl _) rfl), hrefreshes, ?_⟩
  rw [← hfetches]

theorem streamed_advances {event : Event} (hroom : (s.earlyProfile event).isSome = true →
      s.cache.cache.size + 1 ≤ ProfileCache.MAX_CACHE_SIZE) :
    s.Advances (s.applyEarlyProfileEvent event)
        (fun pubkey info => event.kind = 0 ∧ event.pubkey = pubkey ∧
          parseKind0Content event.content = some info) ∧
      (s.applyEarlyProfileEvent event).refreshes = s.refreshes ∧
        (s.applyEarlyProfileEvent event).fetches = s.fetches := by
  unfold applyEarlyProfileEvent
  split
  · exact ⟨advances_of_gains rfl (.refl _) rfl, rfl, rfl⟩
  · rename_i profile hprofile
    have hearly : (s.earlyProfile event).isSome = true := by rw [hprofile]; rfl
    have hlt : s.cache.cache.size < ProfileCache.MAX_CACHE_SIZE := hroom hearly
    unfold earlyProfile at hprofile
    split_ifs at hprofile with hkind
    obtain ⟨hinfo, hlive⟩ := eventToProfile_some hprofile
    refine ⟨?_, rfl, rfl⟩
    exact advances_apply hlt hlive ⟨not_not.mp hkind, rfl, hinfo⟩ rfl rfl rfl rfl

end Fetched

end Advances

end ProfileCoordinator

end LivelierBridge.Nostr
