import LivelierBridge.Nostr.ReplaceableLoader

namespace LivelierBridge.Nostr

open Framework Js

/-- An event that a relay delivered, with the epoch in which it was asked for or streamed. -/
structure Receipt where
  event : Event
  epoch : Nat

/-- The loader with a record of what its queries brought, by the epoch in which they were issued. -/
structure TracedLoader where
  loader : ReplaceableEventLoader
  primaryEpoch : Nat → Nat
  fallbackEpoch : Nat → Nat
  received : List Receipt

namespace ReplaceableEventLoader

variable {batchSize : Nat} {hasFallback : Bool} {s t : ReplaceableEventLoader} {key : JsString}
variable {b : Nat}

theorem inPhase_eq_some {α : Type} {p : BatchPhase → Option α} {x : List JsString × α}
    (h : s.inPhase p b = some x) :
    ∃ batch, s.batches[b]? = some batch ∧ x.1 = batch.keys ∧ p batch.phase = some x.2 := by
  obtain ⟨batch, hbatch, hphase⟩ := Option.bind_eq_some_iff.mp h
  obtain ⟨a, ha, rfl⟩ := Option.map_eq_some_iff.mp hphase
  exact ⟨batch, hbatch, rfl, ha⟩

theorem collecting_eq_some {x : List JsString × Unit} (h : s.collecting b = some x) :
    s.batches[b]? = some ⟨x.1, .collecting⟩ := by
  obtain ⟨⟨keys, phase⟩, hbatch, hkeys, hphase⟩ := inPhase_eq_some h
  obtain rfl : x.1 = keys := hkeys
  cases phase <;> first | exact hbatch | exact nomatch hphase

theorem askingPrimary_eq_some {x : List JsString × Unit} (h : s.askingPrimary b = some x) :
    s.batches[b]? = some ⟨x.1, .primary⟩ := by
  obtain ⟨⟨keys, phase⟩, hbatch, hkeys, hphase⟩ := inPhase_eq_some h
  obtain rfl : x.1 = keys := hkeys
  cases phase <;> first | exact hbatch | exact nomatch hphase

theorem askingFallback_eq_some {x : List JsString × QueryResult} (h : s.askingFallback b = some x) :
    s.batches[b]? = some ⟨x.1, .fallback x.2⟩ := by
  obtain ⟨⟨keys, phase⟩, hbatch, hkeys, hphase⟩ := inPhase_eq_some h
  obtain rfl : x.1 = keys := hkeys
  cases phase <;> first | exact Option.some.inj hphase ▸ hbatch | exact nomatch hphase

theorem loaded_eq_some {x : List JsString × List (Option Event)} (h : s.loaded b = some x) :
    s.batches[b]? = some ⟨x.1, .loaded x.2⟩ := by
  obtain ⟨⟨keys, phase⟩, hbatch, hkeys, hphase⟩ := inPhase_eq_some h
  obtain rfl : x.1 = keys := hkeys
  cases phase <;> first | exact Option.some.inj hphase ▸ hbatch | exact nomatch hphase

theorem settled_eq_some {x : List JsString × List (Option Event)} (h : s.settled b = some x) :
    s.batches[b]? = some ⟨x.1, .settled x.2⟩ := by
  obtain ⟨⟨keys, phase⟩, hbatch, hkeys, hphase⟩ := inPhase_eq_some h
  obtain rfl : x.1 = keys := hkeys
  cases phase <;> first | exact Option.some.inj hphase ▸ hbatch | exact nomatch hphase

theorem getElem?_setBatch {b' : Nat} {batch new : LoadBatch}
    (h : (s.setBatch b' new).batches[b]? = some batch) :
    b = b' ∧ batch = new ∨ b ≠ b' ∧ s.batches[b]? = some batch := by
  rw [setBatch, List.getElem?_set] at h
  by_cases hb : b' = b
  · rw [if_pos hb] at h
    split_ifs at h
    exact .inl ⟨hb.symm, (Option.some.inj h).symm⟩
  · rw [if_neg hb] at h
    exact .inr ⟨fun hsame => hb hsame.symm, h⟩

/-- The key at a place of a batch. -/
def keyAt (s : ReplaceableEventLoader) (entry : BatchEntry) : Option JsString :=
  (s.keysOf entry.batch)[entry.index]?

/-- Batches keep their keys in place and only get more of them. -/
def KeysGrow (s t : ReplaceableEventLoader) : Prop :=
  ∀ entry key, s.keyAt entry = some key → t.keyAt entry = some key

theorem KeysGrow.refl (s : ReplaceableEventLoader) : s.KeysGrow s := fun _ _ h => h

theorem KeysGrow.trans {u : ReplaceableEventLoader} (h : s.KeysGrow t) (h' : t.KeysGrow u) :
    s.KeysGrow u :=
  fun entry key hk => h' entry key (h entry key hk)

theorem keysGrow_of_batches (h : t.batches = s.batches) : s.KeysGrow t := by
  intro entry key hk
  rw [keyAt, keysOf, h]
  exact hk

/-- A batch that is rewritten with its own keys and perhaps more. -/
theorem keysGrow_setBatch {keys more : List JsString} {phase : BatchPhase}
    (hkeys : s.keysOf b = keys) : s.KeysGrow (s.setBatch b ⟨keys ++ more, phase⟩) := by
  intro entry key hk
  simp only [keyAt, keysOf, setBatch, List.getElem?_set]
  split_ifs with hb hlt
  · subst hb
    have hlt' : entry.index < keys.length := by
      rw [keyAt, hkeys] at hk
      exact (List.getElem?_eq_some_iff.mp hk).1
    rw [keyAt, hkeys] at hk
    simpa [List.getElem?_append_left hlt'] using hk
  · -- there is no such batch, so it had no key
    subst hb
    rw [keyAt, keysOf, List.getElem?_eq_none (Nat.not_lt.mp hlt)] at hk
    cases hk
  · exact hk

theorem keysOf_of_getElem? {batch : LoadBatch} (h : s.batches[b]? = some batch) :
    s.keysOf b = batch.keys := by
  rw [keysOf, h]
  rfl

theorem keysGrow_rephase {keys : List JsString} {phase phase' : BatchPhase}
    (h : s.batches[b]? = some ⟨keys, phase⟩) : s.KeysGrow (s.setBatch b ⟨keys, phase'⟩) := by
  have hgrow : s.KeysGrow (s.setBatch b ⟨keys ++ [], phase'⟩) :=
    keysGrow_setBatch (keysOf_of_getElem? h)
  rwa [List.append_nil] at hgrow

/-- The batches are what they were, or still collect. -/
def OldOrCollecting (s t : ReplaceableEventLoader) : Prop :=
  ∀ (b : Nat) (batch : LoadBatch), t.batches[b]? = some batch →
    s.batches[b]? = some batch ∨ batch.phase = .collecting

/-- The batch of the place still collects. -/
def Collects (s : ReplaceableEventLoader) (entry : BatchEntry) : Prop :=
  ∀ batch ∈ s.batches[entry.batch]?, batch.phase = .collecting

/-- The pending batch exists. -/
def PendingExists (s : ReplaceableEventLoader) : Prop :=
  ∀ b, s.pendingBatch = some b → b < s.batches.length

/-- What joining a batch leaves alone, and where it puts the key. -/
structure Joined (s t : ReplaceableEventLoader) (key : JsString) (entry : BatchEntry) : Prop where
  grow : s.KeysGrow t
  batches : s.OldOrCollecting t
  keyAt : t.keyAt entry = some key
  collects : t.Collects entry
  pending : t.PendingExists
  cache : t.cache = s.cache
  inFlight : t.inFlight = s.inFlight
  loads : t.loads = s.loads
  floor : t.floor = s.floor

/-- A place at the end of a batch that exists. -/
theorem joined_setBatch (hpending : s.PendingExists) (hb : b < s.batches.length) (key : JsString) :
    s.Joined (s.setBatch b ⟨s.keysOf b ++ [key], .collecting⟩) key ⟨b, (s.keysOf b).length⟩ := by
  have hset : (s.batches.set b ⟨s.keysOf b ++ [key], .collecting⟩)[b]? =
      some ⟨s.keysOf b ++ [key], .collecting⟩ := List.getElem?_set_self hb
  refine ⟨keysGrow_setBatch rfl, ?_, ?_, ?_, ?_, rfl, rfl, rfl, rfl⟩
  · intro b' batch hbatch
    rcases getElem?_setBatch hbatch with ⟨-, rfl⟩ | ⟨-, hold⟩
    · exact .inr rfl
    · exact .inl hold
  · simp [keyAt, keysOf, setBatch, List.getElem?_set_self hb]
  · intro batch hbatch
    rcases getElem?_setBatch hbatch with ⟨-, rfl⟩ | ⟨hne, -⟩
    · rfl
    · exact absurd rfl hne
  · intro b' hb'
    rw [setBatch, List.length_set]
    exact hpending b' hb'

/-- A new batch is the pending one. -/
def withBatch (s : ReplaceableEventLoader) : ReplaceableEventLoader :=
  { s with
    batches := s.batches ++ [⟨[], .collecting⟩]
    pendingBatch := some s.batches.length }

theorem keysGrow_withBatch : s.KeysGrow s.withBatch := by
  intro entry key hk
  rcases Nat.lt_or_ge entry.batch s.batches.length with hlt | hge
  · simp only [keyAt, keysOf, withBatch, List.getElem?_append_left hlt]
    exact hk
  · rw [keyAt, keysOf, List.getElem?_eq_none hge] at hk
    cases hk

theorem joined_withBatch (key : JsString) :
    s.Joined (s.withBatch.setBatch s.batches.length
        ⟨s.withBatch.keysOf s.batches.length ++ [key], .collecting⟩) key
      ⟨s.batches.length, (s.withBatch.keysOf s.batches.length).length⟩ := by
  have hlt : s.batches.length < s.withBatch.batches.length := by simp [withBatch]
  have hpending : s.withBatch.PendingExists := by
    intro b hb
    obtain rfl : s.batches.length = b := Option.some.inj hb
    exact hlt
  have h := joined_setBatch hpending hlt key
  refine ⟨keysGrow_withBatch.trans h.grow, ?_, h.keyAt, h.collects, h.pending, h.cache, h.inFlight,
    h.loads, h.floor⟩
  intro b batch hbatch
  rcases h.batches b batch hbatch with hold | hcollects
  · rcases Nat.lt_or_ge b s.batches.length with hb | hb
    · exact .inl ((List.getElem?_append_left hb).symm.trans hold)
    · have hlast : [(⟨[], .collecting⟩ : LoadBatch)][b - s.batches.length]? = some batch :=
        (List.getElem?_append_right hb).symm.trans hold
      obtain rfl := List.mem_singleton.mp (List.mem_of_getElem? hlast)
      exact .inr rfl
  · exact .inr hcollects

theorem joinBatch_joined (batchSize : Nat) (hpending : s.PendingExists) (key : JsString) :
    s.Joined (s.joinBatch batchSize key).1 key (s.joinBatch batchSize key).2 := by
  simp only [joinBatch, openBatch]
  split
  · exact joined_withBatch key
  · rename_i b hb
    split_ifs
    · exact joined_withBatch key
    · exact joined_setBatch hpending (hpending b hb) key

/-- What a load does: it reads the cache, or joins a load that is in flight, or a collecting batch. -/
structure Loaded (s t : ReplaceableEventLoader) (key : JsString) : Prop where
  grow : s.KeysGrow t
  batches : s.OldOrCollecting t
  pending : t.PendingExists
  cache : t.cache.cache = s.cache.cache
  inFlight : ∀ k entry, t.inFlight.get? k = some entry → s.inFlight.get? k = some entry ∨
    k = key ∧ t.keyAt entry = some key ∧ t.Collects entry
  record : ∃ load : LoadRecord, t.loads = s.loads ++ [load] ∧ load.key = key ∧
    (∀ event, load.outcome = .resolved (some event) → s.cache.cache.get? key = some event) ∧
    ∀ entry, load.outcome = .joined entry → s.inFlight.get? key = some entry ∨
      t.keyAt entry = some key ∧ t.Collects entry

theorem loaded_note (hpending : s.PendingExists) (key : JsString) {outcome : LoadOutcome}
    (hresolved : ∀ event, outcome = .resolved (some event) → s.cache.cache.get? key = some event)
    (hjoined : ∀ entry, outcome = .joined entry → s.inFlight.get? key = some entry) :
    s.Loaded (s.note key outcome) key := by
  refine ⟨.refl s, fun _ _ h => .inl h, hpending, rfl, fun _ _ h => .inl h, ?_⟩
  exact ⟨_, rfl, rfl, hresolved, fun entry h => .inl (hjoined entry h)⟩

/-- A read is a use, which is no matter here. -/
theorem Loaded.of_read {cache : LruCache JsString Event} (hcache : cache.cache = s.cache.cache)
    (h : Loaded { s with cache := cache } t key) : s.Loaded t key := by
  obtain ⟨load, hloads, hkey, hresolved, hjoined⟩ := h.record
  refine ⟨h.grow, h.batches, h.pending, h.cache.trans hcache, h.inFlight, load, hloads, hkey, ?_, hjoined⟩
  intro event hevent
  rw [← hcache]
  exact hresolved event hevent

theorem loaded_join (hpending : s.PendingExists) (key : JsString) :
    s.Loaded ({ (s.joinBatch batchSize key).1 with
      inFlight := (s.joinBatch batchSize key).1.inFlight.set key (s.joinBatch batchSize key).2 }.note key
        (.joined (s.joinBatch batchSize key).2)) key := by
  have h := joinBatch_joined batchSize hpending key
  refine ⟨h.grow, h.batches, h.pending, by rw [← h.cache]; rfl, fun k entry hk => ?_, ?_⟩
  · have hset : ((s.joinBatch batchSize key).1.inFlight.set key (s.joinBatch batchSize key).2).get? k =
        some entry := hk
    rw [OrderedMap.get?_set] at hset
    split_ifs at hset with hkey
    · obtain rfl := Option.some.inj hset
      exact .inr ⟨hkey, h.keyAt, h.collects⟩
    · exact .inl (h.inFlight ▸ hset)
  · refine ⟨⟨key, (s.joinBatch batchSize key).1.floor key, .joined (s.joinBatch batchSize key).2⟩,
      ?_, rfl, (fun _ he => by cases he), fun entry he => ?_⟩
    · rw [← h.loads]
      rfl
    · obtain rfl : (s.joinBatch batchSize key).2 = entry := LoadOutcome.joined.inj he
      exact .inr ⟨h.keyAt, h.collects⟩

theorem batchLoaderLoad_loaded (hpending : s.PendingExists) (key : JsString) :
    s.Loaded (s.batchLoaderLoad batchSize key) key := by
  have hread : ReplaceableEventLoader.PendingExists { s with cache := (s.cache.get key s.now).2 } :=
    hpending
  suffices h : Loaded { s with cache := (s.cache.get key s.now).2 } (s.batchLoaderLoad batchSize key) key from
    h.of_read LruCache.get_snd_cache
  simp only [batchLoaderLoad]
  split
  · rename_i event hcached
    refine loaded_note hread key (fun e he => ?_) (fun _ he => by cases he)
    have hgot : s.cache.cache.get? key = some event := LruCache.get_fst.symm.trans hcached
    rw [LruCache.get_snd_cache, hgot]
    exact LoadOutcome.resolved.inj he
  · split
    · rename_i entry hentry
      refine loaded_note hread key (fun _ he => by cases he) fun e he => ?_
      exact LoadOutcome.joined.inj he ▸ hentry
    · exact loaded_join hread key

theorem load_loaded (batchSize : Nat) (hpending : s.PendingExists) (request : ReplaceableEventRequest) :
    s.Loaded (s.load batchSize request) (toKey request) := by
  simp only [load]
  split_ifs
  · exact loaded_note hpending _ (fun _ h => by cases h) (fun _ h => by cases h)
  · exact batchLoaderLoad_loaded hpending _

/-- The places of the loads in flight and of those that joined a batch are the places of their keys. -/
structure Indexed (s : ReplaceableEventLoader) : Prop where
  pending : s.PendingExists
  inFlight : ∀ key entry, s.inFlight.get? key = some entry → s.keyAt entry = some key
  loads : ∀ load ∈ s.loads, ∀ entry, load.outcome = .joined entry → s.keyAt entry = some load.key

theorem indexed_init : init.Indexed := by
  refine ⟨fun _ h => ?_, fun _ _ h => ?_, fun _ h => ?_⟩
  · cases h
  · cases h
  · exact absurd h List.not_mem_nil

theorem Indexed.load (h : s.Indexed) (request : ReplaceableEventRequest) :
    (s.load batchSize request).Indexed := by
  have hl := load_loaded batchSize h.pending request
  refine ⟨hl.pending, fun key entry hentry => ?_, fun load hload entry hjoined => ?_⟩
  · rcases hl.inFlight key entry hentry with hold | ⟨rfl, hat, -⟩
    · exact hl.grow entry key (h.inFlight key entry hold)
    · exact hat
  · obtain ⟨new, hloads, hkey, -, hplace⟩ := hl.record
    rw [hloads] at hload
    rcases List.mem_append.mp hload with hold | hnew
    · exact hl.grow entry load.key (h.loads load hold entry hjoined)
    · obtain rfl := List.mem_singleton.mp hnew
      rw [hkey]
      rcases hplace entry hjoined with hold | ⟨hat, -⟩
      · exact hl.grow entry _ (h.inFlight _ entry hold)
      · exact hat

/-- A step that neither loads nor puts a load in flight. -/
theorem Indexed.frame (h : s.Indexed) (hgrow : s.KeysGrow t) (hpending : t.PendingExists)
    (hinFlight : ∀ key entry, t.inFlight.get? key = some entry → s.inFlight.get? key = some entry)
    (hloads : t.loads = s.loads) : t.Indexed := by
  refine ⟨hpending, fun key entry hentry => ?_, fun load hload entry hjoined => ?_⟩
  · exact hgrow entry key (h.inFlight key entry (hinFlight key entry hentry))
  · exact hgrow entry load.key (h.loads load (hloads ▸ hload) entry hjoined)

theorem pendingExists_setBatch (h : s.PendingExists) (batch : LoadBatch) :
    (s.setBatch b batch).PendingExists := by
  intro b' hb'
  rw [setBatch, List.length_set]
  exact h b' hb'

/-- A batch of the loader moves on. -/
theorem Indexed.rephase (h : s.Indexed) {keys : List JsString} {phase phase' : BatchPhase}
    (hb : s.batches[b]? = some ⟨keys, phase⟩) : (s.setBatch b ⟨keys, phase'⟩).Indexed :=
  h.frame (keysGrow_rephase hb) (pendingExists_setBatch h.pending _) (fun _ _ hentry => hentry) rfl

theorem Indexed.finish (h : s.Indexed) {keys : List JsString} {phase : BatchPhase}
    (hb : s.batches[b]? = some ⟨keys, phase⟩) (answer : QueryResult) :
    (s.finish b keys answer).Indexed := by
  have hrephased : (s.setBatch b ⟨keys, .loaded (keys.map fun key =>
      resolveRequest key answer.events)⟩).Indexed := h.rephase hb
  exact ⟨hrephased.pending, hrephased.inFlight, hrephased.loads⟩

theorem storeValues_frame (s : ReplaceableEventLoader) (entries : List (JsString × Option Event)) :
    (entries.foldl storeValue s).batches = s.batches ∧
      (entries.foldl storeValue s).pendingBatch = s.pendingBatch ∧
        (entries.foldl storeValue s).inFlight = s.inFlight := by
  refine List.foldlRecOn (motive := fun u : ReplaceableEventLoader => u.batches = s.batches ∧
    u.pendingBatch = s.pendingBatch ∧ u.inFlight = s.inFlight) entries _ ⟨rfl, rfl, rfl⟩
      fun u hu entry _ => ?_
  unfold storeValue
  split
  · exact hu
  · exact hu

theorem Indexed.step {a : LoaderAction} (h : s.Indexed) (hs : s.step batchSize hasFallback a = some t) :
    t.Indexed := by
  cases a with
  | load request =>
    cases hs
    exact h.load request
  | prime event =>
    cases hs
    exact h.frame (keysGrow_of_batches rfl) h.pending (fun _ _ hentry => hentry) rfl
  | publishEvent event results =>
    cases hs
    unfold publishEvent
    split_ifs
    · exact h.frame (keysGrow_of_batches rfl) h.pending (fun _ _ hentry => hentry) rfl
    · exact h
  | clear request =>
    cases hs
    exact h.frame (keysGrow_of_batches rfl) h.pending (fun _ _ hentry => hentry) rfl
  | dispatch b =>
    obtain ⟨x, hx, rfl⟩ := Option.map_eq_some_iff.mp hs
    refine h.frame (keysGrow_rephase (collecting_eq_some hx)) ?_ (fun _ _ hentry => hentry) rfl
    intro b' hb'
    have hpending : (if s.pendingBatch = some b then none else s.pendingBatch) = some b' := hb'
    split_ifs at hpending
    simpa [setBatch] using h.pending b' hpending
  | primary b answer =>
    obtain ⟨x, hx, rfl⟩ := Option.map_eq_some_iff.mp hs
    have hb := askingPrimary_eq_some hx
    cases answer with
    | none => exact h.rephase hb
    | some primary =>
      dsimp only
      split_ifs
      · exact h.rephase hb
      · exact h.finish hb primary
  | fallback b answer =>
    obtain ⟨x, hx, rfl⟩ := Option.map_eq_some_iff.mp hs
    have hb := askingFallback_eq_some hx
    cases answer with
    | none => exact h.rephase hb
    | some fallback => exact h.finish hb _
  | store b =>
    obtain ⟨x, hx, rfl⟩ := Option.map_eq_some_iff.mp hs
    obtain ⟨hbatches, hpending, hinFlight⟩ := storeValues_frame s (x.1.zip x.2)
    have hstored : ((x.1.zip x.2).foldl storeValue s).Indexed := by
      refine h.frame (keysGrow_of_batches hbatches) ?_ ?_ storeValues_loads
      · intro b' hb'
        rw [hbatches]
        exact h.pending b' (hpending ▸ hb')
      · intro key entry hentry
        rwa [hinFlight] at hentry
    exact hstored.rephase (hbatches ▸ loaded_eq_some hx)
  | delivered entry =>
    obtain ⟨x, -, hx⟩ := Option.bind_eq_some_iff.mp hs
    obtain ⟨k, -, hk⟩ := Option.bind_eq_some_iff.mp hx
    split_ifs at hk
    cases hk
    refine h.frame (keysGrow_of_batches rfl) h.pending (fun key e hentry => ?_) rfl
    have hdeleted : (s.inFlight.delete k).get? key = some e := hentry
    rw [OrderedMap.get?_delete] at hdeleted
    split_ifs at hdeleted
    exact hdeleted
  | clock now =>
    cases hs
    exact h.frame (keysGrow_of_batches rfl) h.pending (fun _ _ hentry => hentry) rfl

/-- A load is never forgotten. -/
theorem loads_subset {a : LoaderAction} (hi : s.Indexed)
    (hs : s.step batchSize hasFallback a = some t) : s.loads ⊆ t.loads := by
  cases a with
  | load request =>
    cases hs
    obtain ⟨load, hloads, -⟩ := (load_loaded batchSize hi.pending request).record
    rw [hloads]
    exact List.subset_append_left _ _
  | prime event | clear request | clock now =>
    cases hs
    exact List.Subset.refl _
  | publishEvent event results =>
    cases hs
    unfold publishEvent
    split_ifs
    · exact List.Subset.refl _
    · exact List.Subset.refl _
  | dispatch b =>
    obtain ⟨x, -, rfl⟩ := Option.map_eq_some_iff.mp hs
    exact List.Subset.refl _
  | primary b answer =>
    obtain ⟨x, -, rfl⟩ := Option.map_eq_some_iff.mp hs
    cases answer with
    | none => exact List.Subset.refl _
    | some primary =>
      dsimp only
      split_ifs
      · exact List.Subset.refl _
      · exact List.Subset.refl _
  | fallback b answer =>
    obtain ⟨x, -, rfl⟩ := Option.map_eq_some_iff.mp hs
    cases answer with
    | none => exact List.Subset.refl _
    | some fallback => exact List.Subset.refl _
  | store b =>
    obtain ⟨x, -, rfl⟩ := Option.map_eq_some_iff.mp hs
    simp only [setBatch]
    rw [storeValues_loads]
    exact List.Subset.refl _
  | delivered entry =>
    obtain ⟨x, -, hx⟩ := Option.bind_eq_some_iff.mp hs
    obtain ⟨k, -, hk⟩ := Option.bind_eq_some_iff.mp hx
    split_ifs at hk
    cases hk
    exact List.Subset.refl _

end ReplaceableEventLoader

namespace TracedLoader

def init : TracedLoader := ⟨.init, fun _ => 0, fun _ => 0, []⟩

section Steps

variable (batchSize : Nat) (hasFallback : Bool) (epoch : Nat) (s : TracedLoader)

/-- What an answer brings counts for the epoch of its query. -/
def receive (epoch : Nat) (answer : Option QueryResult) : List Receipt :=
  s.received ++ (answer.elim [] QueryResult.events).map fun event => ⟨event, epoch⟩

/-- One step of the loader, in an epoch. -/
def step : LoaderAction → Option TracedLoader
  | .dispatch b => (s.loader.step batchSize hasFallback (.dispatch b)).map fun t =>
      { s with loader := t, primaryEpoch := Function.update s.primaryEpoch b epoch }
  | .primary b answer => (s.loader.step batchSize hasFallback (.primary b answer)).map fun t =>
      { s with
        loader := t
        fallbackEpoch := Function.update s.fallbackEpoch b epoch
        received := s.receive (s.primaryEpoch b) answer }
  | .fallback b answer => (s.loader.step batchSize hasFallback (.fallback b answer)).map fun t =>
      { s with loader := t, received := s.receive (s.fallbackEpoch b) answer }
  | a => (s.loader.step batchSize hasFallback a).map fun t => { s with loader := t }

end Steps

section Since

variable {batchSize : Nat} {hasFallback : Bool} {epoch r : Nat} {s t : TracedLoader} {key : JsString}
variable {load : LoadRecord}

/-- The event was asked for or streamed after epoch `r`. -/
def Received (s : TracedLoader) (r : Nat) (event : Event) : Prop :=
  ∃ receipt ∈ s.received, receipt.event = event ∧ r < receipt.epoch

def ReceivedFor (s : TracedLoader) (r : Nat) (key : JsString) (event : Event) : Prop :=
  coordinateOf event = key ∧ s.Received r event

/-- What the batch will bring for the key, or has brought, is asked for after epoch `r`. -/
def PhaseSince (s : TracedLoader) (r : Nat) (key : JsString) (b : Nat) (keys : List JsString) :
    BatchPhase → Prop
  | .collecting => True
  | .primary => r < s.primaryEpoch b
  | .fallback primary => r < s.fallbackEpoch b ∧ ∀ event ∈ primary.events, s.Received r event
  | .loaded values | .settled values => ∀ (i : Nat) (event : Event), keys[i]? = some key →
      values[i]? = some (some event) → s.ReceivedFor r key event

def BatchSince (s : TracedLoader) (r : Nat) (key : JsString) (b : Nat) : Prop :=
  ∀ batch ∈ s.loader.batches[b]?, s.PhaseSince r key b batch.keys batch.phase

/-- A load of the key will get only what was asked for after epoch `r`. -/
structure ServesSince (s : TracedLoader) (r : Nat) (key : JsString) : Prop where
  cache : ∀ event, s.loader.cache.cache.get? key = some event → s.ReceivedFor r key event
  inFlight : ∀ entry, s.loader.inFlight.get? key = some entry → s.BatchSince r key entry.batch
  batches : ∀ (b : Nat) (batch : LoadBatch), s.loader.batches[b]? = some batch → key ∈ batch.keys →
    (∀ values, batch.phase ≠ .settled values) → s.PhaseSince r key b batch.keys batch.phase

/-- The load gets, or got, only what was asked for after epoch `r`. -/
def LoadSince (s : TracedLoader) (r : Nat) (load : LoadRecord) : Prop :=
  (∀ event, load.outcome = .resolved (some event) → s.ReceivedFor r load.key event) ∧
    ∀ entry, load.outcome = .joined entry → s.BatchSince r load.key entry.batch

theorem LoadSince.resultOf (h : s.LoadSince r load) (hi : s.loader.Indexed)
    (hload : load ∈ s.loader.loads) {event : Event}
    (hresult : s.loader.resultOf load = some (some event)) : s.ReceivedFor r load.key event := by
  unfold ReplaceableEventLoader.resultOf at hresult
  split at hresult
  · rename_i value hvalue
    obtain rfl : value = some event := Option.some.inj hresult
    exact h.1 event hvalue
  · rename_i entry hentry
    obtain ⟨x, hx, hvalue⟩ := Option.map_eq_some_iff.mp hresult
    have hb := ReplaceableEventLoader.settled_eq_some hx
    have hat := hi.loads load hload entry hentry
    rw [ReplaceableEventLoader.keyAt, ReplaceableEventLoader.keysOf_of_getElem? hb] at hat
    exact h.2 entry hentry _ hb entry.index event hat (Option.join_eq_some_iff.mp hvalue)

/-- What was received stays received. -/
theorem Received.mono {event : Event} (h : s.Received r event) (hreceived : s.received ⊆ t.received) :
    t.Received r event := by
  obtain ⟨receipt, hmem, hevent⟩ := h
  exact ⟨receipt, hreceived hmem, hevent⟩

theorem PhaseSince.mono {b : Nat} {keys : List JsString} {phase : BatchPhase}
    (h : s.PhaseSince r key b keys phase) (hprimary : t.primaryEpoch b = s.primaryEpoch b)
    (hfallback : t.fallbackEpoch b = s.fallbackEpoch b) (hreceived : s.received ⊆ t.received) :
    t.PhaseSince r key b keys phase := by
  cases phase with
  | collecting => trivial
  | primary => exact lt_of_lt_of_eq h hprimary.symm
  | fallback primary =>
    exact ⟨lt_of_lt_of_eq h.1 hfallback.symm, fun event he => (h.2 event he).mono hreceived⟩
  | loaded values =>
    intro i event hkey hvalue
    obtain ⟨hcoord, hevent⟩ := h i event hkey hvalue
    exact ⟨hcoord, hevent.mono hreceived⟩
  | settled values =>
    intro i event hkey hvalue
    obtain ⟨hcoord, hevent⟩ := h i event hkey hvalue
    exact ⟨hcoord, hevent.mono hreceived⟩

/-- What a query brings in answer counts for its epoch. -/
theorem received_receive {answer : QueryResult} {event : Event} (h : r < epoch)
    (hevent : event ∈ answer.events) (hreceived : t.received = s.receive epoch (some answer)) :
    t.Received r event := by
  refine ⟨⟨event, epoch⟩, ?_, rfl, h⟩
  rw [hreceived]
  exact List.mem_append_right _ (List.mem_map_of_mem hevent)

theorem resolveRequest_mem {events : List Event} {event : Event}
    (h : resolveRequest key events = some event) : event ∈ events := by
  unfold resolveRequest at h
  dsimp only at h
  split at h
  · rename_i exact' hexact
    exact Option.some.inj h ▸ (newestUnder_mem hexact).1
  · split_ifs at h
    exact (newestUnder_mem h).1

/-- When all that a batch has received was asked for after the epoch, so is what it resolves to. -/
theorem phaseSince_finish {b : Nat} {keys : List JsString} {events : List Event}
    (hkey : isAddressableKind (parseKey key).kind = false)
    (hevents : ∀ event ∈ events, s.Received r event) :
    s.PhaseSince r key b keys (.loaded (keys.map fun key => resolveRequest key events)) := by
  intro i event hi hvalue
  rw [List.getElem?_map, hi, Option.map_some] at hvalue
  have hresolved : resolveRequest key events = some event := Option.some.inj hvalue
  exact ⟨resolveRequest_coordinate hresolved (.inl hkey), hevents event (resolveRequest_mem hresolved)⟩

/-- A batch whose query threw brings nothing. -/
theorem phaseSince_none {b : Nat} {keys : List JsString} :
    s.PhaseSince r key b keys (.loaded (keys.map fun _ => none)) := by
  intro i event _ hvalue
  rw [List.getElem?_map] at hvalue
  obtain ⟨_, -, hnone⟩ := Option.map_eq_some_iff.mp hvalue
  cases hnone

/-- What a step does to a batch: it moves on with its keys, or still collects. -/
structure MovedOn (s t : TracedLoader) (r : Nat) (key : JsString) (b : Nat) (old new : LoadBatch) :
    Prop where
  keys : new.keys = old.keys
  settled : ∀ values, old.phase = .settled values → new.phase = .settled values
  since : s.PhaseSince r key b old.keys old.phase → t.PhaseSince r key b new.keys new.phase

theorem movedOn_same {b : Nat} {batch : LoadBatch} (hprimary : t.primaryEpoch b = s.primaryEpoch b)
    (hfallback : t.fallbackEpoch b = s.fallbackEpoch b) (hreceived : s.received ⊆ t.received) :
    s.MovedOn t r key b batch batch :=
  ⟨rfl, fun _ h => h, fun h => h.mono hprimary hfallback hreceived⟩

/-- A step that rewrites one batch, with its keys. -/
theorem movedOn_setBatch {b b' : Nat} {keys : List JsString} {phase : BatchPhase}
    {batch : LoadBatch} (phase' : BatchPhase) (hb : s.loader.batches[b]? = some ⟨keys, phase⟩)
    (hunsettled : ∀ values, phase ≠ .settled values)
    (hloader : t.loader.batches = (s.loader.setBatch b ⟨keys, phase'⟩).batches)
    (hprimary : b' ≠ b → t.primaryEpoch b' = s.primaryEpoch b')
    (hfallback : b' ≠ b → t.fallbackEpoch b' = s.fallbackEpoch b')
    (hreceived : s.received ⊆ t.received)
    (hsince : s.PhaseSince r key b keys phase → t.PhaseSince r key b keys phase')
    (hbatch : t.loader.batches[b']? = some batch) :
    ∃ old, s.loader.batches[b']? = some old ∧ s.MovedOn t r key b' old batch := by
  rw [hloader] at hbatch
  rcases ReplaceableEventLoader.getElem?_setBatch hbatch with ⟨rfl, rfl⟩ | ⟨hne, hold⟩
  · exact ⟨_, hb, rfl, fun values h => absurd h (hunsettled values), hsince⟩
  · exact ⟨batch, hold, movedOn_same (hprimary hne) (hfallback hne) hreceived⟩

/-- A step leaves each batch collecting, or moves it on. -/
theorem step_batches {a : LoaderAction} (hr : r < epoch)
    (hkey : isAddressableKind (parseKey key).kind = false) (hi : s.loader.Indexed)
    (hs : s.step batchSize hasFallback epoch a = some t) {b : Nat} {batch : LoadBatch}
    (hbatch : t.loader.batches[b]? = some batch) : batch.phase = .collecting ∨
      ∃ old, s.loader.batches[b]? = some old ∧ s.MovedOn t r key b old batch := by
  have hself : ∀ {batch' : LoadBatch}, s.loader.batches[b]? = some batch' →
      t.primaryEpoch b = s.primaryEpoch b → t.fallbackEpoch b = s.fallbackEpoch b →
        s.received ⊆ t.received →
          ∃ old, s.loader.batches[b]? = some old ∧ s.MovedOn t r key b old batch' :=
    fun hold hprimary hfallback hreceived =>
      ⟨_, hold, movedOn_same hprimary hfallback hreceived⟩
  cases a with
  | load request =>
    cases hs
    have hl := ReplaceableEventLoader.load_loaded batchSize hi.pending request
    rcases hl.batches b batch hbatch with hold | hcollecting
    · exact .inr (hself hold rfl rfl (List.Subset.refl _))
    · exact .inl hcollecting
  | prime event =>
    cases hs
    exact .inr (hself hbatch rfl rfl (List.Subset.refl _))
  | publishEvent event results =>
    cases hs
    have hold : s.loader.batches[b]? = some batch := by
      unfold ReplaceableEventLoader.publishEvent at hbatch
      split_ifs at hbatch
      · exact hbatch
      · exact hbatch
    exact .inr (hself hold rfl rfl (List.Subset.refl _))
  | clear request =>
    cases hs
    exact .inr (hself hbatch rfl rfl (List.Subset.refl _))
  | clock now =>
    cases hs
    exact .inr (hself hbatch rfl rfl (List.Subset.refl _))
  | delivered entry =>
    obtain ⟨u, hu, rfl⟩ := Option.map_eq_some_iff.mp hs
    obtain ⟨x, -, hx⟩ := Option.bind_eq_some_iff.mp hu
    obtain ⟨k, -, hk⟩ := Option.bind_eq_some_iff.mp hx
    split_ifs at hk
    cases hk
    exact .inr (hself hbatch rfl rfl (List.Subset.refl _))
  | dispatch b₀ =>
    obtain ⟨u, hu, rfl⟩ := Option.map_eq_some_iff.mp hs
    obtain ⟨x, hx, rfl⟩ := Option.map_eq_some_iff.mp hu
    have hb := ReplaceableEventLoader.collecting_eq_some hx
    right
    refine movedOn_setBatch .primary hb (by simp) rfl (fun hne => Function.update_of_ne hne _ _)
      (fun _ => rfl) (List.Subset.refl _) (fun _ => ?_) hbatch
    exact lt_of_lt_of_eq hr (Function.update_self b₀ epoch s.primaryEpoch).symm
  | primary b₀ answer =>
    obtain ⟨u, hu, rfl⟩ := Option.map_eq_some_iff.mp hs
    obtain ⟨x, hx, rfl⟩ := Option.map_eq_some_iff.mp hu
    have hb := ReplaceableEventLoader.askingPrimary_eq_some hx
    right
    cases answer with
    | none =>
      refine movedOn_setBatch _ hb (by simp) rfl (fun _ => rfl)
        (fun hne => Function.update_of_ne hne _ _) (List.subset_append_left _ _) (fun _ => ?_) hbatch
      exact phaseSince_none
    | some primary =>
      have hreceived : r < s.primaryEpoch b₀ → ∀ event ∈ primary.events,
          Received { s with received := s.receive (s.primaryEpoch b₀) (some primary) } r event :=
        fun hepoch event he => received_receive hepoch he rfl
      dsimp only at hbatch ⊢
      split_ifs at hbatch with hasks
      · refine movedOn_setBatch (.fallback primary) hb (by simp) (by rw [if_pos hasks]) (fun _ => rfl)
          (fun hne => Function.update_of_ne hne _ _) (List.subset_append_left _ _)
          (fun hold => ⟨?_, hreceived hold⟩) (by rw [if_pos hasks]; exact hbatch)
        exact lt_of_lt_of_eq hr (Function.update_self b₀ epoch s.fallbackEpoch).symm
      · refine movedOn_setBatch _ hb (by simp) (by rw [if_neg hasks]; rfl) (fun _ => rfl)
          (fun hne => Function.update_of_ne hne _ _) (List.subset_append_left _ _)
          (fun hold => ?_) (by rw [if_neg hasks]; exact hbatch)
        exact phaseSince_finish hkey (hreceived hold)
  | fallback b₀ answer =>
    obtain ⟨u, hu, rfl⟩ := Option.map_eq_some_iff.mp hs
    obtain ⟨x, hx, rfl⟩ := Option.map_eq_some_iff.mp hu
    have hb := ReplaceableEventLoader.askingFallback_eq_some hx
    right
    cases answer with
    | none =>
      refine movedOn_setBatch _ hb (by simp) rfl (fun _ => rfl) (fun _ => rfl)
        (List.subset_append_left _ _) (fun _ => ?_) hbatch
      exact phaseSince_none
    | some fallback =>
      refine movedOn_setBatch _ hb (by simp) rfl (fun _ => rfl) (fun _ => rfl)
        (List.subset_append_left _ _) (fun hold => ?_) hbatch
      refine phaseSince_finish hkey fun event he => ?_
      rcases List.mem_append.mp he with hearlier | hlater
      · exact (hold.2 event hearlier).mono (List.subset_append_left _ _)
      · exact received_receive hold.1 hlater rfl
  | store b₀ =>
    obtain ⟨u, hu, rfl⟩ := Option.map_eq_some_iff.mp hs
    obtain ⟨x, hx, rfl⟩ := Option.map_eq_some_iff.mp hu
    have hb := ReplaceableEventLoader.loaded_eq_some hx
    have hstored := ReplaceableEventLoader.storeValues_frame s.loader (x.1.zip x.2)
    right
    refine movedOn_setBatch (.settled x.2) hb (by simp) ?_ (fun _ => rfl) (fun _ => rfl) (List.Subset.refl _)
      (fun hold => hold) hbatch
    simp only [ReplaceableEventLoader.setBatch, hstored.1]

theorem BatchSince.step {a : LoaderAction} {b : Nat} (h : s.BatchSince r key b) (hr : r < epoch)
    (hkey : isAddressableKind (parseKey key).kind = false) (hi : s.loader.Indexed)
    (hs : s.step batchSize hasFallback epoch a = some t) : t.BatchSince r key b := by
  intro batch hbatch
  rcases step_batches hr hkey hi hs hbatch with hcollecting | ⟨old, hold, hmoved⟩
  · rw [hcollecting]
    trivial
  · exact hmoved.since (h old hold)

theorem LoadSince.step {a : LoaderAction} (h : s.LoadSince r load) (hr : r < epoch)
    (hkey : isAddressableKind (parseKey load.key).kind = false) (hi : s.loader.Indexed)
    (hreceived : s.received ⊆ t.received)
    (hs : s.step batchSize hasFallback epoch a = some t) : t.LoadSince r load := by
  refine ⟨fun event he => ?_, fun entry he => (h.2 entry he).step hr hkey hi hs⟩
  obtain ⟨hcoord, hevent⟩ := h.1 event he
  exact ⟨hcoord, hevent.mono hreceived⟩

/-- The record of the queries decides nothing, and it only grows. -/
theorem step_loader {a : LoaderAction} (hs : s.step batchSize hasFallback epoch a = some t) :
    s.loader.step batchSize hasFallback a = some t.loader ∧ s.received ⊆ t.received := by
  cases a with
  | primary b answer | fallback b answer =>
    simp only [step] at hs
    obtain ⟨u, hu, rfl⟩ := Option.map_eq_some_iff.mp hs
    exact ⟨hu, List.subset_append_left _ _⟩
  | load | prime | publishEvent | clear | dispatch | store | delivered | clock =>
    simp only [step] at hs
    obtain ⟨u, hu, rfl⟩ := Option.map_eq_some_iff.mp hs
    exact ⟨hu, List.Subset.refl _⟩

/-- Only a publication puts into the cache what no batch brought. -/
def installs : LoaderAction → Bool
  | .prime _ | .publishEvent _ _ => true
  | _ => false

theorem storeValues_get? {u : ReplaceableEventLoader} {entries : List (JsString × Option Event)}
    {event : Event}
    (h : (entries.foldl ReplaceableEventLoader.storeValue u).cache.cache.get? key = some event) :
    u.cache.cache.get? key = some event ∨ (key, some event) ∈ entries := by
  induction entries generalizing u with
  | nil => exact .inl h
  | cons entry entries ih =>
    rcases ih h with hone | hmem
    · unfold ReplaceableEventLoader.storeValue at hone
      split at hone
      · exact .inl hone
      · rename_i stored hvalue
        by_cases hkey : key = entry.1
        · subst hkey
          have hself : some stored = some event := LruCache.get?_set_self.symm.trans hone
          right
          rw [← Option.some.inj hself, ← hvalue]
          exact List.mem_cons_self
        · exact .inl (LruCache.get?_set_of_ne hkey hone)
    · exact .inr (List.mem_cons_of_mem _ hmem)

/-- What a step leaves of the cache was in it, or a batch brought it. -/
theorem step_cache {a : LoaderAction} {event : Event} (hinstalls : installs a = false)
    (hi : s.loader.Indexed) (hs : s.step batchSize hasFallback epoch a = some t)
    (hcached : t.loader.cache.cache.get? key = some event) :
    s.loader.cache.cache.get? key = some event ∨
      ∃ (b : Nat) (keys : List JsString) (values : List (Option Event)) (i : Nat),
        s.loader.batches[b]? = some ⟨keys, .loaded values⟩ ∧ keys[i]? = some key ∧
          values[i]? = some (some event) := by
  have hloader := (step_loader hs).1
  obtain ⟨u, hu⟩ : ∃ u, t.loader = u := ⟨_, rfl⟩
  rw [hu] at hcached hloader
  cases a with
  | load request =>
    cases hloader
    rw [(ReplaceableEventLoader.load_loaded batchSize hi.pending request).cache] at hcached
    exact .inl hcached
  | prime event => cases hinstalls
  | publishEvent event results => cases hinstalls
  | clear request =>
    cases hloader
    have hdeleted : (s.loader.cache.delete (toKey request)).cache.get? key = some event := hcached
    rw [LruCache.get?_delete] at hdeleted
    split_ifs at hdeleted
    exact .inl hdeleted
  | clock now =>
    cases hloader
    exact .inl hcached
  | dispatch b =>
    obtain ⟨x, -, rfl⟩ := Option.map_eq_some_iff.mp hloader
    exact .inl hcached
  | primary b answer =>
    obtain ⟨x, -, rfl⟩ := Option.map_eq_some_iff.mp hloader
    left
    cases answer with
    | none => exact hcached
    | some primary =>
      dsimp only at hcached
      split_ifs at hcached
      · exact hcached
      · exact hcached
  | fallback b answer =>
    obtain ⟨x, -, rfl⟩ := Option.map_eq_some_iff.mp hloader
    left
    cases answer with
    | none => exact hcached
    | some fallback => exact hcached
  | store b =>
    obtain ⟨x, hx, rfl⟩ := Option.map_eq_some_iff.mp hloader
    rcases storeValues_get? hcached with hold | hmem
    · exact .inl hold
    · obtain ⟨i, hi⟩ := List.mem_iff_getElem?.mp hmem
      obtain ⟨hkey, hvalue⟩ := List.getElem?_zip_eq_some.mp hi
      exact .inr ⟨b, x.1, x.2, i, ReplaceableEventLoader.loaded_eq_some hx, hkey, hvalue⟩
  | delivered entry =>
    obtain ⟨x, -, hx⟩ := Option.bind_eq_some_iff.mp hloader
    obtain ⟨k, -, hk⟩ := Option.bind_eq_some_iff.mp hx
    split_ifs at hk
    cases hk
    exact .inl hcached

/-- A load that a step puts in flight takes its place in a batch that still collects. -/
theorem step_inFlight {a : LoaderAction} {entry : BatchEntry} (hi : s.loader.Indexed)
    (hs : s.step batchSize hasFallback epoch a = some t)
    (hentry : t.loader.inFlight.get? key = some entry) :
    s.loader.inFlight.get? key = some entry ∨ t.loader.Collects entry := by
  have hloader := (step_loader hs).1
  obtain ⟨u, hu⟩ : ∃ u, t.loader = u := ⟨_, rfl⟩
  rw [hu] at hentry hloader ⊢
  cases a with
  | load request =>
    cases hloader
    rcases (ReplaceableEventLoader.load_loaded batchSize hi.pending request).inFlight key entry hentry with
      hold | ⟨-, -, hcollects⟩
    · exact .inl hold
    · exact .inr hcollects
  | prime event | clear request | clock now =>
    cases hloader
    exact .inl hentry
  | publishEvent event results =>
    cases hloader
    unfold ReplaceableEventLoader.publishEvent at hentry
    split_ifs at hentry
    · exact .inl hentry
    · exact .inl hentry
  | dispatch b =>
    obtain ⟨x, -, rfl⟩ := Option.map_eq_some_iff.mp hloader
    exact .inl hentry
  | primary b answer =>
    obtain ⟨x, -, rfl⟩ := Option.map_eq_some_iff.mp hloader
    left
    cases answer with
    | none => exact hentry
    | some primary =>
      dsimp only at hentry
      split_ifs at hentry
      · exact hentry
      · exact hentry
  | fallback b answer =>
    obtain ⟨x, -, rfl⟩ := Option.map_eq_some_iff.mp hloader
    left
    cases answer with
    | none => exact hentry
    | some fallback => exact hentry
  | store b =>
    obtain ⟨x, -, rfl⟩ := Option.map_eq_some_iff.mp hloader
    left
    rw [← (ReplaceableEventLoader.storeValues_frame _ (x.1.zip x.2)).2.2]
    exact hentry
  | delivered place =>
    obtain ⟨x, -, hx⟩ := Option.bind_eq_some_iff.mp hloader
    obtain ⟨k, -, hk⟩ := Option.bind_eq_some_iff.mp hx
    split_ifs at hk
    cases hk
    have hdeleted : (s.loader.inFlight.delete k).get? key = some entry := hentry
    rw [OrderedMap.get?_delete] at hdeleted
    split_ifs at hdeleted
    exact .inl hdeleted

theorem ServesSince.step {a : LoaderAction} (h : s.ServesSince r key) (hr : r < epoch)
    (hkey : isAddressableKind (parseKey key).kind = false) (hinstalls : installs a = false)
    (hi : s.loader.Indexed) (hs : s.step batchSize hasFallback epoch a = some t) :
    t.ServesSince r key := by
  have hreceived := (step_loader hs).2
  refine ⟨fun event hcached => ?_, fun entry hentry => ?_, fun b batch hbatch hmem hunsettled => ?_⟩
  · rcases step_cache hinstalls hi hs hcached with hold | ⟨b, keys, values, i, hb, hat, hvalue⟩
    · obtain ⟨hcoord, hevent⟩ := h.cache event hold
      exact ⟨hcoord, hevent.mono hreceived⟩
    · have hsince := h.batches b _ hb (List.mem_of_getElem? hat) (by simp)
      obtain ⟨hcoord, hevent⟩ := hsince i event hat hvalue
      exact ⟨hcoord, hevent.mono hreceived⟩
  · rcases step_inFlight hi hs hentry with hold | hcollects
    · exact (h.inFlight entry hold).step hr hkey hi hs
    · intro batch hbatch
      rw [hcollects batch hbatch]
      trivial
  · rcases step_batches hr hkey hi hs hbatch with hcollecting | ⟨old, hold, hmoved⟩
    · rw [hcollecting]
      trivial
    · refine hmoved.since (h.batches b old hold (hmoved.keys ▸ hmem) fun values hsettled => ?_)
      exact hunsettled values (hmoved.settled values hsettled)

end Since

section Loads

variable {r : Nat} {s t : TracedLoader} {key : JsString}

/-- The batches and the epochs of their queries are the same, and what was received stays received. -/
structure SameBatches (s t : TracedLoader) : Prop where
  batches : t.loader.batches = s.loader.batches
  primary : t.primaryEpoch = s.primaryEpoch
  fallback : t.fallbackEpoch = s.fallbackEpoch
  received : s.received ⊆ t.received

theorem ReceivedFor.mono {event : Event} (h : s.ReceivedFor r key event)
    (hreceived : s.received ⊆ t.received) : t.ReceivedFor r key event :=
  ⟨h.1, h.2.mono hreceived⟩

theorem BatchSince.mono {b : Nat} (h : s.BatchSince r key b) (hsame : s.SameBatches t) :
    t.BatchSince r key b := by
  intro batch hbatch
  rw [hsame.batches] at hbatch
  exact (h batch hbatch).mono (congrFun hsame.primary b) (congrFun hsame.fallback b) hsame.received

theorem LoadSince.mono {load : LoadRecord} (h : s.LoadSince r load) (hsame : s.SameBatches t) :
    t.LoadSince r load :=
  ⟨fun event he => (h.1 event he).mono hsame.received,
    fun entry he => (h.2 entry he).mono hsame⟩

/-- A step that puts nothing under the key into the cache and starts no load. -/
theorem ServesSince.mono (h : s.ServesSince r key) (hsame : s.SameBatches t)
    (hinFlight : t.loader.inFlight = s.loader.inFlight)
    (hcache : ∀ event, t.loader.cache.cache.get? key = some event →
      s.loader.cache.cache.get? key = some event) : t.ServesSince r key := by
  refine ⟨fun event hcached => ?_, fun entry hentry => ?_, fun b batch hbatch hmem hunsettled => ?_⟩
  · exact (h.cache event (hcache event hcached)).mono hsame.received
  · exact (h.inFlight entry (hinFlight ▸ hentry)).mono hsame
  · rw [hsame.batches] at hbatch
    exact (h.batches b batch hbatch hmem hunsettled).mono (congrFun hsame.primary b)
      (congrFun hsame.fallback b) hsame.received

/-- An event of another coordinate, published meanwhile, is none of the key's. -/
theorem ServesSince.prime (h : s.ServesSince r key) {event : Event} (hne : coordinateOf event ≠ key) :
    ServesSince { s with loader := s.loader.prime event } r key :=
  h.mono ⟨rfl, rfl, rfl, List.Subset.refl _⟩ rfl
    fun _ hcached => LruCache.get?_set_of_ne hne.symm hcached

def load (batchSize : Nat) (s : TracedLoader) (request : ReplaceableEventRequest) : TracedLoader :=
  { s with loader := s.loader.load batchSize request }

theorem load_step (batchSize epoch : Nat) (request : ReplaceableEventRequest) :
    s.step batchSize false epoch (.load request) = some (s.load batchSize request) := rfl

/-- A load gets only what was asked for after epoch `r` when its key is served only that. -/
theorem load_record (batchSize : Nat) (request : ReplaceableEventRequest) (hi : s.loader.Indexed)
    (hkey : isAddressableKind (parseKey (toKey request)).kind = false) :
    ∃ new : LoadRecord, (s.load batchSize request).loader.loads = s.loader.loads ++ [new] ∧
      new.key = toKey request ∧
        ∀ r, s.ServesSince r (toKey request) → (s.load batchSize request).LoadSince r new := by
  obtain ⟨new, hloads, hnew, hresolved, hjoined⟩ :=
    (ReplaceableEventLoader.load_loaded batchSize hi.pending request).record
  refine ⟨new, hloads, hnew, fun r h => ⟨fun event he => ?_, fun entry he => ?_⟩⟩
  · rw [hnew]
    exact h.cache event (hresolved event he)
  · rw [hnew]
    rcases hjoined entry he with hflight | ⟨-, hcollects⟩
    · exact (h.inFlight entry hflight).step (Nat.lt_succ_self r) hkey hi
        (load_step batchSize (r + 1) request)
    · intro batch hbatch
      rw [hcollects batch hbatch]
      trivial

/-- `fetchProfileEvents` -/
def fetchProfileEvents (batchSize : Nat) (s : TracedLoader) (pubkeys : List JsString) :
    TracedLoader :=
  pubkeys.foldl (fun t pubkey => t.load batchSize ⟨pubkey, 0, none⟩) s

/-- What the loads of a dispatch are, and what they leave alone. -/
structure Fetching (s t : TracedLoader) (pubkeys : List JsString) (new : List LoadRecord) :
    Prop where
  indexed : t.loader.Indexed
  loads : t.loader.loads = s.loader.loads ++ new
  keys : new.map LoadRecord.key = pubkeys.map profileKey
  received : t.received = s.received
  since : ∀ r pubkey load, load.key = profileKey pubkey → s.LoadSince r load → t.LoadSince r load
  serves : ∀ r pubkey, s.ServesSince r (profileKey pubkey) → t.ServesSince r (profileKey pubkey)
  new : ∀ r pubkey, s.ServesSince r (profileKey pubkey) → ∀ load ∈ new,
    load.key = profileKey pubkey → t.LoadSince r load

theorem fetchProfileEvents_fetching (batchSize : Nat) (pubkeys : List JsString) (hi : s.loader.Indexed) :
    ∃ new, Fetching s (s.fetchProfileEvents batchSize pubkeys) pubkeys new := by
  induction pubkeys generalizing s with
  | nil =>
    exact ⟨[], hi, (List.append_nil _).symm, rfl, rfl, fun _ _ _ _ h => h, fun _ _ h => h,
      fun _ _ _ _ hload => absurd hload List.not_mem_nil⟩
  | cons pubkey pubkeys ih =>
    obtain ⟨first, hloads, hkey, hfirst⟩ :=
      load_record batchSize ⟨pubkey, 0, none⟩ hi (profileKey_plain pubkey)
    obtain ⟨rest, hrest⟩ := @ih (s.load batchSize ⟨pubkey, 0, none⟩) (hi.load _)
    have hstep : ∀ r, s.step batchSize false (r + 1) (.load ⟨pubkey, 0, none⟩) =
        some (s.load batchSize ⟨pubkey, 0, none⟩) := fun r => load_step batchSize (r + 1) _
    have hserves : ∀ r p, s.ServesSince r (profileKey p) →
        (s.load batchSize ⟨pubkey, 0, none⟩).ServesSince r (profileKey p) := fun r p h =>
      h.step (Nat.lt_succ_self r) (profileKey_plain p) rfl hi (hstep r)
    refine ⟨first :: rest, hrest.indexed, ?_, ?_, hrest.received, ?_, ?_, ?_⟩
    · have hlater := hrest.loads
      rw [hloads, List.append_assoc] at hlater
      exact hlater
    · rw [List.map_cons, List.map_cons, hrest.keys, hkey]
      rfl
    · intro r p load hload h
      refine hrest.since r p load hload
        (h.step (Nat.lt_succ_self r) ?_ hi (List.Subset.refl _) (hstep r))
      rw [hload]
      exact profileKey_plain p
    · exact fun r p h => hrest.serves r p (hserves r p h)
    · intro r p h load hmem hload
      rcases List.mem_cons.mp hmem with rfl | hlater
      · apply hrest.since r p load hload
        apply hfirst r
        rw [← hkey, hload]
        exact h
      · exact hrest.new r p (hserves r p h) load hlater hload

end Loads

end TracedLoader

end LivelierBridge.Nostr
