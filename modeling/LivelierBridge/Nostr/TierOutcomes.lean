import LivelierBridge.Nostr.BatchIndependence
import LivelierBridge.Nostr.TracedLoader

namespace LivelierBridge.Nostr.ReplaceableEventLoader

open Framework Js

abbrev MissLedger := OrderedMap JsString FailedProfileFetch

section Outcomes

variable (s : ReplaceableEventLoader) (hasFallback : Bool) (keys : List JsString)

/-- The values and the misses of a batch whose tiers brought `answer`. -/
def settle (answer : QueryResult) : List (Option Event) × MissLedger :=
  let resolved := fun key => resolveRequest key answer.events
  (keys.map resolved, keys.foldl (s.recordOutcome answer.eoseCount resolved) s.missLedger)

/-- The values and the misses that a batch is left with by what its two tiers answer; a tier that
throws answers `none`. -/
def loadViaBigRelays (primary fallback : Option QueryResult) : List (Option Event) × MissLedger :=
  let failed := (keys.map fun _ => none, s.missLedger)
  match primary with
  | none => failed
  | some primary =>
    if asksFallback hasFallback keys primary then
      match fallback with
      | none => failed
      | some fallback => s.settle keys (primary.concat fallback)
    else s.settle keys primary

/-- The steps of a batch whose tiers answer. -/
def answered (b : Nat) (primary fallback : Option QueryResult) : List LoaderAction :=
  .primary b primary ::
    if primary.any (asksFallback hasFallback keys) then [.fallback b fallback] else []

/-- A tier was asked and some relay of it said that it has nothing more. -/
def Eosed (tier : Option QueryResult) : Prop := ∃ answer ∈ tier, 0 < answer.eoseCount

/-- The key has a miss recorded that it had not before. -/
def Recorded (before after : MissLedger) (key : JsString) : Prop :=
  ∃ miss, after.get? key = some miss ∧ before.get? key ≠ some miss

/-- A miss is recorded on the word of every tier that the key was asked on, and no key that is
resolved keeps one. -/
structure MissesSound (primary fallback : Option QueryResult) : Prop where
  recorded : ∀ key, (parseKey key).kind ≠ 0 →
    Recorded s.missLedger (s.loadViaBigRelays hasFallback keys primary fallback).2 key →
      (key, none) ∈ keys.zip (s.loadViaBigRelays hasFallback keys primary fallback).1 ∧ Eosed primary ∧
        (hasFallback = true → (∀ answer ∈ primary, resolveRequest key answer.events = none) →
          Eosed fallback)
  resolved : ∀ key event,
    (key, some event) ∈ keys.zip (s.loadViaBigRelays hasFallback keys primary fallback).1 →
      (s.loadViaBigRelays hasFallback keys primary fallback).2.get? key = none

/-- What the first tier resolves is resolved to that or something newer, and has no miss recorded. -/
def KeepsPrimary (primary fallback : Option QueryResult) : Prop :=
  ∀ answer ∈ primary, ∀ key ∈ keys, ∀ event, resolveRequest key answer.events = some event →
    (∃ value, (key, some value) ∈ keys.zip (s.loadViaBigRelays hasFallback keys primary fallback).1 ∧
        event.created_at ≤ value.created_at) ∧
      (s.loadViaBigRelays hasFallback keys primary fallback).2.get? key = none

end Outcomes

section Ledger

variable {s t : ReplaceableEventLoader} {hasFallback : Bool} {batchSize : Nat} {keys : List JsString}
  {key : JsString} {eoseCount : Nat} {resolved : JsString → Option Event} {ledger : MissLedger}

def attemptsOf (ledger : MissLedger) (key : JsString) : Nat :=
  ((ledger.get? key).map FailedProfileFetch.attempts).getD 0

theorem recordOutcome_of_ne {k : JsString} (h : key ≠ k) :
    (s.recordOutcome eoseCount resolved ledger k).get? key = ledger.get? key := by
  unfold recordOutcome
  split_ifs
  · rfl
  · rw [OrderedMap.get?_delete, if_neg h]
  · rw [recordFailedProfileFetch, OrderedMap.get?_set_of_ne _ h]
  · rfl

theorem recordOutcomes_of_notMem (h : key ∉ keys) :
    (keys.foldl (s.recordOutcome eoseCount resolved) ledger).get? key = ledger.get? key := by
  induction keys generalizing ledger with
  | nil => rfl
  | cons k keys ih =>
    obtain ⟨hk, hkeys⟩ : key ≠ k ∧ key ∉ keys := by simpa using h
    rw [List.foldl_cons, ih hkeys, recordOutcome_of_ne hk]

/-- A batch leaves the record of a key alone, or deletes it, unless it misses the key. -/
theorem recordOutcomes_keeps
    (h : (parseKey key).kind = 0 ∨ eoseCount = 0 ∨ (resolved key).isSome = true) :
    (keys.foldl (s.recordOutcome eoseCount resolved) ledger).get? key = ledger.get? key ∨
      (keys.foldl (s.recordOutcome eoseCount resolved) ledger).get? key = none := by
  induction keys generalizing ledger with
  | nil => exact .inl rfl
  | cons k keys ih =>
    have hfirst : (s.recordOutcome eoseCount resolved ledger k).get? key = ledger.get? key ∨
        (s.recordOutcome eoseCount resolved ledger k).get? key = none := by
      by_cases hk : key = k
      · subst hk
        unfold recordOutcome
        split_ifs with hkind hresolved heose
        · exact .inl rfl
        · right
          rw [OrderedMap.get?_delete, if_pos rfl]
        · rcases h with hzero | hzero | hsome
          · exact absurd hzero hkind
          · omega
          · exact absurd hsome hresolved
        · exact .inl rfl
      · exact .inl (recordOutcome_of_ne hk)
    rw [List.foldl_cons]
    have hrest := @ih (s.recordOutcome eoseCount resolved ledger k)
    rcases hrest with hrest | hrest
    · rw [hrest]
      exact hfirst
    · exact .inr hrest

/-- A resolved key has no miss recorded. -/
theorem recordOutcomes_resolved (hmem : key ∈ keys) (hkind : (parseKey key).kind ≠ 0)
    (hresolved : (resolved key).isSome = true) :
    (keys.foldl (s.recordOutcome eoseCount resolved) ledger).get? key = none := by
  induction keys generalizing ledger with
  | nil => cases hmem
  | cons k keys ih =>
    rw [List.foldl_cons]
    by_cases hk : key = k
    · subst hk
      have hdeleted : (s.recordOutcome eoseCount resolved ledger key).get? key = none := by
        rw [recordOutcome, if_neg hkind, if_pos hresolved, OrderedMap.get?_delete, if_pos rfl]
      have hkeeps :
          (keys.foldl (s.recordOutcome eoseCount resolved)
            (s.recordOutcome eoseCount resolved ledger key)).get? key =
            (s.recordOutcome eoseCount resolved ledger key).get? key ∨
          (keys.foldl (s.recordOutcome eoseCount resolved)
            (s.recordOutcome eoseCount resolved ledger key)).get? key = none :=
        recordOutcomes_keeps (.inr (.inr hresolved))
      rcases hkeeps with h | h
      · rw [h, hdeleted]
      · exact h
    · exact ih ((List.mem_cons.mp hmem).resolve_left hk)

/-- A key that is missed has one attempt more for every time it is in the batch. -/
theorem attemptsOf_recordOutcomes (hkind : (parseKey key).kind ≠ 0) (heose : 0 < eoseCount)
    (hnone : (resolved key).isSome = false) :
    attemptsOf (keys.foldl (s.recordOutcome eoseCount resolved) ledger) key =
      attemptsOf ledger key + keys.count key := by
  induction keys generalizing ledger with
  | nil => rfl
  | cons k keys ih =>
    rw [List.foldl_cons, ih]
    by_cases hk : key = k
    · subst hk
      have hone : attemptsOf (s.recordOutcome eoseCount resolved ledger key) key =
          attemptsOf ledger key + 1 := by
        rw [recordOutcome, if_neg hkind, if_neg (by simp [hnone]), if_pos heose]
        simp [attemptsOf, recordFailedProfileFetch, nextFailure]
      rw [hone, List.count_cons_self]
      omega
    · have hsame : attemptsOf (s.recordOutcome eoseCount resolved ledger k) key =
          attemptsOf ledger key := by
        rw [attemptsOf, recordOutcome_of_ne hk, attemptsOf]
      rw [hsame, List.count_cons_of_ne (Ne.symm hk)]

end Ledger

section Runs

variable {s t : ReplaceableEventLoader} {hasFallback : Bool} {batchSize : Nat} {keys : List JsString}
  {key : JsString} {primary fallback : Option QueryResult}

theorem inPhase_setBatch {α : Type} {p : BatchPhase → Option α} {b : Nat} {batch new : LoadBatch}
    (h : s.batches[b]? = some batch) :
    (s.setBatch b new).inPhase p b = (p new.phase).map (Prod.mk new.keys) := by
  have hget : (s.setBatch b new).batches[b]? = some new := by
    rw [setBatch, List.getElem?_set_self (List.getElem?_eq_some_iff.mp h).1]
  rw [inPhase, hget]
  rfl

theorem loaded_finish {b : Nat} {batch : LoadBatch} (h : s.batches[b]? = some batch)
    (answer : QueryResult) :
    (s.finish b keys answer).loaded b = some (keys, (s.settle keys answer).1) := by
  change (s.setBatch b ⟨keys, .loaded (s.settle keys answer).1⟩).loaded b = _
  exact inPhase_setBatch h

/-- What the loader's steps make of the answers to a batch. -/
theorem run_answered {b : Nat} (h : s.askingPrimary b = some (keys, ())) :
    ∃ t, run (step batchSize hasFallback) s (answered hasFallback keys b primary fallback) = some t ∧
      t.loaded b = some (keys, (s.loadViaBigRelays hasFallback keys primary fallback).1) ∧
      t.missLedger = (s.loadViaBigRelays hasFallback keys primary fallback).2 := by
  have hbatch := askingPrimary_eq_some h
  cases primary with
  | none =>
    refine ⟨s.fail b keys, ?_, inPhase_setBatch hbatch, rfl⟩
    simp [answered, run, step, h]
  | some primary =>
    cases hasks : asksFallback hasFallback keys primary with
    | false =>
      refine ⟨s.finish b keys primary, ?_, ?_, ?_⟩
      · simp [answered, run, step, h, hasks]
      · rw [loaded_finish hbatch]
        simp [loadViaBigRelays, hasks]
      · simp only [loadViaBigRelays, hasks]
        rfl
    | true =>
      have hasking : (s.setBatch b ⟨keys, .fallback primary⟩).askingFallback b =
          some (keys, primary) := inPhase_setBatch hbatch
      have hnext : (s.setBatch b ⟨keys, .fallback primary⟩).batches[b]? =
          some ⟨keys, .fallback primary⟩ := askingFallback_eq_some hasking
      cases fallback with
      | none =>
        refine ⟨(s.setBatch b ⟨keys, .fallback primary⟩).fail b keys, ?_, ?_, ?_⟩
        · simp [answered, run, step, h, hasks, hasking]
        · simp only [loadViaBigRelays, hasks]
          exact inPhase_setBatch hnext
        · simp only [loadViaBigRelays, hasks]
          rfl
      | some fallback =>
        refine ⟨(s.setBatch b ⟨keys, .fallback primary⟩).finish b keys (primary.concat fallback),
          ?_, ?_, ?_⟩
        · simp [answered, run, step, h, hasks, hasking]
        · rw [loaded_finish hnext]
          simp [loadViaBigRelays, hasks, settle]
        · simp only [loadViaBigRelays, hasks]
          rfl

theorem load_missLedger (batchSize : Nat) (s : ReplaceableEventLoader) (request : ReplaceableEventRequest) :
    (s.load batchSize request).missLedger = s.missLedger := by
  simp only [load, batchLoaderLoad]
  split_ifs
  · rfl
  · split
    · rfl
    · split
      · rfl
      · exact (openBatch_keeps batchSize { s with cache := _ }).2.1

theorem storeValues_missLedger (entries : List (JsString × Option Event)) :
    (entries.foldl storeValue s).missLedger = s.missLedger := by
  refine List.foldlRecOn (motive := fun u : ReplaceableEventLoader => u.missLedger = s.missLedger)
    entries _ rfl fun u hu entry _ => ?_
  unfold storeValue
  split
  · exact hu
  · exact hu

/-- The coordinator owns the retries of profiles: none of them is a recorded miss. -/
def NoProfileMisses (s : ReplaceableEventLoader) : Prop :=
  ∀ key, (parseKey key).kind = 0 → s.missLedger.get? key = none

theorem noProfileMisses_finish (h : s.NoProfileMisses) (b : Nat) (keys : List JsString)
    (answer : QueryResult) : (s.finish b keys answer).NoProfileMisses :=
  fun key hkind => recordOutcomes_none (h key hkind) fun _ => .inl hkind

theorem noProfileMisses_prime (h : s.NoProfileMisses) (event : Event) :
    (s.prime event).NoProfileMisses := by
  intro key hkind
  have hdelete : (s.prime event).missLedger = s.missLedger.delete (coordinateOf event) := rfl
  rw [hdelete, OrderedMap.get?_delete, h key hkind, ite_self]

theorem NoProfileMisses.step {a : LoaderAction} (h : s.NoProfileMisses)
    (hs : s.step batchSize hasFallback a = some t) : t.NoProfileMisses := by
  have hsame {u : ReplaceableEventLoader} (hu : u.missLedger = s.missLedger) : u.NoProfileMisses := by
    intro key hkind
    rw [hu]
    exact h key hkind
  cases a with
  | load request =>
    cases hs
    exact hsame (load_missLedger ..)
  | prime event =>
    cases hs
    exact noProfileMisses_prime h event
  | publishEvent event results =>
    cases hs
    unfold ReplaceableEventLoader.publishEvent
    split_ifs
    · exact noProfileMisses_prime h event
    · exact h
  | clear request =>
    cases hs
    intro key hkind
    have hdelete : (s.clear request).missLedger = s.missLedger.delete (toKey request) := rfl
    rw [hdelete, OrderedMap.get?_delete, h key hkind, ite_self]
  | dispatch b =>
    obtain ⟨x, -, rfl⟩ := Option.map_eq_some_iff.mp hs
    exact hsame rfl
  | primary b answer =>
    obtain ⟨x, -, rfl⟩ := Option.map_eq_some_iff.mp hs
    cases answer with
    | none => exact hsame rfl
    | some primary =>
      dsimp only
      split_ifs
      · exact hsame rfl
      · exact noProfileMisses_finish h _ _ _
  | fallback b answer =>
    obtain ⟨x, -, rfl⟩ := Option.map_eq_some_iff.mp hs
    cases answer with
    | none => exact hsame rfl
    | some fallback => exact noProfileMisses_finish h _ _ _
  | store b =>
    obtain ⟨x, -, rfl⟩ := Option.map_eq_some_iff.mp hs
    exact hsame (storeValues_missLedger _)
  | delivered entry =>
    obtain ⟨x, -, hx⟩ := Option.bind_eq_some_iff.mp hs
    obtain ⟨k, -, hk⟩ := Option.bind_eq_some_iff.mp hx
    split_ifs at hk
    cases hk
    exact hsame rfl
  | clock now =>
    cases hs
    exact hsame rfl

theorem noProfileMisses_run {as : List LoaderAction}
    (hrun : run (step batchSize hasFallback) init as = some s) : s.NoProfileMisses := by
  have hinit : init.NoProfileMisses := fun _ _ => rfl
  exact run_invariant_all (fun _ _ _ h hs => h.step hs) hinit hrun

end Runs

section Resolution

variable {name : Event → JsString} {key : JsString} {events more : List Event} {e : Event}

theorem newestUnder_eq (name : Event → JsString) (key : JsString) (events : List Event) :
    newestUnder name key events = newest (events.filter fun e => name e = key) := rfl

theorem le_newest (h : newest events = some e) : ∀ x ∈ events, x.created_at ≤ e.created_at := by
  obtain ⟨before, after, rfl, hbefore, hafter⟩ := newest_eq_some_iff.mp h
  intro x hx
  rcases List.mem_append.mp hx with hx | hx
  · exact Int.le_of_lt (hbefore x hx)
  · rcases List.mem_cons.mp hx with rfl | hx
    · exact Int.le_refl _
    · exact hafter x hx

/-- More events make the newest no older. -/
theorem newestUnder_append_le (h : newestUnder name key events = some e) (more : List Event) :
    ∃ x, newestUnder name key (events ++ more) = some x ∧ e.created_at ≤ x.created_at := by
  rw [newestUnder_eq] at h
  have hmem : e ∈ (events ++ more).filter fun e => name e = key := by
    rw [List.filter_append]
    exact List.mem_append_left _ (newest_mem h)
  obtain ⟨x, hx⟩ : ∃ x, newestUnder name key (events ++ more) = some x := by
    rw [← Option.ne_none_iff_exists', newestUnder_eq]
    intro hnone
    rw [newest_eq_none_iff.mp hnone] at hmem
    cases hmem
  exact ⟨x, hx, le_newest hx e hmem⟩

theorem newestUnder_append_of_none (h : newestUnder name key events = none) (more : List Event) :
    newestUnder name key (events ++ more) = newestUnder name key more := by
  rw [newestUnder_eq] at h
  rw [newestUnder_eq, newestUnder_eq, List.filter_append, newest_eq_none_iff.mp h, List.nil_append]

/-- What some events resolve, more events resolve: to nothing older, unless an older event without a
`d` takes the place of one with a `d`. -/
theorem resolveRequest_append (h : resolveRequest key events = some e) (more : List Event) :
    ∃ x, resolveRequest key (events ++ more) = some x ∧
      (e.created_at ≤ x.created_at ↔ (newestUnder coordinateOf key events = none →
        ∀ exact, newestUnder coordinateOf key more = some exact →
          e.created_at ≤ exact.created_at)) := by
  cases hexact : newestUnder coordinateOf key events with
  | some y =>
    have hy : some y = some e := by
      unfold resolveRequest at h
      rwa [hexact] at h
    obtain ⟨x, hx, hle⟩ := newestUnder_append_le hexact more
    obtain rfl := Option.some.inj hy
    refine ⟨x, ?_, iff_of_true hle fun hnone => ?_⟩
    · unfold resolveRequest
      rw [hx]
    · cases hnone
  | none =>
    unfold resolveRequest at h ⊢
    rw [hexact] at h
    rw [newestUnder_append_of_none hexact more]
    dsimp only at h ⊢
    split_ifs at h ⊢ with hany
    obtain ⟨x, hx, hle⟩ := newestUnder_append_le h more
    cases hmore : newestUnder coordinateOf key more with
    | some y => exact ⟨y, rfl, by simp⟩
    | none => exact ⟨x, hx, iff_of_true hle fun _ y hy => by cases hy⟩

theorem resolveRequest_none_of_append (h : resolveRequest key (events ++ more) = none) :
    resolveRequest key events = none := by
  cases hresolved : resolveRequest key events with
  | none => rfl
  | some e =>
    obtain ⟨x, hx, -⟩ := resolveRequest_append hresolved more
    rw [h] at hx
    cases hx

end Resolution

section Outcome

variable {s : ReplaceableEventLoader} {hasFallback : Bool} {batchSize : Nat} {keys : List JsString}
  {key : JsString} {primary fallback : Option QueryResult} {answer : QueryResult} {value : Option Event}

theorem mem_zip_map {f : JsString → Option Event} :
    (key, value) ∈ keys.zip (keys.map f) ↔ key ∈ keys ∧ f key = value := by
  rw [← List.map_prod_left_eq_zip, List.mem_map]
  constructor
  · rintro ⟨k, hk, hpair⟩
    obtain ⟨rfl, rfl⟩ := Prod.mk.inj hpair
    exact ⟨hk, rfl⟩
  · rintro ⟨hk, rfl⟩
    exact ⟨key, hk, rfl⟩

/-- A batch fails, or settles on what the first tier brought, or on what both did. -/
theorem loadViaBigRelays_cases (s : ReplaceableEventLoader) (hasFallback : Bool) (keys : List JsString)
    (primary fallback : Option QueryResult) :
    (s.loadViaBigRelays hasFallback keys primary fallback = (keys.map fun _ => none, s.missLedger) ∧
        ∀ p ∈ primary, asksFallback hasFallback keys p = true ∧ fallback = none) ∨
      (∃ p, primary = some p ∧ asksFallback hasFallback keys p = false ∧
        s.loadViaBigRelays hasFallback keys primary fallback = s.settle keys p) ∨
      ∃ p f, primary = some p ∧ fallback = some f ∧ asksFallback hasFallback keys p = true ∧
        s.loadViaBigRelays hasFallback keys primary fallback = s.settle keys (p.concat f) := by
  cases primary with
  | none => exact .inl ⟨rfl, by simp⟩
  | some p =>
    cases hasks : asksFallback hasFallback keys p with
    | false => exact .inr (.inl ⟨p, rfl, hasks, by simp [loadViaBigRelays, hasks]⟩)
    | true =>
      cases fallback with
      | none => exact .inl ⟨by simp [loadViaBigRelays, hasks], by simpa using hasks⟩
      | some f => exact .inr (.inr ⟨p, f, rfl, rfl, hasks, by simp [loadViaBigRelays, hasks]⟩)

theorem settle_recorded (h : Recorded s.missLedger (s.settle keys answer).2 key) :
    key ∈ keys ∧ 0 < answer.eoseCount ∧ resolveRequest key answer.events = none := by
  obtain ⟨miss, hafter, hbefore⟩ := h
  have hchanged : ¬ ((s.settle keys answer).2.get? key = s.missLedger.get? key ∨
      (s.settle keys answer).2.get? key = none) := by
    rintro (hsame | hnone)
    · exact hbefore (hsame ▸ hafter)
    · rw [hnone] at hafter
      cases hafter
  refine ⟨?_, ?_, ?_⟩
  · by_contra hmem
    exact hchanged (.inl (recordOutcomes_of_notMem hmem))
  · refine Nat.pos_of_ne_zero fun hzero => hchanged ?_
    exact recordOutcomes_keeps (.inr (.inl hzero))
  · cases hresolved : resolveRequest key answer.events with
    | none => rfl
    | some e => exact absurd (recordOutcomes_keeps (.inr (.inr (by rw [hresolved]; rfl)))) hchanged

theorem settle_misses (hmem : key ∈ keys) (hkind : (parseKey key).kind ≠ 0)
    (heose : 0 < answer.eoseCount) (hnone : resolveRequest key answer.events = none) :
    Recorded s.missLedger (s.settle keys answer).2 key := by
  have hattempts : attemptsOf (s.settle keys answer).2 key = attemptsOf s.missLedger key + keys.count key :=
    attemptsOf_recordOutcomes hkind heose (by rw [hnone]; rfl)
  have hcount : 0 < keys.count key := List.count_pos_iff.mpr hmem
  cases hmiss : (s.settle keys answer).2.get? key with
  | none =>
    simp only [attemptsOf, hmiss, Option.map_none, Option.getD_none] at hattempts
    omega
  | some miss =>
    refine ⟨miss, hmiss, fun hsame => ?_⟩
    simp only [attemptsOf, hmiss, hsame] at hattempts
    omega

theorem settle_resolved (h : s.NoProfileMisses) (hmem : key ∈ keys) {e : Event}
    (hresolved : resolveRequest key answer.events = some e) :
    (s.settle keys answer).2.get? key = none := by
  by_cases hkind : (parseKey key).kind = 0
  · exact noProfileMisses_finish h 0 keys answer key hkind
  · exact recordOutcomes_resolved hmem hkind (by rw [hresolved]; rfl)

/-- A batch records its misses on the word of all tiers exactly where, if both were asked, either
both said that they have no more, or neither, or no key was left. -/
theorem missesSound_iff {as : List LoaderAction}
    (hrun : run (step batchSize hasFallback) init as = some s) (keys : List JsString)
    (primary fallback : Option QueryResult) :
    s.MissesSound hasFallback keys primary fallback ↔
      ∀ p ∈ primary, ∀ f ∈ fallback, asksFallback hasFallback keys p = true →
        (p.eoseCount = 0 ↔ f.eoseCount = 0) ∨
          ∀ key ∈ keys, (parseKey key).kind = 0 ∨
            (resolveRequest key (p.events ++ f.events)).isSome = true := by
  have hprofiles := noProfileMisses_run hrun
  constructor
  · rintro h p rfl f rfl hasks
    have hout : s.loadViaBigRelays hasFallback keys (some p) (some f) =
        s.settle keys (p.concat f) := by simp [loadViaBigRelays, hasks]
    by_contra hcond
    push Not at hcond
    obtain ⟨hone, key, hmem, hkind, hnone⟩ := hcond
    have hunresolved : resolveRequest key (p.events ++ f.events) = none := by simpa using hnone
    have heose : 0 < (p.concat f).eoseCount := by
      change 0 < p.eoseCount + f.eoseCount
      omega
    have hrecorded := h.recorded key hkind
    rw [hout] at hrecorded
    obtain ⟨-, ⟨p', hp', hp⟩, hfallback⟩ := hrecorded (settle_misses hmem hkind heose hunresolved)
    obtain rfl := Option.some.inj hp'
    have hhas : hasFallback = true := (Bool.and_eq_true_iff.mp hasks).1
    obtain ⟨f', hf', hf⟩ := hfallback hhas fun p' hp' =>
      Option.some.inj hp' ▸ resolveRequest_none_of_append hunresolved
    obtain rfl := Option.some.inj hf'
    omega
  · intro h
    rcases loadViaBigRelays_cases s hasFallback keys primary fallback with
      ⟨hout, -⟩ | ⟨p, rfl, hasks, hout⟩ | ⟨p, f, rfl, rfl, hasks, hout⟩
    · refine ⟨?_, ?_⟩
      · rintro key - ⟨miss, hafter, hbefore⟩
        rw [hout] at hafter
        exact absurd hafter hbefore
      · intro key e hmem
        rw [hout, mem_zip_map] at hmem
        cases hmem.2
    · refine ⟨?_, ?_⟩
      · intro key hkind hrecorded
        rw [hout] at hrecorded ⊢
        obtain ⟨hmem, heose, hnone⟩ := settle_recorded hrecorded
        refine ⟨mem_zip_map.mpr ⟨hmem, hnone⟩, ⟨p, rfl, heose⟩, fun hhas _ => ?_⟩
        have hasked : asksFallback hasFallback keys p = true := by
          simp only [asksFallback, hhas, Bool.true_and, List.any_eq_true]
          exact ⟨key, hmem, by rw [hnone]; rfl⟩
        rw [hasks] at hasked
        cases hasked
      · intro key e hmem
        rw [hout] at hmem ⊢
        obtain ⟨hkey, hresolved⟩ := mem_zip_map.mp hmem
        exact settle_resolved hprofiles hkey hresolved
    · refine ⟨?_, ?_⟩
      · intro key hkind hrecorded
        rw [hout] at hrecorded ⊢
        obtain ⟨hmem, heose, hnone⟩ := settle_recorded hrecorded
        have hsum : 0 < p.eoseCount + f.eoseCount := heose
        have hboth : 0 < p.eoseCount ∧ 0 < f.eoseCount := by
          rcases h p rfl f rfl hasks with hiff | hall
          · omega
          · rcases hall key hmem with hzero | hsome
            · exact absurd hzero hkind
            · rw [show resolveRequest key (p.events ++ f.events) = none from hnone] at hsome
              cases hsome
        exact ⟨mem_zip_map.mpr ⟨hmem, hnone⟩, ⟨p, rfl, hboth.1⟩, fun _ _ => ⟨f, rfl, hboth.2⟩⟩
      · intro key e hmem
        rw [hout] at hmem ⊢
        obtain ⟨hkey, hresolved⟩ := mem_zip_map.mp hmem
        exact settle_resolved hprofiles hkey hresolved

/-- The keys of two users' relay lists. -/
abbrev twoKeys : List JsString := [toKey relayListRequest, toKey ⟨js "other", 10002, none⟩]

theorem missesSound_iff_both : ∃ s, run (step 500 true) init [.load relayListRequest, .dispatch 0] =
    some s ∧ s.MissesSound true twoKeys (some ⟨[relayListAt 10], 1⟩) (some ⟨[], 2⟩) := by
  obtain ⟨s, hs⟩ := Option.isSome_iff_exists.mp (show (run (step 500 true) init
    [.load relayListRequest, .dispatch 0]).isSome = true by decide +kernel)
  refine ⟨s, hs, (missesSound_iff hs _ _ _).mpr ?_⟩
  intro p hp f hf _
  obtain rfl := Option.some.inj hp
  obtain rfl := Option.some.inj hf
  exact .inl (by decide)

/-- The one relay of the first tier has no list of the user, and no relay of the second answers. -/
theorem missesSound_fails :
    ¬ init.MissesSound true [toKey relayListRequest] (some ⟨[], 1⟩) (some ⟨[], 0⟩) := by
  intro h
  have hledger : (init.loadViaBigRelays true [toKey relayListRequest] (some ⟨[], 1⟩)
      (some ⟨[], 0⟩)).2.get? (toKey relayListRequest) = some ⟨1, 30000⟩ := by decide +kernel
  have hkind : (parseKey (toKey relayListRequest)).kind ≠ 0 := by decide +kernel
  obtain ⟨-, -, hfallback⟩ := h.recorded _ hkind ⟨_, hledger, by decide +kernel⟩
  obtain ⟨f, hf, hpos⟩ := hfallback rfl fun p hp => by
    obtain rfl := Option.some.inj hp
    decide +kernel
  obtain rfl := Option.some.inj hf
  exact absurd hpos (by decide)

/-- A batch keeps what the first tier resolves exactly where a second that it asks does not throw,
or there is nothing to keep, and the second brings no older event without a `d` in the place of one
with a `d`. -/
theorem keepsPrimary_iff {as : List LoaderAction}
    (hrun : run (step batchSize hasFallback) init as = some s) (keys : List JsString)
    (primary fallback : Option QueryResult) :
    s.KeepsPrimary hasFallback keys primary fallback ↔
      ∀ p ∈ primary, asksFallback hasFallback keys p = true →
        (fallback = none → ∀ key ∈ keys, resolveRequest key p.events = none) ∧
        ∀ f ∈ fallback, ∀ key ∈ keys, newestUnder coordinateOf key p.events = none →
          ∀ event, resolveRequest key p.events = some event →
            ∀ exact, newestUnder coordinateOf key f.events = some exact →
              event.created_at ≤ exact.created_at := by
  have hprofiles := noProfileMisses_run hrun
  rcases loadViaBigRelays_cases s hasFallback keys primary fallback with
    ⟨hout, hfailed⟩ | ⟨p, rfl, hasks, hout⟩ | ⟨p, f, rfl, rfl, hasks, hout⟩
  · constructor
    · intro h p hp hasks
      refine ⟨fun _ key hkey => ?_, fun f hf => ?_⟩
      · cases hresolved : resolveRequest key p.events with
        | none => rfl
        | some e =>
          obtain ⟨⟨value, hvalue, -⟩, -⟩ := h p hp key hkey e hresolved
          rw [hout, mem_zip_map] at hvalue
          cases hvalue.2
      · rw [(hfailed p hp).2] at hf
        cases hf
    · intro h p hp key hkey e hresolved
      obtain ⟨hasks, hthrows⟩ := hfailed p hp
      rw [(h p hp hasks).1 hthrows key hkey] at hresolved
      cases hresolved
  · constructor
    · intro _ p' hp' hasks'
      obtain rfl := Option.some.inj hp'
      rw [hasks] at hasks'
      cases hasks'
    · intro _ p' hp' key hkey e hresolved
      obtain rfl := Option.some.inj hp'
      rw [hout]
      exact ⟨⟨e, mem_zip_map.mpr ⟨hkey, hresolved⟩, Int.le_refl _⟩,
        settle_resolved hprofiles hkey hresolved⟩
  · constructor
    · intro h p' hp' _
      obtain rfl := Option.some.inj hp'
      refine ⟨(fun hthrows => by cases hthrows), fun f' hf' key hkey hloose e hresolved => ?_⟩
      obtain rfl := Option.some.inj hf'
      obtain ⟨⟨value, hvalue, hle⟩, -⟩ := h p rfl key hkey e hresolved
      rw [hout] at hvalue
      obtain ⟨-, hsettled⟩ := mem_zip_map.mp hvalue
      obtain ⟨x, hx, hiff⟩ := resolveRequest_append hresolved f.events
      obtain rfl : x = value := Option.some.inj (hx.symm.trans hsettled)
      exact hiff.mp hle hloose
    · intro h p' hp' key hkey e hresolved
      obtain rfl := Option.some.inj hp'
      obtain ⟨x, hx, hiff⟩ := resolveRequest_append hresolved f.events
      rw [hout]
      refine ⟨⟨x, mem_zip_map.mpr ⟨hkey, hx⟩, hiff.mpr fun hloose => ?_⟩,
        settle_resolved hprofiles hkey hx⟩
      exact (h p rfl hasks).2 f rfl key hkey hloose e hresolved

theorem keepsPrimary_iff_empty : ∃ s, run (step 500 true) init [.load relayListRequest, .dispatch 0] =
    some s ∧ s.KeepsPrimary true twoKeys (some ⟨[relayListAt 10], 1⟩) (some ⟨[], 0⟩) := by
  obtain ⟨s, hs⟩ := Option.isSome_iff_exists.mp (show (run (step 500 true) init
    [.load relayListRequest, .dispatch 0]).isSome = true by decide +kernel)
  refine ⟨s, hs, (keepsPrimary_iff hs _ _ _).mpr ?_⟩
  intro p _ _
  refine ⟨(fun hthrows => by cases hthrows), fun f hf key _ _ e _ exact hexact => ?_⟩
  obtain rfl := Option.some.inj hf
  cases hexact

/-- The first tier has the list of one of two users, and asking the second for the other throws. -/
theorem keepsPrimary_fails :
    ¬ init.KeepsPrimary true twoKeys (some ⟨[relayListAt 10], 1⟩) none := by
  intro h
  have hresolved : resolveRequest (toKey relayListRequest) [relayListAt 10] = some (relayListAt 10) := by
    decide +kernel
  obtain ⟨⟨value, hvalue, -⟩, -⟩ := h _ rfl _ List.mem_cons_self _ hresolved
  have hlost : (init.loadViaBigRelays true twoKeys (some ⟨[relayListAt 10], 1⟩) none).1 =
      twoKeys.map fun _ => none := by decide +kernel
  rw [hlost, mem_zip_map] at hvalue
  cases hvalue.2

end Outcome

end LivelierBridge.Nostr.ReplaceableEventLoader
