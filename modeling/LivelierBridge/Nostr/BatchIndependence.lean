import LivelierBridge.Nostr.ReplaceableBatches

namespace LivelierBridge.Nostr

open Framework Js

/-! ### The newest event -/

def newest (events : List Event) : Option Event := events.foldl newer none

theorem newest_concat (events : List Event) (e : Event) :
    newest (events ++ [e]) = newer (newest events) e := by
  simp [newest]

theorem newest_eq_none_iff {events : List Event} : newest events = none ↔ events = [] := by
  induction events using List.reverseRecOn with
  | nil => simp [newest]
  | append_singleton events e _ =>
    rw [newest_concat]
    unfold newer
    split
    · simp
    · split_ifs
      · simp
      · simp

theorem foldl_newer_stays {events : List Event} {x : Event}
    (h : ∀ y ∈ events, y.created_at ≤ x.created_at) : events.foldl newer (some x) = some x := by
  induction events with
  | nil => rfl
  | cons y events ih =>
    obtain ⟨hy, hrest⟩ := List.forall_mem_cons.mp h
    have hstays : newer (some x) y = some x := by
      unfold newer
      dsimp only
      rw [if_neg (by omega)]
    rw [List.foldl_cons, hstays, ih hrest]

/-- The newest event is newer than all that stand before it, and older than none. -/
theorem newest_eq_some_iff {events : List Event} {x : Event} :
    newest events = some x ↔ ∃ before after, events = before ++ x :: after ∧
      (∀ y ∈ before, y.created_at < x.created_at) ∧ ∀ y ∈ after, y.created_at ≤ x.created_at := by
  constructor
  · intro h
    induction events using List.reverseRecOn generalizing x with
    | nil => cases h
    | append_singleton events e ih =>
      rw [newest_concat] at h
      cases hold : newest events with
      | none =>
        rw [hold] at h
        obtain rfl : e = x := Option.some.inj h
        obtain rfl := newest_eq_none_iff.mp hold
        exact ⟨[], [], rfl, by simp, by simp⟩
      | some old =>
        obtain ⟨before, after, rfl, hbefore, hafter⟩ := ih hold
        rw [hold] at h
        unfold newer at h
        dsimp only at h
        split_ifs at h with hlt
        · obtain rfl : e = x := Option.some.inj h
          refine ⟨before ++ old :: after, [], rfl, fun y hy => ?_, by simp⟩
          rcases List.mem_append.mp hy with hy | hy
          · have hold := hbefore y hy
            omega
          · rcases List.mem_cons.mp hy with rfl | hy
            · exact hlt
            · have hold := hafter y hy
              omega
        · obtain rfl : old = x := Option.some.inj h
          refine ⟨before, after ++ [e], by simp, hbefore, fun y hy => ?_⟩
          rcases List.mem_append.mp hy with hy | hy
          · exact hafter y hy
          · obtain rfl := List.mem_singleton.mp hy
            omega
  · rintro ⟨before, after, rfl, hbefore, hafter⟩
    have hx : newer (newest before) x = some x := by
      cases hold : newest before with
      | none => rfl
      | some old =>
        have hmem : old ∈ before := (foldl_newer_mem hold).resolve_left (by simp)
        unfold newer
        dsimp only
        rw [if_pos (hbefore old hmem)]
    calc newest (before ++ x :: after) = after.foldl newer (newer (newest before) x) := by
          simp [newest]
      _ = some x := by rw [hx, foldl_newer_stays hafter]

theorem newest_mem {events : List Event} {x : Event} (h : newest events = some x) : x ∈ events := by
  obtain ⟨before, after, rfl, -⟩ := newest_eq_some_iff.mp h
  simp

theorem newest_filter {events : List Event} {x : Event} {p : Event → Bool}
    (h : newest events = some x) (hp : p x = true) : newest (events.filter p) = some x := by
  obtain ⟨before, after, rfl, hbefore, hafter⟩ := newest_eq_some_iff.mp h
  refine newest_eq_some_iff.mpr ⟨before.filter p, after.filter p, ?_, fun y hy => ?_, fun y hy => ?_⟩
  · rw [List.filter_append, List.filter_cons_of_pos hp]
  · exact hbefore y (List.mem_of_mem_filter hy)
  · exact hafter y (List.mem_of_mem_filter hy)

theorem newest_append {events more : List Event} (h : more ⊆ events) :
    newest (events ++ more) = newest events := by
  cases hx : newest events with
  | none =>
    obtain rfl := newest_eq_none_iff.mp hx
    rw [List.subset_nil.mp h]
    rfl
  | some x =>
    obtain ⟨before, after, heq, hbefore, hafter⟩ := newest_eq_some_iff.mp hx
    refine newest_eq_some_iff.mpr ⟨before, after ++ more, by simp [heq], hbefore, fun y hy => ?_⟩
    rcases List.mem_append.mp hy with hy | hy
    · exact hafter y hy
    · have hmem := h hy
      rw [heq] at hmem
      rcases List.mem_append.mp hmem with hy | hy
      · exact Int.le_of_lt (hbefore y hy)
      · rcases List.mem_cons.mp hy with rfl | hy
        · exact Int.le_refl _
        · exact hafter y hy

/-! ### Requests as a batch reads them back -/

/-- A request that its key reads back as. -/
structure Plain (ρ : ReplaceableEventRequest) : Prop where
  pubkey : (58 : UInt16) ∉ ρ.pubkey
  d : ρ.d ≠ some []

theorem splitFrom_notMem {c : UInt16} {part s : JsString} (hpart : c ∉ part) :
    ∀ p ∈ splitFrom [c] 0 part s, c ∉ p := by
  induction s generalizing part with
  | nil => simpa [splitFrom] using hpart
  | cons u us ih =>
    unfold splitFrom
    split_ifs with hu
    · refine List.forall_mem_cons.mpr ⟨by simpa using hpart, ?_⟩
      exact ih List.not_mem_nil
    · refine ih ?_
      simpa using ⟨by simpa using hu, hpart⟩

theorem parseKey_of_plain {ρ : ReplaceableEventRequest} (h : Plain ρ) : parseKey (toKey ρ) = ρ := by
  rw [parseKey_toKey h.pubkey]
  obtain ⟨pubkey, kind, d⟩ := ρ
  cases d with
  | none => rfl
  | some d =>
    have hd : d ≠ [] := fun hd => h.d (by rw [hd])
    simp [Option.filter, hd]

/-- A key is read back as a plain request with the same key. -/
theorem parseKey_plain (r : ReplaceableEventRequest) :
    Plain (parseKey (toKey r)) ∧ toKey (parseKey (toKey r)) = toKey r := by
  have hpieces : ∀ p ∈ split (js ":") (r.pubkey ++ 58 :: r.d.getD []), (58 : UInt16) ∉ p :=
    splitFrom_notMem List.not_mem_nil
  have hjoin : join (js ":") (split (js ":") (r.pubkey ++ 58 :: r.d.getD [])) =
      r.pubkey ++ 58 :: r.d.getD [] := join_splitFrom
  have hsplit : split (js ":") (toKey r) =
      intToString 10 r.kind :: split (js ":") (r.pubkey ++ 58 :: r.d.getD []) := by
    have hkey : toKey r = intToString 10 r.kind ++ 58 :: (r.pubkey ++ 58 :: r.d.getD []) := by
      simp [toKey, show js ":" = [58] from rfl]
    rw [hkey]
    exact splitFrom_append (colon_notMem_intToString r.kind)
  cases hrest : split (js ":") (r.pubkey ++ 58 :: r.d.getD []) with
  | nil => exact absurd hrest splitFrom_ne_nil
  | cons p ps =>
    rw [hrest] at hpieces hjoin hsplit
    have hps : ps ≠ [] := by
      rintro rfl
      have hp : p = r.pubkey ++ 58 :: r.d.getD [] := hjoin
      exact hpieces p List.mem_cons_self (by simp [hp])
    rw [join_cons hps] at hjoin
    have hparse : parseKey (toKey r) = ⟨p, r.kind, if join (js ":") ps = [] then none
        else some (join (js ":") ps)⟩ := by
      unfold parseKey
      simp [hsplit, numberOfText_intToString]
    rw [hparse]
    refine ⟨⟨hpieces p List.mem_cons_self, ?_⟩, ?_⟩
    · dsimp only
      split_ifs with hd
      · simp
      · simpa using hd
    · have hd : (if join (js ":") ps = [] then none else some (join (js ":") ps)).getD [] =
          join (js ":") ps := by
        split_ifs with hd
        · exact hd.symm
        · rfl
      have hcolon : js ":" = [58] := rfl
      rw [hcolon] at hd hjoin
      simp only [toKey, hcolon, hd]
      rw [List.append_assoc _ p, List.append_assoc _ (p ++ [58]), hjoin]
      simp

/-! ### What a request resolves to -/

/-- The `d` of an event's coordinate; an empty one is none. -/
def dOf (event : Event) : Option JsString :=
  (if isAddressableKind event.kind then tagValue event.tags (js "d") else none).filter
    fun d => d ≠ []

/-- An addressable request without a `d` takes any. -/
def takesAny (ρ : ReplaceableEventRequest) : Bool := isAddressableKind ρ.kind && ρ.d.isNone

/-- The newest of a request's own events that have its `d`; if there are none, and any `d` will do, the
newest of all. -/
def foremost (ρ : ReplaceableEventRequest) (events : List Event) : Option Event :=
  match newest (events.filter fun e => dOf e = ρ.d) with
  | some exact => some exact
  | none => if takesAny ρ then newest events else none

section Resolve

variable {ρ : ReplaceableEventRequest} {e : Event} {events more : List Event}

theorem coordinateOf_eq_iff (hρ : Plain ρ) (he : (58 : UInt16) ∉ e.pubkey) :
    coordinateOf e = toKey ρ ↔ own ρ e = true ∧ dOf e = ρ.d := by
  have hcoordinate : coordinateOf e = toKey ⟨e.pubkey, e.kind, dOf e⟩ := by
    unfold coordinateOf dOf toKey
    dsimp only
    cases (if isAddressableKind e.kind then tagValue e.tags (js "d") else none) with
    | none => rfl
    | some d =>
      by_cases hd : d = []
      · simp [hd, Option.filter]
      · simp [hd, Option.filter]
  have hplain : Plain ⟨e.pubkey, e.kind, dOf e⟩ := by
    refine ⟨he, fun h => ?_⟩
    have hne := (Option.filter_eq_some_iff.mp h).2
    simp at hne
  rw [hcoordinate, own_iff]
  constructor
  · intro h
    have hsame := congrArg parseKey h
    rw [parseKey_of_plain hplain, parseKey_of_plain hρ] at hsame
    rw [← hsame]
    exact ⟨⟨rfl, rfl⟩, rfl⟩
  · rintro ⟨⟨hkind, hpubkey⟩, hd⟩
    rw [hkind, hpubkey, hd]

theorem kindPubkey_eq_iff (hρ : Plain ρ) (he : (58 : UInt16) ∉ e.pubkey) :
    kindPubkey e.kind e.pubkey = kindPubkey ρ.kind ρ.pubkey ↔ own ρ e = true := by
  rw [own_iff]
  constructor
  · intro h
    have hkey : toKey ⟨e.pubkey, e.kind, none⟩ = toKey ⟨ρ.pubkey, ρ.kind, none⟩ := by
      have hsuffix := congrArg (fun s => s ++ js ":" ++ []) h
      exact hsuffix
    have hleft : Plain ⟨e.pubkey, e.kind, none⟩ := ⟨he, by simp⟩
    have hright : Plain ⟨ρ.pubkey, ρ.kind, none⟩ := ⟨hρ.pubkey, by simp⟩
    have hsame := congrArg parseKey hkey
    rw [parseKey_of_plain hleft, parseKey_of_plain hright] at hsame
    injection hsame with hpubkey hkind
    exact ⟨hkind, hpubkey⟩
  · rintro ⟨hkind, hpubkey⟩
    rw [hkind, hpubkey]

/-- A request resolves to the foremost of its own events. -/
theorem resolveRequest_eq (hρ : Plain ρ) (hevents : ∀ e ∈ events, (58 : UInt16) ∉ e.pubkey) :
    resolveRequest (toKey ρ) events = foremost ρ (events.filter (own ρ)) := by
  have hexact : newestUnder coordinateOf (toKey ρ) events =
      newest ((events.filter (own ρ)).filter fun e => dOf e = ρ.d) := by
    unfold newestUnder newest
    congr 1
    rw [List.filter_filter]
    refine List.filter_congr fun e he => ?_
    simp only [coordinateOf_eq_iff hρ (hevents e he), Bool.decide_and, Bool.decide_eq_true,
      Bool.and_comm]
  have hloose : newestUnder (fun e => kindPubkey e.kind e.pubkey) (kindPubkey ρ.kind ρ.pubkey) events =
      newest (events.filter (own ρ)) := by
    unfold newestUnder newest
    congr 1
    refine List.filter_congr fun e he => ?_
    simp [kindPubkey_eq_iff hρ (hevents e he)]
  unfold resolveRequest foremost
  rw [parseKey_of_plain hρ]
  dsimp only
  rw [hexact, hloose]
  rfl

theorem foremost_append (h : more ⊆ events) : foremost ρ (events ++ more) = foremost ρ events := by
  have hexact : (more.filter fun e => dOf e = ρ.d) ⊆ events.filter fun e => dOf e = ρ.d := by
    intro e he
    obtain ⟨hmem, hd⟩ := List.mem_filter.mp he
    exact List.mem_filter.mpr ⟨h hmem, hd⟩
  unfold foremost
  rw [List.filter_append, newest_append hexact, newest_append h]

theorem foremost_mem (h : foremost ρ events = some e) : e ∈ events := by
  unfold foremost at h
  split at h
  · rename_i x hx
    obtain rfl := Option.some.inj h
    exact List.mem_of_mem_filter (newest_mem hx)
  · split_ifs at h
    exact newest_mem h

@[simp] theorem foremost_nil (ρ : ReplaceableEventRequest) : foremost ρ [] = none := by
  simp [foremost, newest]

theorem foremost_eq_none_iff (hρ : takesAny ρ = true) : foremost ρ events = none ↔ events = [] := by
  constructor
  · intro h
    unfold foremost at h
    split at h
    · cases h
    · rw [if_pos hρ] at h
      exact newest_eq_none_iff.mp h
  · rintro rfl
    exact foremost_nil ρ

/-- The foremost event is so among fewer, too. -/
theorem foremost_filter {p : Event → Bool} (h : foremost ρ events = some e) (hp : p e = true) :
    foremost ρ (events.filter p) = some e := by
  have hswap : (events.filter p).filter (fun e => dOf e = ρ.d) =
      (events.filter fun e => dOf e = ρ.d).filter p := List.filter_comm _ _ _
  unfold foremost at h ⊢
  rw [hswap]
  cases hx : newest (events.filter fun e => dOf e = ρ.d) with
  | some x =>
    rw [hx] at h
    obtain rfl := Option.some.inj h
    rw [newest_filter hx hp]
  | none =>
    rw [hx] at h
    dsimp only at h
    split_ifs at h with hany
    rw [newest_eq_none_iff.mp hx, List.filter_nil]
    rw [if_pos hany]
    exact newest_filter h hp

/-- Where a request names its `d`, only the events that have it count. -/
theorem foremost_named (hρ : takesAny ρ = false) :
    foremost ρ events = newest (events.filter fun e => dOf e = ρ.d) := by
  unfold foremost
  rw [hρ]
  cases newest (events.filter fun e => dOf e = ρ.d) with
  | none => rfl
  | some x => rfl

end Resolve

/-! ### Batches -/

section Batches

variable (stored : List Event) (hasFallback : Bool) (rs : List ReplaceableEventRequest)

/-- The requests that the first tier misses. -/
def missed : List ReplaceableEventRequest :=
  rs.filter fun ρ =>
    (foremost ρ ((storedQuery stored (buildBatchFilters rs)).filter (own ρ))).isNone

def batchEvents : List Event :=
  storedQuery stored (buildBatchFilters rs) ++
    if hasFallback then storedQuery stored (buildBatchFilters (missed stored rs)) else []

/-- The answers to a batch whose queries all bring what is stored. -/
def storedBatch (keys : List JsString) : List (Option Event) :=
  batchLoad (storedQuery stored) (if hasFallback then some (storedQuery stored) else none) keys

variable {stored hasFallback rs} {ρ : ReplaceableEventRequest} {e : Event}

theorem mem_storedQuery : e ∈ storedQuery stored (buildBatchFilters rs) ↔
    e ∈ stored ∧ (∃ r ∈ rs, own r e = true) ∧ passes (dsOf rs e.kind) e = true := by
  unfold storedQuery
  rw [List.mem_filter, asksFor_iff]

theorem pubkey_of_storedQuery (hrs : ∀ ρ ∈ rs, Plain ρ)
    (he : e ∈ storedQuery stored (buildBatchFilters rs)) : (58 : UInt16) ∉ e.pubkey := by
  obtain ⟨-, ⟨r, hr, hown⟩, -⟩ := mem_storedQuery.mp he
  rw [(own_iff.mp hown).2]
  exact (hrs r hr).pubkey

theorem missed_subset : missed stored rs ⊆ rs := List.filter_sublist.subset

theorem storedBatch_eq (hrs : ∀ ρ ∈ rs, Plain ρ) :
    storedBatch stored hasFallback (rs.map toKey) =
      rs.map fun ρ => foremost ρ ((batchEvents stored hasFallback rs).filter (own ρ)) := by
  have hparse (us : List ReplaceableEventRequest) (hus : us ⊆ rs) :
      (us.map toKey).map parseKey = us := by
    rw [List.map_map]
    conv_rhs => rw [← List.map_id us]
    exact List.map_congr_left fun ρ hρ => parseKey_of_plain (hrs ρ (hus hρ))
  have hprimary : ∀ e ∈ storedQuery stored (buildBatchFilters rs), (58 : UInt16) ∉ e.pubkey :=
    fun _ he => pubkey_of_storedQuery hrs he
  have hfallback : ∀ e ∈ storedQuery stored (buildBatchFilters (missed stored rs)),
      (58 : UInt16) ∉ e.pubkey :=
    fun _ he => pubkey_of_storedQuery (fun ρ hρ => hrs ρ (missed_subset hρ)) he
  have hevents : ∀ e ∈ batchEvents stored hasFallback rs, (58 : UInt16) ∉ e.pubkey := by
    intro e he
    rcases List.mem_append.mp he with he | he
    · exact hprimary e he
    · split_ifs at he
      · exact hfallback e he
      · cases he
  have hunresolved : (rs.map toKey).filter (fun key =>
      (resolveRequest key (storedQuery stored (buildBatchFilters rs))).isNone) =
      (missed stored rs).map toKey := by
    rw [List.filter_map, missed]
    congr 1
    refine List.filter_congr fun ρ hρ => ?_
    rw [Function.comp_apply, resolveRequest_eq (hrs ρ hρ) hprimary]
  -- a second tier that is asked for nothing brings nothing
  have hnothing : storedQuery stored (buildBatchFilters []) = [] := by
    simp [storedQuery, buildBatchFilters, OrderedMap.empty]
  unfold storedBatch batchLoad
  simp only [hparse rs (List.Subset.refl _), hunresolved, hparse _ missed_subset]
  rw [List.map_map]
  refine List.map_congr_left fun ρ hρ => ?_
  rw [← resolveRequest_eq (hrs ρ hρ) hevents, Function.comp_apply]
  congr 1
  unfold batchEvents
  cases hasFallback with
  | false => simp
  | true =>
    simp only [if_true, List.map_eq_nil_iff]
    split_ifs with hnone
    · rw [hnone, hnothing, List.append_nil]
    · rfl

theorem own_storedQuery (hρ : ρ ∈ rs) :
    (storedQuery stored (buildBatchFilters rs)).filter (own ρ) =
      (stored.filter (own ρ)).filter (passes (dsOf rs ρ.kind)) := by
  unfold storedQuery
  rw [List.filter_filter, List.filter_filter]
  refine List.filter_congr fun e _ => ?_
  rw [Bool.eq_iff_iff, Bool.and_eq_true, Bool.and_eq_true, asksFor_iff]
  constructor
  · rintro ⟨hown, -, hpass⟩
    rw [(own_iff.mp hown).1] at hpass
    exact ⟨hpass, hown⟩
  · rintro ⟨hpass, hown⟩
    rw [← (own_iff.mp hown).1] at hpass
    exact ⟨hown, ⟨ρ, hρ, hown⟩, hpass⟩

theorem mem_own_missed
    (he : e ∈ (storedQuery stored (buildBatchFilters (missed stored rs))).filter (own ρ)) :
    e ∈ stored.filter (own ρ) ∧ passes (dsOf (missed stored rs) ρ.kind) e = true ∧
      ∃ r ∈ missed stored rs, r.kind = ρ.kind ∧ r.pubkey = ρ.pubkey := by
  obtain ⟨hquery, hown⟩ := List.mem_filter.mp he
  obtain ⟨hstored, ⟨r, hr, hown'⟩, hpass⟩ := mem_storedQuery.mp hquery
  obtain ⟨hkind, hpubkey⟩ := own_iff.mp hown
  obtain ⟨hkind', hpubkey'⟩ := own_iff.mp hown'
  rw [hkind] at hpass
  exact ⟨List.mem_filter.mpr ⟨hstored, hown⟩, hpass, r, hr, hkind'.symm.trans hkind,
    hpubkey'.symm.trans hpubkey⟩

theorem dsOf_subset {us : List ReplaceableEventRequest} (h : us ⊆ rs) (k : Int) :
    dsOf us k ⊆ dsOf rs k := by
  intro d hd
  obtain ⟨r, hr, hrest⟩ := mem_dsOf.mp hd
  exact mem_dsOf.mpr ⟨r, h hr, hrest⟩

theorem passes_mono {ds ds' : List JsString} (hne : ds ≠ []) (h : ds ⊆ ds')
    (hpass : passes ds e = true) : passes ds' e = true := by
  have hcarries : carries e ds = true := by
    unfold passes at hpass
    rwa [List.isEmpty_eq_false_iff.mpr hne, Bool.false_or] at hpass
  unfold passes
  rw [Bool.or_eq_true]
  right
  unfold carries at hcarries ⊢
  obtain ⟨d, hd, hmem⟩ := List.any_eq_true.mp hcarries
  exact List.any_eq_true.mpr ⟨d, hd, by simpa using h (by simpa using hmem)⟩

/-- An event that has the `d` a request names comes back. -/
theorem passes_named (hρ : ρ ∈ rs) (hplain : Plain ρ) (hnamed : takesAny ρ = false)
    (hown : own ρ e = true) (hd : dOf e = ρ.d) : passes (dsOf rs ρ.kind) e = true := by
  unfold passes
  rw [Bool.or_eq_true]
  cases haddr : isAddressableKind ρ.kind with
  | false =>
    left
    rw [List.isEmpty_iff, List.eq_nil_iff_forall_not_mem]
    intro d hd
    obtain ⟨r, -, hkind, hr, -⟩ := mem_dsOf.mp hd
    rw [hkind, haddr] at hr
    cases hr
  | true =>
    right
    cases hρd : ρ.d with
    | none => simp [takesAny, haddr, hρd] at hnamed
    | some d =>
      have hne : d ≠ [] := fun h => hplain.d (by rw [hρd, h])
      have hmem : d ∈ dsOf rs ρ.kind := mem_dsOf.mpr ⟨ρ, hρ, rfl, haddr, hρd, hne⟩
      rw [hρd, dOf, (own_iff.mp hown).1, haddr, if_pos rfl] at hd
      have htag := (Option.filter_eq_some_iff.mp hd).1
      unfold tagValue at htag
      obtain ⟨t, ht, hvalue⟩ := Option.bind_eq_some_iff.mp htag
      unfold carries dTags
      refine List.any_eq_true.mpr ⟨d, ?_, by simpa using hmem⟩
      refine List.mem_filterMap.mpr ⟨t, List.mem_filter.mpr ⟨List.mem_of_find?_eq_some ht, ?_⟩, hvalue⟩
      simpa using List.find?_some ht

theorem filter_passes_nil (events : List Event) : events.filter (passes []) = events := by
  rw [List.filter_eq_self]
  exact fun _ _ => rfl

/-- The events that a batch brings of one of its requests -/
theorem own_batchEvents (hρ : ρ ∈ rs) : (batchEvents stored hasFallback rs).filter (own ρ) =
    (stored.filter (own ρ)).filter (passes (dsOf rs ρ.kind)) ++
      if hasFallback then
        (storedQuery stored (buildBatchFilters (missed stored rs))).filter (own ρ)
      else [] := by
  rw [batchEvents, List.filter_append, own_storedQuery hρ]
  cases hasFallback with
  | false => rfl
  | true => rfl

/-- A request that names its `d` resolves to the same event in every batch. -/
theorem named_batch (hρ : ρ ∈ rs) (hplain : Plain ρ) (hnamed : takesAny ρ = false) :
    foremost ρ ((batchEvents stored hasFallback rs).filter (own ρ)) =
      foremost ρ (stored.filter (own ρ)) := by
  have hexact : ((stored.filter (own ρ)).filter (passes (dsOf rs ρ.kind))).filter
      (fun e => dOf e = ρ.d) = (stored.filter (own ρ)).filter fun e => dOf e = ρ.d := by
    rw [List.filter_filter]
    refine List.filter_congr fun e he => ?_
    by_cases hd : dOf e = ρ.d
    · simp [hd, passes_named hρ hplain hnamed (List.mem_filter.mp he).2 hd]
    · simp [hd]
  rw [foremost_named hnamed, foremost_named hnamed, own_batchEvents hρ, List.filter_append, hexact]
  refine newest_append fun e he => ?_
  obtain ⟨hmem, hd⟩ := List.mem_filter.mp he
  split_ifs at hmem
  · exact List.mem_filter.mpr ⟨(mem_own_missed hmem).1, hd⟩
  · cases hmem

/-- A request that takes any `d` resolves among what the `d`s of its batch let pass; if that is nothing,
then the second tier lets pass what the missed requests of the batch do. -/
theorem any_batch (hrs : ∀ ρ ∈ rs, Plain ρ) (hρ : ρ ∈ rs) (hany : takesAny ρ = true) :
    foremost ρ ((batchEvents stored hasFallback rs).filter (own ρ)) =
      if (stored.filter (own ρ)).filter (passes (dsOf rs ρ.kind)) = [] ∧ hasFallback = true then
        foremost ρ ((stored.filter (own ρ)).filter (passes (dsOf (missed stored rs) ρ.kind)))
      else foremost ρ ((stored.filter (own ρ)).filter (passes (dsOf rs ρ.kind))) := by
  obtain ⟨haddr, hnone⟩ : isAddressableKind ρ.kind = true ∧ ρ.d = none := by
    simpa [takesAny] using hany
  have hmissed : ρ ∈ missed stored rs ↔
      (stored.filter (own ρ)).filter (passes (dsOf rs ρ.kind)) = [] := by
    rw [missed, List.mem_filter, own_storedQuery hρ, Option.isNone_iff_eq_none,
      foremost_eq_none_iff hany]
    exact and_iff_right hρ
  rw [own_batchEvents hρ]
  cases hasFallback with
  | false => simp
  | true =>
    simp only [if_true, and_true]
    split_ifs with hnothing
    · rw [hnothing, List.nil_append, own_storedQuery (hmissed.mpr hnothing)]
    · -- what the second tier brings of it has come back before
      refine foremost_append fun e he => ?_
      obtain ⟨hown, hpass, r, hr, hkind, hpubkey⟩ := mem_own_missed he
      refine List.mem_filter.mpr ⟨hown, ?_⟩
      have hne : dsOf (missed stored rs) ρ.kind ≠ [] := by
        intro hempty
        have hd : r.d = none := by
          by_contra hsome
          obtain ⟨d, hd⟩ := Option.ne_none_iff_exists'.mp hsome
          have hdne : d ≠ [] := fun h => (hrs r (missed_subset hr)).d (by rw [hd, h])
          have hmem : d ∈ dsOf (missed stored rs) ρ.kind :=
            mem_dsOf.mpr ⟨r, hr, hkind, by rw [hkind]; exact haddr, hd, hdne⟩
          rw [hempty] at hmem
          cases hmem
        have hsame : r = ρ := by
          obtain ⟨pubkey, kind, d⟩ := r
          obtain ⟨pubkey', kind', d'⟩ := ρ
          subst hkind hpubkey hd hnone
          rfl
        exact hnothing (hmissed.mp (hsame ▸ hr))
      exact passes_mono hne (dsOf_subset missed_subset _) hpass

/-- A request that takes any `d` is not held back by the `d`s that others of its kind name: the event
that it is after carries one of them; or nothing stored for it does, and the second tier is asked
again without them, since they have all been found. -/
def Independent (stored : List Event) (hasFallback : Bool) (rs : List ReplaceableEventRequest)
    (ρ : ReplaceableEventRequest) : Prop :=
  takesAny ρ = true → dsOf rs ρ.kind ≠ [] →
    (∀ e, foremost ρ (stored.filter (own ρ)) = some e → carries e (dsOf rs ρ.kind) = true) ∨
    hasFallback = true ∧ (∀ e ∈ stored, own ρ e = true → carries e (dsOf rs ρ.kind) = false) ∧
      ∀ r ∈ rs, r.kind = ρ.kind → ∀ d, r.d = some d →
        ∃ e ∈ stored, own r e = true ∧ dOf e = some d

/-- The `d`s that the missed requests of a kind name are none exactly when all of them are found. -/
theorem dsOf_missed_eq_nil (hrs : ∀ ρ ∈ rs, Plain ρ) {k : Int} (haddr : isAddressableKind k = true) :
    dsOf (missed stored rs) k = [] ↔ ∀ r ∈ rs, r.kind = k → ∀ d, r.d = some d →
      ∃ e ∈ stored, own r e = true ∧ dOf e = some d := by
  have hfound (r : ReplaceableEventRequest) (hr : r ∈ rs) {d : JsString} (hd : r.d = some d) :
      r ∈ missed stored rs ↔ ¬∃ e ∈ stored, own r e = true ∧ dOf e = some d := by
    have hnamed : takesAny r = false := by simp [takesAny, hd]
    have hprimary : foremost r ((storedQuery stored (buildBatchFilters rs)).filter (own r)) =
        foremost r (stored.filter (own r)) := by
      have hsame : foremost r ((batchEvents stored false rs).filter (own r)) = _ :=
        named_batch hr (hrs r hr) hnamed
      simpa [batchEvents] using hsame
    rw [missed, List.mem_filter, hprimary, Option.isNone_iff_eq_none, foremost_named hnamed,
      newest_eq_none_iff, List.filter_eq_nil_iff]
    simp [hr, hd]
  rw [List.eq_nil_iff_forall_not_mem]
  constructor
  · intro h r hr hkind d hd
    by_contra hno
    have hne : d ≠ [] := fun h => (hrs r hr).d (by rw [hd, h])
    exact h d (mem_dsOf.mpr ⟨r, (hfound r hr hd).mpr hno, hkind, by rw [hkind]; exact haddr, hd, hne⟩)
  · intro h d hmem
    obtain ⟨r, hr, hkind, -, hd, -⟩ := mem_dsOf.mp hmem
    exact (hfound r (missed_subset hr) hd).mp hr (h r (missed_subset hr) hkind d hd)

theorem batch_eq_iff (hrs : ∀ ρ ∈ rs, Plain ρ) (hρ : ρ ∈ rs) :
    foremost ρ ((batchEvents stored hasFallback rs).filter (own ρ)) =
      foremost ρ (stored.filter (own ρ)) ↔ Independent stored hasFallback rs ρ := by
  cases hany : takesAny ρ with
  | false =>
    refine iff_of_true (named_batch hρ (hrs ρ hρ) hany) fun h => ?_
    rw [hany] at h
    cases h
  | true =>
    rw [any_batch hrs hρ hany]
    by_cases hds : dsOf rs ρ.kind = []
    · refine iff_of_true ?_ fun _ hne => absurd hds hne
      rw [hds, filter_passes_nil]
      split_ifs with h
      · rw [h.1, List.filter_nil]
      · rfl
    · have hpasses (e : Event) : passes (dsOf rs ρ.kind) e = carries e (dsOf rs ρ.kind) := by
        rw [passes, List.isEmpty_eq_false_iff.mpr hds, Bool.false_or]
      have hmem {e : Event} : e ∈ (stored.filter (own ρ)).filter (passes (dsOf rs ρ.kind)) ↔
          e ∈ stored.filter (own ρ) ∧ carries e (dsOf rs ρ.kind) = true := by
        rw [List.mem_filter, hpasses]
      have hnothing : (stored.filter (own ρ)).filter (passes (dsOf rs ρ.kind)) = [] ↔
          ∀ e ∈ stored, own ρ e = true → carries e (dsOf rs ρ.kind) = false := by
        rw [List.filter_eq_nil_iff]
        simp only [List.mem_filter, hpasses, and_imp, Bool.not_eq_true]
      split_ifs with h
      · obtain ⟨hempty, hfb⟩ := h
        have hnone : ∀ e, foremost ρ (stored.filter (own ρ)) = some e →
            carries e (dsOf rs ρ.kind) = false := by
          intro e he
          obtain ⟨hstored, hown⟩ := List.mem_filter.mp (foremost_mem he)
          exact hnothing.mp hempty e hstored hown
        constructor
        · intro heq _ _
          by_cases hU : dsOf (missed stored rs) ρ.kind = []
          · exact .inr ⟨hfb, hnothing.mp hempty,
              (dsOf_missed_eq_nil hrs (Bool.and_eq_true_iff.mp hany).1).mp hU⟩
          · -- the missed requests let no more of it pass
            have hsub : (stored.filter (own ρ)).filter (passes (dsOf (missed stored rs) ρ.kind)) = [] := by
              rw [List.eq_nil_iff_forall_not_mem]
              intro e he
              obtain ⟨hown, hpass⟩ := List.mem_filter.mp he
              have hin := List.mem_filter.mpr
                ⟨hown, passes_mono hU (dsOf_subset missed_subset _) hpass⟩
              rw [hempty] at hin
              cases hin
            rw [hsub, foremost_nil] at heq
            refine .inl fun e he => ?_
            rw [he] at heq
            cases heq
        · intro hind
          rcases hind hany hds with hcarries | ⟨-, -, hfound⟩
          · have hgone : stored.filter (own ρ) = [] := by
              rw [← foremost_eq_none_iff hany]
              cases he : foremost ρ (stored.filter (own ρ)) with
              | none => rfl
              | some e =>
                have hyes := hcarries e he
                rw [hnone e he] at hyes
                cases hyes
            rw [hgone, List.filter_nil]
          · rw [(dsOf_missed_eq_nil hrs (Bool.and_eq_true_iff.mp hany).1).mpr hfound,
              filter_passes_nil]
      · constructor
        · intro heq _ _
          refine .inl fun e he => ?_
          rw [he] at heq
          exact (hmem.mp (foremost_mem heq)).2
        · intro hind
          rcases hind hany hds with hcarries | ⟨hfb, hno, -⟩
          · cases he : foremost ρ (stored.filter (own ρ)) with
            | none =>
              rw [(foremost_eq_none_iff hany).mp he, List.filter_nil, foremost_nil]
            | some e => exact foremost_filter he (by rw [hpasses]; exact hcarries e he)
          · exact absurd ⟨hnothing.mpr hno, hfb⟩ h

/-- Alone, a request resolves to the foremost of all that is stored of its own. -/
theorem storedBatch_alone (hρ : Plain ρ) :
    storedBatch stored hasFallback [toKey ρ] = [foremost ρ (stored.filter (own ρ))] := by
  have hall : ∀ r ∈ [ρ], Plain r := by simpa using hρ
  have hsingle : storedBatch stored hasFallback ([ρ].map toKey) = _ := storedBatch_eq hall
  have hind : Independent stored hasFallback [ρ] ρ := by
    intro hany hne
    obtain ⟨d, hd⟩ := List.exists_mem_of_ne_nil _ hne
    obtain ⟨r, hr, -, -, hrd, -⟩ := mem_dsOf.mp hd
    obtain rfl := List.mem_singleton.mp hr
    simp [takesAny, hrd] at hany
  rw [List.map_singleton, List.map_singleton,
    (batch_eq_iff hall (List.mem_singleton_self ρ)).mpr hind] at hsingle
  exact hsingle

end Batches

/-- Every request of a batch resolves as it would alone exactly when all of them are independent. -/
theorem batching_invisible_iff (stored : List Event) (hasFallback : Bool)
    (requests : List ReplaceableEventRequest) :
    storedBatch stored hasFallback (requests.map toKey) =
        requests.flatMap (fun r => storedBatch stored hasFallback [toKey r]) ↔
      ∀ r ∈ requests, Independent stored hasFallback
        (requests.map fun r => parseKey (toKey r)) (parseKey (toKey r)) := by
  have hplain : ∀ ρ ∈ requests.map fun r => parseKey (toKey r), Plain ρ := by
    intro ρ hρ
    obtain ⟨r, -, rfl⟩ := List.mem_map.mp hρ
    exact (parseKey_plain r).1
  have hkeys : requests.map toKey = (requests.map fun r => parseKey (toKey r)).map toKey := by
    rw [List.map_map]
    exact List.map_congr_left fun r _ => (parseKey_plain r).2.symm
  have halone : requests.flatMap (fun r => storedBatch stored hasFallback [toKey r]) =
      requests.map fun r => foremost (parseKey (toKey r))
        (stored.filter (own (parseKey (toKey r)))) := by
    rw [List.map_eq_flatMap]
    refine List.flatMap_congr fun r _ => ?_
    have hsingle : storedBatch stored hasFallback [toKey (parseKey (toKey r))] = _ :=
      storedBatch_alone (parseKey_plain r).1
    rw [(parseKey_plain r).2] at hsingle
    exact hsingle
  rw [hkeys, storedBatch_eq hplain, halone, List.map_map, List.map_inj_left]
  refine forall₂_congr fun r hr => ?_
  exact batch_eq_iff hplain (List.mem_map_of_mem hr)

/-- An emoji set of any name, and one of another author with a name. -/
abbrev demoEmojiRequests : List ReplaceableEventRequest :=
  [⟨js "aa", 30030, none⟩, ⟨js "bb", 30030, some (js "cats")⟩]

abbrev demoEmojiSet : Event := ⟨js "01", js "aa", 5, 30030, [[js "d", js "dogs"]], [], []⟩

/-- The set of the first author is stored, and its request comes back empty in the batch alone. -/
theorem batching_hides_event : ¬∀ (stored : List Event) (hasFallback : Bool)
    (requests : List ReplaceableEventRequest),
    storedBatch stored hasFallback (requests.map toKey) =
      requests.flatMap fun r => storedBatch stored hasFallback [toKey r] := by
  intro h
  have hbatch : storedBatch [demoEmojiSet] true (demoEmojiRequests.map toKey) = [none, none] := by
    decide +kernel
  have halone : (demoEmojiRequests.flatMap fun r => storedBatch [demoEmojiSet] true [toKey r]) =
      [some demoEmojiSet, none] := by
    decide +kernel
  have heq := h [demoEmojiSet] true demoEmojiRequests
  rw [hbatch, halone] at heq
  cases heq

end LivelierBridge.Nostr
