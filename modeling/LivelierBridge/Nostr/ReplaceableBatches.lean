import Mathlib.Data.List.Induction
import LivelierBridge.Framework.OrderedMap
import LivelierBridge.Nostr.ReplaceableKeys

namespace LivelierBridge.Nostr

open Framework Js

/-- A filter of a REQ; `ds` is its `#d`. -/
structure BatchFilter where
  kinds : List Int
  authors : List JsString
  ds : Option (List JsString)
  limit : Nat

/-- The values of all `d` tags. -/
def dTags (event : Event) : List JsString :=
  (event.tags.filter fun t => t[0]? = some (js "d")).filterMap fun t => t[1]?

def carries (event : Event) (ds : List JsString) : Bool := (dTags event).any fun d => d ∈ ds

/-- The events that a filter asks for. -/
def BatchFilter.asksFor (filter : BatchFilter) (event : Event) : Bool :=
  event.kind ∈ filter.kinds && event.pubkey ∈ filter.authors && filter.ds.all (carries event)

/-- The sets that the requests of one kind are merged into. -/
structure FilterGroup where
  authors : List JsString
  ds : List JsString

/-- `Set.add` -/
def addTo (values : List JsString) (value : JsString) : List JsString :=
  if value ∈ values then values else values ++ [value]

def groupRequest (groups : OrderedMap Int FilterGroup) (r : ReplaceableEventRequest) :
    OrderedMap Int FilterGroup :=
  let group := (groups.get? r.kind).getD ⟨[], []⟩
  groups.set r.kind {
    authors := addTo group.authors r.pubkey
    ds :=
      match r.d with
      | some d => if isAddressableKind r.kind && d ≠ [] then addTo group.ds d else group.ds
      | none => group.ds }

/-- One filter per kind, with the authors and the `d` tags of all requests of the kind. -/
def buildBatchFilters (requests : List ReplaceableEventRequest) : List BatchFilter :=
  (requests.foldl groupRequest .empty).entries.map fun (kind, group) =>
    { kinds := [kind]
      authors := group.authors
      limit := group.authors.length * max 1 group.ds.length * 3
      ds := if 0 < group.ds.length then some group.ds else none }

abbrev QueryFn := List BatchFilter → List Event

/-- `batchLoad`: what the first tier misses is asked for again, when there is a second one. -/
def batchLoad (queryFn : QueryFn) (fallbackQueryFn : Option QueryFn) (keys : List JsString) :
    List (Option Event) :=
  let primary := queryFn (buildBatchFilters (keys.map parseKey))
  let allEvents :=
    match fallbackQueryFn with
    | none => primary
    | some fallbackQueryFn =>
      let unresolved := keys.filter fun key => (resolveRequest key primary).isNone
      if unresolved = [] then primary
      else primary ++ fallbackQueryFn (buildBatchFilters (unresolved.map parseKey))
  keys.map fun key => resolveRequest key allEvents

/-- A query that brings the stored events that one of its filters asks for. -/
def storedQuery (stored : List Event) : QueryFn :=
  fun filters => stored.filter fun e => filters.any fun filter => filter.asksFor e

/-! ### What a batch asks for -/

section Filters

variable {rs : List ReplaceableEventRequest} {ρ : ReplaceableEventRequest} {k : Int} {e : Event}

/-- The `d`s that the requests of a kind ask for. -/
def dsOf (rs : List ReplaceableEventRequest) (k : Int) : List JsString :=
  rs.filterMap fun r =>
    if r.kind = k ∧ isAddressableKind r.kind = true then r.d.filter fun d => d ≠ [] else none

/-- The event may come back from a filter with these `d`s. -/
def passes (ds : List JsString) (event : Event) : Bool := ds.isEmpty || carries event ds

/-- The events of the pubkey and the kind of a request. -/
def own (ρ : ReplaceableEventRequest) (event : Event) : Bool :=
  event.kind = ρ.kind && event.pubkey = ρ.pubkey

theorem own_iff : own ρ e = true ↔ e.kind = ρ.kind ∧ e.pubkey = ρ.pubkey := by simp [own]

theorem mem_dsOf {d : JsString} : d ∈ dsOf rs k ↔
    ∃ r ∈ rs, r.kind = k ∧ isAddressableKind r.kind = true ∧ r.d = some d ∧ d ≠ [] := by
  unfold dsOf
  rw [List.mem_filterMap]
  refine exists_congr fun r => and_congr_right fun _ => ?_
  split_ifs with h
  · simp [h.1, h.1 ▸ h.2, Option.filter_eq_some_iff]
  · simp only [false_iff]
    rintro ⟨hk, haddr, -⟩
    exact h ⟨hk, haddr⟩

theorem mem_addTo {values : List JsString} {value v : JsString} :
    v ∈ addTo values value ↔ v ∈ values ∨ v = value := by
  unfold addTo
  split_ifs with h
  · constructor
    · exact .inl
    · rintro (hv | rfl)
      · exact hv
      · exact h
  · simp

theorem groupRequest_of_ne {r : ReplaceableEventRequest} (groups : OrderedMap Int FilterGroup)
    (hk : k ≠ r.kind) : (groupRequest groups r).get? k = groups.get? k :=
  OrderedMap.get?_set_of_ne _ hk _

theorem groupRequest_self (groups : OrderedMap Int FilterGroup) (r : ReplaceableEventRequest) :
    let old := (groups.get? r.kind).getD ⟨[], []⟩
    ∃ group, (groupRequest groups r).get? r.kind = some group ∧
      (∀ a, a ∈ group.authors ↔ a ∈ old.authors ∨ r.pubkey = a) ∧
      ∀ d, d ∈ group.ds ↔ d ∈ old.ds ∨ d ∈ dsOf [r] r.kind := by
  refine ⟨_, OrderedMap.get?_set_self _ _ _, fun a => ?_, fun d => ?_⟩
  · rw [mem_addTo, eq_comm (a := a)]
  · have hasks : d ∈ dsOf [r] r.kind ↔
        isAddressableKind r.kind = true ∧ r.d = some d ∧ d ≠ [] := by
      rw [mem_dsOf]
      simp
    rw [hasks]
    cases hd : r.d with
    | none => simp
    | some d' =>
      by_cases hif : (isAddressableKind r.kind && decide (d' ≠ [])) = true
      · obtain ⟨haddr, hne⟩ : isAddressableKind r.kind = true ∧ d' ≠ [] := by simpa using hif
        have hsame : isAddressableKind r.kind = true ∧ some d' = some d ∧ d ≠ [] ↔ d = d' := by
          constructor
          · rintro ⟨-, heq, -⟩
            exact (Option.some.inj heq).symm
          · rintro rfl
            exact ⟨haddr, rfl, hne⟩
        dsimp only
        rw [if_pos hif, mem_addTo, hsame]
      · have hno : ¬(isAddressableKind r.kind = true ∧ some d' = some d ∧ d ≠ []) := by
          rintro ⟨haddr, heq, hne⟩
          obtain rfl := Option.some.inj heq
          exact hif (by simp [haddr, hne])
        dsimp only
        rw [if_neg hif]
        exact ⟨.inl, fun h => h.resolve_right hno⟩

/-- What the groups hold of each kind -/
theorem groups_spec (rs : List ReplaceableEventRequest) (k : Int) :
    let group := (rs.foldl groupRequest .empty).get? k
    (group.isSome = true ↔ ∃ r ∈ rs, r.kind = k) ∧
    (∀ a, a ∈ (group.getD ⟨[], []⟩).authors ↔ ∃ r ∈ rs, r.kind = k ∧ r.pubkey = a) ∧
    ∀ d, d ∈ (group.getD ⟨[], []⟩).ds ↔ d ∈ dsOf rs k := by
  induction rs using List.reverseRecOn with
  | nil => simp [dsOf]
  | append_singleton rs r ih =>
    obtain ⟨hsome, hauthors, hds⟩ := ih
    have hdsOf : dsOf (rs ++ [r]) k = dsOf rs k ++ dsOf [r] k := List.filterMap_append
    have hexists {p : ReplaceableEventRequest → Prop} :
        (∃ r' ∈ rs ++ [r], p r') ↔ (∃ r' ∈ rs, p r') ∨ p r := by
      simp [or_and_right, exists_or]
    rw [List.foldl_append, List.foldl_cons, List.foldl_nil]
    simp only [hexists, hdsOf, List.mem_append (s := dsOf rs k)]
    by_cases hk : k = r.kind
    · subst hk
      obtain ⟨group, hgroup, hauthors', hds'⟩ := groupRequest_self (rs.foldl groupRequest .empty) r
      rw [hgroup]
      refine ⟨by simp, fun a => ?_, fun d => ?_⟩
      · rw [Option.getD_some, hauthors', hauthors]
        simp
      · rw [Option.getD_some, hds', hds]
    · have hnone : dsOf [r] k = [] := by simp [dsOf, Ne.symm hk]
      rw [groupRequest_of_ne _ hk]
      have hne : r.kind ≠ k := Ne.symm hk
      simp only [hnone, hne, false_and, or_false, List.not_mem_nil]
      exact ⟨hsome, hauthors, hds⟩

/-- An event comes back when some request of its kind has its author, and when the `d`s of its kind let
it pass. -/
theorem asksFor_iff : (buildBatchFilters rs).any (fun filter => filter.asksFor e) = true ↔
    (∃ r ∈ rs, own r e = true) ∧ passes (dsOf rs e.kind) e = true := by
  obtain ⟨hsome, hauthors, hds⟩ := groups_spec rs e.kind
  have hfilter (group : FilterGroup) (hds : ∀ d, d ∈ group.ds ↔ d ∈ dsOf rs e.kind) :
      (if 0 < group.ds.length then some group.ds else none).all (carries e) =
        passes (dsOf rs e.kind) e := by
    have hsame : carries e group.ds = carries e (dsOf rs e.kind) := by
      unfold carries
      congr 1
      funext d
      simp [hds]
    unfold passes
    by_cases hempty : group.ds = []
    · have hnone : dsOf rs e.kind = [] := by
        rw [List.eq_nil_iff_forall_not_mem]
        intro d hd
        rw [← hds, hempty] at hd
        cases hd
      simp [hempty, hnone]
    · obtain ⟨d, hd⟩ := List.exists_mem_of_ne_nil _ hempty
      have hsome : (dsOf rs e.kind).isEmpty = false := by
        rw [List.isEmpty_eq_false_iff]
        exact List.ne_nil_of_mem ((hds d).mp hd)
      rw [if_pos (List.length_pos_of_mem hd), hsome, Option.all_some, Bool.false_or, hsame]
  simp only [own_iff]
  unfold buildBatchFilters
  rw [List.any_map, List.any_eq_true]
  constructor
  · rintro ⟨⟨kind, group⟩, hentry, hasks⟩
    simp only [Function.comp_apply, BatchFilter.asksFor, Bool.and_eq_true, decide_eq_true_eq,
      List.mem_singleton] at hasks
    obtain ⟨⟨rfl, hauthor⟩, hpass⟩ := hasks
    rw [(OrderedMap.get?_eq_some_iff _ _ _).mpr hentry] at hauthors hds
    rw [Option.getD_some] at hauthors hds
    obtain ⟨r, hr, hkind, hpubkey⟩ := (hauthors e.pubkey).mp hauthor
    refine ⟨⟨r, hr, hkind.symm, hpubkey.symm⟩, ?_⟩
    rwa [hfilter group hds] at hpass
  · rintro ⟨⟨r, hr, hkind, hpubkey⟩, hpass⟩
    obtain ⟨group, hgroup⟩ := Option.isSome_iff_exists.mp (hsome.mpr ⟨r, hr, hkind.symm⟩)
    rw [hgroup, Option.getD_some] at hauthors hds
    refine ⟨(e.kind, group), (OrderedMap.get?_eq_some_iff _ _ _).mp hgroup, ?_⟩
    simp only [Function.comp_apply, BatchFilter.asksFor, Bool.and_eq_true, decide_eq_true_eq,
      List.mem_singleton]
    refine ⟨⟨trivial, (hauthors _).mpr ⟨r, hr, hkind.symm, hpubkey.symm⟩⟩, ?_⟩
    rwa [hfilter group hds]

end Filters

end LivelierBridge.Nostr
