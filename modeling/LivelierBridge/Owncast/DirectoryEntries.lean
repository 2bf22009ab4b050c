import LivelierBridge.Owncast.LiveSet

namespace LivelierBridge.Owncast

open Framework Js Discovery

variable {ν : Type}

/-! ### Well-formed entries -/

/-- A field that is missing or whose value is as declared. -/
def fieldIs (v : Json ν) (key : String) (p : Json ν → Bool) : Bool :=
  (optionalProp (some v) (js key)).all p

def isStr : Json ν → Bool
  | .str _ => true
  | .null | .bool _ | .num _ | .arr _ | .obj _ => false

def isBool : Json ν → Bool
  | .bool _ => true
  | .null | .num _ | .str _ | .arr _ | .obj _ => false

def isNum : Json ν → Bool
  | .num _ => true
  | .null | .bool _ | .str _ | .arr _ | .obj _ => false

/-- A `DirectoryTag`. -/
def isTag (v : Json ν) : Bool :=
  match v with
  | .obj _ => ["name", "slug", "description", "image"].all fun key => fieldIs v key isStr
  | .null | .bool _ | .num _ | .str _ | .arr _ => false

def isTags : Json ν → Bool
  | .arr tags => tags.all isTag
  | .null | .bool _ | .num _ | .str _ | .obj _ => false

/-- A valid instance whose fields are as `DirectoryInstance` declares them, where it has them. -/
def wellFormed (R : Runtime) (raw : Json ν) : Bool :=
  isValidInstance R raw &&
    (["name", "description", "streamTitle", "logo", "lastSeen", "streamingSince"].all fun key =>
      fieldIs raw key isStr) &&
    fieldIs raw "id" isNum && fieldIs raw "nsfw" isBool && fieldIs raw "tags" isTags

/-- A property set anew, on an object. -/
def setProp (v : Json ν) (key : String) (x : Json ν) : Json ν :=
  match v with
  | .obj members => .obj (OrderedMap.put (js key) x members)
  | .null | .bool _ | .num _ | .str _ | .arr _ => v

/-- The payload with the malformed entries absent. -/
def withoutMalformed (R : Runtime) (payload : Json ν) : Json ν :=
  setProp payload "sections" (.arr ((arrayProp payload "sections").map fun sec =>
    setProp sec "instances" (.arr ((arrayProp sec "instances").filter (wellFormed R)))))

theorem optionalProp_setProp_of_ne (v x : Json ν) {key key' : String} (h : js key' ≠ js key) :
    optionalProp (some (setProp v key x)) (js key') = optionalProp (some v) (js key') := by
  cases v with
  | obj members => exact OrderedMap.find_put_of_ne h x members
  | null | bool b | num n | str s | arr elems => rfl

/-- An array that is set is read, but for a value that has no properties and no array either. -/
theorem arrayProp_setProp (v : Json ν) (key : String) (f : List (Json ν) → List (Json ν))
    (hf : f [] = []) :
    arrayProp (setProp v key (.arr (f (arrayProp v key)))) key = f (arrayProp v key) := by
  cases v with
  | obj members =>
    simp only [arrayProp, setProp, optionalProp, OrderedMap.find_put_self]
  | null | bool b | num n | str s | arr elems => simp [arrayProp, setProp, optionalProp, hf]

theorem entries_withoutMalformed (R : Runtime) (payload : Json ν) :
    entries (withoutMalformed R payload) =
      (entries payload).filter fun e => wellFormed R e.2 := by
  have hsections : arrayProp (withoutMalformed R payload) "sections" =
      (arrayProp payload "sections").map fun sec =>
        setProp sec "instances" (.arr ((arrayProp sec "instances").filter (wellFormed R))) :=
    arrayProp_setProp payload "sections" (List.map _) rfl
  have hsec : ∀ sec : Json ν, sectionEntries
      (setProp sec "instances" (.arr ((arrayProp sec "instances").filter (wellFormed R)))) =
        (sectionEntries sec).filter fun e => wellFormed R e.2 := by
    intro sec
    have hinstances := arrayProp_setProp sec "instances" (List.filter (wellFormed R)) rfl
    have honline := optionalProp_setProp_of_ne sec
      (.arr ((arrayProp sec "instances").filter (wellFormed R)))
      (show js "online" ≠ js "instances" by decide)
    rw [sectionEntries, sectionEntries, hinstances, honline, List.filter_map]
    rfl
  rw [entries, hsections, List.flatMap_map, entries, List.filter_flatMap]
  simp only [hsec]

variable [JsNumber ν]

/-! ### What the tags are read as -/

/-- The adapter's live set, without the answers. -/
def discoverLive (R : Runtime) (payload : Json ν) : Option (List (DiscoveredLive ν)) :=
  (parseDirectory R payload).bind fun d => (d.live.mapM (toDiscoveredLive R)).toOption

theorem fetchLive_live (R : Runtime) (answers : JsString → LiveAnswers ν) (payload : Json ν) :
    (fetchLive R answers payload).map (fun f => f.live.map Prod.fst) = discoverLive R payload := by
  unfold fetchLive discoverLive
  cases parseDirectory R payload with
  | none => rfl
  | some d =>
    cases hlive : d.live.mapM (toDiscoveredLive R) with
    | error err => simp [hlive, Except.toOption]
    | ok live => simp [hlive, Except.toOption, List.map_map, Function.comp_def]

/-- A tag that is read without an error, to a text or to nothing. -/
def tagReadable (t : Json ν) : Bool :=
  match t with
  | .null => false
  | .bool _ | .num _ | .str _ | .arr _ | .obj _ =>
    (optionalProp (some t) (js "slug")).all fun v => isStr v || !v.truthy

def readable (raw : Json ν) : Bool := (arrayProp raw "tags").all tagReadable

/-- A list of non-empty strings. -/
def StringTags (tags : List (Json ν)) : Prop := ∀ t ∈ tags, ∃ s, s ≠ [] ∧ t = .str s

omit [JsNumber ν] in
theorem prop_eq_optionalProp {t : Json ν} (h : t ≠ .null) (key : JsString) :
    t.prop key = .ok (optionalProp (some t) key) := by
  cases t with
  | null => exact absurd rfl h
  | bool b | num n | str s | arr elems | obj members => rfl

theorem tagSlugs_cons {t : Json ν} (h : t ≠ .null) (ts : List (Json ν)) :
    tagSlugs (t :: ts) = (tagSlugs ts).map
      (((optionalProp (some t) (js "slug")).filter Json.truthy).toList ++ ·) := by
  unfold tagSlugs
  rw [List.mapM_cons, prop_eq_optionalProp h]
  cases hts : ts.mapM fun t : Json ν => t.prop (js "slug") with
  | error err => rfl
  | ok slugs =>
    cases hslug : optionalProp (some t) (js "slug") with
    | none => rfl
    | some v =>
      by_cases hv : v.truthy = true
      · simp [Except.map, bind, Except.bind, pure, Except.pure, Option.filter_some, hv]
      · simp [Except.map, bind, Except.bind, pure, Except.pure, Option.filter_some, hv]

theorem stringTags_slug {v : Option (Json ν)} :
    StringTags (v.filter Json.truthy).toList ↔ (v.all fun v => isStr v || !v.truthy) = true := by
  cases v with
  | none => simp [StringTags]
  | some v =>
    cases v with
    | str s =>
      by_cases hs : s = []
      · simp [StringTags, hs, Json.truthy, isStr]
      · simp [StringTags, hs, Json.truthy, isStr]
    | null | bool b | num n | arr elems | obj members =>
      simp [StringTags, isStr, Option.filter_some]

omit [JsNumber ν] in
theorem stringTags_append {a b : List (Json ν)} :
    StringTags (a ++ b) ↔ StringTags a ∧ StringTags b := List.forall_mem_append

/-- Tags are read to non-empty strings exactly when each can be. -/
theorem tagSlugs_readable (tags : List (Json ν)) :
    (∃ slugs, tagSlugs tags = .ok slugs ∧ StringTags slugs) ↔ tags.all tagReadable = true := by
  induction tags with
  | nil => exact iff_of_true ⟨[], rfl, by simp [StringTags]⟩ rfl
  | cons t ts ih =>
    rw [List.all_cons, Bool.and_eq_true, ← ih]
    cases ht : t with
    | null =>
      refine iff_of_false ?_ (fun h => by cases h.1)
      rintro ⟨slugs, hslugs, -⟩
      cases hslugs
    | bool b | num n | str s | arr elems | obj members =>
      have hne : t ≠ .null := by simp [ht]
      have hread : tagReadable t = true ↔
          StringTags (((optionalProp (some t) (js "slug")).filter Json.truthy).toList) := by
        rw [stringTags_slug, ht]
        rfl
      rw [← ht, tagSlugs_cons hne, hread]
      constructor
      · rintro ⟨slugs, hslugs, htags⟩
        cases hts : tagSlugs ts with
        | error err =>
          rw [hts] at hslugs
          cases hslugs
        | ok rest =>
          rw [hts] at hslugs
          obtain rfl := Except.ok.inj hslugs
          obtain ⟨hfirst, hrest⟩ := stringTags_append.mp htags
          exact ⟨hfirst, rest, rfl, hrest⟩
      · rintro ⟨hfirst, rest, hts, hrest⟩
        refine ⟨_, ?_, stringTags_append.mpr ⟨hfirst, hrest⟩⟩
        rw [hts]
        rfl

theorem toDiscoveredLive_readable (R : Runtime) (raw : Json ν) :
    (∃ r, toDiscoveredLive R (coerceInstance raw) = .ok r ∧ StringTags r.tags) ↔
      readable raw = true := by
  have hmap : toDiscoveredLive R (coerceInstance raw) = (tagSlugs (arrayProp raw "tags")).map _ := rfl
  rw [readable, ← tagSlugs_readable, hmap]
  constructor
  · rintro ⟨r, hr, htags⟩
    cases hslugs : tagSlugs (arrayProp raw "tags") with
    | error err =>
      rw [hslugs] at hr
      cases hr
    | ok slugs =>
      rw [hslugs] at hr
      obtain rfl := Except.ok.inj hr
      exact ⟨slugs, rfl, htags⟩
  · rintro ⟨slugs, hslugs, htags⟩
    rw [hslugs]
    exact ⟨_, rfl, htags⟩

/-! ### A malformed entry costs only itself -/

/-- The results of the well-formed entries. -/
def wellFormedResults (R : Runtime) (d : ParsedDirectory ν) (results : List (DiscoveredLive ν)) :
    List (DiscoveredLive ν) :=
  ((d.rawLive.zip results).filter fun e => wellFormed R e.1).map Prod.snd

/-- Reading a payload returns, with values of the declared types, and what the well-formed entries
give is the same without the malformed ones. -/
structure CostsOnlyItself (R : Runtime) (payload : Json ν) (d : ParsedDirectory ν) : Prop where
  returns : ∃ results, discoverLive R payload = some results
  typed : ∀ results, discoverLive R payload = some results → ∀ r ∈ results, StringTags r.tags
  others : ∀ results, discoverLive R payload = some results →
    discoverLive R (withoutMalformed R payload) = some (wellFormedResults R d results)

/-- An entry that is first of its url is readable when it is online; and when it is malformed, the
first well-formed entry of its url, if there is one, is not online. -/
def MalformedHarmless (R : Runtime) (payload : Json ν) : Prop :=
  ∀ key e, firstOf (entryKey R) key (entries payload) = some e →
    (e.1 = true → readable e.2 = true) ∧
      (wellFormed R e.2 = false → ∀ e',
        firstOf (entryKey R) key ((entries payload).filter fun e => wellFormed R e.2) = some e' →
          e'.1 = false)

/-- What each live entry is read as, in their order. -/
theorem discoverLive_eq_some {R : Runtime} {payload : Json ν} {results : List (DiscoveredLive ν)} :
    discoverLive R payload = some results ↔
      List.Forall₂ (fun e r => toDiscoveredLive R (coerceInstance e.2) = .ok r)
        (liveEntries R payload) results := by
  obtain ⟨d, hd, -, hlive⟩ := parseDirectory_live R payload
  rw [discoverLive, hd, Option.bind_some, hlive, ← List.forall₂_map_left_iff
    (f := fun e : Entry ν => coerceInstance e.2) (R := fun i r => toDiscoveredLive R i = .ok r),
    ← mapM_eq_ok]
  cases ((liveEntries R payload).map fun e => coerceInstance e.2).mapM (toDiscoveredLive R) with
  | error err => exact iff_of_false (fun h => by cases h) (fun h => by cases h)
  | ok live =>
    constructor
    · intro h
      rw [Option.some.inj h]
    · intro h
      rw [← Except.ok.inj h]
      rfl

/-- The live set is read without an error, to values of the declared types, exactly when each of
its entries is readable. -/
theorem discoverLive_typed_iff (R : Runtime) (payload : Json ν) :
    (∃ results, discoverLive R payload = some results ∧ ∀ r ∈ results, StringTags r.tags) ↔
      ∀ e ∈ liveEntries R payload, readable e.2 = true := by
  simp only [discoverLive_eq_some]
  generalize liveEntries R payload = es
  induction es with
  | nil => exact iff_of_true ⟨[], .nil, by simp⟩ (by simp)
  | cons e es ih =>
    rw [List.forall_mem_cons, ← toDiscoveredLive_readable R, ← ih]
    constructor
    · rintro ⟨results, hresults, htyped⟩
      obtain ⟨r, rs, hr, hrs, rfl⟩ := List.forall₂_cons_left_iff.mp hresults
      obtain ⟨hrtyped, hrstyped⟩ := List.forall_mem_cons.mp htyped
      exact ⟨⟨r, hr, hrtyped⟩, rs, hrs, hrstyped⟩
    · rintro ⟨⟨r, hr, hrtyped⟩, rs, hrs, hrstyped⟩
      exact ⟨r :: rs, .cons hr hrs, List.forall_mem_cons.mpr ⟨hrtyped, hrstyped⟩⟩

omit [JsNumber ν] in
/-- Without the malformed entries, the live ones are the first well-formed ones. -/
theorem liveEntries_withoutMalformed (R : Runtime) (payload : Json ν) :
    liveEntries R (withoutMalformed R payload) =
      (firsts (entryKey R) [] ((entries payload).filter fun e => wellFormed R e.2)).filter Prod.fst := by
  rw [liveEntries, entries_withoutMalformed]

theorem forall₂_wellFormed {R : Runtime} {payload : Json ν} {d : ParsedDirectory ν}
    (hraw : d.rawLive = (liveEntries R payload).map Prod.snd) {results : List (DiscoveredLive ν)}
    (h : discoverLive R payload = some results) :
    List.Forall₂ (fun e r => toDiscoveredLive R (coerceInstance e.2) = .ok r)
      ((liveEntries R payload).filter fun e => wellFormed R e.2) (wellFormedResults R d results) := by
  have hzip : wellFormedResults R d results =
      (((liveEntries R payload).zip results).filter fun x => wellFormed R x.1.2).map Prod.snd := by
    rw [wellFormedResults, hraw, List.zip_map_left, List.filter_map, List.map_map]
    rfl
  rw [hzip]
  exact forall₂_filter_zip (discoverLive_eq_some.mp h) fun e => wellFormed R e.2

/-- A malformed entry costs only itself exactly when it has no tag that cannot be read where it is
live, and does not stand before a live well-formed entry of the same url. -/
theorem costsOnlyItself_iff (R : Runtime) (payload : Json ν) :
    ∃ d, parseDirectory R payload = some d ∧
      (CostsOnlyItself R payload d ↔ MalformedHarmless R payload) := by
  obtain ⟨d, hd, hraw, -⟩ := parseDirectory_live R payload
  refine ⟨d, hd, ?_, ?_⟩
  · intro h key e hfirst
    obtain ⟨results, hresults⟩ := h.returns
    have hreadable := (discoverLive_typed_iff R payload).mp ⟨results, hresults, h.typed results hresults⟩
    refine ⟨fun honline => hreadable e (mem_liveEntries.mpr ⟨honline, key, hfirst⟩), ?_⟩
    intro hmalformed e' hfirst'
    by_contra honline
    replace honline : e'.1 = true := by simpa using honline
    have hlive : e' ∈ liveEntries R (withoutMalformed R payload) := by
      rw [mem_liveEntries, entries_withoutMalformed]
      exact ⟨honline, key, hfirst'⟩
    -- its result is the one of a well-formed live entry of the payload, which has the same url
    obtain ⟨r, hr, hread'⟩ :=
      forall₂_mem_left (discoverLive_eq_some.mp (h.others results hresults)) hlive
    obtain ⟨e₂, he₂, hread₂⟩ := forall₂_mem_left (forall₂_wellFormed hraw hresults).flip hr
    obtain ⟨hmem₂, hwell₂⟩ := List.mem_filter.mp he₂
    obtain ⟨-, key₂, hfirst₂⟩ := mem_liveEntries.mp hmem₂
    have hurl : textProp e₂.2 "url" = textProp e'.2 "url" :=
      (toDiscoveredLive_url hread₂).symm.trans (toDiscoveredLive_url hread')
    have hkey₂ := entryKey_eq_some (key_of_firstOf hfirst₂)
    rw [hurl, entryKey_eq_some (key_of_firstOf hfirst')] at hkey₂
    obtain rfl := Option.some.inj hkey₂
    obtain rfl := Option.some.inj (hfirst.symm.trans hfirst₂)
    rw [hmalformed] at hwell₂
    cases hwell₂
  · intro h
    have hreadable : ∀ e ∈ liveEntries R payload, readable e.2 = true := by
      intro e he
      obtain ⟨honline, key, hfirst⟩ := mem_liveEntries.mp he
      exact (h key e hfirst).1 honline
    obtain ⟨results, hresults, htyped⟩ := (discoverLive_typed_iff R payload).mpr hreadable
    refine ⟨⟨results, hresults⟩, ?_, ?_⟩
    · intro results' hresults'
      obtain rfl := Option.some.inj (hresults.symm.trans hresults')
      exact htyped
    · intro results' hresults'
      obtain rfl := Option.some.inj (hresults.symm.trans hresults')
      have hsame : (liveEntries R payload).filter (fun e => wellFormed R e.2) =
          liveEntries R (withoutMalformed R payload) := by
        rw [liveEntries_withoutMalformed]
        exact firsts_filter (List.nil_subset _) (by simp) fun key _ e hfirst hmalformed =>
          (h key e hfirst).2 hmalformed
      rw [discoverLive_eq_some, ← hsame]
      exact forall₂_wellFormed hraw hresults

/-- A live channel with a tag that is `null`, before another channel. -/
def nullTag : Json Int :=
  .obj [(js "sections", .arr [.obj [(js "online", .bool true), (js "instances", .arr [
    .obj [(js "url", .str (js "a")), (js "tags", .arr [.null])],
    .obj [(js "url", .str (js "b"))]])]])]

theorem null_tag_costs_the_directory : ∃ d,
    parseDirectory hostRuntime nullTag = some d ∧ ¬ CostsOnlyItself hostRuntime nullTag d := by
  obtain ⟨d, hd, -⟩ := parseDirectory_live hostRuntime nullTag
  refine ⟨d, hd, fun h => ?_⟩
  have hnone : discoverLive hostRuntime nullTag = none := rfl
  obtain ⟨results, hresults⟩ := h.returns
  rw [hnone] at hresults
  cases hresults

end LivelierBridge.Owncast
