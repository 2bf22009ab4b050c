import LivelierBridge.Discovery.Cycle

namespace LivelierBridge.Owncast

open Framework Js Discovery

variable {ν : Type}

/-- A string property, empty when it has another type. -/
def textProp (raw : Json ν) (key : String) : JsString :=
  match optionalProp (some raw) (js key) with
  | some (.str s) => s
  | _ => []

def arrayProp (raw : Json ν) (key : String) : List (Json ν) :=
  match optionalProp (some raw) (js key) with
  | some (.arr elems) => elems
  | _ => []

def isTrue (v : Option (Json ν)) : Bool :=
  match v with
  | some (.bool b) => b
  | _ => false

/-- An instance of the directory, coerced into shape. -/
structure DirectoryInstance (ν : Type) where
  name : JsString
  description : JsString
  streamTitle : JsString
  url : JsString
  logo : JsString
  tags : List (Json ν)
  nsfw : Bool
  streamingSince : JsString

/-- The url is a text that parses as an http(s) URL. -/
def isValidInstance (R : Runtime) (raw : Json ν) : Bool :=
  let url := textProp raw "url"
  !url.isEmpty &&
    (R.parseUrl url).any fun u => u.protocol = js "http:" || u.protocol = js "https:"

def coerceInstance (raw : Json ν) : DirectoryInstance ν where
  name := textProp raw "name"
  description := textProp raw "description"
  streamTitle := textProp raw "streamTitle"
  url := textProp raw "url"
  logo := textProp raw "logo"
  tags := arrayProp raw "tags"
  nsfw := isTrue (optionalProp (some raw) (js "nsfw"))
  streamingSince := textProp raw "streamingSince"

/-- What has been read of a directory: the normalized urls seen, the live instances and their
raw objects, and whether any instance was valid. -/
structure ParsedDirectory (ν : Type) where
  seen : List JsString
  live : List (DirectoryInstance ν)
  rawLive : List (Json ν)
  anyValid : Bool

/-- Read one entry of a section. -/
def readInstance (R : Runtime) (isLiveSection : Bool) (d : ParsedDirectory ν) (raw : Json ν) :
    Option (ParsedDirectory ν) :=
  if !isValidInstance R raw then some d
  else
    let inst := coerceInstance raw
    (normalizeInstanceUrl R inst.url).map fun key =>
      if key ∈ d.seen then { d with anyValid := true }
      else if isLiveSection then
        ⟨key :: d.seen, d.live ++ [inst], d.rawLive ++ [raw], true⟩
      else { d with seen := key :: d.seen, anyValid := true }

def readSection (R : Runtime) (d : ParsedDirectory ν) (sec : Json ν) :
    Option (ParsedDirectory ν) :=
  let isLiveSection := isTrue (optionalProp (some sec) (js "online"))
  (arrayProp sec "instances").foldlM (readInstance R isLiveSection) d

/-- Read a directory payload; no result where it throws. -/
def parseDirectory (R : Runtime) (payload : Json ν) : Option (ParsedDirectory ν) :=
  (arrayProp payload "sections").foldlM (readSection R) ⟨[], [], [], false⟩

/-- The field shape of the first valid instance: coercion gives each the ten expected fields. -/
def schemaFingerprint (anyValid : Bool) : JsString :=
  if anyValid then js "known:10/10" else js "empty"

/-- Unix seconds of an ISO date, rounded down. -/
def parseStreamingSince (R : Runtime) (iso : JsString) : Option Int :=
  if iso.isEmpty then none else (R.parseDate iso).map (· / 1000)

/-- The absolute picture URL. -/
def pictureUrl (instanceUrl logo : JsString) : JsString :=
  if logo.isEmpty then instanceUrl ++ js "/logo"
  else if (js "http://").isPrefixOf logo || (js "https://").isPrefixOf logo then logo
  else instanceUrl ++ (if (js "/").isPrefixOf logo then [] else js "/") ++ logo

variable [JsNumber ν]

/-- The slugs of the tags; a tag that is `null` throws. -/
def tagSlugs (tags : List (Json ν)) : Except Thrown (List (Json ν)) :=
  (tags.mapM fun t : Json ν => t.prop (js "slug")).map fun slugs =>
    (slugs.filterMap id).filter Json.truthy

/-- The engine's shape of a directory instance. -/
def toDiscoveredLive (R : Runtime) (inst : DirectoryInstance ν) :
    Except Thrown (DiscoveredLive ν) :=
  (tagSlugs inst.tags).map fun tags =>
    { url := inst.url
      name := inst.name
      streamTitle := inst.streamTitle
      description := inst.description
      picture := pictureUrl inst.url inst.logo
      image := inst.url ++ js "/thumbnail.jpg"
      nsfw := inst.nsfw
      startsAt := parseStreamingSince R inst.streamingSince
      streamUrl := inst.url ++ js "/hls/stream.m3u8"
      tags := tags }

/-- The adapter's live set for a payload, with the answers that each url will meet; no result
where reading the payload throws. -/
def fetchLive (R : Runtime) (answers : JsString → LiveAnswers ν) (payload : Json ν) :
    Option (Fetched ν) :=
  (parseDirectory R payload).bind fun parsed =>
    match parsed.live.mapM (toDiscoveredLive R) with
    | .error _ => none
    | .ok live => some
      { live := live.map fun inst => (inst, answers inst.url)
        raw := parsed.rawLive
        schemaVersion := schemaFingerprint parsed.anyValid }

/-- The live instances have distinct normalized urls, all of them seen. -/
def ParsedDirectory.Distinct (R : Runtime) (d : ParsedDirectory ν) : Prop :=
  (d.live.map fun inst => normalizeInstanceUrl R inst.url).Nodup ∧
    ∀ inst ∈ d.live, ∃ key ∈ d.seen, normalizeInstanceUrl R inst.url = some key

omit [JsNumber ν] in
theorem readInstance_distinct {R : Runtime} {isLiveSection : Bool} {d d' : ParsedDirectory ν}
    {raw : Json ν} (hd : d.Distinct R) (h : readInstance R isLiveSection d raw = some d') :
    d'.Distinct R := by
  obtain ⟨hnodup, hseen⟩ := hd
  unfold readInstance at h
  split at h
  · cases h
    exact ⟨hnodup, hseen⟩
  · obtain ⟨key, hkey, h⟩ := Option.map_eq_some_iff.mp h
    split_ifs at h with hmem hlive
    · subst h
      exact ⟨hnodup, hseen⟩
    · subst h
      refine ⟨?_, ?_⟩
      · -- a key that is not seen is the key of no live instance
        rw [List.map_append, List.nodup_append]
        refine ⟨hnodup, List.nodup_singleton _, ?_⟩
        intro a ha b hb
        obtain ⟨inst, hinst, rfl⟩ := List.mem_map.mp ha
        obtain ⟨key', hkey', he⟩ := hseen inst hinst
        obtain rfl := List.mem_singleton.mp hb
        rintro heq
        rw [he] at heq
        obtain rfl : key' = key := Option.some.inj (heq.trans hkey)
        exact hmem hkey'
      · intro inst hinst
        rcases List.mem_append.mp hinst with hinst | hinst
        · obtain ⟨key', hkey', he⟩ := hseen inst hinst
          exact ⟨key', List.mem_cons_of_mem _ hkey', he⟩
        · obtain rfl := List.mem_singleton.mp hinst
          exact ⟨key, List.mem_cons_self, hkey⟩
    · subst h
      refine ⟨hnodup, fun inst hinst => ?_⟩
      obtain ⟨key', hkey', he⟩ := hseen inst hinst
      exact ⟨key', List.mem_cons_of_mem _ hkey', he⟩

omit [JsNumber ν] in
theorem parseDirectory_distinct {R : Runtime} {payload : Json ν} {d : ParsedDirectory ν}
    (h : parseDirectory R payload = some d) : d.Distinct R := by
  have hstart : (⟨[], [], [], false⟩ : ParsedDirectory ν).Distinct R :=
    ⟨List.nodup_nil, fun _ hinst => absurd hinst List.not_mem_nil⟩
  refine foldlM_keeps (P := ParsedDirectory.Distinct R) ?_ hstart h
  intro d sec d' hd hs
  exact foldlM_keeps (P := ParsedDirectory.Distinct R) (fun _ _ _ => readInstance_distinct) hd hs

theorem toDiscoveredLive_url {R : Runtime} {inst : DirectoryInstance ν} {e : DiscoveredLive ν}
    (h : toDiscoveredLive R inst = .ok e) : e.url = inst.url := by
  unfold toDiscoveredLive at h
  cases ht : tagSlugs inst.tags with
  | error err => rw [ht] at h; cases h
  | ok tags => rw [ht] at h; cases h; rfl

theorem mapM_toDiscoveredLive_urls {R : Runtime} {insts : List (DirectoryInstance ν)}
    {live : List (DiscoveredLive ν)} (h : insts.mapM (toDiscoveredLive R) = .ok live) :
    live.map DiscoveredLive.url = insts.map DirectoryInstance.url := by
  induction insts generalizing live with
  | nil =>
    cases h
    rfl
  | cons inst insts ih =>
    rw [List.mapM_cons] at h
    cases he : toDiscoveredLive R inst with
    | error err => rw [he] at h; cases h
    | ok e =>
      rw [he] at h
      cases hl : insts.mapM (toDiscoveredLive R) with
      | error err => rw [hl] at h; cases h
      | ok rest =>
        rw [hl] at h
        cases h
        rw [List.map_cons, List.map_cons, ih hl, toDiscoveredLive_url he]

/-- The live set that the adapter hands to the engine names each normalized url once. -/
theorem fetchLive_distinct {R : Runtime} {answers : JsString → LiveAnswers ν} {payload : Json ν}
    {f : Fetched ν} (h : fetchLive R answers payload = some f) :
    (f.live.map fun e => normalizeInstanceUrl R e.1.url).Nodup ∧
      ∀ e ∈ f.live, ∃ key, normalizeInstanceUrl R e.1.url = some key := by
  obtain ⟨parsed, hp, h⟩ := Option.bind_eq_some_iff.mp h
  cases hl : parsed.live.mapM (toDiscoveredLive R) with
  | error err => rw [hl] at h; cases h
  | ok live =>
    rw [hl] at h
    cases h
    obtain ⟨hnodup, hseen⟩ := parseDirectory_distinct hp
    have hurls := mapM_toDiscoveredLive_urls hl
    have hmap : live.map (fun e => normalizeInstanceUrl R e.url) =
        parsed.live.map fun inst => normalizeInstanceUrl R inst.url := by
      simpa [List.map_map, Function.comp_def] using
        congrArg (List.map (normalizeInstanceUrl R)) hurls
    refine ⟨?_, ?_⟩
    · simpa [List.map_map, Function.comp_def, hmap] using hnodup
    · intro e he
      obtain ⟨inst, hinst, rfl⟩ := List.mem_map.mp he
      have hmem : inst.url ∈ parsed.live.map DirectoryInstance.url := by
        rw [← hurls]
        exact List.mem_map_of_mem hinst
      obtain ⟨inst', hinst', hu⟩ := List.mem_map.mp hmem
      obtain ⟨key, -, hk⟩ := hseen inst' hinst'
      exact ⟨key, by rw [← hu]; exact hk⟩

end LivelierBridge.Owncast
