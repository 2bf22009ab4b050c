import LivelierBridge.Framework.FirstSeen
import LivelierBridge.Owncast.Directory
import LivelierBridge.Owncast.Frames

namespace LivelierBridge.Owncast

open Framework Js Discovery

variable {ν : Type}

/-! ### The entries in reading order -/

/-- An entry of a section, and whether the section is online. -/
abbrev Entry (ν : Type) := Bool × Json ν

def sectionEntries (sec : Json ν) : List (Entry ν) :=
  (arrayProp sec "instances").map fun raw => (isTrue (optionalProp (some sec) (js "online")), raw)

/-- The entries of all sections in the order they are read. -/
def entries (payload : Json ν) : List (Entry ν) :=
  (arrayProp payload "sections").flatMap sectionEntries

/-- The normalized url of an entry that is a valid instance. -/
def entryKey (R : Runtime) (e : Entry ν) : Option JsString :=
  if isValidInstance R e.2 then normalizeInstanceUrl R (textProp e.2 "url") else none

def readEntry (R : Runtime) (d : ParsedDirectory ν) (e : Entry ν) : Option (ParsedDirectory ν) :=
  readInstance R e.1 d e.2

theorem foldlM_flatMap_readEntry {R : Runtime} (secs : List (Json ν)) (d : ParsedDirectory ν) :
    secs.foldlM (readSection R) d = (secs.flatMap sectionEntries).foldlM (readEntry R) d := by
  induction secs generalizing d with
  | nil => rfl
  | cons sec secs ih =>
    have hsec : readSection R d sec = (sectionEntries sec).foldlM (readEntry R) d := by
      rw [sectionEntries, List.foldlM_map]
      rfl
    rw [List.foldlM_cons, List.flatMap_cons, List.foldlM_append, hsec]
    congr 1
    funext d'
    exact ih d'

theorem parseDirectory_eq_foldlM (R : Runtime) (payload : Json ν) :
    parseDirectory R payload = (entries payload).foldlM (readEntry R) ⟨[], [], [], false⟩ :=
  foldlM_flatMap_readEntry _ _

/-- A valid instance has a url that normalizes. -/
theorem normalize_of_valid {R : Runtime} {raw : Json ν} (h : isValidInstance R raw = true) :
    ∃ key, normalizeInstanceUrl R (textProp raw "url") = some key := by
  obtain ⟨-, hparse⟩ := Bool.and_eq_true_iff.mp h
  cases hu : R.parseUrl (textProp raw "url") with
  | none => simp [hu] at hparse
  | some u => exact ⟨_, by rw [normalizeInstanceUrl, hu]; rfl⟩

/-- What the entries add: the first of each key, when it is online. -/
theorem foldlM_readEntry (R : Runtime) (es : List (Entry ν)) (d : ParsedDirectory ν) :
    ∃ d', es.foldlM (readEntry R) d = some d' ∧
      d'.rawLive = d.rawLive ++ ((firsts (entryKey R) d.seen es).filter Prod.fst).map Prod.snd ∧
      d'.live = d.live ++
        ((firsts (entryKey R) d.seen es).filter Prod.fst).map fun e => coerceInstance e.2 := by
  induction es generalizing d with
  | nil => exact ⟨d, rfl, by simp [firsts], by simp [firsts]⟩
  | cons e es ih =>
    rw [List.foldlM_cons]
    by_cases hvalid : isValidInstance R e.2 = true
    · obtain ⟨key, hkey⟩ := normalize_of_valid hvalid
      have hentry : entryKey R e = some key := by rw [entryKey, if_pos hvalid, hkey]
      have hurl : normalizeInstanceUrl R (coerceInstance e.2).url = some key := hkey
      by_cases hseen : key ∈ d.seen
      · have hread : readEntry R d e = some { d with anyValid := true } := by
          simp [readEntry, readInstance, hvalid, hurl, hseen]
        rw [hread, firsts_cons_seen hentry hseen]
        exact ih { d with anyValid := true }
      · rw [firsts_cons_new hentry hseen]
        by_cases honline : e.1 = true
        · have hread : readEntry R d e = some ⟨key :: d.seen, d.live ++ [coerceInstance e.2],
              d.rawLive ++ [e.2], true⟩ := by
            simp [readEntry, readInstance, hvalid, hurl, hseen, honline]
          obtain ⟨d', hd', hraw, hlive⟩ := ih ⟨key :: d.seen, d.live ++ [coerceInstance e.2],
            d.rawLive ++ [e.2], true⟩
          refine ⟨d', by rw [hread]; exact hd', ?_, ?_⟩
          · rw [hraw, List.filter_cons_of_pos honline]
            simp
          · rw [hlive, List.filter_cons_of_pos honline]
            simp
        · have hread : readEntry R d e = some { d with seen := key :: d.seen, anyValid := true } := by
            simp [readEntry, readInstance, hvalid, hurl, hseen, honline]
          rw [hread, List.filter_cons_of_neg honline]
          exact ih { d with seen := key :: d.seen, anyValid := true }
    · have hread : readEntry R d e = some d := by
        simp [readEntry, readInstance, hvalid]
      have hentry : entryKey R e = none := by rw [entryKey, if_neg hvalid]
      rw [hread, firsts_cons_none hentry]
      exact ih d

/-- The entries that are live: the first of each key, when it is online. -/
def liveEntries (R : Runtime) (payload : Json ν) : List (Entry ν) :=
  (firsts (entryKey R) [] (entries payload)).filter Prod.fst

theorem parseDirectory_live (R : Runtime) (payload : Json ν) :
    ∃ d, parseDirectory R payload = some d ∧ d.rawLive = (liveEntries R payload).map Prod.snd ∧
      d.live = (liveEntries R payload).map fun e => coerceInstance e.2 := by
  rw [parseDirectory_eq_foldlM]
  simpa [liveEntries] using foldlM_readEntry R (entries payload) ⟨[], [], [], false⟩

theorem mem_liveEntries {R : Runtime} {payload : Json ν} {e : Entry ν} :
    e ∈ liveEntries R payload ↔
      e.1 = true ∧ ∃ key, firstOf (entryKey R) key (entries payload) = some e := by
  rw [liveEntries, List.mem_filter, mem_firsts]
  simp [and_comm]

/-! ### The live set -/

/-- The live set is what the sections say: one entry for each url that stands in an online section,
each with its raw record. -/
structure LiveSetExact (R : Runtime) (payload : Json ν) (d : ParsedDirectory ν) : Prop where
  distinct : (d.live.map fun inst => normalizeInstanceUrl R inst.url).Nodup
  online : ∀ key, (∃ inst ∈ d.live, normalizeInstanceUrl R inst.url = some key) ↔
    ∃ e ∈ entries payload, e.1 = true ∧ entryKey R e = some key
  raw : d.live = d.rawLive.map coerceInstance

/-- No url that stands in an online section stands first in another one. -/
def OnlineFirst (R : Runtime) (payload : Json ν) : Prop :=
  ∀ e ∈ entries payload, e.1 = true → ∀ key, entryKey R e = some key →
    ∀ e', firstOf (entryKey R) key (entries payload) = some e' → e'.1 = true

theorem entryKey_eq_some {R : Runtime} {e : Entry ν} {key : JsString} (h : entryKey R e = some key) :
    normalizeInstanceUrl R (textProp e.2 "url") = some key := by
  unfold entryKey at h
  split_ifs at h
  exact h

/-- The live list has one entry for each url of an online section, and no other, exactly when each
such url stands in an online section first. -/
theorem liveSetExact_iff (R : Runtime) (payload : Json ν) :
    ∃ d, parseDirectory R payload = some d ∧
      (LiveSetExact R payload d ↔ OnlineFirst R payload) := by
  obtain ⟨d, hd, hraw, hlive⟩ := parseDirectory_live R payload
  have hkeys : ∀ key, (∃ inst ∈ d.live, normalizeInstanceUrl R inst.url = some key) ↔
      ∃ e, firstOf (entryKey R) key (entries payload) = some e ∧ e.1 = true := by
    intro key
    rw [hlive]
    constructor
    · rintro ⟨inst, hinst, hurl⟩
      obtain ⟨e, he, rfl⟩ := List.mem_map.mp hinst
      obtain ⟨honline, key', hfirst⟩ := mem_liveEntries.mp he
      have hsame : some key' = some key := (entryKey_eq_some (key_of_firstOf hfirst)).symm.trans hurl
      obtain rfl := Option.some.inj hsame
      exact ⟨e, hfirst, honline⟩
    · rintro ⟨e, hfirst, honline⟩
      exact ⟨_, List.mem_map_of_mem (mem_liveEntries.mpr ⟨honline, key, hfirst⟩),
        entryKey_eq_some (key_of_firstOf hfirst)⟩
  refine ⟨d, hd, ?_, ?_⟩
  · intro h e he honline key hkey e' hfirst
    obtain ⟨e'', hfirst'', honline''⟩ := (hkeys key).mp ((h.online key).mpr ⟨e, he, honline, hkey⟩)
    obtain rfl := Option.some.inj (hfirst.symm.trans hfirst'')
    exact honline''
  · intro h
    refine ⟨(parseDirectory_distinct hd).1, fun key => (hkeys key).trans ⟨?_, ?_⟩, ?_⟩
    · rintro ⟨e, hfirst, honline⟩
      exact ⟨e, mem_of_firstOf hfirst, honline, key_of_firstOf hfirst⟩
    · rintro ⟨e, he, honline, hkey⟩
      obtain ⟨e', hfirst⟩ := exists_firstOf he hkey
      exact ⟨e', hfirst, h e he honline key hkey e' hfirst⟩
    · rw [hlive, hraw, List.map_map]
      rfl

/-- A runtime whose URLs are their own hosts. -/
def hostRuntime : Runtime where
  parseUrl url := some ⟨js "http:", url, []⟩
  sha256Hex _ := []
  derivedPubkey _ _ := []
  parseDate _ := none

/-- A channel of an offline section that an online one lists too. -/
def offlineThenOnline : Json Int :=
  let channel : Json Int := .obj [(js "url", .str (js "a"))]
  .obj [(js "sections", .arr [
    .obj [(js "online", .bool false), (js "instances", .arr [channel])],
    .obj [(js "online", .bool true), (js "instances", .arr [channel])]])]

theorem liveSet_misses_offline_first : ∃ d,
    parseDirectory hostRuntime offlineThenOnline = some d ∧
      ¬ LiveSetExact hostRuntime offlineThenOnline d := by
  refine ⟨⟨[js "http://a"], [], [], true⟩, rfl, fun h => ?_⟩
  have honline : ∃ e ∈ entries offlineThenOnline,
      e.1 = true ∧ entryKey hostRuntime e = some (js "http://a") :=
    ⟨(true, .obj [(js "url", .str (js "a"))]), List.mem_cons_of_mem _ List.mem_cons_self, rfl, rfl⟩
  obtain ⟨inst, hinst, -⟩ := (h.online (js "http://a")).mpr honline
  exact absurd hinst List.not_mem_nil

end LivelierBridge.Owncast
