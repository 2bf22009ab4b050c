import LivelierBridge.Discovery.Effects
import LivelierBridge.Framework.Run
import LivelierBridge.Owncast.Directory
import LivelierBridge.Owncast.Frames

namespace LivelierBridge.Discovery

open Framework Js Owncast

variable {ν : Type} [DecidableEq ν] [JsNumber ν]

/-- What happens to the stored instances: a poll cycle on a directory payload, which is absent
when the directory cannot be fetched, and a row that is added by hand. -/
inductive DiscoveryAction (ν : Type) where
  | cycle (payload : Option (Json ν)) (live : JsString → LiveAnswers ν)
      (answers : CycleAnswers ν)
  | addManual (url : JsString) (row : InstanceRow ν)

/-- The cycle that the engine runs on a payload. -/
def Engine.cycleOn (E : Engine) (payload : Option (Json ν)) (live : JsString → LiveAnswers ν)
    (answers : CycleAnswers ν) : Cycle ν :=
  { answers with fetchLive := payload.bind (Owncast.fetchLive E.runtime live) }

/-- One step of the stored instances; a url is added only once. -/
def Engine.discoveryStep (E : Engine) (s : DiscoveryState ν) :
    DiscoveryAction ν → Option (DiscoveryState ν)
  | .cycle payload live answers => some (E.runCycle (E.cycleOn payload live answers) s)
  | .addManual url row =>
    if s.table.has url then none
    else some { s with table := s.table.set url { row with origin := js "manual" } }

def DiscoveryState.init : DiscoveryState ν := ⟨OrderedMap.empty, [], none, [], []⟩

omit [DecidableEq ν] in
theorem cycleOn_nodup (E : Engine) (payload : Option (Json ν)) (live : JsString → LiveAnswers ν)
    (answers : CycleAnswers ν) :
    ((E.cycleOn payload live answers).live.map fun e => e.1.url).Nodup := by
  unfold Cycle.live Engine.cycleOn
  dsimp only
  cases h : payload.bind (Owncast.fetchLive E.runtime live) with
  | none => exact List.nodup_nil
  | some fetched =>
    obtain ⟨p, -, hp⟩ := Option.bind_eq_some_iff.mp h
    have hd := (fetchLive_distinct hp).1
    rw [show (fetched.live.map fun e => normalizeInstanceUrl E.runtime e.1.url) =
      (fetched.live.map fun e => e.1.url).map (normalizeInstanceUrl E.runtime) by
        simp [List.map_map]] at hd
    exact List.Nodup.of_map _ hd

/-- No two rows of one source share a d-tag. -/
def OneRowPerCoordinate (table : InstanceTable ν) : Prop :=
  ∀ url url' row row', table.get? url = some row → table.get? url' = some row' →
    row.source = row'.source → row.dTag = row'.dTag → url = url'

/-- The d-tags of the live events that the last cycle published. -/
def publishedTags (s : DiscoveryState ν) : List JsString :=
  s.cycleLog.filterMap fun e => (Call.publish? e.2).map fun p => p.1.dTag

/-- One row per coordinate, and in the last cycle at most one publish per coordinate. -/
def CoordinateLaw (s : DiscoveryState ν) : Prop :=
  OneRowPerCoordinate s.table ∧ (publishedTags s).Nodup

/-- A listed url gets a d-tag that no other stored row of the source and no other listed url
has; a row added by hand gets one that no stored row of its source has. -/
def FreshTags (E : Engine) (s : DiscoveryState ν) : DiscoveryAction ν → Prop
  | .cycle payload live answers =>
    ∀ e ∈ (E.cycleOn payload live answers).live,
      (∀ entry ∈ s.table.entries, entry.2.source = E.sourceKey →
        dTagFor E.runtime e.1.url E.dTagPrefix = some entry.2.dTag → entry.1 = e.1.url) ∧
      ∀ e' ∈ (E.cycleOn payload live answers).live,
        dTagFor E.runtime e.1.url E.dTagPrefix = dTagFor E.runtime e'.1.url E.dTagPrefix →
          e.1.url = e'.1.url
  | .addManual _ row =>
    ∀ entry ∈ s.table.entries, entry.2.source = row.source → entry.2.dTag ≠ row.dTag

instance (E : Engine) (s : DiscoveryState ν) : ∀ a, Decidable (FreshTags E s a)
  | .cycle _ _ _ => inferInstanceAs (Decidable (∀ _ ∈ _, _))
  | .addManual _ _ => inferInstanceAs (Decidable (∀ _ ∈ _, _))

section Step

variable {E : Engine} {c : Cycle ν}

omit [JsNumber ν] in
/-- A row has the coordinate it had before the cycle, or that of its url as the cycle lists it. -/
theorem runCycle_coordinate (hn : (c.live.map fun e => e.1.url).Nodup) {s : DiscoveryState ν}
    {url : JsString} {row : InstanceRow ν} (h : (E.runCycle c s).table.get? url = some row) :
    (∃ row₀, s.table.get? url = some row₀ ∧ row₀.source = row.source ∧ row₀.dTag = row.dTag) ∨
      ∃ e ∈ c.live, e.1.url = url ∧ row.source = E.sourceKey ∧
        dTagFor E.runtime url E.dTagPrefix = some row.dTag := by
  obtain ⟨v, answer, stored, heffect, hv⟩ := (runCycle_cycleEffect E hn s url).effect
  have hc := heffect.coordinate_eq
  rw [h] at hc
  rcases hv with rfl | ⟨e, he, hu, dTag, hd, rfl⟩
  · exact .inl (coordinate_eq_some.mp hc.symm)
  · obtain ⟨hs, ht⟩ := Prod.mk.inj (Option.some.inj hc)
    exact .inr ⟨e, he, hu, hs, by rw [hd, ht]⟩

omit [JsNumber ν] in
/-- A publish of the cycle carries the d-tag that its row has after the cycle. -/
theorem runCycle_publish (hn : (c.live.map fun e => e.1.url).Nodup) {s : DiscoveryState ν}
    {url : JsString} {x : Call ν} {p : Publish ν} (hx : (url, x) ∈ (E.runCycle c s).cycleLog)
    (hp : x.publish? = some p) :
    ∃ row, (E.runCycle c s).table.get? url = some row ∧ row.source = E.sourceKey ∧
      row.dTag = p.1.dTag := by
  obtain ⟨v, answer, stored, heffect, -⟩ := (runCycle_cycleEffect E hn s url).effect
  have hmem : p ∈ publishes (Keyed.logOf url (E.runCycle c s).cycleLog) :=
    List.mem_filterMap.mpr ⟨x, Keyed.mem_logOf hx, hp⟩
  exact coordinate_eq_some.mp (heffect.coordinate_eq.trans (heffect.coordinate_of_mem hmem))

omit [JsNumber ν] in
/-- When each row has a coordinate of its own, a cycle publishes at most once for each. -/
theorem publishedTags_nodup (hn : (c.live.map fun e => e.1.url).Nodup) {s : DiscoveryState ν}
    (hone : OneRowPerCoordinate (E.runCycle c s).table) :
    (publishedTags (E.runCycle c s)).Nodup := by
  let tag (x : Call ν) : Option JsString := x.publish?.map fun p => p.1.dTag
  have hlen (url : JsString) :
      ((Keyed.logOf url (E.runCycle c s).cycleLog).filterMap tag).length ≤ 1 := by
    obtain ⟨v, answer, stored, heffect, -⟩ := (runCycle_cycleEffect E hn s url).effect
    have hlen := heffect.length_le_one
    rwa [publishes, ← List.length_map fun p : Publish ν => p.1.dTag, List.map_filterMap] at hlen
  refine Keyed.nodup_filterMap_of_logOf hlen ?_
  intro url url' x x' d hx hx' hd hd'
  obtain ⟨p, hp, rfl⟩ := Option.map_eq_some_iff.mp hd
  obtain ⟨p', hp', htag⟩ := Option.map_eq_some_iff.mp hd'
  obtain ⟨row, hrow, hsource, hrowTag⟩ := runCycle_publish hn hx hp
  obtain ⟨row', hrow', hsource', hrowTag'⟩ := runCycle_publish hn hx' hp'
  exact hone url url' row row' hrow hrow' (hsource.trans hsource'.symm)
    (hrowTag.trans (htag.symm.trans hrowTag'.symm))

theorem cycle_oneRow {payload : Option (Json ν)} {live : JsString → LiveAnswers ν}
    {answers : CycleAnswers ν} {s : DiscoveryState ν} (hs : OneRowPerCoordinate s.table)
    (hg : FreshTags E s (.cycle payload live answers)) :
    OneRowPerCoordinate (E.runCycle (E.cycleOn payload live answers) s).table := by
  have hn := cycleOn_nodup E payload live answers
  -- a stored row and a listed one
  have hmixed {url url' : JsString} {row : InstanceRow ν} (hrow : s.table.get? url = some row)
      (hsource : row.source = E.sourceKey) {e : DiscoveredLive ν × LiveAnswers ν}
      (he : e ∈ (E.cycleOn payload live answers).live) (hu : e.1.url = url')
      (hd : dTagFor E.runtime url' E.dTagPrefix = some row.dTag) : url = url' := by
    subst hu
    exact (hg e he).1 (url, row) ((s.table.get?_eq_some_iff url row).mp hrow) hsource hd
  intro url url' row row' hrow hrow' hsource htag
  rcases runCycle_coordinate hn hrow with ⟨r, hr, hr₁, hr₂⟩ | ⟨e, he, hu, hl, hd⟩
  · rcases runCycle_coordinate hn hrow' with ⟨r', hr', hr₁', hr₂'⟩ | ⟨e', he', hu', hl', hd'⟩
    · exact hs url url' r r' hr hr' (hr₁.trans (hsource.trans hr₁'.symm))
        (hr₂.trans (htag.trans hr₂'.symm))
    · exact hmixed hr (hr₁.trans (hsource.trans hl')) he' hu'
        (by rw [hd', hr₂, htag])
  · rcases runCycle_coordinate hn hrow' with ⟨r', hr', hr₁', hr₂'⟩ | ⟨e', he', hu', hl', hd'⟩
    · exact (hmixed hr' (hr₁'.trans (hsource.symm.trans hl)) he hu
        (by rw [hd, hr₂', htag])).symm
    · subst hu hu'
      exact (hg e he).2 e' he' (by rw [hd, hd', htag])

theorem discoveryStep_coordinateLaw {s s' : DiscoveryState ν} {a : DiscoveryAction ν}
    (hs : CoordinateLaw s) (hg : FreshTags E s a) (h : E.discoveryStep s a = some s') :
    CoordinateLaw s' := by
  cases a with
  | cycle payload live answers =>
    cases h
    have hone := cycle_oneRow hs.1 hg
    exact ⟨hone, publishedTags_nodup (cycleOn_nodup E payload live answers) hone⟩
  | addManual url row =>
    simp only [Engine.discoveryStep] at h
    split at h
    · cases h
    · cases h
      refine ⟨?_, hs.2⟩
      intro u u' r r' hr hr' hsource htag
      rw [OrderedMap.get?_set] at hr hr'
      split at hr <;> split at hr'
      · rename_i hu hu'
        rw [hu, hu']
      · cases hr
        exact absurd htag.symm
          (hg (u', r') ((s.table.get?_eq_some_iff u' r').mp hr') hsource.symm)
      · cases hr'
        exact absurd htag (hg (u, r) ((s.table.get?_eq_some_iff u r).mp hr) hsource)
      · exact hs.1 u u' r r' hr hr' hsource htag

end Step

omit [DecidableEq ν] [JsNumber ν] in
theorem coordinateLaw_init : CoordinateLaw (.init : DiscoveryState ν) :=
  ⟨fun _ _ _ _ h => absurd h (Option.some_ne_none _).symm, List.nodup_nil⟩

/-- In every run whose cycles and added rows bring fresh d-tags, no two rows of one source share
a coordinate, and each cycle publishes at most one live event per coordinate. -/
theorem freshTags_coordinateLaw (E : Engine) (as : List (DiscoveryAction ν))
    (t : DiscoveryState ν) (hr : run E.discoveryStep .init as = some t)
    (hg : Guarded E.discoveryStep (FreshTags E) .init as) : CoordinateLaw t :=
  run_invariant (fun _ _ _ => discoveryStep_coordinateLaw) coordinateLaw_init hg hr

/-- Two spellings of one URL, its SHA-256 and a derived key that shows its message. -/
def demoRuntime : Runtime where
  parseUrl s :=
    if s = js "https://a.example" ∨ s = js "https://a.example/" then
      some ⟨js "https:", js "a.example", js "/"⟩
    else none
  sha256Hex s :=
    if s = js "https://a.example" then
      js "38612c965a9c4c35d713439919804ad960eb54d0ad41b4362ffd85343d4bbb4f"
    else s
  derivedPubkey _ message := message
  parseDate _ := none

def demoEngine : Engine where
  runtime := demoRuntime
  sourceKey := js "owncast"
  sourceName := js "Owncast Directory"
  dTagPrefix := js "oc"
  proxyProtocol := js "web"
  bridgeKeySecret := js "secret"
  bridgePubkey := js "bridge"
  eventRelayUrl := js "ws://event-relay"
  chatRelayUrl := js "ws://chat-relay"
  profileWriteRelays := [js "ws://chat-relay"]
  republishIntervalMs := 900000
  snapshotIntervalMs := 3600000
  maxConsecutiveFailures := 3
  defaultDiscoveryEnabled := true
  defaultChatEnabled := false

/-- A directory whose live section lists one url. -/
def demoPayload (url : String) : Json Int :=
  .obj [(js "sections", .arr [.obj [(js "online", .bool true),
    (js "instances", .arr [.obj [(js "url", .str (js url))]])]])]

/-- A directory that lists nothing. -/
def emptyPayload : Option (Json Int) := some (.obj [(js "sections", .arr [])])

def accepted : Option RelayResults := some [(js "ws://event-relay", true)]

def demoLive (_ : JsString) : LiveAnswers Int :=
  ⟨some 0, some .live, ⟨accepted, accepted, true⟩, some none, 0, accepted, 0, true⟩

def demoAnswers : CycleAnswers Int where
  listManual := some fun _ => 0
  manual _ := ⟨some .live, ⟨accepted, accepted, true⟩, 0, some none, 0, accepted, 0, true⟩
  listByStatus := some fun _ => 0
  reconcile _ := ⟨some .live, accepted, 0, true⟩
  snapshotDueAt := 0
  insertLiveSnapshot := true
  snapshotAt := 0

def demoCycle (url : String) : DiscoveryAction Int :=
  .cycle (some (demoPayload url)) demoLive demoAnswers

/-- A row that was added by hand and is live. -/
def demoRow : InstanceRow Int where
  source := js "owncast"
  origin := js "manual"
  pubkey := js "host"
  dTag := js "oc-38612c965a9c4c35"
  name := js "A"
  streamTitle := js ""
  description := js ""
  image := js ""
  nsfw := false
  startsAt := some 5000
  status := .live
  hlsUrl := js "https://a.example/hls"
  lastLiveness := none
  consecutiveFailures := 0
  profileHash := none
  viewerCount := none
  chatEnabled := true
  discoveryEnabled := true
  firstSeenAt := 0
  lastPublishedAt := none

theorem freshTags_coordinateLaw_twoCycles :
    ∃ t, run demoEngine.discoveryStep .init
        [demoCycle "https://a.example", demoCycle "https://a.example"] = some t ∧
      CoordinateLaw t := by
  have hrun : (run demoEngine.discoveryStep .init
      [demoCycle "https://a.example", demoCycle "https://a.example"]).isSome = true := by
    decide +kernel
  obtain ⟨t, ht⟩ := Option.isSome_iff_exists.mp hrun
  exact ⟨t, ht, freshTags_coordinateLaw demoEngine _ t ht (by decide +kernel)⟩

/-- A second spelling of a listed url makes a second row with the same d-tag. -/
theorem coordinateLaw_fails_two_spellings :
    ¬ ∀ t, run demoEngine.discoveryStep .init
        [demoCycle "https://a.example", demoCycle "https://a.example/"] = some t →
      CoordinateLaw t := by
  intro h
  have hrun : (run demoEngine.discoveryStep .init
      [demoCycle "https://a.example", demoCycle "https://a.example/"]).map (fun t =>
        ((toldOf (t.table.get? (js "https://a.example"))).coordinate,
          (toldOf (t.table.get? (js "https://a.example/"))).coordinate)) =
      some (some (js "owncast", js "oc-38612c965a9c4c35"), some (js "owncast", js "oc-38612c965a9c4c35")) := by
    decide +kernel
  obtain ⟨t, ht, hp⟩ := Option.map_eq_some_iff.mp hrun
  obtain ⟨h₁, h₂⟩ := Prod.mk.inj hp
  obtain ⟨row, hrow, hs, hd⟩ := coordinate_eq_some.mp h₁
  obtain ⟨row', hrow', hs', hd'⟩ := coordinate_eq_some.mp h₂
  have heq := (h t ht).1 _ _ row row' hrow hrow' (hs.trans hs'.symm) (hd.trans hd'.symm)
  exact absurd heq (by decide)

end LivelierBridge.Discovery
