import LivelierBridge.Discovery.Coordinates

namespace LivelierBridge.Discovery

open Framework Js

variable {ν : Type}

/-- The status of a publish for a coordinate that a relay accepted. -/
def acceptedStatus (dTag : JsString) (p : Publish ν) : Option Status :=
  if p.1.dTag = dTag ∧ p.2.any anyRelayAccepted then some p.1.status else none

/-- The statuses of a coordinate that the event relay accepted, in order. -/
def acceptedStatuses (dTag : JsString) (log : List (JsString × Call ν)) : List Status :=
  log.filterMap fun e => e.2.publish?.bind (acceptedStatus dTag)

/-- The status of the last live event for a coordinate that the event relay accepted. -/
def lastAccepted (dTag : JsString) (history : List (JsString × Call ν)) : Option Status :=
  (acceptedStatuses dTag history).getLast?

theorem acceptedStatuses_append (dTag : JsString) (log log' : List (JsString × Call ν)) :
    acceptedStatuses dTag (log ++ log') = acceptedStatuses dTag log ++ acceptedStatuses dTag log' :=
  List.filterMap_append

theorem lastAccepted_append_nil {dTag : JsString} {log log' : List (JsString × Call ν)}
    (h : acceptedStatuses dTag log' = []) :
    lastAccepted dTag (log ++ log') = lastAccepted dTag log := by
  rw [lastAccepted, acceptedStatuses_append, h, List.append_nil, lastAccepted]

theorem lastAccepted_append_singleton {dTag : JsString} {log log' : List (JsString × Call ν)}
    {status : Status} (h : acceptedStatuses dTag log' = [status]) :
    lastAccepted dTag (log ++ log') = some status := by
  rw [lastAccepted, acceptedStatuses_append, h, List.getLast?_concat]

/-- The status, the time of the last publish and the published viewer count. -/
def Told.published (v : Told ν) : Status × Option Int × Option ν :=
  (v.status, v.lastPublishedAt, v.viewerCount)

/-- In a cycle the fields of a row that reflect a publish change only with an accepted publish
of the status that the row then has. -/
def MovesWhenAccepted (s t : DiscoveryState ν) : Prop :=
  ∀ url,
    (toldOf (t.table.get? url)).published = (toldOf (s.table.get? url)).published ∨
      ∃ input results, (url, Call.publishLiveEvent input (some results)) ∈ t.cycleLog ∧
        anyRelayAccepted results = true ∧ input.status = (toldOf (t.table.get? url)).status

/-- After a cycle each published row has the status that the event relay last accepted for its
coordinate, or its coordinate is published again in the cycle behind it. -/
def TrueOrRetried (E : Engine) (t u : DiscoveryState ν) : Prop :=
  ∀ url row, t.table.get? url = some row → row.source = E.sourceKey →
    row.lastPublishedAt ≠ none →
      lastAccepted row.dTag t.history = some row.status ∨ row.dTag ∈ publishedTags u

/-- The law of a cycle from `s` to `t` that is followed by a cycle from `t` to `u`. -/
def PublishLaw (E : Engine) (s t u : DiscoveryState ν) : Prop :=
  MovesWhenAccepted s t ∧ TrueOrRetried E t u

/-- The answer to a live-event publish, if it comes, is an acceptance, and the store takes the
update behind it. -/
def Heard (answer : Option RelayResults) (stored : Bool) : Prop :=
  answer.all (fun results => anyRelayAccepted results && stored) = true

instance (answer : Option RelayResults) (stored : Bool) : Decidable (Heard answer stored) :=
  inferInstanceAs (Decidable (_ = true))

section Guard

variable [JsNumber ν]

/-- Fresh d-tags, heard publishes, listed urls stored under their own coordinate if at all, and
no row added by hand that claims to be published. -/
def HeardStep (E : Engine) (s : DiscoveryState ν) (a : DiscoveryAction ν) : Prop :=
  FreshTags E s a ∧
    match a with
    | .cycle payload live answers =>
      (∀ e ∈ (E.cycleOn payload live answers).live, Heard e.2.publish e.2.stored ∧
        ∀ entry ∈ s.table.entries, entry.1 = e.1.url →
          entry.2.source = E.sourceKey ∧
            dTagFor E.runtime e.1.url E.dTagPrefix = some entry.2.dTag) ∧
      ∀ entry ∈ s.table.entries,
        Heard (answers.manual entry.1).publish (answers.manual entry.1).stored ∧
          Heard (answers.reconcile entry.1).publish (answers.reconcile entry.1).stored
    | .addManual _ row => row.lastPublishedAt = none

instance (E : Engine) (s : DiscoveryState ν) : ∀ a, Decidable (HeardStep E s a)
  | .cycle _ _ _ => inferInstanceAs (Decidable (_ ∧ (∀ _ ∈ _, _) ∧ ∀ _ ∈ _, _))
  | .addManual _ _ => inferInstanceAs (Decidable (_ ∧ _ = _))

end Guard

/-- Each published row has the status that the event relay last accepted for its coordinate. -/
def RelayTruth (E : Engine) (s : DiscoveryState ν) : Prop :=
  ∀ url row, s.table.get? url = some row → row.source = E.sourceKey →
    row.lastPublishedAt ≠ none → lastAccepted row.dTag s.history = some row.status

section Step

variable [DecidableEq ν] {E : Engine} {c : Cycle ν}

/-- A heard cycle leaves what an instance has told, or ends with an accepted publish. -/
inductive HeardEffect (source : JsString) (v : Told ν) : Told ν → List (Publish ν) → Prop
  | quiet : HeardEffect source v v []
  | thrown (input : LivePublishInput ν) : HeardEffect source v v [(input, none)]
  | accepted (input : LivePublishInput ν) (results : RelayResults) (t : Int) (viewers : Option ν)
      (hc : v.coordinate = some (source, input.dTag)) (ha : anyRelayAccepted results = true) :
      HeardEffect source v ⟨v.coordinate, input.status, some t, viewers⟩ [(input, some results)]

omit [DecidableEq ν] in
theorem Effect.heard {source : JsString} {answer : Option RelayResults} {stored : Bool}
    {v v' : Told ν} {published : List (Publish ν)} (h : Effect source answer stored v v' published)
    (hheard : v.coordinate ≠ none → Heard answer stored) : HeardEffect source v v' published := by
  cases h with
  | quiet => exact .quiet
  | stalled input hc hs =>
    have hh := hheard (by simp [hc])
    cases answer with
    | none => exact .thrown input
    | some results =>
      obtain rfl : stored = false := by simpa using hs
      simp [Heard] at hh
  | told input results t viewers hc ha =>
    subst ha
    have hh := hheard (by simp [hc])
    simp only [Heard, Option.all_some, Bool.and_eq_true] at hh
    exact .accepted input results t viewers hc hh.1

omit [DecidableEq ν] in
theorem mem_publishes {w : List (Call ν)} {input : LivePublishInput ν}
    {results : Option RelayResults} (h : (input, results) ∈ publishes w) :
    Call.publishLiveEvent input results ∈ w := by
  obtain ⟨x, hx, he⟩ := List.mem_filterMap.mp h
  cases x with
  | publishLiveEvent input' results' =>
    obtain ⟨rfl, rfl⟩ := Prod.mk.inj (Option.some.inj he)
    exact hx
  | checkLiveness | fetchViewerCount | publishProfile | publishRelayList | count => cases he

/-- What a heard cycle does to an instance begins with what its stored row says, or with a row
that is new. -/
theorem runCycle_heard [JsNumber ν] {payload : Option (Json ν)} {live : JsString → LiveAnswers ν}
    {answers : CycleAnswers ν} {s : DiscoveryState ν}
    (hg : HeardStep E s (.cycle payload live answers)) (url : JsString) :
    let t := E.runCycle (E.cycleOn payload live answers) s
    ∃ v, HeardEffect E.sourceKey v (toldOf (t.table.get? url))
        (publishes (Keyed.logOf url t.cycleLog)) ∧
      v.published = (toldOf (s.table.get? url)).published ∧
      (v = toldOf (s.table.get? url) ∨ v.lastPublishedAt = none) := by
  obtain ⟨-, hlisted, hstored⟩ := hg
  -- the guard speaks of the stored rows
  have hrow {answer : Option RelayResults} {stored : Bool}
      (h : ∀ entry ∈ s.table.entries, entry.1 = url → Heard answer stored)
      (hc : (toldOf (s.table.get? url)).coordinate ≠ none) : Heard answer stored := by
    cases hr : s.table.get? url with
    | none => exact absurd (by rw [hr]; rfl) hc
    | some row => exact h (url, row) ((s.table.get?_eq_some_iff url row).mp hr) rfl
  dsimp only
  cases runCycle_cycleEffect E (cycleOn_nodup E payload live answers) s url with
  | listed e v he hu hv h =>
    obtain ⟨hheard, hown⟩ := hlisted e he
    refine ⟨v, h.heard fun _ => hheard, ?_⟩
    rcases hv with rfl | ⟨dTag, hd, rfl⟩
    · exact ⟨rfl, .inl rfl⟩
    · refine ⟨rfl, ?_⟩
      cases hr : s.table.get? url with
      | none => exact .inr rfl
      | some row =>
        obtain ⟨hsource, htag⟩ :=
          hown (url, row) ((s.table.get?_eq_some_iff url row).mp hr) hu.symm
        rw [hu] at htag
        obtain rfl : dTag = row.dTag := Option.some.inj (hd.symm.trans htag)
        exact .inl (by rw [← hsource]; rfl)
  | manual h =>
    refine ⟨_, h.heard (hrow fun entry hentry hu => ?_), rfl, .inl rfl⟩
    subst hu
    exact (hstored entry hentry).1
  | disappeared h =>
    refine ⟨_, h.heard (hrow fun entry hentry hu => ?_), rfl, .inl rfl⟩
    subst hu
    exact (hstored entry hentry).2

theorem cycle_movesWhenAccepted [JsNumber ν] {payload : Option (Json ν)}
    {live : JsString → LiveAnswers ν} {answers : CycleAnswers ν} {s : DiscoveryState ν}
    (hg : HeardStep E s (.cycle payload live answers)) :
    MovesWhenAccepted s (E.runCycle (E.cycleOn payload live answers) s) := by
  intro url
  obtain ⟨v, h, hv, -⟩ := runCycle_heard hg url
  rw [← hv]
  generalize hafter : toldOf ((E.runCycle (E.cycleOn payload live answers) s).table.get? url) = v' at h ⊢
  generalize hpub : publishes (Keyed.logOf url
    (E.runCycle (E.cycleOn payload live answers) s).cycleLog) = published at h
  cases h with
  | quiet => exact .inl rfl
  | thrown input => exact .inl rfl
  | accepted input results t viewers hc ha =>
    refine .inr ⟨input, results, ?_, ha, rfl⟩
    exact Keyed.mem_of_mem_logOf (mem_publishes (by rw [hpub]; exact List.mem_singleton_self _))

/-- The statuses that a cycle gets accepted for the coordinate of a row are published for that
row. -/
theorem acceptedStatuses_cycleLog {s : DiscoveryState ν}
    (hn : (c.live.map fun e => e.1.url).Nodup)
    (hone : OneRowPerCoordinate (E.runCycle c s).table) {url : JsString} {row : InstanceRow ν}
    (hrow : (E.runCycle c s).table.get? url = some row) (hsource : row.source = E.sourceKey) :
    acceptedStatuses row.dTag (E.runCycle c s).cycleLog =
      (publishes (Keyed.logOf url (E.runCycle c s).cycleLog)).filterMap
        (acceptedStatus row.dTag) := by
  have hkey (url' : JsString) (x : Call ν) (status : Status)
      (hx : (url', x) ∈ (E.runCycle c s).cycleLog)
      (hstatus : x.publish?.bind (acceptedStatus row.dTag) = some status) : url' = url := by
    obtain ⟨p, hp, hstatus⟩ := Option.bind_eq_some_iff.mp hstatus
    obtain ⟨row', hrow', hsource', htag'⟩ := runCycle_publish hn hx hp
    have htag : p.1.dTag = row.dTag := by
      by_contra hne
      simp [acceptedStatus, hne] at hstatus
    exact hone url' url row' row hrow' hrow (hsource'.trans hsource.symm) (htag'.trans htag)
  rw [acceptedStatuses, publishes, List.filterMap_filterMap]
  exact Keyed.filterMap_eq_logOf hkey

theorem cycle_relayTruth [JsNumber ν] {payload : Option (Json ν)} {live : JsString → LiveAnswers ν}
    {answers : CycleAnswers ν} {s : DiscoveryState ν} (hone : OneRowPerCoordinate s.table)
    (htrue : RelayTruth E s) (hg : HeardStep E s (.cycle payload live answers)) :
    RelayTruth E (E.runCycle (E.cycleOn payload live answers) s) := by
  have hn := cycleOn_nodup E payload live answers
  intro url row hrow hsource hpublished
  have hone' := cycle_oneRow hone hg.1
  have hlog := acceptedStatuses_cycleLog hn hone' hrow hsource
  obtain ⟨v, h, -, hv⟩ := runCycle_heard hg url
  rw [E.runCycle_history]
  rw [hrow] at h
  generalize hpub : publishes (Keyed.logOf url
    (E.runCycle (E.cycleOn payload live answers) s).cycleLog) = published at h hlog
  -- nothing accepted: the row told the same before the cycle
  have hold (hv' : toldOf (some row) = v) (hnone : published.filterMap (acceptedStatus row.dTag) = []) :
      lastAccepted row.dTag (s.history ++
        (E.runCycle (E.cycleOn payload live answers) s).cycleLog) = some row.status := by
    rw [lastAccepted_append_nil (hlog.trans hnone)]
    rcases hv with hv | hv
    · rw [hv] at hv'
      obtain ⟨row₀, hrow₀, hs₀, ht₀⟩ := coordinate_eq_some.mp (congrArg Told.coordinate hv').symm
      rw [hrow₀] at hv'
      have hstatus : row.status = row₀.status := congrArg Told.status hv'
      have hlast : row.lastPublishedAt = row₀.lastPublishedAt := congrArg Told.lastPublishedAt hv'
      rw [← ht₀, hstatus]
      exact htrue url row₀ hrow₀ (hs₀.trans hsource) (hlast ▸ hpublished)
    · rw [← hv'] at hv
      exact absurd hv hpublished
  generalize htold : toldOf (some row) = v' at h hold
  cases h with
  | quiet => exact hold rfl rfl
  | thrown input => exact hold rfl (by simp [acceptedStatus])
  | accepted input results t viewers hc ha =>
    have hstatus : row.status = input.status := congrArg Told.status htold
    have htag : input.dTag = row.dTag := by
      have hcoord := (congrArg Told.coordinate htold).trans hc
      exact (Prod.mk.inj (Option.some.inj hcoord)).2.symm
    refine lastAccepted_append_singleton (hlog.trans ?_)
    simp [acceptedStatus, htag, ha, hstatus]

theorem addManual_relayTruth [JsNumber ν] {url : JsString} {row : InstanceRow ν}
    {s s' : DiscoveryState ν} (htrue : RelayTruth E s) (hg : HeardStep E s (.addManual url row))
    (h : E.discoveryStep s (.addManual url row) = some s') : RelayTruth E s' := by
  simp only [Engine.discoveryStep] at h
  split at h
  · cases h
  · cases h
    intro url' row' hrow hsource hpublished
    rw [OrderedMap.get?_set] at hrow
    split at hrow
    · cases hrow
      exact absurd hg.2 hpublished
    · exact htrue url' row' hrow hsource hpublished

theorem discoveryStep_relayTruth [JsNumber ν] {s s' : DiscoveryState ν} {a : DiscoveryAction ν}
    (hs : CoordinateLaw s ∧ RelayTruth E s) (hg : HeardStep E s a)
    (h : E.discoveryStep s a = some s') : CoordinateLaw s' ∧ RelayTruth E s' := by
  refine ⟨discoveryStep_coordinateLaw hs.1 hg.1 h, ?_⟩
  cases a with
  | cycle payload live answers =>
    cases h
    exact cycle_relayTruth hs.1.1 hs.2 hg
  | addManual url row => exact addManual_relayTruth hs.2 hg h

end Step

variable [DecidableEq ν] [JsNumber ν]

/-- In every run whose publishes are heard and stored and whose coordinates do not clash, each
cycle moves the published fields of a row only with an accepted publish and leaves each
published row with the status that the event relay last accepted. -/
theorem heard_publishLaw (E : Engine) (as : List (DiscoveryAction ν)) (s : DiscoveryState ν)
    (payload payload' : Option (Json ν)) (live live' : JsString → LiveAnswers ν)
    (answers answers' : CycleAnswers ν) (hr : run E.discoveryStep .init as = some s)
    (hg : Guarded E.discoveryStep (HeardStep E) .init (as ++ [.cycle payload live answers])) :
    let t := E.runCycle (E.cycleOn payload live answers) s
    PublishLaw E s t (E.runCycle (E.cycleOn payload' live' answers') t) := by
  have hinit : CoordinateLaw (.init : DiscoveryState ν) ∧ RelayTruth E (.init : DiscoveryState ν) :=
    ⟨coordinateLaw_init, fun _ _ h => absurd h (Option.some_ne_none _).symm⟩
  obtain ⟨hlaw, htrue⟩ := run_invariant (fun _ _ _ => discoveryStep_relayTruth) hinit hg.append_left hr
  have hstep := (hg.append_right hr).1
  refine ⟨cycle_movesWhenAccepted hstep, fun url row hrow hsource hpublished => .inl ?_⟩
  exact cycle_relayTruth hlaw.1 htrue hstep url row hrow hsource hpublished

/-- An engine that ends a row at its first failure. -/
def hastyEngine : Engine := { demoEngine with maxConsecutiveFailures := 1 }

/-- The probe of a disappeared row answers ended, and the relay answers the terminal event. -/
def endedAnswers (relayAccepts : Bool) : CycleAnswers Int :=
  { demoAnswers with
    reconcile := fun _ => ⟨some .ended, some [(js "ws://event-relay", relayAccepts)], 5, true⟩ }

theorem heard_publishLaw_ended :
    ∃ s, run hastyEngine.discoveryStep .init [demoCycle "https://a.example"] = some s ∧
      let t := hastyEngine.runCycle
        (hastyEngine.cycleOn emptyPayload demoLive (endedAnswers true)) s
      PublishLaw hastyEngine s t
        (hastyEngine.runCycle (hastyEngine.cycleOn emptyPayload demoLive (endedAnswers true)) t) := by
  have hrun : (run hastyEngine.discoveryStep .init [demoCycle "https://a.example"]).isSome = true := by
    decide +kernel
  obtain ⟨s, hs⟩ := Option.isSome_iff_exists.mp hrun
  exact ⟨s, hs, heard_publishLaw hastyEngine _ s emptyPayload emptyPayload demoLive demoLive
    (endedAnswers true) (endedAnswers true) hs (by decide +kernel)⟩

/-- A terminal event that the relay rejects still ends the row, and nothing retries it. -/
theorem publishLaw_fails_ended_rejected :
    ¬ ∀ s, run hastyEngine.discoveryStep .init [demoCycle "https://a.example"] = some s →
      let t := hastyEngine.runCycle
        (hastyEngine.cycleOn emptyPayload demoLive (endedAnswers false)) s
      PublishLaw hastyEngine s t
        (hastyEngine.runCycle (hastyEngine.cycleOn emptyPayload demoLive (endedAnswers false)) t) := by
  intro h
  let url := js "https://a.example"
  let tag := js "oc-38612c965a9c4c35"
  let after (s : DiscoveryState Int) := hastyEngine.runCycle
    (hastyEngine.cycleOn emptyPayload demoLive (endedAnswers false)) s
  have hrun : (run hastyEngine.discoveryStep .init [demoCycle "https://a.example"]).map (fun s =>
        (toldOf ((after s).table.get? url), lastAccepted tag (after s).history,
          publishedTags (after (after s)))) =
      some (⟨some (js "owncast", tag), .ended, some 5, none⟩, some .live, []) := by
    decide +kernel
  obtain ⟨s, hs, hp⟩ := Option.map_eq_some_iff.mp hrun
  obtain ⟨htold, hp⟩ := Prod.mk.inj hp
  obtain ⟨hlast, hnext⟩ := Prod.mk.inj hp
  obtain ⟨row, hrow, hsource, htag⟩ := coordinate_eq_some.mp (congrArg Told.coordinate htold)
  rw [hrow] at htold
  have hpublished : row.lastPublishedAt = some 5 := congrArg Told.lastPublishedAt htold
  have hstatus : row.status = .ended := congrArg Told.status htold
  rcases (h s hs).2 url row hrow hsource (by simp [hpublished]) with hlaw | hlaw
  · rw [htag, hstatus] at hlaw
    exact absurd (hlast.symm.trans hlaw) (by decide)
  · exact absurd (hnext ▸ hlaw) List.not_mem_nil

end LivelierBridge.Discovery
