import LivelierBridge.Discovery.Turns

namespace LivelierBridge.Discovery

open Framework Js

variable {ν : Type}

/-- The listed stream of a url, with the answers met while it is processed. -/
def Cycle.listing (c : Cycle ν) (url : JsString) : Option (DiscoveredLive ν × LiveAnswers ν) :=
  c.live.find? fun e => e.1.url = url

theorem Cycle.listing_url {c : Cycle ν} {url : JsString} {e : DiscoveredLive ν × LiveAnswers ν}
    (h : c.listing url = some e) : e.1.url = url := by
  simpa using List.find?_some h

theorem Cycle.listing_mem {c : Cycle ν} {url : JsString} {e : DiscoveredLive ν × LiveAnswers ν}
    (h : c.listing url = some e) : e ∈ c.live := List.mem_of_find?_eq_some h

theorem Cycle.listing_eq_none {c : Cycle ν} {url : JsString} :
    c.listing url = none ↔ url ∉ c.live.map fun e => e.1.url := by
  simp [Cycle.listing]

/-- When each url is listed once, an entry of the live set is the listing of its url. -/
theorem Cycle.listing_of_mem {c : Cycle ν} (hn : (c.live.map fun e => e.1.url).Nodup)
    {e : DiscoveredLive ν × LiveAnswers ν} (he : e ∈ c.live) : c.listing e.1.url = some e := by
  cases hl : c.listing e.1.url with
  | none => exact absurd (List.mem_map_of_mem he) (Cycle.listing_eq_none.mp hl)
  | some e' =>
    have heq := List.inj_on_of_nodup_map hn (Cycle.listing_mem hl) he (Cycle.listing_url hl)
    rw [heq]

/-- What a cycle does to the stored row of one url, and the calls it makes for it: nothing, the
turn of a listed instance, of the manual pass or of the last pass, or the last two. -/
inductive Turn [DecidableEq ν] (E : Engine) (c : Cycle ν) (url : JsString)
    (r : Option (InstanceRow ν)) : Option (InstanceRow ν) → List (Call ν) → Prop
  | passed : Turn E c url r r []
  | listed {e : DiscoveredLive ν × LiveAnswers ν} (he : c.listing url = some e)
      {signer dTag : JsString} {now : Int} (hup : e.2.upsert = some now) {row : InstanceRow ν}
      (hrow : upsertedRow r (E.seenInput e.1 signer dTag) now = row) {r' : InstanceRow ν}
      {w : List (Call ν)} (h : SeenTurn E e.1 signer dTag row r.isNone e.2 r' w) :
      Turn E c url r (some r') w
  | manual (hn : c.listing url = none) {row : InstanceRow ν} (hrow : r = some row)
      (hm : listManual E.sourceKey row = true) {r' : InstanceRow ν} {found : Bool}
      {w : List (Call ν)} (h : ManualTurn E url row (c.manual url) r' found w) :
      Turn E c url r (some r') w
  | reconciled (hn : c.listing url = none) {row : InstanceRow ν} (hrow : r = some row)
      (hm : listManual E.sourceKey row = false)
      (hl : listByStatus .live E.sourceKey row = true) {r' : InstanceRow ν} {w : List (Call ν)}
      (h : ReconcileTurn E url row (c.reconcile url) r' w) : Turn E c url r (some r') w
  | both (hn : c.listing url = none) {row : InstanceRow ν} (hrow : r = some row)
      (hm : listManual E.sourceKey row = true)
      (hl : listByStatus .live E.sourceKey row = true) (hon : row.discoveryEnabled = true)
      {liveness : Liveness} (hmissed : (c.manual url).liveness = some liveness) (hne : liveness ≠ .live)
      {r' : InstanceRow ν} {w : List (Call ν)}
      (h : ReconcileTurn E url row (c.reconcile url) r' w) :
      Turn E c url r (some r') (.checkLiveness row.hlsUrl :: w)

section Live

variable [DecidableEq ν] (E : Engine)

/-- A listed instance is left alone when its row cannot be stored. -/
theorem processLive_turn (inst : DiscoveredLive ν) (A : LiveAnswers ν) (t : Slot ν) :
    let o := E.processLive inst A t
    (o.state = t ∧ contacts o.log = []) ∨ ∃ signer dTag now r',
      A.upsert = some now ∧ o.state = ⟨some r', t.inLiveUrls⟩ ∧ SeenTurn E inst signer dTag
        (upsertedRow t.row (E.seenInput inst signer dTag) now) t.row.isNone A r'
        (contacts o.log) := by
  dsimp only
  unfold Engine.processLive
  cases E.signerFor inst.url with
  | none => exact .inl ⟨rfl, rfl⟩
  | some signer =>
    cases dTagFor E.runtime inst.url E.dTagPrefix with
    | none => exact .inl ⟨rfl, rfl⟩
    | some dTag =>
      cases hup : A.upsert with
      | none => exact .inl ⟨rfl, rfl⟩
      | some now =>
        rw [Faulty.await_some_bind, Faulty.await_some_bind, upsertSeen_bind]
        obtain ⟨r', hstate, hturn⟩ := processSeen_turn E inst signer dTag
          (upsertedRow t.row (E.seenInput inst signer dTag) now) t.row.isNone A t.inLiveUrls
        exact .inr ⟨signer, dTag, now, r', rfl, hstate, hturn⟩

/-- The pass over the listed instances: a listed one is found live, any other left alone. -/
theorem livePass_turn {c : Cycle ν} (hn : (c.live.map fun e => e.1.url).Nodup) {w : Work ν}
    {url : JsString} {r : Option (InstanceRow ν)} (hslot : w.slot url = ⟨r, false⟩) :
    let o := Keyed.runJobs (c.live.map E.liveJob) w
    Turn E c url r (o.state.slot url).row (contacts (Keyed.logOf url o.log)) ∧
      (o.value = some () → (c.listing url = none ∧ o.state.slot url = ⟨r, false⟩ ∧
        contacts (Keyed.logOf url o.log) = []) ∨ (o.state.slot url).inLiveUrls = true) := by
  have hkeys : ((c.live.map E.liveJob).map Prod.fst).Nodup := by
    simpa [List.map_map, Function.comp_def, Engine.liveJob] using hn
  dsimp only
  -- what the job of a listed url does
  have hjob {e : DiscoveredLive ν × LiveAnswers ν} (he : c.listing url = some e) :
      let o := (E.liveJob e).2 (w.slot url)
      o.state.inLiveUrls = true ∧ Turn E c url r o.state.row (contacts o.log) := by
    dsimp only
    rw [hslot]
    show (E.processLive e.1 e.2 ⟨r, true⟩).state.inLiveUrls = true ∧
      Turn E c url r (E.processLive e.1 e.2 ⟨r, true⟩).state.row
        (contacts (E.processLive e.1 e.2 ⟨r, true⟩).log)
    rcases processLive_turn E e.1 e.2 ⟨r, true⟩ with ⟨hs, hw⟩ |
      ⟨signer, dTag, now, r', hup, hs, hturn⟩
    · rw [hs, hw]
      exact ⟨rfl, .passed⟩
    · rw [hs]
      exact ⟨rfl, .listed he hup rfl hturn⟩
  have hran := Keyed.runJobs_ran hkeys w url
  change Keyed.Ran _ _ (w.slot url) (Work.slot _ url) _ at hran
  cases hl : c.listing url with
  | none =>
    have hnot : url ∉ (c.live.map E.liveJob).map Prod.fst := by
      simpa [List.map_map, Function.comp_def, Engine.liveJob] using Cycle.listing_eq_none.mp hl
    obtain ⟨hs, hw⟩ := hran.eq_of_notMem hnot
    rw [hs, hslot, hw]
    exact ⟨.passed, fun _ => .inl ⟨rfl, rfl, rfl⟩⟩
  | some e =>
    have hmem : (url, (E.liveJob e).2) ∈ c.live.map E.liveJob :=
      List.mem_map.mpr ⟨e, Cycle.listing_mem hl, Prod.ext (Cycle.listing_url hl) rfl⟩
    refine ⟨?_, fun hv => .inr ?_⟩
    · generalize Work.slot (Keyed.runJobs (c.live.map E.liveJob) w).state url = t' at hran ⊢
      generalize Keyed.logOf url (Keyed.runJobs (c.live.map E.liveJob) w).log = log at hran ⊢
      cases hran with
      | skipped =>
        rw [hslot]
        exact .passed
      | ran m hm =>
        obtain ⟨e', he', heq⟩ := List.mem_map.mp hm
        obtain ⟨rfl, rfl⟩ := Prod.mk.inj heq
        exact (hjob (Cycle.listing_of_mem hn he')).2
    · obtain ⟨-, hs, -⟩ := Keyed.runJobs_returned hkeys hv hmem
      change Work.slot _ url = _ at hs
      rw [hs]
      exact (hjob hl).1

end Live

/-- A pass that has returned has run the job of each row it lists. -/
theorem forRows_returned {answer : Option (JsString → Nat)} {p : InstanceRow ν → Bool}
    {job : JsString × InstanceRow ν → Local ν Unit} {w : Work ν} {url : JsString}
    {row : InstanceRow ν} (hv : (Engine.forRows answer p job w).value = some ())
    (hrow : w.table.get? url = some row) (hp : p row = true) :
    let o := Engine.forRows answer p job w
    (job (url, row) (w.slot url)).value = some () ∧
      o.state.slot url = (job (url, row) (w.slot url)).state ∧
      Keyed.logOf url o.log = (job (url, row) (w.slot url)).log := by
  cases answer with
  | none => cases hv
  | some order =>
    have hkeys : ((((w.table.select order p).map fun e => (e.1, job e))).map Prod.fst).Nodup := by
      simpa [List.map_map, Function.comp_def] using w.table.select_nodup order p
    apply Keyed.runJobs_returned hkeys hv
    exact List.mem_map_of_mem (f := fun e => (e.1, job e)) (InstanceTable.mem_select.mpr ⟨hrow, hp⟩)

/-- A pass leaves alone what its job leaves alone. -/
theorem forRows_idle (answer : Option (JsString → Nat)) (p : InstanceRow ν → Bool)
    {job : JsString × InstanceRow ν → Local ν Unit} {w : Work ν} {url : JsString}
    (hjob : ∀ row, (job (url, row) (w.slot url)).state = w.slot url ∧
      (job (url, row) (w.slot url)).log = []) :
    let o := Engine.forRows answer p job w
    o.state.slot url = w.slot url ∧ Keyed.logOf url o.log = [] := by
  rcases forRows_ran answer p job w url with h | ⟨row, -, -, hs, hw⟩
  · exact h
  · exact ⟨hs.trans (hjob row).1, hw.trans (hjob row).2⟩

section Later

variable [DecidableEq ν] (E : Engine) {c : Cycle ν} {url : JsString}
  {r : Option (InstanceRow ν)}

/-- What the manual pass has done to a row that it has not found live: nothing, or a probe that
answered otherwise. -/
inductive Unfound (E : Engine) (c : Cycle ν) (url : JsString) (r : Option (InstanceRow ν)) :
    List (Call ν) → Prop
  | idle (h : ∀ row, r = some row → listManual E.sourceKey row = true →
      row.discoveryEnabled = false) : Unfound E c url r []
  | missed {row : InstanceRow ν} (hrow : r = some row)
      (hm : listManual E.sourceKey row = true) (h : row.discoveryEnabled = true)
      {liveness : Liveness} (hl : (c.manual url).liveness = some liveness)
      (hne : liveness ≠ .live) : Unfound E c url r [.checkLiveness row.hlsUrl]

/-- The manual pass over a url that is not listed. -/
theorem manualPass_turn (hn : c.listing url = none) {w : Work ν}
    (hslot : w.slot url = ⟨r, false⟩) :
    let o := E.processManualRows c w
    Turn E c url r (o.state.slot url).row (contacts (Keyed.logOf url o.log)) ∧
      (o.value = some () → (o.state.slot url = ⟨r, false⟩ ∧
        Unfound E c url r (contacts (Keyed.logOf url o.log))) ∨
          (o.state.slot url).inLiveUrls = true) := by
  dsimp only
  unfold Engine.processManualRows
  have htable : w.table.get? url = r := congrArg Slot.row hslot
  have hjob (row : InstanceRow ν) (hrow : r = some row) :
      ∃ r' found, (E.processManualRow url row (c.manual url) (w.slot url)).state =
          ⟨some r', found⟩ ∧ ManualTurn E url row (c.manual url) r' found
        (contacts (E.processManualRow url row (c.manual url) (w.slot url)).log) := by
    rw [hslot, hrow]
    exact processManualRow_turn E url row (c.manual url)
  refine ⟨?_, fun hv => ?_⟩
  · rcases forRows_ran c.listManual (listManual E.sourceKey)
      (fun e => E.processManualRow e.1 e.2 (c.manual e.1)) w url with ⟨hs, hw⟩ | ⟨row, hrow, hp, hs, hw⟩
    · rw [hs, hw, hslot]
      exact .passed
    · have hr := htable.symm.trans hrow
      obtain ⟨r', found, hstate, hturn⟩ := hjob row hr
      rw [hs, hw, hstate]
      exact .manual hn hr hp hturn
  · by_cases hm : ∃ row, r = some row ∧ listManual E.sourceKey row = true
    · obtain ⟨row, hr, hm⟩ := hm
      obtain ⟨hvalue, hs, hw⟩ := forRows_returned hv (htable.trans hr) hm
      obtain ⟨r', found, hstate, hturn⟩ := hjob row hr
      rw [hs, hw, hstate]
      rw [hslot, hr] at hvalue
      generalize contacts (E.processManualRow url row (c.manual url) (w.slot url)).log = log at hturn ⊢
      cases hturn with
      | optedOut hoff =>
        refine .inl ⟨by rw [hr], .idle fun row' hr' _ => ?_⟩
        rw [← Option.some.inj (hr.symm.trans hr')]
        exact hoff
      | unanswered h hl => exact absurd hl (processManualRow_returned E h hvalue)
      | missed h hl hne => exact .inl ⟨by rw [hr], .missed hr hm h hl hne⟩
      | stalled | quiet | thrown | told => exact .inr rfl
    · rcases forRows_ran c.listManual (listManual E.sourceKey)
        (fun e => E.processManualRow e.1 e.2 (c.manual e.1)) w url with ⟨hs, hw⟩ | ⟨row, hrow, hp, -, -⟩
      · rw [hs, hw]
        exact .inl ⟨hslot, .idle fun row hr h => absurd ⟨row, hr, h⟩ hm⟩
      · exact absurd ⟨row, htable.symm.trans hrow, hp⟩ hm

omit [DecidableEq ν] in
theorem Unfound.turn [DecidableEq ν] {w : List (Call ν)} (hn : c.listing url = none)
    (h : Unfound E c url r w) : Turn E c url r r w := by
  cases h with
  | idle => exact .passed
  | missed hrow hm h hl hne =>
    subst hrow
    exact .manual hn rfl hm (.missed h hl hne)

/-- The last pass over a url that no pass has found live. -/
theorem reconcilePass_turn (hn : c.listing url = none) {w : Work ν}
    (hslot : w.slot url = ⟨r, false⟩) {calls : List (Call ν)} (hcalls : Unfound E c url r calls) :
    let o := E.reconcileDisappeared c w
    Turn E c url r (o.state.slot url).row (calls ++ contacts (Keyed.logOf url o.log)) := by
  dsimp only
  unfold Engine.reconcileDisappeared
  rcases forRows_ran c.listByStatus (listByStatus .live E.sourceKey)
    (fun e => E.reconcileRow e.1 e.2 (c.reconcile e.1)) w url with ⟨hs, hw⟩ | ⟨row, hrow, hp, hs, hw⟩
  · rw [hs, hslot, hw, contacts_nil, List.append_nil]
    exact hcalls.turn E hn
  · have hr : r = some row := (congrArg Slot.row hslot).symm.trans hrow
    obtain ⟨r', hstate, hturn⟩ := reconcileRow_turn E url row (c.reconcile url)
    rw [hs, hw, hslot, hr, hstate]
    rw [hr] at hcalls
    cases hcalls with
    | idle hidle =>
      rw [List.nil_append]
      cases hm : listManual E.sourceKey row with
      | false => exact .reconciled hn rfl hm hp hturn
      | true =>
        -- opted out of both passes
        have hoff := hidle row rfl hm
        generalize contacts (E.reconcileRow url row (c.reconcile url) ⟨some row, false⟩).log = log
          at hturn ⊢
        cases hturn with
        | optedOut => exact .passed
        | unanswered h | alive h | failing h | thrown h | ended h =>
          rw [hoff] at h
          cases h
    | missed hrow' hm h hl hne =>
      obtain rfl := Option.some.inj hrow'
      exact .both hn rfl hm hp h hl hne hturn

/-- The later passes leave a url alone that was found live. -/
theorem manualPass_idle {w : Work ν} (hfound : (w.slot url).inLiveUrls = true) :
    let o := E.processManualRows c w
    o.state.slot url = w.slot url ∧ Keyed.logOf url o.log = [] := by
  apply forRows_idle
  intro row
  show (E.processManualRow url row (c.manual url) (w.slot url)).state = _ ∧
    (E.processManualRow url row (c.manual url) (w.slot url)).log = []
  unfold Engine.processManualRow
  rw [Faulty.get_bind, if_pos hfound]
  exact ⟨rfl, rfl⟩

omit [DecidableEq ν] in
theorem reconcilePass_idle {w : Work ν} (hfound : (w.slot url).inLiveUrls = true) :
    let o := E.reconcileDisappeared c w
    o.state.slot url = w.slot url ∧ Keyed.logOf url o.log = [] := by
  apply forRows_idle
  intro row
  show (E.reconcileRow url row (c.reconcile url) (w.slot url)).state = _ ∧
    (E.reconcileRow url row (c.reconcile url) (w.slot url)).log = []
  unfold Engine.reconcileRow
  rw [Faulty.get_bind, if_pos hfound]
  exact ⟨rfl, rfl⟩

/-- The last two passes over a url that the first one has left alone or found live. -/
theorem laterPasses_turn {w : Work ν} {calls : List (Call ν)}
    (hturn : Turn E c url r (w.slot url).row calls)
    (h : (c.listing url = none ∧ w.slot url = ⟨r, false⟩ ∧ calls = []) ∨
      (w.slot url).inLiveUrls = true) :
    let o := (E.processManualRows c >>= fun _ => E.reconcileDisappeared c) w
    Turn E c url r (o.state.slot url).row (calls ++ contacts (Keyed.logOf url o.log)) := by
  dsimp only
  rcases h with ⟨hn, hslot, rfl⟩ | hfound
  · obtain ⟨hmanual, hthen⟩ := manualPass_turn E hn hslot
    rw [List.nil_append]
    apply Faulty.bind_rule (P := fun o : Outcome (Work ν) (JsString × Call ν) Unit =>
      Turn E c url r (o.state.slot url).row (contacts (Keyed.logOf url o.log)))
    · intro _
      exact hmanual
    · intro _ hv
      simp only [Keyed.logOf_append, contacts_append]
      rcases hthen hv with ⟨hslot', hcalls⟩ | hfound
      · exact reconcilePass_turn E hn hslot' hcalls
      · obtain ⟨hs, hw⟩ := reconcilePass_idle E (c := c) hfound
        rw [hs, hw, contacts_nil, List.append_nil]
        exact hmanual
  · obtain ⟨hs, hw⟩ := manualPass_idle E (c := c) hfound
    apply Faulty.bind_rule (P := fun o : Outcome (Work ν) (JsString × Call ν) Unit =>
      Turn E c url r (o.state.slot url).row (calls ++ contacts (Keyed.logOf url o.log)))
    · intro _
      rw [hs, hw, contacts_nil, List.append_nil]
      exact hturn
    · intro _ _
      have hfound' : ((E.processManualRows c w).state.slot url).inLiveUrls = true := by
        rw [hs]
        exact hfound
      obtain ⟨hs', hw'⟩ := reconcilePass_idle E (c := c) hfound'
      rw [hs', hs, Keyed.logOf_append, hw, hw', List.append_nil, contacts_nil, List.append_nil]
      exact hturn

/-- What the three passes do to one url. -/
theorem passes_turn (hn : (c.live.map fun e => e.1.url).Nodup) {w : Work ν}
    (hslot : w.slot url = ⟨r, false⟩) :
    let o := E.passes c c.live w
    Turn E c url r (o.state.slot url).row (contacts (Keyed.logOf url o.log)) := by
  obtain ⟨hlive, hthen⟩ := livePass_turn E hn hslot
  apply Faulty.bind_rule (P := fun o : Outcome (Work ν) (JsString × Call ν) Unit =>
    Turn E c url r (o.state.slot url).row (contacts (Keyed.logOf url o.log)))
  · intro _
    exact hlive
  · intro _ hv
    simp only [Keyed.logOf_append, contacts_append]
    exact laterPasses_turn E hlive (hthen hv)

/-- What a cycle does to one url. -/
theorem runCycle_turn (hn : (c.live.map fun e => e.1.url).Nodup) (s : DiscoveryState ν)
    (url : JsString) :
    Turn E c url (s.table.get? url) ((E.runCycle c s).table.get? url)
      (contacts (Keyed.logOf url (E.runCycle c s).cycleLog)) := by
  rcases E.runCycle_cases c s with ⟨-, hrun⟩ | ⟨fetched, hf, ht, -, hlog⟩
  · rw [hrun]
    exact .passed
  · have hlive : c.live = fetched.live := by simp [Cycle.live, hf]
    rw [ht, hlog, ← hlive]
    exact passes_turn E hn rfl

end Later

section Probes

variable [DecidableEq ν] (E : Engine)

/-- The answers that the passes would get when they probe an instance, in order, each with the
clock reading taken behind it. -/
def Engine.probeAnswers (c : Cycle ν) (url : JsString) (r : Option (InstanceRow ν)) :
    List (Option Liveness × Int) :=
  match c.listing url with
  | some e => [(e.2.liveness, e.2.dueAt)]
  | none =>
    (if r.any (listManual E.sourceKey) then [((c.manual url).liveness, (c.manual url).dueAt)]
      else []) ++ [((c.reconcile url).liveness, (c.reconcile url).publishedAt)]

section Answers

variable {E} {c : Cycle ν} {url : JsString}

omit [DecidableEq ν] in
theorem probeAnswers_listed {e : DiscoveredLive ν × LiveAnswers ν} (he : c.listing url = some e)
    (r : Option (InstanceRow ν)) : E.probeAnswers c url r = [(e.2.liveness, e.2.dueAt)] := by
  simp only [Engine.probeAnswers, he]

omit [DecidableEq ν] in
theorem probeAnswers_manual (hn : c.listing url = none) {row : InstanceRow ν}
    (hm : listManual E.sourceKey row = true) : E.probeAnswers c url (some row) =
      [((c.manual url).liveness, (c.manual url).dueAt),
        ((c.reconcile url).liveness, (c.reconcile url).publishedAt)] := by
  simp [Engine.probeAnswers, hn, hm]

omit [DecidableEq ν] in
theorem probeAnswers_reconciled (hn : c.listing url = none) {row : InstanceRow ν}
    (hm : listManual E.sourceKey row = false) : E.probeAnswers c url (some row) =
      [((c.reconcile url).liveness, (c.reconcile url).publishedAt)] := by
  simp [Engine.probeAnswers, hn, hm]

end Answers

/-- What the probes of an instance have answered in a cycle, and when. -/
def Engine.probed (c : Cycle ν) (s : DiscoveryState ν) (url : JsString) :
    List (Liveness × Int) :=
  ((E.probeAnswers c url (s.table.get? url)).take
    (probeCount (Keyed.logOf url (E.runCycle c s).cycleLog))).filterMap fun a => a.1.map (·, a.2)

variable {E}

omit [DecidableEq ν] in
theorem Aside.probes_once {w : List (Call ν)} (h : Aside w) (streamUrl : JsString) :
    probeCount (.checkLiveness streamUrl :: w) = 1 := by
  show List.countP _ (_ :: w) = 1
  rw [List.countP_cons, show List.countP _ w = 0 from h.no_probe]
  rfl

omit [DecidableEq ν] in
theorem Aside.probes_once_event {w : List (Call ν)} (h : Aside w) (streamUrl : JsString)
    (input : LivePublishInput ν) (results : Option RelayResults) :
    probeCount (.checkLiveness streamUrl :: (w ++ [.publishLiveEvent input results])) = 1 := by
  show List.countP _ (_ :: (w ++ _)) = 1
  rw [List.countP_cons, List.countP_append, show List.countP _ w = 0 from h.no_probe]
  rfl

/-- A turn probes an instance once, unless it is opted out. -/
theorem SeenTurn.probes {inst : DiscoveredLive ν} {signer dTag : JsString}
    {row r' : InstanceRow ν} {isNew : Bool} {A : LiveAnswers ν} {w : List (Call ν)}
    (h : SeenTurn E inst signer dTag row isNew A r' w) :
    probeCount w = if row.discoveryEnabled then 1 else 0 := by
  cases h with
  | optedOut h => rw [h]; rfl
  | unanswered h => rw [h]; rfl
  | stalled h _ _ _ ha | quiet h _ _ _ _ ha =>
    rw [h]
    exact Aside.probes_once ha _
  | thrown h _ _ _ _ _ ha | told h _ _ _ _ _ ha =>
    rw [h]
    exact Aside.probes_once_event ha _ _ _

theorem ManualTurn.probes {url : JsString} {row r' : InstanceRow ν} {A : ManualAnswers ν}
    {found : Bool} {w : List (Call ν)} (h : ManualTurn E url row A r' found w) :
    probeCount w = if row.discoveryEnabled then 1 else 0 := by
  cases h with
  | optedOut h => rw [h]; rfl
  | unanswered h | missed h => rw [h]; rfl
  | stalled h _ _ _ ha | quiet h _ _ _ _ ha =>
    rw [h]
    exact Aside.probes_once ha _
  | thrown h _ _ _ _ _ ha | told h _ _ _ _ _ ha =>
    rw [h]
    exact Aside.probes_once_event ha _ _ _

omit [DecidableEq ν] in
theorem ReconcileTurn.probes {url : JsString} {row r' : InstanceRow ν} {A : ReconcileAnswers}
    {w : List (Call ν)} (h : ReconcileTurn E url row A r' w) :
    probeCount w = if row.discoveryEnabled then 1 else 0 := by
  cases h with
  | optedOut h => rw [h]; rfl
  | unanswered h | alive h | failing h | thrown h | ended h => rw [h]; rfl

end Probes

end LivelierBridge.Discovery
