import LivelierBridge.Discovery.Coordinates
import LivelierBridge.Discovery.Passes

namespace LivelierBridge.Discovery

open Framework Js

variable {ν : Type}

namespace Engine

variable (E : Engine)

/-- A listed row whose heartbeat is due reaches its live event, unless the probe answers ended. -/
def KeptListed (e : DiscoveredLive ν × LiveAnswers ν) (row : InstanceRow ν) : Prop :=
  ∀ liveness ∈ e.2.liveness, liveness ≠ .ended → E.republishDue row e.2.dueAt = true →
    E.ReachesEvent e.1 row liveness e.2 ∧ e.2.publish.isSome = true

/-- A row that is not listed reaches its live event when the manual pass finds it live and its
heartbeat is due, and the last pass does not find it live then. -/
def KeptUnlisted (c : Cycle ν) (url : JsString) (row : InstanceRow ν) : Prop :=
  (listManual E.sourceKey row = true → (c.manual url).liveness = some .live →
    E.republishDue row (c.manual url).dueAt = true →
      E.ReachesManual url row (c.manual url) ∧ (c.manual url).publish.isSome = true) ∧
  (listByStatus .live E.sourceKey row = true →
    (listManual E.sourceKey row = true → (c.manual url).liveness.any (· ≠ .live) = true) →
      (c.reconcile url).liveness = some .live →
        E.republishDue row (c.reconcile url).publishedAt = false)

def KeptAlive (c : Cycle ν) (url : JsString) (row : InstanceRow ν) : Prop :=
  match c.listing url with
  | some e => E.KeptListed e row
  | none => E.KeptUnlisted c url row

instance (e : DiscoveredLive ν × LiveAnswers ν) (row : InstanceRow ν) :
    Decidable (E.KeptListed e row) := inferInstanceAs (Decidable (∀ _ ∈ e.2.liveness, _))

instance (c : Cycle ν) (url : JsString) (row : InstanceRow ν) :
    Decidable (E.KeptUnlisted c url row) := inferInstanceAs (Decidable (_ ∧ _))

instance (c : Cycle ν) (url : JsString) (row : InstanceRow ν) :
    Decidable (E.KeptAlive c url row) :=
  show Decidable (match c.listing url with
    | some e => E.KeptListed e row
    | none => E.KeptUnlisted c url row) from
  match c.listing url with
  | some e => inferInstanceAs (Decidable (E.KeptListed e row))
  | none => inferInstanceAs (Decidable (E.KeptUnlisted c url row))

end Engine

variable [DecidableEq ν]

/-- The cycle finds the instance live: a probe answers live, or one of a listed instance does
not answer ended. -/
def FoundLive (E : Engine) (c : Cycle ν) (s : DiscoveryState ν) (url : JsString) (now : Int) :
    Prop :=
  ∃ liveness, (liveness, now) ∈ E.probed c s url ∧
    (liveness = .live ∨ liveness ≠ .ended ∧ (c.listing url).isSome = true)

/-- A live event for the instance with the status live is published. -/
def PublishesLive (url : JsString) (w : List (Call ν)) : Prop :=
  ∃ input results, Call.publishLiveEvent input (some results) ∈ w ∧ input.proxyUrl = url ∧
    input.status = .live

/-- Each enabled row that the cycle finds live when its heartbeat is due is published as live. -/
def Heartbeat (E : Engine) (c : Cycle ν) (s : DiscoveryState ν) : Prop :=
  ∀ url row now, s.table.get? url = some row → row.discoveryEnabled = true →
    FoundLive E c s url now → E.republishDue row now = true →
      PublishesLive url (Keyed.logOf url (E.runCycle c s).cycleLog)

section Turn

variable {E : Engine} {url : JsString}

omit [DecidableEq ν] in
theorem publishesLive_last {input : LivePublishInput ν} {results : RelayResults}
    (hu : input.proxyUrl = url) (hs : input.status = .live) (x : Call ν) (w : List (Call ν)) :
    PublishesLive url (x :: (w ++ [.publishLiveEvent input (some results)])) := by
  refine ⟨input, results, ?_, hu, hs⟩
  exact List.mem_cons_of_mem _ (List.mem_append_right _ (List.mem_singleton_self _))

theorem SeenTurn.publishesLive {inst : DiscoveredLive ν} {signer dTag : JsString}
    {row r' : InstanceRow ν} {isNew : Bool} {A : LiveAnswers ν} {w : List (Call ν)}
    (h : SeenTurn E inst signer dTag row isNew A r' w) (hu : inst.url = url) {liveness : Liveness}
    (hl : A.liveness = some liveness) (hon : row.discoveryEnabled = true)
    (hne : liveness ≠ .ended) (hdue : E.republishDue row A.dueAt = true)
    (hkept : E.KeptListed (inst, A) row) : PublishesLive url w := by
  obtain ⟨hreach, hpub⟩ := hkept liveness hl hne hdue
  cases h with
  | optedOut hoff =>
    rw [hoff] at hon
    cases hon
  | unanswered _ hl' =>
    rw [hl'] at hl
    cases hl
  | stalled _ hl' hr =>
    obtain rfl := Option.some.inj (hl'.symm.trans hl)
    exact absurd hreach hr
  | quiet _ hl' _ hnews =>
    simp [Engine.hasNews, hdue] at hnews
  | thrown _ _ _ _ hp =>
    rw [hp] at hpub
    cases hpub
  | told _ hl' =>
    obtain rfl := Option.some.inj (hl'.symm.trans hl)
    exact publishesLive_last hu (if_neg hne) _ _

theorem ManualTurn.publishesLive {row r' : InstanceRow ν} {A : ManualAnswers ν} {found : Bool}
    {w : List (Call ν)} (h : ManualTurn E url row A r' found w) (hl : A.liveness = some .live)
    (hon : row.discoveryEnabled = true) (hdue : E.republishDue row A.dueAt = true)
    (hkept : E.ReachesManual url row A ∧ A.publish.isSome = true) : PublishesLive url w := by
  cases h with
  | optedOut hoff =>
    rw [hoff] at hon
    cases hon
  | unanswered _ hl' =>
    rw [hl'] at hl
    cases hl
  | missed _ hl' hne => exact absurd (Option.some.inj (hl'.symm.trans hl)) hne
  | stalled _ _ hr => exact absurd hkept.1 hr
  | quiet _ _ _ hnews =>
    simp [Engine.manualNews, hdue] at hnews
  | thrown _ _ _ _ hp =>
    have hpub := hkept.2
    rw [hp] at hpub
    cases hpub
  | told => exact publishesLive_last rfl rfl _ _

theorem mem_probed {c : Cycle ν} {s : DiscoveryState ν} {liveness : Liveness} {now : Int}
    (h : (liveness, now) ∈ E.probed c s url) :
    (some liveness, now) ∈ (E.probeAnswers c url (s.table.get? url)).take
      (probeCount (contacts (Keyed.logOf url (E.runCycle c s).cycleLog))) := by
  rw [probeCount_contacts]
  obtain ⟨⟨answer, t⟩, hmem, heq⟩ := List.mem_filterMap.mp h
  obtain ⟨a, rfl, hpair⟩ := Option.map_eq_some_iff.mp heq
  obtain ⟨rfl, rfl⟩ := Prod.mk.inj hpair
  exact hmem

omit [DecidableEq ν] in
theorem unlisted_live {c : Cycle ν} {liveness : Liveness} (hn : c.listing url = none)
    (h : liveness = .live ∨ liveness ≠ .ended ∧ (c.listing url).isSome = true) :
    liveness = .live := by
  rcases h with h | ⟨-, hlisted⟩
  · exact h
  · rw [hn] at hlisted
    cases hlisted

/-- A cycle keeps the heartbeat of the rows it keeps alive. -/
theorem cycle_heartbeat {c : Cycle ν} (hn : (c.live.map fun e => e.1.url).Nodup)
    {s : DiscoveryState ν} (hkept : ∀ entry ∈ s.table.entries,
      entry.2.discoveryEnabled = true → E.KeptAlive c entry.1 entry.2) : Heartbeat E c s := by
  rintro url row now hrow hon ⟨liveness, hprobed, hlive⟩ hdue
  have halive := hkept (url, row) ((s.table.get?_eq_some_iff url row).mp hrow) hon
  have hturn := runCycle_turn E hn s url
  have hmem := mem_probed hprobed
  have hlog (h : PublishesLive url (contacts (Keyed.logOf url (E.runCycle c s).cycleLog))) :
      PublishesLive url (Keyed.logOf url (E.runCycle c s).cycleLog) := by
    obtain ⟨input, results, hx, hrest⟩ := h
    exact ⟨input, results, List.mem_of_mem_filter hx, hrest⟩
  apply hlog
  rw [hrow] at hturn hmem
  generalize contacts (Keyed.logOf url (E.runCycle c s).cycleLog) = w at hturn hmem ⊢
  generalize (E.runCycle c s).table.get? url = r' at hturn
  unfold Engine.KeptAlive at halive
  cases hturn with
  | passed => cases hmem
  | listed he _ hrow' h =>
    subst hrow'
    rw [probeAnswers_listed he] at hmem
    simp only [he] at halive
    obtain ⟨hl, rfl⟩ := Prod.mk.inj (List.mem_singleton.mp (List.mem_of_mem_take hmem))
    have hne : liveness ≠ .ended := by
      rcases hlive with rfl | ⟨hne, -⟩
      · exact Liveness.noConfusion
      · exact hne
    exact h.publishesLive (Cycle.listing_url he) hl.symm hon hne hdue halive
  | manual hlisting hrow' hm h =>
    obtain rfl := Option.some.inj hrow'
    have hprobe : some liveness = (c.manual url).liveness ∧ now = (c.manual url).dueAt := by
      simpa [h.probes, hon, probeAnswers_manual hlisting hm] using hmem
    obtain ⟨hl, rfl⟩ := hprobe
    simp only [hlisting] at halive
    obtain rfl := unlisted_live hlisting hlive
    exact h.publishesLive hl.symm hon hdue (halive.1 hm hl.symm hdue)
  | reconciled hlisting hrow' hm hl h =>
    obtain rfl := Option.some.inj hrow'
    have hprobe : some liveness = (c.reconcile url).liveness ∧
        now = (c.reconcile url).publishedAt := by
      simpa [h.probes, hon, probeAnswers_reconciled hlisting hm] using hmem
    obtain ⟨hlv, rfl⟩ := hprobe
    simp only [hlisting] at halive
    obtain rfl := unlisted_live hlisting hlive
    have hnot := halive.2 hl (fun hm' => absurd (hm.symm.trans hm') Bool.false_ne_true) hlv.symm
    exact absurd (hnot.symm.trans hdue) Bool.false_ne_true
  | both hlisting hrow' hm hl _ hmissed hne h =>
    obtain rfl := Option.some.inj hrow'
    obtain rfl := unlisted_live hlisting hlive
    have hprobe : (some .live = (c.manual url).liveness ∧ now = (c.manual url).dueAt) ∨
        (some .live = (c.reconcile url).liveness ∧ now = (c.reconcile url).publishedAt) := by
      simpa [probeAnswers_manual hlisting hm] using List.mem_of_mem_take hmem
    rcases hprobe with ⟨hlv, -⟩ | ⟨hlv, rfl⟩
    · exact absurd (Option.some.inj (hmissed.symm.trans hlv.symm)) hne
    · simp only [hlisting] at halive
      have hnot := halive.2 hl (fun _ => by simp [hmissed, hne]) hlv.symm
      exact absurd (hnot.symm.trans hdue) Bool.false_ne_true

end Turn

section Run

variable [JsNumber ν]

/-- Each stored row that is enabled is kept alive. -/
def KeepsAlive (E : Engine) (s : DiscoveryState ν) : DiscoveryAction ν → Prop
  | .cycle payload live answers => ∀ entry ∈ s.table.entries, entry.2.discoveryEnabled = true →
      E.KeptAlive (E.cycleOn payload live answers) entry.1 entry.2
  | .addManual _ _ => True

instance (E : Engine) (s : DiscoveryState ν) : ∀ a, Decidable (KeepsAlive E s a)
  | .cycle _ _ _ => inferInstanceAs (Decidable (∀ _ ∈ _, _))
  | .addManual _ _ => inferInstanceAs (Decidable True)

/-- Each cycle of the run keeps the heartbeat of the rows that it finds live. -/
def Heartbeats (E : Engine) (s₀ : DiscoveryState ν) (as : List (DiscoveryAction ν)) : Prop :=
  ∀ as₁ payload live answers as₂ s, as = as₁ ++ .cycle payload live answers :: as₂ →
    run E.discoveryStep s₀ as₁ = some s → Heartbeat E (E.cycleOn payload live answers) s

/-- In every run whose cycles keep the stored rows alive, each row that a cycle finds live when
its heartbeat is due is published as live. -/
theorem keepsAlive_heartbeats (E : Engine) (s₀ : DiscoveryState ν)
    (as : List (DiscoveryAction ν)) (hg : Guarded E.discoveryStep (KeepsAlive E) s₀ as) :
    Heartbeats E s₀ as := by
  intro as₁ payload live answers as₂ s has hs
  have hkept := guarded_iff.mp hg as₁ _ as₂ s has hs
  exact cycle_heartbeat (cycleOn_nodup E payload live answers) hkept

end Run

/-- The stream is listed again a quarter of an hour later. -/
def listedAgain : DiscoveryAction Int :=
  .cycle (some (demoPayload "https://a.example"))
    (fun url => { demoLive url with dueAt := 900000, publishedAt := 900000 }) demoAnswers

theorem keepsAlive_heartbeats_listed :
    Heartbeats demoEngine .init [demoCycle "https://a.example", listedAgain] :=
  keepsAlive_heartbeats demoEngine .init _ (by decide +kernel)

/-- A quarter of an hour later the stream is not listed any more, and still live. -/
def lateAnswers : CycleAnswers Int :=
  { demoAnswers with reconcile := fun _ => ⟨some .live, accepted, 900000, true⟩ }

/-- The last pass finds the stream live and publishes nothing. -/
theorem heartbeats_fails_unlisted :
    ¬Heartbeats demoEngine .init
      [demoCycle "https://a.example", .cycle emptyPayload demoLive lateAnswers] := by
  intro h
  let url := js "https://a.example"
  let c := demoEngine.cycleOn emptyPayload demoLive lateAnswers
  have hrun : (run demoEngine.discoveryStep .init [demoCycle "https://a.example"]).map (fun s =>
      ((s.table.get? url).map fun row => (row.discoveryEnabled, row.lastPublishedAt),
        demoEngine.probed c s url,
        (publishes (Keyed.logOf url (demoEngine.runCycle c s).cycleLog)).length)) =
      some (some (true, some 0), [(.live, 900000)], 0) := by decide +kernel
  obtain ⟨s, hs, hp⟩ := Option.map_eq_some_iff.mp hrun
  obtain ⟨hrow, hp⟩ := Prod.mk.inj hp
  obtain ⟨hprobed, hpublished⟩ := Prod.mk.inj hp
  obtain ⟨row, hrow, hfields⟩ := Option.map_eq_some_iff.mp hrow
  obtain ⟨hon, hlast⟩ := Prod.mk.inj hfields
  have hfound : FoundLive demoEngine c s url 900000 :=
    ⟨.live, by rw [hprobed]; exact List.mem_singleton_self _, .inl rfl⟩
  have hdue : demoEngine.republishDue row 900000 = true := by
    unfold Engine.republishDue
    rw [hlast]
    decide
  obtain ⟨input, results, hmem, -⟩ :=
    h [demoCycle "https://a.example"] _ _ _ [] s rfl hs url row 900000 hrow hon hfound hdue
  have hnone : (input, some results) ∈ publishes (Keyed.logOf url (demoEngine.runCycle c s).cycleLog) :=
    List.mem_filterMap.mpr ⟨_, hmem, rfl⟩
  rw [List.length_eq_zero_iff.mp hpublished] at hnone
  cases hnone

end LivelierBridge.Discovery
