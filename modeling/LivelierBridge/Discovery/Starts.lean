import LivelierBridge.Discovery.Coordinates
import LivelierBridge.Discovery.Passes

namespace LivelierBridge.Discovery

open Framework Js

variable {ν : Type}

/-- The starts of the live events that were published; a publish that threw is none. -/
def startsOf (ps : List (Publish ν)) : List Int :=
  ps.filterMap fun p => p.2.map fun _ => p.1.startsTimestamp

/-- The start of the last live event published for an instance. -/
def lastStarts (url : JsString) (history : List (JsString × Call ν)) : Option Int :=
  (startsOf (publishes (Keyed.logOf url history))).getLast?

/-- The start that the store has for a row, in seconds. -/
def storedStart (row : InstanceRow ν) : Int := row.startsAt.getD row.firstSeenAt / 1000

/-- The start that a listed instance is published with. -/
def reportedStart (inst : DiscoveredLive ν) (row : InstanceRow ν) : Int :=
  inst.startsAt.getD (row.firstSeenAt / 1000)

/-- An event keeps the start of the one before it, unless the row had ended and the event says
that it is live. -/
def KeepsStart (ended : Bool) (before : Int) (p : Publish ν) : Prop :=
  if ended ∧ p.1.status = .live then p.1.startsTimestamp ≠ before
  else p.1.startsTimestamp = before

def endedIn (table : InstanceTable ν) (url : JsString) : Bool :=
  (table.get? url).any fun row => row.status = .ended

/-- A cycle publishes at most one live event for an instance, and that one keeps the start of
the last event published for it, unless the row comes back to life. -/
def StartsLaw [DecidableEq ν] (E : Engine) (c : Cycle ν) (s : DiscoveryState ν) : Prop :=
  ∀ url, (publishes (Keyed.logOf url (E.runCycle c s).cycleLog)).length ≤ 1 ∧
    ∀ p ∈ publishes (Keyed.logOf url (E.runCycle c s).cycleLog), p.2.isSome = true →
      ∀ before ∈ lastStarts url s.history, KeepsStart (endedIn s.table url) before p

namespace Engine

variable (E : Engine)

/-- While a listed row is live, the directory reports the start that was last published; when it
comes back to life another one. -/
def SteadyListed [DecidableEq ν] (e : DiscoveredLive ν × LiveAnswers ν) (row : InstanceRow ν)
    (before : Int) : Prop :=
  (row.status = .live → reportedStart e.1 row = before) ∧
  (row.status = .ended → e.2.publish.isSome = true → ∀ liveness ∈ e.2.liveness,
    E.ReachesEvent e.1 row liveness e.2 → E.hasNews row false liveness e.2 = true →
      (reportedStart e.1 row = before ↔ liveness = .ended))

/-- A live manual row that is published without a stored start was not published before with
another one than the time, and the time is stored; when a manual row comes back to life the time
has moved on. -/
def SteadyTime (row : InstanceRow ν) (A : ManualAnswers ν) (before : Option Int) : Prop :=
  (row.status = .live → row.startsAt = none → (∀ v ∈ before, A.startsAt / 1000 = v) ∧
    (before = none → A.stored = true ∨ A.startsAt / 1000 = storedStart row)) ∧
  (row.status = .ended → ∀ v ∈ before, A.startsAt / 1000 ≠ v)

/-- The time is steady when a manual row is published. -/
def SteadyManual [DecidableEq ν] (url : JsString) (row : InstanceRow ν) (A : ManualAnswers ν)
    (before : Option Int) : Prop :=
  row.discoveryEnabled = true → A.liveness = some .live → E.ReachesManual url row A →
    E.manualNews row A = true → A.publish.isSome = true → SteadyTime row A before

/-- The starts of a stored row are steady: of a listed one that is stored, or of a manual one. -/
def SteadyRow [DecidableEq ν] (c : Cycle ν) (url : JsString) (row : InstanceRow ν)
    (before : Option Int) : Prop :=
  match c.listing url with
  | some e => e.2.upsert.isSome = true → ∀ v ∈ before, E.SteadyListed e row v
  | none => listManual E.sourceKey row = true → E.SteadyManual url row (c.manual url) before

instance [DecidableEq ν] (e : DiscoveredLive ν × LiveAnswers ν) (row : InstanceRow ν)
    (before : Int) : Decidable (E.SteadyListed e row before) :=
  inferInstanceAs (Decidable ((_ → _) ∧ (_ → _ → ∀ _ ∈ e.2.liveness, _ → _ → _)))

instance (row : InstanceRow ν) (A : ManualAnswers ν) (before : Option Int) :
    Decidable (SteadyTime row A before) :=
  inferInstanceAs (Decidable ((_ → _ → (∀ _ ∈ before, _) ∧ (_ → _)) ∧ (_ → ∀ _ ∈ before, _)))

instance [DecidableEq ν] (url : JsString) (row : InstanceRow ν) (A : ManualAnswers ν)
    (before : Option Int) : Decidable (E.SteadyManual url row A before) :=
  inferInstanceAs (Decidable (_ → _ → _ → _ → _ → SteadyTime row A before))

instance [DecidableEq ν] (c : Cycle ν) (url : JsString) (row : InstanceRow ν)
    (before : Option Int) : Decidable (E.SteadyRow c url row before) :=
  show Decidable (match c.listing url with
    | some e => e.2.upsert.isSome = true → ∀ v ∈ before, E.SteadyListed e row v
    | none => listManual E.sourceKey row = true →
        E.SteadyManual url row (c.manual url) before) from
  match c.listing url with
  | some e => inferInstanceAs (Decidable (_ → ∀ v ∈ before, E.SteadyListed e row v))
  | none => inferInstanceAs (Decidable (_ → E.SteadyManual url row (c.manual url) before))

end Engine

/-- What a turn does about starts: at most one event, which keeps the start of the one before
it; and the store has the start of the last event for a live row. -/
structure SteadyTurn (ended : Bool) (before : Option Int) (r' : InstanceRow ν)
    (ps : List (Publish ν)) : Prop where
  once : ps.length ≤ 1
  keeps : ∀ p ∈ ps, p.2.isSome = true → ∀ v ∈ before, KeepsStart ended v p
  stored : r'.status = .live → ∀ v ∈ (startsOf ps).getLast?.or before, storedStart r' = v

section Turn

variable {ended : Bool} {before : Option Int} {r' : InstanceRow ν}

theorem SteadyTurn.silent (h : r'.status = .live → ∀ v ∈ before, storedStart r' = v) :
    SteadyTurn ended before r' [] :=
  ⟨Nat.zero_le 1, fun _ hp => absurd hp List.not_mem_nil, h⟩

theorem SteadyTurn.thrown (h : r'.status = .live → ∀ v ∈ before, storedStart r' = v)
    (input : LivePublishInput ν) : SteadyTurn ended before r' [(input, none)] := by
  refine ⟨Nat.le_refl 1, fun p hp hsome => ?_, h⟩
  rw [List.mem_singleton.mp hp] at hsome
  cases hsome

theorem SteadyTurn.said {input : LivePublishInput ν} {results : RelayResults}
    (h : r'.status = .live → storedStart r' = input.startsTimestamp)
    (hkeeps : ∀ v ∈ before, KeepsStart ended v (input, some results)) :
    SteadyTurn ended before r' [(input, some results)] := by
  refine ⟨Nat.le_refl 1, fun p hp _ => ?_, fun hlive v hv => ?_⟩
  · rw [List.mem_singleton.mp hp]
    exact hkeeps
  · rw [← Option.mem_some_iff.mp hv]
    exact h hlive

/-- The upsert leaves the reported start in the store, unless that is the epoch. -/
theorem storedStart_upserted (E : Engine) (r : Option (InstanceRow ν)) {inst : DiscoveredLive ν}
    (signer dTag : JsString) (now : Int) (h0 : inst.startsAt ≠ some 0) :
    storedStart (upsertedRow r (E.seenInput inst signer dTag) now) =
      reportedStart inst (upsertedRow r (E.seenInput inst signer dTag) now) := by
  have hstart : (upsertedRow r (E.seenInput inst signer dTag) now).startsAt =
      Engine.startsDate inst.startsAt := by
    cases r with
    | none => rfl
    | some row => rfl
  unfold storedStart reportedStart
  rw [hstart]
  cases hs : inst.startsAt with
  | none => rfl
  | some t =>
    have ht : t ≠ 0 := fun h => h0 (by rw [hs, h])
    simp [Engine.startsDate, ht]

variable [DecidableEq ν] {E : Engine} {url : JsString}

omit [DecidableEq ν] in
@[simp] theorem storedStart_withHash (row : InstanceRow ν) (hash : Option JsString) :
    storedStart (row.withHash hash) = storedStart row := rfl

omit [DecidableEq ν] in
theorem keepsStart_ended {input : LivePublishInput ν} {results : Option RelayResults} {v : Int}
    (h : input.startsTimestamp = v) (hs : ended = true → input.status = .ended) :
    KeepsStart ended v (input, results) := by
  unfold KeepsStart
  rw [if_neg]
  · exact h
  · rintro ⟨hended, hlive⟩
    rw [hs hended] at hlive
    cases hlive

omit [DecidableEq ν] in
theorem keepsStart_live {input : LivePublishInput ν} {results : Option RelayResults} {v : Int}
    (h : input.startsTimestamp ≠ v) (hended : ended = true) (hlive : input.status = .live) :
    KeepsStart ended v (input, results) := by
  unfold KeepsStart
  rw [if_pos ⟨hended, hlive⟩]
  exact h

theorem SeenTurn.steady {inst : DiscoveredLive ν} {signer dTag : JsString}
    {row r' : InstanceRow ν} {isNew : Bool} {A : LiveAnswers ν} {w : List (Call ν)}
    (h : SeenTurn E inst signer dTag row isNew A r' w)
    (hstart : storedStart row = reportedStart inst row) (hnew : isNew = true → before = none)
    (hs : ∀ v ∈ before, E.SteadyListed (inst, A) row v) :
    SteadyTurn (decide (row.status = .ended)) before r' (publishes w) := by
  have hkept (hlive : row.status = .live) (v : Int) (hv : v ∈ before) : storedStart row = v :=
    hstart.trans ((hs v hv).1 hlive)
  cases h with
  | optedOut | unanswered => exact .silent hkept
  | stalled _ _ _ _ ha =>
    rw [ha.probed_silent]
    exact .silent hkept
  | quiet _ _ _ hnews _ ha =>
    rw [Aside.probed_silent ha]
    apply SteadyTurn.silent
    split
    · intro hlive
      -- nothing to say: the status is the one stored
      simp only [Engine.hasNews, Bool.or_eq_false_iff, decide_eq_false_iff_not, not_not] at hnews
      exact hkept (hnews.1.1.2.trans hlive)
    · exact hkept
  | thrown _ _ _ _ _ _ ha =>
    rw [Aside.probed_event ha]
    apply SteadyTurn.thrown
    exact hkept
  | @told _ liveness hl hr hnews _ hp _ _ ha =>
    rw [Aside.probed_event ha]
    apply SteadyTurn.said
    · intro _
      split
      · exact hstart
      · exact hstart
    · intro v hv
      have hsteady := hs v hv
      have hold : isNew = false := by
        cases hisNew : isNew with
        | false => rfl
        | true =>
          rw [hnew hisNew] at hv
          cases hv
      subst hold
      cases hstatus : row.status with
      | live =>
        apply keepsStart_ended (hsteady.1 hstatus)
        simp
      | ended =>
        have hturned := hsteady.2 hstatus (by rw [hp]; rfl) liveness hl hr hnews
        by_cases hend : liveness = .ended
        · apply keepsStart_ended (hturned.mpr hend)
          intro _
          exact if_pos hend
        · exact keepsStart_live (fun heq => hend (hturned.mp heq)) rfl (if_neg hend)

omit [DecidableEq ν] in
theorem manualStart_of_live {row : InstanceRow ν} {A : ManualAnswers ν} {t : Int}
    (hlive : row.status = .live) (ht : row.startsAt = some t) :
    Engine.manualStart row A = storedStart row := by
  simp [Engine.manualStart, storedStart, hlive, ht]

omit [DecidableEq ν] in
theorem manualStart_of_none {row : InstanceRow ν} {A : ManualAnswers ν}
    (ht : row.startsAt = none) : Engine.manualStart row A = A.startsAt / 1000 := by
  simp [Engine.manualStart, ht]

omit [DecidableEq ν] in
theorem manualStart_of_ended {row : InstanceRow ν} {A : ManualAnswers ν}
    (hended : row.status = .ended) : Engine.manualStart row A = A.startsAt / 1000 := by
  unfold Engine.manualStart
  split
  · rfl
  · simp [hended]

theorem ManualTurn.steady {row r' : InstanceRow ν} {A : ManualAnswers ν} {found : Bool}
    {w : List (Call ν)} (h : ManualTurn E url row A r' found w)
    (hkept : row.status = .live → ∀ v ∈ before, storedStart row = v)
    (hs : E.SteadyManual url row A before) :
    SteadyTurn (decide (row.status = .ended)) before r' (publishes w) := by
  cases h with
  | optedOut | unanswered | missed => exact .silent hkept
  | stalled _ _ _ _ ha =>
    rw [Aside.probed_silent ha]
    exact .silent hkept
  | quiet _ _ _ hnews _ ha =>
    rw [Aside.probed_silent ha]
    apply SteadyTurn.silent
    have hlive : row.status = .live := by
      cases hstatus : row.status with
      | live => rfl
      | ended => simp [Engine.manualNews, hstatus] at hnews
    split
    · intro _
      exact hkept hlive
    · exact hkept
  | thrown _ _ _ _ _ _ ha =>
    rw [Aside.probed_event ha]
    apply SteadyTurn.thrown
    exact hkept
  | told hon hl hr hnews hp _ ha =>
    rw [Aside.probed_event ha]
    have htime : Engine.SteadyTime row A before := hs hon hl hr hnews (by rw [hp]; rfl)
    apply SteadyTurn.said
    · show _ → _ = Engine.manualStart row A
      split
      · intro _
        exact Int.mul_ediv_cancel _ (by decide)
      · rename_i hlost
        intro hstatus
        have hlive : row.status = .live := hstatus
        cases ht : row.startsAt with
        | some t => exact (manualStart_of_live hlive ht).symm
        | none =>
          rw [manualStart_of_none ht, storedStart_withHash]
          obtain ⟨hsame, hfirst⟩ := htime.1 hlive ht
          cases hb : before with
          | none => exact ((hfirst hb).resolve_left hlost).symm
          | some v => exact (hkept hlive v hb).trans (hsame v hb).symm
    · intro v hv
      cases hstatus : row.status with
      | live =>
        apply keepsStart_ended
        · show Engine.manualStart row A = v
          cases ht : row.startsAt with
          | some t => exact (manualStart_of_live hstatus ht).trans (hkept hstatus v hv)
          | none => exact (manualStart_of_none ht).trans ((htime.1 hstatus ht).1 v hv)
        · simp
      | ended =>
        apply keepsStart_live _ rfl rfl
        show Engine.manualStart row A ≠ v
        rw [manualStart_of_ended hstatus]
        exact htime.2 hstatus v hv

omit [DecidableEq ν] in
theorem ReconcileTurn.steady {row r' : InstanceRow ν} {A : ReconcileAnswers}
    {w : List (Call ν)} (h : ReconcileTurn E url row A r' w)
    (hkept : ∀ v ∈ before, storedStart row = v) : SteadyTurn false before r' (publishes w) := by
  cases h with
  | optedOut | unanswered => exact .silent fun _ => hkept
  | alive | failing =>
    apply SteadyTurn.silent
    split
    · exact fun _ => hkept
    · exact fun _ => hkept
  | thrown => exact .thrown (fun _ => hkept) _
  | ended =>
    apply SteadyTurn.said
    · intro _
      split
      · rfl
      · rfl
    · intro v hv
      apply keepsStart_ended (hkept v hv)
      intro h
      cases h

/-- What a cycle does about the starts of one url. -/
theorem Turn.steady {c : Cycle ν} {r : Option (InstanceRow ν)} {w : List (Call ν)}
    (h : Turn E c url r (some r') w) (h0 : ∀ e ∈ c.listing url, e.1.startsAt ≠ some 0)
    (hknown : r = none → before = none)
    (hkept : ∀ row ∈ r, row.status = .live → ∀ v ∈ before, storedStart row = v)
    (hs : ∀ row ∈ r, E.SteadyRow c url row before) :
    SteadyTurn (r.any fun row => row.status = .ended) before r' (publishes w) := by
  unfold Engine.SteadyRow at hs
  cases h with
  | passed => exact .silent (hkept r' rfl)
  | @listed e he signer dTag now hup row hrow _ _ h =>
    simp only [he] at hs
    subst hrow
    have hstart := storedStart_upserted E r signer dTag now (h0 e he)
    cases r with
    | none =>
      rw [hknown rfl]
      exact h.steady hstart (fun _ => rfl) fun _ hv => absurd hv (Option.not_mem_none _)
    | some row =>
      apply h.steady hstart Bool.noConfusion
      exact hs row rfl (by rw [hup]; rfl)
  | manual hn hrow hm h =>
    subst hrow
    simp only [hn] at hs
    exact h.steady (hkept _ rfl) (hs _ rfl hm)
  | reconciled hn hrow _ hl h | both hn hrow _ hl _ _ _ h =>
    subst hrow
    have hlive := listByStatus_status hl
    rw [Option.any_some, hlive]
    exact h.steady (hkept _ rfl hlive)

/-- A cycle removes no row, and does nothing for a row that it does not store. -/
theorem Turn.gone {c : Cycle ν} {r : Option (InstanceRow ν)} {w : List (Call ν)}
    (h : Turn E c url r none w) : r = none ∧ w = [] := by
  cases h with
  | passed => exact ⟨rfl, rfl⟩

end Turn

/-- A published instance is stored, and while it is live the store has the start of the last
event published for it. -/
structure StartsKept (s : DiscoveryState ν) : Prop where
  known : ∀ url, s.table.get? url = none → lastStarts url s.history = none
  kept : ∀ url row, s.table.get? url = some row → row.status = .live →
    ∀ v ∈ lastStarts url s.history, storedStart row = v

section Run

variable [DecidableEq ν] {E : Engine} {s s' : DiscoveryState ν}

omit [DecidableEq ν] in
theorem lastStarts_append (url : JsString) (history log : List (JsString × Call ν)) :
    lastStarts url (history ++ log) =
      (startsOf (publishes (Keyed.logOf url log))).getLast?.or (lastStarts url history) := by
  unfold lastStarts startsOf
  rw [Keyed.logOf_append, publishes_append, List.filterMap_append, List.getLast?_append]

/-- A cycle's guard: no listed start is the epoch, and the starts of the stored rows are steady. -/
def SteadyCycle (E : Engine) (c : Cycle ν) (s : DiscoveryState ν) : Prop :=
  (∀ e ∈ c.live, e.1.startsAt ≠ some 0) ∧
    ∀ entry ∈ s.table.entries, E.SteadyRow c entry.1 entry.2 (lastStarts entry.1 s.history)

instance (E : Engine) (c : Cycle ν) (s : DiscoveryState ν) : Decidable (SteadyCycle E c s) :=
  inferInstanceAs (Decidable ((∀ _ ∈ _, _) ∧ ∀ _ ∈ _, _))

theorem StartsKept.turn {c : Cycle ν} (hn : (c.live.map fun e => e.1.url).Nodup)
    (h : StartsKept s) (hs : SteadyCycle E c s) {url : JsString} {r' : InstanceRow ν}
    (hrow : (E.runCycle c s).table.get? url = some r') :
    SteadyTurn (endedIn s.table url) (lastStarts url s.history) r'
      (publishes (Keyed.logOf url (E.runCycle c s).cycleLog)) := by
  have hturn := runCycle_turn E hn s url
  rw [hrow] at hturn
  rw [← publishes_contacts]
  apply hturn.steady
  · intro e he
    exact hs.1 e (Cycle.listing_mem he)
  · exact h.known url
  · exact fun row hstored => h.kept url row hstored
  · intro row hstored
    exact hs.2 (url, row) ((s.table.get?_eq_some_iff url row).mp hstored)

theorem cycle_gone {c : Cycle ν} (hn : (c.live.map fun e => e.1.url).Nodup) {url : JsString}
    (hrow : (E.runCycle c s).table.get? url = none) :
    s.table.get? url = none ∧ publishes (Keyed.logOf url (E.runCycle c s).cycleLog) = [] := by
  have hturn := runCycle_turn E hn s url
  rw [hrow] at hturn
  obtain ⟨hgone, hcalls⟩ := hturn.gone
  rw [← publishes_contacts, hcalls]
  exact ⟨hgone, rfl⟩

theorem StartsKept.startsLaw {c : Cycle ν} (hn : (c.live.map fun e => e.1.url).Nodup)
    (h : StartsKept s) (hs : SteadyCycle E c s) : StartsLaw E c s := by
  intro url
  cases hrow : (E.runCycle c s).table.get? url with
  | none =>
    rw [(cycle_gone hn hrow).2]
    exact ⟨Nat.zero_le 1, fun _ hp => absurd hp List.not_mem_nil⟩
  | some r' =>
    have hturn := h.turn hn hs hrow
    exact ⟨hturn.once, hturn.keeps⟩

theorem StartsKept.cycle {c : Cycle ν} (hn : (c.live.map fun e => e.1.url).Nodup)
    (h : StartsKept s) (hs : SteadyCycle E c s) : StartsKept (E.runCycle c s) := by
  constructor
  · intro url hrow
    obtain ⟨hgone, hsilent⟩ := cycle_gone hn hrow
    rw [E.runCycle_history, lastStarts_append, hsilent]
    exact h.known url hgone
  · intro url r' hrow hlive
    rw [E.runCycle_history, lastStarts_append]
    exact (h.turn hn hs hrow).stored hlive

omit [DecidableEq ν] in
theorem StartsKept.added (h : StartsKept s) {url : JsString} (hnew : s.table.get? url = none)
    (row : InstanceRow ν) : StartsKept { s with table := s.table.set url row } := by
  constructor
  · intro url' hgone
    apply h.known
    simp only [OrderedMap.get?_set] at hgone
    split at hgone
    · cases hgone
    · exact hgone
  · intro url' row' hrow hlive v hv
    simp only [OrderedMap.get?_set] at hrow
    split at hrow
    · rename_i heq
      subst heq
      rw [h.known _ hnew] at hv
      cases hv
    · exact h.kept url' row' hrow hlive v hv

variable [JsNumber ν]

/-- Each cycle of the run is steady. -/
def SteadyStarts (E : Engine) (s : DiscoveryState ν) : DiscoveryAction ν → Prop
  | .cycle payload live answers => SteadyCycle E (E.cycleOn payload live answers) s
  | .addManual _ _ => True

instance (E : Engine) (s : DiscoveryState ν) : ∀ a, Decidable (SteadyStarts E s a)
  | .cycle payload live answers =>
    inferInstanceAs (Decidable (SteadyCycle E (E.cycleOn payload live answers) s))
  | .addManual _ _ => inferInstanceAs (Decidable True)

/-- Each cycle of the run keeps the starts of what was published before. -/
def StartsStable (E : Engine) (as : List (DiscoveryAction ν)) : Prop :=
  ∀ as₁ payload live answers as₂ s, as = as₁ ++ .cycle payload live answers :: as₂ →
    run E.discoveryStep .init as₁ = some s → StartsLaw E (E.cycleOn payload live answers) s

theorem step_startsKept {a : DiscoveryAction ν} (h : StartsKept s) (hs : SteadyStarts E s a)
    (hstep : E.discoveryStep s a = some s') : StartsKept s' := by
  cases a with
  | cycle payload live answers =>
    obtain rfl := Option.some.inj hstep
    exact h.cycle (cycleOn_nodup E payload live answers) hs
  | addManual url row =>
    simp only [Engine.discoveryStep] at hstep
    split at hstep
    · cases hstep
    · rename_i hhas
      obtain rfl := Option.some.inj hstep
      apply h.added
      rw [OrderedMap.get?_eq_none_iff, ← OrderedMap.has_iff]
      exact hhas

omit [DecidableEq ν] [JsNumber ν] in
theorem init_startsKept : StartsKept (DiscoveryState.init : DiscoveryState ν) :=
  ⟨fun _ _ => rfl, fun _ _ h => absurd h (Option.some_ne_none _).symm⟩

/-- In every run whose cycles are steady, consecutive live events of an instance have the same
start, unless its row came back to life between them. -/
theorem steadyStarts_startsStable (E : Engine) (as : List (DiscoveryAction ν))
    (hg : Guarded E.discoveryStep (SteadyStarts E) .init as) : StartsStable E as := by
  intro as₁ payload live answers as₂ s has hs
  have hsteady := guarded_iff.mp hg as₁ _ as₂ s has hs
  subst has
  have hkept := run_invariant (fun _ _ _ => step_startsKept) init_startsKept hg.append_left hs
  exact hkept.startsLaw (cycleOn_nodup E payload live answers) hsteady

end Run

/-- A runtime that can read one date. -/
def datedEngine : Engine :=
  { demoEngine with
    runtime :=
      { demoRuntime with
        parseDate := fun s =>
          if s = js "2026-08-10T06:00:00Z" then some 1786341600000 else none } }

/-- The stream is listed with what the directory knows of its start, and is published. -/
def datedCycle (since : String) (now : Int) : DiscoveryAction Int :=
  .cycle (some (.obj [(js "sections", .arr [.obj [(js "online", .bool true),
      (js "instances", .arr [.obj [(js "url", .str (js "https://a.example")),
        (js "streamingSince", .str (js since))]])]])]))
    (fun url => { demoLive url with upsert := some now, dueAt := now, publishedAt := now })
    demoAnswers

theorem steadyStarts_startsStable_dated :
    StartsStable datedEngine [datedCycle "2026-08-10T06:00:00Z" 1786342500000,
      datedCycle "2026-08-10T06:00:00Z" 1786343400000] :=
  steadyStarts_startsStable datedEngine _ (by decide +kernel)

/-- When the directory does not report a start any more, the event takes another one. -/
theorem startsStable_fails_undated :
    ¬StartsStable datedEngine [datedCycle "2026-08-10T06:00:00Z" 1786342500000,
      datedCycle "" 1786343400000] := by
  intro h
  let url := js "https://a.example"
  let first := datedCycle "2026-08-10T06:00:00Z" 1786342500000
  have hrun : (run datedEngine.discoveryStep .init [first]).map (fun s =>
      (endedIn s.table url, lastStarts url s.history,
        (datedEngine.discoveryStep s (datedCycle "" 1786343400000)).map fun s' =>
          (publishes (Keyed.logOf url s'.cycleLog)).map fun p =>
            (p.1.startsTimestamp, p.2.isSome))) =
      some (false, some 1786341600, some [(1786342500, true)]) := by
    decide +kernel
  obtain ⟨s, hs, hp⟩ := Option.map_eq_some_iff.mp hrun
  obtain ⟨hended, hp⟩ := Prod.mk.inj hp
  obtain ⟨hbefore, hp⟩ := Prod.mk.inj hp
  obtain ⟨s', hs', hevents⟩ := Option.map_eq_some_iff.mp hp
  obtain rfl := Option.some.inj hs'
  obtain ⟨p, hmem, hpair⟩ := List.mem_map.mp (hevents ▸ List.mem_singleton_self _)
  obtain ⟨hstart, hsome⟩ := Prod.mk.inj hpair
  have hkeeps := (h [first] _ _ _ [] s rfl hs url).2 p hmem hsome _ hbefore
  rw [hended] at hkeeps
  have hsame : p.1.startsTimestamp = 1786341600 := hkeeps
  rw [hstart] at hsame
  cases hsame

end LivelierBridge.Discovery
