import LivelierBridge.Framework.Isolation
import LivelierBridge.Discovery.Coordinates

namespace LivelierBridge.Discovery

open Framework Js

variable {ν : Type}

/-- The same cycle with one instance not listed. -/
def Cycle.without (c : Cycle ν) (u : JsString) : Cycle ν :=
  { c with
    fetchLive := c.fetchLive.map fun fetched =>
      { fetched with live := fetched.live.filter fun e => e.1.url ≠ u } }

/-- The same state with one instance not stored. -/
def DiscoveryState.without (s : DiscoveryState ν) (u : JsString) : DiscoveryState ν :=
  { s with table := s.table.delete u }

/-- Two cycles meet the same listings, answers and stored row of one instance. -/
structure SameInputs (u : JsString) (c : Cycle ν) (s : DiscoveryState ν) (c' : Cycle ν)
    (s' : DiscoveryState ν) : Prop where
  live : (c'.live.filter fun e => e.1.url = u) = c.live.filter fun e => e.1.url = u
  manual : c'.manual u = c.manual u
  reconcile : c'.reconcile u = c.reconcile u
  row : s'.table.get? u = s.table.get? u

/-- The part of a pass over stored rows that concerns one of them. -/
def soloRow (u : JsString) (p : InstanceRow ν → Bool)
    (job : JsString × InstanceRow ν → Local ν Unit) : Local ν Unit := do
  let slot ← Faulty.get
  match slot.row with
  | none => pure ()
  | some row => if p row then job (u, row) else pure ()

section Select

variable (table : InstanceTable ν) (order : JsString → Nat) (p : InstanceRow ν → Bool)

theorem select_delete (u : JsString) :
    InstanceTable.select (table.delete u) order p =
      (table.select order p).filter fun e => e.1 ≠ u := by
  unfold InstanceTable.select
  have hcomm : (table.delete u).entries.filter (fun e => p e.2) =
      (table.entries.filter fun e => p e.2).filter fun e => e.1 ≠ u := by
    simp [OrderedMap.delete, OrderedMap.filter, Bool.and_comm]
  rw [hcomm, filter_insertionSort]

/-- The rows that a query lists of one url. -/
theorem select_key (u : JsString) :
    (table.select order p).filter (fun e => e.1 = u) =
      ((table.get? u).filter p).toList.map (Prod.mk u) := by
  have hcomm : (table.entries.filter fun e => p e.2).filter (fun e => e.1 = u) =
      (table.entries.filter fun e => e.1 = u).filter fun e => p e.2 := by
    simp [Bool.and_comm]
  unfold InstanceTable.select
  rw [filter_insertionSort, hcomm, OrderedMap.filter_key]
  cases h : table.get? u with
  | none => rfl
  | some row => cases hp : p row <;> simp [Option.filter, hp]

/-- What a pass does to one row is what its own job does. -/
theorem jobsOf_select (w : Work ν) (job : JsString × InstanceRow ν → Local ν Unit) (u : JsString) :
    Keyed.jobsOf u ((w.table.select order p).map fun e => (e.1, job e)) (Keyed.slot w u) =
      soloRow u p job (Keyed.slot w u) := by
  have hkey : ((w.table.select order p).map fun e => (e.1, job e)).filter (fun j => j.1 = u) =
      ((w.table.select order p).filter fun e => e.1 = u).map fun e => (e.1, job e) := by
    rw [List.filter_map]
    rfl
  unfold Keyed.jobsOf soloRow
  rw [hkey, select_key]
  have hslot : (Keyed.slot w u : Slot ν) = ⟨w.table.get? u, w.liveUrls u⟩ := rfl
  rw [hslot]
  cases h : w.table.get? u with
  | none => rfl
  | some row =>
    cases hp : p row with
    | false => simp [Option.filter, hp, Faulty.forEach]
    | true => simp [Option.filter, hp, Faulty.forEach_singleton]

end Select

/-- A pass over stored rows splits into the job of one row and those of the others. -/
theorem forRows_splitsOff (answer : Option (JsString → Nat)) (p : InstanceRow ν → Bool)
    (job : JsString × InstanceRow ν → Local ν Unit) (u : JsString) :
    Keyed.SplitsOff u (Engine.forRows answer p job) (Engine.forRows answer p job)
      (soloRow u p job) := by
  cases answer with
  | none =>
    refine ⟨fun _ h => ?_, fun _ _ => rfl⟩
    cases h
  | some order =>
    refine ⟨fun w h => ?_, fun w h => ?_⟩
    · have hjobs := (Keyed.runJobs_splitsOff u _).returns w h
      rw [← jobsOf_select]
      exact hjobs
    · have hrows : ((w.erase u).table.select order p).map (fun e => (e.1, job e)) =
          Keyed.jobsBut u ((w.table.select order p).map fun e => (e.1, job e)) := by
        unfold Keyed.jobsBut
        rw [List.filter_map, Work.erase, select_delete]
        rfl
      rw [← jobsOf_select order] at h
      have hrun := (Keyed.runJobs_splitsOff u _).erases w h
      rw [← hrows] at hrun
      exact hrun

theorem erase_start (table : InstanceTable ν) (u : JsString) :
    Work.erase ⟨table, fun _ => false⟩ u = ⟨table.delete u, fun _ => false⟩ := by
  simp [Work.erase]

namespace Engine

variable [DecidableEq ν] (E : Engine)

/-- All that a cycle does for one instance, on its own slot. -/
def solo (c : Cycle ν) (u : JsString) : Local ν Unit := do
  Keyed.jobsOf u (c.live.map E.liveJob)
  soloRow u (listManual E.sourceKey) fun e => E.processManualRow e.1 e.2 (c.manual e.1)
  soloRow u (listByStatus .live E.sourceKey) fun e => E.reconcileRow e.1 e.2 (c.reconcile e.1)

/-- No call that the cycle makes for the instance throws. -/
def Answers (c : Cycle ν) (s : DiscoveryState ν) (u : JsString) : Prop :=
  (E.solo c u ⟨s.table.get? u, false⟩).value = some ()

/-- The cycle does to the other rows, and calls for the other instances, what it would if the
instance were absent, and it takes a snapshot when it would. -/
def Isolated (c : Cycle ν) (s : DiscoveryState ν) (u : JsString) : Prop :=
  let t := E.runCycle c s
  let t' := E.runCycle (c.without u) (s.without u)
  t.table.delete u = t'.table ∧ (t.cycleLog.filter fun e => e.1 ≠ u) = t'.cycleLog ∧
    t.snapshots.length = t'.snapshots.length ∧ t.lastSnapshotAt = t'.lastSnapshotAt

variable {E}

/-- The passes split into what they do for one instance and what they do for the others. -/
theorem passes_splitsOff (c : Cycle ν) (live : List (DiscoveredLive ν × LiveAnswers ν))
    (u : JsString) :
    Keyed.SplitsOff u (E.passes c live) (E.passes c (live.filter fun e => e.1.url ≠ u))
      (do
        Keyed.jobsOf u (live.map E.liveJob)
        soloRow u (listManual E.sourceKey) fun e => E.processManualRow e.1 e.2 (c.manual e.1)
        soloRow u (listByStatus .live E.sourceKey) fun e =>
          E.reconcileRow e.1 e.2 (c.reconcile e.1)) := by
  have hjobs : (live.filter fun e => e.1.url ≠ u).map E.liveJob =
      Keyed.jobsBut u (live.map E.liveJob) := by
    unfold Keyed.jobsBut
    rw [List.filter_map]
    rfl
  unfold passes
  rw [hjobs]
  exact (Keyed.runJobs_splitsOff u _).bind
    ((forRows_splitsOff _ _ _ u).bind (forRows_splitsOff _ _ _ u))

/-- A snapshot is taken at the end of a cycle in which nothing throws, when it is due and the
store takes it. -/
def snapshotTaken (E : Engine) (c : Cycle ν) (s : DiscoveryState ν) : Bool :=
  match c.fetchLive with
  | none => false
  | some fetched =>
    (E.passes c fetched.live ⟨s.table, fun _ => false⟩).value.isSome &&
      (E.snapshotDue s c.snapshotDueAt && c.insertLiveSnapshot)

theorem runCycle_snapshots (c : Cycle ν) (s : DiscoveryState ν) :
    (E.runCycle c s).snapshots.length =
        (if E.snapshotTaken c s then s.snapshots.length + 1 else s.snapshots.length) ∧
      (E.runCycle c s).lastSnapshotAt =
        if E.snapshotTaken c s then some c.snapshotAt else s.lastSnapshotAt := by
  cases hf : c.fetchLive with
  | none => simp [runCycle, snapshotTaken, hf]
  | some fetched =>
    cases hv : (E.passes c fetched.live ⟨s.table, fun _ => false⟩).value with
    | none => simp [runCycle, snapshotTaken, hf, hv]
    | some _ =>
      have hdue (table : InstanceTable ν) (history log : List (JsString × Call ν)) :
          E.snapshotDue ⟨table, s.snapshots, s.lastSnapshotAt, history, log⟩ c.snapshotDueAt =
            E.snapshotDue s c.snapshotDueAt := rfl
      simp only [runCycle, snapshotTaken, takeSnapshot, hf, hv, hdue, Option.isSome_some,
        Bool.true_and]
      split
      · simp
      · exact ⟨rfl, rfl⟩

theorem runCycle_of_fetched {c : Cycle ν} {s : DiscoveryState ν} {fetched : Fetched ν}
    (hf : c.fetchLive = some fetched) :
    (E.runCycle c s).table = (E.passes c fetched.live ⟨s.table, fun _ => false⟩).state.table ∧
      (E.runCycle c s).cycleLog = (E.passes c fetched.live ⟨s.table, fun _ => false⟩).log := by
  rcases E.runCycle_cases c s with ⟨hn, -⟩ | ⟨fetched', hf', htable, -, hlog⟩
  · rw [hf] at hn
    cases hn
  · obtain rfl : fetched = fetched' := Option.some.inj (hf.symm.trans hf')
    exact ⟨htable, hlog⟩

/-- The cycle splits into what it does for one instance and the cycle without it. -/
theorem solo_splitsOff {c : Cycle ν} {fetched : Fetched ν} (hf : c.fetchLive = some fetched)
    (u : JsString) :
    Keyed.SplitsOff u (E.passes c fetched.live)
      (E.passes (c.without u) (fetched.live.filter fun e => e.1.url ≠ u)) (E.solo c u) := by
  have hlive : c.live = fetched.live := by simp [Cycle.live, hf]
  unfold solo
  rw [hlive]
  exact passes_splitsOff c fetched.live u

theorem isolated_of_answers {c : Cycle ν} {s : DiscoveryState ν} {u : JsString}
    (h : E.Answers c s u) : E.Isolated c s u := by
  cases hf : c.fetchLive with
  | none =>
    have hf' : (c.without u).fetchLive = none := by simp [Cycle.without, hf]
    simp [Isolated, runCycle, hf, hf', DiscoveryState.without]
  | some fetched =>
    let fetched' : Fetched ν := { fetched with live := fetched.live.filter fun e => e.1.url ≠ u }
    have hf' : (c.without u).fetchLive = some fetched' := by simp [Cycle.without, hf, fetched']
    have hrun := (solo_splitsOff (E := E) hf u).erases ⟨s.table, fun _ => false⟩ h
    have hstart : Keyed.erase (⟨s.table, fun _ => false⟩ : Work ν) u =
        ⟨(s.without u).table, fun _ => false⟩ := erase_start s.table u
    rw [hstart] at hrun
    have htaken : E.snapshotTaken c s = E.snapshotTaken (c.without u) (s.without u) := by
      simp only [snapshotTaken, hf, hf']
      rw [hrun]
      rfl
    obtain ⟨hlen, hlast⟩ := E.runCycle_snapshots c s
    obtain ⟨hlen', hlast'⟩ := E.runCycle_snapshots (c.without u) (s.without u)
    obtain ⟨htable, hlog⟩ := runCycle_of_fetched (E := E) (s := s) hf
    obtain ⟨htable', hlog'⟩ := runCycle_of_fetched (E := E) (s := s.without u) hf'
    refine ⟨?_, ?_, ?_, ?_⟩
    · rw [htable, htable', hrun]
      rfl
    · rw [hlog, hlog', hrun]
      rfl
    · rw [hlen, hlen', htaken]
      rfl
    · rw [hlast, hlast', htaken]
      rfl

theorem answers_of_snapshot {c : Cycle ν} {s : DiscoveryState ν} {u : JsString}
    (h : E.snapshotTaken c s = true) : E.Answers c s u := by
  cases hf : c.fetchLive with
  | none => simp [snapshotTaken, hf] at h
  | some fetched =>
    simp only [snapshotTaken, hf, Bool.and_eq_true] at h
    have hreturns : (E.passes c fetched.live ⟨s.table, fun _ => false⟩).value = some () := by
      obtain ⟨_, hv⟩ := Option.isSome_iff_exists.mp h.1
      exact hv
    exact ((solo_splitsOff hf u).returns _ hreturns).1

theorem snapshot_lt_iff {c : Cycle ν} {s : DiscoveryState ν} :
    s.snapshots.length < (E.runCycle c s).snapshots.length ↔ E.snapshotTaken c s = true := by
  rw [(E.runCycle_snapshots c s).1]
  split <;> simp_all

theorem answers_of_isolated {c : Cycle ν} {s : DiscoveryState ν} {u : JsString}
    (hdue : s.snapshots.length < (E.runCycle (c.without u) (s.without u)).snapshots.length)
    (h : E.Isolated c s u) : E.Answers c s u :=
  answers_of_snapshot (snapshot_lt_iff.mp (h.2.2.1 ▸ hdue))

theorem answers_congr {c c' : Cycle ν} {s s' : DiscoveryState ν} {u : JsString}
    (h : SameInputs u c s c' s') : E.Answers c' s' u ↔ E.Answers c s u := by
  have hjobs : Keyed.jobsOf u (c'.live.map E.liveJob) = Keyed.jobsOf u (c.live.map E.liveJob) := by
    unfold Keyed.jobsOf
    rw [List.filter_map, List.filter_map]
    exact congrArg (fun l => Faulty.forEach id ((l.map E.liveJob).map Prod.snd)) h.live
  simp only [Answers, solo, soloRow, hjobs, h.manual, h.reconcile, h.row]

end Engine

/-- A cycle with one instance alone, in which a snapshot is due. -/
def Cycle.only (c : Cycle ν) (u : JsString) : Cycle ν where
  fetchLive := some ⟨c.live.filter fun e => e.1.url = u, [], []⟩
  listManual := some fun _ => 0
  manual := c.manual
  listByStatus := some fun _ => 0
  reconcile := c.reconcile
  snapshotDueAt := 0
  insertLiveSnapshot := true
  snapshotAt := 0

def DiscoveryState.only (s : DiscoveryState ν) (u : JsString) : DiscoveryState ν :=
  { (DiscoveryState.init : DiscoveryState ν) with
    table :=
      match s.table.get? u with
      | none => OrderedMap.empty
      | some row => OrderedMap.empty.set u row }

theorem sameInputs_only (c : Cycle ν) (s : DiscoveryState ν) (u : JsString) :
    SameInputs u c s (c.only u) (s.only u) where
  live := by simp [Cycle.only, Cycle.live, List.filter_filter]
  manual := rfl
  reconcile := rfl
  row := by cases h : s.table.get? u <;> simp [DiscoveryState.only, h]

theorem only_takes_snapshot [DecidableEq ν] (E : Engine) (c : Cycle ν) (s : DiscoveryState ν)
    (u : JsString) :
    (s.only u).snapshots.length <
      (E.runCycle ((c.only u).without u) ((s.only u).without u)).snapshots.length := by
  have htable : ((s.only u).without u).table = OrderedMap.empty := by
    cases h : s.table.get? u with
    | none =>
      simp only [DiscoveryState.only, DiscoveryState.without, h]
      rfl
    | some row =>
      simp only [DiscoveryState.only, DiscoveryState.without, h, OrderedMap.delete_set_self]
      rfl
  have hlive : ((c.only u).without u).fetchLive = some ⟨[], [], []⟩ := by
    simp [Cycle.only, Cycle.without]
  have hvalue : (E.passes ((c.only u).without u) [] ⟨OrderedMap.empty, fun _ => false⟩).value =
      some () := rfl
  have htaken : E.snapshotTaken ((c.only u).without u) ((s.only u).without u) = true := by
    simp only [Engine.snapshotTaken, hlive, htable, hvalue]
    rfl
  exact (Engine.snapshot_lt_iff (s := (s.only u).without u)).mpr htaken

/-- An instance is isolated from the others in every cycle that meets its inputs if and only if no
call for it throws; and so in each single cycle that would take a snapshot without it. -/
theorem isolated_iff_answers [DecidableEq ν] (E : Engine) (c : Cycle ν) (s : DiscoveryState ν)
    (u : JsString) :
    ((∀ c' s', SameInputs u c s c' s' → E.Isolated c' s' u) ↔ E.Answers c s u) ∧
      (s.snapshots.length < (E.runCycle (c.without u) (s.without u)).snapshots.length →
        (E.Isolated c s u ↔ E.Answers c s u)) := by
  refine ⟨⟨fun h => ?_, fun h c' s' hsame => ?_⟩, fun hdue => ⟨fun h => ?_, fun h => ?_⟩⟩
  · -- the cycle with this instance alone already shows a throw
    have halone := h _ _ (sameInputs_only c s u)
    have hanswers := Engine.answers_of_isolated (only_takes_snapshot E c s u) halone
    exact (Engine.answers_congr (sameInputs_only c s u)).mp hanswers
  · exact Engine.isolated_of_answers ((Engine.answers_congr hsame).mpr h)
  · exact Engine.answers_of_isolated hdue h
  · exact Engine.isolated_of_answers h

/-- The demo engine with a second host. -/
def twoHostsEngine : Engine :=
  { demoEngine with
    runtime :=
      { demoRuntime with
        parseUrl := fun s =>
          if s = js "https://b.example" then some ⟨js "https:", js "b.example", js "/"⟩
          else demoRuntime.parseUrl s
        sha256Hex := fun s =>
          if s = js "https://b.example" then
            js "35b22c6cbc7988f80d8ed1be0ec1bf8dea41c1b5e35c750530e44f02244751f1"
          else demoRuntime.sha256Hex s } }

def demoStream (url : String) : DiscoveredLive Int :=
  ⟨js url, [], [], [], [], [], false, none, js (url ++ "/hls/stream.m3u8"), []⟩

/-- The first of two listed instances reports a viewer count that is too large for its column. -/
def rejectedCycle : Cycle Int :=
  { demoAnswers with
    fetchLive := some ⟨[
      (demoStream "https://a.example",
        ⟨some 0, some .live, ⟨accepted, accepted, true⟩, some (some (some 2147483648)), 0, accepted,
          0, false⟩),
      (demoStream "https://b.example", demoLive (js "https://b.example"))], [], []⟩ }

/-- The rejected update ends the cycle: the second instance is not processed, and the snapshot
that is due is not taken. -/
theorem isolated_fails_rejected_viewers :
    ¬ (¬ twoHostsEngine.Answers rejectedCycle .init (js "https://a.example") →
      twoHostsEngine.Isolated rejectedCycle .init (js "https://a.example")) := by
  intro h
  have hthrows : ¬ twoHostsEngine.Answers rejectedCycle .init (js "https://a.example") := by
    unfold Engine.Answers
    decide +kernel
  have hsnapshots := (h hthrows).2.2.1
  exact absurd hsnapshots (by decide +kernel)

end LivelierBridge.Discovery
