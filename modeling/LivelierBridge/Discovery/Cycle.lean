import LivelierBridge.Discovery.Engine

namespace LivelierBridge.Discovery

open Framework Js

variable {ν : Type}

/-- The table and the urls found live so far, while a cycle runs. -/
structure Work (ν : Type) where
  table : InstanceTable ν
  liveUrls : JsString → Bool

namespace Work

def slot (w : Work ν) (url : JsString) : Slot ν := ⟨w.table.get? url, w.liveUrls url⟩

def put (w : Work ν) (url : JsString) (t : Slot ν) : Work ν where
  table :=
    match t.row with
    | none => w.table.delete url
    | some row => w.table.set url row
  liveUrls := Function.update w.liveUrls url t.inLiveUrls

def erase (w : Work ν) (url : JsString) : Work ν :=
  ⟨w.table.delete url, Function.update w.liveUrls url false⟩

theorem slot_put_self (w : Work ν) (url : JsString) (t : Slot ν) : (w.put url t).slot url = t := by
  obtain ⟨row, flag⟩ := t
  cases row with
  | none => simp [slot, put, OrderedMap.get?_delete]
  | some row => simp [slot, put]

theorem slot_put_of_ne (w : Work ν) {url url' : JsString} (t : Slot ν) (h : url' ≠ url) :
    (w.put url t).slot url' = w.slot url' := by
  obtain ⟨row, flag⟩ := t
  cases row with
  | none => simp [slot, put, OrderedMap.get?_delete, h]
  | some row => simp [slot, put, OrderedMap.get?_set_of_ne _ h, h]

theorem slot_erase_of_ne (w : Work ν) {url u : JsString} (h : url ≠ u) :
    (w.erase u).slot url = w.slot url := by
  simp [slot, erase, OrderedMap.get?_delete, h]

theorem erase_put_self (w : Work ν) (u : JsString) (t : Slot ν) :
    (w.put u t).erase u = w.erase u := by
  obtain ⟨row, flag⟩ := t
  cases row with
  | none => simp [erase, put, OrderedMap.delete_delete_self]
  | some row => simp [erase, put, OrderedMap.delete_set_self]

theorem erase_put_of_ne (w : Work ν) {url u : JsString} (t : Slot ν) (h : url ≠ u) :
    (w.put url t).erase u = (w.erase u).put url t := by
  obtain ⟨row, flag⟩ := t
  have hflags := Function.update_comm h flag false w.liveUrls
  cases row with
  | none => simp [erase, put, OrderedMap.delete_comm, hflags]
  | some row => simp [erase, put, OrderedMap.delete_set_of_ne _ h, hflags]

instance : Keyed (Work ν) JsString (Slot ν) where
  slot := slot
  put := put
  erase := erase
  slot_put_self := slot_put_self
  slot_put_of_ne := fun w _ _ t h => slot_put_of_ne w t h
  slot_erase_of_ne := fun w _ _ h => slot_erase_of_ne w h
  erase_put_self := erase_put_self
  erase_put_of_ne := fun w _ _ t h => erase_put_of_ne w t h

end Work

/-- What the adapter's live-set fetch gives: each live stream with the answers met while it is
processed, the raw source objects and the schema fingerprint. -/
structure Fetched (ν : Type) where
  live : List (DiscoveredLive ν × LiveAnswers ν)
  raw : List (Json ν)
  schemaVersion : JsString

/-- What the outside answers in one cycle behind the live-set fetch; an absent answer is a
throw. The two row queries answer in an order of their own. -/
structure CycleAnswers (ν : Type) where
  listManual : Option (JsString → Nat)
  manual : JsString → ManualAnswers ν
  listByStatus : Option (JsString → Nat)
  reconcile : JsString → ReconcileAnswers
  snapshotDueAt : Int
  insertLiveSnapshot : Bool
  snapshotAt : Int

/-- Everything the outside answers in one cycle. -/
structure Cycle (ν : Type) extends CycleAnswers ν where
  fetchLive : Option (Fetched ν)

/-- The listed streams of a cycle; none when the fetch throws. -/
def Cycle.live (c : Cycle ν) : List (DiscoveredLive ν × LiveAnswers ν) :=
  match c.fetchLive with
  | none => []
  | some fetched => fetched.live

structure LiveSnapshot (ν : Type) where
  source : JsString
  raw : List (Json ν)
  directoryLiveCount : Nat
  bridgedLiveCount : Nat
  hlsLive : Nat
  hlsEnded : Nat
  hlsError : Nat
  schemaVersion : JsString

/-- The engine between two cycles: the stored rows, the snapshots, the calls of all cycles so
far and those of the last one. -/
structure DiscoveryState (ν : Type) where
  table : InstanceTable ν
  snapshots : List (LiveSnapshot ν)
  lastSnapshotAt : Option Int
  history : List (JsString × Call ν)
  cycleLog : List (JsString × Call ν)

def metricOf (metric : Metric) (log : List (JsString × Call ν)) : Nat :=
  log.countP fun e =>
    match e.2 with
    | .count m => m = metric
    | _ => false

namespace Engine

variable (E : Engine) [DecidableEq ν]

abbrev CycleM (ν : Type) := Faulty (Work ν) (JsString × Call ν)

/-- Process a listed instance. -/
def liveJob (e : DiscoveredLive ν × LiveAnswers ν) : JsString × Local ν Unit :=
  (e.1.url, do addLiveUrl; E.processLive e.1 e.2)

/-- Run a job for each row that a query lists. -/
def forRows (answer : Option (JsString → Nat)) (p : InstanceRow ν → Bool)
    (job : JsString × InstanceRow ν → Local ν Unit) : CycleM ν Unit := do
  let order ← Faulty.await answer
  let work ← Faulty.get
  Keyed.runJobs ((work.table.select order p).map fun e => (e.1, job e))

def processManualRows (c : Cycle ν) : CycleM ν Unit :=
  forRows c.listManual (listManual E.sourceKey) fun e =>
    E.processManualRow e.1 e.2 (c.manual e.1)

def reconcileDisappeared (c : Cycle ν) : CycleM ν Unit :=
  forRows c.listByStatus (listByStatus .live E.sourceKey) fun e =>
    E.reconcileRow e.1 e.2 (c.reconcile e.1)

/-- The three passes of a cycle. -/
def passes (c : Cycle ν) (live : List (DiscoveredLive ν × LiveAnswers ν)) : CycleM ν Unit := do
  Keyed.runJobs (live.map E.liveJob)
  E.processManualRows c
  E.reconcileDisappeared c

def snapshotDue (s : DiscoveryState ν) (now : Int) : Bool :=
  match s.lastSnapshotAt with
  | none => true
  | some t => E.snapshotIntervalMs ≤ now - t

/-- The observation snapshot at the end of a cycle. -/
def takeSnapshot (c : Cycle ν) (fetched : Fetched ν) (s : DiscoveryState ν) : DiscoveryState ν :=
  if E.snapshotDue s c.snapshotDueAt && c.insertLiveSnapshot then
    { s with
      snapshots := s.snapshots ++ [{
        source := E.sourceKey
        raw := fetched.raw
        directoryLiveCount := fetched.live.length
        bridgedLiveCount := fetched.live.length
        hlsLive := metricOf .hlsLive s.cycleLog
        hlsEnded := metricOf .hlsEnded s.cycleLog
        hlsError := metricOf .hlsError s.cycleLog
        schemaVersion := fetched.schemaVersion }]
      lastSnapshotAt := some c.snapshotAt }
  else s

/-- One full poll cycle; a throw ends it, and the poll loop goes on with the next one. -/
def runCycle (c : Cycle ν) (s : DiscoveryState ν) : DiscoveryState ν :=
  match c.fetchLive with
  | none => { s with cycleLog := [] }
  | some fetched =>
    let o := E.passes c fetched.live ⟨s.table, fun _ => false⟩
    let s' : DiscoveryState ν :=
      { s with table := o.state.table, history := s.history ++ o.log, cycleLog := o.log }
    match o.value with
    | none => s'
    | some () => E.takeSnapshot c fetched s'

omit [DecidableEq ν] in
theorem takeSnapshot_keeps (c : Cycle ν) (fetched : Fetched ν) (s : DiscoveryState ν) :
    (E.takeSnapshot c fetched s).table = s.table ∧ (E.takeSnapshot c fetched s).history = s.history ∧
      (E.takeSnapshot c fetched s).cycleLog = s.cycleLog := by
  unfold takeSnapshot
  split
  · exact ⟨rfl, rfl, rfl⟩
  · exact ⟨rfl, rfl, rfl⟩

/-- A cycle whose fetch fails does nothing, any other does what its passes do. -/
theorem runCycle_cases (c : Cycle ν) (s : DiscoveryState ν) :
    (c.fetchLive = none ∧ E.runCycle c s = { s with cycleLog := [] }) ∨
      ∃ fetched, c.fetchLive = some fetched ∧
        let o := E.passes c fetched.live ⟨s.table, fun _ => false⟩
        (E.runCycle c s).table = o.state.table ∧ (E.runCycle c s).history = s.history ++ o.log ∧
          (E.runCycle c s).cycleLog = o.log := by
  cases hf : c.fetchLive with
  | none => exact .inl ⟨rfl, by simp [runCycle, hf]⟩
  | some fetched =>
    refine .inr ⟨fetched, rfl, ?_⟩
    simp only [runCycle, hf]
    split
    · exact ⟨rfl, rfl, rfl⟩
    · exact E.takeSnapshot_keeps c fetched _

/-- The calls of a cycle are appended to the history. -/
theorem runCycle_history (c : Cycle ν) (s : DiscoveryState ν) :
    (E.runCycle c s).history = s.history ++ (E.runCycle c s).cycleLog := by
  rcases E.runCycle_cases c s with ⟨-, hrun⟩ | ⟨fetched, -, -, hhistory, hlog⟩
  · rw [hrun, List.append_nil]
  · rw [hhistory, hlog]

end Engine

end LivelierBridge.Discovery
