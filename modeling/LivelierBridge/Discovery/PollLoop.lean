import LivelierBridge.Discovery.Cycle
import LivelierBridge.Framework.Run
import Mathlib.Data.List.Chain

namespace LivelierBridge.Discovery

open Framework Js

variable {ν : Type}

/-- Where a call of `start` waits. -/
inductive StartPhase where
  | init
  | latestSnapshotAt
  | answered (latest : Option Int)

/-- Where a call of `runCycle` waits: in its passes, or for the INSERT of the snapshot, which takes
effect before it is answered. -/
inductive CyclePhase (ν : Type) where
  | polling
  | inserting (fetched : Fetched ν)
  | inserted (fetched : Fetched ν)

/-- A record of the run that the service does not read. -/
inductive LoopRecord where
  | began (at' : Int)
  | ended (at' : Int)

/-- The discovery service of one process, with the table of snapshots and the clock. -/
structure PollLoop (ν : Type) where
  now : Int
  /-- `captured_at` of the source's rows of `live_snapshots` -/
  captured : List Int
  disc : DiscoveryState ν
  /-- The calls of `start` that have not returned. -/
  starts : List StartPhase
  stopped : Bool
  running : Bool
  /-- The timers that have not fired, with their due times. -/
  timers : List (Nat × Int)
  timer : Option Nat
  nextTimer : Nat
  /-- The calls of `runCycle` that have not returned. -/
  cycles : List (CyclePhase ν)
  /-- How often `start` has been called, a record that nothing reads. -/
  startCalls : Nat
  log : List LoopRecord

inductive LoopAction (ν : Type) where
  | start
  /-- `store.init()` has returned. -/
  | initialised (i : Nat)
  | latestRead (i : Nat)
  | latestAnswered (i : Nat)
  | fire (id : Nat)
  /-- The passes of a cycle have met these answers. -/
  | polled (i : Nat) (c : Cycle ν)
  | insertEffect (i : Nat)
  | insertAnswered (i : Nat)
  /-- The INSERT throws and has inserted nothing. -/
  | insertRefused (i : Nat)
  /-- The INSERT throws though its row is stored. -/
  | insertLost (i : Nat)
  | stop
  /-- The process ends at any moment and a new one takes its place. -/
  | restart
  | wait (ms : Nat)

namespace PollLoop

/-- A new service over what is stored. -/
def fresh (now : Int) (captured : List Int) (disc : DiscoveryState ν) : PollLoop ν where
  now := now
  captured := captured
  disc := { disc with lastSnapshotAt := none }
  starts := []
  stopped := false
  running := false
  timers := []
  timer := none
  nextTimer := 0
  cycles := []
  startCalls := 0
  log := []

variable (s : PollLoop ν)

def scheduleNext (delayMs : Int) : PollLoop ν :=
  if s.stopped then s
  else
    { s with
      timers := s.timers ++ [(s.nextTimer, s.now + delayMs)]
      timer := some s.nextTimer
      nextTimer := s.nextTimer + 1 }

def clearTimeout (id : Nat) : PollLoop ν :=
  { s with timers := s.timers.filter fun e => e.1 ≠ id }

def stop : PollLoop ν :=
  match s.timer with
  | none => { s with stopped := true }
  | some id => { s.clearTimeout id with stopped := true, timer := none }

/-- The part of `tick` up to its first await. -/
def tick (pollIntervalMs : Int) : PollLoop ν :=
  if s.running then s.scheduleNext pollIntervalMs
  else
    { s with
      running := true, cycles := s.cycles ++ [.polling], log := s.log ++ [.began s.now] }

/-- The `finally` of `tick`. -/
def endCycle (pollIntervalMs : Int) (i : Nat) : PollLoop ν :=
  scheduleNext
    { s with
      running := false, cycles := s.cycles.eraseIdx i, log := s.log ++ [.ended s.now] }
    pollIntervalMs

def setDisc (disc : DiscoveryState ν) : PollLoop ν := { s with disc := disc }

def setCycle (i : Nat) (phase : CyclePhase ν) : PollLoop ν :=
  { s with cycles := s.cycles.set i phase }

/-- The end of `start`, behind its awaits. -/
def started (i : Nat) (latest : Option Int) : PollLoop ν :=
  scheduleNext
    { s with starts := s.starts.eraseIdx i, disc := { s.disc with lastSnapshotAt := latest } } 0

end PollLoop

namespace Engine

variable (E : Engine) [DecidableEq ν]

/-- What the passes of a cycle leave, and whether they came to their end. -/
def polledDisc (c : Cycle ν) (fetched : Fetched ν) (d : DiscoveryState ν) :
    DiscoveryState ν × Bool :=
  let o := E.passes c fetched.live ⟨d.table, fun _ => false⟩
  ({ d with table := o.state.table, history := d.history ++ o.log, cycleLog := o.log },
    o.value.isSome)

/-- The row that `insertLiveSnapshot` stores. -/
def liveSnapshot (fetched : Fetched ν) (d : DiscoveryState ν) : LiveSnapshot ν where
  source := E.sourceKey
  raw := fetched.raw
  directoryLiveCount := fetched.live.length
  bridgedLiveCount := fetched.live.length
  hlsLive := metricOf .hlsLive d.cycleLog
  hlsEnded := metricOf .hlsEnded d.cycleLog
  hlsError := metricOf .hlsError d.cycleLog
  schemaVersion := fetched.schemaVersion

/-- The passes of the cycle have returned or thrown, up to the INSERT of the snapshot. -/
def afterPasses (pollIntervalMs : Int) (i : Nat) (c : Cycle ν) (s : PollLoop ν) : PollLoop ν :=
  match c.fetchLive with
  | none => (s.setDisc { s.disc with cycleLog := [] }).endCycle pollIntervalMs i
  | some fetched =>
    let p := E.polledDisc c fetched s.disc
    if p.2 && E.snapshotDue p.1 s.now then (s.setDisc p.1).setCycle i (.inserting fetched)
    else (s.setDisc p.1).endCycle pollIntervalMs i

/-- One step of the service or of its surroundings. -/
def loopStep (pollIntervalMs : Int) (s : PollLoop ν) : LoopAction ν → Option (PollLoop ν)
  | .start => some { s with starts := s.starts ++ [.init], startCalls := s.startCalls + 1 }
  | .initialised i =>
    match s.starts[i]? with
    | some .init => some { s with starts := s.starts.set i .latestSnapshotAt }
    | _ => none
  | .latestRead i =>
    match s.starts[i]? with
    | some .latestSnapshotAt => some { s with starts := s.starts.set i (.answered s.captured.max?) }
    | _ => none
  | .latestAnswered i =>
    match s.starts[i]? with
    | some (.answered latest) => some (s.started i latest)
    | _ => none
  | .fire id =>
    if s.timers.any fun e => e.1 = id && e.2 ≤ s.now then some ((s.clearTimeout id).tick pollIntervalMs)
    else none
  | .polled i c =>
    match s.cycles[i]? with
    | some .polling => some (E.afterPasses pollIntervalMs i c s)
    | _ => none
  | .insertEffect i =>
    match s.cycles[i]? with
    | some (.inserting fetched) =>
      some
        { s with
          captured := s.captured ++ [s.now]
          disc := { s.disc with snapshots := s.disc.snapshots ++ [E.liveSnapshot fetched s.disc] }
          cycles := s.cycles.set i (.inserted fetched) }
    | _ => none
  | .insertAnswered i =>
    match s.cycles[i]? with
    | some (.inserted _) =>
      some ((s.setDisc { s.disc with lastSnapshotAt := some s.now }).endCycle pollIntervalMs i)
    | _ => none
  | .insertRefused i =>
    match s.cycles[i]? with
    | some (.inserting _) => some (s.endCycle pollIntervalMs i)
    | _ => none
  | .insertLost i =>
    match s.cycles[i]? with
    | some (.inserted _) => some (s.endCycle pollIntervalMs i)
    | _ => none
  | .stop => some s.stop
  | .restart => some (PollLoop.fresh s.now s.captured s.disc)
  | .wait ms => some { s with now := s.now + ms }

/-- The cycle with these answers for its snapshot. -/
def withSnapshot (c : Cycle ν) (dueAt : Int) (inserted : Bool) (at' : Int) : Cycle ν :=
  { c with snapshotDueAt := dueAt, insertLiveSnapshot := inserted, snapshotAt := at' }

theorem passes_withSnapshot (c : Cycle ν) (dueAt : Int) (inserted : Bool) (at' : Int) :
    E.passes (withSnapshot c dueAt inserted at') = E.passes c := rfl

/-- A cycle in terms of what its passes leave -/
theorem runCycle_withSnapshot {c : Cycle ν} {fetched : Fetched ν} (hf : c.fetchLive = some fetched)
    (dueAt : Int) (inserted : Bool) (at' : Int) (d : DiscoveryState ν) :
    E.runCycle (withSnapshot c dueAt inserted at') d =
      let p := E.polledDisc c fetched d
      if p.2 && E.snapshotDue p.1 dueAt && inserted then
        { p.1 with
          snapshots := p.1.snapshots ++ [E.liveSnapshot fetched p.1], lastSnapshotAt := some at' }
      else p.1 := by
  have hf' : (withSnapshot c dueAt inserted at').fetchLive = some fetched := hf
  simp only [runCycle, hf', passes_withSnapshot, polledDisc]
  split
  · rename_i hv
    simp [hv]
  · rename_i hv
    simp [hv, takeSnapshot, liveSnapshot, withSnapshot]

/-- What the passes of a cycle can lead to: the end of the cycle with nothing inserted, or an INSERT
that is due. -/
inductive PassesMove (pollIntervalMs : Int) (i : Nat) (c : Cycle ν) (s : PollLoop ν) :
    PollLoop ν → Prop
  | ended {d : DiscoveryState ν} (hsnapshots : d.snapshots = s.disc.snapshots)
      (hlast : d.lastSnapshotAt = s.disc.lastSnapshotAt)
      (hcycle : E.runCycle (withSnapshot c s.now false s.now) s.disc = d) :
      PassesMove pollIntervalMs i c s ((s.setDisc d).endCycle pollIntervalMs i)
  | due {fetched : Fetched ν} {d : DiscoveryState ν} (hsnapshots : d.snapshots = s.disc.snapshots)
      (hlast : d.lastSnapshotAt = s.disc.lastSnapshotAt) (hdue : E.snapshotDue d s.now = true)
      (hcycle : ∀ inserted at', E.runCycle (withSnapshot c s.now inserted at') s.disc =
        if inserted then
          { d with
            snapshots := d.snapshots ++ [E.liveSnapshot fetched d], lastSnapshotAt := some at' }
        else d) :
      PassesMove pollIntervalMs i c s ((s.setDisc d).setCycle i (.inserting fetched))

theorem afterPasses_move (pollIntervalMs : Int) (i : Nat) (c : Cycle ν) (s : PollLoop ν) :
    E.PassesMove pollIntervalMs i c s (E.afterPasses pollIntervalMs i c s) := by
  cases hf : c.fetchLive with
  | none =>
    simp only [afterPasses, hf]
    refine PassesMove.ended ?_ ?_ ?_
    · rfl
    · rfl
    have hf' : (withSnapshot c s.now false s.now).fetchLive = none := hf
    simp only [runCycle, hf']
  | some fetched =>
    have hcycle := fun inserted at' => E.runCycle_withSnapshot hf s.now inserted at' s.disc
    simp only [afterPasses, hf]
    split
    · rename_i hdue
      rw [Bool.and_eq_true] at hdue
      refine PassesMove.due ?_ ?_ hdue.2 ?_
      · rfl
      · rfl
      intro inserted at'
      simpa [hdue.1, hdue.2] using hcycle inserted at'
    · refine PassesMove.ended ?_ ?_ ?_
      · rfl
      · rfl
      simpa using hcycle false s.now

/-- Everything that one step can do. -/
inductive LoopMove (pollIntervalMs : Int) (s : PollLoop ν) : LoopAction ν → PollLoop ν → Prop
  | start :
      LoopMove pollIntervalMs s .start
        { s with starts := s.starts ++ [.init], startCalls := s.startCalls + 1 }
  | initialised {i : Nat} (hi : s.starts[i]? = some .init) :
      LoopMove pollIntervalMs s (.initialised i)
        { s with starts := s.starts.set i .latestSnapshotAt }
  | latestRead {i : Nat} (hi : s.starts[i]? = some .latestSnapshotAt) :
      LoopMove pollIntervalMs s (.latestRead i)
        { s with starts := s.starts.set i (.answered s.captured.max?) }
  | latestAnswered {i : Nat} {latest : Option Int} (hi : s.starts[i]? = some (.answered latest)) :
      LoopMove pollIntervalMs s (.latestAnswered i) (s.started i latest)
  | fire {id : Nat} {due : Int} (hmem : (id, due) ∈ s.timers) (hdue : due ≤ s.now) :
      LoopMove pollIntervalMs s (.fire id) ((s.clearTimeout id).tick pollIntervalMs)
  | polled {i : Nat} {c : Cycle ν} {s' : PollLoop ν} (hi : s.cycles[i]? = some .polling)
      (hpasses : E.PassesMove pollIntervalMs i c s s') :
      LoopMove pollIntervalMs s (.polled i c) s'
  | insertEffect {i : Nat} {fetched : Fetched ν} (hi : s.cycles[i]? = some (.inserting fetched)) :
      LoopMove pollIntervalMs s (.insertEffect i)
        { s with
          captured := s.captured ++ [s.now]
          disc := { s.disc with snapshots := s.disc.snapshots ++ [E.liveSnapshot fetched s.disc] }
          cycles := s.cycles.set i (.inserted fetched) }
  | insertAnswered {i : Nat} {fetched : Fetched ν} (hi : s.cycles[i]? = some (.inserted fetched)) :
      LoopMove pollIntervalMs s (.insertAnswered i)
        ((s.setDisc { s.disc with lastSnapshotAt := some s.now }).endCycle pollIntervalMs i)
  | insertRefused {i : Nat} {fetched : Fetched ν} (hi : s.cycles[i]? = some (.inserting fetched)) :
      LoopMove pollIntervalMs s (.insertRefused i) (s.endCycle pollIntervalMs i)
  | insertLost {i : Nat} {fetched : Fetched ν} (hi : s.cycles[i]? = some (.inserted fetched)) :
      LoopMove pollIntervalMs s (.insertLost i) (s.endCycle pollIntervalMs i)
  | stop : LoopMove pollIntervalMs s .stop s.stop
  | restart : LoopMove pollIntervalMs s .restart (PollLoop.fresh s.now s.captured s.disc)
  | wait {ms : Nat} : LoopMove pollIntervalMs s (.wait ms) { s with now := s.now + ms }

theorem loopStep_move {pollIntervalMs : Int} {s s' : PollLoop ν} {a : LoopAction ν}
    (hs : E.loopStep pollIntervalMs s a = some s') : E.LoopMove pollIntervalMs s a s' := by
  cases a <;> simp only [loopStep] at hs
  case fire id =>
    split at hs
    · rename_i hany
      obtain ⟨⟨id', due⟩, hmem, htest⟩ := List.any_eq_true.mp hany
      simp only [Bool.and_eq_true, decide_eq_true_eq] at htest
      obtain ⟨rfl, hdue⟩ := htest
      obtain rfl := Option.some.inj hs
      exact .fire hmem hdue
    · simp at hs
  case start | stop | restart | wait =>
    obtain rfl := Option.some.inj hs
    constructor
  case polled i c =>
    split at hs
    · obtain rfl := Option.some.inj hs
      exact .polled (by assumption) (E.afterPasses_move pollIntervalMs i c s)
    · simp at hs
  all_goals
    split at hs
    · obtain rfl := Option.some.inj hs
      constructor
      assumption
    · simp at hs

end Engine

end LivelierBridge.Discovery
