import LivelierBridge.Discovery.PollLoop
import LivelierBridge.Discovery.Coordinates

namespace LivelierBridge.Discovery

open Framework Js

variable {ν : Type}

/-- The records of cycles in turn, each of which begins at least `gap` after the end of the one
before. -/
def Follows (gap : Int) : LoopRecord → LoopRecord → Prop
  | .began t, .ended t' => t ≤ t'
  | .ended t, .began t' => t + gap ≤ t'
  | _, _ => False

def LoopRecord.isEnd : LoopRecord → Bool
  | .began _ => false
  | .ended _ => true

/-- A stored row whose INSERT throws all the same -/
def LoopAction.isLost : LoopAction ν → Bool
  | .insertLost _ => true
  | _ => false

/-- What the last record says of the service. -/
def Ongoing (running : Bool) (now : Int) : Option LoopRecord → Prop
  | none => running = false
  | some (.began t) => running = true ∧ t ≤ now
  | some (.ended t) => running = false ∧ t ≤ now

namespace PollLoop

section Fields

variable (s : PollLoop ν) (delayMs : Int)

theorem scheduleNext_fields :
    (s.scheduleNext delayMs).now = s.now ∧ (s.scheduleNext delayMs).captured = s.captured ∧
      (s.scheduleNext delayMs).disc = s.disc ∧ (s.scheduleNext delayMs).starts = s.starts ∧
      (s.scheduleNext delayMs).stopped = s.stopped ∧ (s.scheduleNext delayMs).running = s.running ∧
      (s.scheduleNext delayMs).cycles = s.cycles ∧
      (s.scheduleNext delayMs).startCalls = s.startCalls ∧ (s.scheduleNext delayMs).log = s.log := by
  unfold scheduleNext
  split <;> simp

@[simp] theorem scheduleNext_now : (s.scheduleNext delayMs).now = s.now :=
  (s.scheduleNext_fields delayMs).1

@[simp] theorem scheduleNext_captured : (s.scheduleNext delayMs).captured = s.captured :=
  (s.scheduleNext_fields delayMs).2.1

@[simp] theorem scheduleNext_disc : (s.scheduleNext delayMs).disc = s.disc :=
  (s.scheduleNext_fields delayMs).2.2.1

@[simp] theorem scheduleNext_starts : (s.scheduleNext delayMs).starts = s.starts :=
  (s.scheduleNext_fields delayMs).2.2.2.1

@[simp] theorem scheduleNext_stopped : (s.scheduleNext delayMs).stopped = s.stopped :=
  (s.scheduleNext_fields delayMs).2.2.2.2.1

@[simp] theorem scheduleNext_running : (s.scheduleNext delayMs).running = s.running :=
  (s.scheduleNext_fields delayMs).2.2.2.2.2.1

@[simp] theorem scheduleNext_cycles : (s.scheduleNext delayMs).cycles = s.cycles :=
  (s.scheduleNext_fields delayMs).2.2.2.2.2.2.1

@[simp] theorem scheduleNext_startCalls : (s.scheduleNext delayMs).startCalls = s.startCalls :=
  (s.scheduleNext_fields delayMs).2.2.2.2.2.2.2.1

@[simp] theorem scheduleNext_log : (s.scheduleNext delayMs).log = s.log :=
  (s.scheduleNext_fields delayMs).2.2.2.2.2.2.2.2

theorem stop_fields :
    s.stop.now = s.now ∧ s.stop.captured = s.captured ∧ s.stop.disc = s.disc ∧
      s.stop.starts = s.starts ∧ s.stop.stopped = true ∧ s.stop.running = s.running ∧
      s.stop.cycles = s.cycles ∧ s.stop.startCalls = s.startCalls ∧ s.stop.log = s.log := by
  unfold stop clearTimeout
  split <;> simp

end Fields

/-- Cycles come one at a time. -/
structure InTurn (gap : Int) (s : PollLoop ν) : Prop where
  one : s.cycles.length = if s.running then 1 else 0
  turns : s.log.IsChain (Follows gap)
  last : Ongoing s.running s.now s.log.getLast?

namespace InTurn

variable {gap : Int} {s s' : PollLoop ν}

theorem fresh (now : Int) (captured : List Int) (disc : DiscoveryState ν) :
    InTurn gap (PollLoop.fresh now captured disc) :=
  ⟨rfl, List.isChain_nil, rfl⟩

/-- What keeps the cycles as they are keeps them in turn. -/
theorem frame (h : InTurn gap s) (hcycles : s'.cycles.length = s.cycles.length)
    (hrunning : s'.running = s.running) (hlog : s'.log = s.log) (hnow : s.now ≤ s'.now) :
    InTurn gap s' := by
  refine ⟨?_, ?_, ?_⟩
  · rw [hcycles, hrunning]
    exact h.one
  · rw [hlog]
    exact h.turns
  · have hlast := h.last
    rw [hlog, hrunning]
    cases hl : s.log.getLast? with
    | none =>
      rw [hl] at hlast
      exact hlast
    | some r =>
      rw [hl] at hlast
      cases r with
      | began t => exact ⟨hlast.1, hlast.2.trans hnow⟩
      | ended t => exact ⟨hlast.1, hlast.2.trans hnow⟩

theorem setDisc (h : InTurn gap s) (d : DiscoveryState ν) : InTurn gap (s.setDisc d) :=
  h.frame rfl rfl rfl (Int.le_refl _)

theorem clearTimeout (h : InTurn gap s) (id : Nat) : InTurn gap (s.clearTimeout id) :=
  h.frame rfl rfl rfl (Int.le_refl _)

/-- A cycle under way is the only one, and its beginning is the last record. -/
theorem of_cycle (h : InTurn gap s) {i : Nat} (hi : i < s.cycles.length) :
    s.running = true ∧ i = 0 ∧ s.cycles.length = 1 ∧
      ∃ t, s.log.getLast? = some (.began t) ∧ t ≤ s.now := by
  have hone := h.one
  have hrunning : s.running = true := by
    by_contra hr
    rw [if_neg hr] at hone
    omega
  rw [if_pos hrunning] at hone
  refine ⟨hrunning, by omega, hone, ?_⟩
  have hlast := h.last
  cases hl : s.log.getLast? with
  | none =>
    rw [hl, hrunning] at hlast
    cases hlast
  | some r =>
    rw [hl, hrunning] at hlast
    cases r with
    | began t => exact ⟨t, rfl, hlast.2⟩
    | ended t => cases hlast.1

theorem endCycle (h : InTurn gap s) {i : Nat} (hi : i < s.cycles.length) (pollIntervalMs : Int) :
    InTurn gap (s.endCycle pollIntervalMs i) := by
  obtain ⟨-, rfl, hlen, t, hlast, ht⟩ := h.of_cycle hi
  refine ⟨?_, ?_, ?_⟩
  · simp [PollLoop.endCycle, hlen]
  · simp only [PollLoop.endCycle, scheduleNext_log]
    refine List.isChain_append.mpr ⟨h.turns, List.isChain_singleton _, fun x hx y hy => ?_⟩
    obtain rfl : .began t = x := by simpa [hlast] using hx
    obtain rfl : .ended s.now = y := by simpa using hy
    exact ht
  · simp [PollLoop.endCycle, Ongoing]

/-- A firing timer begins a cycle only when none is running. -/
theorem tick (h : InTurn gap s) (pollIntervalMs : Int)
    (hgap : s.running = false → ∀ t, s.log.getLast? = some (.ended t) → t + gap ≤ s.now) :
    InTurn gap (s.tick pollIntervalMs) := by
  unfold PollLoop.tick
  split
  · exact h.frame (by simp) (by simp) (by simp) (by simp)
  · rename_i hr
    have hrunning : s.running = false := by simpa using hr
    have hone := h.one
    have hlast := h.last
    refine ⟨?_, ?_, ?_⟩
    · rw [hrunning] at hone
      simp only [List.length_append, List.length_singleton, if_true]
      simp only [Bool.false_eq_true, if_false] at hone
      omega
    · refine List.isChain_append.mpr ⟨h.turns, List.isChain_singleton _, fun x hx y hy => ?_⟩
      obtain rfl : .began s.now = y := by simpa using hy
      rw [Option.mem_def] at hx
      rw [hx, hrunning] at hlast
      cases x with
      | began t => cases hlast.1
      | ended t => exact hgap hrunning t hx
    · simp [Ongoing]

end InTurn

end PollLoop

namespace Engine

variable (E : Engine) [DecidableEq ν] {gap pollIntervalMs : Int} {s s' : PollLoop ν}

/-- What the passes lead to keeps the cycles in turn. -/
theorem PassesMove.inTurn {i : Nat} {c : Cycle ν} (hm : E.PassesMove pollIntervalMs i c s s')
    (h : s.InTurn gap) (hi : i < s.cycles.length) : s'.InTurn gap := by
  cases hm with
  | ended hsnapshots hlast hcycle =>
    refine (h.setDisc _).endCycle ?_ _
    exact hi
  | due hsnapshots hlast hdue hcycle =>
    exact h.frame (by simp [PollLoop.setCycle, PollLoop.setDisc]) rfl rfl (Int.le_refl _)

/-- A step keeps the cycles in turn when the timers keep the gap. -/
theorem loopStep_inTurn {a : LoopAction ν} (h : s.InTurn gap)
    (hgap : ∀ id due, a = .fire id → (id, due) ∈ s.timers → due ≤ s.now → s.running = false →
      ∀ t, s.log.getLast? = some (.ended t) → t + gap ≤ s.now)
    (hs : E.loopStep pollIntervalMs s a = some s') : s'.InTurn gap := by
  cases E.loopStep_move hs with
  | start => exact h.frame rfl rfl rfl (Int.le_refl _)
  | initialised hi => exact h.frame rfl rfl rfl (Int.le_refl _)
  | latestRead hi => exact h.frame rfl rfl rfl (Int.le_refl _)
  | latestAnswered hi =>
    exact h.frame (by simp [PollLoop.started]) (by simp [PollLoop.started])
      (by simp [PollLoop.started]) (by simp [PollLoop.started])
  | fire hmem hdue =>
    exact (h.clearTimeout _).tick _ (hgap _ _ rfl hmem hdue)
  | polled hi hpasses => exact hpasses.inTurn E h (List.getElem?_eq_some_iff.mp hi).1
  | insertEffect hi => exact h.frame (by simp) rfl rfl (Int.le_refl _)
  | insertAnswered hi =>
    refine (h.setDisc _).endCycle ?_ _
    exact (List.getElem?_eq_some_iff.mp hi).1
  | insertRefused hi => exact h.endCycle (List.getElem?_eq_some_iff.mp hi).1 _
  | insertLost hi => exact h.endCycle (List.getElem?_eq_some_iff.mp hi).1 _
  | stop =>
    obtain ⟨hnow, -, -, -, -, hrunning, hcycles, -, hlog⟩ := s.stop_fields
    exact h.frame (by rw [hcycles]) hrunning hlog hnow.ge
  | restart => exact PollLoop.InTurn.fresh _ _ _
  | wait => exact h.frame rfl rfl rfl (Int.le_add_of_nonneg_right (Int.natCast_nonneg _))

/-- Two cycles never overlap, whatever the calls of `start` and `stop`, the timers and the answers. -/
theorem cycles_never_overlap {now : Int} {captured : List Int} {disc : DiscoveryState ν}
    {as : List (LoopAction ν)}
    (hr : run (E.loopStep pollIntervalMs) (PollLoop.fresh now captured disc) as = some s) :
    s.cycles.length ≤ 1 ∧ (s.running = true ↔ s.cycles.length = 1) ∧
      s.log.IsChain (Follows 0) := by
  have h : s.InTurn 0 := by
    apply run_invariant_all _ (PollLoop.InTurn.fresh now captured disc) hr
    intro s a s' hi hs
    apply E.loopStep_inTurn hi _ hs
    intro id due _ _ _ hrunning t ht
    have hlast := hi.last
    rw [ht] at hlast
    simpa using hlast.2
  have hone := h.one
  refine ⟨?_, ?_, h.turns⟩
  · split at hone <;> omega
  · split at hone <;> simp_all

end Engine

/-- A cycle that finds nothing live. -/
def quietCycle : Cycle Int := { demoAnswers with fetchLive := some ⟨[], [], js "v1"⟩ }

/-- Two calls of `start`, and a second timer that fires while the cycle of the first is running. -/
def twoStarts : List (LoopAction Int) :=
  [.start, .start, .initialised 0, .initialised 1, .latestRead 0, .latestRead 1, .latestAnswered 0,
    .latestAnswered 0, .fire 0, .fire 1, .polled 0 quietCycle, .insertEffect 0, .insertAnswered 0,
    .wait 60000, .fire 2]

theorem cycles_never_overlap_twoStarts :
    ∃ s, run (demoEngine.loopStep 60000) (.fresh 0 [] .init) twoStarts = some s ∧
      s.cycles.length ≤ 1 ∧ (s.running = true ↔ s.cycles.length = 1) ∧
        s.log.IsChain (Follows 0) := by
  have hrun : (run (demoEngine.loopStep 60000) (.fresh 0 [] .init) twoStarts).isSome = true := by
    decide +kernel
  obtain ⟨s, hs⟩ := Option.isSome_iff_exists.mp hrun
  exact ⟨s, hs, demoEngine.cycles_never_overlap hs⟩

/-- A service with a first cycle that takes a snapshot and a second one under way. -/
def oneService : List (LoopAction Int) :=
  [.start, .initialised 0, .latestRead 0, .latestAnswered 0, .fire 0, .polled 0 quietCycle,
    .insertEffect 0, .insertAnswered 0, .wait 60000, .fire 1]

namespace PollLoop

/-- `start` is called at most once on a service. -/
def StartsOnce (s : PollLoop ν) (a : LoopAction ν) : Prop :=
  match a with
  | .start => s.startCalls = 0
  | _ => True

instance (s : PollLoop ν) : ∀ a, Decidable (s.StartsOnce a)
  | .start => inferInstanceAs (Decidable (s.startCalls = 0))
  | .initialised _ | .latestRead _ | .latestAnswered _ | .fire _ | .polled _ _ | .insertEffect _
  | .insertAnswered _ | .insertRefused _ | .insertLost _ | .stop | .restart | .wait _ =>
    inferInstanceAs (Decidable True)

/-- What the service has under way: its `start`, a timer and cycles. -/
def load (s : PollLoop ν) : Nat := s.starts.length + s.timers.length + s.cycles.length

/-- A service that is started once has one thing under way. -/
structure Single (pollIntervalMs : Int) (s : PollLoop ν) : Prop where
  turn : s.InTurn pollIntervalMs
  idle : s.startCalls = 0 → s.load = 0 ∧ s.log = []
  one : s.load ≤ 1
  going : s.startCalls ≠ 0 → s.stopped = false → s.load = 1
  handle : ∀ e ∈ s.timers, s.timer = some e.1
  halted : s.stopped = true → s.timers = []
  due : ∀ e ∈ s.timers, ∀ t, s.log.getLast? = some (.ended t) → t + pollIntervalMs ≤ e.2
  early : s.starts ≠ [] → s.log = []
  latest : ∀ l, .answered l ∈ s.starts → l = s.captured.max?

namespace Single

variable {pollIntervalMs : Int} {s s' : PollLoop ν}

theorem fresh (now : Int) (captured : List Int) (disc : DiscoveryState ν) :
    Single pollIntervalMs (PollLoop.fresh now captured disc) := by
  refine ⟨.fresh _ _ _, fun _ => ⟨rfl, rfl⟩, Nat.zero_le 1, fun h => absurd rfl h, ?_, fun _ => rfl,
    ?_, fun _ => rfl, ?_⟩
  · exact fun e he => absurd he List.not_mem_nil
  · exact fun e he => absurd he List.not_mem_nil
  · exact fun l hl => absurd hl List.not_mem_nil

/-- With a cycle under way there is nothing else. -/
theorem of_cycle (h : Single pollIntervalMs s) {i : Nat} (hi : i < s.cycles.length) :
    s.starts = [] ∧ s.timers = [] ∧ s.startCalls ≠ 0 ∧ i = 0 ∧ s.cycles.length = 1 := by
  obtain ⟨-, hzero, hlen, -⟩ := h.turn.of_cycle hi
  have hone := h.one
  simp only [load] at hone
  refine ⟨List.length_eq_zero_iff.mp (by omega), List.length_eq_zero_iff.mp (by omega), ?_, hzero,
    hlen⟩
  intro hcalls
  have hload := (h.idle hcalls).1
  simp only [load] at hload
  omega

/-- With a call of `start` under way there is nothing else. -/
theorem of_start (h : Single pollIntervalMs s) {i : Nat} (hi : i < s.starts.length) :
    s.timers = [] ∧ s.cycles = [] ∧ s.startCalls ≠ 0 ∧ s.starts.length = 1 ∧ i = 0 ∧ s.log = [] := by
  have hone := h.one
  simp only [load] at hone
  refine ⟨List.length_eq_zero_iff.mp (by omega), List.length_eq_zero_iff.mp (by omega), ?_,
    by omega, by omega, h.early fun h0 => by rw [h0] at hi; simp at hi⟩
  intro hcalls
  have hload := (h.idle hcalls).1
  simp only [load] at hload
  omega

/-- With a timer armed there is nothing else. -/
theorem of_timer (h : Single pollIntervalMs s) {e : Nat × Int} (he : e ∈ s.timers) :
    s.starts = [] ∧ s.cycles = [] ∧ s.timers = [e] ∧ s.startCalls ≠ 0 ∧ s.running = false := by
  have hpos := List.length_pos_of_mem he
  have hone := h.one
  simp only [load] at hone
  have hcycles : s.cycles = [] := List.length_eq_zero_iff.mp (by omega)
  obtain ⟨e', htimers⟩ := List.length_eq_one_iff.mp (show s.timers.length = 1 by omega)
  refine ⟨List.length_eq_zero_iff.mp (by omega), hcycles, ?_, ?_, ?_⟩
  · rw [htimers] at he ⊢
    rw [List.mem_singleton.mp he]
  · intro hcalls
    have hload := (h.idle hcalls).1
    simp only [load] at hload
    omega
  · have hturn := h.turn.one
    rw [hcycles] at hturn
    by_contra hr
    simp [hr] at hturn

/-- A service with nothing under way arms its timer, unless it has been stopped. -/
theorem schedule {delayMs : Int} (hturn : (s.scheduleNext delayMs).InTurn pollIntervalMs)
    (hstarts : s.starts = []) (htimers : s.timers = []) (hcycles : s.cycles = [])
    (hcalls : s.startCalls ≠ 0)
    (hdue : ∀ t, s.log.getLast? = some (.ended t) → t + pollIntervalMs ≤ s.now + delayMs) :
    Single pollIntervalMs (s.scheduleNext delayMs) := by
  cases hstopped : s.stopped with
  | true =>
    have hsame : s.scheduleNext delayMs = s := by simp [scheduleNext, hstopped]
    rw [hsame] at hturn ⊢
    refine ⟨hturn, fun h => absurd h hcalls, by simp [load, hstarts, htimers, hcycles], ?_, ?_,
      fun _ => htimers, ?_, fun h => absurd hstarts h, ?_⟩
    · intro _ h
      rw [hstopped] at h
      cases h
    · simp [htimers]
    · simp [htimers]
    · simp [hstarts]
  | false =>
    have hnew : s.scheduleNext delayMs =
        { s with
          timers := [(s.nextTimer, s.now + delayMs)], timer := some s.nextTimer,
          nextTimer := s.nextTimer + 1 } := by
      simp [scheduleNext, hstopped, htimers]
    rw [hnew] at hturn ⊢
    refine ⟨hturn, fun h => absurd h hcalls, by simp [load, hstarts, hcycles], ?_, ?_, ?_, ?_,
      fun h => absurd hstarts h, ?_⟩
    · intro _ _
      simp [load, hstarts, hcycles]
    · simp
    · intro h
      rw [hstopped] at h
      cases h
    · simpa using hdue
    · simp [hstarts]

theorem endCycle (h : Single pollIntervalMs s) {i : Nat} (hi : i < s.cycles.length) :
    Single pollIntervalMs (s.endCycle pollIntervalMs i) := by
  obtain ⟨hstarts, htimers, hcalls, rfl, hlen⟩ := h.of_cycle hi
  refine schedule (h.turn.endCycle hi pollIntervalMs) hstarts htimers ?_ hcalls ?_
  · exact List.length_eq_zero_iff.mp (by simp [hlen])
  · intro t ht
    obtain rfl : s.now = t := by simpa using ht
    exact Int.le_refl _

theorem started (h : Single pollIntervalMs s) {i : Nat} (hi : i < s.starts.length)
    (latest : Option Int) : Single pollIntervalMs (s.started i latest) := by
  obtain ⟨htimers, hcycles, hcalls, hlen, rfl, hlog⟩ := h.of_start hi
  refine schedule ?_ ?_ htimers hcycles hcalls ?_
  · exact h.turn.frame (by simp) (by simp) (by simp) (by simp)
  · exact List.length_eq_zero_iff.mp (by simp [hlen])
  · simp [hlog]

/-- The timer begins the next cycle. -/
theorem fire (h : Single pollIntervalMs s) {id : Nat} {due : Int} (hmem : (id, due) ∈ s.timers)
    (hdue : due ≤ s.now) : Single pollIntervalMs ((s.clearTimeout id).tick pollIntervalMs) := by
  obtain ⟨hstarts, hcycles, htimers, hcalls, hrunning⟩ := h.of_timer hmem
  have hturn := (h.turn.clearTimeout id).tick pollIntervalMs fun _ t ht =>
    (h.due _ hmem t ht).trans hdue
  have hnew : (s.clearTimeout id).tick pollIntervalMs =
      { s with
        timers := [], running := true, cycles := [.polling], log := s.log ++ [.began s.now] } := by
    simp [tick, clearTimeout, hrunning, htimers, hcycles]
  rw [hnew] at hturn ⊢
  refine ⟨hturn, fun h => absurd h hcalls, by simp [load, hstarts], ?_, ?_, fun _ => rfl, ?_,
    fun h => absurd hstarts h, ?_⟩
  · intro _ _
    simp [load, hstarts]
  · simp
  · simp
  · simp [hstarts]

/-- A cycle that goes on to another await -/
theorem goOn (h : Single pollIntervalMs s) {i : Nat} (hi : i < s.cycles.length)
    (captured : List Int) (d : DiscoveryState ν) (phase : CyclePhase ν) :
    Single pollIntervalMs
      { s with captured := captured, disc := d, cycles := s.cycles.set i phase } := by
  obtain ⟨hstarts, htimers, hcalls, -, hlen⟩ := h.of_cycle hi
  refine ⟨h.turn.frame (by simp) rfl rfl (Int.le_refl _), fun h => absurd h hcalls,
    by simp [load, hstarts, htimers, hlen], ?_, ?_, fun _ => htimers, ?_,
    fun h => absurd hstarts h, ?_⟩
  · intro _ _
    simp [load, hstarts, htimers, hlen]
  · simp [htimers]
  · simp [htimers]
  · simp [hstarts]

theorem setDisc (h : Single pollIntervalMs s) (d : DiscoveryState ν) :
    Single pollIntervalMs (s.setDisc d) :=
  ⟨h.turn.setDisc d, h.idle, h.one, h.going, h.handle, h.halted, h.due, h.early, h.latest⟩

/-- A call of `start` goes on to its next await. -/
theorem setStart (h : Single pollIntervalMs s) {i : Nat} (hi : i < s.starts.length)
    {phase : StartPhase} (hlatest : ∀ l, phase = .answered l → l = s.captured.max?) :
    Single pollIntervalMs { s with starts := s.starts.set i phase } := by
  obtain ⟨htimers, hcycles, hcalls, hlen, -, hlog⟩ := h.of_start hi
  refine ⟨h.turn.frame rfl rfl rfl (Int.le_refl _), fun h => absurd h hcalls,
    by simp [load, htimers, hcycles, hlen], ?_, h.handle, h.halted, h.due, fun _ => hlog, ?_⟩
  · intro _ _
    simp [load, htimers, hcycles, hlen]
  · intro l hl
    rcases List.mem_or_eq_of_mem_set hl with hold | hnew
    · exact h.latest l hold
    · exact hlatest l hnew.symm

theorem start (h : Single pollIntervalMs s) (hcalls : s.startCalls = 0) :
    Single pollIntervalMs
      { s with starts := s.starts ++ [.init], startCalls := s.startCalls + 1 } := by
  obtain ⟨hload, hlog⟩ := h.idle hcalls
  simp only [load] at hload
  have hstarts : s.starts = [] := List.length_eq_zero_iff.mp (by omega)
  refine ⟨h.turn.frame rfl rfl rfl (Int.le_refl _), fun h => absurd h (Nat.succ_ne_zero _), ?_, ?_,
    h.handle, h.halted, h.due, fun _ => hlog, ?_⟩
  · simp only [load, List.length_append, List.length_singleton]
    omega
  · intro _ _
    simp only [load, List.length_append, List.length_singleton]
    omega
  · simp [hstarts]

/-- `stop` clears the one timer there may be. -/
theorem stop (h : Single pollIntervalMs s) : Single pollIntervalMs s.stop := by
  obtain ⟨hnow, hcaptured, -, hstarts, hstopped, hrunning, hcycles, hcalls, hlog⟩ := s.stop_fields
  have htimers : s.stop.timers = [] := by
    cases htimer : s.timer with
    | none =>
      have hempty : s.timers = [] := by
        apply List.eq_nil_iff_forall_not_mem.mpr
        intro e he
        have hhandle := h.handle e he
        rw [htimer] at hhandle
        cases hhandle
      simp [PollLoop.stop, htimer, hempty]
    | some id =>
      simp only [PollLoop.stop, htimer, clearTimeout]
      apply List.filter_eq_nil_iff.mpr
      intro e he
      have hhandle := h.handle e he
      rw [htimer] at hhandle
      simpa using (Option.some.inj hhandle).symm
  have hturn : s.stop.InTurn pollIntervalMs := h.turn.frame (by rw [hcycles]) hrunning hlog hnow.ge
  have hone := h.one
  simp only [load] at hone
  refine ⟨hturn, ?_, ?_, ?_, ?_, fun _ => htimers, ?_, ?_, ?_⟩
  · intro hc
    rw [hcalls] at hc
    obtain ⟨hload, hl⟩ := h.idle hc
    simp only [load] at hload
    refine ⟨?_, by rw [hlog, hl]⟩
    simp only [load, hstarts, htimers, hcycles, List.length_nil]
    omega
  · simp only [load, hstarts, htimers, hcycles, List.length_nil]
    omega
  · intro _ hs
    rw [hstopped] at hs
    cases hs
  · simp [htimers]
  · simp [htimers]
  · rw [hstarts, hlog]
    exact h.early
  · rw [hstarts, hcaptured]
    exact h.latest

end Single

section Halted

variable {pollIntervalMs : Int} {s s' : PollLoop ν}

/-- Since it was stopped the service has begun nothing. -/
structure Halted (pollIntervalMs : Int) (log : List LoopRecord) (s : PollLoop ν) : Prop where
  single : s.Single pollIntervalMs
  stopped : s.stopped = true
  calm : s.log = log ∨ s.cycles = [] ∧ ∃ at', s.log = log ++ [.ended at']

theorem Halted.frame {log : List LoopRecord} (h : Halted pollIntervalMs log s)
    (hsingle : s'.Single pollIntervalMs) (hstopped : s'.stopped = s.stopped)
    (hcycles : s'.cycles.length = s.cycles.length) (hlog : s'.log = s.log) :
    Halted pollIntervalMs log s' := by
  refine ⟨hsingle, hstopped.trans h.stopped, ?_⟩
  rw [hlog]
  apply h.calm.imp_right
  rintro ⟨hnone, hended⟩
  exact ⟨List.length_eq_zero_iff.mp (by rw [hcycles, hnone]; rfl), hended⟩

/-- The cycle that was under way ends. -/
theorem Halted.endCycle {log : List LoopRecord} (h : Halted pollIntervalMs log s) {i : Nat}
    (hi : i < s.cycles.length) :
    Halted pollIntervalMs log (s.endCycle pollIntervalMs i) := by
  obtain ⟨-, -, -, rfl, hlen⟩ := h.single.of_cycle hi
  refine ⟨h.single.endCycle hi, by simp [PollLoop.endCycle, h.stopped], .inr ⟨?_, ?_⟩⟩
  · exact List.length_eq_zero_iff.mp (by simp [PollLoop.endCycle, hlen])
  · rcases h.calm with hsame | ⟨hnone, -⟩
    · exact ⟨s.now, by simp [PollLoop.endCycle, hsame]⟩
    · rw [hnone] at hi
      cases hi

theorem Halted.setDisc {log : List LoopRecord} (h : Halted pollIntervalMs log s)
    (d : DiscoveryState ν) : Halted pollIntervalMs log (s.setDisc d) :=
  ⟨h.single.setDisc d, h.stopped, h.calm⟩

end Halted

end PollLoop

namespace Engine

variable (E : Engine) [DecidableEq ν] {pollIntervalMs : Int} {s s' : PollLoop ν}

theorem PassesMove.single {i : Nat} {c : Cycle ν} (hm : E.PassesMove pollIntervalMs i c s s')
    (h : s.Single pollIntervalMs) (hi : i < s.cycles.length) : s'.Single pollIntervalMs := by
  cases hm with
  | ended hsnapshots hlast hcycle =>
    refine (h.setDisc _).endCycle ?_
    exact hi
  | due hsnapshots hlast hdue hcycle => exact h.goOn hi s.captured _ _

/-- A step keeps one thing under way. -/
theorem loopStep_single {a : LoopAction ν} (h : s.Single pollIntervalMs) (ha : s.StartsOnce a)
    (hs : E.loopStep pollIntervalMs s a = some s') : s'.Single pollIntervalMs := by
  cases E.loopStep_move hs with
  | start => exact h.start ha
  | initialised hi =>
    exact h.setStart (List.getElem?_eq_some_iff.mp hi).1 (by simp)
  | latestRead hi =>
    exact h.setStart (List.getElem?_eq_some_iff.mp hi).1 (by simp)
  | latestAnswered hi => exact h.started (List.getElem?_eq_some_iff.mp hi).1 _
  | fire hmem hdue => exact h.fire hmem hdue
  | polled hi hpasses => exact hpasses.single E h (List.getElem?_eq_some_iff.mp hi).1
  | insertEffect hi => exact h.goOn (List.getElem?_eq_some_iff.mp hi).1 _ _ _
  | insertAnswered hi =>
    refine (h.setDisc _).endCycle ?_
    exact (List.getElem?_eq_some_iff.mp hi).1
  | insertRefused hi => exact h.endCycle (List.getElem?_eq_some_iff.mp hi).1
  | insertLost hi => exact h.endCycle (List.getElem?_eq_some_iff.mp hi).1
  | stop => exact h.stop
  | restart => exact .fresh _ _ _
  | wait =>
    refine ⟨?_, h.idle, h.one, h.going, h.handle, h.halted, h.due, h.early, h.latest⟩
    exact h.turn.frame rfl rfl rfl (Int.le_add_of_nonneg_right (Int.natCast_nonneg _))

theorem PassesMove.halted {log : List LoopRecord} {i : Nat} {c : Cycle ν}
    (hm : E.PassesMove pollIntervalMs i c s s') (h : s.Halted pollIntervalMs log)
    (hi : i < s.cycles.length) : s'.Halted pollIntervalMs log := by
  cases hm with
  | ended hsnapshots hlast hcycle =>
    refine (h.setDisc _).endCycle ?_
    exact hi
  | due hsnapshots hlast hdue hcycle =>
    refine h.frame (h.single.goOn hi s.captured _ _) ?_ ?_ ?_
    · rfl
    · simp [PollLoop.setCycle, PollLoop.setDisc]
    · rfl

end Engine

end LivelierBridge.Discovery
