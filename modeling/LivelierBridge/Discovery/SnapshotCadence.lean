import LivelierBridge.Discovery.LoopRuns

namespace LivelierBridge.Discovery

open Framework Js

namespace Engine

variable {ν : Type} (E : Engine) [DecidableEq ν] {pollIntervalMs : Int} {s s' : PollLoop ν}

/-- The stored snapshots are apart; a started service knows when the last one was taken, but for one
whose INSERT is not answered yet. -/
structure Spaced (s : PollLoop ν) : Prop where
  apart : s.captured.Pairwise fun earlier later => earlier + E.snapshotIntervalMs ≤ later
  past : ∀ t ∈ s.captured, t ≤ s.now
  known : s.startCalls ≠ 0 → s.starts = [] → (∀ fetched, .inserted fetched ∉ s.cycles) →
    ∀ t ∈ s.captured, ∃ l, s.disc.lastSnapshotAt = some l ∧ t ≤ l
  waiting : ∀ fetched, .inserting fetched ∈ s.cycles →
    ∀ t ∈ s.captured, t + E.snapshotIntervalMs ≤ s.now

omit [DecidableEq ν] in
theorem Spaced.frame (h : E.Spaced s) (hcaptured : s'.captured = s.captured)
    (hlast : s'.disc.lastSnapshotAt = s.disc.lastSnapshotAt) (hstarts : s'.starts = s.starts)
    (hcycles : s'.cycles = s.cycles) (hcalls : s'.startCalls = s.startCalls)
    (hnow : s.now ≤ s'.now) : E.Spaced s' := by
  refine ⟨?_, ?_, ?_, ?_⟩
  · rw [hcaptured]
    exact h.apart
  · rw [hcaptured]
    exact fun t ht => (h.past t ht).trans hnow
  · rw [hcaptured, hlast, hstarts, hcycles, hcalls]
    exact h.known
  · rw [hcaptured, hcycles]
    exact fun fetched hf t ht => (h.waiting fetched hf t ht).trans hnow

omit [DecidableEq ν] in
/-- The end of a cycle that leaves the last snapshot known -/
theorem Spaced.endCycle (h : E.Spaced s) (hsingle : s.Single pollIntervalMs) {i : Nat}
    (hi : i < s.cycles.length) {d : DiscoveryState ν}
    (hknown : ∀ t ∈ s.captured, ∃ l, d.lastSnapshotAt = some l ∧ t ≤ l) :
    E.Spaced ((s.setDisc d).endCycle pollIntervalMs i) := by
  obtain ⟨-, -, -, rfl, hlen⟩ := hsingle.of_cycle hi
  have hnone : s.cycles.eraseIdx 0 = [] :=
    List.length_eq_zero_iff.mp (by simp [hlen])
  refine ⟨by simpa [PollLoop.endCycle, PollLoop.setDisc] using h.apart,
    by simpa [PollLoop.endCycle, PollLoop.setDisc] using h.past, ?_, ?_⟩
  · intro _ _ _
    simpa [PollLoop.endCycle, PollLoop.setDisc] using hknown
  · simp [PollLoop.endCycle, PollLoop.setDisc, hnone]

omit [DecidableEq ν] in
/-- A cycle under way that is not inserting has the last snapshot known. -/
theorem Spaced.known_of_cycle (h : E.Spaced s) (hsingle : s.Single pollIntervalMs) {i : Nat}
    {phase : CyclePhase ν} (hi : s.cycles[i]? = some phase)
    (hphase : ∀ fetched, phase ≠ .inserted fetched) :
    ∀ t ∈ s.captured, ∃ l, s.disc.lastSnapshotAt = some l ∧ t ≤ l := by
  obtain ⟨hlt, hget⟩ := List.getElem?_eq_some_iff.mp hi
  obtain ⟨hstarts, -, hcalls, rfl, hlen⟩ := hsingle.of_cycle hlt
  apply h.known hcalls hstarts
  intro fetched hmem
  obtain ⟨x, hx⟩ := List.length_eq_one_iff.mp hlen
  simp only [hx, List.getElem_cons_zero] at hget
  rw [hx, List.mem_singleton, hget] at hmem
  exact hphase fetched hmem.symm

theorem PassesMove.spaced {i : Nat} {c : Cycle ν} (hm : E.PassesMove pollIntervalMs i c s s')
    (h : E.Spaced s) (hsingle : s.Single pollIntervalMs) (hi : s.cycles[i]? = some .polling) :
    E.Spaced s' := by
  have hlt := (List.getElem?_eq_some_iff.mp hi).1
  have hknown := Spaced.known_of_cycle E h hsingle hi (by simp)
  cases hm with
  | ended hsnapshots hlast hcycle =>
    apply Spaced.endCycle E h hsingle hlt
    rw [hlast]
    exact hknown
  | due hsnapshots hlast hdue hcycle =>
    refine ⟨h.apart, h.past, fun _ _ _ t ht => ?_, fun fetched hf t ht => ?_⟩
    · simpa [PollLoop.setCycle, PollLoop.setDisc, hlast] using hknown t ht
    · obtain ⟨l, hl, htl⟩ := hknown t ht
      rw [snapshotDue, hlast, hl] at hdue
      have hsince : E.snapshotIntervalMs ≤ s.now - l := by simpa using hdue
      change t + E.snapshotIntervalMs ≤ s.now
      omega

/-- An INSERT that throws has inserted nothing, and `start` is called once. -/
def Reliable (s : PollLoop ν) (a : LoopAction ν) : Prop :=
  s.StartsOnce a ∧ a.isLost = false

instance (s : PollLoop ν) (a : LoopAction ν) : Decidable (Reliable s a) :=
  inferInstanceAs (Decidable (_ ∧ _))

theorem loopStep_spaced {a : LoopAction ν} (h : E.Spaced s) (hsingle : s.Single pollIntervalMs)
    (ha : Reliable s a) (hs : E.loopStep pollIntervalMs s a = some s') : E.Spaced s' := by
  cases E.loopStep_move hs with
  | start =>
    refine ⟨h.apart, h.past, fun _ hstarts => ?_, h.waiting⟩
    simp at hstarts
  | initialised hi | latestRead hi =>
    refine ⟨h.apart, h.past, fun _ hstarts => ?_, h.waiting⟩
    have hlt := (List.getElem?_eq_some_iff.mp hi).1
    rw [List.set_eq_nil_iff] at hstarts
    rw [hstarts] at hlt
    cases hlt
  | @latestAnswered i latest hi =>
    obtain ⟨hlt, hget⟩ := List.getElem?_eq_some_iff.mp hi
    obtain ⟨-, hcycles, -⟩ := hsingle.of_start hlt
    have hlatest := hsingle.latest latest (hget ▸ List.getElem_mem hlt)
    refine ⟨by simpa [PollLoop.started] using h.apart, by simpa [PollLoop.started] using h.past, ?_,
      by simp [PollLoop.started, hcycles]⟩
    intro _ _ _ t ht
    simp only [PollLoop.started, PollLoop.scheduleNext_captured] at ht
    obtain ⟨m, hm⟩ := Option.ne_none_iff_exists'.mp
      (mt List.max?_eq_none_iff.mp (List.ne_nil_of_mem ht))
    refine ⟨m, by simp [PollLoop.started, hlatest, hm], ?_⟩
    exact (List.max?_eq_some_iff.mp hm).2 t ht
  | fire hmem hdue =>
    obtain ⟨hstarts, hcycles, -, hcalls, hrunning⟩ := hsingle.of_timer hmem
    refine ⟨?_, ?_, ?_, ?_⟩
    · simpa [PollLoop.tick, PollLoop.clearTimeout, hrunning] using h.apart
    · simpa [PollLoop.tick, PollLoop.clearTimeout, hrunning] using h.past
    · intro _ _ _ t ht
      have ht' : t ∈ s.captured := by simpa [PollLoop.tick, PollLoop.clearTimeout, hrunning] using ht
      simpa [PollLoop.tick, PollLoop.clearTimeout, hrunning] using
        h.known hcalls hstarts (by simp [hcycles]) t ht'
    · simp [PollLoop.tick, PollLoop.clearTimeout, hrunning, hcycles]
  | polled hi hpasses => exact hpasses.spaced E h hsingle hi
  | @insertEffect i fetched hi =>
    obtain ⟨hlt, hget⟩ := List.getElem?_eq_some_iff.mp hi
    obtain ⟨-, -, -, rfl, hlen⟩ := hsingle.of_cycle hlt
    have hwaiting := h.waiting fetched (hget ▸ List.getElem_mem hlt)
    obtain ⟨x, hx⟩ := List.length_eq_one_iff.mp hlen
    refine ⟨?_, ?_, ?_, ?_⟩
    · refine List.pairwise_append.mpr ⟨h.apart, List.pairwise_singleton _ _, fun t ht u hu => ?_⟩
      rw [List.mem_singleton.mp hu]
      exact hwaiting t ht
    · intro t ht
      rcases List.mem_append.mp ht with hold | hnew
      · exact h.past t hold
      · rw [List.mem_singleton.mp hnew]
    · intro _ _ hnone
      exact absurd (by simp [hx]) (hnone fetched)
    · simp [hx]
  | insertAnswered hi =>
    apply Spaced.endCycle E h hsingle (List.getElem?_eq_some_iff.mp hi).1
    exact fun t ht => ⟨s.now, rfl, h.past t ht⟩
  | insertRefused hi =>
    have hknown := Spaced.known_of_cycle E h hsingle hi (by simp)
    exact Spaced.endCycle E h hsingle (List.getElem?_eq_some_iff.mp hi).1 hknown
  | insertLost hi => exact absurd ha.2 (by simp [LoopAction.isLost])
  | stop =>
    obtain ⟨hnow, hcaptured, hdisc, hstarts, -, -, hcycles, hcalls, -⟩ := s.stop_fields
    exact h.frame E hcaptured (by rw [hdisc]) hstarts hcycles hcalls hnow.ge
  | restart => exact ⟨h.apart, h.past, fun hcalls => absurd rfl hcalls, by simp [PollLoop.fresh]⟩
  | wait => exact h.frame E rfl rfl rfl rfl rfl (Int.le_add_of_nonneg_right (Int.natCast_nonneg _))

/-- Two snapshots of a source are at least the snapshot interval apart, over all restarts of the
process. -/
theorem snapshots_apart {now : Int} {disc : DiscoveryState ν} {as : List (LoopAction ν)}
    (hg : Guarded (E.loopStep pollIntervalMs) Reliable (PollLoop.fresh now [] disc) as)
    (hr : run (E.loopStep pollIntervalMs) (PollLoop.fresh now [] disc) as = some s) :
    s.captured.Pairwise fun earlier later => earlier + E.snapshotIntervalMs ≤ later := by
  have h0 : (PollLoop.fresh now [] disc).Single pollIntervalMs ∧
      E.Spaced (PollLoop.fresh now [] disc) :=
    ⟨.fresh _ _ _, .nil, by simp [PollLoop.fresh], by simp [PollLoop.fresh], by simp [PollLoop.fresh]⟩
  have hstep : ∀ (s : PollLoop ν) a s', s.Single pollIntervalMs ∧ E.Spaced s → Reliable s a →
      E.loopStep pollIntervalMs s a = some s' → s'.Single pollIntervalMs ∧ E.Spaced s' :=
    fun s a s' hi ha hs => ⟨E.loopStep_single hi.1 ha.1 hs, E.loopStep_spaced hi.2 hi.1 ha hs⟩
  exact (run_invariant hstep h0 hg hr).2.apart

/-- Two processes that each take a snapshot. -/
def twoServices : List (LoopAction Int) :=
  oneService ++ [.restart, .wait 3600000, .start, .initialised 0, .latestRead 0, .latestAnswered 0,
    .fire 0, .polled 0 quietCycle, .insertEffect 0]

theorem snapshots_apart_twoServices :
    ∃ s, run (demoEngine.loopStep 60000) (.fresh 0 [] .init) twoServices = some s ∧
      s.captured = [0, 3660000] ∧
        s.captured.Pairwise fun earlier later => earlier + demoEngine.snapshotIntervalMs ≤ later := by
  have hrun : (run (demoEngine.loopStep 60000) (.fresh 0 [] .init) twoServices).map
      PollLoop.captured = some [0, 3660000] := by
    decide +kernel
  obtain ⟨s, hs, hcaptured⟩ := Option.map_eq_some_iff.mp hrun
  exact ⟨s, hs, hcaptured, demoEngine.snapshots_apart (by decide +kernel) hs⟩

/-- From `before` on, what the cycle under way has done so far is a part of one `runCycle`. -/
def Under (before : DiscoveryState ν) (s : PollLoop ν) : Prop :=
  match s.cycles with
  | [] | [.polling] => s.disc = before
  | [.inserting fetched] => ∃ (c : Cycle ν) (at' : Int), ∀ inserted at'',
    E.runCycle (withSnapshot c at' inserted at'') before =
      if inserted then
        { s.disc with
          snapshots := s.disc.snapshots ++ [E.liveSnapshot fetched s.disc]
          lastSnapshotAt := some at'' }
      else s.disc
  | [.inserted _] => ∃ (c : Cycle ν) (at' : Int), ∀ at'',
    E.runCycle (withSnapshot c at' true at'') before = { s.disc with lastSnapshotAt := some at'' }
  | _ => True

/-- A service has done its cycles one after the other, from what its start has found. -/
structure InSequence (base : DiscoveryState ν) (s : PollLoop ν) : Prop where
  early : s.startCalls = 0 ∨ s.starts ≠ [] →
    { s.disc with lastSnapshotAt := s.captured.max? } = base ∧ s.log = []
  done : s.startCalls ≠ 0 → s.starts = [] → ∃ cs : List (Cycle ν),
    cs.length = s.log.countP LoopRecord.isEnd ∧
      E.Under (cs.foldl (fun d c => E.runCycle c d) base) s

variable {base : DiscoveryState ν}

/-- A cycle that ends as one `runCycle` -/
theorem InSequence.endCycle (h : E.InSequence base s) (hsingle : s.Single pollIntervalMs) {i : Nat}
    (hi : i < s.cycles.length) {d : DiscoveryState ν}
    (hd : ∀ before, E.Under before s → ∃ c, E.runCycle c before = d) :
    E.InSequence base ((s.setDisc d).endCycle pollIntervalMs i) := by
  obtain ⟨hstarts, -, hcalls, rfl, hlen⟩ := hsingle.of_cycle hi
  have hnone : s.cycles.eraseIdx 0 = [] :=
    List.length_eq_zero_iff.mp (by simp [hlen])
  obtain ⟨cs, hcount, hunder⟩ := h.done hcalls hstarts
  obtain ⟨c, hc⟩ := hd _ hunder
  refine ⟨fun hearly => ?_, fun _ _ => ⟨cs ++ [c], ?_, ?_⟩⟩
  · simp [PollLoop.endCycle, PollLoop.setDisc, hstarts, hcalls] at hearly
  · simp [PollLoop.endCycle, PollLoop.setDisc, hcount, List.countP_append, LoopRecord.isEnd]
  · simp [Under, PollLoop.endCycle, PollLoop.setDisc, hnone, hc]

/-- What the loop's bookkeeping does to the state in between -/
theorem InSequence.frame (h : E.InSequence base s) (hdisc : s'.disc = s.disc)
    (hcaptured : s'.captured = s.captured) (hstarts : s'.starts = [] ↔ s.starts = [])
    (hcycles : s'.cycles = s.cycles) (hcalls : s'.startCalls = s.startCalls)
    (hlog : s'.log = s.log) : E.InSequence base s' := by
  refine ⟨?_, ?_⟩
  · rw [hdisc, hcaptured, hcalls, hlog, ne_eq, hstarts]
    exact h.early
  · rw [hstarts, hcalls, hlog]
    unfold Under
    rw [hcycles, hdisc]
    exact h.done

end Engine

end LivelierBridge.Discovery
