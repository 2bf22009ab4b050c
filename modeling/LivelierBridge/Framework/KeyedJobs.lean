import LivelierBridge.Framework.Faulty

namespace LivelierBridge.Framework

open Faulty

/-- A state that keeps a slot under each key, and from which a key can be erased. -/
class Keyed (S : Type) (κ σ : outParam Type) where
  slot : S → κ → σ
  put : S → κ → σ → S
  erase : S → κ → S
  slot_put_self : ∀ s k t, slot (put s k t) k = t
  slot_put_of_ne : ∀ s {k k'} t, k' ≠ k → slot (put s k t) k' = slot s k'
  slot_erase_of_ne : ∀ s {k u}, k ≠ u → slot (erase s u) k = slot s k
  erase_put_self : ∀ s u t, erase (put s u t) u = erase s u
  erase_put_of_ne : ∀ s {k u} t, k ≠ u → erase (put s k t) u = put (erase s u) k t

namespace Keyed

variable {S κ σ ω : Type} [Keyed S κ σ]

/-- Run a computation on the slot of one key; its log is marked with the key. -/
def onKey (k : κ) (m : Faulty σ ω Unit) : Faulty S (κ × ω) Unit := fun s =>
  let o := m (slot s k)
  ⟨o.value, put s k o.state, o.log.map (k, ·)⟩

/-- Run the jobs of several keys in order. -/
def runJobs (jobs : List (κ × Faulty σ ω Unit)) : Faulty S (κ × ω) Unit :=
  forEach (fun job => onKey job.1 job.2) jobs

@[simp] theorem runJobs_nil (s : S) :
    runJobs ([] : List (κ × Faulty σ ω Unit)) s = ⟨some (), s, []⟩ := rfl

/-- What each job logs has the property for its key, and so has what the whole run logs. -/
theorem logs_runJobs {P : κ → ω → Prop} {jobs : List (κ × Faulty σ ω Unit)}
    (h : ∀ job ∈ jobs, Logs (P job.1) job.2) :
    Logs (fun e => P e.1 e.2) (runJobs jobs : Faulty S (κ × ω) Unit) := by
  apply logs_forEach
  intro job hjob s e he
  obtain ⟨x, hx, rfl⟩ := List.mem_map.mp he
  exact h job hjob _ x hx

variable [DecidableEq κ]

/-- The part of a log that concerns one key. -/
def logOf (k : κ) (log : List (κ × ω)) : List ω :=
  log.filterMap fun e => if e.1 = k then some e.2 else none

@[simp] theorem logOf_nil (k : κ) : logOf k ([] : List (κ × ω)) = [] := rfl

@[simp] theorem logOf_append (k : κ) (log log' : List (κ × ω)) :
    logOf k (log ++ log') = logOf k log ++ logOf k log' := by
  simp [logOf]

@[simp] theorem logOf_map_self (k : κ) (w : List ω) : logOf k (w.map (k, ·)) = w := by
  simp [logOf, List.filterMap_map]

theorem logOf_map_of_ne {k k' : κ} (h : k' ≠ k) (w : List ω) :
    logOf k (w.map (k', ·)) = [] := by
  simp [logOf, List.filterMap_map, h]

theorem mem_of_mem_logOf {k : κ} {log : List (κ × ω)} {x : ω} (h : x ∈ logOf k log) :
    (k, x) ∈ log := by
  obtain ⟨⟨k', y⟩, hy, he⟩ := List.mem_filterMap.mp h
  by_cases hk : k' = k
  · subst hk
    obtain rfl : y = x := by simpa using he
    exact hy
  · simp [hk] at he

theorem mem_logOf {k : κ} {log : List (κ × ω)} {x : ω} (h : (k, x) ∈ log) : x ∈ logOf k log :=
  List.mem_filterMap.mpr ⟨(k, x), h, by simp⟩

/-- When only one key logs things that `f` sees, they are all in its part of the log. -/
theorem filterMap_eq_logOf {δ : Type} {f : ω → Option δ} {k : κ} {log : List (κ × ω)}
    (h : ∀ k' x d, (k', x) ∈ log → f x = some d → k' = k) :
    (log.filterMap fun e => f e.2) = (logOf k log).filterMap f := by
  induction log with
  | nil => rfl
  | cons e log ih =>
    obtain ⟨k', x⟩ := e
    have hrest := ih fun a y d hy => h a y d (List.mem_cons_of_mem _ hy)
    by_cases hk : k' = k
    · have hcons : logOf k ((k', x) :: log) = x :: logOf k log := by simp [logOf, hk]
      rw [hcons, List.filterMap_cons, List.filterMap_cons, hrest]
    · have hcons : logOf k ((k', x) :: log) = logOf k log := by simp [logOf, hk]
      have hx : f x = none := by
        cases hx : f x with
        | none => rfl
        | some d => exact absurd (h k' x d List.mem_cons_self hx) hk
      rw [hcons, List.filterMap_cons, hx, hrest]

/-- When each key logs at most one thing that `f` sees, and no two keys log the same, then the
things that `f` sees are distinct. -/
theorem nodup_filterMap_of_logOf {δ : Type} {f : ω → Option δ} {log : List (κ × ω)}
    (hone : ∀ k, ((logOf k log).filterMap f).length ≤ 1)
    (hkeys : ∀ k k' x x' d, (k, x) ∈ log → (k', x') ∈ log → f x = some d → f x' = some d → k = k') :
    (log.filterMap fun e => f e.2).Nodup := by
  induction log with
  | nil => exact List.nodup_nil
  | cons e log ih =>
    obtain ⟨k, x⟩ := e
    have hone' (k' : κ) : ((logOf k' log).filterMap f).length ≤ 1 := by
      have hle : ((logOf k' log).filterMap f).length ≤ ((logOf k' ((k, x) :: log)).filterMap f).length := by
        refine List.Sublist.length_le (List.Sublist.filterMap _ ?_)
        exact List.Sublist.filterMap _ (List.sublist_cons_self _ _)
      exact Nat.le_trans hle (hone k')
    have hrest := ih hone' fun a b y y' d hy hy' =>
      hkeys a b y y' d (List.mem_cons_of_mem _ hy) (List.mem_cons_of_mem _ hy')
    cases hx : f x with
    | none => simpa [List.filterMap_cons, hx] using hrest
    | some d =>
      rw [List.filterMap_cons, hx]
      refine List.nodup_cons.mpr ⟨?_, hrest⟩
      intro hd
      obtain ⟨⟨k', x'⟩, hmem, hx'⟩ := List.mem_filterMap.mp hd
      obtain rfl : k = k' :=
        hkeys k k' x x' d List.mem_cons_self (List.mem_cons_of_mem _ hmem) hx hx'
      -- the key of the first entry would see the second one, too
      have hcons : logOf k ((k, x) :: log) = x :: logOf k log := by simp [logOf]
      have hlen := hone k
      rw [hcons, List.filterMap_cons, hx] at hlen
      have hmem' : d ∈ (logOf k log).filterMap f :=
        List.mem_filterMap.mpr ⟨x', mem_logOf hmem, hx'⟩
      have hpos := List.length_pos_of_mem hmem'
      simp only [List.length_cons] at hlen
      omega

/-- What a run of jobs has done to one key: nothing, or the job of that key, once. -/
inductive Ran (jobs : List (κ × Faulty σ ω Unit)) (k : κ) (t : σ) : σ → List ω → Prop
  | skipped : Ran jobs k t t []
  | ran (m : Faulty σ ω Unit) (hm : (k, m) ∈ jobs) : Ran jobs k t (m t).state (m t).log

omit [DecidableEq κ] in
theorem Ran.cons {jobs : List (κ × Faulty σ ω Unit)} {k : κ} {t t' : σ} {w : List ω}
    (h : Ran jobs k t t' w) (job : κ × Faulty σ ω Unit) : Ran (job :: jobs) k t t' w := by
  cases h with
  | skipped => exact .skipped
  | ran m hm => exact .ran m (List.mem_cons_of_mem _ hm)

omit [DecidableEq κ] in
theorem Ran.eq_of_notMem {jobs : List (κ × Faulty σ ω Unit)} {k : κ} {t t' : σ} {w : List ω}
    (h : Ran jobs k t t' w) (hk : k ∉ jobs.map Prod.fst) : t' = t ∧ w = [] := by
  cases h with
  | skipped => exact ⟨rfl, rfl⟩
  | ran m hm => exact absurd (List.mem_map_of_mem (f := Prod.fst) hm) hk

/-- Jobs of distinct keys do not meet: each key sees at most its own job, from the slot it had. -/
theorem runJobs_ran {jobs : List (κ × Faulty σ ω Unit)} (hn : (jobs.map Prod.fst).Nodup) (s : S)
    (k : κ) :
    Ran jobs k (slot s k) (slot (runJobs jobs s).state k) (logOf k (runJobs jobs s).log) := by
  induction jobs generalizing s with
  | nil => exact .skipped
  | cons job jobs ih =>
    obtain ⟨k', m⟩ := job
    obtain ⟨hk', hn⟩ := List.nodup_cons.mp hn
    simp only [runJobs, forEach]
    refine bind_rule (P := fun o => Ran _ k (slot s k) (slot o.state k) (logOf k o.log))
      (fun _ => ?_) (fun _ _ => ?_)
    · -- the first job threw, and nothing else ran
      by_cases hk : k = k'
      · subst hk
        simpa [onKey, slot_put_self] using Ran.ran m List.mem_cons_self
      · simpa [onKey, slot_put_of_ne _ _ hk, logOf_map_of_ne (Ne.symm hk)] using Ran.skipped
    · have hrest := ih hn (put s k' (m (slot s k')).state)
      by_cases hk : k = k'
      · subst hk
        rw [slot_put_self] at hrest
        obtain ⟨hs, hw⟩ := hrest.eq_of_notMem hk'
        simp only [runJobs] at hs hw
        simp only [onKey, logOf_append, logOf_map_self, hs, hw, List.append_nil]
        exact .ran m List.mem_cons_self
      · rw [slot_put_of_ne _ _ hk] at hrest
        simp only [onKey, logOf_append, logOf_map_of_ne (Ne.symm hk), List.nil_append]
        exact hrest.cons _

/-- When nothing has thrown, each job has run on the slot of its key, and returned. -/
theorem runJobs_returned {jobs : List (κ × Faulty σ ω Unit)} (hn : (jobs.map Prod.fst).Nodup)
    {s : S} (hv : (runJobs jobs s).value = some ()) {k : κ} {m : Faulty σ ω Unit}
    (hm : (k, m) ∈ jobs) :
    (m (slot s k)).value = some () ∧ slot (runJobs jobs s).state k = (m (slot s k)).state ∧
      logOf k (runJobs jobs s).log = (m (slot s k)).log := by
  induction jobs generalizing s with
  | nil => cases hm
  | cons job jobs ih =>
    obtain ⟨k', m'⟩ := job
    obtain ⟨hk', hrest⟩ := List.nodup_cons.mp hn
    have hfirst : (onKey k' m' s).value = some () := by
      cases hf : (onKey k' m' s).value with
      | none =>
        rw [runJobs, forEach, bind_of_none hf] at hv
        cases hv
      | some u => rfl
    rw [runJobs, forEach, bind_of_some hfirst] at hv ⊢
    rcases List.mem_cons.mp hm with heq | hmem
    · obtain ⟨rfl, rfl⟩ := Prod.mk.inj heq
      -- the jobs behind it are of other keys
      have hran := runJobs_ran hrest (put s k (m (slot s k)).state) k
      obtain ⟨hs, hw⟩ := hran.eq_of_notMem hk'
      refine ⟨hfirst, hs.trans (slot_put_self ..), ?_⟩
      show logOf k (_ ++ (runJobs jobs (put s k (m (slot s k)).state)).log) = _
      rw [logOf_append, hw, List.append_nil]
      exact logOf_map_self k _
    · have hne : k ≠ k' := by
        rintro rfl
        exact hk' (List.mem_map.mpr ⟨(k, m), hmem, rfl⟩)
      obtain ⟨hr, hs, hw⟩ := ih hrest (s := put s k' (m' (slot s k')).state) hv hmem
      rw [slot_put_of_ne _ _ hne] at hr hs hw
      refine ⟨hr, hs, ?_⟩
      show logOf k (_ ++ (runJobs jobs (put s k' (m' (slot s k')).state)).log) = _
      rw [logOf_append, hw]
      show logOf k ((m' (slot s k')).log.map (k', ·)) ++ _ = _
      rw [logOf_map_of_ne (Ne.symm hne), List.nil_append]

end Keyed

end LivelierBridge.Framework
