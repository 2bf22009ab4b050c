import Mathlib.Data.List.Sort
import LivelierBridge.Framework.KeyedJobs

namespace LivelierBridge.Framework

open Faulty

section Sorting

variable {α : Type} {r : α → α → Prop} [DecidableRel r]

theorem orderedInsert_of_forall {a : α} {l : List α} (h : ∀ b ∈ l, r a b) :
    l.orderedInsert r a = a :: l := by
  cases l with
  | nil => rfl
  | cons b l => exact if_pos (h b List.mem_cons_self)

theorem filter_orderedInsert_sorted [IsTrans α r] (p : α → Bool) (a : α) {l : List α}
    (hl : l.Pairwise r) :
    (l.orderedInsert r a).filter p =
      if p a then (l.filter p).orderedInsert r a else l.filter p := by
  induction l with
  | nil => cases h : p a <;> simp [h]
  | cons b l ih =>
    obtain ⟨hb, hl⟩ := List.pairwise_cons.mp hl
    by_cases hab : r a b
    · -- the new element goes to the front, and is below everything that stays
      have hbelow : ∀ x ∈ (b :: l).filter p, r a x := by
        intro x hx
        rcases List.mem_cons.mp (List.mem_of_mem_filter hx) with rfl | hx
        · exact hab
        · exact IsTrans.trans _ _ _ hab (hb x hx)
      cases hp : p a with
      | true => simp [List.orderedInsert, hab, hp, orderedInsert_of_forall hbelow]
      | false => simp [List.orderedInsert, hab, hp]
    · cases hp : p a with
      | true => cases hpb : p b <;> simp [List.orderedInsert, hab, hp, hpb, ih hl]
      | false => cases hpb : p b <;> simp [List.orderedInsert, hab, hp, hpb, ih hl]

/-- Sorting commutes with taking elements away. -/
theorem filter_insertionSort [IsTrans α r] [Std.Total r] (p : α → Bool) (l : List α) :
    (l.insertionSort r).filter p = (l.filter p).insertionSort r := by
  induction l with
  | nil => rfl
  | cons a l ih =>
    rw [List.insertionSort_cons, filter_orderedInsert_sorted p a (List.pairwise_insertionSort r l), ih]
    cases h : p a <;> simp [h]

end Sorting

namespace Faulty

variable {σ ω α β : Type}

/-- A sequence returns when its first part does and the second returns from there. -/
theorem bind_value_eq_some {m : Faulty σ ω α} {f : α → Faulty σ ω β} {s : σ} {b : β} :
    ((m >>= f) s).value = some b ↔
      ∃ a, (m s).value = some a ∧ (f a (m s).state).value = some b := by
  cases h : (m s).value with
  | none => simp [bind_of_none h]
  | some a => simp [bind_of_some h]

end Faulty

namespace Keyed

variable {S κ σ ω α β : Type} [Keyed S κ σ] [DecidableEq κ]

/-- An outcome as it is seen without one key. -/
def eraseOutcome (u : κ) (o : Outcome S (κ × ω) α) : Outcome S (κ × ω) α :=
  ⟨o.value, erase o.state u, o.log.filter fun e => e.1 ≠ u⟩

/-- What a computation does splits into `solo`, what it does to one key, and `m'`, what it does
to the others as long as `solo` does not throw. -/
structure SplitsOff (u : κ) (m m' : Faulty S (κ × ω) Unit) (solo : Faulty σ ω Unit) : Prop where
  returns : ∀ s, (m s).value = some () →
    (solo (slot s u)).value = some () ∧ (solo (slot s u)).state = slot (m s).state u
  erases : ∀ s, (solo (slot s u)).value = some () → m' (erase s u) = eraseOutcome u (m s)

/-- The rule of a sequence: it splits when its parts do. -/
theorem SplitsOff.bind {u : κ} {m₁ m₁' m₂ m₂' : Faulty S (κ × ω) Unit} {solo₁ solo₂ : Faulty σ ω Unit}
    (h₁ : SplitsOff u m₁ m₁' solo₁) (h₂ : SplitsOff u m₂ m₂' solo₂) :
    SplitsOff u (m₁ >>= fun _ => m₂) (m₁' >>= fun _ => m₂') (solo₁ >>= fun _ => solo₂) where
  returns s h := by
    obtain ⟨_, hm₁, hm₂⟩ := bind_value_eq_some.mp h
    obtain ⟨hv₁, hs₁⟩ := h₁.returns s hm₁
    obtain ⟨hv₂, hs₂⟩ := h₂.returns _ hm₂
    rw [bind_of_some hv₁, bind_of_some hm₁]
    rw [hs₁]
    exact ⟨hv₂, hs₂⟩
  erases s h := by
    obtain ⟨_, hv₁, hv₂⟩ := bind_value_eq_some.mp h
    have he₁ := h₁.erases s hv₁
    cases hm₁ : (m₁ s).value with
    | none =>
      have hm₁' : (m₁' (erase s u)).value = none := by rw [he₁]; exact hm₁
      rw [bind_of_none hm₁, bind_of_none hm₁', he₁]
      rfl
    | some _ =>
      have hm₁' : (m₁' (erase s u)).value = some () := by rw [he₁]; exact hm₁
      rw [(h₁.returns s hm₁).2] at hv₂
      rw [bind_of_some hm₁, bind_of_some hm₁', he₁]
      simp only [eraseOutcome, h₂.erases _ hv₂, List.filter_append]

/-- The jobs of one key, as one computation on its slot. -/
def jobsOf (u : κ) (jobs : List (κ × Faulty σ ω Unit)) : Faulty σ ω Unit :=
  forEach id ((jobs.filter fun job => job.1 = u).map Prod.snd)

/-- The jobs of all other keys. -/
def jobsBut (u : κ) (jobs : List (κ × Faulty σ ω Unit)) : List (κ × Faulty σ ω Unit) :=
  jobs.filter fun job => job.1 ≠ u

theorem jobsOf_cons_self (u : κ) (m : Faulty σ ω Unit) (jobs : List (κ × Faulty σ ω Unit)) :
    jobsOf u ((u, m) :: jobs) = (m >>= fun _ => jobsOf u jobs) := by
  simp [jobsOf, forEach]

theorem jobsOf_cons_of_ne {u k : κ} (h : k ≠ u) (m : Faulty σ ω Unit)
    (jobs : List (κ × Faulty σ ω Unit)) : jobsOf u ((k, m) :: jobs) = jobsOf u jobs := by
  simp [jobsOf, h]

theorem onKey_splitsOff_self (u : κ) (m : Faulty σ ω Unit) :
    SplitsOff (S := S) u (onKey u m) (pure ()) m where
  returns s h := ⟨h, (slot_put_self ..).symm⟩
  erases s h := by
    have hlog : ((m (slot s u)).log.map (u, ·)).filter (fun e => e.1 ≠ u) = [] := by simp
    simp only [eraseOutcome, onKey, erase_put_self, hlog, h, pure_apply]

theorem onKey_splitsOff_of_ne {u k : κ} (h : k ≠ u) (m : Faulty σ ω Unit) :
    SplitsOff (S := S) u (onKey k m) (onKey k m) (pure ()) where
  returns s _ := ⟨rfl, (slot_put_of_ne _ _ (Ne.symm h)).symm⟩
  erases s _ := by
    have hlog : ((m (slot s k)).log.map (k, ·)).filter (fun e => e.1 ≠ u) =
        (m (slot s k)).log.map (k, ·) := by
      refine List.filter_eq_self.mpr fun e he => ?_
      obtain ⟨w, -, rfl⟩ := List.mem_map.mp he
      simpa using h
    simp only [eraseOutcome, onKey, slot_erase_of_ne _ h, erase_put_of_ne _ _ h, hlog]

/-- A run of jobs splits into the jobs of one key and those of the others. -/
theorem runJobs_splitsOff (u : κ) (jobs : List (κ × Faulty σ ω Unit)) :
    SplitsOff (S := S) u (runJobs jobs) (runJobs (jobsBut u jobs)) (jobsOf u jobs) := by
  induction jobs with
  | nil => exact ⟨fun _ _ => ⟨rfl, rfl⟩, fun _ _ => rfl⟩
  | cons job jobs ih =>
    obtain ⟨k, m⟩ := job
    by_cases hk : k = u
    · subst hk
      have hbut : jobsBut k ((k, m) :: jobs) = jobsBut k jobs := by simp [jobsBut]
      rw [jobsOf_cons_self, hbut]
      exact (onKey_splitsOff_self k m).bind ih
    · have hbut : jobsBut u ((k, m) :: jobs) = (k, m) :: jobsBut u jobs := by simp [jobsBut, hk]
      rw [jobsOf_cons_of_ne hk, hbut]
      exact (onKey_splitsOff_of_ne hk m).bind ih

end Keyed

end LivelierBridge.Framework
