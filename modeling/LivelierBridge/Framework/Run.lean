import Mathlib.Data.List.Induction
import Mathlib.Logic.Function.Iterate

namespace LivelierBridge.Framework

universe u v

variable {σ : Type u} {α : Type v}

/-- Take the actions in order; no result when one of them is not enabled. -/
def run (step : σ → α → Option σ) : σ → List α → Option σ
  | s, [] => some s
  | s, a :: as =>
    match step s a with
    | none => none
    | some s' => run step s' as

/-- Every action of the run meets `guard` in the state it is taken from. -/
def Guarded (step : σ → α → Option σ) (guard : σ → α → Prop) : σ → List α → Prop
  | _, [] => True
  | s, a :: as => guard s a ∧ (step s a).elim True fun s' => Guarded step guard s' as

instance Guarded.decidable (step : σ → α → Option σ) (guard : σ → α → Prop)
    [∀ s a, Decidable (guard s a)] : ∀ s as, Decidable (Guarded step guard s as)
  | _, [] => inferInstanceAs (Decidable True)
  | s, a :: as =>
    have : Decidable ((step s a).elim True fun s' => Guarded step guard s' as) :=
      match step s a with
      | none => inferInstanceAs (Decidable True)
      | some s' => Guarded.decidable step guard s' as
    inferInstanceAs (Decidable (_ ∧ _))

theorem Guarded.tail {step : σ → α → Option σ} {guard : σ → α → Prop} {s s' : σ} {a : α}
    {as : List α} (h : Guarded step guard s (a :: as)) (hs : step s a = some s') :
    Guarded step guard s' as := by
  simpa [hs] using h.2

@[simp] theorem run_nil (step : σ → α → Option σ) (s : σ) : run step s [] = some s := rfl

theorem run_cons_eq_some {step : σ → α → Option σ} {s t : σ} {a : α} {as : List α} :
    run step s (a :: as) = some t ↔ ∃ s', step s a = some s' ∧ run step s' as = some t := by
  cases h : step s a with
  | none => simp [run, h]
  | some s' => simp [run, h]

theorem run_append_eq_some {step : σ → α → Option σ} {s t : σ} {as bs : List α} :
    run step s (as ++ bs) = some t ↔ ∃ m, run step s as = some m ∧ run step m bs = some t := by
  induction as generalizing s with
  | nil => simp
  | cons a as ih =>
    simp only [List.cons_append, run_cons_eq_some, ih]
    constructor
    · rintro ⟨s', hs, m, hm, ht⟩
      exact ⟨m, ⟨s', hs, hm⟩, ht⟩
    · rintro ⟨m, ⟨s', hs, hm⟩, ht⟩
      exact ⟨s', hs, m, hm, ht⟩

/-- The run rule: what each guarded step preserves holds in every state a guarded run reaches. -/
theorem run_invariant {step : σ → α → Option σ} {guard : σ → α → Prop} {inv : σ → Prop}
    (hstep : ∀ s a s', inv s → guard s a → step s a = some s' → inv s')
    {s t : σ} {as : List α} (hs : inv s) (hg : Guarded step guard s as)
    (hr : run step s as = some t) : inv t := by
  induction as generalizing s with
  | nil =>
    obtain rfl : s = t := by simpa using hr
    exact hs
  | cons a as ih =>
    obtain ⟨s', hs', ht⟩ := run_cons_eq_some.mp hr
    exact ih (hstep s a s' hs hg.1 hs') (hg.tail hs') ht

theorem guarded_true (step : σ → α → Option σ) (s : σ) (as : List α) :
    Guarded step (fun _ _ => True) s as := by
  induction as generalizing s with
  | nil => trivial
  | cons a as ih =>
    refine ⟨trivial, ?_⟩
    cases step s a with
    | none => trivial
    | some s' => exact ih s'

/-- The run rule without a guard. -/
theorem run_invariant_all {step : σ → α → Option σ} {inv : σ → Prop}
    (hstep : ∀ s a s', inv s → step s a = some s' → inv s')
    {s t : σ} {as : List α} (hs : inv s) (hr : run step s as = some t) : inv t :=
  run_invariant (fun s a s' hi _ h => hstep s a s' hi h) hs (guarded_true step s as) hr

/-- The run rule for an invariant that speaks about the actions taken so far. -/
theorem run_history {step : σ → α → Option σ} {inv : List α → σ → Prop} {s : σ}
    (h0 : inv [] s)
    (hstep : ∀ as m a m', run step s as = some m → inv as m → step m a = some m' →
      inv (as ++ [a]) m')
    {as : List α} {t : σ} (hr : run step s as = some t) : inv as t := by
  induction as using List.reverseRecOn generalizing t with
  | nil =>
    obtain rfl : s = t := by simpa using hr
    exact h0
  | append_singleton as a ih =>
    obtain ⟨m, hm, ht⟩ := run_append_eq_some.mp hr
    obtain ⟨m', hm', hn⟩ := run_cons_eq_some.mp ht
    obtain rfl : m' = t := by simpa using hn
    exact hstep as m a m' hm (ih hm) hm'

theorem Guarded.mono {step : σ → α → Option σ} {g g' : σ → α → Prop}
    (hgg : ∀ s a, g s a → g' s a) {s : σ} {as : List α} (h : Guarded step g s as) :
    Guarded step g' s as := by
  induction as generalizing s with
  | nil => trivial
  | cons a as ih =>
    refine ⟨hgg s a h.1, ?_⟩
    cases hs : step s a with
    | none => trivial
    | some s' => exact ih (h.tail hs)

theorem guarded_of_forall {step : σ → α → Option σ} {p : α → Prop} {as : List α}
    (h : ∀ a ∈ as, p a) (s : σ) : Guarded step (fun _ => p) s as := by
  induction as generalizing s with
  | nil => trivial
  | cons a as ih =>
    obtain ⟨ha, has⟩ := List.forall_mem_cons.mp h
    refine ⟨ha, ?_⟩
    cases step s a with
    | none => trivial
    | some s' => exact ih has s'

theorem Guarded.and {step : σ → α → Option σ} {g g' : σ → α → Prop} {s : σ} {as : List α}
    (h : Guarded step g s as) (h' : Guarded step g' s as) :
    Guarded step (fun s a => g s a ∧ g' s a) s as := by
  induction as generalizing s with
  | nil => trivial
  | cons a as ih =>
    refine ⟨⟨h.1, h'.1⟩, ?_⟩
    cases hs : step s a with
    | none => trivial
    | some s' => exact ih (h.tail hs) (h'.tail hs)

/-- A run is guarded when the guard holds wherever the run gets to. -/
theorem guarded_iff {step : σ → α → Option σ} {guard : σ → α → Prop} {s : σ} {as : List α} :
    Guarded step guard s as ↔ ∀ as₁ a as₂ m, as = as₁ ++ a :: as₂ → run step s as₁ = some m →
      guard m a := by
  constructor
  · intro h as₁ a as₂ m has hm
    subst has
    induction as₁ generalizing s with
    | nil =>
      obtain rfl : s = m := by simpa using hm
      exact h.1
    | cons b bs ih =>
      obtain ⟨s', hs, hm⟩ := run_cons_eq_some.mp hm
      exact ih hm (h.tail hs)
  · intro h
    induction as generalizing s with
    | nil => trivial
    | cons a as ih =>
      refine ⟨h [] a as s rfl rfl, ?_⟩
      cases hs : step s a with
      | none => trivial
      | some s' =>
        apply ih
        intro as₁ b as₂ m has hm
        exact h (a :: as₁) b as₂ m (by rw [has]; rfl) (run_cons_eq_some.mpr ⟨s', hs, hm⟩)

/-- Two guards that agree wherever a guarded run steps from guard it alike. -/
theorem guarded_congr {step : σ → α → Option σ} {guard p q : σ → α → Prop} {inv : σ → Prop}
    (hinv : ∀ s a s', inv s → step s a = some s' → inv s')
    (hpq : ∀ s a s', inv s → guard s a → step s a = some s' → (p s a ↔ q s a))
    {s t : σ} {as : List α} (hs : inv s) (hg : Guarded step guard s as)
    (hr : run step s as = some t) : Guarded step p s as ↔ Guarded step q s as := by
  induction as generalizing s with
  | nil => exact Iff.rfl
  | cons a as ih =>
    obtain ⟨s', hs', ht⟩ := run_cons_eq_some.mp hr
    apply and_congr (hpq s a s' hs hg.1 hs')
    rw [hs']
    exact ih (hinv s a s' hs hs') (hg.tail hs') ht

/-- The run rule for an exact guard: when a step keeps `p` exactly where it is guarded, `p` holds all
along a run exactly when the run is guarded. -/
theorem guarded_iff_forall_prefix {step : σ → α → Option σ} {guard : σ → α → Prop} {inv p : σ → Prop}
    (hinv : ∀ s a s', inv s → step s a = some s' → inv s')
    (hstep : ∀ s a s', inv s → p s → step s a = some s' → (p s' ↔ guard s a))
    {s t : σ} {as : List α} (hs : inv s) (hp : p s) (hr : run step s as = some t) :
    (∀ as₁ as₂ m, as = as₁ ++ as₂ → run step s as₁ = some m → p m) ↔ Guarded step guard s as := by
  induction as generalizing s with
  | nil =>
    refine ⟨fun _ => trivial, fun _ as₁ as₂ m has hm => ?_⟩
    obtain rfl : as₁ = [] := (List.append_eq_nil_iff.mp has.symm).1
    obtain rfl : s = m := by simpa using hm
    exact hp
  | cons a as ih =>
    obtain ⟨s', hs', ht⟩ := run_cons_eq_some.mp hr
    have hi : inv s' := hinv s a s' hs hs'
    have hexact := hstep s a s' hs hp hs'
    constructor
    · intro h
      have hp' : p s' := h [a] as s' rfl (run_cons_eq_some.mpr ⟨s', hs', rfl⟩)
      have htail : Guarded step guard s' as := by
        apply (ih hi hp' ht).mp
        intro as₁ as₂ m has hm
        exact h (a :: as₁) as₂ m (by rw [has]; rfl) (run_cons_eq_some.mpr ⟨s', hs', hm⟩)
      refine ⟨hexact.mp hp', ?_⟩
      rw [hs']
      exact htail
    · intro hg as₁ as₂ m has hm
      have hp' : p s' := hexact.mpr hg.1
      cases as₁ with
      | nil =>
        obtain rfl : s = m := by simpa using hm
        exact hp
      | cons b as₁ =>
        obtain ⟨rfl, hrest⟩ := List.cons.inj has
        obtain ⟨m', hm', hm⟩ := run_cons_eq_some.mp hm
        obtain rfl : s' = m' := Option.some.inj (hs'.symm.trans hm')
        exact (ih hi hp' ht).mpr (hg.tail hs') as₁ as₂ m hrest hm

/-- What is left of a guarded run is guarded from the state reached. -/
theorem Guarded.append_right {step : σ → α → Option σ} {g : σ → α → Prop} {s t : σ}
    {as bs : List α} (h : Guarded step g s (as ++ bs)) (hr : run step s as = some t) :
    Guarded step g t bs := by
  induction as generalizing s with
  | nil =>
    obtain rfl : s = t := by simpa using hr
    exact h
  | cons a as ih =>
    obtain ⟨s', hs', ht⟩ := run_cons_eq_some.mp hr
    exact ih (h.tail hs') ht

theorem Guarded.append_left {step : σ → α → Option σ} {g : σ → α → Prop} {s : σ}
    {as bs : List α} (h : Guarded step g s (as ++ bs)) : Guarded step g s as := by
  induction as generalizing s with
  | nil => trivial
  | cons a as ih =>
    refine ⟨h.1, ?_⟩
    cases hs : step s a with
    | none => trivial
    | some s' => exact ih (h.tail hs)

/-- A run with one more action -/
theorem guarded_concat {step : σ → α → Option σ} {g : σ → α → Prop} {s m : σ} {as : List α} {a : α}
    (hr : run step s as = some m) :
    Guarded step g s (as ++ [a]) ↔ Guarded step g s as ∧ g m a := by
  constructor
  · exact fun h => ⟨h.append_left, (h.append_right hr).1⟩
  · rintro ⟨h, ha⟩
    apply guarded_iff.mpr
    intro as₁ b as₂ n has hn
    cases as₂ using List.reverseRecOn with
    | nil =>
      obtain ⟨rfl, hb⟩ := List.append_inj' has rfl
      obtain rfl := List.singleton_inj.mp hb
      obtain rfl := Option.some.inj (hr.symm.trans hn)
      exact ha
    | append_singleton as₂ c =>
      have hsplit : as ++ [a] = (as₁ ++ b :: as₂) ++ [c] := by simpa using has
      obtain ⟨rfl, -⟩ := List.append_inj' hsplit rfl
      exact guarded_iff.mp h as₁ b as₂ n rfl hn

end LivelierBridge.Framework
