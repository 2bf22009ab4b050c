import Mathlib.Data.List.Forall2

namespace LivelierBridge.Framework

universe u v w

variable {ε : Type v} {α : Type u} {β : Type w}

/-- The computation has a result. -/
def Returns (x : Except ε α) : Prop := ∃ a, x = .ok a

theorem returns_ok (a : α) : Returns (.ok a : Except ε α) := ⟨a, rfl⟩

theorem not_returns_error (e : ε) : ¬ Returns (.error e : Except ε α) := by
  rintro ⟨a, h⟩
  cases h

theorem returns_map (f : α → β) (x : Except ε α) : Returns (x.map f) ↔ Returns x := by
  cases x with
  | error e => exact iff_of_false (not_returns_error e) (not_returns_error e)
  | ok a => exact iff_of_true (returns_ok (f a)) (returns_ok a)

theorem map_eq_ok {f : α → β} {x : Except ε α} {b : β} (h : x.map f = .ok b) :
    ∃ a, x = .ok a ∧ f a = b := by
  cases x with
  | error e => cases h
  | ok a => exact ⟨a, rfl, Except.ok.inj h⟩

theorem returns_bind (x : Except ε α) (f : α → Except ε β) :
    Returns (x.bind f) ↔ ∃ a, x = .ok a ∧ Returns (f a) := by
  cases x with
  | error e =>
    refine iff_of_false (not_returns_error e) ?_
    rintro ⟨a, h, -⟩
    cases h
  | ok a =>
    constructor
    · exact fun h => ⟨a, rfl, h⟩
    · rintro ⟨b, h, hb⟩
      cases h
      exact hb

/-- The results of a list stand under its elements. -/
theorem mapM_eq_ok {f : α → Except ε β} {as : List α} {bs : List β} :
    as.mapM f = .ok bs ↔ List.Forall₂ (fun a b => f a = .ok b) as bs := by
  induction as generalizing bs with
  | nil =>
    rw [List.forall₂_nil_left_iff]
    exact ⟨fun h => (Except.ok.inj h).symm, fun h => h ▸ rfl⟩
  | cons a as ih =>
    rw [List.mapM_cons, List.forall₂_cons_left_iff]
    constructor
    · intro h
      cases ha : f a with
      | error err =>
        rw [ha] at h
        cases h
      | ok b =>
        cases has : as.mapM f with
        | error err =>
          rw [ha, has] at h
          cases h
        | ok rest =>
          rw [ha, has] at h
          obtain rfl := Except.ok.inj h
          exact ⟨b, rest, rfl, ih.mp has, rfl⟩
    · rintro ⟨b, rest, hb, hrest, rfl⟩
      rw [hb, ih.mpr hrest]
      rfl

theorem returns_mapM {f : α → Except ε β} {as : List α} :
    Returns (as.mapM f) ↔ ∀ a ∈ as, Returns (f a) := by
  induction as with
  | nil => exact iff_of_true ⟨[], rfl⟩ (by simp)
  | cons a as ih =>
    rw [List.forall_mem_cons, ← ih]
    constructor
    · rintro ⟨bs, h⟩
      obtain ⟨b, rest, hb, hrest, rfl⟩ := List.forall₂_cons_left_iff.mp (mapM_eq_ok.mp h)
      exact ⟨⟨b, hb⟩, rest, mapM_eq_ok.mpr hrest⟩
    · rintro ⟨⟨b, hb⟩, bs, hbs⟩
      exact ⟨b :: bs, mapM_eq_ok.mpr (.cons hb (mapM_eq_ok.mp hbs))⟩

theorem forall₂_mem_left {R : α → β → Prop} {as : List α} {bs : List β} (h : List.Forall₂ R as bs)
    {a : α} (ha : a ∈ as) : ∃ b ∈ bs, R a b := by
  induction h with
  | nil => cases ha
  | @cons a' b as bs hab _ ih =>
    rcases List.mem_cons.mp ha with rfl | hmem
    · exact ⟨b, List.mem_cons_self, hab⟩
    · obtain ⟨b', hb', hr⟩ := ih hmem
      exact ⟨b', List.mem_cons_of_mem b hb', hr⟩

theorem forall₂_filter_zip {R : α → β → Prop} {as : List α} {bs : List β}
    (h : List.Forall₂ R as bs) (p : α → Bool) :
    List.Forall₂ R (as.filter p) (((as.zip bs).filter fun x => p x.1).map Prod.snd) := by
  induction h with
  | nil => exact .nil
  | @cons a b as bs hab _ ih =>
    rw [List.zip_cons_cons]
    by_cases hp : p a = true
    · rw [List.filter_cons_of_pos hp, List.filter_cons_of_pos (a := (a, b)) hp]
      exact .cons hab ih
    · rw [List.filter_cons_of_neg hp, List.filter_cons_of_neg (a := (a, b)) hp]
      exact ih

/-- What each element keeps, reading a list keeps. -/
theorem foldlM_keeps {f : β → α → Option β} {P : β → Prop}
    (hf : ∀ b a b', P b → f b a = some b' → P b') {as : List α} {b b' : β} (hb : P b)
    (h : as.foldlM f b = some b') : P b' := by
  induction as generalizing b with
  | nil =>
    cases h
    exact hb
  | cons a as ih =>
    obtain ⟨b₁, h₁, h⟩ := Option.bind_eq_some_iff.mp h
    exact ih (hf b a b₁ hb h₁) h

end LivelierBridge.Framework
