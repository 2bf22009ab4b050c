import Mathlib.Data.List.Basic

namespace LivelierBridge.Framework

universe u

variable {α : Type u}

/-- A storage cell: each write takes effect at one instant between its call and its completion. -/
structure StorageCell (α : Type u) where
  stored : α
  /-- Writes without effect as yet, in the order of the calls. -/
  waiting : List α
  /-- How many writes have taken effect and not completed. -/
  finishing : Nat

namespace StorageCell

def call (c : StorageCell α) (v : α) : StorageCell α := { c with waiting := c.waiting ++ [v] }

def effect (c : StorageCell α) (i : Nat) : Option (StorageCell α) :=
  match c.waiting[i]? with
  | some v => some ⟨v, c.waiting.eraseIdx i, c.finishing + 1⟩
  | none => none

def complete (c : StorageCell α) : Option (StorageCell α) :=
  if c.finishing = 0 then none else some { c with finishing := c.finishing - 1 }

/-- The write fails before it took effect. -/
def reject (c : StorageCell α) (i : Nat) : Option (StorageCell α) :=
  if i < c.waiting.length then some { c with waiting := c.waiting.eraseIdx i } else none

/-- Every write has completed. -/
def Idle (c : StorageCell α) : Prop := c.waiting = [] ∧ c.finishing = 0

/-- What the cell holds once the writes called so far took effect, in order. -/
def final (c : StorageCell α) : α := c.waiting.getLast?.getD c.stored

section Rules

variable {c d : StorageCell α}

@[simp] theorem final_call (v : α) : (c.call v).final = v := by simp [final, call]

theorem effect_first (h : c.effect 0 = some d) :
    c.waiting = d.stored :: d.waiting ∧ d.finishing = c.finishing + 1 := by
  unfold effect at h
  cases hw : c.waiting with
  | nil => simp [hw] at h
  | cons v rest =>
    simp only [hw, List.getElem?_cons_zero, List.eraseIdx_cons_zero, Option.some.injEq] at h
    simp [← h]

/-- The first write takes effect first. -/
theorem final_effect (h : c.effect 0 = some d) : d.final = c.final := by
  obtain ⟨hw, -⟩ := effect_first h
  unfold final
  rw [hw, List.getLast?_cons]
  rfl

theorem complete_eq (h : c.complete = some d) : d.stored = c.stored ∧ d.waiting = c.waiting := by
  unfold complete at h
  split_ifs at h
  obtain rfl := Option.some.inj h
  exact ⟨rfl, rfl⟩

/-- What a write leaves comes from the writes that waited. -/
theorem effect_from {i : Nat} (h : c.effect i = some d) :
    d.stored ∈ c.waiting ∧ d.waiting ⊆ c.waiting := by
  unfold effect at h
  split at h
  · rename_i v hv
    obtain rfl := Option.some.inj h
    exact ⟨List.mem_of_getElem? hv, List.eraseIdx_subset⟩
  · cases h

theorem reject_from {i : Nat} (h : c.reject i = some d) :
    d.stored = c.stored ∧ d.waiting ⊆ c.waiting := by
  unfold reject at h
  split_ifs at h
  obtain rfl := Option.some.inj h
  exact ⟨rfl, List.eraseIdx_subset⟩

theorem final_complete (h : c.complete = some d) : d.final = c.final := by
  obtain ⟨hs, hw⟩ := complete_eq h
  rw [final, hs, hw]
  rfl

theorem final_idle (h : c.Idle) : c.final = c.stored := by simp [final, h.1]

end Rules

end StorageCell

end LivelierBridge.Framework
