import LivelierBridge.Framework.OrderedMap
import Mathlib.Algebra.GroupWithZero.Nat
import Mathlib.Algebra.BigOperators.Group.List.Lemmas

namespace LivelierBridge.Framework

universe u v

/-! ### Statements on a keyed table -/

namespace OrderedMap

variable {κ : Type u} {ν : Type v}

/-- `UPDATE … WHERE …`: change the rows that satisfy a condition. -/
def updateWhere (table : OrderedMap κ ν) (p : ν → Bool) (f : ν → ν) : OrderedMap κ ν :=
  ⟨table.entries.map fun e => (e.1, if p e.2 then f e.2 else e.2), by
    have hkeys : (table.entries.map fun e => (e.1, if p e.2 then f e.2 else e.2)).map Prod.fst =
        table.entries.map Prod.fst := by simp
    exact hkeys ▸ table.nodup⟩

variable {p : ν → Bool} {f : ν → ν}

theorem updateWhere_eq_self {table : OrderedMap κ ν} (h : ∀ row ∈ table.values, p row = false) :
    table.updateWhere p f = table := by
  apply ext_entries
  have hsame : ∀ e ∈ table.entries, (e.1, if p e.2 then f e.2 else e.2) = e := by
    intro e he
    rw [h e.2 (List.mem_map_of_mem he)]
    rfl
  exact (List.map_congr_left hsame).trans (List.map_id _)

theorem values_updateWhere (table : OrderedMap κ ν) (p : ν → Bool) (f : ν → ν) :
    (table.updateWhere p f).values = table.values.map fun row => if p row then f row else row := by
  simp [updateWhere, values]

variable [DecidableEq κ]

theorem get?_updateWhere (table : OrderedMap κ ν) (p : ν → Bool) (f : ν → ν) (key : κ) :
    (table.updateWhere p f).get? key =
      (table.get? key).map fun row => if p row then f row else row := by
  obtain ⟨es, hn⟩ := table
  simp only [updateWhere, get?]
  clear hn
  induction es with
  | nil => rfl
  | cons e es ih =>
    simp only [List.map_cons, find]
    split
    · rfl
    · exact ih

end OrderedMap

/-! ### Counts -/

section Counts

variable {α : Type u} {κ : Type v}

theorem sum_once [DecidableEq κ] {groups : List κ} (hn : groups.Nodup) {k : κ} (hk : k ∈ groups)
    (n : Nat) : (groups.map fun g => if k = g then n else 0).sum = n := by
  induction groups with
  | nil => cases hk
  | cons g groups ih =>
    obtain ⟨hg, hn⟩ := List.nodup_cons.mp hn
    rw [List.map_cons, List.sum_cons]
    by_cases heq : k = g
    · subst heq
      have hzero : (groups.map fun g => if k = g then n else 0) = groups.map fun _ => 0 :=
        List.map_congr_left fun g hmem => if_neg (ne_of_mem_of_not_mem hmem hg).symm
      simp [hzero]
    · rw [if_neg heq, ih hn ((List.mem_cons.mp hk).resolve_left heq), Nat.zero_add]

/-- `GROUP BY`: the counts of the groups add up to the count of the list. -/
theorem sum_groups [DecidableEq κ] (key : α → κ) (p : α → Bool) {groups : List κ}
    (hn : groups.Nodup) {l : List α} (hall : ∀ x ∈ l, key x ∈ groups) :
    (groups.map fun k => (l.filter fun x => key x = k).countP p).sum = l.countP p := by
  induction l with
  | nil => simp
  | cons x l ih =>
    obtain ⟨hx, hl⟩ := List.forall_mem_cons.mp hall
    have hone : (groups.map fun k => if key x = k then (if p x then 1 else 0) else 0).sum =
        if p x then 1 else 0 := sum_once hn hx _
    have hsplit : ∀ k, ((x :: l).filter fun y => key y = k).countP p =
        (if key x = k then (if p x then 1 else 0) else 0) +
          (l.filter fun y => key y = k).countP p := by
      intro k
      by_cases hk : key x = k
      · simp [hk, List.countP_cons, Nat.add_comm]
      · simp [hk]
    simp only [hsplit, List.sum_map_add, hone, ih hl, List.countP_cons]
    omega

/-- Counts add up where each element's do. -/
theorem countP_add {p q r : α → Bool} {l : List α}
    (h : ∀ x, (p x).toNat = (q x).toNat + (r x).toNat) : l.countP p = l.countP q + l.countP r := by
  induction l with
  | nil => rfl
  | cons x l ih =>
    have hx := h x
    rw [List.countP_cons, List.countP_cons, List.countP_cons, ih]
    cases hp : p x <;> cases hq : q x <;> cases hr : r x <;> simp [hp, hq, hr] at hx ⊢ <;> omega

end Counts

end LivelierBridge.Framework
