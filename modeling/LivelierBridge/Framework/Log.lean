import Mathlib.Data.List.Induction

namespace LivelierBridge.Framework

universe u

variable {ε : Type u} {needs : ε → ε → Prop} {log : List ε}

/-- Every entry of the log is right after the entries before it. -/
def Justified (right : List ε → ε → Prop) (log : List ε) : Prop :=
  ∀ pre e post, log = pre ++ e :: post → right pre e

theorem justified_nil (right : List ε → ε → Prop) : Justified right [] := by
  intro pre e post h
  simp at h

theorem Justified.concat {right : List ε → ε → Prop} (h : Justified right log) {e : ε}
    (he : right log e) : Justified right (log ++ [e]) := by
  intro pre x post hl
  cases post using List.reverseRecOn with
  | nil =>
    obtain ⟨rfl, rfl⟩ : log = pre ∧ e = x := by simpa using hl
    exact he
  | append_singleton post y =>
    have hsplit : log ++ [e] = (pre ++ x :: post) ++ [y] := by simpa using hl
    obtain ⟨hlog, -⟩ := List.append_inj' hsplit rfl
    exact h pre x post hlog

/-- Every entry of the log stands behind all the entries it needs. -/
def Founded (needs : ε → ε → Prop) (log : List ε) : Prop :=
  ∀ pre e post, log = pre ++ e :: post → ∀ n, needs e n → n ∈ pre

theorem founded_nil (needs : ε → ε → Prop) : Founded needs [] :=
  justified_nil fun pre e => ∀ n, needs e n → n ∈ pre

theorem Founded.concat (h : Founded needs log) {e : ε} (he : ∀ n, needs e n → n ∈ log) :
    Founded needs (log ++ [e]) :=
  have hjustified : Justified (fun pre e => ∀ n, needs e n → n ∈ pre) log := h
  hjustified.concat he

/-- Entries may be appended that need nothing but what the log already has. -/
theorem Founded.append (h : Founded needs log) {es : List ε}
    (hes : ∀ e ∈ es, ∀ n, needs e n → n ∈ log) : Founded needs (log ++ es) := by
  induction es generalizing log with
  | nil => simpa using h
  | cons e es ih =>
    obtain ⟨he, hes⟩ := List.forall_mem_cons.mp hes
    have hlog := ih (h.concat he) fun x hx n hn => List.mem_append_left _ (hes x hx n hn)
    simpa using hlog

end LivelierBridge.Framework
