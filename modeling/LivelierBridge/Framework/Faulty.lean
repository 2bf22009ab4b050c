import Mathlib.Data.List.Basic

namespace LivelierBridge.Framework

/-- What a computation leaves behind; it has no value when it threw. -/
structure Outcome (σ ω α : Type) where
  value : Option α
  state : σ
  log : List ω

/-- A computation on a state that keeps a log and may throw; what it did until then stays. -/
def Faulty (σ ω α : Type) := σ → Outcome σ ω α

namespace Faulty

variable {σ ω α β : Type}

instance : Monad (Faulty σ ω) where
  pure a := fun s => ⟨some a, s, []⟩
  bind m f := fun s =>
    match (m s).value with
    | none => ⟨none, (m s).state, (m s).log⟩
    | some a => ⟨(f a (m s).state).value, (f a (m s).state).state,
        (m s).log ++ (f a (m s).state).log⟩

/-- Wait for an answer; the computation throws when there is none. -/
def await (x : Option α) : Faulty σ ω α := fun s => ⟨x, s, []⟩

def get : Faulty σ ω σ := fun s => ⟨some s, s, []⟩

def modify (f : σ → σ) : Faulty σ ω Unit := fun s => ⟨some (), f s, []⟩

def tell (w : ω) : Faulty σ ω Unit := fun s => ⟨some (), s, [w]⟩

/-- Do the same for each element in order; the first throw ends it. -/
def forEach (f : β → Faulty σ ω Unit) : List β → Faulty σ ω Unit
  | [] => pure ()
  | b :: bs => f b >>= fun _ => forEach f bs

@[simp] theorem pure_apply (a : α) (s : σ) :
    (pure a : Faulty σ ω α) s = ⟨some a, s, []⟩ := rfl

@[simp] theorem await_apply (x : Option α) (s : σ) :
    (await x : Faulty σ ω α) s = ⟨x, s, []⟩ := rfl

@[simp] theorem get_apply (s : σ) : (get : Faulty σ ω σ) s = ⟨some s, s, []⟩ := rfl

@[simp] theorem modify_apply (f : σ → σ) (s : σ) :
    (modify f : Faulty σ ω Unit) s = ⟨some (), f s, []⟩ := rfl

@[simp] theorem tell_apply (w : ω) (s : σ) :
    (tell w : Faulty σ ω Unit) s = ⟨some (), s, [w]⟩ := rfl

theorem bind_of_none {m : Faulty σ ω α} {f : α → Faulty σ ω β} {s : σ}
    (h : (m s).value = none) : (m >>= f) s = ⟨none, (m s).state, (m s).log⟩ := by
  simp only [bind, h]

theorem bind_of_some {m : Faulty σ ω α} {f : α → Faulty σ ω β} {s : σ} {a : α}
    (h : (m s).value = some a) :
    (m >>= f) s = ⟨(f a (m s).state).value, (f a (m s).state).state,
      (m s).log ++ (f a (m s).state).log⟩ := by
  simp only [bind, h]

@[simp] theorem await_none_bind (f : α → Faulty σ ω β) (s : σ) :
    ((await none : Faulty σ ω α) >>= f) s = ⟨none, s, []⟩ := rfl

@[simp] theorem await_some_bind (a : α) (f : α → Faulty σ ω β) (s : σ) :
    ((await (some a) : Faulty σ ω α) >>= f) s = f a s := rfl

@[simp] theorem pure_bind_apply (a : α) (f : α → Faulty σ ω β) (s : σ) :
    ((pure a : Faulty σ ω α) >>= f) s = f a s := rfl

@[simp] theorem get_bind (f : σ → Faulty σ ω β) (s : σ) :
    ((get : Faulty σ ω σ) >>= f) s = f s s := rfl

@[simp] theorem modify_bind (g : σ → σ) (f : Unit → Faulty σ ω β) (s : σ) :
    ((modify g : Faulty σ ω Unit) >>= f) s = f () (g s) := rfl

@[simp] theorem tell_bind (w : ω) (f : Unit → Faulty σ ω β) (s : σ) :
    ((tell w : Faulty σ ω Unit) >>= f) s =
      ⟨(f () s).value, (f () s).state, w :: (f () s).log⟩ := rfl

theorem forEach_singleton (f : β → Faulty σ ω Unit) (b : β) : forEach f [b] = f b := by
  funext s
  cases h : (f b s).value with
  | none =>
    rw [forEach, bind_of_none h, ← h]
  | some a =>
    rw [forEach, bind_of_some h]
    simp only [forEach, pure_apply, List.append_nil]
    rw [← h]

/-- The rule of a sequence: what holds where the first part throws, and where the second part
goes on from a value of the first, holds of the whole. -/
theorem bind_rule {m : Faulty σ ω α} {f : α → Faulty σ ω β} {s : σ}
    {P : Outcome σ ω β → Prop}
    (hthrow : (m s).value = none → P ⟨none, (m s).state, (m s).log⟩)
    (hgo : ∀ a, (m s).value = some a → P ⟨(f a (m s).state).value, (f a (m s).state).state,
      (m s).log ++ (f a (m s).state).log⟩) :
    P ((m >>= f) s) := by
  cases h : (m s).value with
  | none => rw [bind_of_none h]; exact hthrow h
  | some a => rw [bind_of_some h]; exact hgo a h

/-- Whatever the computation logs has the property. -/
def Logs (P : ω → Prop) (m : Faulty σ ω α) : Prop := ∀ s, ∀ w ∈ (m s).log, P w

section Logs

variable {P : ω → Prop}

theorem logs_pure (a : α) : Logs P (pure a : Faulty σ ω α) := fun _ _ h => absurd h List.not_mem_nil

theorem logs_await (x : Option α) : Logs P (await x : Faulty σ ω α) :=
  fun _ _ h => absurd h List.not_mem_nil

theorem logs_get : Logs P (get : Faulty σ ω σ) := fun _ _ h => absurd h List.not_mem_nil

theorem logs_modify (f : σ → σ) : Logs P (modify f : Faulty σ ω Unit) :=
  fun _ _ h => absurd h List.not_mem_nil

theorem logs_tell {w : ω} (h : P w) : Logs P (tell w : Faulty σ ω Unit) := by
  intro _ x hx
  rw [List.mem_singleton.mp hx]
  exact h

theorem Logs.bind {m : Faulty σ ω α} {f : α → Faulty σ ω β} (hm : Logs P m)
    (hf : ∀ a, Logs P (f a)) : Logs P (m >>= f) := by
  intro s
  apply bind_rule (P := fun o => ∀ w ∈ o.log, P w)
  · intro _
    exact hm s
  · intro a _ w hw
    rcases List.mem_append.mp hw with h | h
    · exact hm s w h
    · exact hf a _ w h

/-- The computation goes on only with the answer that there is. -/
theorem Logs.await_bind {x : Option α} {f : α → Faulty σ ω β} (h : ∀ a, x = some a → Logs P (f a)) :
    Logs P (await x >>= f) := by
  cases x with
  | none => exact fun _ _ hw => absurd hw List.not_mem_nil
  | some a => exact h a rfl

theorem Logs.ite {c : Prop} [Decidable c] {m m' : Faulty σ ω α} (h : Logs P m)
    (h' : Logs P m') : Logs P (if c then m else m') := by
  split
  · exact h
  · exact h'

theorem logs_forEach {f : β → Faulty σ ω Unit} {bs : List β} (h : ∀ b ∈ bs, Logs P (f b)) :
    Logs P (forEach f bs) := by
  induction bs with
  | nil => exact logs_pure ()
  | cons b bs ih =>
    obtain ⟨hb, hbs⟩ := List.forall_mem_cons.mp h
    exact hb.bind fun _ => ih hbs

end Logs

end Faulty

end LivelierBridge.Framework
