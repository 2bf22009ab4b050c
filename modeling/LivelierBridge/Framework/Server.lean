import Mathlib.Logic.Function.Basic

namespace LivelierBridge.Framework

universe u v

/-- What a session has open; the writes of a transaction are its own until it commits. -/
inductive Txn (ω : Type v)
  | idle
  | active (writes : List ω)
  | aborted

structure ServerSession (ω : Type v) where
  alive : Bool
  txn : Txn ω

/-- A database server: the committed data, the sessions, and the one that holds the advisory lock. -/
structure Server (σ : Type u) (ω : Type v) where
  data : σ
  sessions : Nat → ServerSession ω
  lock : Option Nat

inductive Statement (ω : Type v)
  | lock
  | unlock
  | begin
  | write (w : ω)
  | read
  | commit
  | rollback

def Statement.endsTxn {ω : Type v} : Statement ω → Bool
  | .commit | .rollback => true
  | .lock | .unlock | .begin | .write _ | .read => false

namespace Server

variable {σ : Type u} {ω : Type v}

/-- All sessions are open and idle, and nobody holds the lock. -/
def start (data : σ) : Server σ ω := ⟨data, fun _ => ⟨true, .idle⟩, none⟩

def withTxn (s : Server σ ω) (p : Nat) (txn : Txn ω) : Server σ ω :=
  { s with sessions := Function.update s.sessions p ⟨(s.sessions p).alive, txn⟩ }

/-- A lost session executes nothing, an aborted transaction only its end, and the lock has one
holder. -/
def accepts (s : Server σ ω) (p : Nat) (statement : Statement ω) : Bool :=
  (s.sessions p).alive &&
    match (s.sessions p).txn with
    | .aborted => statement.endsTxn
    | .idle | .active _ =>
      match statement with
      | .lock => s.lock == none || s.lock == some p
      | .unlock | .begin | .write _ | .read | .commit | .rollback => true

def exec (apply : σ → ω → σ) (s : Server σ ω) (p : Nat) : Statement ω → Server σ ω
  | .lock => { s with lock := some p }
  | .unlock => { s with lock := if s.lock = some p then none else s.lock }
  | .begin =>
    match (s.sessions p).txn with
    | .idle => s.withTxn p (.active [])
    | .active _ | .aborted => s
  | .write w =>
    match (s.sessions p).txn with
    | .active writes => s.withTxn p (.active (writes ++ [w]))
    | .idle | .aborted => { s with data := apply s.data w }
  | .read => s
  | .commit =>
    match (s.sessions p).txn with
    | .active writes => { s.withTxn p .idle with data := writes.foldl apply s.data }
    | .idle | .aborted => s.withTxn p .idle
  | .rollback => s.withTxn p .idle

/-- A rejected statement has no effect of its own: the transaction it came in is aborted, or, as after
a failed commit, already rolled back. -/
def reject (s : Server σ ω) (p : Nat) (rolledBack : Bool) : Server σ ω :=
  match (s.sessions p).txn with
  | .active _ => s.withTxn p (if rolledBack then .idle else .aborted)
  | .idle | .aborted => s

/-- With its session go its transaction and its lock. -/
def endSession (s : Server σ ω) (p : Nat) : Server σ ω :=
  { s with
    sessions := Function.update s.sessions p ⟨false, .idle⟩
    lock := if s.lock = some p then none else s.lock }

section Frame

variable {apply : σ → ω → σ} {s : Server σ ω} {p q : Nat} {statement : Statement ω} {txn : Txn ω}
  {rolledBack : Bool}

@[simp] theorem withTxn_data : (s.withTxn p txn).data = s.data := rfl

@[simp] theorem withTxn_lock : (s.withTxn p txn).lock = s.lock := rfl

@[simp] theorem withTxn_self : (s.withTxn p txn).sessions p = ⟨(s.sessions p).alive, txn⟩ :=
  Function.update_self ..

theorem withTxn_of_ne (h : q ≠ p) : (s.withTxn p txn).sessions q = s.sessions q :=
  Function.update_of_ne h ..

@[simp] theorem withTxn_alive : ((s.withTxn p txn).sessions q).alive = (s.sessions q).alive := by
  by_cases h : q = p
  · rw [h, withTxn_self]
  · rw [withTxn_of_ne h]

theorem alive_of_accepts (h : s.accepts p statement = true) : (s.sessions p).alive = true :=
  (Bool.and_eq_true_iff.mp h).1

/-- A statement touches no other session. -/
theorem exec_of_ne (h : q ≠ p) : (s.exec apply p statement).sessions q = s.sessions q := by
  cases statement with
  | lock | unlock | read => rfl
  | rollback => exact withTxn_of_ne h
  | begin | write | commit =>
    simp only [exec]
    split <;> simp [withTxn_of_ne h]

theorem exec_alive : ((s.exec apply p statement).sessions q).alive = (s.sessions q).alive := by
  cases statement with
  | lock | unlock | read => rfl
  | rollback => exact withTxn_alive
  | begin | write | commit =>
    simp only [exec]
    split <;> simp

theorem exec_lock : (s.exec apply p statement).lock =
    match statement with
    | .lock => some p
    | .unlock => if s.lock = some p then none else s.lock
    | .begin | .write _ | .read | .commit | .rollback => s.lock := by
  cases statement with
  | lock | unlock | read | rollback => rfl
  | begin | write | commit =>
    simp only [exec]
    split <;> rfl

theorem exec_lock_of_other (hlock : statement ≠ .lock) (hunlock : statement ≠ .unlock) :
    (s.exec apply p statement).lock = s.lock := by
  rw [exec_lock]
  cases statement with
  | lock => exact absurd rfl hlock
  | unlock => exact absurd rfl hunlock
  | begin | write | read | commit | rollback => rfl

theorem lock_of_accepts (h : s.accepts p .lock = true) : s.lock = none ∨ s.lock = some p := by
  have hand := (Bool.and_eq_true_iff.mp h).2
  split at hand
  · exact nomatch hand
  · simpa using hand
  · simpa using hand

/-- What is given up is the session's own. -/
theorem unlock_lock (apply : σ → ω → σ) :
    (s.exec apply p .unlock).lock = some q ↔ s.lock = some q ∧ q ≠ p := by
  simp only [exec]
  by_cases h : s.lock = some p
  · simp only [h, Option.some.injEq, reduceCtorEq, false_iff, not_and, if_true]
    omega
  · rw [if_neg h]
    constructor
    · intro hq
      exact ⟨hq, fun hp => h (hp ▸ hq)⟩
    · exact And.left

theorem reject_of_ne (h : q ≠ p) : (s.reject p rolledBack).sessions q = s.sessions q := by
  simp only [reject]
  split
  · exact withTxn_of_ne h
  · rfl
  · rfl

theorem reject_alive : ((s.reject p rolledBack).sessions q).alive = (s.sessions q).alive := by
  simp only [reject]
  split <;> simp

@[simp] theorem reject_data : (s.reject p rolledBack).data = s.data := by
  simp only [reject]
  split <;> rfl

@[simp] theorem reject_lock : (s.reject p rolledBack).lock = s.lock := by
  simp only [reject]
  split <;> rfl

/-- A session that is not in a transaction is not in one after a rejected statement either. -/
theorem reject_idle (h : (s.sessions p).txn = .idle) : s.reject p rolledBack = s := by
  simp only [reject, h]

@[simp] theorem endSession_data : (s.endSession p).data = s.data := rfl

theorem endSession_of_ne (h : q ≠ p) : (s.endSession p).sessions q = s.sessions q :=
  Function.update_of_ne h ..

@[simp] theorem endSession_self : (s.endSession p).sessions p = ⟨false, .idle⟩ :=
  Function.update_self ..

/-- The end of a session takes the lock from nobody else. -/
theorem endSession_lock : (s.endSession p).lock = some q ↔ s.lock = some q ∧ q ≠ p :=
  unlock_lock fun d _ => d

end Frame

end Server

end LivelierBridge.Framework
