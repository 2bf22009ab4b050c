import LivelierBridge.Database.Migrations

namespace LivelierBridge.Database

open Framework Js

section Pending

variable {all : List Migration} {applied : List Int} {m : Migration}

theorem mem_pendingMigrations :
    m ∈ pendingMigrations all applied ↔ m ∈ all ∧ m.version ∉ applied := by
  simp [pendingMigrations, List.mem_filter, List.mem_insertionSort]

instance : IsTrans Migration fun a b => a.version ≤ b.version := ⟨fun _ _ _ => le_trans⟩

instance : Std.Total fun a b : Migration => a.version ≤ b.version := ⟨fun _ _ => le_total _ _⟩

theorem nodup_pendingMigrations (applied : List Int) (h : (all.map Migration.version).Nodup) :
    ((pendingMigrations all applied).map Migration.version).Nodup := by
  have hsub : (pendingMigrations all applied).Sublist
      (all.insertionSort fun a b => a.version ≤ b.version) := List.filter_sublist
  have hperm := (List.perm_insertionSort (fun a b : Migration => a.version ≤ b.version) all).map
    Migration.version
  exact (hsub.map Migration.version).nodup (hperm.nodup_iff.mpr h)

/-- Pending migrations run in ascending version order. -/
theorem pendingMigrations_ascending (applied : List Int) (h : (all.map Migration.version).Nodup) :
    (pendingMigrations all applied).Pairwise fun a b => a.version < b.version := by
  have hsorted : (pendingMigrations all applied).Pairwise fun a b => a.version ≤ b.version :=
    (List.pairwise_insertionSort _ all).filter _
  have hnodup := List.pairwise_map.mp (nodup_pendingMigrations applied h)
  exact hsorted.imp₂ (fun _ _ hle hne => lt_of_le_of_ne hle hne) hnodup

end Pending

namespace MigrationPhase

/-- The phases in which the call has the lock, when its session is alive. -/
def inside : MigrationPhase → Bool
  | .creating | .reading | .migrating _ _ _ | .rollingBack _ _ => true
  | .notCalled | .connecting | .locking | .unlocking _ | .finished _ => false

def pastLock : MigrationPhase → Bool
  | .notCalled | .connecting | .locking => false
  | .creating | .reading | .migrating _ _ _ | .rollingBack _ _ | .unlocking _ | .finished _ => true

def isMigrating : MigrationPhase → Bool
  | .migrating _ _ _ => true
  | .notCalled | .connecting | .locking | .creating | .reading | .rollingBack _ _ | .unlocking _
  | .finished _ => false

def isUnlocking : MigrationPhase → Bool
  | .unlocking _ => true
  | .notCalled | .connecting | .locking | .creating | .reading | .migrating _ _ _ | .rollingBack _ _
  | .finished _ => false

def isFinished : MigrationPhase → Bool
  | .finished _ => true
  | .notCalled | .connecting | .locking | .creating | .reading | .migrating _ _ _ | .rollingBack _ _
  | .unlocking _ => false

def hasClient : MigrationPhase → Bool
  | .notCalled | .connecting | .finished _ => false
  | .locking | .creating | .reading | .migrating _ _ _ | .rollingBack _ _ | .unlocking _ => true

/-- The transaction that the call has open on its session, where it knows. -/
def HasTxn (txn : Txn SchemaWrite) : MigrationPhase → Prop
  | .notCalled | .connecting | .locking | .creating | .reading | .migrating .begin _ _ => txn = .idle
  | .migrating .sql _ _ => txn = .active []
  | .migrating .insert m _ => txn = .active [.runSql m]
  | .migrating .commit m _ => txn = .active [.runSql m, .insert m.version]
  | .rollingBack _ _ | .unlocking _ | .finished _ => True

@[simp] theorem forPending_pastLock (count : Nat) (rest : List Migration) :
    (forPending count rest).pastLock = true := by
  cases rest with
  | nil | cons => rfl

@[simp] theorem forPending_isFinished (count : Nat) (rest : List Migration) :
    (forPending count rest).isFinished = false := by
  cases rest with
  | nil | cons => rfl

@[simp] theorem forPending_hasClient (count : Nat) (rest : List Migration) :
    (forPending count rest).hasClient = true := by
  cases rest with
  | nil | cons => rfl

theorem forPending_hasTxn (count : Nat) (rest : List Migration) :
    HasTxn .idle (forPending count rest) := by
  cases rest with
  | nil => trivial
  | cons => rfl

end MigrationPhase

namespace MigrationCall

/-- A call that returns is through with its pending migrations; one that throws has stopped at the
migration that failed, if it got as far as to read which are pending. -/
def Ended (c : MigrationCall) : MigrationOutcome → Prop
  | .returned count => c.applied.isSome = true ∧ c.committed = c.pending ∧ count = c.pending.length
  | .threw _ => c.applied = none ∧ c.pending = [] ∧ c.committed = [] ∨
      c.applied.isSome = true ∧ ∃ m, c.failed = some m ∧ c.committed ++ [m] <+: c.pending

/-- How far a call is through with its pending migrations. -/
def Staged (c : MigrationCall) : Prop :=
  match c.phase with
  | .notCalled | .connecting | .locking | .creating | .reading =>
    c.applied = none ∧ c.pending = [] ∧ c.committed = []
  | .migrating _ m rest => c.applied.isSome = true ∧ c.pending = c.committed ++ m :: rest
  | .rollingBack m _ =>
    c.applied.isSome = true ∧ c.failed = some m ∧ c.committed ++ [m] <+: c.pending
  | .unlocking outcome | .finished outcome => c.Ended outcome

variable {c : MigrationCall} {migrations : List Migration} {rows : List Int} {reason : JsString}

theorem staged_forPending {rest : List Migration} (happlied : c.applied.isSome = true)
    (h : c.pending = c.committed ++ rest) :
    Staged { c with phase := .forPending c.pending.length rest } := by
  cases rest with
  | nil =>
    rw [List.append_nil] at h
    exact ⟨happlied, h.symm, rfl⟩
  | cons m rest => exact ⟨happlied, h⟩

theorem Staged.succeed (h : c.Staged) : (c.succeed migrations rows).Staged := by
  unfold MigrationCall.succeed
  unfold Staged at h
  cases hphase : c.phase with
  | notCalled | connecting | finished =>
    simp only [hphase] at h
    simpa only [Staged, hphase] using h
  | locking | creating =>
    simp only [hphase] at h
    exact h
  | reading =>
    simp only [hphase] at h
    apply staged_forPending
      (c := { c with applied := some rows, pending := pendingMigrations migrations rows })
    · rfl
    · rw [h.2.2]
      rfl
  | migrating statement m rest =>
    simp only [hphase] at h
    cases statement with
    | begin | sql | insert => exact h
    | commit =>
      apply staged_forPending (c := { c with committed := c.committed ++ [m] })
      · exact h.1
      · simp [h.2]
  | rollingBack m reason =>
    simp only [hphase] at h
    exact .inr ⟨h.1, m, h.2⟩
  | unlocking outcome =>
    simp only [hphase] at h
    exact h

theorem Staged.fail (h : c.Staged) : (c.fail reason).Staged := by
  unfold MigrationCall.fail
  unfold Staged at h
  cases hphase : c.phase with
  | notCalled | connecting | finished =>
    simp only [hphase] at h
    simpa only [Staged, hphase] using h
  | locking | creating | reading =>
    simp only [hphase] at h
    exact .inl h
  | migrating statement m rest =>
    simp only [hphase] at h
    refine ⟨h.1, rfl, rest, ?_⟩
    simp [h.2]
  | rollingBack m reason =>
    simp only [hphase] at h
    exact .inr ⟨h.1, m, h.2⟩
  | unlocking outcome =>
    simp only [hphase] at h
    exact h

theorem succeed_inside (h : (c.succeed migrations rows).phase.inside = true) :
    c.phase.inside = true ∨ c.phase = .locking := by
  unfold MigrationCall.succeed at h
  cases hphase : c.phase with
  | locking => exact .inr rfl
  | creating | reading | migrating | rollingBack => exact .inl rfl
  | notCalled | connecting | finished =>
    simp only [hphase] at h
    exact .inl h
  | unlocking outcome =>
    simp only [hphase] at h
    exact .inl h

theorem succeed_pastLock (h : c.phase.pastLock = true) :
    (c.succeed migrations rows).phase.pastLock = true := by
  unfold MigrationCall.succeed
  cases hphase : c.phase with
  | notCalled | connecting | locking =>
    rw [hphase] at h
    cases h
  | creating | rollingBack | unlocking => rfl
  | reading => exact MigrationPhase.forPending_pastLock _ _
  | migrating statement m rest =>
    cases statement with
    | begin | sql | insert => rfl
    | commit => exact MigrationPhase.forPending_pastLock _ _
  | finished outcome => simp [hphase, MigrationPhase.pastLock]

/-- Only the answer to the unlock ends a call. -/
theorem succeed_isFinished (h : c.phase.isUnlocking = false) :
    (c.succeed migrations rows).phase.isFinished = c.phase.isFinished := by
  unfold MigrationCall.succeed
  cases hphase : c.phase with
  | notCalled | connecting | finished => simp [hphase, MigrationPhase.isFinished]
  | locking | creating | rollingBack => rfl
  | reading => exact MigrationPhase.forPending_isFinished _ _
  | migrating statement m rest =>
    cases statement with
    | begin | sql | insert => rfl
    | commit => exact MigrationPhase.forPending_isFinished _ _
  | unlocking outcome =>
    rw [hphase] at h
    cases h

theorem fail_inside (h : (c.fail reason).phase.inside = true) : c.phase.inside = true := by
  unfold MigrationCall.fail at h
  cases hphase : c.phase with
  | creating | reading | migrating | rollingBack => rfl
  | locking | unlocking =>
    simp only [hphase] at h
    cases h
  | notCalled | connecting | finished =>
    simp only [hphase] at h
    exact h

theorem fail_pastLock (h : c.phase.pastLock = true) : (c.fail reason).phase.pastLock = true := by
  unfold MigrationCall.fail
  cases hphase : c.phase with
  | notCalled | connecting | locking =>
    rw [hphase] at h
    cases h
  | creating | reading | migrating | rollingBack | unlocking => rfl
  | finished outcome => simp [hphase, MigrationPhase.pastLock]

theorem fail_isFinished :
    (c.fail reason).phase.isFinished = (c.phase.isFinished || c.phase.isUnlocking) := by
  unfold MigrationCall.fail
  cases hphase : c.phase with
  | notCalled | connecting | finished =>
    simp [hphase, MigrationPhase.isFinished, MigrationPhase.isUnlocking]
  | locking | creating | reading | migrating | rollingBack | unlocking => rfl

/-- After a rejection the call counts on no transaction. -/
theorem fail_hasTxn {txn : Txn SchemaWrite} (h : c.phase.statement.isSome = true) :
    (c.fail reason).phase.HasTxn txn := by
  unfold MigrationCall.fail
  cases hphase : c.phase with
  | notCalled | connecting | finished =>
    rw [hphase] at h
    cases h
  | locking | creating | reading | migrating | rollingBack | unlocking => trivial

/-- The pool's client is held from the connection to the end of the call. -/
def HoldsClient (c : MigrationCall) : Prop := c.client = c.phase.hasClient

theorem HoldsClient.succeed (h : c.HoldsClient) : (c.succeed migrations rows).HoldsClient := by
  unfold MigrationCall.succeed
  unfold HoldsClient at h
  cases hphase : c.phase with
  | notCalled | connecting | finished =>
    rw [hphase] at h
    simpa only [HoldsClient, hphase] using h
  | locking | creating | rollingBack =>
    rw [hphase] at h
    exact h
  | reading =>
    rw [hphase] at h
    exact h.trans (MigrationPhase.forPending_hasClient _ _).symm
  | migrating statement m rest =>
    rw [hphase] at h
    cases statement with
    | begin | sql | insert => exact h
    | commit => exact h.trans (MigrationPhase.forPending_hasClient _ _).symm
  | unlocking => rfl

theorem HoldsClient.fail (h : c.HoldsClient) : (c.fail reason).HoldsClient := by
  unfold MigrationCall.fail
  unfold HoldsClient at h
  cases hphase : c.phase with
  | notCalled | connecting | finished =>
    rw [hphase] at h
    simpa only [HoldsClient, hphase] using h
  | locking | creating | reading | migrating | rollingBack =>
    rw [hphase] at h
    exact h
  | unlocking => rfl

/-- Whoever is through has committed a prefix of what was pending. -/
theorem Staged.isPrefix (h : c.Staged) : c.committed <+: c.pending := by
  have hended : ∀ outcome, c.Ended outcome → c.committed <+: c.pending := by
    intro outcome h
    cases outcome with
    | returned count => exact h.2.1 ▸ List.prefix_refl _
    | threw message =>
      rcases h with ⟨-, hpending, hcommitted⟩ | ⟨-, m, -, h⟩
      · exact hcommitted ▸ List.nil_prefix
      · exact (List.prefix_append _ _).trans h
  unfold Staged at h
  cases hphase : c.phase with
  | notCalled | connecting | locking | creating | reading =>
    simp only [hphase] at h
    exact h.2.2 ▸ List.nil_prefix
  | migrating statement m rest =>
    simp only [hphase] at h
    rw [h.2]
    exact List.prefix_append _ _
  | rollingBack m reason =>
    simp only [hphase] at h
    exact (List.prefix_append _ _).trans h.2.2
  | unlocking outcome | finished outcome =>
    simp only [hphase] at h
    exact hended outcome h

end MigrationCall

namespace MigrationRuns

section Steps

variable (migrations : List Migration) (s : MigrationRuns)

/-- What each action does to the processes. -/
inductive Stepped : MigrationAction → MigrationRuns → Prop
  | runMigrations (p : Nat) (h : (s.calls p).phase = .notCalled) :
      Stepped (.runMigrations p) (s.withCall p { s.calls p with phase := .connecting })
  | connected (p : Nat) (h : (s.calls p).phase = .connecting) :
      Stepped (.connected p) (s.withCall p { s.calls p with phase := .locking, client := true })
  | connectFailed (p : Nat) (reason : JsString) (h : (s.calls p).phase = .connecting) :
      Stepped (.connectFailed p reason)
        (s.withCall p { s.calls p with phase := .finished (.threw reason) })
  | answered (p : Nat) (statement : Statement SchemaWrite)
      (h : (s.calls p).phase.statement = some statement)
      (haccepts : s.server.accepts p statement = true)
      (hadmits : s.server.data.admits statement = true) :
      Stepped (.answered p) (s.answer migrations p statement)
  | rejected (p : Nat) (rolledBack : Bool) (reason : JsString)
      (h : (s.calls p).phase.statement.isSome = true) :
      Stepped (.rejected p rolledBack reason)
        { s.withCall p ((s.calls p).fail reason) with server := s.server.reject p rolledBack }
  | sessionEnds (p : Nat) (h : (s.server.sessions p).alive = true) :
      Stepped (.sessionEnds p) { s with server := s.server.endSession p }

variable {migrations s} {t : MigrationRuns} {a : MigrationAction}

theorem step_cases (hs : s.step migrations a = some t) : s.Stepped migrations a t := by
  cases a with
  | runMigrations p =>
    simp only [step] at hs
    split at hs
    · rename_i h
      exact Option.some.inj hs ▸ .runMigrations p h
    · cases hs
  | connected p =>
    simp only [step] at hs
    split at hs
    · rename_i h
      exact Option.some.inj hs ▸ .connected p h
    · cases hs
  | connectFailed p reason =>
    simp only [step] at hs
    split at hs
    · rename_i h
      exact Option.some.inj hs ▸ .connectFailed p reason h
    · cases hs
  | answered p =>
    simp only [step] at hs
    split at hs
    · rename_i statement h
      split_ifs at hs with hok
      obtain ⟨haccepts, hadmits⟩ := Bool.and_eq_true_iff.mp hok
      exact Option.some.inj hs ▸ .answered p statement h haccepts hadmits
    · cases hs
  | rejected p rolledBack reason =>
    simp only [step] at hs
    split_ifs at hs with h
    exact Option.some.inj hs ▸ .rejected p rolledBack reason h
  | sessionEnds p =>
    simp only [step] at hs
    split_ifs at hs with h
    exact Option.some.inj hs ▸ .sessionEnds p h

end Steps

section Calls

variable {migrations : List Migration} {s t : MigrationRuns} {a : MigrationAction} {p q : Nat}

@[simp] theorem withCall_self {c : MigrationCall} : (s.withCall p c).calls p = c :=
  Function.update_self ..

theorem withCall_of_ne {c : MigrationCall} (h : q ≠ p) : (s.withCall p c).calls q = s.calls q :=
  Function.update_of_ne h ..

@[simp] theorem answer_self {statement : Statement SchemaWrite} :
    (s.answer migrations p statement).calls p =
      (s.calls p).succeed migrations s.server.data.recorded :=
  Function.update_self ..

theorem answer_of_ne {statement : Statement SchemaWrite} (h : q ≠ p) :
    (s.answer migrations p statement).calls q = s.calls q :=
  Function.update_of_ne h ..

/-- What holds of each call stays so, if the five ways to go on keep it. -/
theorem forall_calls_step {good : MigrationCall → Prop} (hgood : ∀ p, good (s.calls p))
    (hcalled : ∀ c, good c → c.phase = .notCalled → good { c with phase := .connecting })
    (hconnected : ∀ c, good c → c.phase = .connecting →
      good { c with phase := .locking, client := true })
    (hrefused : ∀ c reason, good c → c.phase = .connecting →
      good { c with phase := .finished (.threw reason) })
    (hsucceed : ∀ c rows, good c → good (c.succeed migrations rows))
    (hfail : ∀ c reason, good c → good (c.fail reason))
    (hs : s.step migrations a = some t) (q : Nat) : good (t.calls q) := by
  have hupdate : ∀ p c, good c → good (Function.update s.calls p c q) := by
    intro p c hc
    by_cases hq : q = p
    · rw [hq, Function.update_self]
      exact hc
    · rw [Function.update_of_ne hq]
      exact hgood q
  cases step_cases hs with
  | runMigrations p h => exact hupdate p _ (hcalled _ (hgood p) h)
  | connected p h => exact hupdate p _ (hconnected _ (hgood p) h)
  | connectFailed p reason h => exact hupdate p _ (hrefused _ reason (hgood p) h)
  | answered p statement => exact hupdate p _ (hsucceed _ _ (hgood p))
  | rejected p rolledBack reason => exact hupdate p _ (hfail _ reason (hgood p))
  | sessionEnds p => exact hgood q

theorem staged_step (h : ∀ p, (s.calls p).Staged) (hs : s.step migrations a = some t) (q : Nat) :
    (t.calls q).Staged := by
  refine forall_calls_step h ?_ ?_ ?_ (fun c rows => .succeed) (fun c reason => .fail) hs q
  · intro c hc hphase
    simpa only [MigrationCall.Staged, hphase] using hc
  · intro c hc hphase
    simpa only [MigrationCall.Staged, hphase] using hc
  · intro c reason hc hphase
    simp only [MigrationCall.Staged, hphase] at hc
    exact .inl hc

theorem holdsClient_step (h : ∀ p, (s.calls p).HoldsClient) (hs : s.step migrations a = some t)
    (q : Nat) : (t.calls q).HoldsClient := by
  refine forall_calls_step h ?_ ?_ ?_ (fun c rows => .succeed) (fun c reason => .fail) hs q
  · intro c hc hphase
    rw [MigrationCall.HoldsClient, hphase] at hc
    exact hc
  · intro c _ _
    rfl
  · intro c reason hc hphase
    rw [MigrationCall.HoldsClient, hphase] at hc
    exact hc

end Calls

section Lock

variable {migrations : List Migration} {s t : MigrationRuns} {a : MigrationAction} {p q : Nat}

/-- Whoever is between lock and unlock on a living session holds the lock, and nobody else does. -/
structure Exclusive (s : MigrationRuns) : Prop where
  holds : ∀ p, (s.server.sessions p).alive = true → (s.calls p).phase.inside = true →
    s.server.lock = some p
  locked : ∀ p, s.server.lock = some p →
    (s.server.sessions p).alive = true ∧ (s.calls p).phase.pastLock = true

theorem exclusive_init (versions : Option (List Int)) : Exclusive (init versions) where
  holds := fun _ _ h => nomatch h
  locked := fun _ h => nomatch h

/-- A step that leaves the lock where it is may let the call of `p` go on, but not inside. -/
theorem Exclusive.of_sameLock (h : Exclusive s) (hlock : t.server.lock = s.server.lock)
    (halive : ∀ q, (t.server.sessions q).alive = (s.server.sessions q).alive)
    (hinside : (t.calls p).phase.inside = true → (s.calls p).phase.inside = true)
    (hpast : (s.calls p).phase.pastLock = true → (t.calls p).phase.pastLock = true)
    (hcalls : ∀ q, q ≠ p → t.calls q = s.calls q) : Exclusive t where
  holds := by
    intro q hq hin
    rw [halive] at hq
    rw [hlock]
    by_cases hqp : q = p
    · subst hqp
      exact h.holds q hq (hinside hin)
    · rw [hcalls q hqp] at hin
      exact h.holds q hq hin
  locked := by
    intro q hq
    rw [hlock] at hq
    obtain ⟨hq, hin⟩ := h.locked q hq
    refine ⟨(halive q).trans hq, ?_⟩
    by_cases hqp : q = p
    · subst hqp
      exact hpast hin
    · rw [hcalls q hqp]
      exact hin

/-- The lock goes from nobody to the call that waited for it. -/
theorem Exclusive.of_lock (h : Exclusive s) (hphase : (s.calls p).phase = .locking)
    (haccepts : s.server.accepts p .lock = true) : Exclusive (s.answer migrations p .lock) where
  holds := by
    intro q hq hin
    by_cases hqp : q = p
    · rw [hqp]
      rfl
    · rw [answer_of_ne hqp] at hin
      have hlock := h.holds q hq hin
      rcases Server.lock_of_accepts haccepts with hfree | hmine
      · cases hfree.symm.trans hlock
      · exact absurd (Option.some.inj (hlock.symm.trans hmine)) hqp
  locked := by
    intro q hq
    obtain rfl : p = q := Option.some.inj hq
    have halive : ((s.server.exec Schema.apply p .lock).sessions p).alive = true :=
      Server.exec_alive.trans (Server.alive_of_accepts haccepts)
    refine ⟨halive, ?_⟩
    rw [answer_self, MigrationCall.succeed]
    simp only [hphase]
    rfl

theorem Exclusive.of_unlock (h : Exclusive s) {outcome : MigrationOutcome}
    (hphase : (s.calls p).phase = .unlocking outcome) :
    Exclusive (s.answer migrations p .unlock) where
  holds := by
    intro q hq hin
    by_cases hqp : q = p
    · rw [hqp, answer_self, MigrationCall.succeed] at hin
      simp only [hphase] at hin
      cases hin
    · rw [answer_of_ne hqp] at hin
      have hlock := h.holds q hq hin
      have hnot : s.server.lock ≠ some p := fun hp => hqp (Option.some.inj (hlock.symm.trans hp))
      exact (if_neg hnot).trans hlock
  locked := by
    intro q hq
    have hkept : s.server.lock = some q ∧ q ≠ p := (Server.unlock_lock Schema.apply).mp hq
    rw [answer_of_ne hkept.2]
    exact h.locked q hkept.1

theorem Exclusive.of_answered (h : Exclusive s) {statement : Statement SchemaWrite}
    (hstatement : (s.calls p).phase.statement = some statement)
    (haccepts : s.server.accepts p statement = true) :
    Exclusive (s.answer migrations p statement) := by
  have hother : (s.calls p).phase ≠ .locking → statement ≠ .lock → statement ≠ .unlock →
      Exclusive (s.answer migrations p statement) := by
    intro hphase hlock hunlock
    refine h.of_sameLock (p := p) ?_ (fun q => Server.exec_alive) ?_ ?_ fun q => answer_of_ne
    · exact Server.exec_lock_of_other hlock hunlock
    · rw [answer_self]
      intro hin
      exact (MigrationCall.succeed_inside hin).resolve_right hphase
    · rw [answer_self]
      exact MigrationCall.succeed_pastLock
  cases hphase : (s.calls p).phase with
  | notCalled | connecting | finished =>
    rw [hphase] at hstatement
    cases hstatement
  | locking =>
    rw [hphase] at hstatement
    obtain rfl : Statement.lock = statement := Option.some.inj hstatement
    exact h.of_lock hphase haccepts
  | unlocking outcome =>
    rw [hphase] at hstatement
    obtain rfl : Statement.unlock = statement := Option.some.inj hstatement
    exact h.of_unlock hphase
  | creating | reading | rollingBack =>
    rw [hphase] at hstatement
    obtain rfl := Option.some.inj hstatement
    exact hother (by simp [hphase]) nofun nofun
  | migrating part m rest =>
    rw [hphase] at hstatement
    cases part with
    | begin | sql | insert | commit =>
      obtain rfl := Option.some.inj hstatement
      exact hother (by simp [hphase]) nofun nofun

theorem Exclusive.step (h : Exclusive s) (hs : s.step migrations a = some t) : Exclusive t := by
  cases step_cases hs with
  | runMigrations p hphase =>
    refine h.of_sameLock (p := p) rfl (fun q => rfl) ?_ ?_ fun q => withCall_of_ne
    · rw [withCall_self]
      exact nofun
    · rw [hphase]
      exact nofun
  | connected p hphase =>
    refine h.of_sameLock (p := p) rfl (fun q => rfl) ?_ ?_ fun q => withCall_of_ne
    · rw [withCall_self]
      exact nofun
    · rw [hphase]
      exact nofun
  | connectFailed p reason hphase =>
    refine h.of_sameLock (p := p) rfl (fun q => rfl) ?_ ?_ fun q => withCall_of_ne
    · rw [withCall_self]
      exact nofun
    · rw [hphase]
      exact nofun
  | answered p statement hstatement haccepts => exact h.of_answered hstatement haccepts
  | rejected p rolledBack reason =>
    refine h.of_sameLock (p := p) Server.reject_lock (fun q => Server.reject_alive) ?_ ?_
      fun q => withCall_of_ne
    · show ((s.withCall p ((s.calls p).fail reason)).calls p).phase.inside = true → _
      rw [withCall_self]
      exact MigrationCall.fail_inside
    · show _ → ((s.withCall p ((s.calls p).fail reason)).calls p).phase.pastLock = true
      rw [withCall_self]
      exact MigrationCall.fail_pastLock
  | sessionEnds p =>
    constructor
    · intro q hq hin
      have hqp : q ≠ p := by
        rintro rfl
        rw [Server.endSession_self] at hq
        cases hq
      rw [Server.endSession_of_ne hqp] at hq
      exact Server.endSession_lock.mpr ⟨h.holds q hq hin, hqp⟩
    · intro q hq
      obtain ⟨hlock, hqp⟩ := Server.endSession_lock.mp hq
      rw [Server.endSession_of_ne hqp]
      exact h.locked q hlock

end Lock

section Transactions

variable {migrations : List Migration} {s t : MigrationRuns} {a : MigrationAction} {p q : Nat}

/-- The living sessions have the transactions open that their calls have begun. -/
def TxnsOpen (s : MigrationRuns) : Prop :=
  ∀ p, (s.server.sessions p).alive = true → (s.calls p).phase.HasTxn (s.server.sessions p).txn

theorem txnsOpen_init (versions : Option (List Int)) : TxnsOpen (init versions) := fun _ _ => rfl

theorem TxnsOpen.of_answered (h : TxnsOpen s) {statement : Statement SchemaWrite}
    (hstatement : (s.calls p).phase.statement = some statement)
    (haccepts : s.server.accepts p statement = true) :
    TxnsOpen (s.answer migrations p statement) := by
  intro q hq
  have hsame : ((s.server.exec Schema.apply p statement).sessions q).alive = true := hq
  rw [Server.exec_alive] at hsame
  show ((s.answer migrations p statement).calls q).phase.HasTxn
    ((s.server.exec Schema.apply p statement).sessions q).txn
  by_cases hqp : q = p
  · subst hqp
    have htxn := h q hsame
    rw [answer_self, MigrationCall.succeed]
    cases hphase : (s.calls q).phase with
    | notCalled | connecting | finished =>
      rw [hphase] at hstatement
      cases hstatement
    | rollingBack | unlocking => trivial
    | locking | creating =>
      rw [hphase] at hstatement htxn
      obtain rfl := Option.some.inj hstatement
      replace htxn : (s.server.sessions q).txn = .idle := htxn
      simp only [Server.exec, htxn, MigrationPhase.HasTxn]
    | reading =>
      rw [hphase] at hstatement htxn
      obtain rfl := Option.some.inj hstatement
      replace htxn : (s.server.sessions q).txn = .idle := htxn
      simp only [Server.exec, htxn]
      exact MigrationPhase.forPending_hasTxn _ _
    | migrating part m rest =>
      rw [hphase] at hstatement htxn
      cases part with
      | begin =>
        obtain rfl := Option.some.inj hstatement
        replace htxn : (s.server.sessions q).txn = .idle := htxn
        simp only [Server.exec, htxn, MigrationPhase.HasTxn, Server.withTxn_self]
      | sql =>
        obtain rfl := Option.some.inj hstatement
        replace htxn : (s.server.sessions q).txn = .active [] := htxn
        simp only [Server.exec, htxn, MigrationPhase.HasTxn, Server.withTxn_self, List.nil_append]
      | insert =>
        obtain rfl := Option.some.inj hstatement
        replace htxn : (s.server.sessions q).txn = .active [.runSql m] := htxn
        simp only [Server.exec, htxn, MigrationPhase.HasTxn, Server.withTxn_self, List.singleton_append]
      | commit =>
        obtain rfl := Option.some.inj hstatement
        replace htxn : (s.server.sessions q).txn = .active [.runSql m, .insert m.version] := htxn
        have hidle : ((s.server.exec Schema.apply q .commit).sessions q).txn = .idle := by
          simp only [Server.exec, htxn]
          exact congrArg ServerSession.txn Server.withTxn_self
        rw [hidle]
        exact MigrationPhase.forPending_hasTxn _ _
  · rw [answer_of_ne hqp, Server.exec_of_ne hqp]
    exact h q hsame

theorem TxnsOpen.step (h : TxnsOpen s) (hs : s.step migrations a = some t) : TxnsOpen t := by
  have hcall : ∀ p c, ((s.server.sessions p).alive = true →
      c.phase.HasTxn (s.server.sessions p).txn) → TxnsOpen (s.withCall p c) := by
    intro p c hc q hq
    by_cases hqp : q = p
    · subst hqp
      rw [withCall_self]
      exact hc hq
    · rw [withCall_of_ne hqp]
      exact h q hq
  cases step_cases hs with
  | runMigrations p hphase =>
    apply hcall
    intro halive
    have htxn := h p halive
    rw [hphase] at htxn
    exact htxn
  | connected p hphase =>
    apply hcall
    intro halive
    have htxn := h p halive
    rw [hphase] at htxn
    exact htxn
  | connectFailed p reason hphase => exact hcall p _ fun _ => trivial
  | answered p statement hstatement haccepts => exact h.of_answered hstatement haccepts
  | rejected p rolledBack reason hstatement =>
    intro q hq
    have halive : ((s.server.reject p rolledBack).sessions q).alive = true := hq
    rw [Server.reject_alive] at halive
    by_cases hqp : q = p
    · subst hqp
      show ((s.withCall q ((s.calls q).fail reason)).calls q).phase.HasTxn _
      rw [withCall_self]
      exact MigrationCall.fail_hasTxn hstatement
    · show ((s.withCall p ((s.calls p).fail reason)).calls q).phase.HasTxn
        ((s.server.reject p rolledBack).sessions q).txn
      rw [withCall_of_ne hqp, Server.reject_of_ne hqp]
      exact h q halive
  | sessionEnds p =>
    intro q hq
    by_cases hqp : q = p
    · subst hqp
      have hdead : ((s.server.endSession q).sessions q).alive = true := hq
      rw [Server.endSession_self] at hdead
      cases hdead
    · have halive : ((s.server.endSession p).sessions q).alive = true := hq
      show (s.calls q).phase.HasTxn ((s.server.endSession p).sessions q).txn
      rw [Server.endSession_of_ne hqp] at halive ⊢
      exact h q halive

end Transactions

end MigrationRuns

end LivelierBridge.Database
