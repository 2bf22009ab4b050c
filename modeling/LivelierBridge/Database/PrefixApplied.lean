import LivelierBridge.Database.MigrationRuns

namespace LivelierBridge.Database

open Framework Js

/-- The versions that the logged commits have recorded. -/
def loggedVersions (log : List (Nat × Migration)) : List Int := log.map fun entry => entry.2.version

@[simp] theorem loggedVersions_append (log log' : List (Nat × Migration)) :
    loggedVersions (log ++ log') = loggedVersions log ++ loggedVersions log' := List.map_append ..

/-- Both have recorded and run the same; the table may have been created. -/
def Schema.Same (d d' : Schema) : Prop :=
  d'.ran = d.ran ∧ d'.recorded = d.recorded ∧ (d.versions.isSome = true → d'.versions.isSome = true)

theorem Schema.Same.of_eq {d d' : Schema} (h : d' = d) : d.Same d' := by
  rw [h]
  exact ⟨rfl, rfl, id⟩

theorem Schema.same_createTable (d : Schema) : d.Same (d.apply .createTable) :=
  ⟨rfl, rfl, fun _ => rfl⟩

namespace MigrationCall

variable {c : MigrationCall} {migrations : List Migration} {rows : List Int} {reason : JsString}

/-- What a call has read and committed. -/
def progress (c : MigrationCall) : Option (List Int) × List Migration × List Migration :=
  (c.applied, c.pending, c.committed)

theorem fail_progress (reason : JsString) : (c.fail reason).progress = c.progress := by
  unfold MigrationCall.fail
  split <;> rfl

theorem fail_isMigrating (h : c.phase.statement.isSome = true) :
    (c.fail reason).phase.isMigrating = false := by
  unfold MigrationCall.fail
  cases hphase : c.phase with
  | notCalled | connecting | finished =>
    rw [hphase] at h
    cases h
  | locking | creating | reading | migrating | rollingBack | unlocking => rfl

end MigrationCall

namespace MigrationRuns

section Logged

variable (migrations : List Migration) (versions : Option (List Int)) (s : MigrationRuns)

/-- Where a call has read the recorded versions in the log; its own commits follow in one block. -/
structure ReadAt (p : Nat) (rows : List Int) (before after : List (Nat × Migration)) : Prop where
  pending : (s.calls p).pending = pendingMigrations migrations rows
  log : s.log = before ++ (s.calls p).committed.map (Prod.mk p) ++ after
  rows : rows = versions.getD [] ++ loggedVersions before
  others : ∀ entry ∈ before ++ after, entry.1 ≠ p

/-- The database has what the log says, and each call its part of the log. -/
structure Logged : Prop where
  ran : s.server.data.ran = s.log.map Prod.snd
  recorded : s.server.data.recorded = versions.getD [] ++ loggedVersions s.log
  fresh : ∀ version ∈ loggedVersions s.log, version ∉ versions.getD []
  nodup : (loggedVersions s.log).Nodup
  read : ∀ p rows, (s.calls p).applied = some rows → s.server.data.versions.isSome = true ∧
    ∃ before after, s.ReadAt migrations versions p rows before after ∧
      ((s.server.sessions p).alive = true → (s.calls p).phase.isMigrating = true → after = [])
  unread : ∀ p, (s.calls p).applied = none → ∀ entry ∈ s.log, entry.1 ≠ p

variable {migrations versions s} {t : MigrationRuns} {a : MigrationAction} {p q : Nat}

theorem logged_init (migrations : List Migration) (versions : Option (List Int)) :
    Logged migrations versions (init versions) where
  ran := rfl
  recorded := (List.append_nil _).symm
  fresh := fun _ h => nomatch h
  nodup := List.nodup_nil
  read := fun _ _ h => nomatch h
  unread := fun _ _ _ h => nomatch h

/-- Steps that neither read nor commit. -/
theorem Logged.of_sameProgress (h : s.Logged migrations versions) (hlog : t.log = s.log)
    (hdata : s.server.data.Same t.server.data)
    (hprogress : ∀ q, (t.calls q).progress = (s.calls q).progress)
    (hmigrating : ∀ q, (t.server.sessions q).alive = true → (t.calls q).phase.isMigrating = true →
      (s.server.sessions q).alive = true ∧ (s.calls q).phase.isMigrating = true) :
    t.Logged migrations versions where
  ran := by rw [hdata.1, hlog, h.ran]
  recorded := by rw [hdata.2.1, hlog, h.recorded]
  fresh := hlog ▸ h.fresh
  nodup := hlog ▸ h.nodup
  read := by
    intro q rows hrows
    obtain ⟨happlied, hrest⟩ := Prod.ext_iff.mp (hprogress q)
    obtain ⟨hpending, hcommitted⟩ := Prod.ext_iff.mp hrest
    simp only [MigrationCall.progress] at happlied hpending hcommitted
    obtain ⟨hsome, before, after, hread, hlast⟩ := h.read q rows (happlied.symm.trans hrows)
    refine ⟨hdata.2.2 hsome, before, after, ⟨?_, ?_, hread.rows, hread.others⟩, ?_⟩
    · rw [hpending, hread.pending]
    · rw [hlog, hcommitted, hread.log]
    · intro halive hq
      obtain ⟨halive, hq⟩ := hmigrating q halive hq
      exact hlast halive hq
  unread := by
    intro q hq
    have happlied := congrArg Prod.fst (hprogress q)
    rw [hlog]
    exact h.unread q (happlied.symm.trans hq)

/-- A call that has the lock reads what the log says. -/
theorem Logged.of_read (h : s.Logged migrations versions) (hphase : (s.calls p).phase = .reading)
    (hstaged : (s.calls p).Staged) (htable : s.server.data.versions.isSome = true) :
    (s.answer migrations p .read).Logged migrations versions := by
  simp only [MigrationCall.Staged, hphase] at hstaged
  have hlog : (s.answer migrations p .read).log = s.log := by simp [answer, commits, hphase]
  have hcall : (s.answer migrations p .read).calls p =
      { s.calls p with
        applied := some s.server.data.recorded
        pending := pendingMigrations migrations s.server.data.recorded
        phase := .forPending (pendingMigrations migrations s.server.data.recorded).length
          (pendingMigrations migrations s.server.data.recorded) } := by
    rw [answer_self, MigrationCall.succeed]
    simp only [hphase]
  constructor
  · exact hlog ▸ h.ran
  · exact hlog ▸ h.recorded
  · exact hlog ▸ h.fresh
  · exact hlog ▸ h.nodup
  · intro q rows hrows
    by_cases hqp : q = p
    · subst hqp
      rw [hcall] at hrows
      obtain rfl := Option.some.inj hrows
      refine ⟨htable, s.log, [], ⟨?_, ?_, h.recorded, ?_⟩, fun _ _ => rfl⟩
      · rw [hcall]
      · have hcommitted : ((s.answer migrations q .read).calls q).committed = [] := by
          rw [hcall]
          exact hstaged.2.2
        rw [hlog, hcommitted, List.map_nil, List.append_nil, List.append_nil]
      · rw [List.append_nil]
        exact h.unread q hstaged.1
    · rw [answer_of_ne hqp] at hrows
      obtain ⟨-, before, after, hread, hlast⟩ := h.read q rows hrows
      refine ⟨htable, before, after, ⟨?_, ?_, hread.rows, hread.others⟩, ?_⟩
      · rw [answer_of_ne hqp, hread.pending]
      · rw [hlog, answer_of_ne hqp, hread.log]
      · rw [answer_of_ne hqp]
        exact hlast
  · intro q hq
    by_cases hqp : q = p
    · subst hqp
      rw [hcall] at hq
      cases hq
    · rw [answer_of_ne hqp] at hq
      rw [hlog]
      exact h.unread q hq

/-- What a commit finds: the migration is the next of the pending ones, and nobody else has come
between. -/
theorem Logged.commit_next (h : s.Logged migrations versions)
    (hdistinct : (migrations.map Migration.version).Nodup) {m : Migration} {rest : List Migration}
    (hphase : (s.calls p).phase = .migrating .commit m rest) (hstaged : (s.calls p).Staged)
    (halive : (s.server.sessions p).alive = true) :
    ∃ rows before, (s.calls p).applied = some rows ∧ s.server.data.versions.isSome = true ∧
      s.ReadAt migrations versions p rows before [] ∧ m.version ∉ versions.getD [] ∧
        m.version ∉ loggedVersions s.log := by
  simp only [MigrationCall.Staged, hphase] at hstaged
  obtain ⟨rows, hrows⟩ := Option.isSome_iff_exists.mp hstaged.1
  obtain ⟨htable, before, after, hread, hlast⟩ := h.read p rows hrows
  obtain rfl : after = [] := hlast halive (by rw [hphase]; rfl)
  have hpending : pendingMigrations migrations rows = (s.calls p).committed ++ m :: rest :=
    hread.pending.symm.trans hstaged.2
  have hmem : m ∈ pendingMigrations migrations rows := by
    rw [hpending]
    exact List.mem_append_right _ List.mem_cons_self
  have hnew := (mem_pendingMigrations.mp hmem).2
  rw [hread.rows, List.mem_append, not_or] at hnew
  have hnodup := nodup_pendingMigrations rows hdistinct
  rw [hpending, List.map_append, List.map_cons] at hnodup
  have hcommitted : m.version ∉ (s.calls p).committed.map Migration.version := fun hm =>
    (List.nodup_append.mp hnodup).2.2 _ hm _ List.mem_cons_self rfl
  refine ⟨rows, before, hrows, htable, hread, hnew.1, ?_⟩
  rw [hread.log, List.append_nil, loggedVersions_append, List.mem_append, not_or]
  refine ⟨hnew.2, ?_⟩
  simpa [loggedVersions, Function.comp_def] using hcommitted

theorem commit_data {m : Migration} {rest : List Migration} (htxns : s.TxnsOpen)
    (hphase : (s.calls p).phase = .migrating .commit m rest)
    (halive : (s.server.sessions p).alive = true) :
    (s.server.exec Schema.apply p .commit).data =
      ⟨s.server.data.versions.map (· ++ [m.version]), s.server.data.ran ++ [m]⟩ := by
  have htxn := htxns p halive
  rw [hphase] at htxn
  replace htxn : (s.server.sessions p).txn = .active [.runSql m, .insert m.version] := htxn
  simp only [Server.exec, htxn, List.foldl_cons, List.foldl_nil, Schema.apply]

/-- A commit adds the migration and its version, and both to the block of the call. -/
theorem Logged.of_commit (h : s.Logged migrations versions)
    (hdistinct : (migrations.map Migration.version).Nodup) {m : Migration} {rest : List Migration}
    (hphase : (s.calls p).phase = .migrating .commit m rest) (hstaged : (s.calls p).Staged)
    (hexclusive : s.Exclusive) (htxns : s.TxnsOpen)
    (halive : (s.server.sessions p).alive = true) :
    (s.answer migrations p .commit).Logged migrations versions := by
  obtain ⟨rows, before, hrows, htable, hread, hfresh, hnew⟩ :=
    h.commit_next hdistinct hphase hstaged halive
  have hlog : (s.answer migrations p .commit).log = s.log ++ [(p, m)] := by
    simp [answer, commits, hphase]
  have hdata : (s.answer migrations p .commit).server.data =
      ⟨s.server.data.versions.map (· ++ [m.version]), s.server.data.ran ++ [m]⟩ :=
    commit_data htxns hphase halive
  have hcall : (s.answer migrations p .commit).calls p =
      { s.calls p with
        committed := (s.calls p).committed ++ [m]
        phase := .forPending (s.calls p).pending.length rest } := by
    rw [answer_self, MigrationCall.succeed]
    simp only [hphase]
  have hlogged : loggedVersions (s.log ++ [(p, m)]) = loggedVersions s.log ++ [m.version] :=
    loggedVersions_append ..
  have htable' : (s.answer migrations p .commit).server.data.versions.isSome = true := by
    rw [hdata]
    simpa using htable
  constructor
  · rw [hdata, hlog, h.ran, List.map_append]
    rfl
  · obtain ⟨old, hold⟩ := Option.isSome_iff_exists.mp htable
    have hrecorded := h.recorded
    rw [hdata, hlog, hlogged, ← List.append_assoc, ← hrecorded]
    simp [Schema.recorded, hold]
  · rw [hlog, hlogged]
    intro version hversion
    rcases List.mem_append.mp hversion with hold | hm
    · exact h.fresh version hold
    · exact List.mem_singleton.mp hm ▸ hfresh
  · rw [hlog, hlogged]
    apply List.nodup_append.mpr
    refine ⟨h.nodup, List.nodup_singleton _, ?_⟩
    intro version hversion version' hm heq
    rw [heq, List.mem_singleton.mp hm] at hversion
    exact hnew hversion
  · intro q rows' hrows'
    by_cases hqp : q = p
    · subst hqp
      rw [hcall] at hrows'
      obtain rfl : rows = rows' := Option.some.inj (hrows.symm.trans hrows')
      refine ⟨htable', before, [], ⟨?_, ?_, hread.rows, hread.others⟩, fun _ _ => rfl⟩
      · rw [hcall]
        exact hread.pending
      · have hcommitted : ((s.answer migrations q .commit).calls q).committed =
            (s.calls q).committed ++ [m] := by rw [hcall]
        rw [hlog, hcommitted, hread.log]
        simp
    · rw [answer_of_ne hqp] at hrows'
      obtain ⟨-, before', after, hread', hlast⟩ := h.read q rows' hrows'
      refine ⟨htable', before', after ++ [(p, m)], ⟨?_, ?_, hread'.rows, ?_⟩, ?_⟩
      · rw [answer_of_ne hqp]
        exact hread'.pending
      · rw [hlog, answer_of_ne hqp, hread'.log]
        simp
      · rw [← List.append_assoc]
        intro entry hentry
        rcases List.mem_append.mp hentry with hold | hlast
        · exact hread'.others entry hold
        · rw [List.mem_singleton.mp hlast]
          exact Ne.symm hqp
      · rw [answer_of_ne hqp]
        intro hlives hmigrating
        -- two sessions would have the lock
        have hmine := hexclusive.holds p halive (by rw [hphase]; rfl)
        have halive' : ((s.server.exec Schema.apply p .commit).sessions q).alive = true := hlives
        rw [Server.exec_alive] at halive'
        have hinside : (s.calls q).phase.inside = true := by
          cases hq : (s.calls q).phase with
          | migrating => rfl
          | notCalled | connecting | locking | creating | reading | rollingBack | unlocking
          | finished =>
            rw [hq] at hmigrating
            cases hmigrating
        have htheirs := hexclusive.holds q halive' hinside
        exact absurd (Option.some.inj (htheirs.symm.trans hmine)) hqp
  · intro q hq
    by_cases hqp : q = p
    · subst hqp
      rw [hcall] at hq
      cases hrows.symm.trans hq
    · rw [answer_of_ne hqp] at hq
      rw [hlog]
      intro entry hentry
      rcases List.mem_append.mp hentry with hold | hlast
      · exact h.unread q hq entry hold
      · rw [List.mem_singleton.mp hlast]
        exact Ne.symm hqp

theorem Logged.of_answered (h : s.Logged migrations versions)
    (hdistinct : (migrations.map Migration.version).Nodup) (hstaged : (s.calls p).Staged)
    (hexclusive : s.Exclusive) (htxns : s.TxnsOpen) {statement : Statement SchemaWrite}
    (hstatement : (s.calls p).phase.statement = some statement)
    (haccepts : s.server.accepts p statement = true)
    (hadmits : s.server.data.admits statement = true) :
    (s.answer migrations p statement).Logged migrations versions := by
  have halive := Server.alive_of_accepts haccepts
  have htxn := htxns p halive
  have hsame : s.commits p = [] →
      s.server.data.Same (s.server.exec Schema.apply p statement).data →
      ((s.calls p).succeed migrations s.server.data.recorded).progress = (s.calls p).progress →
      (((s.calls p).succeed migrations s.server.data.recorded).phase.isMigrating = true →
        (s.calls p).phase.isMigrating = true) →
      (s.answer migrations p statement).Logged migrations versions := by
    intro hcommits hdata hprogress hmigrating
    refine h.of_sameProgress ?_ hdata ?_ ?_
    · show s.log ++ s.commits p = s.log
      rw [hcommits, List.append_nil]
    · intro q
      by_cases hqp : q = p
      · rw [hqp, answer_self]
        exact hprogress
      · rw [answer_of_ne hqp]
    · intro q hlives hq
      have hlives' : ((s.server.exec Schema.apply p statement).sessions q).alive = true := hlives
      rw [Server.exec_alive] at hlives'
      refine ⟨hlives', ?_⟩
      by_cases hqp : q = p
      · rw [hqp, answer_self] at hq
        rw [hqp]
        exact hmigrating hq
      · rw [answer_of_ne hqp] at hq
        exact hq
  cases hphase : (s.calls p).phase with
  | notCalled | connecting | finished =>
    rw [hphase] at hstatement
    cases hstatement
  | locking | rollingBack | unlocking =>
    rw [hphase] at hstatement
    obtain rfl := Option.some.inj hstatement
    apply hsame
    · simp only [commits, hphase]
    · exact .of_eq rfl
    · simp only [MigrationCall.succeed, hphase, MigrationCall.progress]
    · simp [MigrationCall.succeed, hphase, MigrationPhase.isMigrating]
  | creating =>
    rw [hphase] at hstatement htxn
    obtain rfl := Option.some.inj hstatement
    replace htxn : (s.server.sessions p).txn = .idle := htxn
    apply hsame
    · simp only [commits, hphase]
    · simp only [Server.exec, htxn]
      exact Schema.same_createTable _
    · simp only [MigrationCall.succeed, hphase, MigrationCall.progress]
    · simp [MigrationCall.succeed, hphase, MigrationPhase.isMigrating]
  | reading =>
    rw [hphase] at hstatement
    obtain rfl := Option.some.inj hstatement
    exact h.of_read hphase hstaged hadmits
  | migrating part m rest =>
    rw [hphase] at hstatement htxn
    cases part with
    | begin | sql | insert =>
      obtain rfl := Option.some.inj hstatement
      simp only [MigrationPhase.HasTxn] at htxn
      apply hsame
      · simp only [commits, hphase]
      · simp only [Server.exec, htxn]
        exact .of_eq rfl
      · simp only [MigrationCall.succeed, hphase, MigrationCall.progress]
      · simp [hphase, MigrationPhase.isMigrating]
    | commit =>
      obtain rfl := Option.some.inj hstatement
      exact h.of_commit hdistinct hphase hstaged hexclusive htxns halive

theorem Logged.step (h : s.Logged migrations versions)
    (hdistinct : (migrations.map Migration.version).Nodup) (hstaged : ∀ p, (s.calls p).Staged)
    (hexclusive : s.Exclusive) (htxns : s.TxnsOpen) (hs : s.step migrations a = some t) :
    t.Logged migrations versions := by
  have hearly : ∀ p c, c.progress = (s.calls p).progress → c.phase.isMigrating = false →
      (s.withCall p c).Logged migrations versions := by
    intro p c hprogress hmigrating
    refine h.of_sameProgress rfl (.of_eq rfl) ?_ ?_
    · intro q
      by_cases hqp : q = p
      · rw [hqp, withCall_self]
        exact hprogress
      · rw [withCall_of_ne hqp]
    · intro q halive hq
      refine ⟨halive, ?_⟩
      by_cases hqp : q = p
      · rw [hqp, withCall_self, hmigrating] at hq
        cases hq
      · rw [withCall_of_ne hqp] at hq
        exact hq
  cases step_cases hs with
  | runMigrations p => exact hearly p _ rfl rfl
  | connected p => exact hearly p _ rfl rfl
  | connectFailed p reason => exact hearly p _ rfl rfl
  | answered p statement hstatement haccepts hadmits =>
    exact h.of_answered hdistinct (hstaged p) hexclusive htxns hstatement haccepts hadmits
  | rejected p rolledBack reason hstatement =>
    have hfailed := hearly p _ (MigrationCall.fail_progress reason)
      (MigrationCall.fail_isMigrating hstatement)
    refine hfailed.of_sameProgress rfl (.of_eq Server.reject_data) (fun q => rfl) ?_
    intro q halive hq
    have halive' : ((s.server.reject p rolledBack).sessions q).alive = true := halive
    rw [Server.reject_alive] at halive'
    exact ⟨halive', hq⟩
  | sessionEnds p =>
    refine h.of_sameProgress rfl (.of_eq rfl) (fun q => rfl) ?_
    intro q halive hq
    have hqp : q ≠ p := by
      rintro rfl
      have hdead : ((s.server.endSession q).sessions q).alive = true := halive
      rw [Server.endSession_self] at hdead
      cases hdead
    have halive' : ((s.server.endSession p).sessions q).alive = true := halive
    rw [Server.endSession_of_ne hqp] at halive'
    exact ⟨halive', hq⟩

end Logged

section Runs

variable (migrations : List Migration) (versions : Option (List Int))

structure RunsOk (s : MigrationRuns) : Prop where
  staged : ∀ p, (s.calls p).Staged
  clients : ∀ p, (s.calls p).HoldsClient
  exclusive : s.Exclusive
  txns : s.TxnsOpen
  logged : s.Logged migrations versions

variable {migrations versions} {s t : MigrationRuns} {a : MigrationAction}

theorem runsOk_init (migrations : List Migration) (versions : Option (List Int)) :
    RunsOk migrations versions (init versions) where
  staged := fun _ => ⟨rfl, rfl, rfl⟩
  clients := fun _ => rfl
  exclusive := exclusive_init versions
  txns := txnsOpen_init versions
  logged := logged_init migrations versions

theorem RunsOk.step (hdistinct : (migrations.map Migration.version).Nodup)
    (h : RunsOk migrations versions s) (hs : s.step migrations a = some t) :
    RunsOk migrations versions t where
  staged := staged_step h.staged hs
  clients := holdsClient_step h.clients hs
  exclusive := h.exclusive.step hs
  txns := h.txns.step hs
  logged := h.logged.step hdistinct h.staged h.exclusive h.txns hs

end Runs

section Claims

variable (migrations : List Migration) (versions : Option (List Int)) (s : MigrationRuns)

/-- The recorded versions are the initial ones and, call by call, those of the longest prefix of its
pending migrations that succeeded; the SQL of a migration has been committed with its version, and
once. -/
structure PrefixApplied : Prop where
  recorded : s.server.data.recorded = versions.getD [] ++ loggedVersions s.log
  ran : s.server.data.ran = s.log.map Prod.snd
  fresh : ∀ version ∈ loggedVersions s.log, version ∉ versions.getD []
  nodup : (loggedVersions s.log).Nodup
  read : ∀ p rows, (s.calls p).applied = some rows →
    (s.calls p).pending.Pairwise (fun a b => a.version < b.version) ∧
      ∃ before after, s.ReadAt migrations versions p rows before after
  unread : ∀ p, (s.calls p).applied = none → ∀ entry ∈ s.log, entry.1 ≠ p
  committed : ∀ p, (s.calls p).committed <+: (s.calls p).pending
  ended : ∀ p outcome, (s.calls p).phase = .finished outcome → (s.calls p).Ended outcome
  released : ∀ p, (s.calls p).phase.isFinished = true → (s.calls p).client = false

/-- No call that is over has left the lock held. -/
def LockReleased : Prop := ∀ p, (s.calls p).phase.isFinished = true → s.server.lock ≠ some p

/-- No unlock is rejected while its session goes on to hold the lock. -/
def UnlockAnswered : MigrationAction → Prop
  | .rejected p _ _ => (s.calls p).phase.isUnlocking = true → s.server.lock ≠ some p
  | .runMigrations _ | .connected _ | .connectFailed _ _ | .answered _ | .sessionEnds _ => True

instance UnlockAnswered.decidable : ∀ a, Decidable (s.UnlockAnswered a)
  | .rejected p _ _ => inferInstanceAs
      (Decidable ((s.calls p).phase.isUnlocking = true → s.server.lock ≠ some p))
  | .runMigrations _ | .connected _ | .connectFailed _ _ | .answered _ | .sessionEnds _ =>
    inferInstanceAs (Decidable True)

variable {migrations versions s} {t : MigrationRuns} {a : MigrationAction}

theorem RunsOk.prefixApplied (hdistinct : (migrations.map Migration.version).Nodup)
    (h : RunsOk migrations versions s) : s.PrefixApplied migrations versions where
  recorded := h.logged.recorded
  ran := h.logged.ran
  fresh := h.logged.fresh
  nodup := h.logged.nodup
  read := by
    intro p rows hrows
    obtain ⟨-, before, after, hread, -⟩ := h.logged.read p rows hrows
    refine ⟨?_, before, after, hread⟩
    rw [hread.pending]
    exact pendingMigrations_ascending rows hdistinct
  unread := h.logged.unread
  committed := fun p => (h.staged p).isPrefix
  ended := by
    intro p outcome hphase
    have hstaged := h.staged p
    simpa only [MigrationCall.Staged, hphase] using hstaged
  released := by
    intro p hfinished
    rw [h.clients p]
    cases hphase : (s.calls p).phase with
    | finished => rfl
    | notCalled | connecting | locking | creating | reading | migrating | rollingBack | unlocking =>
      rw [hphase] at hfinished
      cases hfinished

/-- Where the lock stays with a call that was not over, none is left held. -/
theorem LockReleased.of_update (h : s.LockReleased)
    (hlock : ∀ q, t.server.lock = some q → s.server.lock = some q) (p : Nat)
    (hfinished : (t.calls p).phase.isFinished = true → t.server.lock ≠ some p)
    (hcalls : ∀ q, q ≠ p → t.calls q = s.calls q) : t.LockReleased := by
  intro q hq hheld
  by_cases hqp : q = p
  · rw [hqp] at hq hheld
    exact hfinished hq hheld
  · rw [hcalls q hqp] at hq
    exact h q hq (hlock q hheld)

theorem lockReleased_answered (h : s.LockReleased) {p : Nat}
    {statement : Statement SchemaWrite}
    (hstatement : (s.calls p).phase.statement = some statement) :
    (s.answer migrations p statement).LockReleased := by
  have hother : (s.calls p).phase.isUnlocking = false → statement ≠ .lock → statement ≠ .unlock →
      (s.answer migrations p statement).LockReleased := by
    intro hphase hlock hunlock
    have hkept : (s.answer migrations p statement).server.lock = s.server.lock :=
      Server.exec_lock_of_other hlock hunlock
    refine h.of_update (fun q hq => hkept ▸ hq) p ?_ fun q => answer_of_ne
    rw [answer_self, MigrationCall.succeed_isFinished hphase, hkept]
    exact h p
  cases hphase : (s.calls p).phase with
  | notCalled | connecting | finished =>
    rw [hphase] at hstatement
    cases hstatement
  | locking =>
    rw [hphase] at hstatement
    obtain rfl : Statement.lock = statement := Option.some.inj hstatement
    intro q hq hheld
    obtain rfl : p = q := Option.some.inj hheld
    rw [answer_self, MigrationCall.succeed_isFinished (by rw [hphase]; rfl), hphase] at hq
    cases hq
  | unlocking outcome =>
    rw [hphase] at hstatement
    obtain rfl : Statement.unlock = statement := Option.some.inj hstatement
    refine h.of_update (fun q hq => ((Server.unlock_lock Schema.apply).mp hq).1) p ?_
      fun q => answer_of_ne
    intro _ hheld
    exact ((Server.unlock_lock Schema.apply).mp hheld).2 rfl
  | creating | reading | rollingBack =>
    rw [hphase] at hstatement
    obtain rfl := Option.some.inj hstatement
    exact hother (by rw [hphase]; rfl) nofun nofun
  | migrating part m rest =>
    rw [hphase] at hstatement
    cases part with
    | begin | sql | insert | commit =>
      obtain rfl := Option.some.inj hstatement
      exact hother (by rw [hphase]; rfl) nofun nofun

/-- A step leaves the lock held by a call that is over exactly when it rejects the unlock. -/
theorem lockReleased_step (hexclusive : s.Exclusive) (h : s.LockReleased)
    (hs : s.step migrations a = some t) : t.LockReleased ↔ s.UnlockAnswered a := by
  cases step_cases hs with
  | runMigrations p hphase =>
    refine iff_of_true (h.of_update (fun q hq => hq) p ?_ fun q => withCall_of_ne) trivial
    rw [withCall_self]
    exact nofun
  | connected p hphase =>
    refine iff_of_true (h.of_update (fun q hq => hq) p ?_ fun q => withCall_of_ne) trivial
    rw [withCall_self]
    exact nofun
  | connectFailed p reason hphase =>
    refine iff_of_true (h.of_update (fun q hq => hq) p ?_ fun q => withCall_of_ne) trivial
    intro _ hheld
    have hpast := (hexclusive.locked p hheld).2
    rw [hphase] at hpast
    cases hpast
  | answered p statement hstatement =>
    exact iff_of_true (lockReleased_answered h hstatement) trivial
  | rejected p rolledBack reason hstatement =>
    have hfailed : ((s.withCall p ((s.calls p).fail reason)).calls p).phase.isFinished =
        ((s.calls p).phase.isFinished || (s.calls p).phase.isUnlocking) := by
      rw [withCall_self, MigrationCall.fail_isFinished]
    constructor
    · intro hreleased hunlocking hheld
      apply hreleased p
      · show ((s.withCall p ((s.calls p).fail reason)).calls p).phase.isFinished = true
        rw [hfailed, hunlocking, Bool.or_true]
      · show (s.server.reject p rolledBack).lock = some p
        rw [Server.reject_lock, hheld]
    · intro hguard
      refine h.of_update (fun q hq => Server.reject_lock ▸ hq) p ?_ fun q => withCall_of_ne
      intro hfinished hheld
      replace hheld : (s.server.reject p rolledBack).lock = some p := hheld
      rw [Server.reject_lock] at hheld
      replace hfinished :
          ((s.withCall p ((s.calls p).fail reason)).calls p).phase.isFinished = true := hfinished
      rw [hfailed, Bool.or_eq_true] at hfinished
      rcases hfinished with hover | hunlocking
      · exact h p hover hheld
      · exact hguard hunlocking hheld
  | sessionEnds p =>
    refine iff_of_true ?_ trivial
    intro q hq hheld
    exact h q hq (Server.endSession_lock.mp hheld).1

/-- Migrations are applied by prefixes, whatever fails; and no call leaves the lock held, exactly as
long as no unlock is rejected on a session that goes on to hold it. -/
theorem migrations_prefixApplied (migrations : List Migration)
    (hdistinct : (migrations.map Migration.version).Nodup) (versions : Option (List Int))
    {as : List MigrationAction} {t : MigrationRuns}
    (hrun : run (step migrations) (init versions) as = some t) :
    t.PrefixApplied migrations versions ∧
      ((∀ as₁ as₂ m, as = as₁ ++ as₂ → run (step migrations) (init versions) as₁ = some m →
          m.LockReleased) ↔
        Guarded (step migrations) UnlockAnswered (init versions) as) := by
  have hinit := runsOk_init migrations versions
  have hstep : ∀ s a s', RunsOk migrations versions s → step migrations s a = some s' →
      RunsOk migrations versions s' := fun s a s' h hs => h.step hdistinct hs
  constructor
  · exact (run_invariant_all hstep hinit hrun).prefixApplied hdistinct
  · apply guarded_iff_forall_prefix hstep _ hinit _ hrun
    · intro s a s' h hreleased hs
      exact lockReleased_step h.exclusive hreleased hs
    · intro p hfinished
      cases hfinished

/-- Two processes boot at once. In the first one the second migration fails and is rolled back; the
second one has waited for the lock and applies it. -/
def failedBoot : List MigrationAction :=
  [.runMigrations 0, .connected 0, .runMigrations 1, .connected 1] ++
    List.replicate 9 (.answered 0) ++ [.rejected 0 false (js "boom"), .answered 0, .answered 0] ++
      List.replicate 8 (.answered 1)

theorem migrations_prefixApplied_failedBoot :
    ∃ t, run (step [⟨2, js "two", js "CREATE-TWO"⟩, ⟨1, js "one", js "CREATE-ONE"⟩]) (init none)
        failedBoot = some t ∧
      t.PrefixApplied [⟨2, js "two", js "CREATE-TWO"⟩, ⟨1, js "one", js "CREATE-ONE"⟩] none ∧
      ((∀ as₁ as₂ m, failedBoot = as₁ ++ as₂ →
          run (step [⟨2, js "two", js "CREATE-TWO"⟩, ⟨1, js "one", js "CREATE-ONE"⟩]) (init none)
            as₁ = some m → m.LockReleased) ↔
        Guarded (step [⟨2, js "two", js "CREATE-TWO"⟩, ⟨1, js "one", js "CREATE-ONE"⟩])
          UnlockAnswered (init none) failedBoot) := by
  obtain ⟨t, hrun⟩ := Option.isSome_iff_exists.mp
    (show (run (step [⟨2, js "two", js "CREATE-TWO"⟩, ⟨1, js "one", js "CREATE-ONE"⟩]) (init none)
      failedBoot).isSome = true by decide +kernel)
  exact ⟨t, hrun, migrations_prefixApplied _ (by decide) none hrun⟩

/-- A rejected unlock on a session that lives on leaves the lock held, and the next process waits. -/
theorem rejected_unlock_leaves_lock :
    ∃ t, run (step [⟨1, js "init", js "CREATE TABLE bridge_instances ()"⟩]) (init (some [1]))
        [.runMigrations 0, .connected 0, .answered 0, .answered 0, .answered 0,
          .rejected 0 false (js "canceling statement due to statement timeout"), .runMigrations 1,
          .connected 1] = some t ∧
      ¬ t.LockReleased ∧
      t.step [⟨1, js "init", js "CREATE TABLE bridge_instances ()"⟩] (.answered 1) = none := by
  refine ⟨_, rfl, ?_, rfl⟩
  intro h
  exact h 0 rfl rfl

end Claims

end MigrationRuns

end LivelierBridge.Database
