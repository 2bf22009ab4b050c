import LivelierBridge.Discovery.Coordinates
import LivelierBridge.Discovery.Passes

namespace LivelierBridge.Discovery

open Framework Js

variable {ν : Type}

namespace Engine

variable (E : Engine)

/-- The update behind a live probe of a manual row is reached and stored. -/
def SettlesManual [DecidableEq ν] (url : JsString) (row : InstanceRow ν) (A : ManualAnswers ν) :
    Prop :=
  E.ReachesManual url row A ∧ (E.manualNews row A = true → A.publish.isSome = true) ∧
    A.stored = true

/-- The update behind a live probe of a listed row is reached and stored. -/
def SettlesListed [DecidableEq ν] (e : DiscoveredLive ν × LiveAnswers ν) (row : InstanceRow ν)
    (isNew : Bool) : Prop :=
  E.ReachesEvent e.1 row .live e.2 ∧ (E.hasNews row isNew .live e.2 = true →
    e.2.publish.isSome = true) ∧ e.2.stored = true

/-- A listed row does not come back to life on an error with failures of an earlier life; and a
live probe resets the failures it has. -/
def CountsListed [DecidableEq ν] (e : DiscoveredLive ν × LiveAnswers ν) (row : InstanceRow ν) :
    Prop :=
  (row.status = .ended → e.2.liveness = some .error → row.consecutiveFailures = 0) ∧
  (row.status = .live → row.consecutiveFailures ≠ 0 → e.2.upsert.isSome = true →
    e.2.liveness = some .live → E.SettlesListed e row false)

/-- A live probe of a row that is not listed resets the failures it has. -/
def CountsUnlisted [DecidableEq ν] (c : Cycle ν) (url : JsString) (row : InstanceRow ν) : Prop :=
  row.status = .live → row.consecutiveFailures ≠ 0 →
    (listManual E.sourceKey row = true → (c.manual url).liveness = some .live →
      E.SettlesManual url row (c.manual url)) ∧
    (listByStatus .live E.sourceKey row = true →
      (listManual E.sourceKey row = true → (c.manual url).liveness.any (· ≠ .live) = true) →
        (c.reconcile url).liveness = some .live → (c.reconcile url).stored = true)

variable [DecidableEq ν]

def CountsAnew (c : Cycle ν) (url : JsString) (row : InstanceRow ν) : Prop :=
  match c.listing url with
  | some e => E.CountsListed e row
  | none => E.CountsUnlisted c url row

instance (url : JsString) (row : InstanceRow ν) (A : ManualAnswers ν) :
    Decidable (E.SettlesManual url row A) := inferInstanceAs (Decidable (_ ∧ (_ → _) ∧ _))

instance (e : DiscoveredLive ν × LiveAnswers ν) (row : InstanceRow ν) (isNew : Bool) :
    Decidable (E.SettlesListed e row isNew) := inferInstanceAs (Decidable (_ ∧ (_ → _) ∧ _))

instance (e : DiscoveredLive ν × LiveAnswers ν) (row : InstanceRow ν) :
    Decidable (E.CountsListed e row) :=
  inferInstanceAs (Decidable ((_ → _ → _) ∧ (_ → _ → _ → _ → _)))

instance (c : Cycle ν) (url : JsString) (row : InstanceRow ν) :
    Decidable (E.CountsUnlisted c url row) := inferInstanceAs (Decidable (_ → _ → _ ∧ _))

instance (c : Cycle ν) (url : JsString) (row : InstanceRow ν) :
    Decidable (E.CountsAnew c url row) :=
  show Decidable (match c.listing url with
    | some e => E.CountsListed e row
    | none => E.CountsUnlisted c url row) from
  match c.listing url with
  | some e => inferInstanceAs (Decidable (E.CountsListed e row))
  | none => inferInstanceAs (Decidable (E.CountsUnlisted c url row))

end Engine

section Turn

variable [DecidableEq ν] {E : Engine} {url : JsString}

/-- A listed instance keeps its status and its failures, and its live probe has not settled; or
it takes both from the answer of its probe. -/
theorem SeenTurn.counter {inst : DiscoveredLive ν} {signer dTag : JsString}
    {row r' : InstanceRow ν} {isNew : Bool} {A : LiveAnswers ν} {w : List (Call ν)}
    (h : SeenTurn E inst signer dTag row isNew A r' w) :
    (r'.status = row.status ∧ r'.consecutiveFailures = row.consecutiveFailures ∧
      (row.discoveryEnabled = true → A.liveness = some .live →
        ¬E.SettlesListed (inst, A) row isNew)) ∨
    ∃ liveness, row.discoveryEnabled = true ∧ A.liveness = some liveness ∧
      r'.status = Engine.statusOf liveness ∧
      r'.consecutiveFailures = Engine.failuresAfter liveness row := by
  cases h with
  | optedOut hoff =>
    refine .inl ⟨rfl, rfl, fun hon => ?_⟩
    rw [hoff] at hon
    cases hon
  | unanswered _ hl =>
    refine .inl ⟨rfl, rfl, fun _ hlive => ?_⟩
    rw [hl] at hlive
    cases hlive
  | stalled _ hl hr =>
    refine .inl ⟨rfl, rfl, fun _ hlive hsettles => ?_⟩
    obtain rfl := Option.some.inj (hl.symm.trans hlive)
    exact hr hsettles.1
  | thrown _ hl _ hnews hp =>
    refine .inl ⟨rfl, rfl, fun _ hlive hsettles => ?_⟩
    obtain rfl := Option.some.inj (hl.symm.trans hlive)
    have hpub := hsettles.2.1 hnews
    rw [hp] at hpub
    cases hpub
  | quiet hon hl | told hon hl =>
    split
    · exact .inr ⟨_, hon, hl, rfl, rfl⟩
    · rename_i hlost
      exact .inl ⟨rfl, rfl, fun _ _ hsettles => hlost hsettles.2.2⟩

theorem ManualTurn.counter {row r' : InstanceRow ν} {A : ManualAnswers ν} {found : Bool}
    {w : List (Call ν)} (h : ManualTurn E url row A r' found w) :
    (r'.status = row.status ∧ r'.consecutiveFailures = row.consecutiveFailures ∧
      (row.discoveryEnabled = true → A.liveness = some .live → ¬E.SettlesManual url row A)) ∨
    (r'.status = .live ∧ r'.consecutiveFailures = 0) := by
  cases h with
  | optedOut hoff =>
    refine .inl ⟨rfl, rfl, fun hon => ?_⟩
    rw [hoff] at hon
    cases hon
  | unanswered _ hl =>
    refine .inl ⟨rfl, rfl, fun _ hlive => ?_⟩
    rw [hl] at hlive
    cases hlive
  | missed _ hl hne => exact .inl ⟨rfl, rfl, fun _ hlive =>
      absurd (Option.some.inj (hl.symm.trans hlive)) hne⟩
  | stalled _ _ hr => exact .inl ⟨rfl, rfl, fun _ _ hsettles => hr hsettles.1⟩
  | thrown _ _ _ hnews hp =>
    refine .inl ⟨rfl, rfl, fun _ _ hsettles => ?_⟩
    have hpub := hsettles.2.1 hnews
    rw [hp] at hpub
    cases hpub
  | quiet | told =>
    split
    · exact .inr ⟨rfl, rfl⟩
    · rename_i hlost
      exact .inl ⟨rfl, rfl, fun _ _ hsettles => hlost hsettles.2.2⟩

omit [DecidableEq ν] in
/-- The last pass keeps the failures of a row, and then its live probe is not stored; or it resets
them, counts one more, or ends the row. -/
theorem ReconcileTurn.counter {row r' : InstanceRow ν} {A : ReconcileAnswers}
    {w : List (Call ν)} (h : ReconcileTurn E url row A r' w) :
    (r'.status = row.status ∧ r'.consecutiveFailures = row.consecutiveFailures ∧
      (row.discoveryEnabled = true → A.liveness = some .live → A.stored = false)) ∨
    (r'.status = row.status ∧ r'.consecutiveFailures = 0) ∨
    (∃ liveness, row.discoveryEnabled = true ∧ A.liveness = some liveness ∧ liveness ≠ .live ∧
      r'.status = row.status ∧ r'.consecutiveFailures = row.consecutiveFailures + 1) ∨
    r'.status = .ended := by
  cases h with
  | optedOut hoff =>
    refine .inl ⟨rfl, rfl, fun hon => ?_⟩
    rw [hoff] at hon
    cases hon
  | unanswered _ hl =>
    refine .inl ⟨rfl, rfl, fun _ hlive => ?_⟩
    rw [hl] at hlive
    cases hlive
  | alive =>
    split
    · exact .inr (.inl ⟨rfl, rfl⟩)
    · rename_i hlost
      exact .inl ⟨rfl, rfl, fun _ _ => Bool.eq_false_iff.mpr hlost⟩
  | failing hon hl hne =>
    split
    · exact .inr (.inr (.inl ⟨_, hon, hl, hne, rfl, rfl⟩))
    · exact .inl ⟨rfl, rfl, fun _ hlive => absurd (Option.some.inj (hl.symm.trans hlive)) hne⟩
  | thrown _ hl hne =>
    exact .inl ⟨rfl, rfl, fun _ hlive => absurd (Option.some.inj (hl.symm.trans hlive)) hne⟩
  | ended _ hl hne =>
    split
    · exact .inr (.inr (.inr rfl))
    · exact .inl ⟨rfl, rfl, fun _ hlive => absurd (Option.some.inj (hl.symm.trans hlive)) hne⟩

end Turn

/-- The failed probes in a row, after one more answer. -/
def countFailed (n : Nat) (liveness : Liveness) : Nat := if liveness = .live then 0 else n + 1

/-- The answer of the probe of a row, if it is probed at all and answers. -/
def answerOf (row : InstanceRow ν) (answer : Option Liveness) : List Liveness :=
  if row.discoveryEnabled then answer.toList else []

/-- What the probes of an instance have answered in a cycle. -/
def Engine.answered [DecidableEq ν] (E : Engine) (c : Cycle ν) (s : DiscoveryState ν)
    (url : JsString) : List Liveness := (E.probed c s url).map Prod.fst

section Bounds

variable [DecidableEq ν] {E : Engine} {url : JsString}

omit [DecidableEq ν] in
theorem answerOf_le {row : InstanceRow ν} {answer : Option Liveness} {n : Nat}
    (h : row.discoveryEnabled = true → answer ≠ some .live) :
    n ≤ (answerOf row answer).foldl countFailed n := by
  unfold answerOf
  split
  · rename_i hon
    cases answer with
    | none => exact Nat.le_refl n
    | some liveness =>
      have hne : liveness ≠ .live := fun hlive => h hon (by rw [hlive])
      show n ≤ countFailed n liveness
      rw [countFailed, if_neg hne]
      exact Nat.le_succ n
  · exact Nat.le_refl n

omit [DecidableEq ν] in
/-- A live row that keeps its failures is still bounded by its failed probes in a row. -/
theorem answerOf_kept {row : InstanceRow ν} {answer : Option Liveness} {n : Nat}
    (hn : row.consecutiveFailures ≤ n)
    (h : row.discoveryEnabled = true → row.consecutiveFailures ≠ 0 → answer ≠ some .live) :
    row.consecutiveFailures ≤ (answerOf row answer).foldl countFailed n := by
  by_cases h0 : row.consecutiveFailures = 0
  · rw [h0]
    exact Nat.zero_le _
  · exact Nat.le_trans hn (answerOf_le fun hon => h hon h0)

theorem SeenTurn.consecutiveFailures_le {inst : DiscoveredLive ν} {signer dTag : JsString}
    {row r' : InstanceRow ν} {isNew : Bool} {A : LiveAnswers ν} {w : List (Call ν)}
    (h : SeenTurn E inst signer dTag row isNew A r' w) :
    r'.consecutiveFailures ≤ row.consecutiveFailures := by
  rcases h.counter with ⟨-, hkept, -⟩ | ⟨liveness, -, -, -, hcount⟩
  · exact Nat.le_of_eq hkept
  · rw [hcount, Engine.failuresAfter]
    split
    · exact Nat.le_refl _
    · exact Nat.zero_le _

/-- A listed row that was live and is live has no more failures than failed probes in a row. -/
theorem SeenTurn.bounded {inst : DiscoveredLive ν} {signer dTag : JsString}
    {row r' : InstanceRow ν} {isNew : Bool} {A : LiveAnswers ν} {w : List (Call ν)} {n : Nat}
    (h : SeenTurn E inst signer dTag row isNew A r' w) (hn : row.consecutiveFailures ≤ n)
    (hsettles : row.discoveryEnabled = true → row.consecutiveFailures ≠ 0 →
      A.liveness = some .live → E.SettlesListed (inst, A) row isNew) :
    r'.consecutiveFailures ≤ (answerOf row A.liveness).foldl countFailed n := by
  rcases h.counter with ⟨-, hkept, hnot⟩ | ⟨liveness, hon, hl, -, hcount⟩
  · rw [hkept]
    exact answerOf_kept hn fun hon h0 hlive => hnot hon hlive (hsettles hon h0 hlive)
  · by_cases hlive : liveness = .live
    · rw [hcount, hlive]
      exact Nat.zero_le _
    · refine Nat.le_trans h.consecutiveFailures_le (answerOf_kept hn fun _ _ hl' => hlive ?_)
      exact Option.some.inj (hl.symm.trans hl')

/-- A listed row that comes back to life has no failures. -/
theorem SeenTurn.revived {inst : DiscoveredLive ν} {signer dTag : JsString}
    {row r' : InstanceRow ν} {isNew : Bool} {A : LiveAnswers ν} {w : List (Call ν)}
    (h : SeenTurn E inst signer dTag row isNew A r' w) (hended : row.status = .ended)
    (hlive : r'.status = .live)
    (herror : row.discoveryEnabled = true → A.liveness = some .error →
      row.consecutiveFailures = 0) : r'.consecutiveFailures = 0 := by
  rcases h.counter with ⟨hstatus, -, -⟩ | ⟨liveness, hon, hl, hstatus, hcount⟩
  · rw [hstatus, hended] at hlive
    cases hlive
  · cases liveness with
    | live => exact hcount
    | ended =>
      rw [hstatus] at hlive
      cases hlive
    | error => exact hcount.trans (herror hon hl)

theorem answered_eq {c : Cycle ν} {s : DiscoveryState ν} {w : List (Call ν)}
    (hw : contacts (Keyed.logOf url (E.runCycle c s).cycleLog) = w) :
    E.answered c s url =
      ((E.probeAnswers c url (s.table.get? url)).take (probeCount w)).filterMap Prod.fst := by
  unfold Engine.answered Engine.probed
  rw [← hw, probeCount_contacts, List.map_filterMap]
  simp [Function.comp_def]

omit [DecidableEq ν] in
/-- The answer of a single pass. -/
theorem answers_take (row : InstanceRow ν) (answer : Option Liveness) (now : Int)
    (later : List (Option Liveness × Int)) :
    (((answer, now) :: later).take (if row.discoveryEnabled then 1 else 0)).filterMap Prod.fst =
      answerOf row answer := by
  unfold answerOf
  cases row.discoveryEnabled with
  | false => rfl
  | true =>
    cases answer with
    | none => rfl
    | some liveness => rfl

omit [DecidableEq ν] in
/-- A row that the last pass leaves live has no more failures than failed probes in a row. -/
theorem ReconcileTurn.bounded {row r' : InstanceRow ν} {A : ReconcileAnswers}
    {w : List (Call ν)} {n : Nat} (h : ReconcileTurn E url row A r' w)
    (hn : row.consecutiveFailures ≤ n) (hlive : r'.status = .live)
    (hstored : row.discoveryEnabled = true → row.consecutiveFailures ≠ 0 →
      A.liveness = some .live → A.stored = true) :
    r'.consecutiveFailures ≤ (answerOf row A.liveness).foldl countFailed n := by
  rcases h.counter with ⟨-, hkept, hlost⟩ | ⟨-, h0⟩ | ⟨liveness, hon, hl, hne, -, hcount⟩ | hended
  · rw [hkept]
    apply answerOf_kept hn
    intro hon h0 hl
    exact absurd ((hlost hon hl).symm.trans (hstored hon h0 hl)) Bool.false_ne_true
  · rw [h0]
    exact Nat.zero_le _
  · rw [hcount, answerOf, if_pos hon, hl]
    show _ ≤ countFailed n liveness
    rw [countFailed, if_neg hne]
    exact Nat.succ_le_succ hn
  · rw [hended] at hlive
    cases hlive

omit [DecidableEq ν] in
/-- The answers of the last two passes. -/
theorem answers_both {c : Cycle ν} {row r' : InstanceRow ν} {w : List (Call ν)}
    (hlisting : c.listing url = none) (hm : listManual E.sourceKey row = true)
    {liveness : Liveness} (hmissed : (c.manual url).liveness = some liveness)
    (h : ReconcileTurn E url row (c.reconcile url) r' w) :
    ((E.probeAnswers c url (some row)).take
      (probeCount (.checkLiveness row.hlsUrl :: w))).filterMap Prod.fst =
        liveness :: answerOf row (c.reconcile url).liveness := by
  have hcount : probeCount (.checkLiveness row.hlsUrl :: w) =
      (if row.discoveryEnabled then 1 else 0) + 1 := by
    rw [← h.probes]
    exact List.countP_cons_of_pos rfl
  rw [hcount]
  rw [probeAnswers_manual hlisting hm, List.take_succ_cons, hmissed]
  show liveness :: List.filterMap Prod.fst (List.take (if row.discoveryEnabled then 1 else 0) _) = _
  rw [answers_take]

/-- A row that was live and is live has no more failures than failed probes in a row. -/
theorem Turn.bounded {c : Cycle ν} {row r' : InstanceRow ν} {w : List (Call ν)} {n : Nat}
    (h : Turn E c url (some row) (some r') w) (hstatus : row.status = .live)
    (hn : row.consecutiveFailures ≤ n) (hlive : r'.status = .live)
    (hcounts : row.discoveryEnabled = true → E.CountsAnew c url row) :
    r'.consecutiveFailures ≤ (((E.probeAnswers c url (some row)).take
      (probeCount w)).filterMap Prod.fst).foldl countFailed n := by
  unfold Engine.CountsAnew at hcounts
  cases h with
  | passed => exact hn
  | listed he hup hrow h =>
    subst hrow
    simp only [he] at hcounts
    rw [h.probes, probeAnswers_listed he, answers_take]
    apply h.bounded hn
    intro hon h0 hl
    exact (hcounts hon).2 hstatus h0 (by rw [hup]; rfl) hl
  | manual hlisting hrow hm h =>
    obtain rfl := Option.some.inj hrow
    simp only [hlisting] at hcounts
    rw [h.probes, probeAnswers_manual hlisting hm, answers_take]
    rcases h.counter with ⟨-, hkept, hnot⟩ | ⟨-, h0⟩
    · rw [hkept]
      apply answerOf_kept hn
      intro hon h0 hl
      exact hnot hon hl ((hcounts hon hstatus h0).1 hm hl)
    · rw [h0]
      exact Nat.zero_le _
  | reconciled hlisting hrow hm hl h =>
    obtain rfl := Option.some.inj hrow
    simp only [hlisting] at hcounts
    rw [h.probes, probeAnswers_reconciled hlisting hm, answers_take]
    apply h.bounded hn hlive
    intro hon h0 hlv
    exact (hcounts hon hstatus h0).2 hl (fun hm' => absurd (hm.symm.trans hm') Bool.false_ne_true)
      hlv
  | both hlisting hrow hm hl hon hmissed hne h =>
    obtain rfl := Option.some.inj hrow
    simp only [hlisting] at hcounts
    have hbound : r'.consecutiveFailures ≤
        (answerOf row (c.reconcile url).liveness).foldl countFailed (n + 1) := by
      apply h.bounded (Nat.le_succ_of_le hn) hlive
      intro _ h0 hlv
      exact (hcounts hon hstatus h0).2 hl (fun _ => by simp [hmissed, hne]) hlv
    rw [answers_both hlisting hm hmissed h]
    show _ ≤ (answerOf row (c.reconcile url).liveness).foldl countFailed (countFailed n _)
    rw [countFailed, if_neg hne]
    exact hbound

/-- A row that is new or comes back to life has no failures. -/
theorem Turn.revived {c : Cycle ν} {r : Option (InstanceRow ν)} {r' : InstanceRow ν}
    {w : List (Call ν)} (h : Turn E c url r (some r') w)
    (hended : ∀ row, r = some row → row.status = .ended) (hlive : r'.status = .live)
    (hcounts : ∀ row, r = some row → row.discoveryEnabled = true → E.CountsAnew c url row) :
    r'.consecutiveFailures = 0 := by
  cases h with
  | passed =>
    rw [hended r' rfl] at hlive
    cases hlive
  | listed he hup hrow h =>
    subst hrow
    cases r with
    | none => exact Nat.eq_zero_of_le_zero h.consecutiveFailures_le
    | some row =>
      apply h.revived (hended row rfl) hlive
      intro hon hl
      have hcount := hcounts row rfl hon
      simp only [Engine.CountsAnew, he] at hcount
      exact hcount.1 (hended row rfl) hl
  | manual hlisting hrow hm h =>
    rcases h.counter with ⟨hstatus, -, -⟩ | ⟨-, h0⟩
    · rw [hstatus, hended _ hrow] at hlive
      cases hlive
    · exact h0
  | reconciled hlisting hrow hm hl h | both hlisting hrow hm hl hon hmissed hne h =>
    have hstatus := listByStatus_status hl
    rw [hended _ hrow] at hstatus
    cases hstatus

/-- The manual pass ends no row. -/
theorem ManualTurn.not_ended {row r' : InstanceRow ν} {A : ManualAnswers ν} {found : Bool}
    {w : List (Call ν)} (h : ManualTurn E url row A r' found w) :
    (∀ p ∈ publishes w, p.1.status = .live) ∧ (row.status = .live → r'.status = .live) := by
  cases h with
  | optedOut | unanswered | missed => exact ⟨fun _ hp => absurd hp List.not_mem_nil, id⟩
  | stalled _ _ _ _ ha =>
    rw [Aside.probed_silent ha]
    exact ⟨fun _ hp => absurd hp List.not_mem_nil, id⟩
  | quiet _ _ _ _ _ ha =>
    rw [Aside.probed_silent ha]
    refine ⟨fun _ hp => absurd hp List.not_mem_nil, fun hlive => ?_⟩
    split
    · rfl
    · exact hlive
  | thrown _ _ _ _ _ _ ha =>
    rw [Aside.probed_event ha]
    refine ⟨fun p hp => ?_, id⟩
    rw [List.mem_singleton.mp hp]
    rfl
  | told _ _ _ _ _ _ ha =>
    rw [Aside.probed_event ha]
    refine ⟨fun p hp => ?_, fun hlive => ?_⟩
    · rw [List.mem_singleton.mp hp]
      rfl
    · split
      · rfl
      · exact hlive

omit [DecidableEq ν] in
/-- The last pass publishes a terminal event or ends a row only behind a failed probe that makes
the failures enough. -/
theorem ReconcileTurn.torn {row r' : InstanceRow ν} {A : ReconcileAnswers} {w : List (Call ν)}
    (h : ReconcileTurn E url row A r' w) (hlive : row.status = .live)
    (ht : publishes w ≠ [] ∨ r'.status = .ended) :
    E.maxConsecutiveFailures ≤ row.consecutiveFailures + 1 ∧
      row.consecutiveFailures + 1 ≤ (answerOf row A.liveness).foldl countFailed
        row.consecutiveFailures := by
  have hno {P : Prop} (h : ([] : List (Publish ν)) ≠ [] ∨ row.status = .ended) : P := by
    rcases h with h | h
    · exact absurd rfl h
    · rw [hlive] at h
      cases h
  cases h with
  | optedOut | unanswered => exact hno ht
  | alive | failing =>
    split at ht
    · exact hno ht
    · exact hno ht
  | thrown hon hl hne hn | ended hon hl hne hn =>
    refine ⟨hn, ?_⟩
    rw [answerOf, if_pos hon, hl]
    show _ ≤ countFailed _ _
    rw [countFailed, if_neg hne]

omit [DecidableEq ν] in
theorem answerOf_mono (row : InstanceRow ν) (answer : Option Liveness) {m n : Nat} (h : m ≤ n) :
    (answerOf row answer).foldl countFailed m ≤ (answerOf row answer).foldl countFailed n := by
  unfold answerOf
  split
  · cases answer with
    | none => exact h
    | some liveness =>
      show countFailed m liveness ≤ countFailed n liveness
      unfold countFailed
      split
      · exact Nat.le_refl 0
      · exact Nat.succ_le_succ h
  · exact h

end Bounds

/-- The stored instances, with the failed probes in a row of each url since its row last became
live. -/
structure ProbeWatch (ν : Type) where
  discovery : DiscoveryState ν
  failed : JsString → Nat

def liveIn (table : InstanceTable ν) (url : JsString) : Bool :=
  (table.get? url).any fun row => row.status = .live

namespace ProbeWatch

variable [DecidableEq ν] [JsNumber ν]

def init : ProbeWatch ν := ⟨.init, fun _ => 0⟩

/-- The failed probes in a row behind a cycle, had the row been live before. -/
def failedAfter (E : Engine) (c : Cycle ν) (w : ProbeWatch ν) (url : JsString) : Nat :=
  (E.answered c w.discovery url).foldl countFailed (w.failed url)

/-- One step; a url whose row becomes live starts anew. -/
def step (E : Engine) (w : ProbeWatch ν) (a : DiscoveryAction ν) : Option (ProbeWatch ν) :=
  (E.discoveryStep w.discovery a).map fun t =>
    ⟨t, fun url =>
      if liveIn t.table url && !liveIn w.discovery.table url then 0
      else
        match a with
        | .cycle payload live answers => w.failedAfter E (E.cycleOn payload live answers) url
        | .addManual _ _ => w.failed url⟩

/-- The last pass of the cycle publishes a terminal event for an instance, or ends its row: an
instance that is listed is left to the first pass. -/
def TearsDown (E : Engine) (c : Cycle ν) (w : ProbeWatch ν) (url : JsString) : Prop :=
  c.listing url = none ∧
    ((∃ p ∈ publishes (Keyed.logOf url (E.runCycle c w.discovery).cycleLog), p.1.status = .ended) ∨
      liveIn w.discovery.table url = true ∧
        ∃ row, (E.runCycle c w.discovery).table.get? url = some row ∧ row.status = .ended)

/-- An instance is torn down only behind as many failed probes in a row as it takes. -/
def TeardownLaw (E : Engine) (c : Cycle ν) (w : ProbeWatch ν) : Prop :=
  ∀ url, w.TearsDown E c url → E.maxConsecutiveFailures ≤ w.failedAfter E c url

/-- Each enabled row counts its failures anew; a live row that is added by hand has none. -/
def CountsFailures (E : Engine) (w : ProbeWatch ν) : DiscoveryAction ν → Prop
  | .cycle payload live answers => ∀ entry ∈ w.discovery.table.entries,
      entry.2.discoveryEnabled = true →
        E.CountsAnew (E.cycleOn payload live answers) entry.1 entry.2
  | .addManual _ row => row.status = .live → row.consecutiveFailures = 0

instance (E : Engine) (w : ProbeWatch ν) : ∀ a, Decidable (w.CountsFailures E a)
  | .cycle _ _ _ => inferInstanceAs (Decidable (∀ _ ∈ _, _))
  | .addManual _ _ => inferInstanceAs (Decidable (_ → _))

/-- A live row has no more failures than failed probes in a row. -/
def Bounded (w : ProbeWatch ν) : Prop :=
  ∀ url row, w.discovery.table.get? url = some row → row.status = .live →
    row.consecutiveFailures ≤ w.failed url

variable {E : Engine} {w w' : ProbeWatch ν}

omit [DecidableEq ν] [JsNumber ν] in
theorem init_bounded : (init : ProbeWatch ν).Bounded :=
  fun _ _ h => absurd h (Option.some_ne_none _).symm

omit [DecidableEq ν] [JsNumber ν] in
theorem liveIn_iff {table : InstanceTable ν} {url : JsString} :
    liveIn table url = true ↔ ∃ row, table.get? url = some row ∧ row.status = .live := by
  simp [liveIn, Option.any_eq_true]

omit [JsNumber ν] in
theorem cycle_bounded {c : Cycle ν} (hn : (c.live.map fun e => e.1.url).Nodup) (h : w.Bounded)
    (hg : ∀ entry ∈ w.discovery.table.entries, entry.2.discoveryEnabled = true →
      E.CountsAnew c entry.1 entry.2) {url : JsString} {r' : InstanceRow ν}
    (hrow' : (E.runCycle c w.discovery).table.get? url = some r') (hlive : r'.status = .live) :
    r'.consecutiveFailures ≤
      if liveIn (E.runCycle c w.discovery).table url && !liveIn w.discovery.table url then 0
      else w.failedAfter E c url := by
  have hturn := runCycle_turn E hn w.discovery url
  have hcounts (row : InstanceRow ν) (hrow : w.discovery.table.get? url = some row)
      (hon : row.discoveryEnabled = true) : E.CountsAnew c url row :=
    hg (url, row) ((w.discovery.table.get?_eq_some_iff url row).mp hrow) hon
  rw [hrow'] at hturn
  cases hwas : liveIn w.discovery.table url with
  | true =>
    obtain ⟨row, hrow, hstatus⟩ := liveIn_iff.mp hwas
    rw [Bool.not_true, Bool.and_false, if_neg Bool.false_ne_true, failedAfter, answered_eq rfl]
    rw [hrow] at hturn ⊢
    exact hturn.bounded hstatus (h url row hrow hstatus) hlive (hcounts row hrow)
  | false =>
    apply Nat.le_trans (Nat.le_of_eq (hturn.revived ?_ hlive hcounts)) (Nat.zero_le _)
    intro row hrow
    cases hstatus : row.status with
    | ended => rfl
    | live =>
      rw [liveIn_iff.mpr ⟨row, hrow, hstatus⟩] at hwas
      cases hwas

theorem step_bounded {a : DiscoveryAction ν} (h : w.Bounded) (hg : w.CountsFailures E a)
    (hs : step E w a = some w') : w'.Bounded := by
  obtain ⟨t, ht, rfl⟩ := Option.map_eq_some_iff.mp hs
  intro url r' hrow' hlive
  cases a with
  | cycle payload live answers =>
    obtain rfl := Option.some.inj ht
    exact cycle_bounded (cycleOn_nodup E payload live answers) h hg hrow' hlive
  | addManual added row =>
    simp only [Engine.discoveryStep] at ht
    split at ht
    · cases ht
    · obtain rfl := Option.some.inj ht
      have hold := hrow'
      simp only at hold
      rw [OrderedMap.get?_set] at hold
      split at hold
      · obtain rfl := Option.some.inj hold
        rw [show InstanceRow.consecutiveFailures _ = row.consecutiveFailures from rfl, hg hlive]
        exact Nat.zero_le _
      · have hle := h url r' hold hlive
        have hwas : liveIn w.discovery.table url = true := liveIn_iff.mpr ⟨r', hold, hlive⟩
        simp only [hwas, Bool.not_true, Bool.and_false, Bool.false_eq_true, if_false]
        exact hle

omit [JsNumber ν] in
/-- A turn over an instance that is not listed tears it down only behind enough failures, the
last of which is a failed probe of this cycle. -/
theorem turn_teardown {c : Cycle ν} {url : JsString} {r r' : Option (InstanceRow ν)}
    {calls : List (Call ν)} {n : Nat} (hturn : Turn E c url r r' calls)
    (hlisting : c.listing url = none)
    (htorn : (∃ p ∈ publishes calls, p.1.status = .ended) ∨
      ∃ row r₁, r = some row ∧ row.status = .live ∧ r' = some r₁ ∧ r₁.status = .ended)
    (hn : ∀ row, r = some row → row.status = .live → row.consecutiveFailures ≤ n) :
    E.maxConsecutiveFailures ≤ (((E.probeAnswers c url r).take
      (probeCount calls)).filterMap Prod.fst).foldl countFailed n := by
  have hevent {w : List (Call ν)} (h : ∃ p ∈ publishes w, p.1.status = .ended) :
      publishes w ≠ [] := by
    obtain ⟨p, hp, -⟩ := h
    exact List.ne_nil_of_mem hp
  have hdied {r₂ : InstanceRow ν} (h : ∃ row r₁, r = some row ∧ row.status = .live ∧
      some r₂ = some r₁ ∧ r₁.status = .ended) : r₂.status = .ended := by
    obtain ⟨_, r₁, -, -, heq, hdead⟩ := h
    rw [Option.some.inj heq]
    exact hdead
  cases hturn with
  | passed =>
    rcases htorn with ⟨p, hp, -⟩ | ⟨row, r₁, hrow, hlive, hr₁, hdead⟩
    · cases hp
    · obtain rfl := Option.some.inj (hrow.symm.trans hr₁)
      rw [hlive] at hdead
      cases hdead
  | listed he =>
    rw [hlisting] at he
    cases he
  | manual _ hrow _ h =>
    obtain ⟨hevents, hkept⟩ := h.not_ended
    rcases htorn with ⟨p, hp, hdead⟩ | ⟨row, r₁, hrow', hlive, hr₁, hdead⟩
    · rw [hevents p hp] at hdead
      cases hdead
    · obtain rfl := Option.some.inj (hrow.symm.trans hrow')
      obtain rfl := Option.some.inj hr₁
      rw [hkept hlive] at hdead
      cases hdead
  | reconciled _ hrow hm hl h =>
    subst hrow
    have hlive := listByStatus_status hl
    obtain ⟨hmax, hlast⟩ := h.torn hlive (htorn.imp hevent hdied)
    rw [h.probes, probeAnswers_reconciled hlisting hm, answers_take]
    exact Nat.le_trans hmax (Nat.le_trans hlast (answerOf_mono _ _ (hn _ rfl hlive)))
  | both _ hrow hm hl hon hmissed hne h =>
    subst hrow
    have hlive := listByStatus_status hl
    obtain ⟨hmax, hlast⟩ := h.torn hlive (htorn.imp hevent hdied)
    rw [answers_both hlisting hm hmissed h]
    show _ ≤ (answerOf _ (c.reconcile url).liveness).foldl countFailed (countFailed n _)
    rw [countFailed, if_neg hne]
    have hle := Nat.le_succ_of_le (hn _ rfl hlive)
    exact Nat.le_trans hmax (Nat.le_trans hlast (answerOf_mono _ _ hle))

omit [JsNumber ν] in
theorem Bounded.teardownLaw {c : Cycle ν} (hn : (c.live.map fun e => e.1.url).Nodup)
    (h : w.Bounded) : w.TeardownLaw E c := by
  rintro url ⟨hlisting, htorn⟩
  rw [failedAfter, answered_eq rfl]
  apply turn_teardown (runCycle_turn E hn w.discovery url) hlisting _ (h url)
  rcases htorn with ⟨p, hp, hdead⟩ | ⟨hwas, r₁, hr₁, hdead⟩
  · refine .inl ⟨p, ?_, hdead⟩
    rw [publishes_contacts]
    exact hp
  · obtain ⟨row, hrow, hlive⟩ := liveIn_iff.mp hwas
    exact .inr ⟨row, r₁, hrow, hlive, hr₁, hdead⟩

/-- In every run whose rows count their failures anew, the next cycle tears an instance down only
behind as many failed probes in a row, since its row became live, as it takes. -/
theorem countsFailures_teardownLaw (E : Engine) (as : List (DiscoveryAction ν)) (w : ProbeWatch ν)
    (hr : run (step E) init as = some w) (hg : Guarded (step E) (CountsFailures E) init as)
    (payload : Option (Json ν)) (live : JsString → LiveAnswers ν) (answers : CycleAnswers ν) :
    w.TeardownLaw E (E.cycleOn payload live answers) := by
  have hbounded := run_invariant (fun _ _ _ => step_bounded) init_bounded hg hr
  exact hbounded.teardownLaw (cycleOn_nodup E payload live answers)

/-- The stream is not listed, and a probe of it fails. -/
def failedAnswers : CycleAnswers Int :=
  { demoAnswers with reconcile := fun _ => ⟨some .ended, accepted, 5, true⟩ }

def failedCycle : DiscoveryAction Int := .cycle emptyPayload demoLive failedAnswers

/-- The stream is listed, and its probe gives an error. -/
def errorCycle : DiscoveryAction Int :=
  .cycle (some (demoPayload "https://a.example"))
    (fun url => { demoLive url with liveness := some .error }) demoAnswers

theorem countsFailures_teardownLaw_third :
    ∃ w, run (step demoEngine) init
        [demoCycle "https://a.example", failedCycle, failedCycle] = some w ∧
      w.TeardownLaw demoEngine (demoEngine.cycleOn emptyPayload demoLive failedAnswers) := by
  have hrun : (run (step demoEngine) init
      [demoCycle "https://a.example", failedCycle, failedCycle]).isSome = true := by
    decide +kernel
  obtain ⟨w, hw⟩ := Option.isSome_iff_exists.mp hrun
  exact ⟨w, hw, countsFailures_teardownLaw demoEngine _ w hw (by decide +kernel) emptyPayload
    demoLive failedAnswers⟩

/-- A row that was torn down comes back on an error with its three failures, and is torn down
again by a single failed probe. -/
theorem teardownLaw_fails_relisted :
    ¬∀ w, run (step demoEngine) init [demoCycle "https://a.example", failedCycle, failedCycle,
        failedCycle, errorCycle] = some w →
      w.TeardownLaw demoEngine (demoEngine.cycleOn emptyPayload demoLive failedAnswers) := by
  intro h
  let url := js "https://a.example"
  let c := demoEngine.cycleOn emptyPayload demoLive failedAnswers
  have hrun : (run (step demoEngine) init [demoCycle "https://a.example", failedCycle,
      failedCycle, failedCycle, errorCycle]).map (fun w =>
        ((publishes (Keyed.logOf url (demoEngine.runCycle c w.discovery).cycleLog)).map
          fun p => p.1.status, w.failedAfter demoEngine c url)) = some ([.ended], 1) := by
    decide +kernel
  obtain ⟨w, hw, hp⟩ := Option.map_eq_some_iff.mp hrun
  obtain ⟨hevents, hfailed⟩ := Prod.mk.inj hp
  have hended : Status.ended ∈
      (publishes (Keyed.logOf url (demoEngine.runCycle c w.discovery).cycleLog)).map
        fun p => p.1.status := by
    rw [hevents]
    exact List.mem_singleton_self _
  obtain ⟨p, hp, hstatus⟩ := List.mem_map.mp hended
  have hlaw := h w hw url ⟨by decide +kernel, .inl ⟨p, hp, hstatus⟩⟩
  rw [hfailed] at hlaw
  revert hlaw
  decide

end ProbeWatch

end LivelierBridge.Discovery
