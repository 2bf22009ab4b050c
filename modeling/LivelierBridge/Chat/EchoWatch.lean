import LivelierBridge.Chat.Restarts

namespace LivelierBridge.Chat

open Framework Js

/-- Subscription health-check cadence. -/
def HEALTH_CHECK_MS : Nat := 60000

/-- A bridged 1311. -/
abbrev BridgedId := Nat

/-- The firehoses with the timer of their health check, one at a time, and with the 1311s that
the bridge published. -/
structure EchoWatch where
  firehoses : Firehoses
  /-- When the timer was armed or fired last. -/
  healthTimer : Option Nat
  /-- The 1311s whose publish was counted, and when. -/
  counted : List (BridgedId × Nat)
  /-- The 1311s that came back on the local subscription, and when. -/
  echoes : List (BridgedId × Nat)
  /-- The last check of the held subscription found publishes and no reception, although no echo
  was owed any more. -/
  straddled : Bool

inductive EchoAction where
  /-- Whatever else happens to the firehoses, other traffic included. -/
  | other (a : FirehoseAction)
  /-- `start()` goes on after its refresh. -/
  | armed
  /-- `handleSourceChat` goes on after its publish. -/
  | counted (id : BridgedId)
  /-- The local subscription delivers the bridge's own 1311. -/
  | echo (id : BridgedId)
  | fired (echoes : List Echo)

namespace Firehoses

/-- The echo accounting goes on. The local handle stays, or `stop()` gives it up, or a running
service without one has opened it. -/
structure GoesOn (s s' : Firehoses) : Prop where
  now : s.now ≤ s'.now
  streak : s'.echoMissStreak = s.echoMissStreak
  seen : s.seenSinceCheck ≤ s'.seenSinceCheck
  stopped : s.stopped = true → s'.stopped = true
  sub : s'.nostrSub = s.nostrSub ∨ (s'.nostrSub = none ∧ s'.stopped = true) ∨
    (s.nostrSub = none ∧ s.stopped = false)

/-- The echo accounting starts anew, with another handle. -/
structure StartsAnew (s s' : Firehoses) : Prop where
  now : s.now ≤ s'.now
  streak : s'.echoMissStreak = 0
  sub : s'.nostrSub ≠ s.nostrSub

variable {cfg : FirehoseConfig} {s s' : Firehoses}

theorem GoesOn.refl (s : Firehoses) : GoesOn s s :=
  ⟨Nat.le_refl _, rfl, Nat.le_refl _, fun h => h, .inl rfl⟩

theorem ensureNostrSub_goesOn (cfg : FirehoseConfig) (s : Firehoses) :
    GoesOn s (s.ensureNostrSub cfg) := by
  unfold ensureNostrSub
  split
  · exact .refl s
  · rename_i hc
    simp only [Bool.or_eq_true, not_or, Bool.not_eq_true, Option.isSome_eq_false_iff,
      Option.isNone_iff_eq_none] at hc
    exact ⟨Nat.le_refl _, rfl, Nat.le_refl _, fun h => h, .inr (.inr ⟨hc.2, hc.1.1⟩)⟩

theorem ensureNostrSub_sub (cfg : FirehoseConfig) (s : Firehoses) :
    (s.ensureNostrSub cfg).nostrSub = s.nostrSub ∨
      (s.ensureNostrSub cfg).nostrSub = some s.nextSub := by
  unfold ensureNostrSub
  split
  · exact .inl rfl
  · exact .inr rfl

/-- What the network firehose does is no matter for the accounting. -/
theorem GoesOn.ensureNetworkSub (h : GoesOn s s') (cfg : FirehoseConfig) :
    GoesOn s (s'.ensureNetworkSub cfg) := by
  unfold Firehoses.ensureNetworkSub
  split
  · exact h
  · split
    · exact h
    · exact ⟨h.now, h.streak, h.seen, h.stopped, h.sub⟩

/-- A restart replaces the held handle by one that was never issued. -/
theorem restartNostrSub_anew (h : s.Orderly) (cfg : FirehoseConfig) {sub : SubId}
    (hsub : s.nostrSub = some sub) : StartsAnew s (s.restartNostrSub cfg id) := by
  have hissued : sub < s.nextSub := by
    have hmem : sub ∈ s.moment.unclosedOf .local := by
      rw [h.tracks.unclosed]
      simp [held, hsub]
    obtain ⟨e, he, rfl⟩ := List.mem_map.mp hmem
    exact h.tracks.issued e (List.mem_filter.mp he).1
  let closed := closeSub { s.resetWindow with nostrSub := none, deferred := none } sub
  let dropped : Firehoses := { closed with lastEventTime := s.now }
  have hdrop : s.resetWindow.dropNostrSub id = closed := by
    unfold dropNostrSub
    rw [show s.resetWindow.nostrSub = some sub from hsub]
    rfl
  have hrestart : s.restartNostrSub cfg id = dropped.ensureNostrSub cfg := by
    unfold restartNostrSub
    rw [hdrop]
  have hopen := ensureNostrSub_goesOn cfg dropped
  rw [hrestart]
  refine ⟨hopen.now, hopen.streak, fun heq => ?_⟩
  rw [hsub] at heq
  rcases ensureNostrSub_sub cfg dropped with hsame | hnew
  · cases hsame.symm.trans heq
  · have hnew' : s.nextSub = sub := Option.some.inj (hnew.symm.trans heq)
    exact Nat.lt_irrefl _ (hnew' ▸ hissued)

theorem localOnClose_accounts (h : s.Orderly) (cfg : FirehoseConfig) (reasons : List JsString) :
    GoesOn s (s.localOnClose cfg id reasons) ∨ StartsAnew s (s.localOnClose cfg id reasons) := by
  have hsame : GoesOn s (s.countClosed reasons) :=
    ⟨Nat.le_refl _, rfl, Nat.le_refl _, fun h => h, .inl rfl⟩
  unfold localOnClose
  split_ifs with hheld _ _
  · exact .inl (.refl s)
  · exact .inl hsame
  · exact .inl ⟨hsame.now, hsame.streak, hsame.seen, hsame.stopped, hsame.sub⟩
  · obtain ⟨sub, hsub⟩ : ∃ sub, s.nostrSub = some sub := by
      simp only [Bool.or_eq_true, not_or, Bool.not_eq_true, Option.isNone_eq_false_iff] at hheld
      exact Option.isSome_iff_exists.mp hheld.2
    have hnote : ((s.countClosed reasons).noteRebuild .local).Orderly :=
      h.same rfl rfl rfl rfl rfl rfl rfl
    have hanew := restartNostrSub_anew hnote cfg hsub
    exact .inr ⟨hanew.now, hanew.streak, hanew.sub⟩

theorem networkOnClose_goesOn (cfg : FirehoseConfig) (s : Firehoses) :
    GoesOn s (s.networkOnClose cfg id) := by
  unfold networkOnClose
  split
  · exact .refl s
  · split
    · exact .refl s
    · apply GoesOn.ensureNetworkSub
      exact ⟨Nat.le_refl _, rfl, Nat.le_refl _, fun h => h, .inl rfl⟩

/-- What the firehoses do apart from a check, a count and a new start. -/
theorem step_accounts {a : FirehoseAction} (h : s.Orderly) (hs : step cfg s a = some s')
    (hcheck : ∀ echoes, a ≠ .checkSubscriptionHealth echoes) (hstart : a ≠ .start) :
    GoesOn s s' ∨ StartsAnew s s' := by
  cases a with
  | tick ms =>
    obtain rfl := Option.some.inj hs
    exact .inl ⟨Nat.le_add_right _ _, rfl, Nat.le_refl _, fun h => h, .inl rfl⟩
  | start => exact absurd rfl hstart
  | refreshRooms | published =>
    obtain rfl := Option.some.inj hs
    exact .inl ⟨Nat.le_refl _, rfl, Nat.le_refl _, fun h => h, .inl rfl⟩
  | refreshed ok =>
    simp only [step] at hs
    split at hs
    · cases hs
    · rename_i n _
      obtain rfl := Option.some.inj hs
      split
      · have hopen := ensureNostrSub_goesOn cfg { s with refreshing := n }
        have hopen' : GoesOn s (ensureNostrSub cfg { s with refreshing := n }) :=
          ⟨hopen.now, hopen.streak, hopen.seen, hopen.stopped, hopen.sub⟩
        exact .inl (hopen'.ensureNetworkSub cfg)
      · exact .inl ⟨Nat.le_refl _, rfl, Nat.le_refl _, fun h => h, .inl rfl⟩
  | nostrEvent via =>
    obtain rfl := Option.some.inj hs
    cases via with
    | «local» => exact .inl ⟨Nat.le_refl _, rfl, Nat.le_succ _, fun h => h, .inl rfl⟩
    | network => exact .inl (.refl s)
  | onclose via sub reasons echoes =>
    simp only [step] at hs
    split at hs
    · obtain rfl := Option.some.inj hs
      cases via with
      | «local» =>
        have heq : s.onclose cfg reasons echoes .local = s.localOnClose cfg id reasons :=
          localOnClose_echo ..
        rw [heq]
        exact localOnClose_accounts h cfg reasons
      | network =>
        refine .inl ?_
        show GoesOn s (s.networkOnClose cfg (reenterNetwork cfg echoes))
        rw [networkOnClose_echo]
        exact networkOnClose_goesOn cfg s
    · cases hs
  | checkSubscriptionHealth echoes => exact absurd rfl (hcheck echoes)
  | stop echoes networkEchoes =>
    obtain rfl := Option.some.inj hs
    refine .inl ?_
    rw [stop_echo]
    cases s.nostrSub <;> cases s.networkSub <;>
      exact ⟨Nat.le_refl _, rfl, Nat.le_refl _, fun _ => rfl, .inr (.inl ⟨rfl, rfl⟩)⟩

end Firehoses

namespace EchoWatch

open Firehoses (demoFirehoses)

/-- The publish and its echo are less than one health-check interval apart. -/
def Close (c e : BridgedId × Nat) : Prop :=
  e.1 = c.1 ∧ e.2 < c.2 + HEALTH_CHECK_MS ∧ c.2 < e.2 + HEALTH_CHECK_MS

instance (c e : BridgedId × Nat) : Decidable (Close c e) :=
  inferInstanceAs (Decidable (_ ∧ _ ∧ _))

/-- The echo of the publish has not come yet. -/
def Owed (s : EchoWatch) (c : BridgedId × Nat) : Prop := ∀ e ∈ s.echoes, ¬Close c e

instance (s : EchoWatch) (c : BridgedId × Nat) : Decidable (s.Owed c) :=
  inferInstanceAs (Decidable (∀ e ∈ s.echoes, ¬Close c e))

/-- The health check does not return at once. -/
def judged (cfg : FirehoseConfig) (s : EchoWatch) : Bool :=
  cfg.chatFromNostr && s.firehoses.nostrSub.isSome

/-- Another handle forgets what the last check of the old one found. -/
def setFirehoses (s : EchoWatch) (f : Firehoses) (straddled : Bool) : EchoWatch :=
  { s with
    firehoses := f
    straddled := straddled && decide (f.nostrSub = s.firehoses.nostrSub) }

def init (now : Nat) : EchoWatch := ⟨.init now, none, [], [], false⟩

def step (cfg : FirehoseConfig) (s : EchoWatch) : EchoAction → Option EchoWatch
  | .other (.checkSubscriptionHealth _) | .other .published => none
  | .other .start =>
    if s.healthTimer.isNone then some (s.setFirehoses s.firehoses.start false) else none
  | .other (.stop echoes networkEchoes) =>
    some { s.setFirehoses (s.firehoses.stop cfg echoes networkEchoes) s.straddled with
      healthTimer := none }
  | .other a => (s.firehoses.step cfg a).map fun f => s.setFirehoses f s.straddled
  | .armed =>
    if s.healthTimer.isNone then some { s with healthTimer := some s.firehoses.now } else none
  | .counted id =>
    (s.firehoses.step cfg .published).map fun f =>
      { s.setFirehoses f s.straddled with counted := s.counted ++ [(id, f.now)] }
  | .echo id =>
    if s.firehoses.nostrSub.isSome then
      (s.firehoses.step cfg (.nostrEvent .local)).map fun f =>
        { s.setFirehoses f s.straddled with echoes := s.echoes ++ [(id, f.now)] }
    else none
  | .fired echoes =>
    match s.healthTimer with
    | none => none
    | some last =>
      if last + HEALTH_CHECK_MS ≤ s.firehoses.now then
        (s.firehoses.step cfg (.checkSubscriptionHealth echoes)).map fun f =>
          { s.setFirehoses f (if s.judged cfg then
              s.firehoses.echoMissing && decide (∀ c ∈ s.counted, ¬s.Owed c)
            else s.straddled) with healthTimer := some s.firehoses.now }
      else none

/-- Every echo has come within an interval of its publish, or still can. -/
def Healthy (s : EchoWatch) : Prop :=
  ∀ c ∈ s.counted, ¬s.Owed c ∨ s.firehoses.now < c.2 + HEALTH_CHECK_MS

instance (s : EchoWatch) : Decidable s.Healthy :=
  inferInstanceAs (Decidable (∀ c ∈ s.counted, _ ∨ _))

/-- The echo rule lets the check restart the subscription. -/
def ReachesLimit (cfg : FirehoseConfig) (s : EchoWatch) : EchoAction → Prop
  | .fired _ => s.judged cfg = true ∧ ECHO_MISS_RESTART ≤ s.firehoses.closeWindow.echoMissStreak
  | _ => False

instance (cfg : FirehoseConfig) (s : EchoWatch) (a : EchoAction) :
    Decidable (s.ReachesLimit cfg a) :=
  match a with
  | .fired _ => inferInstanceAs (Decidable (_ ∧ _))
  | .other _ | .armed | .counted _ | .echo _ => inferInstanceAs (Decidable False)

/-- A check finds publishes and no reception right after one that found the same although every
echo had come, before the window that it closed. -/
def Straddles (cfg : FirehoseConfig) (s : EchoWatch) : EchoAction → Prop
  | .fired _ => s.judged cfg = true ∧ s.firehoses.echoMissing = true ∧ s.straddled = true
  | _ => False

instance (cfg : FirehoseConfig) (s : EchoWatch) (a : EchoAction) :
    Decidable (s.Straddles cfg a) :=
  match a with
  | .fired _ => inferInstanceAs (Decidable (_ ∧ _ ∧ _))
  | .other _ | .armed | .counted _ | .echo _ => inferInstanceAs (Decidable False)

/-- A streak is explained by a straddled check, by a reception since the last check, or by a
publish that it saw and whose echo is still owed. -/
structure Watched (cfg : FirehoseConfig) (s : EchoWatch) : Prop where
  orderly : s.firehoses.Orderly
  backed : s.firehoses.Backed cfg
  idle : s.firehoses.nostrSub = none →
    s.firehoses.stopped = true ∨ s.firehoses.echoMissStreak = 0
  past : ∀ c ∈ s.counted, c.2 ≤ s.firehoses.now
  straddled : s.straddled = true →
    s.firehoses.nostrSub ≠ none ∧ 0 < s.firehoses.echoMissStreak
  miss : s.firehoses.nostrSub ≠ none → 0 < s.firehoses.echoMissStreak →
    ∃ last, s.healthTimer = some last ∧
      (s.straddled = true ∨ 0 < s.firehoses.seenSinceCheck ∨
        ∃ c ∈ s.counted, c.2 ≤ last ∧ s.Owed c)

variable {cfg : FirehoseConfig} {s s' : EchoWatch} {f : Firehoses}

theorem init_watched (cfg : FirehoseConfig) (now : Nat) : (init now).Watched cfg where
  orderly := Firehoses.init_orderly now
  backed := Firehoses.init_backed cfg now
  idle _ := .inr rfl
  past _ hc := absurd hc List.not_mem_nil
  straddled h := absurd h Bool.false_ne_true
  miss h := absurd rfl h

/-- The accounting goes on over whatever keeps it. -/
theorem Watched.goesOn (h : s.Watched cfg) (ho : f.Orderly) (hb : f.Backed cfg)
    (hf : s.firehoses.GoesOn f) : (s.setFirehoses f s.straddled).Watched cfg := by
  have hkept (hne : f.nostrSub ≠ none) (hpos : 0 < f.echoMissStreak) :
      f.nostrSub = s.firehoses.nostrSub := by
    rcases hf.sub with hsame | ⟨hnone, -⟩ | ⟨hnone, hrunning⟩
    · exact hsame
    · exact absurd hnone hne
    · -- a running service that held no handle had no streak either
      rcases h.idle hnone with hstopped | hzero
      · exact absurd hstopped (by simp [hrunning])
      · rw [hf.streak, hzero] at hpos
        exact absurd hpos (Nat.lt_irrefl 0)
  refine ⟨ho, hb, fun hnone => ?_, fun c hc => Nat.le_trans (h.past c hc) hf.now, fun hstr => ?_,
    fun hne hpos => ?_⟩
  · rcases hf.sub with hsame | ⟨-, hstopped⟩ | ⟨hnone', -⟩
    · exact (h.idle (hsame ▸ hnone)).imp hf.stopped fun hzero => hf.streak.trans hzero
    · exact .inl hstopped
    · exact (h.idle hnone').imp hf.stopped fun hzero => hf.streak.trans hzero
  · obtain ⟨hstr, hsame⟩ : s.straddled = true ∧ f.nostrSub = s.firehoses.nostrSub := by
      simpa [setFirehoses] using hstr
    obtain ⟨hne, hpos⟩ := h.straddled hstr
    exact ⟨hsame ▸ hne, hf.streak ▸ hpos⟩
  · have hsame := hkept hne hpos
    obtain ⟨last, hlast, hcase⟩ := h.miss (hsame ▸ hne) (hf.streak ▸ hpos)
    refine ⟨last, hlast, ?_⟩
    rcases hcase with hstr | hseen | howed
    · exact .inl (by simp [setFirehoses, hstr, hsame])
    · exact .inr (.inl (Nat.lt_of_lt_of_le hseen hf.seen))
    · exact .inr (.inr howed)

/-- A new handle has nothing to explain. -/
theorem Watched.startsAnew (h : s.Watched cfg) (ho : f.Orderly) (hb : f.Backed cfg)
    (hf : s.firehoses.StartsAnew f) (straddled : Bool) :
    (s.setFirehoses f straddled).Watched cfg where
  orderly := ho
  backed := hb
  idle _ := .inr hf.streak
  past c hc := Nat.le_trans (h.past c hc) hf.now
  straddled hstr := by simp [setFirehoses, hf.sub] at hstr
  miss _ hpos := absurd (hf.streak ▸ hpos) (Nat.lt_irrefl 0)

theorem Watched.accounts (h : s.Watched cfg) {a : FirehoseAction}
    (hs : s.firehoses.step cfg a = some f)
    (hcheck : ∀ echoes, a ≠ .checkSubscriptionHealth echoes) (hstart : a ≠ .start) :
    (s.setFirehoses f s.straddled).Watched cfg := by
  have ho := Firehoses.step_orderly h.orderly hs
  have hb := Firehoses.step_backed h.backed hs
  rcases Firehoses.step_accounts h.orderly hs hcheck hstart with hgoes | hanew
  · exact h.goesOn ho hb hgoes
  · exact h.startsAnew ho hb hanew s.straddled

/-- A check that restarts nothing explains the streak that it leaves. -/
theorem Watched.closeWindow (h : s.Watched cfg) (hj : s.judged cfg = true) :
    { s.setFirehoses s.firehoses.closeWindow (s.firehoses.echoMissing &&
        decide (∀ c ∈ s.counted, ¬s.Owed c)) with
      healthTimer := some s.firehoses.now }.Watched cfg := by
  have hheld : s.firehoses.nostrSub ≠ none := by
    intro hnone
    simp [judged, hnone] at hj
  refine ⟨h.orderly.same rfl rfl rfl rfl rfl rfl rfl, h.backed.same rfl rfl,
    fun hnone => absurd hnone hheld, h.past, fun hstr => ⟨hheld, ?_⟩, fun _ hpos => ?_⟩
  · obtain ⟨⟨hmiss, -⟩, -⟩ : (s.firehoses.echoMissing = true ∧ _) ∧ _ := by
      simpa [setFirehoses] using hstr
    simp [setFirehoses, Firehoses.closeWindow, hmiss]
  · have hmiss : s.firehoses.echoMissing = true := by
      by_contra hne
      simp [setFirehoses, Firehoses.closeWindow, hne] at hpos
    refine ⟨s.firehoses.now, rfl, ?_⟩
    by_cases howed : ∀ c ∈ s.counted, ¬s.Owed c
    · refine .inl ?_
      have hsame : s.firehoses.closeWindow.nostrSub = s.firehoses.nostrSub := rfl
      simpa [setFirehoses, hmiss, hsame] using fun id time => howed (id, time)
    · push Not at howed
      obtain ⟨c, hc, ho⟩ := howed
      exact .inr (.inr ⟨c, hc, h.past c hc, ho⟩)

/-- The timer may be set anew where there is no streak to explain. -/
theorem Watched.setTimer (h : s.Watched cfg) (timer : Option Nat)
    (hquiet : s.firehoses.nostrSub ≠ none → s.firehoses.echoMissStreak = 0) :
    { s with healthTimer := timer }.Watched cfg :=
  { h with miss := fun hne hpos => absurd (hquiet hne) (Nat.ne_of_gt hpos) }

theorem Watched.count (h : s.Watched cfg) (id : BridgedId) :
    { s with counted := s.counted ++ [(id, s.firehoses.now)] }.Watched cfg := by
  refine ⟨h.orderly, h.backed, h.idle, fun c hc => ?_, h.straddled, fun hne hpos => ?_⟩
  · rcases List.mem_append.mp hc with hc | hc
    · exact h.past c hc
    · obtain rfl := List.mem_singleton.mp hc
      exact Nat.le_refl _
  · obtain ⟨last, hlast, hcase⟩ := h.miss hne hpos
    refine ⟨last, hlast, hcase.imp_right fun hcase => hcase.imp_right ?_⟩
    rintro ⟨c, hc, hle, howed⟩
    exact ⟨c, List.mem_append_left _ hc, hle, howed⟩

/-- An echo is a reception, so that it may settle what was owed. -/
theorem Watched.hear (h : s.Watched cfg) (hseen : 0 < s.firehoses.seenSinceCheck)
    (e : BridgedId × Nat) : { s with echoes := s.echoes ++ [e] }.Watched cfg := by
  refine ⟨h.orderly, h.backed, h.idle, h.past, h.straddled, fun hne hpos => ?_⟩
  obtain ⟨last, hlast, -⟩ := h.miss hne hpos
  exact ⟨last, hlast, .inr (.inl hseen)⟩

theorem Watched.fired (h : s.Watched cfg) {echoes : List Echo}
    (hs : s.firehoses.step cfg (.checkSubscriptionHealth echoes) = some f) :
    { s.setFirehoses f (if s.judged cfg then
          s.firehoses.echoMissing && decide (∀ c ∈ s.counted, ¬s.Owed c)
        else s.straddled) with
      healthTimer := some s.firehoses.now }.Watched cfg := by
  have ho := Firehoses.step_orderly h.orderly hs
  have hb := Firehoses.step_backed h.backed hs
  obtain rfl := Option.some.inj hs
  rw [Firehoses.checkSubscriptionHealth_echo] at ho hb ⊢
  have hrestart (w : Firehoses) (hw : w.Orderly) (hnow : w.now = s.firehoses.now)
      (hsub : w.nostrSub = s.firehoses.nostrSub) (hheld : s.firehoses.nostrSub ≠ none) :
      s.firehoses.StartsAnew (w.restartNostrSub cfg id) := by
    obtain ⟨sub, hsome⟩ := Option.ne_none_iff_exists'.mp hheld
    have hanew := Firehoses.restartNostrSub_anew hw cfg (hsub.trans hsome)
    exact ⟨hnow ▸ hanew.now, hanew.streak, hsub ▸ hanew.sub⟩
  have hidle : (!cfg.chatFromNostr || s.firehoses.nostrSub.isNone) = !s.judged cfg := by
    simp [judged, Bool.not_and]
  unfold Firehoses.checkSubscriptionHealth at ho hb ⊢
  rw [hidle] at ho hb ⊢
  cases hj : s.judged cfg with
  | false =>
    have hsame : s.setFirehoses s.firehoses s.straddled = s := by simp [setFirehoses]
    simp only [Bool.not_false, if_true, Bool.false_eq_true, if_false, hsame]
    refine h.setTimer _ fun hne => ?_
    simp [judged, h.backed.reads hne, hne] at hj
  | true =>
    have hheld : s.firehoses.nostrSub ≠ none := by
      intro hnone
      simp [judged, hnone] at hj
    simp only [hj, Bool.not_true, Bool.false_eq_true, if_false, if_true] at ho hb ⊢
    have hclosed : s.firehoses.closeWindow.Orderly := h.orderly.same rfl rfl rfl rfl rfl rfl rfl
    split_ifs at ho hb ⊢
    · have hanew := hrestart { s.firehoses.closeWindow with echoMissStreak := 0 }
        (hclosed.same rfl rfl rfl rfl rfl rfl rfl) rfl rfl hheld
      exact (h.startsAnew ho hb hanew _).setTimer _ fun _ => hanew.streak
    · exact h.closeWindow hj
    · have hanew := hrestart s.firehoses.closeWindow hclosed rfl rfl hheld
      exact (h.startsAnew ho hb hanew _).setTimer _ fun _ => hanew.streak

theorem step_watched {a : EchoAction} (h : s.Watched cfg) (hs : step cfg s a = some s') :
    s'.Watched cfg := by
  cases a with
  | other a =>
    cases a with
    | checkSubscriptionHealth _ | published => cases hs
    | start =>
      simp only [step] at hs
      split at hs
      · obtain rfl := Option.some.inj hs
        have hf : s.firehoses.step cfg .start = some s.firehoses.start := rfl
        have ho := Firehoses.step_orderly h.orderly hf
        exact ⟨ho, h.backed.same rfl rfl, fun _ => .inr rfl, h.past, fun hstr => (nomatch hstr),
          fun _ hpos => absurd hpos (Nat.lt_irrefl 0)⟩
      · cases hs
    | stop echoes networkEchoes =>
      obtain rfl := Option.some.inj hs
      have hstop := h.accounts (a := .stop echoes networkEchoes) rfl (fun _ => by simp) (by simp)
      refine hstop.setTimer none fun hne => absurd ?_ hne
      show (s.firehoses.stop cfg echoes networkEchoes).nostrSub = none
      rw [Firehoses.stop_echo]
      cases s.firehoses.nostrSub <;> cases s.firehoses.networkSub <;> rfl
    | tick _ | refreshRooms | refreshed _ | nostrEvent _ | onclose _ _ _ _ =>
      simp only [step] at hs
      obtain ⟨f, hf, rfl⟩ := Option.map_eq_some_iff.mp hs
      exact h.accounts hf (fun _ => by simp) (by simp)
  | armed =>
    simp only [step] at hs
    split at hs
    · rename_i hnone
      obtain rfl := Option.some.inj hs
      refine h.setTimer _ fun hne => Nat.eq_zero_of_not_pos fun hpos => ?_
      obtain ⟨last, hlast, -⟩ := h.miss hne hpos
      simp [hlast] at hnone
    · cases hs
  | counted id =>
    simp only [step] at hs
    obtain ⟨f, hf, rfl⟩ := Option.map_eq_some_iff.mp hs
    exact (h.accounts hf (fun _ => by simp) (by simp)).count id
  | echo id =>
    simp only [step] at hs
    split at hs
    · obtain ⟨f, hf, rfl⟩ := Option.map_eq_some_iff.mp hs
      have hseen : 0 < f.seenSinceCheck := by
        obtain rfl := Option.some.inj hf
        exact Nat.succ_pos _
      exact (h.accounts hf (fun _ => by simp) (by simp)).hear hseen (id, f.now)
    · cases hs
  | fired echoes =>
    simp only [step] at hs
    split at hs
    · cases hs
    · split at hs
      · obtain ⟨f, hf, rfl⟩ := Option.map_eq_some_iff.mp hs
        exact h.fired hf
      · cases hs

/-- In a healthy run a due check reaches the limit exactly when it straddles. -/
theorem Watched.reachesLimit_iff (h : s.Watched cfg) (hh : s.Healthy) {a : EchoAction}
    (hs : step cfg s a = some s') : s.ReachesLimit cfg a ↔ s.Straddles cfg a := by
  cases a with
  | other _ | armed | counted _ | echo _ => exact Iff.rfl
  | fired echoes =>
    obtain ⟨last, hlast, hdue⟩ : ∃ last, s.healthTimer = some last ∧
        last + HEALTH_CHECK_MS ≤ s.firehoses.now := by
      simp only [step] at hs
      split at hs
      · cases hs
      · rename_i last hlast
        exact ⟨last, hlast, by_contra fun hearly => by simp [hearly] at hs⟩
    refine and_congr_right fun hj => ?_
    have hstreak : ECHO_MISS_RESTART ≤ s.firehoses.closeWindow.echoMissStreak ↔
        s.firehoses.echoMissing = true ∧ 0 < s.firehoses.echoMissStreak := by
      cases hm : s.firehoses.echoMissing <;>
        simp [Firehoses.closeWindow, hm, ECHO_MISS_RESTART, Nat.succ_le_iff]
    rw [hstreak]
    refine and_congr_right fun hmiss => ⟨fun hpos => ?_, fun hstr => (h.straddled hstr).2⟩
    have hheld : s.firehoses.nostrSub ≠ none := by
      intro hnone
      simp [judged, hnone] at hj
    obtain ⟨last', hlast', hcase⟩ := h.miss hheld hpos
    obtain rfl : last = last' := Option.some.inj (hlast.symm.trans hlast')
    rcases hcase with hstr | hseen | ⟨c, hc, hle, howed⟩
    · exact hstr
    · have hzero : s.firehoses.seenSinceCheck = 0 := by
        simp only [Firehoses.echoMissing, Bool.and_eq_true, decide_eq_true_eq] at hmiss
        exact hmiss.2
      omega
    · -- its echo is overdue by now
      rcases hh c hc with hcame | hlate
      · exact absurd howed hcame
      · omega

/-- While every echo comes within an interval of its publish, the echo rule restarts nothing,
unless a check straddles. -/
theorem no_echo_restart_iff (cfg : FirehoseConfig) (now : Nat) {as : List EchoAction}
    {t : EchoWatch} (hr : run (step cfg) (init now) as = some t)
    (hh : Guarded (step cfg) (fun s _ => s.Healthy) (init now) as) :
    Guarded (step cfg) (fun s a => ¬s.ReachesLimit cfg a) (init now) as ↔
      Guarded (step cfg) (fun s a => ¬s.Straddles cfg a) (init now) as :=
  guarded_congr (fun _ _ _ h hs => step_watched h hs)
    (fun _ _ _ h hh hs => not_congr (h.reachesLimit_iff hh hs)) (init_watched cfg now) hh hr

/-- The echo of the 1311 comes right after the first check. -/
def lateEcho : List EchoAction :=
  [.other .start, .other (.refreshed true), .armed, .other (.tick 59000), .counted 0,
    .other (.tick 1000), .fired [], .other (.tick 500), .echo 0, .other (.tick 59500), .fired []]

theorem no_echo_restart_iff_lateEcho :
    Guarded (step demoFirehoses) (fun s a => ¬s.ReachesLimit demoFirehoses a) (init 0)
      lateEcho := by
  have hh : Guarded (step demoFirehoses) (fun s _ => s.Healthy) (init 0) lateEcho := by
    decide +kernel
  obtain ⟨t, ht⟩ : ∃ t, run (step demoFirehoses) (init 0) lateEcho = some t :=
    Option.isSome_iff_exists.mp (by decide +kernel)
  exact (no_echo_restart_iff demoFirehoses 0 ht hh).mpr (by decide +kernel)

/-- The first 1311 is echoed before a check and counted after it; the second is counted before a
check and echoed after it. -/
def edgeEchoes : List EchoAction :=
  [.other .start, .other (.refreshed true), .armed, .other (.tick 59000), .echo 0,
    .other (.tick 1000), .fired [], .other (.tick 500), .counted 0, .other (.tick 59500),
    .fired [], .other (.tick 59500), .counted 1, .other (.tick 500), .fired [],
    .other (.tick 500), .echo 1]

theorem echo_restart_edgeEchoes :
    Guarded (step demoFirehoses) (fun s _ => s.Healthy) (init 0) edgeEchoes ∧
      (∃ t ∈ run (step demoFirehoses) (init 0) edgeEchoes,
        (∀ c ∈ t.counted, ¬t.Owed c) ∧ t.firehoses.closes = [0]) ∧
      ¬Guarded (step demoFirehoses) (fun s a => ¬s.ReachesLimit demoFirehoses a) (init 0)
        edgeEchoes := by
  decide +kernel

end EchoWatch

end LivelierBridge.Chat
