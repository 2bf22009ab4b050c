import Mathlib.Data.List.Chain
import LivelierBridge.Chat.OneFirehose

namespace LivelierBridge.Chat

open Framework Js

namespace Firehoses

/-- A deferred close is one of the held subscription, and only a service that reads from Nostr
holds any. -/
structure Backed (cfg : FirehoseConfig) (s : Firehoses) : Prop where
  deferred : ∀ sub, s.deferred = some sub → s.nostrSub = some sub
  reads : s.nostrSub ≠ none → cfg.chatFromNostr = true

variable {cfg : FirehoseConfig} {s s' : Firehoses}

theorem init_backed (cfg : FirehoseConfig) (now : Nat) : (init now).Backed cfg :=
  ⟨fun _ h => (nomatch h), fun h => absurd rfl h⟩

theorem Backed.same (h : s.Backed cfg) (hd : s'.deferred = s.deferred)
    (hn : s'.nostrSub = s.nostrSub) : s'.Backed cfg :=
  ⟨fun sub hs => hn ▸ h.deferred sub (hd ▸ hs), fun hs => h.reads (hn ▸ hs)⟩

/-- Nothing is deferred while no handle is held. -/
theorem Backed.of_none (cfg : FirehoseConfig) (hd : s.deferred = none) (hn : s.nostrSub = none) :
    s.Backed cfg :=
  ⟨fun _ hs => (nomatch hd.symm.trans hs), fun hs => absurd hn hs⟩

theorem Backed.ensureNostrSub (h : s.Backed cfg) : (s.ensureNostrSub cfg).Backed cfg := by
  unfold Firehoses.ensureNostrSub
  split
  · exact h
  · rename_i hc
    simp only [Bool.or_eq_true, not_or, Bool.not_eq_true, Bool.not_eq_false',
      Option.isSome_eq_false_iff, Option.isNone_iff_eq_none] at hc
    obtain ⟨⟨-, hreads⟩, hnone⟩ := hc
    refine ⟨fun sub hs => ?_, fun _ => hreads⟩
    rw [h.deferred sub hs] at hnone
    cases hnone

theorem Backed.ensureNetworkSub (h : s.Backed cfg) : (s.ensureNetworkSub cfg).Backed cfg := by
  unfold Firehoses.ensureNetworkSub
  split
  · exact h
  · split
    · exact h
    · exact h.same rfl rfl

theorem Backed.restartNostrSub (h : s.Backed cfg) : (s.restartNostrSub cfg id).Backed cfg := by
  apply ensureNostrSub
  unfold dropNostrSub
  split
  · exact h.same rfl rfl
  · exact .of_none cfg rfl rfl

theorem Backed.onclose (h : s.Backed cfg) (via : Via) (reasons : List JsString)
    (echoes : List Echo) : (s.onclose cfg reasons echoes via).Backed cfg := by
  cases via with
  | «local» =>
    show (s.localOnClose cfg (reenterLocal cfg echoes) reasons).Backed cfg
    rw [localOnClose_echo]
    unfold localOnClose
    split_ifs
    · exact h
    · exact h.same rfl rfl
    · exact ⟨fun _ hs => hs, h.reads⟩
    · have hnote : ((s.countClosed reasons).noteRebuild .local).Backed cfg := h.same rfl rfl
      exact hnote.restartNostrSub
  | network =>
    show (s.networkOnClose cfg (reenterNetwork cfg echoes)).Backed cfg
    rw [networkOnClose_echo]
    unfold networkOnClose
    split
    · exact h
    · split
      · exact h
      · apply ensureNetworkSub
        exact h.same rfl rfl

theorem Backed.checkSubscriptionHealth (h : s.Backed cfg) (echoes : List Echo) :
    (s.checkSubscriptionHealth cfg (reenterLocal cfg echoes)).Backed cfg := by
  have hwindow : s.closeWindow.Backed cfg := h.same rfl rfl
  have hstreak : Firehoses.Backed cfg { s.closeWindow with echoMissStreak := 0 } := h.same rfl rfl
  rw [checkSubscriptionHealth_echo]
  unfold Firehoses.checkSubscriptionHealth
  split_ifs
  · exact h
  · exact hstreak.restartNostrSub
  · exact hwindow
  · exact hwindow.restartNostrSub

theorem step_backed {a : FirehoseAction} (h : s.Backed cfg) (hs : step cfg s a = some s') :
    s'.Backed cfg := by
  cases a with
  | tick ms | refreshRooms | published | start =>
    obtain rfl := Option.some.inj hs
    exact h.same rfl rfl
  | refreshed ok =>
    simp only [step] at hs
    split at hs
    · cases hs
    · rename_i n _
      obtain rfl := Option.some.inj hs
      have hend : Firehoses.Backed cfg { s with refreshing := n } := h.same rfl rfl
      split
      · exact hend.ensureNostrSub.ensureNetworkSub
      · exact hend
  | nostrEvent via =>
    obtain rfl := Option.some.inj hs
    cases via with
    | «local» =>
      refine ⟨fun sub hd => ?_, h.reads⟩
      cases hd
    | network => exact h
  | onclose via sub reasons echoes =>
    simp only [step] at hs
    split at hs
    · obtain rfl := Option.some.inj hs
      exact h.onclose via reasons echoes
    · cases hs
  | checkSubscriptionHealth echoes =>
    obtain rfl := Option.some.inj hs
    exact h.checkSubscriptionHealth echoes
  | stop echoes networkEchoes =>
    obtain rfl := Option.some.inj hs
    rw [stop_echo]
    apply Backed.of_none
    · cases s.nostrSub <;> cases s.networkSub <;> rfl
    · cases s.nostrSub <;> cases s.networkSub <;> rfl

/-- The step closes the subscription and opens a new one. -/
def Replaced (s s' : Firehoses) (sub : SubId) : Prop :=
  sub ∈ s'.closes ∧ ∃ sub', s'.nostrSub = some sub' ∧ s.nextSub ≤ sub'

/-- Every deferred close is picked up by the next health check. -/
def PicksUp (cfg : FirehoseConfig) (now : Nat) (as : List FirehoseAction) : Prop :=
  ∀ as₁ echoes as₂ s s', as = as₁ ++ .checkSubscriptionHealth echoes :: as₂ →
    run (step cfg) (init now) as₁ = some s →
    step cfg s (.checkSubscriptionHealth echoes) = some s' →
    ∀ sub, s.deferred = some sub → Replaced s s' sub

/-- The watchdog or the silence backstop would restart the subscription anyway: publishes have
found no echo for the second window in a row, or no event has come for the tolerated silence. -/
def Overdue (s : Firehoses) : Prop :=
  (s.echoMissing = true ∧ ECHO_MISS_RESTART ≤ s.echoMissStreak + 1) ∨
    MAX_SILENCE_MS ≤ s.now - s.lastEventTime

def OverdueIfDeferred (s : Firehoses) : FirehoseAction → Prop
  | .checkSubscriptionHealth _ => s.deferred ≠ none → s.Overdue
  | _ => True

instance (s : Firehoses) : Decidable s.Overdue := inferInstanceAs (Decidable (_ ∨ _))

instance (s : Firehoses) (a : FirehoseAction) : Decidable (s.OverdueIfDeferred a) :=
  match a with
  | .checkSubscriptionHealth _ => inferInstanceAs (Decidable (_ → _))
  | .tick _ | .start | .refreshRooms | .refreshed _ | .nostrEvent _ | .published
  | .onclose _ _ _ _ | .stop _ _ => inferInstanceAs (Decidable True)

/-- A restart closes the held subscription and opens a new one. -/
theorem restartNostrSub_eq {sub : SubId} (hsub : s.nostrSub = some sub)
    (hrunning : s.stopped = false) (hreads : cfg.chatFromNostr = true) :
    s.restartNostrSub cfg id = openSub { closeSub { s.resetWindow with
      nostrSub := none, deferred := none } sub with lastEventTime := s.now } .local := by
  have hdrop : s.resetWindow.dropNostrSub id =
      closeSub { s.resetWindow with nostrSub := none, deferred := none } sub := by
    unfold dropNostrSub
    rw [show s.resetWindow.nostrSub = some sub from hsub]
    rfl
  unfold restartNostrSub ensureNostrSub
  rw [hdrop]
  apply if_neg
  show ¬(s.stopped || !cfg.chatFromNostr || false) = true
  simp [hrunning, hreads]

theorem restartNostrSub_replaced {sub : SubId} (hsub : s.nostrSub = some sub)
    (hrunning : s.stopped = false) (hreads : cfg.chatFromNostr = true) :
    Replaced s (s.restartNostrSub cfg id) sub := by
  rw [restartNostrSub_eq hsub hrunning hreads]
  exact ⟨List.mem_append_right _ (List.mem_singleton_self sub), s.nextSub, rfl, Nat.le_refl _⟩

/-- A health check replaces the held subscription exactly when it is overdue. -/
theorem checkSubscriptionHealth_replaced {sub : SubId} (h : s.Orderly) (hb : s.Backed cfg)
    (hsub : s.nostrSub = some sub) (echoes : List Echo) :
    Replaced s (s.checkSubscriptionHealth cfg (reenterLocal cfg echoes)) sub ↔ s.Overdue := by
  have hreads : cfg.chatFromNostr = true := hb.reads (by simp [hsub])
  have hrunning : s.stopped = false := by
    cases hst : s.stopped with
    | false => rfl
    | true => exact absurd (h.stopped hst .local) (by simp [held, hsub])
  have hissued : sub < s.nextSub := by
    have hmem : sub ∈ s.moment.unclosedOf .local := by
      rw [h.tracks.unclosed]
      simp [held, hsub]
    obtain ⟨e, he, rfl⟩ := List.mem_map.mp hmem
    exact h.tracks.issued e (List.mem_filter.mp he).1
  have hkept (t : Firehoses) (ht : t.nostrSub = some sub) : ¬Replaced s t sub := by
    rintro ⟨-, sub', hnew, hle⟩
    obtain rfl : sub = sub' := Option.some.inj (ht.symm.trans hnew)
    exact Nat.not_lt.mpr hle hissued
  have hstreak : s.closeWindow.echoMissStreak ≥ ECHO_MISS_RESTART ↔
      s.echoMissing = true ∧ ECHO_MISS_RESTART ≤ s.echoMissStreak + 1 := by
    cases hm : s.echoMissing with
    | false => simp [closeWindow, hm, ECHO_MISS_RESTART]
    | true => simp [closeWindow, hm]
  rw [checkSubscriptionHealth_echo]
  unfold checkSubscriptionHealth
  rw [if_neg (by simp [hreads, hsub])]
  split
  · rename_i hwatchdog
    have hrestart : Replaced s (restartNostrSub cfg
        { s.closeWindow with echoMissStreak := 0 } id) sub :=
      restartNostrSub_replaced (s := { s.closeWindow with echoMissStreak := 0 }) hsub hrunning hreads
    exact iff_of_true hrestart (.inl (hstreak.mp hwatchdog))
  · rename_i hwatchdog
    split
    · rename_i hrecent
      apply iff_of_false (hkept _ hsub)
      rintro (hmiss | hsilent)
      · exact hwatchdog (hstreak.mpr hmiss)
      · omega
    · rename_i hsilent
      have hrestart : Replaced s (s.closeWindow.restartNostrSub cfg id) sub :=
        restartNostrSub_replaced (s := s.closeWindow) hsub hrunning hreads
      exact iff_of_true hrestart (.inr (Nat.not_lt.mp hsilent))

theorem reached (cfg : FirehoseConfig) {now : Nat} {as : List FirehoseAction}
    (hr : run (step cfg) (init now) as = some s) : s.Orderly ∧ s.Backed cfg :=
  ⟨run_invariant_all (fun _ _ _ h hs => step_orderly h hs) (init_orderly now) hr,
    run_invariant_all (fun _ _ _ h hs => step_backed h hs) (init_backed cfg now) hr⟩

/-- The health check picks a deferred close up only when its watchdog or its silence backstop
would have restarted the subscription without it. -/
theorem picksUp_iff (cfg : FirehoseConfig) (now : Nat) (as : List FirehoseAction) :
    PicksUp cfg now as ↔ Guarded (step cfg) OverdueIfDeferred (init now) as := by
  rw [guarded_iff]
  constructor
  · intro h as₁ a as₂ m has hm
    cases a with
    | checkSubscriptionHealth echoes =>
      intro hdeferred
      obtain ⟨sub, hsub⟩ := Option.ne_none_iff_exists'.mp hdeferred
      obtain ⟨ho, hb⟩ := reached cfg hm
      have hreplaced := h as₁ echoes as₂ m _ has hm rfl sub hsub
      exact (checkSubscriptionHealth_replaced ho hb (hb.deferred sub hsub) echoes).mp hreplaced
    | tick _ | start | refreshRooms | refreshed _ | nostrEvent _ | published | onclose _ _ _ _
    | stop _ _ => trivial
  · intro h as₁ echoes as₂ m m' has hm hs sub hsub
    obtain ⟨ho, hb⟩ := reached cfg hm
    obtain rfl := Option.some.inj hs
    have hoverdue : m.Overdue := h as₁ (.checkSubscriptionHealth echoes) as₂ m has hm (by
      rw [hsub]
      exact Option.some_ne_none sub)
    exact (checkSubscriptionHealth_replaced ho hb (hb.deferred sub hsub) echoes).mpr hoverdue

/-- The relay ends the fresh subscription 10 s after a restart, and the check comes 50 s later. -/
def deferredClose : List FirehoseAction :=
  [.start, .refreshed true, .tick 60000, .onclose .local 0 [js "error"] [], .tick 10000,
    .onclose .local 2 [js "error"] [], .tick 50000]

theorem picksUp_fails_deferredClose :
    ¬PicksUp demoFirehoses 0 (deferredClose ++ [.checkSubscriptionHealth []]) := by
  intro h
  obtain ⟨-, sub, hsub, hle⟩ := h deferredClose [] [] _ _ rfl rfl rfl 2 rfl
  obtain rfl : 2 = sub := Option.some.inj hsub
  revert hle
  decide

/-- Consecutive rebuilds are at least the restart floor apart. -/
def Spaced (times : List Nat) : Prop :=
  times.IsChain fun earlier later => earlier + MIN_RESTART_INTERVAL_MS ≤ later

def RateLimited (s : Firehoses) : Prop := ∀ via, Spaced (s.rebuilds via)

/-- The last close-driven rebuild of the firehose is long enough ago for another one. -/
def Cooled (s : Firehoses) (via : Via) : Prop :=
  ∀ last ∈ (s.rebuilds via).getLast?, last + MIN_RESTART_INTERVAL_MS ≤ s.now

/-- No close of the network firehose comes within the floor of its last rebuild; and none of the
local one does that `start()` had lowered the floor for. -/
def Unhurried (s : Firehoses) : FirehoseAction → Prop
  | .onclose .network _ _ _ => s.Cooled .network
  | .onclose .local _ reasons _ =>
    s.startedSince = true → (s.countClosed reasons).exceeded = true → s.floored = false →
      s.Cooled .local
  | _ => True

instance (times : List Nat) : Decidable (Spaced times) :=
  inferInstanceAs (Decidable (List.IsChain _ times))

instance (s : Firehoses) (via : Via) : Decidable (s.Cooled via) :=
  inferInstanceAs (Decidable (∀ last ∈ (s.rebuilds via).getLast?, _))

instance (s : Firehoses) (a : FirehoseAction) : Decidable (s.Unhurried a) :=
  match a with
  | .onclose .network _ _ _ => inferInstanceAs (Decidable (s.Cooled .network))
  | .onclose .local _ _ _ => inferInstanceAs (Decidable (_ → _ → _ → _))
  | .tick _ | .start | .refreshRooms | .refreshed _ | .nostrEvent _ | .published
  | .checkSubscriptionHealth _ | .stop _ _ => inferInstanceAs (Decidable True)

/-- The rebuilds so far are spaced, and the floor stands at the last local one unless `start()`
has lowered it. -/
structure Paced (s : Firehoses) : Prop where
  limited : s.RateLimited
  past : ∀ via, ∀ last ∈ (s.rebuilds via).getLast?, last ≤ s.now
  floor : s.startedSince = false → ∀ last ∈ (s.rebuilds .local).getLast?, last ≤ s.lastRestartAt

theorem init_paced (now : Nat) : (init now).Paced :=
  ⟨fun _ => .nil, by simp [init], by simp [init]⟩

theorem Paced.same (h : s.Paced) (hr : s'.rebuilds = s.rebuilds) (hn : s.now ≤ s'.now)
    (hs : s'.startedSince = s.startedSince) (hl : s'.lastRestartAt = s.lastRestartAt) :
    s'.Paced := by
  refine ⟨fun via => hr ▸ h.limited via, fun via last hlast => ?_, fun hst => ?_⟩
  · exact Nat.le_trans (h.past via last (hr ▸ hlast)) hn
  · rw [hr, hl]
    exact h.floor (hs ▸ hst)

/-- Opening and closing handles moves no clock of the service. -/
theorem Paced.ensureNostrSub (h : s.Paced) (cfg : FirehoseConfig) :
    (s.ensureNostrSub cfg).Paced := by
  unfold Firehoses.ensureNostrSub
  split
  · exact h
  · exact h.same rfl (Nat.le_refl _) rfl rfl

theorem Paced.ensureNetworkSub (h : s.Paced) (cfg : FirehoseConfig) :
    (s.ensureNetworkSub cfg).Paced := by
  unfold Firehoses.ensureNetworkSub
  split
  · exact h
  · split
    · exact h
    · exact h.same rfl (Nat.le_refl _) rfl rfl

/-- A restart puts the floor behind whatever was rebuilt so far. -/
theorem restartNostrSub_paced (hl : s.RateLimited)
    (hp : ∀ via, ∀ last ∈ (s.rebuilds via).getLast?, last ≤ s.now) (cfg : FirehoseConfig) :
    (s.restartNostrSub cfg id).Paced := by
  have hreset : s.resetWindow.Paced := ⟨hl, hp, fun _ => hp .local⟩
  apply Paced.ensureNostrSub
  unfold dropNostrSub
  split
  · exact hreset.same rfl (Nat.le_refl _) rfl rfl
  · exact hreset.same rfl (Nat.le_refl _) rfl rfl

theorem Spaced.concat {times : List Nat} {now : Nat} (h : Spaced times)
    (hlast : ∀ last ∈ times.getLast?, last + MIN_RESTART_INTERVAL_MS ≤ now) :
    Spaced (times ++ [now]) := by
  apply List.isChain_append.mpr
  refine ⟨h, .singleton now, fun last hl first hf => ?_⟩
  obtain rfl : now = first := by simpa using hf
  exact hlast last hl

theorem rebuilds_noteRebuild (s : Firehoses) (via via' : Via) :
    (s.noteRebuild via).rebuilds via' =
      if via' = via then s.rebuilds via ++ [s.now] else s.rebuilds via' := by
  simp only [noteRebuild, Function.update_apply]

theorem noteRebuild_limited (h : s.RateLimited) {via : Via} (hc : s.Cooled via) :
    (s.noteRebuild via).RateLimited := by
  intro via'
  rw [rebuilds_noteRebuild]
  split
  · exact (h via).concat hc
  · exact h via'

theorem noteRebuild_past (h : s.Paced) (via : Via) :
    ∀ via', ∀ last ∈ ((s.noteRebuild via).rebuilds via').getLast?, last ≤ s.now := by
  intro via' last hlast
  rw [rebuilds_noteRebuild] at hlast
  split at hlast
  · obtain rfl : s.now = last := by simpa using hlast
    exact Nat.le_refl _
  · exact h.past via' last hlast

/-- A local firehose that may restart has cooled, unless `start()` has lowered the floor. -/
theorem Paced.cooled (h : s.Paced) (hfloor : s.floored = false)
    (hg : s.startedSince = true → s.Cooled .local) : s.Cooled .local := by
  cases hst : s.startedSince with
  | true => exact hg hst
  | false =>
    intro last hlast
    have hle := h.floor hst last hlast
    have hgap : ¬s.now - s.lastRestartAt < MIN_RESTART_INTERVAL_MS := by
      simpa [floored] using hfloor
    simp only [MIN_RESTART_INTERVAL_MS] at hgap ⊢
    omega

theorem Paced.onclose (h : s.Paced) (cfg : FirehoseConfig) {via : Via} {sub : SubId}
    {reasons : List JsString} {echoes : List Echo}
    (hg : s.Unhurried (.onclose via sub reasons echoes)) :
    (s.onclose cfg reasons echoes via).Paced := by
  have hcount : (s.countClosed reasons).Paced := h.same rfl (Nat.le_refl _) rfl rfl
  cases via with
  | «local» =>
    show (s.localOnClose cfg (reenterLocal cfg echoes) reasons).Paced
    rw [localOnClose_echo]
    unfold localOnClose
    split
    · exact h
    · split
      · exact hcount
      · rename_i hexceeded
        split
        · exact hcount.same rfl (Nat.le_refl _) rfl rfl
        · rename_i hfloored
          have hfloor : s.floored = false := by simpa using hfloored
          have hcooled := h.cooled hfloor fun hst => hg hst (by simpa using hexceeded) hfloor
          apply restartNostrSub_paced
          · exact noteRebuild_limited hcount.limited hcooled
          · exact noteRebuild_past hcount .local
  | network =>
    show (s.networkOnClose cfg (reenterNetwork cfg echoes)).Paced
    rw [networkOnClose_echo]
    unfold networkOnClose
    split
    · exact h
    · split
      · exact h
      · have hnote : (s.noteRebuild .network).Paced := by
          refine ⟨noteRebuild_limited h.limited hg, noteRebuild_past h .network, fun hst => ?_⟩
          exact h.floor hst
        apply Paced.ensureNetworkSub
        exact hnote.same rfl (Nat.le_refl _) rfl rfl

theorem Paced.checkSubscriptionHealth (h : s.Paced) (cfg : FirehoseConfig) (echoes : List Echo) :
    (s.checkSubscriptionHealth cfg (reenterLocal cfg echoes)).Paced := by
  rw [checkSubscriptionHealth_echo]
  unfold Firehoses.checkSubscriptionHealth
  split_ifs
  · exact h
  · exact restartNostrSub_paced h.limited h.past cfg
  · exact h.same rfl (Nat.le_refl _) rfl rfl
  · exact restartNostrSub_paced h.limited h.past cfg

theorem step_paced {a : FirehoseAction} (h : s.Paced) (hg : s.Unhurried a)
    (hs : step cfg s a = some s') : s'.Paced := by
  cases a with
  | tick ms =>
    obtain rfl := Option.some.inj hs
    exact h.same rfl (Nat.le_add_right _ _) rfl rfl
  | start =>
    obtain rfl := Option.some.inj hs
    exact ⟨h.limited, h.past, fun hst => (nomatch hst)⟩
  | refreshRooms | published =>
    obtain rfl := Option.some.inj hs
    exact h.same rfl (Nat.le_refl _) rfl rfl
  | refreshed ok =>
    simp only [step] at hs
    split at hs
    · cases hs
    · rename_i n _
      obtain rfl := Option.some.inj hs
      have hend : Firehoses.Paced { s with refreshing := n } :=
        h.same rfl (Nat.le_refl _) rfl rfl
      split
      · exact (hend.ensureNostrSub cfg).ensureNetworkSub cfg
      · exact hend
  | nostrEvent via =>
    obtain rfl := Option.some.inj hs
    cases via with
    | «local» => exact h.same rfl (Nat.le_refl _) rfl rfl
    | network => exact h
  | onclose via sub reasons echoes =>
    simp only [step] at hs
    split at hs
    · obtain rfl := Option.some.inj hs
      exact h.onclose cfg hg
    · cases hs
  | checkSubscriptionHealth echoes =>
    obtain rfl := Option.some.inj hs
    exact h.checkSubscriptionHealth cfg echoes
  | stop echoes networkEchoes =>
    obtain rfl := Option.some.inj hs
    rw [stop_echo]
    cases s.nostrSub <;> cases s.networkSub <;> exact h.same rfl (Nat.le_refl _) rfl rfl

/-- Where no close of the network firehose comes too early, and none of the local one after a
`start()`, rebuilds are rate-limited. -/
theorem unhurried_rateLimited (cfg : FirehoseConfig) (now : Nat) {as : List FirehoseAction}
    {t : Firehoses} (hg : Guarded (step cfg) Unhurried (init now) as)
    (hr : run (step cfg) (init now) as = some t) : t.RateLimited :=
  (run_invariant (fun _ _ _ h hg hs => step_paced h hg hs) (init_paced now) hg hr).limited

/-- Both firehoses are closed again and again, the network one every minute. -/
def closeStorm : List FirehoseAction :=
  [.start, .refreshed true, .tick 60000, .onclose .local 0 [js "error"] [],
    .onclose .network 1 [js "error"] [], .tick 10000, .onclose .local 2 [js "error"] [],
    .tick 50000, .onclose .local 2 [js "error"] [], .onclose .network 3 [js "error"] []]

theorem unhurried_rateLimited_closeStorm :
    ∃ t, run (step demoFirehoses) (init 0) closeStorm = some t ∧
      t.rebuilds .local = [60000, 120000] ∧ t.rebuilds .network = [60000, 120000] ∧
      t.RateLimited :=
  have hg : Guarded (step demoFirehoses) Unhurried (init 0) closeStorm := by decide +kernel
  ⟨_, rfl, rfl, rfl, unhurried_rateLimited demoFirehoses 0 hg rfl⟩

/-- The network relays close every subscription at once. -/
theorem rateLimited_fails_network :
    ∃ t, run (step demoFirehoses) (init 0) [.start, .refreshed true,
        .onclose .network 1 [js "error"] [], .onclose .network 2 [js "error"] []] = some t ∧
      ¬t.RateLimited := by
  refine ⟨_, rfl, fun h => ?_⟩
  have hspaced := h .network
  revert hspaced
  decide +kernel

end Firehoses

end LivelierBridge.Chat
