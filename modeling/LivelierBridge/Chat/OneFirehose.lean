import LivelierBridge.Chat.Firehoses

namespace LivelierBridge.Chat

open Framework Js

namespace Moment

/-- The unclosed subscriptions of one kind. -/
def unclosedOf (m : Moment) (via : Via) : List SubId :=
  (m.unclosed.filter fun e => e.1 = via).map Prod.snd

def held (m : Moment) : Via → Option SubId
  | .local => m.nostrSub
  | .network => m.networkSub

/-- Exactly the held subscriptions are unclosed. -/
def Exact (m : Moment) : Prop := ∀ via, m.unclosedOf via = (m.held via).toList

/-- Never two of a kind; and while the service runs, none but the held ones. -/
structure Single (m : Moment) : Prop where
  one : ∀ via, (m.unclosedOf via).length ≤ 1
  exact : m.stopped = false → m.Exact

end Moment

namespace Firehoses

section Echo

variable (cfg : FirehoseConfig) (s : Firehoses)

/-- With the local handle detached, its close handler does nothing. -/
theorem reenterLocal_detached {s : Firehoses} (h : s.nostrSub = none) (echoes : List Echo) :
    reenterLocal cfg echoes s = s := by
  cases echoes with
  | nil => rfl
  | cons echo echoes =>
    cases echo with
    | none => rfl
    | some reasons => simp [reenterLocal, localOnClose, h]

theorem reenterNetwork_detached {s : Firehoses} (h : s.networkSub = none) (echoes : List Echo) :
    reenterNetwork cfg echoes s = s := by
  cases echoes with
  | nil => rfl
  | cons echo echoes =>
    cases echo with
    | none => rfl
    | some reasons => simp [reenterNetwork, networkOnClose, h]

theorem restartNostrSub_echo (echoes : List Echo) :
    s.restartNostrSub cfg (reenterLocal cfg echoes) = s.restartNostrSub cfg id := by
  unfold restartNostrSub dropNostrSub
  split
  · rfl
  · rw [reenterLocal_detached cfg rfl]
    rfl

theorem localOnClose_echo (echoes : List Echo) (reasons : List JsString) :
    s.localOnClose cfg (reenterLocal cfg echoes) reasons = s.localOnClose cfg id reasons := by
  unfold localOnClose
  rw [restartNostrSub_echo]

theorem networkOnClose_echo (echoes : List Echo) :
    s.networkOnClose cfg (reenterNetwork cfg echoes) = s.networkOnClose cfg id := by
  unfold networkOnClose
  split
  · rfl
  · rw [reenterNetwork_detached cfg rfl]
    rfl

theorem checkSubscriptionHealth_echo (echoes : List Echo) :
    s.checkSubscriptionHealth cfg (reenterLocal cfg echoes) =
      s.checkSubscriptionHealth cfg id := by
  unfold checkSubscriptionHealth
  rw [restartNostrSub_echo, restartNostrSub_echo]

theorem closeHeld_echo {reenter : Firehoses → Firehoses} (sub : Option SubId)
    (h : ∀ id, reenter (s.closeSub id) = s.closeSub id) :
    s.closeHeld reenter sub = s.closeHeld id sub := by
  cases sub with
  | none => rfl
  | some sub => exact h sub

theorem stop_echo (echoes networkEchoes : List Echo) :
    s.stop cfg echoes networkEchoes =
      (s.detach.closeHeld id s.nostrSub).closeHeld id s.networkSub := by
  have hlocal := closeHeld_echo s.detach s.nostrSub fun _ => reenterLocal_detached cfg rfl echoes
  have hdetached : (s.detach.closeHeld id s.nostrSub).networkSub = none := by
    cases s.nostrSub <;> rfl
  rw [stop, hlocal]
  apply closeHeld_echo _ s.networkSub
  intro sub
  exact reenterNetwork_detached cfg (s := (s.detach.closeHeld id s.nostrSub).closeSub sub)
    hdetached networkEchoes

end Echo

/-- The handles that are still to be closed are `f`; each of the others was closed once. -/
structure Tracks (s : Firehoses) (f : Via → Option SubId) : Prop where
  unclosed : ∀ via, s.moment.unclosedOf via = (f via).toList
  issued : ∀ e ∈ s.unclosed, e.2 < s.nextSub
  distinct : (s.unclosed.map Prod.snd).Nodup
  closed : ∀ id < s.nextSub, id ∈ s.closes ↔ id ∉ s.unclosed.map Prod.snd
  once : s.closes.Nodup
  past : ∀ id ∈ s.closes, id < s.nextSub
  moments : ∀ m ∈ s.moments, m.Single

/-- The handles held are the ones still to be closed, and a stopped service holds none. -/
structure Orderly (s : Firehoses) : Prop where
  tracks : s.Tracks s.held
  stopped : s.stopped = true → ∀ via, s.held via = none

theorem moment_held (s : Firehoses) : s.moment.held = s.held := by
  funext via
  cases via <;> rfl

theorem Tracks.single {s : Firehoses} {f : Via → Option SubId} (h : s.Tracks f)
    (hf : s.stopped = false → s.held = f) : s.moment.Single := by
  refine ⟨fun via => ?_, fun hs via => ?_⟩
  · rw [h.unclosed]
    cases f via <;> simp
  · rw [h.unclosed, moment_held, hf hs]

/-- `noteMoment` records what holds by then. -/
theorem Tracks.noteMoment {s : Firehoses} {f : Via → Option SubId} (h : s.Tracks f)
    (hf : s.stopped = false → s.held = f) : s.noteMoment.Tracks f := by
  refine ⟨h.unclosed, h.issued, h.distinct, h.closed, h.once, h.past, fun m hm => ?_⟩
  rcases List.mem_append.mp hm with hold | hnew
  · exact h.moments m hold
  · obtain rfl : m = s.moment := by simpa using hnew
    exact h.single hf

/-- A step that opens and closes nothing. -/
theorem Tracks.same {s s' : Firehoses} {f : Via → Option SubId} (h : s.Tracks f)
    (hu : s'.unclosed = s.unclosed) (hn : s'.nextSub = s.nextSub) (hc : s'.closes = s.closes)
    (hm : s'.moments = s.moments) : s'.Tracks f := by
  refine ⟨fun via => ?_, ?_, ?_, ?_, ?_, ?_, ?_⟩
  · rw [← h.unclosed via, Moment.unclosedOf, Moment.unclosedOf]
    simp only [moment, hu]
  · rw [hu, hn]
    exact h.issued
  · rw [hu]
    exact h.distinct
  · rw [hu, hn, hc]
    exact h.closed
  · rw [hc]
    exact h.once
  · rw [hc, hn]
    exact h.past
  · rw [hm]
    exact h.moments

theorem Orderly.same {s s' : Firehoses} (h : s.Orderly) (hl : s'.nostrSub = s.nostrSub)
    (hw : s'.networkSub = s.networkSub) (hs : s'.stopped = s.stopped)
    (hu : s'.unclosed = s.unclosed) (hn : s'.nextSub = s.nextSub) (hc : s'.closes = s.closes)
    (hm : s'.moments = s.moments) : s'.Orderly := by
  have hheld : s'.held = s.held := by
    funext via
    cases via with
    | «local» => exact hl
    | network => exact hw
  exact ⟨hheld ▸ h.tracks.same hu hn hc hm, fun hst => hheld ▸ h.stopped (hs ▸ hst)⟩

theorem held_setSub (s : Firehoses) (via : Via) (sub : Option SubId) :
    (s.setSub via sub).held = Function.update s.held via sub := by
  funext v
  cases via <;> cases v <;> rfl

/-- A fresh handle is held where none was. -/
theorem Orderly.openSub {s : Firehoses} (h : s.Orderly) (via : Via) (hnone : s.held via = none)
    (hrunning : s.stopped = false) : (s.openSub via).Orderly := by
  have hheld : (s.openSub via).held = Function.update s.held via (some s.nextSub) :=
    s.held_setSub via _
  have hstopped : (s.openSub via).stopped = s.stopped := by cases via <;> rfl
  have hunclosed : (s.openSub via).unclosed = s.unclosed ++ [(via, s.nextSub)] := rfl
  have hnext : (s.openSub via).nextSub = s.nextSub + 1 := rfl
  have hcloses : (s.openSub via).closes = s.closes := by cases via <;> rfl
  have hmoments : ∀ m ∈ (s.setSub via (some s.nextSub)).moments, m.Single := by
    cases via <;> exact h.tracks.moments
  have hfresh : s.nextSub ∉ s.unclosed.map Prod.snd := by
    intro hm
    obtain ⟨e, he, heq⟩ := List.mem_map.mp hm
    exact Nat.ne_of_lt (h.tracks.issued e he) heq
  have hkinds (v : Via) : (s.openSub via).moment.unclosedOf v =
      (Function.update s.held via (some s.nextSub) v).toList := by
    have happend : (s.openSub via).moment.unclosedOf v =
        s.moment.unclosedOf v ++ if via = v then [s.nextSub] else [] := by
      by_cases hv : via = v
      · subst hv
        simp [Moment.unclosedOf, moment, hunclosed]
      · simp [Moment.unclosedOf, moment, hunclosed, hv]
    rw [happend, h.tracks.unclosed]
    by_cases hv : via = v
    · subst hv
      simp [hnone]
    · simp [hv, Function.update_of_ne (Ne.symm hv)]
  refine ⟨hheld ▸ Tracks.noteMoment ⟨hkinds, fun e he => ?_, ?_, fun id hid => ?_, ?_,
    fun id hid => ?_, hmoments⟩ fun _ => hheld, fun hst => ?_⟩
  · rcases List.mem_append.mp he with hold | hnew
    · exact Nat.lt_succ_of_lt (h.tracks.issued e hold)
    · obtain rfl : e = (via, s.nextSub) := by simpa using hnew
      exact Nat.lt_succ_self _
  · show ((s.unclosed ++ [(via, s.nextSub)]).map Prod.snd).Nodup
    rw [List.map_append, List.nodup_append]
    refine ⟨h.tracks.distinct, by simp, fun x hx y hy => ?_⟩
    obtain rfl : y = s.nextSub := by simpa using hy
    exact fun heq => hfresh (heq ▸ hx)
  · show id ∈ (s.openSub via).closes ↔ id ∉ (s.unclosed ++ [(via, s.nextSub)]).map Prod.snd
    rw [hcloses, List.map_append, List.mem_append, List.map_singleton, List.mem_singleton]
    by_cases heq : id = s.nextSub
    · subst heq
      have hnot : s.nextSub ∉ s.closes := fun hm => Nat.lt_irrefl _ (h.tracks.past _ hm)
      simp [hnot]
    · have hlt : id < s.nextSub := Nat.lt_of_le_of_ne (Nat.le_of_lt_succ hid) heq
      simp [h.tracks.closed id hlt, heq]
  · show (s.openSub via).closes.Nodup
    exact hcloses ▸ h.tracks.once
  · exact Nat.lt_succ_of_lt (h.tracks.past id (hcloses ▸ hid))
  · rw [hstopped, hrunning] at hst
    cases hst

/-- A handle that was detached is closed. -/
theorem Tracks.closeSub {s : Firehoses} {f : Via → Option SubId} (h : s.Tracks f) {via : Via}
    {sub : SubId} (hsub : f via = some sub)
    (hf : s.stopped = false → s.held = Function.update f via none) :
    (s.closeSub sub).Tracks (Function.update f via none) := by
  have hmem : (via, sub) ∈ s.unclosed := by
    have hone : sub ∈ s.moment.unclosedOf via := by simp [h.unclosed, hsub]
    obtain ⟨e, he, rfl⟩ := List.mem_map.mp hone
    obtain ⟨hm, hvia⟩ := List.mem_filter.mp he
    obtain rfl : e.1 = via := by simpa using hvia
    exact hm
  have hsame {e : Via × SubId} (he : e ∈ s.unclosed) (heq : e.2 = sub) : e = (via, sub) :=
    List.inj_on_of_nodup_map h.distinct he hmem heq
  have hids : ((s.closeSub sub).unclosed.map Prod.snd) =
      (s.unclosed.map Prod.snd).filter fun id => id ≠ sub := by
    rw [List.filter_map]
    rfl
  have hopen : sub ∈ s.unclosed.map Prod.snd := List.mem_map_of_mem hmem
  have hissued : sub < s.nextSub := h.issued _ hmem
  have hnot : sub ∉ s.closes := fun hm => (h.closed sub hissued).mp hm hopen
  refine Tracks.noteMoment ⟨fun v => ?_, fun e he => ?_, ?_, fun id hid => ?_, ?_,
    fun id hid => ?_, h.moments⟩ hf
  · have hkinds : Moment.unclosedOf (s.closeSub sub).moment v =
        (s.moment.unclosedOf v).filter fun id => id ≠ sub := by
      rw [Moment.unclosedOf, Moment.unclosedOf, List.filter_map, List.filter_filter]
      show (List.filter _ (s.unclosed.filter fun e => e.2 ≠ sub)).map Prod.snd = _
      rw [List.filter_filter]
      simp only [Bool.and_comm]
      rfl
    refine hkinds.trans ?_
    rw [h.unclosed]
    by_cases hv : v = via
    · subst hv
      simp [hsub]
    · rw [Function.update_of_ne hv]
      apply List.filter_eq_self.mpr
      intro id hid
      have hmem' : id ∈ s.moment.unclosedOf v := h.unclosed v ▸ hid
      obtain ⟨e, he, rfl⟩ := List.mem_map.mp hmem'
      obtain ⟨he, hvia⟩ := List.mem_filter.mp he
      have hne : e.2 ≠ sub := fun heq => hv (by simpa [hsame he heq, eq_comm] using hvia)
      simpa using hne
  · exact h.issued e (List.mem_filter.mp he).1
  · show ((s.closeSub sub).unclosed.map Prod.snd).Nodup
    rw [hids]
    exact h.distinct.filter _
  · show id ∈ s.closes ++ [sub] ↔ id ∉ (s.closeSub sub).unclosed.map Prod.snd
    rw [hids, List.mem_append, List.mem_singleton, List.mem_filter, h.closed id hid]
    by_cases heq : id = sub
    · simp [heq]
    · simp [heq]
  · show (s.closes ++ [sub]).Nodup
    rw [List.nodup_append]
    refine ⟨h.once, by simp, fun x hx y hy => ?_⟩
    obtain rfl : y = sub := by simpa using hy
    exact fun heq => hnot (heq ▸ hx)
  · rcases List.mem_append.mp hid with hold | hnew
    · exact h.past id hold
    · obtain rfl : id = sub := by simpa using hnew
      exact hissued

theorem Orderly.ensureNostrSub {s : Firehoses} (h : s.Orderly) (cfg : FirehoseConfig) :
    (s.ensureNostrSub cfg).Orderly := by
  unfold Firehoses.ensureNostrSub
  split
  · exact h
  · rename_i hc
    simp only [Bool.or_eq_true, not_or, Bool.not_eq_true, Option.isSome_eq_false_iff,
      Option.isNone_iff_eq_none] at hc
    exact h.openSub .local hc.2 hc.1.1

theorem Orderly.ensureNetworkSub {s : Firehoses} (h : s.Orderly) (cfg : FirehoseConfig) :
    (s.ensureNetworkSub cfg).Orderly := by
  unfold Firehoses.ensureNetworkSub
  split
  · exact h
  · rename_i hc
    simp only [Bool.or_eq_true, not_or, Bool.not_eq_true, Option.isSome_eq_false_iff,
      Option.isNone_iff_eq_none] at hc
    split
    · exact h
    · exact h.openSub .network hc.2 hc.1.1

/-- A handle is detached and closed in one go. -/
theorem Orderly.drop {s : Firehoses} (h : s.Orderly) (via : Via) {sub : SubId}
    (hsub : s.held via = some sub) : ((s.setSub via none).closeSub sub).Orderly := by
  have hheld := s.held_setSub via none
  have htracks : (s.setSub via none).Tracks s.held := by
    cases via <;> exact h.tracks.same rfl rfl rfl rfl
  refine ⟨?_, fun hst v => ?_⟩
  · show ((s.setSub via none).closeSub sub).Tracks (s.setSub via none).held
    rw [hheld]
    exact htracks.closeSub hsub fun _ => hheld
  · have hst' : s.stopped = true := by cases via <;> exact hst
    have hnone := h.stopped hst' via
    rw [hnone] at hsub
    cases hsub

theorem Orderly.restartNostrSub {s : Firehoses} (h : s.Orderly) (cfg : FirehoseConfig) :
    (s.restartNostrSub cfg id).Orderly := by
  have hreset : s.resetWindow.Orderly := h.same rfl rfl rfl rfl rfl rfl rfl
  have hdrop : (s.resetWindow.dropNostrSub id).Orderly := by
    unfold Firehoses.dropNostrSub
    split
    · exact hreset
    · rename_i sub hsub
      exact (hreset.drop .local hsub).same rfl rfl rfl rfl rfl rfl rfl
  have hnow : Firehoses.Orderly { s.resetWindow.dropNostrSub id with lastEventTime := s.now } :=
    hdrop.same rfl rfl rfl rfl rfl rfl rfl
  exact hnow.ensureNostrSub cfg

theorem Orderly.onclose {s : Firehoses} (h : s.Orderly) (cfg : FirehoseConfig) (via : Via)
    (reasons : List JsString) (echoes : List Echo) : (s.onclose cfg reasons echoes via).Orderly := by
  have hcount : (s.countClosed reasons).Orderly := h.same rfl rfl rfl rfl rfl rfl rfl
  cases via with
  | «local» =>
    show (s.localOnClose cfg (reenterLocal cfg echoes) reasons).Orderly
    rw [localOnClose_echo]
    unfold localOnClose
    split_ifs
    · exact h
    · exact hcount
    · exact hcount.same rfl rfl rfl rfl rfl rfl rfl
    · have hnote : ((s.countClosed reasons).noteRebuild .local).Orderly :=
        hcount.same rfl rfl rfl rfl rfl rfl rfl
      exact hnote.restartNostrSub cfg
  | network =>
    show (s.networkOnClose cfg (reenterNetwork cfg echoes)).Orderly
    rw [networkOnClose_echo]
    unfold networkOnClose
    split
    · exact h
    · rename_i sub hsub
      split
      · exact h
      · have hnote : (s.noteRebuild .network).Orderly := h.same rfl rfl rfl rfl rfl rfl rfl
        exact (hnote.drop .network hsub).ensureNetworkSub cfg

theorem Orderly.checkSubscriptionHealth {s : Firehoses} (h : s.Orderly) (cfg : FirehoseConfig)
    (echoes : List Echo) :
    (s.checkSubscriptionHealth cfg (reenterLocal cfg echoes)).Orderly := by
  have hwindow : s.closeWindow.Orderly := h.same rfl rfl rfl rfl rfl rfl rfl
  have hstreak : Firehoses.Orderly { s.closeWindow with echoMissStreak := 0 } :=
    h.same rfl rfl rfl rfl rfl rfl rfl
  rw [checkSubscriptionHealth_echo]
  unfold Firehoses.checkSubscriptionHealth
  split_ifs
  · exact h
  · exact hstreak.restartNostrSub cfg
  · exact hwindow
  · exact hwindow.restartNostrSub cfg

/-- Closing what was held, once it is detached. -/
theorem Tracks.closeHeld {s : Firehoses} {f : Via → Option SubId} (h : s.Tracks f) (via : Via)
    (hs : s.stopped = true) :
    (s.closeHeld id (f via)).Tracks (Function.update f via none) := by
  cases hsub : f via with
  | none =>
    have hsame : Function.update f via none = f := by
      rw [← hsub]
      exact Function.update_eq_self via f
    rw [hsame]
    exact h
  | some sub =>
    apply h.closeSub hsub
    intro hrunning
    rw [hs] at hrunning
    cases hrunning

theorem Orderly.stop {s : Firehoses} (h : s.Orderly) (cfg : FirehoseConfig)
    (echoes networkEchoes : List Echo) : (s.stop cfg echoes networkEchoes).Orderly := by
  let detached := s.detach.closeHeld id s.nostrSub
  have hstopped : detached.stopped = true := by
    show (s.detach.closeHeld id s.nostrSub).stopped = true
    cases s.nostrSub <;> rfl
  have hdetach : s.detach.Tracks s.held := h.tracks.same rfl rfl rfl rfl
  have hlocal : detached.Tracks (Function.update s.held .local none) :=
    hdetach.closeHeld .local rfl
  have hnetwork := hlocal.closeHeld .network hstopped
  have hnone : Function.update (Function.update s.held .local none) .network none =
      fun _ => none := by
    funext via
    cases via <;> rfl
  have hheld : (s.stop cfg echoes networkEchoes).held = fun _ => none := by
    rw [stop_echo]
    funext via
    cases s.nostrSub <;> cases s.networkSub <;> cases via <;> rfl
  refine ⟨?_, fun _ via => by rw [hheld]⟩
  rw [hheld, stop_echo]
  exact hnone ▸ hnetwork

theorem step_orderly {cfg : FirehoseConfig} {s s' : Firehoses} {a : FirehoseAction}
    (h : s.Orderly) (hs : step cfg s a = some s') : s'.Orderly := by
  cases a with
  | tick ms =>
    obtain rfl := Option.some.inj hs
    exact h.same rfl rfl rfl rfl rfl rfl rfl
  | start =>
    obtain rfl := Option.some.inj hs
    exact ⟨h.tracks.same rfl rfl rfl rfl, fun hst => nomatch hst⟩
  | refreshRooms =>
    obtain rfl := Option.some.inj hs
    exact h.same rfl rfl rfl rfl rfl rfl rfl
  | refreshed ok =>
    simp only [step] at hs
    split at hs
    · cases hs
    · rename_i n _
      obtain rfl := Option.some.inj hs
      have hend : Firehoses.Orderly { s with refreshing := n } :=
        h.same rfl rfl rfl rfl rfl rfl rfl
      split
      · exact (hend.ensureNostrSub cfg).ensureNetworkSub cfg
      · exact hend
  | nostrEvent via =>
    obtain rfl := Option.some.inj hs
    cases via with
    | «local» => exact h.same rfl rfl rfl rfl rfl rfl rfl
    | network => exact h
  | published =>
    obtain rfl := Option.some.inj hs
    exact h.same rfl rfl rfl rfl rfl rfl rfl
  | onclose via sub reasons echoes =>
    simp only [step] at hs
    split at hs
    · obtain rfl := Option.some.inj hs
      exact h.onclose cfg via reasons echoes
    · cases hs
  | checkSubscriptionHealth echoes =>
    obtain rfl := Option.some.inj hs
    exact h.checkSubscriptionHealth cfg echoes
  | stop echoes networkEchoes =>
    obtain rfl := Option.some.inj hs
    exact h.stop cfg echoes networkEchoes

theorem init_orderly (now : Nat) : (init now).Orderly := by
  refine ⟨⟨fun via => ?_, by simp [init], by simp [init], by simp [init], by simp [init],
    by simp [init], by simp [init]⟩, fun h => nomatch h⟩
  cases via <;> rfl

theorem Orderly.unclosed_of_stopped {s : Firehoses} (h : s.Orderly) (hs : s.stopped = true) :
    s.unclosed = [] := by
  rw [List.eq_nil_iff_forall_not_mem]
  intro e he
  have hmem : e.2 ∈ s.moment.unclosedOf e.1 :=
    List.mem_map_of_mem (List.mem_filter.mpr ⟨he, by simp⟩)
  rw [h.tracks.unclosed, h.stopped hs] at hmem
  cases hmem

/-- A stopped service opens nothing. -/
theorem step_stopped {cfg : FirehoseConfig} {s s' : Firehoses} {a : FirehoseAction}
    (h : s.Orderly) (hst : s.stopped = true) (ha : a ≠ .start) (hs : step cfg s a = some s') :
    s'.stopped = true ∧ s'.nextSub = s.nextSub := by
  have hlocal : s.nostrSub = none := h.stopped hst .local
  have hnetwork : s.networkSub = none := h.stopped hst .network
  cases a with
  | tick ms | refreshRooms | published =>
    obtain rfl := Option.some.inj hs
    exact ⟨hst, rfl⟩
  | start => exact absurd rfl ha
  | refreshed ok =>
    simp only [step] at hs
    split at hs
    · cases hs
    · obtain rfl := Option.some.inj hs
      split
      · simp [refreshTail, ensureNostrSub, ensureNetworkSub, hst]
      · exact ⟨hst, rfl⟩
  | nostrEvent via =>
    obtain rfl := Option.some.inj hs
    cases via <;> exact ⟨hst, rfl⟩
  | onclose via sub reasons echoes =>
    simp only [step] at hs
    split at hs
    · obtain rfl := Option.some.inj hs
      cases via with
      | «local» => simp [onclose, localOnClose, hst]
      | network => simp [onclose, networkOnClose, hnetwork, hst]
    · cases hs
  | checkSubscriptionHealth echoes =>
    obtain rfl := Option.some.inj hs
    simp [checkSubscriptionHealth, hlocal, hst]
  | stop echoes networkEchoes =>
    obtain rfl := Option.some.inj hs
    simp [stop, closeHeld, hlocal, hnetwork, detach]

theorem run_stopped {cfg : FirehoseConfig} {s t : Firehoses} {as : List FirehoseAction}
    (h : s.Orderly) (hst : s.stopped = true) (has : ∀ a ∈ as, a ≠ .start)
    (hr : run (step cfg) s as = some t) :
    t.Orderly ∧ t.stopped = true ∧ t.nextSub = s.nextSub := by
  let inv (m : Firehoses) : Prop := m.Orderly ∧ m.stopped = true ∧ m.nextSub = s.nextSub
  have hstep (m : Firehoses) (a : FirehoseAction) (m' : Firehoses) (hm : inv m)
      (ha : a ≠ .start) (hs : step cfg m a = some m') : inv m' := by
    obtain ⟨hstopped', hnext'⟩ := step_stopped hm.1 hm.2.1 ha hs
    exact ⟨step_orderly hm.1 hs, hstopped', hnext'.trans hm.2.2⟩
  have hinv : inv t := run_invariant hstep ⟨h, hst, rfl⟩ (guarded_of_forall has s) hr
  exact hinv

/-- At every moment at most one subscription of each kind is unclosed, and it is the one held;
the others were closed once; and from `stop()` until `start()` none is open and none is opened. -/
theorem one_firehose (cfg : FirehoseConfig) (now : Nat) {as : List FirehoseAction}
    {t : Firehoses} (hr : run (step cfg) (init now) as = some t) :
    (∀ m ∈ t.moments, m.Single) ∧ t.moment.Exact ∧
    (∀ id < t.nextSub, (∀ via, t.held via ≠ some id) → t.closes.count id = 1) ∧
    (∀ via id, t.held via = some id → t.closes.count id = 0) ∧
    ∀ as₁ echoes networkEchoes as₂ s, as = as₁ ++ .stop echoes networkEchoes :: as₂ →
      run (step cfg) (init now) (as₁ ++ [.stop echoes networkEchoes]) = some s →
      (∀ a ∈ as₂, a ≠ .start) → t.unclosed = [] ∧ t.nextSub = s.nextSub := by
  have hreached {s : Firehoses} {as : List FirehoseAction}
      (hr : run (step cfg) (init now) as = some s) : s.Orderly :=
    run_invariant_all (fun _ _ _ h hs => step_orderly h hs) (init_orderly now) hr
  have ht := hreached hr
  have hexact : t.moment.Exact := fun via => by rw [ht.tracks.unclosed, moment_held]
  have hids {id : SubId} (hid : id ∈ t.unclosed.map Prod.snd) : ∃ via, t.held via = some id := by
    obtain ⟨e, he, rfl⟩ := List.mem_map.mp hid
    have hmem : e.2 ∈ t.moment.unclosedOf e.1 :=
      List.mem_map_of_mem (List.mem_filter.mpr ⟨he, by simp⟩)
    rw [ht.tracks.unclosed] at hmem
    exact ⟨e.1, by simpa using hmem⟩
  refine ⟨ht.tracks.moments, hexact, fun id hid hnot => ?_, fun via id hheld => ?_, ?_⟩
  · have hclosed : id ∈ t.closes := (ht.tracks.closed id hid).mpr fun hm => by
      obtain ⟨via, hvia⟩ := hids hm
      exact hnot via hvia
    exact List.count_eq_one_of_mem ht.tracks.once hclosed
  · have hmem : id ∈ t.moment.unclosedOf via := by
      rw [ht.tracks.unclosed, hheld]
      simp
    have hopen : id ∈ t.unclosed.map Prod.snd := by
      obtain ⟨e, he, rfl⟩ := List.mem_map.mp hmem
      exact List.mem_map_of_mem (List.mem_filter.mp he).1
    apply List.count_eq_zero.mpr
    intro hclosed
    exact (ht.tracks.closed id (ht.tracks.past id hclosed)).mp hclosed hopen
  · intro as₁ echoes networkEchoes as₂ s has hs hstart
    have hsplit : as = (as₁ ++ [.stop echoes networkEchoes]) ++ as₂ := by simp [has]
    obtain ⟨m, hm, hrest⟩ := run_append_eq_some.mp (hsplit ▸ hr)
    obtain rfl : s = m := Option.some.inj (hs.symm.trans hm)
    obtain ⟨m, -, hstop⟩ := run_append_eq_some.mp hs
    obtain ⟨m', hm', hn⟩ := run_cons_eq_some.mp hstop
    obtain rfl : m' = s := by simpa using hn
    have hstopped : m'.stopped = true := by
      obtain rfl := Option.some.inj hm'
      rw [stop_echo]
      cases m.nostrSub <;> cases m.networkSub <;> rfl
    obtain ⟨ho, hst, hnext⟩ := run_stopped (hreached hs) hstopped hstart hrest
    exact ⟨ho.unclosed_of_stopped hst, hnext⟩

def demoFirehoses : FirehoseConfig := ⟨true, [js "wss://net"]⟩

/-- A refresh outlives the service, and every `close()` comes back. -/
def lateRefresh : List FirehoseAction :=
  [.start, .refreshed true, .refreshRooms, .tick 60000,
    .onclose .local 0 [js "error"] [some [js "closed"]],
    .onclose .network 1 [js "error"] [some [js "closed"], some [js "closed"]],
    .stop [some [js "closed"]] [some [js "closed"]], .refreshed true]

theorem one_firehose_lateRefresh :
    ∃ t, run (step demoFirehoses) (init 0) lateRefresh = some t ∧
      t.nextSub = 4 ∧ t.closes = [0, 1, 2, 3] ∧ (∀ m ∈ t.moments, m.Single) ∧ t.moment.Exact := by
  have hr : run (step demoFirehoses) (init 0) lateRefresh = some _ := rfl
  obtain ⟨hmoments, hexact, -⟩ := one_firehose demoFirehoses 0 hr
  exact ⟨_, hr, rfl, rfl, hmoments, hexact⟩

end Firehoses

end LivelierBridge.Chat
