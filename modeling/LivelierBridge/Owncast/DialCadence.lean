import Mathlib.Data.List.DropRight
import LivelierBridge.Framework.Log
import LivelierBridge.Owncast.NeverStuck

namespace LivelierBridge.Owncast

open Framework Js

namespace DialEvent

def isHeld : DialEvent → Bool
  | .held _ => true
  | .attempt _ | .configRead _ | .register | .opened _ | .ended _ _ | .slowed | .armed _ _ => false

/-- A dial that failed, or a connection that did not hold. -/
def isFailed : DialEvent → Bool
  | .ended _ failed => failed
  | .attempt _ | .configRead _ | .register | .opened _ | .held _ | .slowed | .armed _ _ => false

def isSlowed : DialEvent → Bool
  | .slowed => true
  | .attempt _ | .configRead _ | .register | .opened _ | .held _ | .ended _ _ | .armed _ _ => false

/-- The delay before a redial. -/
def delay? : DialEvent → Option Nat
  | .armed _ delayMs => some delayMs
  | .attempt _ | .configRead _ | .register | .opened _ | .held _ | .ended _ _ | .slowed => none

end DialEvent

/-- What has happened since a connection last held. -/
def sinceHeld (log : List DialEvent) : List DialEvent := log.rtakeWhile fun e => !e.isHeld

def failedSinceHeld (log : List DialEvent) : Nat := (sinceHeld log).countP DialEvent.isFailed

def slowedSinceHeld (log : List DialEvent) : Bool := (sinceHeld log).any DialEvent.isSlowed

def delaysSinceHeld (log : List DialEvent) : List Nat := (sinceHeld log).filterMap DialEvent.delay?

section SinceHeld

variable {log : List DialEvent} {e : DialEvent}

theorem sinceHeld_concat (h : e.isHeld = false) : sinceHeld (log ++ [e]) = sinceHeld log ++ [e] :=
  List.rtakeWhile_concat_pos _ _ _ (by simp [h])

theorem sinceHeld_held (time : Nat) : sinceHeld (log ++ [.held time]) = [] :=
  List.rtakeWhile_concat_neg _ _ _ (by simp [DialEvent.isHeld])

theorem failedSinceHeld_concat (h : e.isHeld = false) :
    failedSinceHeld (log ++ [e]) = failedSinceHeld log + e.isFailed.toNat := by
  unfold failedSinceHeld
  rw [sinceHeld_concat h, List.countP_append, List.countP_singleton]
  cases e.isFailed <;> rfl

theorem slowedSinceHeld_concat (h : e.isHeld = false) :
    slowedSinceHeld (log ++ [e]) = (slowedSinceHeld log || e.isSlowed) := by
  unfold slowedSinceHeld
  rw [sinceHeld_concat h]
  simp

theorem delaysSinceHeld_concat (h : e.isHeld = false) :
    delaysSinceHeld (log ++ [e]) = delaysSinceHeld log ++ e.delay?.toList := by
  unfold delaysSinceHeld
  rw [sinceHeld_concat h, List.filterMap_append]
  cases hd : e.delay? with
  | none => simp [hd]
  | some d => simp [hd]

end SinceHeld

/-- The end of an attempt or a connection at `time`, perhaps the one that made the listener dormant. -/
def JustEnded (pre : List DialEvent) (time : Nat) : Prop :=
  ∃ before failed, pre = before ++ [.ended time failed] ∨ pre = before ++ [.ended time failed, .slowed]

/-- When each event may happen, after what has happened before. -/
def Lawful (pre : List DialEvent) : DialEvent → Prop
  | .attempt time => pre = [] ∨ ∃ before ended delayMs, pre = before ++ [.armed ended delayMs] ∧
      JustEnded before ended ∧ ended + delayMs ≤ time ∧
        (slowedSinceHeld pre = true → delayMs = OwncastChatListener.DORMANT_INTERVAL_MS)
  | .register => ∃ before, pre = before ++ [.configRead false]
  | .held time => ∃ before opened, pre = before ++ [.opened opened] ∧
      opened + OwncastChatListener.MIN_HEALTHY_CONNECTION_MS ≤ time
  | .armed time delayMs => JustEnded pre time ∧
      if slowedSinceHeld pre then delayMs = OwncastChatListener.DORMANT_INTERVAL_MS
      else OwncastChatListener.FIRST_RECONNECT_DELAY_MS ≤ delayMs ∧
        delayMs ≤ OwncastChatListener.MAX_RECONNECT_DELAY_MS ∧ ∀ d ∈ delaysSinceHeld pre, d ≤ delayMs
  | .configRead _ | .opened _ | .ended _ _ | .slowed => True

namespace OwncastChatListener

variable {ν : Type} {s t : OwncastChatListener ν}

/-- The counters agree with what has happened since a connection last held. -/
structure Paced (s : OwncastChatListener ν) : Prop where
  failures : s.failures = failedSinceHeld s.log
  dormant : s.dormant = slowedSinceHeld s.log
  first : FIRST_RECONNECT_DELAY_MS ≤ s.reconnectDelayMs
  last : s.reconnectDelayMs ≤ MAX_RECONNECT_DELAY_MS
  delays : s.dormant = false → ∀ d ∈ delaysSinceHeld s.log, d ≤ s.reconnectDelayMs

/-- Between steps the budget is kept, and each timer is due as its last event says. -/
structure Cadence (s : OwncastChatListener ν) : Prop where
  paced : s.Paced
  budget : s.dormant = false → s.failures < MAX_CONSECUTIVE_FAILURES
  timer : ∀ due, s.reconnectTimer = some due → ∃ before ended delayMs,
    s.log = before ++ [.armed ended delayMs] ∧ JustEnded before ended ∧ due = ended + delayMs ∧
      (s.dormant = true → delayMs = DORMANT_INTERVAL_MS)
  healthy : ∀ due, s.healthyTimer = some due →
    ∃ before opened, s.log = before ++ [.opened opened] ∧ due = opened + MIN_HEALTHY_CONNECTION_MS

theorem record_of_running (hs : s.stopped = false) (e : DialEvent) :
    s.record e = { s with log := s.log ++ [e] } := by
  simp [record, hs]

@[simp] theorem record_failures (e : DialEvent) : (s.record e).failures = s.failures := by
  unfold OwncastChatListener.record
  split_ifs
  · rfl
  · rfl

@[simp] theorem record_dormant (e : DialEvent) : (s.record e).dormant = s.dormant := by
  unfold OwncastChatListener.record
  split_ifs
  · rfl
  · rfl

/-- The pace is in the counters and the log. -/
theorem Paced.of_same (h : s.Paced) (hfailures : t.failures = s.failures) (hlog : t.log = s.log)
    (hdormant : t.dormant = s.dormant) (hdelay : t.reconnectDelayMs = s.reconnectDelayMs) :
    t.Paced where
  failures := by rw [hfailures, hlog, h.failures]
  dormant := by rw [hdormant, hlog, h.dormant]
  first := hdelay ▸ h.first
  last := hdelay ▸ h.last
  delays := by
    rw [hdormant, hlog, hdelay]
    exact h.delays

/-- Events that count for nothing keep the pace. -/
theorem Paced.record (h : s.Paced) (hs : s.stopped = false) {e : DialEvent} (hheld : e.isHeld = false)
    (hfailed : e.isFailed = false) (hslowed : e.isSlowed = false) (hdelay : e.delay? = none) :
    (s.record e).Paced := by
  rw [record_of_running hs]
  constructor
  · show s.failures = failedSinceHeld (s.log ++ [e])
    rw [failedSinceHeld_concat hheld, hfailed, h.failures]
    rfl
  · show s.dormant = slowedSinceHeld (s.log ++ [e])
    rw [slowedSinceHeld_concat hheld, hslowed, h.dormant, Bool.or_false]
  · exact h.first
  · exact h.last
  · show s.dormant = false → ∀ d ∈ delaysSinceHeld (s.log ++ [e]), d ≤ s.reconnectDelayMs
    rw [delaysSinceHeld_concat hheld, hdelay, Option.toList_none, List.append_nil]
    exact h.delays

/-- A failure is counted with the end that is one. -/
theorem Paced.ended (h : s.Paced) (hs : s.stopped = false) (failed : Bool) :
    ((s.record (.ended s.now failed)).countFailure failed).Paced := by
  have hnone : (DialEvent.ended s.now failed).isHeld = false := rfl
  rw [record_of_running hs]
  constructor
  · show s.failures + failed.toNat = failedSinceHeld (s.log ++ [.ended s.now failed])
    rw [failedSinceHeld_concat hnone, h.failures]
    rfl
  · show s.dormant = slowedSinceHeld (s.log ++ [.ended s.now failed])
    rw [slowedSinceHeld_concat hnone, h.dormant]
    exact (Bool.or_false _).symm
  · exact h.first
  · exact h.last
  · show s.dormant = false → ∀ d ∈ delaysSinceHeld (s.log ++ [.ended s.now failed]),
      d ≤ s.reconnectDelayMs
    rw [delaysSinceHeld_concat hnone]
    simpa [DialEvent.delay?] using h.delays

theorem goDormant_of_running (hs : s.stopped = false) (hdormant : s.dormant = false) :
    s.goDormant = { s with log := s.log ++ [.slowed], dormant := true } := by
  simp only [goDormant, hdormant, record_of_running hs]
  rfl

theorem goDormant_dormant : s.goDormant.dormant = true := by
  unfold goDormant
  split_ifs with h
  · exact h
  · rfl

theorem Paced.goDormant (h : s.Paced) (hs : s.stopped = false) : s.goDormant.Paced := by
  cases hdormant : s.dormant with
  | true =>
    have hsame : s.goDormant = s := by simp [OwncastChatListener.goDormant, hdormant]
    exact hsame.symm ▸ h
  | false =>
    rw [goDormant_of_running hs hdormant]
    constructor
    · show s.failures = failedSinceHeld (s.log ++ [.slowed])
      rw [failedSinceHeld_concat rfl, h.failures]
      rfl
    · show true = slowedSinceHeld (s.log ++ [.slowed])
      rw [slowedSinceHeld_concat rfl]
      exact (Bool.or_true _).symm
    · exact h.first
    · exact h.last
    · exact nofun

/-- Nothing more happens between an end and the delay that is armed for it. -/
theorem goDormant_justEnded (hs : s.stopped = false) {before : List DialEvent} {failed : Bool}
    (hlog : s.log = before ++ [.ended s.now failed]) :
    JustEnded s.goDormant.log s.goDormant.now := by
  cases hdormant : s.dormant with
  | true =>
    have hsame : s.goDormant = s := by simp [goDormant, hdormant]
    rw [hsame]
    exact ⟨before, failed, .inl hlog⟩
  | false =>
    rw [goDormant_of_running hs hdormant]
    refine ⟨before, failed, .inr ?_⟩
    simp [hlog]

theorem goDormant_laws (hs : s.stopped = false) (h : Justified Lawful s.log) :
    Justified Lawful s.goDormant.log := by
  cases hdormant : s.dormant with
  | true =>
    have hsame : s.goDormant = s := by simp [goDormant, hdormant]
    exact hsame.symm ▸ h
  | false =>
    rw [goDormant_of_running hs hdormant]
    exact h.concat trivial

/-- A listener that is between the end of an attempt or a connection and the next delay. -/
structure Ending (s : OwncastChatListener ν) : Prop where
  running : s.stopped = false
  timer : s.reconnectTimer = none
  healthy : s.healthyTimer = none
  paced : s.Paced
  laws : Justified Lawful s.log
  ended : JustEnded s.log s.now

/-- The delay fits the pace. -/
def Fits (s : OwncastChatListener ν) (delayMs : Nat) : Prop :=
  if s.dormant then delayMs = DORMANT_INTERVAL_MS
  else FIRST_RECONNECT_DELAY_MS ≤ delayMs ∧ delayMs ≤ MAX_RECONNECT_DELAY_MS ∧
    (∀ d ∈ delaysSinceHeld s.log, d ≤ delayMs) ∧ delayMs ≤ s.reconnectDelayMs

theorem Ending.arm (h : s.Ending) {delayMs : Nat} (hfits : s.Fits delayMs)
    (hbudget : s.dormant = false → s.failures < MAX_CONSECUTIVE_FAILURES) :
    Justified Lawful (s.arm delayMs).log ∧ (s.arm delayMs).Cadence := by
  have hnone : (DialEvent.armed s.now delayMs).isHeld = false := rfl
  have harm : s.arm delayMs =
      { s with
        log := s.log ++ [.armed s.now delayMs]
        reconnectTimer := some (s.now + delayMs) } := by
    simp [OwncastChatListener.arm, h.running, h.timer, record_of_running h.running]
  have hslowed : s.dormant = slowedSinceHeld s.log := h.paced.dormant
  rw [harm]
  refine ⟨h.laws.concat ⟨h.ended, ?_⟩, ⟨?_, ?_, h.paced.first, h.paced.last, ?_⟩, hbudget, ?_, ?_⟩
  · rw [← hslowed]
    cases hdormant : s.dormant with
    | true =>
      rw [Fits, hdormant] at hfits
      exact hfits
    | false =>
      rw [Fits, hdormant] at hfits
      exact ⟨hfits.1, hfits.2.1, hfits.2.2.1⟩
  · show s.failures = failedSinceHeld (s.log ++ [.armed s.now delayMs])
    rw [failedSinceHeld_concat hnone, h.paced.failures]
    rfl
  · show s.dormant = slowedSinceHeld (s.log ++ [.armed s.now delayMs])
    rw [slowedSinceHeld_concat hnone, hslowed]
    exact (Bool.or_false _).symm
  · show s.dormant = false → ∀ d ∈ delaysSinceHeld (s.log ++ [.armed s.now delayMs]),
      d ≤ s.reconnectDelayMs
    intro hdormant d hd
    rw [Fits, hdormant] at hfits
    rw [delaysSinceHeld_concat hnone] at hd
    rcases List.mem_append.mp hd with hold | hlast
    · exact h.paced.delays hdormant d hold
    · obtain rfl : d = delayMs := by simpa [DialEvent.delay?] using hlast
      exact hfits.2.2.2
  · intro due hdue
    obtain rfl : s.now + delayMs = due := Option.some.inj hdue
    refine ⟨s.log, s.now, delayMs, rfl, h.ended, rfl, ?_⟩
    intro hdormant
    replace hdormant : s.dormant = true := hdormant
    rw [Fits, hdormant] at hfits
    exact hfits
  · intro due hdue
    cases h.healthy.symm.trans hdue

theorem Ending.armNext (h : s.Ending)
    (hbudget : s.dormant = false → s.failures < MAX_CONSECUTIVE_FAILURES) :
    Justified Lawful s.armNext.log ∧ s.armNext.Cadence := by
  unfold OwncastChatListener.armNext
  split_ifs with hdormant
  · refine h.arm ?_ hbudget
    rw [Fits, if_pos hdormant]
  · replace hdormant : s.dormant = false := by simpa using hdormant
    have hfirst := h.paced.first
    have hlast := h.paced.last
    -- the doubled delay is no shorter than the one that is armed
    have hdouble : s.reconnectDelayMs ≤ min (s.reconnectDelayMs * 2) MAX_RECONNECT_DELAY_MS := by omega
    have hnext : Ending { s with
        reconnectDelayMs := min (s.reconnectDelayMs * 2) MAX_RECONNECT_DELAY_MS } := by
      refine ⟨h.running, h.timer, h.healthy, ?_, h.laws, h.ended⟩
      refine ⟨h.paced.failures, h.paced.dormant, hfirst.trans hdouble, Nat.min_le_right _ _, ?_⟩
      intro hd d hmem
      exact (h.paced.delays hd d hmem).trans hdouble
    refine hnext.arm ?_ hbudget
    rw [Fits, if_neg (by simp [hdormant])]
    exact ⟨hfirst, hlast, h.paced.delays hdormant, hdouble⟩

/-- Nothing is under way, and the pace has been kept. -/
structure Quiet (s : OwncastChatListener ν) : Prop where
  running : s.stopped = false
  timer : s.reconnectTimer = none
  healthy : s.healthyTimer = none
  paced : s.Paced
  laws : Justified Lawful s.log

theorem Ending.goDormant {before : List DialEvent} {failed : Bool} (h : s.Quiet)
    (hlog : s.log = before ++ [.ended s.now failed]) : s.goDormant.Ending := by
  have hsame := s.sameDial_goDormant
  exact ⟨hsame.stopped.trans h.running, goDormant_reconnectTimer.trans h.timer,
    hsame.healthyTimer.trans h.healthy, h.paced.goDormant h.running, goDormant_laws h.running h.laws,
    goDormant_justEnded h.running hlog⟩

theorem Quiet.ended (h : s.Quiet) (failed : Bool) :
    ((s.record (.ended s.now failed)).countFailure failed).Quiet := by
  have hpaced := h.paced.ended h.running failed
  rw [record_of_running h.running] at hpaced ⊢
  exact ⟨h.running, h.timer, h.healthy, hpaced, h.laws.concat trivial⟩

/-- An attempt or a connection ends, and a redial is armed in the pace. -/
theorem Quiet.reconnects (h : s.Quiet) (failed : Bool) :
    Justified Lawful ((s.record (.ended s.now failed)).scheduleReconnect failed).log ∧
      ((s.record (.ended s.now failed)).scheduleReconnect failed).Cadence := by
  have hquiet := h.ended failed
  have hlog : ((s.record (.ended s.now failed)).countFailure failed).log =
      s.log ++ [.ended ((s.record (.ended s.now failed)).countFailure failed).now failed] := by
    rw [record_of_running h.running]
    rfl
  have hrunning : (s.record (.ended s.now failed)).stopped = false := hquiet.running
  have htimer : (s.record (.ended s.now failed)).reconnectTimer = none := hquiet.timer
  have hschedule : (s.record (.ended s.now failed)).scheduleReconnect failed =
      ((s.record (.ended s.now failed)).countFailure failed).checkBudget.armNext := by
    unfold scheduleReconnect
    rw [if_neg (by rw [hrunning, htimer]; decide)]
  rw [hschedule]
  unfold checkBudget
  split_ifs with hspent
  · apply (Ending.goDormant hquiet hlog).armNext
    intro hdormant
    cases goDormant_dormant.symm.trans hdormant
  · apply Ending.armNext
    · exact ⟨hquiet.running, hquiet.timer, hquiet.healthy, hquiet.paced, hquiet.laws,
        ⟨s.log, failed, .inl hlog⟩⟩
    · intro _
      omega

theorem Quiet.leaveAlone (h : s.Quiet) :
    Justified Lawful s.leaveAlone.log ∧ s.leaveAlone.Cadence := by
  have hpaced := h.paced.record (e := .ended s.now false) h.running rfl rfl rfl rfl
  have hquiet : (s.record (.ended s.now false)).Quiet := by
    rw [record_of_running h.running] at hpaced ⊢
    exact ⟨h.running, h.timer, h.healthy, hpaced, h.laws.concat trivial⟩
  have hlog : (s.record (.ended s.now false)).log =
      s.log ++ [.ended (s.record (.ended s.now false)).now false] := by
    rw [record_of_running h.running]
  refine (Ending.goDormant hquiet hlog).arm ?_ ?_
  · rw [Fits, if_pos goDormant_dormant]
  · intro hdormant
    cases goDormant_dormant.symm.trans hdormant

theorem Quiet.cadence (h : s.Quiet)
    (hbudget : s.dormant = false → s.failures < MAX_CONSECUTIVE_FAILURES) : s.Cadence where
  paced := h.paced
  budget := hbudget
  timer := fun _ hdue => nomatch h.timer.symm.trans hdue
  healthy := fun _ hdue => nomatch h.healthy.symm.trans hdue

/-- An event that counts for nothing is recorded where it may happen. -/
theorem Quiet.record (h : s.Quiet) {e : DialEvent} (hheld : e.isHeld = false)
    (hfailed : e.isFailed = false) (hslowed : e.isSlowed = false) (hdelay : e.delay? = none)
    (hlawful : Lawful s.log e) : (s.record e).Quiet := by
  have hpaced := h.paced.record h.running hheld hfailed hslowed hdelay
  rw [record_of_running h.running] at hpaced ⊢
  exact ⟨h.running, h.timer, h.healthy, hpaced, h.laws.concat hlawful⟩

/-- A change of nothing but the dial, the sockets and the two timers. -/
theorem Paced.quiet (h : s.Paced) (hlaws : Justified Lawful s.log) (hrunning : t.stopped = false)
    (htimer : t.reconnectTimer = none) (hhealthy : t.healthyTimer = none)
    (hfailures : t.failures = s.failures) (hlog : t.log = s.log) (hdormant : t.dormant = s.dormant)
    (hdelay : t.reconnectDelayMs = s.reconnectDelayMs) : t.Quiet :=
  ⟨hrunning, htimer, hhealthy, h.of_same hfailures hlog hdormant hdelay, hlog ▸ hlaws⟩

/-- Every event so far was lawful, and until `stop()` the listener is in its pace. -/
structure InPace (s : OwncastChatListener ν) : Prop where
  owned : s.Owned
  laws : Justified Lawful s.log
  cadence : s.stopped = false → s.Cadence

theorem InPace.quiet (h : s.InPace) (hs : s.stopped = false) (hdial : s.dial.isSome = true) :
    s.answered.Quiet := by
  obtain ⟨hlive, htimer⟩ := h.owned.of_dialing hs hdial
  have hnone : s.reconnectTimer = none := by simpa using htimer
  exact (h.cadence hs).paced.quiet h.laws hs hnone (h.owned.healthyTimer_none hlive) rfl rfl rfl rfl

theorem first_le_max : FIRST_RECONNECT_DELAY_MS ≤ MAX_RECONNECT_DELAY_MS := by decide

theorem budget_pos : 0 < MAX_CONSECUTIVE_FAILURES := by decide

theorem InPace.afterConfig (h : s.InPace) (hs : s.stopped = false) (hdial : s.dial = some .config)
    (config : Option (Json ν)) :
    Justified Lawful (s.afterConfig config).log ∧ (s.afterConfig config).Cadence := by
  have hquiet := h.quiet hs (by rw [hdial]; rfl)
  have hread := hquiet.record (e := .configRead (chatIsDisabled config)) rfl rfl rfl rfl trivial
  have hlog : (s.answered.record (.configRead (chatIsDisabled config))).log =
      s.log ++ [.configRead (chatIsDisabled config)] := by
    rw [record_of_running hquiet.running]
    rfl
  unfold OwncastChatListener.afterConfig
  simp only [hread.running, Bool.false_eq_true, if_false]
  split_ifs with hdisabled
  · exact hread.leaveAlone
  · have hregister := hread.record (e := .register) rfl rfl rfl rfl
      ⟨s.log, by rw [hlog]; simp [hdisabled]⟩
    have hcalled : (s.answered.record (.configRead (chatIsDisabled config))).callRegister.Quiet :=
      hregister.paced.quiet hregister.laws hregister.running hregister.timer hregister.healthy
        rfl rfl rfl rfl
    refine ⟨hcalled.laws, hcalled.cadence ?_⟩
    show ((s.answered.record _).record .register).dormant = false →
      ((s.answered.record _).record .register).failures < MAX_CONSECUTIVE_FAILURES
    simp only [record_dormant, record_failures]
    exact (h.cadence hs).budget

theorem InPace.afterRegister [JsNumber ν] (h : s.InPace) (hs : s.stopped = false)
    (hdial : s.dial = some .register)
    (registration : Option (Json ν)) (constructs : Bool) :
    Justified Lawful (s.afterRegister registration constructs).log ∧
      (s.afterRegister registration constructs).Cadence := by
  have hquiet := h.quiet hs (by rw [hdial]; rfl)
  unfold OwncastChatListener.afterRegister
  cases registration with
  | none => exact hquiet.reconnects true
  | some registration =>
    simp only [hs, Bool.false_eq_true, if_false]
    unfold OwncastChatListener.dialSocket
    split
    · exact hquiet.reconnects true
    · rename_i id _
      have hid : Quiet { s.answered with ownUserId := id } :=
        hquiet.paced.quiet hquiet.laws hquiet.running hquiet.timer hquiet.healthy rfl rfl rfl rfl
      dsimp only
      split
      · exact hid.reconnects true
      · rename_i token _
        split_ifs
        · have hcreated : (OwncastChatListener.createSocket { s.answered with ownUserId := id }
              (wsScheme s.answered.instanceUrl ++ js "/ws?accessToken=" ++ token)).Quiet :=
            hid.paced.quiet hid.laws hid.running hid.timer hid.healthy rfl rfl rfl rfl
          exact ⟨hcreated.laws, hcreated.cadence (h.cadence hs).budget⟩
        · exact hid.reconnects true

theorem InPace.opens (h : s.InPace) (hs : s.stopped = false) {i : Nat} {url : JsString}
    (hsocket : s.sockets[i]? = some ⟨url, .CONNECTING⟩) :
    Justified Lawful (s.setReadyState i .OPEN).onOpen.log ∧
      (s.setReadyState i .OPEN).onOpen.Cadence := by
  obtain ⟨-, -, htimer⟩ := h.owned.of_live hs hsocket rfl
  have hnone : s.reconnectTimer = none := by simpa using htimer
  have hpaced : (s.setReadyState i .OPEN).Paced := (h.cadence hs).paced.of_same rfl rfl rfl rfl
  have hrecorded := hpaced.record (e := .opened s.now) hs rfl rfl rfl rfl
  have hrecord := record_of_running (s := s.setReadyState i .OPEN) hs (.opened s.now)
  unfold onOpen
  rw [show (s.setReadyState i .OPEN).now = s.now from rfl, hrecord]
  rw [hrecord] at hrecorded
  refine ⟨h.laws.concat trivial, hrecorded.of_same rfl rfl rfl rfl, (h.cadence hs).budget, ?_, ?_⟩
  · intro due hdue
    cases hnone.symm.trans hdue
  · intro due hdue
    exact ⟨s.log, s.now, rfl, (Option.some.inj hdue).symm⟩

theorem InPace.closes (h : s.InPace) (hs : s.stopped = false) {i : Nat} {socket : ChatSocket}
    (hsocket : s.sockets[i]? = some socket) (hlive : socket.isLive = true) :
    Justified Lawful (s.setReadyState i .CLOSED).onClose.log ∧
      (s.setReadyState i .CLOSED).onClose.Cadence := by
  obtain ⟨-, -, htimer⟩ := h.owned.of_live hs hsocket hlive
  have hnone : s.reconnectTimer = none := by simpa using htimer
  have hquiet : (s.setReadyState i .CLOSED).clearHealthyTimer.Quiet :=
    (h.cadence hs).paced.quiet h.laws hs hnone rfl rfl rfl rfl rfl
  exact hquiet.reconnects (!s.provenHealthy)

/-- A connection that has held clears the budget, and the delays start over. -/
theorem InPace.markHealthy (h : s.InPace) (hs : s.stopped = false) {due : Nat}
    (htimer : s.healthyTimer = some due) (hdue : due ≤ s.now) :
    Justified Lawful s.markHealthy.log ∧ s.markHealthy.Cadence := by
  obtain ⟨before, opened, hlog, hwhen⟩ := (h.cadence hs).healthy due htimer
  have hpos := (h.owned.healthy (by rw [htimer]; rfl)).2
  have hone := h.owned.one hs
  have hnone : s.reconnectTimer = none := by
    cases hreconnect : s.reconnectTimer with
    | none => rfl
    | some due =>
      rw [underWay, hreconnect, Option.isSome_some, Bool.toNat_true] at hone
      omega
  have hlawful : Lawful s.log (.held s.now) := ⟨before, opened, hlog, by omega⟩
  unfold OwncastChatListener.markHealthy
  rw [record_of_running hs]
  refine ⟨h.laws.concat hlawful, ⟨?_, ?_, Nat.le_refl _, first_le_max, ?_⟩, fun _ => budget_pos, ?_, ?_⟩
  · show 0 = failedSinceHeld (s.log ++ [.held s.now])
    rw [failedSinceHeld, sinceHeld_held]
    rfl
  · show false = slowedSinceHeld (s.log ++ [.held s.now])
    rw [slowedSinceHeld, sinceHeld_held]
    rfl
  · intro _ d hd
    replace hd : d ∈ delaysSinceHeld (s.log ++ [.held s.now]) := hd
    rw [delaysSinceHeld, sinceHeld_held] at hd
    cases hd
  · intro due hreconnect
    cases hnone.symm.trans hreconnect
  · intro due hhealthy
    cases hhealthy

theorem InPace.redials (h : s.InPace) (hs : s.stopped = false) {due : Nat}
    (htimer : s.reconnectTimer = some due) (hdue : due ≤ s.now) :
    Justified Lawful s.clearReconnectTimer.connect.log ∧ s.clearReconnectTimer.connect.Cadence := by
  obtain ⟨before, ended, delayMs, hlog, hended, hwhen, hdormant⟩ := (h.cadence hs).timer due htimer
  have hone := h.owned.one hs
  rw [underWay, htimer, Option.isSome_some, Bool.toNat_true] at hone
  have hhealthy : s.healthyTimer = none := h.owned.healthyTimer_none (by omega)
  have hquiet : s.clearReconnectTimer.Quiet :=
    (h.cadence hs).paced.quiet h.laws hs rfl hhealthy rfl rfl rfl rfl
  have hlawful : Lawful s.log (.attempt s.now) := by
    refine .inr ⟨before, ended, delayMs, hlog, hended, by omega, ?_⟩
    rw [← (h.cadence hs).paced.dormant]
    exact hdormant
  have hattempt := hquiet.record (e := .attempt s.now) rfl rfl rfl rfl hlawful
  unfold connect
  rw [if_neg (by rw [hquiet.running]; decide)]
  have hdialing : Quiet { s.clearReconnectTimer.record (.attempt s.now) with dial := some .config } :=
    hattempt.paced.quiet hattempt.laws hattempt.running hattempt.timer hattempt.healthy rfl rfl rfl rfl
  refine ⟨hdialing.laws, hdialing.cadence ?_⟩
  show (s.clearReconnectTimer.record _).dormant = false →
    (s.clearReconnectTimer.record _).failures < MAX_CONSECUTIVE_FAILURES
  simp only [record_dormant, record_failures]
  exact (h.cadence hs).budget

section Runs

theorem inPace_start (instanceUrl : JsString) (now : Nat) :
    InPace (start instanceUrl now : OwncastChatListener ν) where
  owned := owned_start instanceUrl now
  laws := (justified_nil Lawful).concat (.inl rfl)
  cadence := fun _ =>
    ⟨⟨rfl, rfl, Nat.le_refl _, first_le_max, fun _ _ h => nomatch h⟩, fun _ => budget_pos, nofun, nofun⟩

variable [JsNumber ν] {a : ListenerAction ν}

theorem InPace.step_running (h : s.InPace) (hs : s.stopped = false) (ht : s.step a = some t) :
    Justified Lawful t.log ∧ (t.stopped = false → t.Cadence) := by
  cases a with
  | configAnswered config =>
    simp only [OwncastChatListener.step] at ht
    split_ifs at ht with hdial
    obtain ⟨hlaws, hcadence⟩ := h.afterConfig hs hdial config
    exact Option.some.inj ht ▸ ⟨hlaws, fun _ => hcadence⟩
  | registered registration constructs =>
    simp only [OwncastChatListener.step] at ht
    split_ifs at ht with hdial
    obtain ⟨hlaws, hcadence⟩ := h.afterRegister hs hdial registration constructs
    exact Option.some.inj ht ▸ ⟨hlaws, fun _ => hcadence⟩
  | socketOpens i =>
    simp only [OwncastChatListener.step] at ht
    split at ht
    · rename_i hsocket
      obtain ⟨hlaws, hcadence⟩ := h.opens hs hsocket
      exact Option.some.inj ht ▸ ⟨hlaws, fun _ => hcadence⟩
    · cases ht
  | socketErrors i =>
    simp only [OwncastChatListener.step] at ht
    split at ht
    · split_ifs at ht
      exact Option.some.inj ht ▸ ⟨h.laws, h.cadence⟩
    · cases ht
  | socketCloses i =>
    simp only [OwncastChatListener.step] at ht
    split at ht
    · rename_i hsocket
      split_ifs at ht with hlive
      obtain ⟨hlaws, hcadence⟩ := h.closes hs hsocket hlive
      exact Option.some.inj ht ▸ ⟨hlaws, fun _ => hcadence⟩
    · cases ht
  | healthyTimerFires =>
    simp only [OwncastChatListener.step] at ht
    split at ht
    · rename_i htimer
      split_ifs at ht with hdue
      obtain ⟨hlaws, hcadence⟩ := h.markHealthy hs htimer hdue
      exact Option.some.inj ht ▸ ⟨hlaws, fun _ => hcadence⟩
    · cases ht
  | reconnectTimerFires =>
    simp only [OwncastChatListener.step] at ht
    split at ht
    · rename_i htimer
      split_ifs at ht with hdue
      obtain ⟨hlaws, hcadence⟩ := h.redials hs htimer hdue
      exact Option.some.inj ht ▸ ⟨hlaws, fun _ => hcadence⟩
    · cases ht
  | stop => exact Option.some.inj ht ▸ ⟨h.laws, fun hrunning => by cases hrunning⟩
  | tick ms =>
    obtain rfl := Option.some.inj ht
    refine ⟨h.laws, fun _ => ?_⟩
    obtain ⟨hpaced, hbudget, htimer, hhealthy⟩ := h.cadence hs
    exact ⟨hpaced.of_same rfl rfl rfl rfl, hbudget, htimer, hhealthy⟩

theorem InPace.step (h : s.InPace) (ht : s.step a = some t) : t.InPace := by
  cases hs : s.stopped with
  | true =>
    obtain ⟨hstill, -, hlog⟩ := staysStopped_step hs h.owned ht
    exact ⟨h.owned.step ht, hlog ▸ h.laws, fun hrunning => nomatch hstill.symm.trans hrunning⟩
  | false =>
    obtain ⟨hlaws, hcadence⟩ := h.step_running hs ht
    exact ⟨h.owned.step ht, hlaws, hcadence⟩

/-- Every dial, delay and connection so far was in the pace: a registration only after a config that
leaves chat on, delays from the first to the longest that never shrink until a connection has held,
and the slow interval while the listener is dormant. The budget of failures since a connection held is
never exceeded unless the listener is dormant, and only a connection that has held ends that. -/
theorem dials_inPace {instanceUrl : JsString} {now : Nat} {as : List (ListenerAction ν)}
    (hrun : run OwncastChatListener.step (start instanceUrl now) as = some t) :
    Justified Lawful t.log ∧ (t.stopped = false → t.dormant = slowedSinceHeld t.log ∧
      (t.dormant = false → failedSinceHeld t.log < MAX_CONSECUTIVE_FAILURES)) := by
  have h : t.InPace := run_invariant_all (fun s a s' h hs => h.step hs) (inPace_start _ _) hrun
  refine ⟨h.laws, ?_⟩
  intro hs
  obtain ⟨hpaced, hbudget, -, -⟩ := h.cadence hs
  exact ⟨hpaced.dormant, fun hdormant => hpaced.failures ▸ hbudget hdormant⟩

/-- One dial: the config says nothing, the registration succeeds and the socket closes at once. -/
def refusedDial (i ms : Nat) : List (ListenerAction Int) :=
  [.configAnswered (some (.obj [])), .registered (some (.obj [])) true, .socketCloses i, .tick ms,
    .reconnectTimerFires]

/-- Five refused dials spend the budget, and a connection that holds brings it back. -/
def spentBudget : List (ListenerAction Int) :=
  refusedDial 0 15000 ++ refusedDial 1 30000 ++ refusedDial 2 60000 ++ refusedDial 3 120000 ++
    refusedDial 4 1800000 ++
      [.configAnswered none, .registered (some (.obj [])) true, .socketOpens 5, .tick 30000,
        .healthyTimerFires, .socketCloses 5]

theorem dials_inPace_spentBudget :
    ∃ t, run OwncastChatListener.step (start (js "https://oc.example") 0) spentBudget = some t ∧
      Justified Lawful t.log ∧ (t.stopped = false → t.dormant = slowedSinceHeld t.log ∧
        (t.dormant = false → failedSinceHeld t.log < MAX_CONSECUTIVE_FAILURES)) := by
  obtain ⟨t, ht⟩ := Option.isSome_iff_exists.mp
    (show (run OwncastChatListener.step (start (js "https://oc.example") 0) spentBudget).isSome = true by
      decide +kernel)
  exact ⟨t, ht, dials_inPace ht⟩

end Runs

end OwncastChatListener

end LivelierBridge.Owncast
