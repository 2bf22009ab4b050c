import LivelierBridge.Owncast.ChatListener
import LivelierBridge.Owncast.Frames

namespace LivelierBridge.Owncast

open Framework Js

/-- `close()` has been called on the socket, or it has closed. -/
def ChatSocket.isShut (socket : ChatSocket) : Bool :=
  match socket.readyState with
  | .CLOSING | .CLOSED => true
  | .CONNECTING | .OPEN => false

theorem ChatSocket.close_isShut (socket : ChatSocket) : socket.close.isShut = true := by
  obtain ⟨url, readyState⟩ := socket
  cases readyState with
  | CONNECTING | OPEN | CLOSING | CLOSED => rfl

theorem ChatSocket.isShut_of_not_live {socket : ChatSocket} (h : socket.isLive = false) :
    socket.isShut = true := by
  obtain ⟨url, readyState⟩ := socket
  cases readyState with
  | CONNECTING | OPEN | CLOSING => cases h
  | CLOSED => rfl

/-- A change of one element moves a count by what it makes of that element. -/
theorem countP_modify {α : Type} (p : α → Bool) (f : α → α) (xs : List α) (i : Nat) (x : α)
    (hx : xs[i]? = some x) :
    (xs.modify i f).countP p + (p x).toNat = xs.countP p + (p (f x)).toNat := by
  induction xs generalizing i with
  | nil => simp at hx
  | cons y ys ih =>
    cases i with
    | zero =>
      obtain rfl : y = x := by simpa using hx
      cases hy : p y <;> cases hfy : p (f y) <;> simp [hy, hfy]
    | succ i =>
      have hrest := ih i (by simpa using hx)
      simp only [List.modify_succ_cons, List.countP_cons]
      omega

namespace OwncastChatListener

variable {ν : Type} {s t u : OwncastChatListener ν}

/-- How many dials are in progress, sockets have their close event still to come, and reconnect timers
are armed. -/
def underWay (s : OwncastChatListener ν) : Nat :=
  s.dial.isSome.toNat + s.sockets.countP ChatSocket.isLive + s.reconnectTimer.isSome.toNat

/-- Both have the same dial, sockets and health timer. -/
structure SameDial (s t : OwncastChatListener ν) : Prop where
  dial : t.dial.isSome = s.dial.isSome
  sockets : t.sockets = s.sockets
  ws : t.ws = s.ws
  stopped : t.stopped = s.stopped
  healthyTimer : t.healthyTimer = s.healthyTimer

theorem SameDial.trans (h : s.SameDial t) (h' : t.SameDial u) : s.SameDial u where
  dial := h'.dial.trans h.dial
  sockets := h'.sockets.trans h.sockets
  ws := h'.ws.trans h.ws
  stopped := h'.stopped.trans h.stopped
  healthyTimer := h'.healthyTimer.trans h.healthyTimer

theorem sameDial_record (s : OwncastChatListener ν) (e : DialEvent) : s.SameDial (s.record e) := by
  unfold record
  split_ifs
  · exact ⟨rfl, rfl, rfl, rfl, rfl⟩
  · exact ⟨rfl, rfl, rfl, rfl, rfl⟩

@[simp] theorem record_reconnectTimer (e : DialEvent) :
    (s.record e).reconnectTimer = s.reconnectTimer := by
  unfold record
  split_ifs
  · rfl
  · rfl

theorem sameDial_goDormant (s : OwncastChatListener ν) : s.SameDial s.goDormant := by
  unfold goDormant
  split_ifs
  · exact ⟨rfl, rfl, rfl, rfl, rfl⟩
  · obtain ⟨hdial, hsockets, hws, hstopped, hhealthy⟩ := s.sameDial_record .slowed
    exact ⟨hdial, hsockets, hws, hstopped, hhealthy⟩

@[simp] theorem goDormant_reconnectTimer : s.goDormant.reconnectTimer = s.reconnectTimer := by
  unfold goDormant
  split_ifs
  · rfl
  · exact record_reconnectTimer .slowed

theorem sameDial_arm (s : OwncastChatListener ν) (delayMs : Nat) : s.SameDial (s.arm delayMs) := by
  unfold arm
  split_ifs
  · exact ⟨rfl, rfl, rfl, rfl, rfl⟩
  · obtain ⟨hdial, hsockets, hws, hstopped, hhealthy⟩ := s.sameDial_record (.armed s.now delayMs)
    exact ⟨hdial, hsockets, hws, hstopped, hhealthy⟩

theorem arm_of_stopped (h : s.stopped = true) (delayMs : Nat) : s.arm delayMs = s := by
  simp [arm, h]

/-- While the listener is not stopped, whoever arms leaves the timer armed. -/
theorem arm_isSome (h : s.stopped = false) (delayMs : Nat) :
    (s.arm delayMs).reconnectTimer.isSome = true := by
  unfold arm
  split_ifs with hguard
  · simpa [h] using hguard
  · rfl

theorem sameDial_armNext (s : OwncastChatListener ν) : s.SameDial s.armNext := by
  unfold armNext
  split_ifs
  · exact s.sameDial_arm _
  · obtain ⟨hdial, hsockets, hws, hstopped, hhealthy⟩ := sameDial_arm
      { s with reconnectDelayMs := min (s.reconnectDelayMs * 2) MAX_RECONNECT_DELAY_MS }
      s.reconnectDelayMs
    exact ⟨hdial, hsockets, hws, hstopped, hhealthy⟩

theorem armNext_isSome (h : s.stopped = false) : s.armNext.reconnectTimer.isSome = true := by
  unfold armNext
  split_ifs
  · exact arm_isSome h _
  · exact arm_isSome
      (s := { s with reconnectDelayMs := min (s.reconnectDelayMs * 2) MAX_RECONNECT_DELAY_MS }) h _

theorem scheduleReconnect_of_stopped (h : s.stopped = true) (countAsFailure : Bool) :
    s.scheduleReconnect countAsFailure = s := by
  simp [scheduleReconnect, h]

theorem sameDial_checkBudget (s : OwncastChatListener ν) : s.SameDial s.checkBudget := by
  unfold checkBudget
  split_ifs
  · exact s.sameDial_goDormant
  · exact ⟨rfl, rfl, rfl, rfl, rfl⟩

theorem sameDial_countFailure (s : OwncastChatListener ν) (countAsFailure : Bool) :
    s.SameDial (s.countFailure countAsFailure) :=
  ⟨rfl, rfl, rfl, rfl, rfl⟩

/-- A reconnect is scheduled: nothing else changes, and the timer is armed. -/
theorem scheduleReconnect_armed (h : s.stopped = false) (countAsFailure : Bool) :
    s.SameDial (s.scheduleReconnect countAsFailure) ∧
      (s.scheduleReconnect countAsFailure).reconnectTimer.isSome = true := by
  have hchecked := (s.sameDial_countFailure countAsFailure).trans (sameDial_checkBudget _)
  unfold scheduleReconnect
  split_ifs with hguard
  · exact ⟨⟨rfl, rfl, rfl, rfl, rfl⟩, by simpa [h] using hguard⟩
  · exact ⟨hchecked.trans (sameDial_armNext _), armNext_isSome (hchecked.stopped.trans h)⟩

section Invariant

/-- The one thing under way, whose socket `ws` is; and after `stop()` nothing is left. -/
structure Owned (s : OwncastChatListener ν) : Prop where
  one : s.stopped = false → s.underWay = 1
  current : s.stopped = false → ∀ i socket, s.sockets[i]? = some socket → socket.isLive = true →
    s.ws = some i
  healthy : s.healthyTimer.isSome = true → s.stopped = false ∧ 0 < s.sockets.countP ChatSocket.isLive
  shut : s.stopped = true → s.reconnectTimer = none ∧ ∀ socket ∈ s.sockets, socket.isShut = true

theorem owned_start (instanceUrl : JsString) (now : Nat) :
    Owned (start instanceUrl now : OwncastChatListener ν) where
  one := fun _ => rfl
  current := fun _ _ _ h => nomatch h
  healthy := fun h => nomatch h
  shut := fun h => nomatch h

/-- A change that leaves the dial, the sockets and the health timer alone, and keeps the timer armed
or not. -/
theorem Owned.of_same (h : s.Owned) (hsame : s.SameDial t)
    (htimer : t.reconnectTimer.isSome = s.reconnectTimer.isSome) : t.Owned where
  one := by
    intro ht
    rw [hsame.stopped] at ht
    rw [underWay, hsame.dial, hsame.sockets, htimer]
    exact h.one ht
  current := by
    rw [hsame.stopped, hsame.sockets, hsame.ws]
    exact h.current
  healthy := by
    rw [hsame.healthyTimer, hsame.stopped, hsame.sockets]
    exact h.healthy
  shut := by
    rw [hsame.stopped, hsame.sockets]
    intro hs
    obtain ⟨hnone, hshut⟩ := h.shut hs
    rw [hnone] at htimer
    exact ⟨Option.isNone_iff_eq_none.mp (by simpa using htimer), hshut⟩

theorem Owned.healthyTimer_none (h : s.Owned) (hlive : s.sockets.countP ChatSocket.isLive = 0) :
    s.healthyTimer = none := by
  cases htimer : s.healthyTimer with
  | none => rfl
  | some due =>
    have hpos := (h.healthy (by rw [htimer]; rfl)).2
    omega

/-- With a dial in progress there is no live socket and no timer. -/
theorem Owned.of_dialing (h : s.Owned) (hs : s.stopped = false) (hdial : s.dial.isSome = true) :
    s.sockets.countP ChatSocket.isLive = 0 ∧ s.reconnectTimer.isSome = false := by
  have hone := h.one hs
  rw [underWay, hdial, Bool.toNat_true] at hone
  refine ⟨by omega, ?_⟩
  cases htimer : s.reconnectTimer.isSome with
  | false => rfl
  | true =>
    rw [htimer, Bool.toNat_true] at hone
    omega

/-- Nothing is under way; the step that brought the listener here goes on. -/
structure Idle (s : OwncastChatListener ν) : Prop where
  stopped : s.stopped = false
  dial : s.dial.isSome = false
  live : s.sockets.countP ChatSocket.isLive = 0
  timer : s.reconnectTimer.isSome = false
  healthy : s.healthyTimer = none

theorem Idle.of_same (h : s.Idle) (hsame : s.SameDial t)
    (htimer : t.reconnectTimer = s.reconnectTimer) : t.Idle where
  stopped := hsame.stopped.trans h.stopped
  dial := hsame.dial.trans h.dial
  live := by rw [hsame.sockets, h.live]
  timer := by rw [htimer, h.timer]
  healthy := hsame.healthyTimer.trans h.healthy

/-- A reconnect is armed instead. -/
theorem Idle.owned (h : s.Idle) (hsame : s.SameDial t) (htimer : t.reconnectTimer.isSome = true) :
    t.Owned where
  one := by
    intro _
    rw [underWay, hsame.dial, hsame.sockets, h.dial, h.live, htimer]
    rfl
  current := by
    intro _ i socket hsocket hislive
    rw [hsame.sockets] at hsocket
    exact absurd hislive (List.countP_eq_zero.mp h.live socket (List.mem_of_getElem? hsocket))
  healthy := by
    rw [hsame.healthyTimer, h.healthy]
    exact nofun
  shut := by
    rw [hsame.stopped, h.stopped]
    exact nofun

theorem Idle.dialFailed (h : s.Idle) : s.dialFailed.Owned := by
  have hrecord := s.sameDial_record (.ended s.now true)
  obtain ⟨hsame, htimer⟩ := scheduleReconnect_armed (hrecord.stopped.trans h.stopped) true
  exact h.owned (hrecord.trans hsame) htimer

theorem Idle.leaveAlone (h : s.Idle) : s.leaveAlone.Owned := by
  have hended := (s.sameDial_record (.ended s.now false)).trans (sameDial_goDormant _)
  exact h.owned (hended.trans (sameDial_arm _ _)) (arm_isSome (hended.stopped.trans h.stopped) _)

/-- A dial is in progress instead. -/
theorem Idle.dialing (h : s.Idle) (e : DialEvent) (dial : Dial) :
    Owned { s.record e with dial := some dial } := by
  have hrecord := s.sameDial_record e
  constructor
  · intro _
    show 1 + (s.record e).sockets.countP ChatSocket.isLive + (s.record e).reconnectTimer.isSome.toNat = 1
    rw [hrecord.sockets, h.live, record_reconnectTimer, h.timer]
    rfl
  · intro _ i socket hsocket hislive
    have hmem : socket ∈ s.sockets := List.mem_of_getElem? (hrecord.sockets ▸ hsocket)
    exact absurd hislive (List.countP_eq_zero.mp h.live socket hmem)
  · intro hhealthy
    have hnone := hrecord.healthyTimer.trans h.healthy
    rw [hnone] at hhealthy
    cases hhealthy
  · intro hstopped
    cases (hrecord.stopped.trans h.stopped).symm.trans hstopped

theorem Idle.createSocket (h : s.Idle) (url : JsString) : (s.createSocket url).Owned where
  one := by
    intro _
    simp [underWay, OwncastChatListener.createSocket, h.dial, h.live, h.timer, List.countP_append,
      ChatSocket.isLive]
  current := by
    intro _ i socket hsocket hislive
    rcases Nat.lt_or_ge i s.sockets.length with hi | hi
    · have hold := (List.getElem?_append_left hi).symm.trans hsocket
      exact absurd hislive (List.countP_eq_zero.mp h.live socket (List.mem_of_getElem? hold))
    · have hlast := (List.getElem?_append_right hi).symm.trans hsocket
      have hzero : i - s.sockets.length < 1 := (List.getElem?_eq_some_iff.mp hlast).1
      obtain rfl : i = s.sockets.length := by omega
      rfl
  healthy := by
    intro hhealthy
    rw [OwncastChatListener.createSocket, h.healthy] at hhealthy
    cases hhealthy
  shut := by
    intro hstopped
    cases h.stopped.symm.trans hstopped

theorem Idle.dialSocket [JsNumber ν] (h : s.Idle) (registration : Json ν) (constructs : Bool) :
    (s.dialSocket registration constructs).Owned := by
  unfold OwncastChatListener.dialSocket
  split
  · exact h.dialFailed
  · rename_i id _
    have hid : Idle { s with ownUserId := id } := ⟨h.stopped, h.dial, h.live, h.timer, h.healthy⟩
    dsimp only
    split
    · exact hid.dialFailed
    · split_ifs
      · exact hid.createSocket _
      · exact hid.dialFailed

/-- Once its wait is over, a dial is under way no more. -/
theorem Owned.answered (h : s.Owned) (hs : s.stopped = false) (hdial : s.dial.isSome = true) :
    s.answered.Idle := by
  obtain ⟨hlive, htimer⟩ := h.of_dialing hs hdial
  exact ⟨hs, rfl, hlive, htimer, h.healthyTimer_none hlive⟩

theorem record_of_stopped (h : s.stopped = true) (e : DialEvent) : s.record e = s := by
  simp [record, h]

theorem dialFailed_of_stopped (h : s.stopped = true) : s.dialFailed = s := by
  rw [dialFailed, record_of_stopped h, scheduleReconnect_of_stopped h]

theorem leaveAlone_of_stopped (h : s.stopped = true) : s.leaveAlone = s.goDormant := by
  rw [leaveAlone, record_of_stopped h, arm_of_stopped (s.sameDial_goDormant.stopped.trans h)]

/-- After `stop()` the answers to a dial in progress come to nothing. -/
theorem Owned.answered_of_stopped (h : s.Owned) (hs : s.stopped = true) : s.answered.Owned where
  one := fun ht => nomatch hs.symm.trans ht
  current := fun ht => nomatch hs.symm.trans ht
  healthy := h.healthy
  shut := h.shut

theorem Owned.afterConfig (h : s.Owned) (hdial : s.dial = some .config) (config : Option (Json ν)) :
    (s.afterConfig config).Owned := by
  unfold OwncastChatListener.afterConfig
  cases hs : s.stopped with
  | true =>
    have hanswered : s.answered.stopped = true := hs
    have howned := h.answered_of_stopped hs
    rw [record_of_stopped hanswered]
    simp only [leaveAlone_of_stopped hanswered, hanswered, if_true]
    split_ifs
    · exact howned.of_same (sameDial_goDormant _) (by rw [goDormant_reconnectTimer])
    · exact howned
  | false =>
    have hidle := h.answered hs (by rw [hdial]; rfl)
    have hread := hidle.of_same (sameDial_record _ (.configRead (chatIsDisabled config)))
      (record_reconnectTimer _)
    simp only [hread.stopped, Bool.false_eq_true, if_false]
    split_ifs
    · exact hread.leaveAlone
    · exact hread.dialing .register .register

theorem Owned.afterRegister [JsNumber ν] (h : s.Owned) (hdial : s.dial = some .register)
    (registration : Option (Json ν)) (constructs : Bool) :
    (s.afterRegister registration constructs).Owned := by
  unfold OwncastChatListener.afterRegister
  cases hs : s.stopped with
  | true =>
    have howned := h.answered_of_stopped hs
    cases registration with
    | none => exact (dialFailed_of_stopped (s := s.answered) hs).symm ▸ howned
    | some registration => exact howned
  | false =>
    have hidle := h.answered hs (by rw [hdial]; rfl)
    cases registration with
    | none => exact hidle.dialFailed
    | some registration => exact hidle.dialSocket registration constructs

/-- Who is not stopped and has a live socket has nothing else under way. -/
theorem Owned.of_live (h : s.Owned) (hs : s.stopped = false) {i : Nat} {socket : ChatSocket}
    (hsocket : s.sockets[i]? = some socket) (hlive : socket.isLive = true) :
    s.dial.isSome = false ∧ s.sockets.countP ChatSocket.isLive = 1 ∧
      s.reconnectTimer.isSome = false := by
  have hone := h.one hs
  have hpos : 0 < s.sockets.countP ChatSocket.isLive :=
    List.countP_pos_iff.mpr ⟨socket, List.mem_of_getElem? hsocket, hlive⟩
  rw [underWay] at hone
  refine ⟨?_, by omega, ?_⟩
  · cases hdial : s.dial.isSome with
    | false => rfl
    | true =>
      rw [hdial, Bool.toNat_true] at hone
      omega
  · cases htimer : s.reconnectTimer.isSome with
    | false => rfl
    | true =>
      rw [htimer, Bool.toNat_true] at hone
      omega

theorem Owned.not_stopped (h : s.Owned) {i : Nat} {socket : ChatSocket}
    (hsocket : s.sockets[i]? = some socket) (hshut : socket.isShut = false) : s.stopped = false := by
  cases hs : s.stopped with
  | false => rfl
  | true => cases hshut.symm.trans ((h.shut hs).2 socket (List.mem_of_getElem? hsocket))

theorem Owned.opens (h : s.Owned) {i : Nat} {url : JsString}
    (hsocket : s.sockets[i]? = some ⟨url, .CONNECTING⟩) : (s.setReadyState i .OPEN).onOpen.Owned := by
  have hs := h.not_stopped hsocket rfl
  obtain ⟨hdial, hone, htimer⟩ := h.of_live hs hsocket rfl
  have hrecord := (s.setReadyState i .OPEN).sameDial_record (.opened s.now)
  have hcount : (s.setReadyState i .OPEN).sockets.countP ChatSocket.isLive = 1 := by
    have hmove := countP_modify ChatSocket.isLive
      (fun socket => { socket with readyState := .OPEN }) s.sockets i _ hsocket
    have hkept : (s.setReadyState i .OPEN).sockets.countP ChatSocket.isLive + 1 =
        s.sockets.countP ChatSocket.isLive + 1 := hmove
    omega
  have howned : (s.setReadyState i .OPEN).Owned := by
    refine ⟨?_, ?_, ?_, ?_⟩
    · intro _
      have hdial' : (s.setReadyState i .OPEN).dial.isSome = false := hdial
      have htimer' : (s.setReadyState i .OPEN).reconnectTimer.isSome = false := htimer
      rw [underWay, hcount, hdial', htimer']
      rfl
    · intro _ j socket hj hislive
      rw [setReadyState, List.getElem?_modify] at hj
      obtain ⟨old, hold, heq⟩ := Option.map_eq_some_iff.mp hj
      by_cases hij : i = j
      · subst hij
        exact h.current hs i _ hsocket rfl
      · rw [if_neg hij] at heq
        exact h.current hs j old hold (heq ▸ hislive)
    · intro _
      exact ⟨hs, by omega⟩
    · intro hstopped
      cases hs.symm.trans hstopped
  have hopened := howned.of_same hrecord (by rw [record_reconnectTimer])
  refine ⟨hopened.one, hopened.current, fun _ => ⟨hrecord.stopped.trans hs, ?_⟩, hopened.shut⟩
  show 0 < ((s.setReadyState i .OPEN).record (.opened s.now)).sockets.countP ChatSocket.isLive
  rw [hrecord.sockets, hcount]
  exact Nat.one_pos

/-- After `stop()` a socket may still close. -/
theorem Owned.closes_of_stopped (h : s.Owned) (hs : s.stopped = true) (i : Nat) :
    (s.setReadyState i .CLOSED).clearHealthyTimer.Owned := by
  refine ⟨fun ht => (nomatch hs.symm.trans ht), fun ht => (nomatch hs.symm.trans ht), nofun, ?_⟩
  intro _
  refine ⟨(h.shut hs).1, ?_⟩
  intro x hx
  obtain ⟨j, hj⟩ := List.mem_iff_getElem?.mp hx
  rw [clearHealthyTimer, setReadyState, List.getElem?_modify] at hj
  obtain ⟨old, hold, heq⟩ := Option.map_eq_some_iff.mp hj
  by_cases hij : i = j
  · rw [if_pos hij] at heq
    exact heq ▸ rfl
  · rw [if_neg hij] at heq
    exact heq ▸ (h.shut hs).2 old (List.mem_of_getElem? hold)

theorem Owned.closes (h : s.Owned) {i : Nat} {socket : ChatSocket}
    (hsocket : s.sockets[i]? = some socket) (hlive : socket.isLive = true) :
    (s.setReadyState i .CLOSED).onClose.Owned := by
  unfold onClose
  cases hs : s.stopped with
  | true =>
    have hcleared : (s.setReadyState i .CLOSED).clearHealthyTimer.stopped = true := hs
    rw [record_of_stopped hcleared, scheduleReconnect_of_stopped hcleared]
    exact h.closes_of_stopped hs i
  | false =>
    obtain ⟨hdial, hone, htimer⟩ := h.of_live hs hsocket hlive
    have hmove := countP_modify ChatSocket.isLive
      (fun socket => { socket with readyState := .CLOSED }) s.sockets i _ hsocket
    rw [hlive] at hmove
    have hcount : (s.setReadyState i .CLOSED).clearHealthyTimer.sockets.countP ChatSocket.isLive + 1 =
        s.sockets.countP ChatSocket.isLive := hmove
    have hidle : (s.setReadyState i .CLOSED).clearHealthyTimer.Idle :=
      ⟨hs, hdial, by omega, htimer, rfl⟩
    have hrecord := (s.setReadyState i .CLOSED).clearHealthyTimer.sameDial_record
      (.ended s.now !s.provenHealthy)
    obtain ⟨hsame, hisSome⟩ := scheduleReconnect_armed (hrecord.stopped.trans hs) (!s.provenHealthy)
    exact hidle.owned (hrecord.trans hsame) hisSome

theorem Owned.markHealthy (h : s.Owned) : s.markHealthy.Owned := by
  have hrecord := s.sameDial_record (.held s.now)
  have hsame := h.of_same hrecord (by rw [record_reconnectTimer])
  exact ⟨hsame.one, hsame.current, nofun, hsame.shut⟩

theorem Owned.redials (h : s.Owned) {due : Nat} (htimer : s.reconnectTimer = some due) :
    s.clearReconnectTimer.connect.Owned := by
  have hs : s.stopped = false := by
    cases hs : s.stopped with
    | false => rfl
    | true => cases htimer.symm.trans (h.shut hs).1
  have hone := h.one hs
  rw [underWay, htimer, Option.isSome_some, Bool.toNat_true] at hone
  have hlive : s.sockets.countP ChatSocket.isLive = 0 := by omega
  have hdial : s.dial.isSome = false := by
    cases hdial : s.dial.isSome with
    | false => rfl
    | true =>
      rw [hdial, Bool.toNat_true] at hone
      omega
  have hidle : s.clearReconnectTimer.Idle := ⟨hs, hdial, hlive, rfl, h.healthyTimer_none hlive⟩
  unfold connect
  rw [hidle.stopped]
  exact hidle.dialing (.attempt s.now) .config

theorem Owned.stop (h : s.Owned) : s.stop.Owned := by
  refine ⟨nofun, nofun, nofun, fun _ => ⟨rfl, ?_⟩⟩
  intro socket hsocket
  have hold : ∀ i x, s.sockets[i]? = some x → s.ws ≠ some i → x.isShut = true := by
    intro i x hx hws
    cases hs : s.stopped with
    | true => exact (h.shut hs).2 x (List.mem_of_getElem? hx)
    | false =>
      cases hlive : x.isLive with
      | true => exact absurd (h.current hs i x hx hlive) hws
      | false => exact ChatSocket.isShut_of_not_live hlive
  obtain ⟨i, hi⟩ := List.mem_iff_getElem?.mp hsocket
  unfold OwncastChatListener.stop at hi
  cases hws : s.ws with
  | none =>
    rw [hws] at hi
    exact hold i socket hi (by rw [hws]; exact nofun)
  | some w =>
    rw [hws] at hi
    dsimp only at hi
    rw [List.getElem?_modify] at hi
    obtain ⟨x, hx, heq⟩ := Option.map_eq_some_iff.mp hi
    by_cases hwi : w = i
    · rw [if_pos hwi] at heq
      exact heq ▸ ChatSocket.close_isShut x
    · rw [if_neg hwi] at heq
      rw [← heq]
      refine hold i x hx ?_
      rw [hws]
      exact fun hw => hwi (Option.some.inj hw)

theorem Owned.step [JsNumber ν] {a : ListenerAction ν} (h : s.Owned) (hs : s.step a = some t) :
    t.Owned := by
  cases a with
  | configAnswered config =>
    simp only [OwncastChatListener.step] at hs
    split_ifs at hs with hdial
    exact Option.some.inj hs ▸ h.afterConfig hdial config
  | registered registration constructs =>
    simp only [OwncastChatListener.step] at hs
    split_ifs at hs with hdial
    exact Option.some.inj hs ▸ h.afterRegister hdial registration constructs
  | socketOpens i =>
    simp only [OwncastChatListener.step] at hs
    split at hs
    · rename_i hsocket
      exact Option.some.inj hs ▸ h.opens hsocket
    · cases hs
  | socketErrors i =>
    simp only [OwncastChatListener.step] at hs
    split at hs
    · split_ifs at hs
      exact Option.some.inj hs ▸ h
    · cases hs
  | socketCloses i =>
    simp only [OwncastChatListener.step] at hs
    split at hs
    · rename_i hsocket
      split_ifs at hs with hlive
      exact Option.some.inj hs ▸ h.closes hsocket hlive
    · cases hs
  | healthyTimerFires =>
    simp only [OwncastChatListener.step] at hs
    split at hs
    · split_ifs at hs
      exact Option.some.inj hs ▸ h.markHealthy
    · cases hs
  | reconnectTimerFires =>
    simp only [OwncastChatListener.step] at hs
    split at hs
    · rename_i htimer
      split_ifs at hs
      exact Option.some.inj hs ▸ h.redials htimer
    · cases hs
  | stop => exact Option.some.inj hs ▸ h.stop
  | tick ms => exact Option.some.inj hs ▸ ⟨h.one, h.current, h.healthy, h.shut⟩

end Invariant

section Runs

/-- Later, the listener is still stopped and has no further sockets, and nothing has been recorded. -/
structure StaysStopped (s t : OwncastChatListener ν) : Prop where
  stopped : t.stopped = true
  sockets : t.sockets.length = s.sockets.length
  log : t.log = s.log

theorem staysStopped_answered (h : s.stopped = true) : s.StaysStopped s.answered := ⟨h, rfl, rfl⟩

theorem staysStopped_goDormant (h : s.stopped = true) : s.StaysStopped s.goDormant := by
  unfold goDormant
  rw [record_of_stopped h]
  split_ifs
  · exact ⟨h, rfl, rfl⟩
  · exact ⟨h, rfl, rfl⟩

variable [JsNumber ν] {a : ListenerAction ν}

theorem staysStopped_step (hs : s.stopped = true) (howned : s.Owned) (ht : s.step a = some t) :
    s.StaysStopped t := by
  have hanswered : s.answered.stopped = true := hs
  cases a with
  | configAnswered config =>
    simp only [step] at ht
    split_ifs at ht
    obtain rfl := Option.some.inj ht
    simp only [afterConfig, record_of_stopped hanswered, leaveAlone_of_stopped hanswered, hanswered,
      if_true]
    split_ifs
    · obtain ⟨hstill, hsockets, hlog⟩ := staysStopped_goDormant hanswered
      exact ⟨hstill, hsockets, hlog⟩
    · exact staysStopped_answered hs
  | registered registration constructs =>
    simp only [step] at ht
    split_ifs at ht
    obtain rfl := Option.some.inj ht
    simp only [afterRegister, dialFailed_of_stopped hanswered, hs, if_true]
    cases registration with
    | none | some => exact staysStopped_answered hs
  | socketOpens i =>
    simp only [step] at ht
    split at ht
    · rename_i hsocket
      cases (howned.not_stopped hsocket rfl).symm.trans hs
    · cases ht
  | socketErrors i =>
    simp only [step] at ht
    split at ht
    · split_ifs at ht
      exact Option.some.inj ht ▸ ⟨hs, rfl, rfl⟩
    · cases ht
  | socketCloses i =>
    simp only [step] at ht
    split at ht
    · split_ifs at ht
      obtain rfl := Option.some.inj ht
      have hcleared : (s.setReadyState i .CLOSED).clearHealthyTimer.stopped = true := hs
      rw [onClose, record_of_stopped hcleared, scheduleReconnect_of_stopped hcleared]
      exact ⟨hs, List.length_modify .., rfl⟩
    · cases ht
  | healthyTimerFires =>
    simp only [step] at ht
    split at ht
    · rename_i due htimer
      cases (howned.healthy (by rw [htimer]; rfl)).1.symm.trans hs
    · cases ht
  | reconnectTimerFires =>
    simp only [step] at ht
    split at ht
    · rename_i due htimer
      cases htimer.symm.trans (howned.shut hs).1
    · cases ht
  | stop =>
    obtain rfl := Option.some.inj ht
    refine ⟨rfl, ?_, rfl⟩
    unfold OwncastChatListener.stop
    cases s.ws with
    | none => rfl
    | some i => exact List.length_modify ..
  | tick ms => exact Option.some.inj ht ▸ ⟨hs, rfl, rfl⟩

end Runs

end OwncastChatListener

end LivelierBridge.Owncast
