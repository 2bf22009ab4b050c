import LivelierBridge.Js.Json
import LivelierBridge.Owncast.ChatPool

namespace LivelierBridge.Owncast

open Framework Js

/-- The answer that `connect` waits for. -/
inductive Dial
  | config
  | register
  deriving DecidableEq

structure ChatSocket where
  url : JsString
  readyState : ReadyState

namespace ChatSocket

/-- The close event is still to come. -/
def isLive (socket : ChatSocket) : Bool := socket.readyState != .CLOSED

/-- Nothing opens any more after `close()`. -/
def close (socket : ChatSocket) : ChatSocket :=
  match socket.readyState with
  | .CONNECTING | .OPEN => { socket with readyState := .CLOSING }
  | .CLOSING | .CLOSED => socket

end ChatSocket

/-- What happens to the dials of a listener, with the time it happens at. -/
inductive DialEvent
  | attempt (time : Nat)
  | configRead (chatDisabled : Bool)
  | register
  | opened (time : Nat)
  | held (time : Nat)
  | ended (time : Nat) (failed : Bool)
  | slowed
  | armed (time delayMs : Nat)
  deriving DecidableEq

/-- The timers hold the time they are due at; `sockets` has every socket that was created, and `log`
what has happened until `stop()`. -/
structure OwncastChatListener (ν : Type) where
  instanceUrl : JsString
  now : Nat
  dial : Option Dial
  sockets : List ChatSocket
  ws : Option Nat
  stopped : Bool
  reconnectTimer : Option Nat
  reconnectDelayMs : Nat
  healthyTimer : Option Nat
  failures : Nat
  provenHealthy : Bool
  dormant : Bool
  ownUserId : Option (Json ν)
  log : List DialEvent

inductive ListenerAction (ν : Type)
  | configAnswered (config : Option (Json ν))
  | registered (registration : Option (Json ν)) (constructs : Bool)
  | socketOpens (i : Nat)
  | socketErrors (i : Nat)
  | socketCloses (i : Nat)
  | healthyTimerFires
  | reconnectTimerFires
  | stop
  | tick (ms : Nat)

/-- The config answers that turn chat off; a failed fetch and a malformed config do not. -/
def chatIsDisabled {ν : Type} (config : Option (Json ν)) : Bool :=
  match config with
  | none => false
  | some config =>
    match config.prop (js "chatDisabled") with
    | .ok (some (.bool disabled)) => disabled
    | _ => false

/-- `url.replace(/^http/, 'ws')` -/
def wsScheme (url : JsString) : JsString :=
  if (js "http").isPrefixOf url then js "ws" ++ url.drop 4 else url

/-- `String(v)` of a property that may be missing. -/
def propText {ν : Type} [JsNumber ν] (v : Option (Json ν)) : Except Thrown JsString :=
  match v with
  | none => .ok (js "undefined")
  | some v => v.toStr

namespace OwncastChatListener

section Definitions

variable {ν : Type} (s : OwncastChatListener ν)

def MAX_RECONNECT_DELAY_MS : Nat := 5 * 60000

def MAX_CONSECUTIVE_FAILURES : Nat := 5

def DORMANT_INTERVAL_MS : Nat := 30 * 60000

def MIN_HEALTHY_CONNECTION_MS : Nat := 30000

/-- `reconnectDelayMs` as it starts -/
def FIRST_RECONNECT_DELAY_MS : Nat := 15000

def record (e : DialEvent) : OwncastChatListener ν :=
  if s.stopped then s else { s with log := s.log ++ [e] }

def goDormant : OwncastChatListener ν :=
  if s.dormant then s else { s.record .slowed with dormant := true }

def arm (delayMs : Nat) : OwncastChatListener ν :=
  if s.stopped || s.reconnectTimer.isSome then s
  else { s.record (.armed s.now delayMs) with reconnectTimer := some (s.now + delayMs) }

def countFailure (countAsFailure : Bool) : OwncastChatListener ν :=
  { s with failures := s.failures + countAsFailure.toNat }

/-- A spent budget makes the listener dormant. -/
def checkBudget : OwncastChatListener ν :=
  if MAX_CONSECUTIVE_FAILURES ≤ s.failures then s.goDormant else s

/-- The end of `scheduleReconnect`, once the failure has been counted. -/
def armNext : OwncastChatListener ν :=
  if s.dormant then s.arm DORMANT_INTERVAL_MS
  else
    { s with reconnectDelayMs := min (s.reconnectDelayMs * 2) MAX_RECONNECT_DELAY_MS }.arm
      s.reconnectDelayMs

def scheduleReconnect (countAsFailure : Bool) : OwncastChatListener ν :=
  if s.stopped || s.reconnectTimer.isSome then s
  else (s.countFailure countAsFailure).checkBudget.armNext

def markHealthy : OwncastChatListener ν :=
  { s.record (.held s.now) with
    healthyTimer := none
    provenHealthy := true
    failures := 0
    reconnectDelayMs := FIRST_RECONNECT_DELAY_MS
    dormant := false }

/-- The head of `connect`, up to its first wait. -/
def connect : OwncastChatListener ν :=
  if s.stopped then s else { s.record (.attempt s.now) with dial := some .config }

/-- A new listener, right after `start()`. -/
def start (instanceUrl : JsString) (now : Nat) : OwncastChatListener ν :=
  connect
    { instanceUrl := instanceUrl
      now := now
      dial := none
      sockets := []
      ws := none
      stopped := false
      reconnectTimer := none
      reconnectDelayMs := FIRST_RECONNECT_DELAY_MS
      healthyTimer := none
      failures := 0
      provenHealthy := false
      dormant := false
      ownUserId := none
      log := [] }

def stop : OwncastChatListener ν :=
  { s with
    stopped := true
    reconnectTimer := none
    healthyTimer := none
    sockets := match s.ws with
      | none => s.sockets
      | some i => s.sockets.modify i ChatSocket.close
    ws := none }

/-- The wait of `connect` is over. -/
def answered : OwncastChatListener ν := { s with dial := none }

/-- `connect` ends with an instance that reports `chatDisabled`. -/
def leaveAlone : OwncastChatListener ν :=
  ((s.record (.ended s.now false)).goDormant).arm DORMANT_INTERVAL_MS

def callRegister : OwncastChatListener ν := { s.record .register with dial := some .register }

/-- `connect` goes on with the answer to its config fetch. -/
def afterConfig (config : Option (Json ν)) : OwncastChatListener ν :=
  let s := s.answered.record (.configRead (chatIsDisabled config))
  if chatIsDisabled config then s.leaveAlone
  else if s.stopped then s
  else s.callRegister

/-- The `catch` of `connect` -/
def dialFailed : OwncastChatListener ν := (s.record (.ended s.now true)).scheduleReconnect true

def createSocket (url : JsString) : OwncastChatListener ν :=
  { s with
    sockets := s.sockets ++ [⟨url, .CONNECTING⟩]
    ws := some s.sockets.length
    provenHealthy := false }

def clearHealthyTimer : OwncastChatListener ν := { s with healthyTimer := none }

def clearReconnectTimer : OwncastChatListener ν := { s with reconnectTimer := none }

/-- The socket's `open` handler -/
def onOpen : OwncastChatListener ν :=
  { s.record (.opened s.now) with healthyTimer := some (s.now + MIN_HEALTHY_CONNECTION_MS) }

/-- The socket's `close` handler -/
def onClose : OwncastChatListener ν :=
  (s.clearHealthyTimer.record (.ended s.now !s.provenHealthy)).scheduleReconnect !s.provenHealthy

def setReadyState (i : Nat) (readyState : ReadyState) : OwncastChatListener ν :=
  { s with sockets := s.sockets.modify i fun socket => { socket with readyState := readyState } }

variable [JsNumber ν]

/-- `connect` goes on with a registration; an error is thrown into its `catch`. -/
def dialSocket (registration : Json ν) (constructs : Bool) : OwncastChatListener ν :=
  match registration.prop (js "id") with
  | .error _ => s.dialFailed
  | .ok id =>
    let s := { s with ownUserId := id }
    match (registration.prop (js "accessToken")).bind propText with
    | .error _ => s.dialFailed
    | .ok token =>
      if constructs then s.createSocket (wsScheme s.instanceUrl ++ js "/ws?accessToken=" ++ token)
      else s.dialFailed

/-- `connect` goes on with the answer to its registration. -/
def afterRegister (registration : Option (Json ν)) (constructs : Bool) : OwncastChatListener ν :=
  match registration with
  | none => s.answered.dialFailed
  | some registration =>
    if s.stopped then s.answered else s.answered.dialSocket registration constructs

def step (s : OwncastChatListener ν) : ListenerAction ν → Option (OwncastChatListener ν)
  | .configAnswered config => if s.dial = some .config then some (s.afterConfig config) else none
  | .registered registration constructs =>
    if s.dial = some .register then some (s.afterRegister registration constructs) else none
  | .socketOpens i =>
    match s.sockets[i]? with
    | some ⟨_, .CONNECTING⟩ => some (s.setReadyState i .OPEN).onOpen
    | _ => none
  | .socketErrors i =>
    match s.sockets[i]? with
    | some socket => if socket.isLive then some s else none
    | none => none
  | .socketCloses i =>
    match s.sockets[i]? with
    | some socket => if socket.isLive then some (s.setReadyState i .CLOSED).onClose else none
    | none => none
  | .healthyTimerFires =>
    match s.healthyTimer with
    | some due => if due ≤ s.now then some s.markHealthy else none
    | none => none
  | .reconnectTimerFires =>
    match s.reconnectTimer with
    | some due => if due ≤ s.now then some s.clearReconnectTimer.connect else none
    | none => none
  | .stop => some s.stop
  | .tick ms => some { s with now := s.now + ms }

end Definitions

end OwncastChatListener

end LivelierBridge.Owncast
