import LivelierBridge.Js.Json
import LivelierBridge.Nostr.SignedEvents

namespace LivelierBridge.Nostr

open Framework Js

/-- The arguments of `publishAuthed`. -/
structure AuthedArgs (σ : Type) where
  relayUrl : JsString
  signer : σ
  event : Event
  timeoutMs : Nat

/-- The frames that a `publishAuthed` gets and sends, and how its promise settles. -/
inductive AuthedEvent (ν : Type)
  | frame (msg : List (Json ν))
  | sentEvent
  | sentAuth (authEvent : Event)
  | resolved (time : Nat)
  | rejected (time : Nat) (message : JsString)

/-- `err ? reject(err) : resolve()` -/
def AuthedEvent.settlement {ν : Type} (time : Nat) : Option JsString → AuthedEvent ν
  | none => .resolved time
  | some message => .rejected time message

/-- An interval that waits for the challenge: when it fires next, and when it is cleared. -/
structure AuthWait where
  next : Nat
  ends : Nat

/-- The locals of one `publishAuthed`; the timers hold the time they are due at. -/
structure AuthedPublish (ν : Type) where
  now : Nat
  opened : Bool
  challenge : Option JsString
  authSent : Bool
  authEventId : Option JsString
  eventResent : Bool
  settled : Bool
  timer : Option Nat
  resendTimer : Option Nat
  authWaits : List AuthWait
  log : List (AuthedEvent ν)

inductive AuthedAction
  | opens
  /-- A frame arrives; the number is the randomness of a signature, should there be one. -/
  | message (data : JsString) (n : Nat)
  | error (message : JsString)
  | timeoutFires
  | resendFires
  | authWaitFires (i n : Nat)
  | authWaitEnds (i : Nat)
  | tick (ms : Nat)

section Frames

variable {ν : Type}

/-- An entry that is exactly a string. -/
def text (v : Option (Json ν)) : Option JsString :=
  match v with
  | some (.str s) => some s
  | none | some .null | some (.bool _) | some (.num _) | some (.arr _) | some (.obj _) => none

/-- `msg[2] === true` -/
def accepted (msg : List (Json ν)) : Bool :=
  match (msg[2]? : Option (Json ν)) with
  | some (.bool b) => b
  | none | some .null | some (.str _) | some (.num _) | some (.arr _) | some (.obj _) => false

/-- `typeof msg[3] === 'string' ? msg[3] : ''` -/
def reason (msg : List (Json ν)) : JsString := (text msg[3]?).getD []

/-- `msg[0] === 'OK' && msg[1] === id` -/
def isOK (msg : List (Json ν)) (id : JsString) : Bool :=
  text msg[0]? = some (js "OK") && text msg[1]? = some id

/-- The challenge of an `AUTH` message. -/
def challengeOf (msg : List (Json ν)) : Option JsString :=
  if text msg[0]? = some (js "AUTH") then text msg[1]? else none

def asksForAuth (msg : List (Json ν)) : Bool := (js "auth-required:").isPrefixOf (reason msg)

end Frames

namespace AuthedPublish

section Definitions

variable {ν σ : Type} (lib : Signing σ) (args : AuthedArgs σ) (s : AuthedPublish ν)

/-- The template of the NIP-42 answer. -/
def authTemplate (now : Nat) (challenge : JsString) : EventTemplate where
  kind := 22242
  content := []
  tags := [[js "relay", args.relayUrl], [js "challenge", challenge]]
  created_at := now / 1000

def RESEND_MS : Nat := 1500

def AUTH_WAIT_MS : Nat := 50

def start (now : Nat) : AuthedPublish ν where
  now := now
  opened := false
  challenge := none
  authSent := false
  authEventId := none
  eventResent := false
  settled := false
  timer := some (now + args.timeoutMs)
  resendTimer := none
  authWaits := []
  log := []

def record (e : AuthedEvent ν) : AuthedPublish ν := { s with log := s.log ++ [e] }

/-- `settle(err)` -/
def settle (err : Option JsString) : AuthedPublish ν :=
  if s.settled then s
  else
    { s with
      settled := true
      timer := none
      log := s.log ++ [.settlement s.now err] }

def resendEvent : AuthedPublish ν :=
  if s.eventResent || s.settled then s
  else { s with eventResent := true, log := s.log ++ [.sentEvent] }

/-- An empty challenge is none. -/
def challenge? : Option JsString := s.challenge.filter (· ≠ [])

def sendAuth (n : Nat) : AuthedPublish ν :=
  match s.challenge? with
  | none => s
  | some challenge =>
    if s.authSent then s
    else
      let authEvent := lib.signEvent args.signer (authTemplate args s.now challenge) n
      { s with
        authSent := true
        authEventId := some authEvent.id
        resendTimer := some (s.now + RESEND_MS)
        log := s.log ++ [.sentAuth authEvent] }

def waitForChallenge : AuthedPublish ν :=
  { s with authWaits := s.authWaits ++ [⟨s.now + AUTH_WAIT_MS, s.now + args.timeoutMs⟩] }

/-- The relay's answer to the event. -/
def answered (msg : List (Json ν)) (n : Nat) : AuthedPublish ν :=
  if accepted msg then s.settle none
  else if asksForAuth msg && !s.authSent then
    if s.challenge?.isSome then s.sendAuth lib args n else s.waitForChallenge args
  else
    s.settle (some (js "relay rejected kind " ++ intToString 10 args.event.kind ++ js " event: " ++
      if (reason msg).isEmpty then js "no reason" else reason msg))

/-- The `message` handler, for a frame that is an array. -/
def onMessage (msg : List (Json ν)) (n : Nat) : AuthedPublish ν :=
  match challengeOf msg with
  | some challenge => { s with challenge := some challenge }
  | none =>
    if (s.authEventId.filter (· ≠ [])).any (isOK msg) then
      if accepted msg then s.resendEvent
      else s.settle (some (js "relay rejected AUTH: " ++ reason msg))
    else if isOK msg args.event.id then s.answered lib args msg n
    else s

/-- The interval is cleared once there is a challenge. -/
def onAuthWait (i n : Nat) (wait : AuthWait) : AuthedPublish ν :=
  if s.challenge?.isSome then
    { s with authWaits := s.authWaits.eraseIdx i }.sendAuth lib args n
  else { s with authWaits := s.authWaits.set i { wait with next := s.now + AUTH_WAIT_MS } }

/-- A socket opens once, and not after `close()`; it has frames only once it is open, and these are
arrays or do not parse. Time does not pass the timeout. -/
def step [JsNumber ν] (s : AuthedPublish ν) : AuthedAction → Option (AuthedPublish ν)
  | .opens =>
    if s.opened || s.settled then none else some ({ s with opened := true }.record .sentEvent)
  | .message data n =>
    if s.opened then
      match jsonParse data with
      | none => some s
      | some (.arr msg) => some ((s.record (.frame msg)).onMessage lib args msg n)
      | some .null | some (.bool _) | some (.num _) | some (.str _) | some (.obj _) => none
    else none
  | .error message => some (s.settle (some (js "authed publish socket error: " ++ message)))
  | .timeoutFires =>
    match s.timer with
    | some due => if due ≤ s.now then some (s.settle (some (js "authed publish timeout"))) else none
    | none => none
  | .resendFires =>
    match s.resendTimer with
    | some due => if due ≤ s.now then some { s with resendTimer := none }.resendEvent else none
    | none => none
  | .authWaitFires i n =>
    match s.authWaits[i]? with
    | some wait => if wait.next ≤ s.now then some (s.onAuthWait lib args i n wait) else none
    | none => none
  | .authWaitEnds i =>
    match s.authWaits[i]? with
    | some wait =>
      if wait.ends ≤ s.now then some { s with authWaits := s.authWaits.eraseIdx i } else none
    | none => none
  | .tick ms =>
    if s.timer.all fun due => s.now + ms ≤ due then some { s with now := s.now + ms } else none

end Definitions

end AuthedPublish

end LivelierBridge.Nostr
