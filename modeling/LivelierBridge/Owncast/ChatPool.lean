import LivelierBridge.Framework.Run
import LivelierBridge.Framework.OrderedMap
import LivelierBridge.Js.String

namespace LivelierBridge.Owncast

open Framework Js

def PER_INSTANCE_CAP : Nat := 50
def SEND_SPACING_MS : Nat := 700

abbrev ConnId := Nat
abbrev SocketId := Nat
abbrev SendId := Nat

structure ChatterToken where
  accessToken : JsString
  userId : JsString

inductive ReadyState where
  | CONNECTING
  | OPEN
  | CLOSING
  | CLOSED
  deriving DecidableEq

structure Socket where
  /-- The connection whose handlers are attached. -/
  conn : ConnId
  token : ChatterToken
  readyState : ReadyState

/-- CONNECTING or OPEN: nobody asked it to close. -/
def Socket.live (w : Socket) : Bool := w.readyState = .CONNECTING || w.readyState = .OPEN

/-- `ws.close()` -/
def Socket.close (w : Socket) : Socket := if w.live then { w with readyState := .CLOSING } else w

/-- Where a drain loop is suspended. `connected` is the return from `connect`; `failed` and
`finished` have left the loop and await `finally`. -/
inductive Drain where
  | registering
  | dialing (token : ChatterToken)
  | connecting (socket : SocketId)
  | connected
  | pacing (until' : Nat)
  | failed
  | finished

structure ChatterConn where
  url : JsString
  pubkey : JsString
  ws : Option SocketId
  /-- Payloads by the `send` call that queued them. -/
  queue : List SendId
  draining : Option Drain
  /-- The `send` calls that await `draining`. -/
  awaiting : List SendId
  lastSentAt : Nat

inductive SendStatus where
  | pending
  | fulfilled
  | rejected
  deriving DecidableEq

structure Send where
  conn : Option ConnId
  htmlBody : JsString
  status : SendStatus

/-- A payload handed to an OPEN socket. -/
structure Write where
  send : SendId
  conn : ConnId
  socket : SocketId
  at' : Nat
  deriving DecidableEq

/-- Connection objects outlive their entry in `conns`: a drain still holds them. -/
structure PoolState where
  conns : OrderedMap JsString (OrderedMap JsString ConnId)
  conn : ConnId → ChatterConn
  nextConn : ConnId
  tokens : OrderedMap JsString (OrderedMap JsString ChatterToken)
  socket : SocketId → Socket
  nextSocket : SocketId
  sends : SendId → Send
  nextSend : SendId
  writes : List Write
  now : Nat

def PoolState.init (now : Nat) : PoolState :=
  ⟨.empty, fun _ => ⟨[], [], none, [], none, [], 0⟩, 0, .empty,
    fun _ => ⟨0, ⟨[], []⟩, .CLOSED⟩, 0, fun _ => ⟨none, [], .pending⟩, 0, [], now⟩

inductive PoolAction where
  | send (url pubkey htmlBody : JsString)
  /-- The registration request answers, or fails. -/
  | registered (c : ConnId) (answer : Option ChatterToken)
  /-- `new WebSocket` after the registration; the constructor may throw. -/
  | dial (c : ConnId) (ok : Bool)
  | opened (w : SocketId)
  | errored (w : SocketId)
  /-- The peer starts the closing handshake. -/
  | closing (w : SocketId)
  | closed (w : SocketId)
  /-- The loop goes on after `connect`, or after the pacing timer. -/
  | resume (c : ConnId)
  | timer (c : ConnId)
  /-- `finally` clears `draining` and the awaiting sends settle. -/
  | settle (c : ConnId)
  | destroyInstance (url : JsString)
  | destroyAll
  | tick (ms : Nat)

namespace PoolState

/-- Owncast user ids this pool registered for an instance. -/
def getOwncastUserIds (s : PoolState) (url : JsString) : List JsString :=
  ((s.tokens.get? url).getD .empty).values.map ChatterToken.userId

def lookup (s : PoolState) (url pubkey : JsString) : Option ConnId :=
  (s.conns.get? url).bind fun byPubkey => byPubkey.get? pubkey

def setConn (s : PoolState) (c : ConnId) (conn : ChatterConn) : PoolState :=
  { s with conn := Function.update s.conn c conn }

def setDraining (s : PoolState) (c : ConnId) (d : Drain) : PoolState :=
  s.setConn c { s.conn c with draining := some d }

def setReadyState (s : PoolState) (w : SocketId) (r : ReadyState) : PoolState :=
  { s with socket := Function.update s.socket w { s.socket w with readyState := r } }

def isOpen (s : PoolState) (c : ConnId) : Bool :=
  (s.conn c).ws.any fun w => (s.socket w).readyState = .OPEN

/-- Enter `connect`: a registered sender reuses its token. -/
def connect (s : PoolState) (c : ConnId) : PoolState :=
  match ((s.tokens.get? (s.conn c).url).getD .empty).get? (s.conn c).pubkey with
  | some token => s.setDraining c (.dialing token)
  | none => s.setDraining c .registering

/-- The loop after a payload went out: the next one waits for the whole spacing. -/
def drainRest (s : PoolState) (c : ConnId) : PoolState :=
  if (s.conn c).queue = [] then s.setDraining c .finished
  else if s.isOpen c then s.setDraining c (.pacing ((s.conn c).lastSentAt + SEND_SPACING_MS))
  else s.connect c

def sent (s : PoolState) (c : ConnId) (rest : List SendId) : PoolState :=
  (s.setConn c { s.conn c with queue := rest, lastSentAt := s.now }).drainRest c

/-- Shift the queue and hand the payload to the socket, if there is one. A closing socket
swallows it, a connecting one throws. -/
def write (s : PoolState) (c : ConnId) : PoolState :=
  match (s.conn c).queue with
  | [] => s.setDraining c .finished
  | id :: rest =>
    match (s.conn c).ws with
    | none => s.sent c rest
    | some w =>
      match (s.socket w).readyState with
      | .OPEN => sent { s with writes := s.writes ++ [⟨id, c, w, s.now⟩] } c rest
      | .CONNECTING =>
        s.setConn c { s.conn c with queue := rest, draining := some .failed }
      | _ => s.sent c rest

/-- The loop body from the pacing wait on. -/
def pace (s : PoolState) (c : ConnId) : PoolState :=
  if s.now < (s.conn c).lastSentAt + SEND_SPACING_MS then
    s.setDraining c (.pacing ((s.conn c).lastSentAt + SEND_SPACING_MS))
  else s.write c

/-- The loop from its head, with a payload queued. -/
def drain (s : PoolState) (c : ConnId) : PoolState :=
  if s.isOpen c then s.pace c else s.connect c

def enqueue (s : PoolState) (c : ConnId) (htmlBody : JsString) : PoolState :=
  { s.setConn c { s.conn c with
      queue := (s.conn c).queue ++ [s.nextSend], awaiting := (s.conn c).awaiting ++ [s.nextSend] }
    with
    sends := Function.update s.sends s.nextSend ⟨some c, htmlBody, .pending⟩
    nextSend := s.nextSend + 1 }

/-- Push the payload; a loop that is still `draining` is shared, not restarted. -/
def push (s : PoolState) (c : ConnId) (htmlBody : JsString) : PoolState :=
  match (s.conn c).draining with
  | none => (s.enqueue c htmlBody).drain c
  | some _ => s.enqueue c htmlBody

def newConn (s : PoolState) (url pubkey : JsString) (byPubkey : OrderedMap JsString ConnId) :
    PoolState :=
  { s with
    conns := s.conns.set url (byPubkey.set pubkey s.nextConn)
    conn := Function.update s.conn s.nextConn ⟨url, pubkey, none, [], none, [], 0⟩
    nextConn := s.nextConn + 1 }

def send (s : PoolState) (url pubkey htmlBody : JsString) : PoolState :=
  let byPubkey := (s.conns.get? url).getD .empty
  match byPubkey.get? pubkey with
  | some c => s.push c htmlBody
  | none =>
    if byPubkey.size ≥ PER_INSTANCE_CAP then
      { s with
        conns := s.conns.set url byPubkey
        sends := Function.update s.sends s.nextSend ⟨none, htmlBody, .rejected⟩
        nextSend := s.nextSend + 1 }
    else (s.newConn url pubkey byPubkey).push s.nextConn htmlBody

def closeSockets (s : PoolState) (cs : List ConnId) : PoolState :=
  { s with socket := fun w =>
      if cs.any fun c => (s.conn c).ws = some w then (s.socket w).close else s.socket w }

def destroyInstance (s : PoolState) (url : JsString) : PoolState :=
  { s.closeSockets ((s.conns.get? url).getD .empty).values with conns := s.conns.delete url }

def destroyAll (s : PoolState) : PoolState :=
  { s.closeSockets (s.conns.values.flatMap OrderedMap.values) with conns := .empty }

def setToken (s : PoolState) (url pubkey : JsString) (token : ChatterToken) : PoolState :=
  { s with tokens := s.tokens.set url (((s.tokens.get? url).getD .empty).set pubkey token) }

def openSocket (s : PoolState) (c : ConnId) (token : ChatterToken) : PoolState :=
  { s.setConn c { s.conn c with
      ws := some s.nextSocket, draining := some (.connecting s.nextSocket) } with
    socket := Function.update s.socket s.nextSocket ⟨c, token, .CONNECTING⟩
    nextSocket := s.nextSocket + 1 }

/-- `open` resolves the `connect` that created the socket, `error` rejects it; either changes
nothing once that promise is settled. -/
def settleConnect (s : PoolState) (w : SocketId) (d : Drain) : PoolState :=
  match (s.conn (s.socket w).conn).draining with
  | some (.connecting w') => if w' = w then s.setDraining (s.socket w).conn d else s
  | _ => s

def settleSends (s : PoolState) (c : ConnId) (status : SendStatus) : PoolState :=
  { s.setConn c { s.conn c with draining := none, awaiting := [] } with
    sends := fun id =>
      if id ∈ (s.conn c).awaiting then { s.sends id with status := status } else s.sends id }

/-- One synchronous piece of the pool. -/
def step (s : PoolState) : PoolAction → Option PoolState
  | .send url pubkey htmlBody => some (s.send url pubkey htmlBody)
  | .registered c answer =>
    match (s.conn c).draining, answer with
    | some .registering, none => some (s.setDraining c .failed)
    | some .registering, some token =>
      some ((s.setToken (s.conn c).url (s.conn c).pubkey token).setDraining c (.dialing token))
    | _, _ => none
  | .dial c ok =>
    match (s.conn c).draining with
    | some (.dialing token) => some (if ok then s.openSocket c token else s.setDraining c .failed)
    | _ => none
  | .opened w =>
    if (s.socket w).readyState = .CONNECTING then
      some ((s.setReadyState w .OPEN).settleConnect w .connected)
    else none
  | .errored w =>
    if (s.socket w).readyState ≠ .CLOSED then
      some ((s.setReadyState w .CLOSING).settleConnect w .failed)
    else none
  | .closing w =>
    if (s.socket w).readyState = .OPEN then some (s.setReadyState w .CLOSING) else none
  | .closed w =>
    if (s.socket w).readyState = .OPEN ∨ (s.socket w).readyState = .CLOSING then
      some ((s.setReadyState w .CLOSED).setConn (s.socket w).conn
        { s.conn (s.socket w).conn with ws := none })
    else none
  | .resume c =>
    match (s.conn c).draining with
    | some .connected => some (s.pace c)
    | _ => none
  | .timer c =>
    match (s.conn c).draining with
    | some (.pacing until') => if until' ≤ s.now then some (s.write c) else none
    | _ => none
  | .settle c =>
    match (s.conn c).draining with
    | some .finished => some (s.settleSends c .fulfilled)
    | some .failed => some (s.settleSends c .rejected)
    | _ => none
  | .destroyInstance url => some (s.destroyInstance url)
  | .destroyAll => some s.destroyAll
  | .tick ms => some { s with now := s.now + ms }

@[simp] theorem setConn_self (s : PoolState) (c : ConnId) (conn : ChatterConn) :
    (s.setConn c conn).conn c = conn := by simp [setConn]

theorem setConn_other (s : PoolState) {c c' : ConnId} (h : c' ≠ c) (conn : ChatterConn) :
    (s.setConn c conn).conn c' = s.conn c' := by
  simp [setConn, Function.update_of_ne h]

theorem lookup_getD (s : PoolState) (url pubkey : JsString) :
    ((s.conns.get? url).getD .empty).get? pubkey = s.lookup url pubkey := by
  unfold lookup
  cases s.conns.get? url <;> simp

/-- A send over the cap leaves every connection where it was. -/
theorem lookup_overCap (s : PoolState) (url url' pubkey' : JsString) :
    ((s.conns.set url ((s.conns.get? url).getD .empty)).get? url').bind
      (fun m => m.get? pubkey') = s.lookup url' pubkey' := by
  simp only [OrderedMap.get?_set]
  by_cases hu : url' = url
  · subst hu
    rw [if_pos rfl]
    exact lookup_getD s url' pubkey'
  · rw [if_neg hu]
    rfl

theorem lookup_newConn (s : PoolState) (url pubkey url' pubkey' : JsString) :
    (s.newConn url pubkey ((s.conns.get? url).getD .empty)).lookup url' pubkey' =
      if url' = url ∧ pubkey' = pubkey then some s.nextConn else s.lookup url' pubkey' := by
  simp only [newConn, lookup, OrderedMap.get?_set]
  by_cases hu : url' = url
  · subst hu
    simp only [if_true, true_and, Option.bind_some, OrderedMap.get?_set]
    split_ifs
    · rfl
    · exact lookup_getD s url' pubkey'
  · simp [hu]

/-- What an enabled step does, by action. -/
theorem step_elim {s s' : PoolState} {motive : PoolAction → PoolState → Prop} {a : PoolAction}
    (hs : s.step a = some s')
    (send : ∀ url pubkey body, motive (.send url pubkey body) (s.send url pubkey body))
    (unregistered : ∀ c, (s.conn c).draining = some .registering →
      motive (.registered c none) (s.setDraining c .failed))
    (registered : ∀ c token, (s.conn c).draining = some .registering →
      motive (.registered c (some token))
        ((s.setToken (s.conn c).url (s.conn c).pubkey token).setDraining c (.dialing token)))
    (undialed : ∀ c token, (s.conn c).draining = some (.dialing token) →
      motive (.dial c false) (s.setDraining c .failed))
    (dialed : ∀ c token, (s.conn c).draining = some (.dialing token) →
      motive (.dial c true) (s.openSocket c token))
    (opened : ∀ w, (s.socket w).readyState = .CONNECTING →
      motive (.opened w) ((s.setReadyState w .OPEN).settleConnect w .connected))
    (errored : ∀ w, motive (.errored w) ((s.setReadyState w .CLOSING).settleConnect w .failed))
    (closing : ∀ w, motive (.closing w) (s.setReadyState w .CLOSING))
    (closed : ∀ w, motive (.closed w) ((s.setReadyState w .CLOSED).setConn (s.socket w).conn
      { s.conn (s.socket w).conn with ws := none }))
    (resume : ∀ c, (s.conn c).draining = some .connected → motive (.resume c) (s.pace c))
    (timer : ∀ c until', (s.conn c).draining = some (.pacing until') →
      motive (.timer c) (s.write c))
    (fulfilled : ∀ c, (s.conn c).draining = some .finished →
      motive (.settle c) (s.settleSends c .fulfilled))
    (rejected : ∀ c, (s.conn c).draining = some .failed →
      motive (.settle c) (s.settleSends c .rejected))
    (destroyInstance : ∀ url, motive (.destroyInstance url) (s.destroyInstance url))
    (destroyAll : motive .destroyAll s.destroyAll)
    (tick : ∀ ms, motive (.tick ms) { s with now := s.now + ms }) : motive a s' := by
  cases a with
  | send url pubkey body =>
    obtain rfl := Option.some.inj hs
    exact send url pubkey body
  | registered c answer =>
    simp only [step] at hs
    split at hs
    · rename_i hd
      obtain rfl := Option.some.inj hs
      exact unregistered c hd
    · rename_i token hd
      obtain rfl := Option.some.inj hs
      exact registered c token hd
    · cases hs
  | dial c ok =>
    simp only [step] at hs
    split at hs
    · rename_i token hd
      obtain rfl := Option.some.inj hs
      cases ok with
      | false => exact undialed c token hd
      | true => exact dialed c token hd
    · cases hs
  | opened w =>
    simp only [step] at hs
    split_ifs at hs with hw
    obtain rfl := Option.some.inj hs
    exact opened w hw
  | errored w =>
    simp only [step] at hs
    split_ifs at hs
    obtain rfl := Option.some.inj hs
    exact errored w
  | closing w =>
    simp only [step] at hs
    split_ifs at hs
    obtain rfl := Option.some.inj hs
    exact closing w
  | closed w =>
    simp only [step] at hs
    split_ifs at hs
    obtain rfl := Option.some.inj hs
    exact closed w
  | resume c =>
    simp only [step] at hs
    split at hs
    · rename_i hd
      obtain rfl := Option.some.inj hs
      exact resume c hd
    · cases hs
  | timer c =>
    simp only [step] at hs
    split at hs
    · rename_i until' hd
      split_ifs at hs
      obtain rfl := Option.some.inj hs
      exact timer c until' hd
    · cases hs
  | settle c =>
    simp only [step] at hs
    split at hs
    · rename_i hd
      obtain rfl := Option.some.inj hs
      exact fulfilled c hd
    · rename_i hd
      obtain rfl := Option.some.inj hs
      exact rejected c hd
    · cases hs
  | destroyInstance url =>
    obtain rfl := Option.some.inj hs
    exact destroyInstance url
  | destroyAll =>
    obtain rfl := Option.some.inj hs
    exact destroyAll
  | tick ms =>
    obtain rfl := Option.some.inj hs
    exact tick ms

end PoolState

end LivelierBridge.Owncast
