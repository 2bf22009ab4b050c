import LivelierBridge.Chat.Inbound
import LivelierBridge.Owncast.ChatPool

namespace LivelierBridge.Owncast

open Framework Js Chat

/-- How the adapter renders content: `ε` is an instance's emoji list. -/
structure Rendering (τ ε : Type) where
  hasEmoji : τ → Bool
  html : τ → Option ε → JsString

/-- Where `adapter.sendMessage` is suspended. -/
inductive Sending (τ : Type) where
  | emoji (url senderKey : JsString) (content : τ)
  | pool (id : SendId)

/-- The chat service over the Owncast adapter and its sender pool. -/
structure BridgeState (τ : Type) where
  inbound : InboundState
  pool : PoolState
  sending : OrderedMap RoomId (Sending τ)
  /-- `closeRoom` or `closeAll` ran for the instance and its room was not opened since. -/
  closed : JsString → Bool
  /-- Sockets that were opened for an instance while it was closed. -/
  late : List SocketId

def BridgeState.init (τ : Type) (now : Nat) : BridgeState τ :=
  ⟨.init, .init now, .empty, fun _ => false, []⟩

inductive BridgeAction (τ ε : Type) where
  | inbound (a : InboundAction τ)
  /-- `getInstanceEmoji` resolves. -/
  | emoji (room : RoomId) (list : Option ε)
  | pool (a : PoolAction)

/-- Pool events that are no call of the adapter. -/
def PoolAction.internal : PoolAction → Bool
  | .send _ _ _ | .destroyInstance _ | .destroyAll => false
  | _ => true

namespace BridgeState

variable {τ ε : Type}

def poolSend (s : BridgeState τ) (room : RoomId) (url senderKey html : JsString) :
    BridgeState τ :=
  { s with
    pool := s.pool.send url senderKey html
    sending := s.sending.set room (.pool s.pool.nextSend) }

/-- The adapter's side of a call of the chat service. -/
def call (r : Rendering τ ε) (s : BridgeState τ) : ChatCall τ → BridgeState τ
  | .rooms (.closeRoom url) => { s with pool := s.pool.destroyInstance url }
  | .rooms .closeAll => { s with pool := s.pool.destroyAll }
  | .rooms _ => s
  | .sendMessage room url senderKey _ content =>
    if r.hasEmoji content then
      { s with sending := s.sending.set room (.emoji url senderKey content) }
    else s.poolSend room url senderKey (r.html content none)

def closes (calls : List (ChatCall τ)) (url : JsString) : Bool :=
  calls.any fun
    | .rooms (.closeRoom url') => url' = url
    | .rooms .closeAll => true
    | _ => false

/-- The chat service's half of a step. -/
def serve (r : Rendering τ ε) (s : BridgeState τ) (i : InboundState) (calls : List (ChatCall τ)) :
    BridgeState τ :=
  let s' := calls.foldl (call r) { s with inbound := i }
  { s' with closed := fun url => (s.closed url || closes calls url) && !i.rooms.rooms.has url }

/-- `sendMessage` of the room's delivery has settled. -/
def sendSettled (s : BridgeState τ) (room : RoomId) : Bool :=
  match s.sending.get? room with
  | some (.pool id) => (s.pool.sends id).status ≠ .pending
  | _ => false

def dialsLate (s : BridgeState τ) : PoolAction → List SocketId
  | .dial c true => if s.closed (s.pool.conn c).url then [s.pool.nextSocket] else []
  | _ => []

def step (cfg : InboundConfig) (r : Rendering τ ε) (s : BridgeState τ) :
    BridgeAction τ ε → Option (BridgeState τ)
  | .inbound (.settled room) =>
    if s.sendSettled room then
      (s.inbound.step cfg (.settled room : InboundAction τ)).map fun o =>
        { s.serve r o.1 o.2 with sending := s.sending.delete room }
    else none
  | .inbound a => (s.inbound.step cfg a).map fun o => s.serve r o.1 o.2
  | .emoji room list =>
    match s.sending.get? room with
    | some (.emoji url senderKey content) =>
      some (s.poolSend room url senderKey (r.html content list))
    | _ => none
  | .pool a =>
    if a.internal then
      (s.pool.step a).map fun pool => { s with pool, late := s.late ++ s.dialsLate a }
    else none

end BridgeState

end LivelierBridge.Owncast
