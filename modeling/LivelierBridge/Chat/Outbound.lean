import LivelierBridge.Chat.Sourced
import LivelierBridge.Js.Stringify
import LivelierBridge.Owncast.Html

namespace LivelierBridge.Chat

open Framework Js Nostr Owncast

abbrev HandlerId := Nat

structure ChatServiceConfig extends InboundConfig where
  sourceName : JsString
  chatRelayUrl : JsString
  profileWriteRelays : List JsString
  chatExpirationSeconds : Nat

/-- What a room's listener hands on to the service. -/
inductive SourceFrame where
  | chat (msg : SourceChatMessage) (emojis : List SourceEmoji)
  | join (presence : SourceChatJoin)

/-- Where a source handler is suspended; `identified` is the return from
`publishChatterIdentity`, `event` the await of its own 1311 or 10312. -/
inductive Publishing where
  | profile
  | relayList
  | identified
  | event
  deriving DecidableEq

/-- A started `handleSourceChat` or `handleSourceJoin`; it holds on to its `Room`. -/
structure SourceHandler where
  room : RoomId
  frame : SourceFrame
  signer : JsString
  publishing : Publishing

/-- Calls on the Nostr gateway; a signer stands as its pubkey. -/
inductive GatewayCall where
  | publish (signer : JsString) (kind : Nat) (content : JsString) (tags : List (List JsString))
  | broadcast (signer : JsString) (kind : Nat) (content : JsString) (tags : List (List JsString))
      (relayUrls : List JsString)

def GatewayCall.signer : GatewayCall → JsString
  | .publish signer _ _ _ => signer
  | .broadcast signer _ _ _ _ => signer

/-- What the service does to the world, and its additions to `bridgedPubkeys`. -/
inductive ChatEffect (τ : Type) where
  | bridged (pubkey : JsString)
  | gateway (call : GatewayCall)
  | adapter (call : ChatCall τ)

/-- The chat service with both directions; `log` lists its effects in order. -/
structure ChatState (τ : Type) where
  inbound : InboundState
  handlers : OrderedMap HandlerId SourceHandler
  nextHandler : HandlerId
  outboundPublished : Nat
  log : List (ChatEffect τ)

def ChatState.init (τ : Type) : ChatState τ := ⟨.init, .empty, 0, 0, []⟩

inductive ChatAction (τ : Type) where
  | inbound (a : InboundAction τ)
  /-- A frame of a listener that was opened for the room; the emitter outlives `stop()`. -/
  | frame (room : RoomId) (frame : SourceFrame) (key : JsString)
  /-- The gateway call that a handler awaits settles. -/
  | answered (handler : HandlerId) (ok : Bool)
  /-- A handler goes on after `publishChatterIdentity`. -/
  | resume (handler : HandlerId)

/-- The source handlers of `Inbound` stop at their first publish. -/
def InboundAction.isSource {τ : Type} : InboundAction τ → Bool
  | .sourceChat _ _ _ | .sourceJoin _ _ _ => true
  | _ => false

def SourceFrame.userId : SourceFrame → JsString
  | .chat msg _ => msg.userId
  | .join presence => presence.userId

def SourceFrame.displayName : SourceFrame → JsString
  | .chat msg _ => msg.displayName
  | .join presence => presence.displayName

/-- The kind of the event a frame is bridged as. -/
def SourceFrame.kind : SourceFrame → Nat
  | .chat _ _ => 1311
  | .join _ => 10312

def SourceFrame.text : SourceFrame → JsString
  | .chat msg _ => msg.text
  | .join _ => []

def SourceFrame.emojiTags : SourceFrame → List (List JsString)
  | .chat _ emojis => emojis.map fun e => [js "emoji", e.shortcode, e.imageUrl]
  | .join _ => []

namespace ChatState

variable {τ : Type}

/-- The pubkey of the user's signer, a drawn one for a new user. -/
def signerOf (c : RoomChat) (userId key : JsString) : JsString :=
  (c.chatterSigners.get? userId).getD key

def profileContent (cfg : ChatServiceConfig) (displayName instanceUrl : JsString) : JsString :=
  jsonObject [(js "name", quote displayName), (js "display_name", quote displayName),
    (js "about", quote (js "Chat participant on " ++ instanceUrl ++ js ", bridged from " ++
      cfg.sourceName ++ js " by https://livelier.live")),
    (js "bot", js "true")]

/-- The first call of `publishChatterIdentity`. -/
def profileCall (cfg : ChatServiceConfig) (signer displayName instanceUrl : JsString) :
    GatewayCall :=
  .broadcast signer 0 (profileContent cfg displayName instanceUrl) [] cfg.profileWriteRelays

def relayListCall (cfg : ChatServiceConfig) (signer : JsString) : GatewayCall :=
  .broadcast signer 10002 [] [[js "r", cfg.chatRelayUrl]] cfg.profileWriteRelays

def expiration (cfg : ChatServiceConfig) (now : Nat) : Nat := now / 1000 + cfg.chatExpirationSeconds

/-- The publish of the bridged message, or of the presence. -/
def eventCall (cfg : ChatServiceConfig) (now : Nat) (aTag signer : JsString)
    (frame : SourceFrame) : GatewayCall :=
  .publish signer frame.kind frame.text
    ([[js "a", aTag, cfg.chatRelayUrl, js "root"], [js "-"],
      [js "expiration", intToString 10 (expiration cfg now)]] ++ frame.emojiTags)

def emit (s : ChatState τ) (effects : List (ChatEffect τ)) : ChatState τ :=
  { s with log := s.log ++ effects }

def setHandler (s : ChatState τ) (id : HandlerId) (h : SourceHandler) : ChatState τ :=
  { s with handlers := s.handlers.set id h }

def startHandler (s : ChatState τ) (h : SourceHandler) : ChatState τ :=
  { s.setHandler s.nextHandler h with nextHandler := s.nextHandler + 1 }

def finishHandler (s : ChatState τ) (id : HandlerId) : ChatState τ :=
  { s with handlers := s.handlers.delete id }

/-- The part of both source handlers from `chatterSigner` to their first await. -/
def bridge (cfg : ChatServiceConfig) (s : ChatState τ) (room : RoomId) (frame : SourceFrame)
    (key : JsString) : ChatState τ :=
  let c := s.inbound.chat room
  let signer := signerOf c frame.userId key
  let r := s.inbound.rooms.room room
  let created := if c.chatterSigners.has frame.userId then [] else [ChatEffect.bridged key]
  let s := { s with inbound := s.inbound.bridgeChatter room frame.userId key }.emit created
  if frame.userId ∈ c.profiledChatters then
    (s.startHandler ⟨room, frame, signer, .event⟩).emit
      [.gateway (eventCall cfg s.inbound.now r.aTag signer frame)]
  else
    (s.startHandler ⟨room, frame, signer, .profile⟩).emit
      [.gateway (profileCall cfg signer frame.displayName r.row.url)]

/-- `handleSourceChat` up to its first await -/
def handleSourceChat (cfg : ChatServiceConfig) (s : ChatState τ) (room : RoomId)
    (msg : SourceChatMessage) (emojis : List SourceEmoji) (key : JsString) : ChatState τ :=
  if msg.text = [] then s
  else
    let (seen, c) := (s.inbound.chat room).check s.inbound.now
      (FingerprintCache.key msg.displayName msg.text)
    let s := { s with inbound := s.inbound.setChat room c }
    if seen then s else s.bridge cfg room (.chat msg emojis) key

def handleFrame (cfg : ChatServiceConfig) (s : ChatState τ) (room : RoomId) (key : JsString) :
    SourceFrame → ChatState τ
  | .chat msg emojis => s.handleSourceChat cfg room msg emojis key
  | .join presence => s.bridge cfg room (.join presence) key

/-- The 1311 was accepted. -/
def countPublish (s : ChatState τ) : SourceFrame → ChatState τ
  | .chat _ _ => { s with outboundPublished := s.outboundPublished + 1 }
  | .join _ => s

/-- A handler goes on after the gateway call it awaited; a rejection ends it. -/
def answered (cfg : ChatServiceConfig) (s : ChatState τ) (id : HandlerId) (h : SourceHandler)
    (ok : Bool) : Option (ChatState τ) :=
  match h.publishing with
  | .profile =>
    if ok then
      some ((s.setHandler id { h with publishing := .relayList }).emit
        [.gateway (relayListCall cfg h.signer)])
    else some (s.finishHandler id)
  | .relayList =>
    if ok then some (s.setHandler id { h with publishing := .identified })
    else some (s.finishHandler id)
  | .identified => none
  | .event =>
    if ok then some ((s.finishHandler id).countPublish h.frame) else some (s.finishHandler id)

def publishEvent (cfg : ChatServiceConfig) (s : ChatState τ) (id : HandlerId)
    (h : SourceHandler) : ChatState τ :=
  (s.setHandler id { h with publishing := .event }).emit
    [.gateway (eventCall cfg s.inbound.now (s.inbound.rooms.room h.room).aTag h.signer h.frame)]

/-- One synchronous piece of the chat service. -/
def next (cfg : ChatServiceConfig) (s : ChatState τ) : ChatAction τ → Option (ChatState τ)
  | .inbound a =>
    if a.isSource then none
    else (s.inbound.step cfg.toInboundConfig a).map fun r =>
      { s with inbound := r.1 }.emit (r.2.map .adapter)
  | .frame room frame key =>
    if room < s.inbound.rooms.nextRoom then some (s.handleFrame cfg room key frame) else none
  | .answered id ok => (s.handlers.get? id).bind fun h => s.answered cfg id h ok
  | .resume id =>
    match s.handlers.get? id with
    | some h => if h.publishing = .identified then some (s.publishEvent cfg id h) else none
    | none => none

theorem bridge_inbound (cfg : ChatServiceConfig) (s : ChatState τ) (room : RoomId)
    (frame : SourceFrame) (key : JsString) :
    (s.bridge cfg room frame key).inbound = s.inbound.bridgeChatter room frame.userId key := by
  unfold bridge
  dsimp only
  split <;> rfl

theorem handleSourceChat_inbound (cfg : ChatServiceConfig) (s : ChatState τ) (room : RoomId)
    (msg : SourceChatMessage) (emojis : List SourceEmoji) (key : JsString) :
    (s.handleSourceChat cfg room msg emojis key).inbound =
      s.inbound.handleSourceChat room msg key := by
  unfold handleSourceChat InboundState.handleSourceChat
  split
  · rfl
  · dsimp only
    split
    · rfl
    · exact bridge_inbound cfg _ room _ key

theorem answered_inbound {cfg : ChatServiceConfig} {s s' : ChatState τ} {id : HandlerId}
    {h : SourceHandler} {ok : Bool} (hs : s.answered cfg id h ok = some s') :
    s'.inbound = s.inbound := by
  unfold answered at hs
  split at hs
  · split at hs <;> obtain rfl : _ = s' := by simpa using hs
    all_goals rfl
  · split at hs <;> obtain rfl : _ = s' := by simpa using hs
    all_goals rfl
  · cases hs
  · split at hs <;> obtain rfl : _ = s' := by simpa using hs
    · cases h.frame <;> rfl
    · rfl

/-- The chat service refines its inbound half: each step is one of the half's, or leaves it. -/
theorem next_inbound {cfg : ChatServiceConfig} {s s' : ChatState τ} {a : ChatAction τ}
    (hs : next cfg s a = some s') :
    s'.inbound = s.inbound ∨
      ∃ b : InboundAction τ, InboundState.next cfg.toInboundConfig s.inbound b = some s'.inbound ∧
        (b.isSource = true ∨ a = .inbound b) := by
  cases a with
  | inbound a =>
    simp only [next] at hs
    split at hs
    · cases hs
    · obtain ⟨r, hr, rfl⟩ := Option.map_eq_some_iff.mp hs
      exact .inr ⟨a, by simp [InboundState.next, hr, emit], .inr rfl⟩
  | frame room frame key =>
    simp only [next] at hs
    split at hs
    · rename_i hroom
      obtain rfl : _ = s' := by simpa using hs
      cases frame with
      | chat msg emojis =>
        refine .inr ⟨.sourceChat room msg key, ?_, .inl rfl⟩
        rw [handleFrame, handleSourceChat_inbound]
        simp [InboundState.next, InboundState.step, hroom]
      | join presence =>
        refine .inr ⟨.sourceJoin room presence key, ?_, .inl rfl⟩
        rw [handleFrame, bridge_inbound]
        simp [InboundState.next, InboundState.step, hroom, SourceFrame.userId]
    · cases hs
  | answered id ok =>
    obtain ⟨h, -, hs⟩ := Option.bind_eq_some_iff.mp hs
    exact .inl (answered_inbound hs)
  | resume id =>
    simp only [next] at hs
    split at hs
    · split at hs
      · obtain rfl : _ = s' := by simpa using hs
        exact .inl rfl
      · cases hs
    · cases hs

end ChatState

end LivelierBridge.Chat
