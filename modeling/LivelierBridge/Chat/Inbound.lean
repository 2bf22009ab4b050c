import LivelierBridge.Chat.Rooms
import LivelierBridge.Chat.Fingerprint
import LivelierBridge.Nostr.Event

namespace LivelierBridge.Chat

open Framework Js Nostr

structure InboundConfig extends RoomsConfig where
  bridgeName : JsString

/-- The firehose an event arrived on. -/
inductive Via where
  | «local»
  | network
  deriving DecidableEq

/-- Where `deliverToSource` is suspended: `resolved` is the return from `resolveName`. -/
inductive Stage where
  | resolving
  | resolved (displayName : JsString)
  | rendering (displayName : JsString)
  | sending
  deriving DecidableEq

structure SourceChatMessage where
  userId : JsString
  displayName : JsString
  text : JsString

structure SourceChatJoin where
  userId : JsString
  displayName : JsString

/-- The chat half of a `Room`. -/
structure RoomChat where
  fingerprints : FingerprintCache
  /-- Ephemeral pubkey of each source user. -/
  chatterSigners : OrderedMap JsString JsString
  profiledChatters : List JsString
  /-- The links of the `delivery` chain that have not started. -/
  waiting : List Event
  delivering : Option (Event × Stage)
  /-- How many fingerprints were added so far. -/
  added : Nat

def RoomChat.new : RoomChat := ⟨.new, .empty, [], [], none, 0⟩

/-- L3: recognise the fingerprint, or add it. -/
def RoomChat.check (c : RoomChat) (now : Nat) (fp : JsString) : Bool × RoomChat :=
  let (seen, fingerprints) := c.fingerprints.has now fp
  if seen then (true, { c with fingerprints })
  else (false, { c with fingerprints := fingerprints.add now fp, added := c.added + 1 })

/-- An event that joined a room's delivery chain. -/
structure Arrival where
  event : Event
  at' : Nat
  deriving DecidableEq

/-- A fingerprint check of a delivery; `before` counts the room's fingerprints until then. -/
structure Lookup where
  event : Event
  room : RoomId
  displayName : JsString
  at' : Nat
  before : Nat
  fresh : Bool
  deriving DecidableEq

structure InboundState where
  rooms : RoomsState
  chat : RoomId → RoomChat
  /-- L2: pubkeys the bridge created. -/
  bridgedPubkeys : List JsString
  nameCache : OrderedMap JsString JsString
  localSeen : Nat
  networkSeen : Nat
  now : Nat
  arrivals : List Arrival
  lookups : List Lookup
  /-- The events `adapter.sendMessage` was called for, latest first. -/
  sent : List Event

def InboundState.init : InboundState :=
  ⟨.init, fun _ => .new, [], .empty, 0, 0, 0, [], [], []⟩

/-- Calls on the adapter; `τ` is what `processNostrContent` makes of an event. A delivery of
`room` awaits its `sendMessage`. -/
inductive ChatCall (τ : Type) where
  | rooms (call : AdapterCall)
  | sendMessage (room : RoomId) (url senderKey displayName : JsString) (content : τ)

inductive InboundAction (τ : Type) where
  | rooms (a : RoomsAction)
  | tick (ms : Nat)
  | nostrEvent (via : Via) (event : Event)
  /-- The next link of the room's chain starts. -/
  | deliver (room : RoomId)
  /-- `gateway.fetchProfileName` answers, or rejects. -/
  | named (room : RoomId) (answer : Option (Option JsString))
  /-- `deliverToSource` goes on after `resolveName`. -/
  | check (room : RoomId)
  | rendered (room : RoomId) (content : τ)
  /-- `adapter.sendMessage` settles, either way. -/
  | settled (room : RoomId)
  /-- A source frame; `key` is the pubkey drawn for a user without a signer. -/
  | sourceChat (room : RoomId) (msg : SourceChatMessage) (key : JsString)
  | sourceJoin (room : RoomId) (join : SourceChatJoin) (key : JsString)

namespace InboundState

def setChat (s : InboundState) (room : RoomId) (c : RoomChat) : InboundState :=
  { s with chat := Function.update s.chat room c }

/-- The link of the chain ends, delivered or not. -/
def endLink (s : InboundState) (room : RoomId) : InboundState :=
  s.setChat room { s.chat room with delivering := none }

def setStage (s : InboundState) (room : RoomId) (event : Event) (stage : Stage) : InboundState :=
  s.setChat room { s.chat room with delivering := some (event, stage) }

def seen (s : InboundState) : Via → InboundState
  | .local => { s with localSeen := s.localSeen + 1 }
  | .network => { s with networkSeen := s.networkSeen + 1 }

/-- L1: the bridge's own client tag. -/
def ownClientTag (cfg : InboundConfig) (event : Event) : Bool :=
  event.tags.any fun t => t[0]? = some (js "client") && t[1]? = some cfg.bridgeName

/-- The open room an event is addressed to. -/
def roomFor (s : InboundState) (event : Event) : Option RoomId :=
  match tagValue event.tags (js "a") with
  | none => none
  | some aTag =>
    if aTag = [] then none else s.rooms.rooms.values.find? fun id => (s.rooms.room id).aTag = aTag

def handleNostrEvent (cfg : InboundConfig) (s : InboundState) (event : Event) : InboundState :=
  if event.kind ≠ 1311 then s
  else if ownClientTag cfg event then s
  else if event.pubkey ∈ s.bridgedPubkeys then s
  else
    match s.roomFor event with
    | none => s
    | some room =>
      { s.setChat room { s.chat room with waiting := (s.chat room).waiting ++ [event] } with
        arrivals := s.arrivals ++ [⟨event, s.now⟩] }

/-- Start `deliverToSource`: a cached name resolves without asking the gateway. -/
def deliver (s : InboundState) (room : RoomId) (event : Event) (rest : List Event) :
    InboundState :=
  let stage := match s.nameCache.get? event.pubkey with
    | some cached => if cached = [] then Stage.resolving else .resolved cached
    | none => .resolving
  s.setChat room { s.chat room with waiting := rest, delivering := some (event, stage) }

/-- The rest of `resolveName`; the fallback is not cached. -/
def named (s : InboundState) (room : RoomId) (event : Event) : Option JsString → InboundState
  | some (u :: us) =>
    { s.setStage room event (.resolved (u :: us)) with
      nameCache := s.nameCache.set event.pubkey (u :: us) }
  | _ => s.setStage room event (.resolved (js "Guest"))

/-- L3 on the raw content under the resolved name. -/
def check (s : InboundState) (room : RoomId) (event : Event) (displayName : JsString) :
    InboundState :=
  let (seen, c) := (s.chat room).check s.now (FingerprintCache.key displayName event.content)
  { s.setChat room
      { c with delivering := if seen then none else some (event, .rendering displayName) } with
    lookups := s.lookups ++
      [⟨event, room, displayName, s.now, (s.chat room).added, !seen⟩] }

def sendMessage {τ : Type} (s : InboundState) (room : RoomId) (event : Event)
    (displayName : JsString) (content : τ) : InboundState × List (ChatCall τ) :=
  let url := (s.rooms.room room).row.url
  if s.rooms.rooms.get? url ≠ some room then (s.endLink room, [])
  else
    ({ s.setStage room event .sending with sent := event :: s.sent },
      [.sendMessage room url event.pubkey displayName content])

/-- The ephemeral identity of a source user; a new one is known to L2 at once. -/
def chatterSigner (s : InboundState) (room : RoomId) (userId key : JsString) : InboundState :=
  match (s.chat room).chatterSigners.get? userId with
  | some _ => s
  | none =>
    { s.setChat room
        { s.chat room with chatterSigners := (s.chat room).chatterSigners.set userId key } with
      bridgedPubkeys := key :: s.bridgedPubkeys }

/-- The part of both source handlers up to the first publish. -/
def bridgeChatter (s : InboundState) (room : RoomId) (userId key : JsString) : InboundState :=
  let s := s.chatterSigner room userId key
  if userId ∈ (s.chat room).profiledChatters then s
  else
    s.setChat room
      { s.chat room with profiledChatters := userId :: (s.chat room).profiledChatters }

def handleSourceChat (s : InboundState) (room : RoomId) (msg : SourceChatMessage)
    (key : JsString) : InboundState :=
  if msg.text = [] then s
  else
    let (seen, c) := (s.chat room).check s.now (FingerprintCache.key msg.displayName msg.text)
    let s := s.setChat room c
    if seen then s else s.bridgeChatter room msg.userId key

/-- One synchronous piece of the chat service, with the adapter calls it makes. -/
def step {τ : Type} (cfg : InboundConfig) (s : InboundState) :
    InboundAction τ → Option (InboundState × List (ChatCall τ))
  | .rooms a =>
    (s.rooms.step cfg.toRoomsConfig a).map fun r =>
      ({ s with rooms := r.1 }, r.2.map ChatCall.rooms)
  | .tick ms => some ({ s with now := s.now + ms }, [])
  | .nostrEvent via event => some ((s.seen via).handleNostrEvent cfg event, [])
  | .deliver room =>
    match (s.chat room).delivering, (s.chat room).waiting with
    | none, event :: rest => some (s.deliver room event rest, [])
    | _, _ => none
  | .named room answer =>
    match (s.chat room).delivering, answer with
    | some (_, .resolving), none => some (s.endLink room, [])
    | some (event, .resolving), some name => some (s.named room event name, [])
    | _, _ => none
  | .check room =>
    match (s.chat room).delivering with
    | some (event, .resolved displayName) => some (s.check room event displayName, [])
    | _ => none
  | .rendered room content =>
    match (s.chat room).delivering with
    | some (event, .rendering displayName) => some (s.sendMessage room event displayName content)
    | _ => none
  | .settled room =>
    match (s.chat room).delivering with
    | some (_, .sending) => some (s.endLink room, [])
    | _ => none
  | .sourceChat room msg key =>
    if room < s.rooms.nextRoom then some (s.handleSourceChat room msg key, []) else none
  | .sourceJoin room join key =>
    if room < s.rooms.nextRoom then some (s.bridgeChatter room join.userId key, []) else none

def next {τ : Type} (cfg : InboundConfig) (s : InboundState) (a : InboundAction τ) :
    Option InboundState := (step cfg s a).map Prod.fst

/-- What an enabled step does, by action. -/
theorem step_elim {τ : Type} {cfg : InboundConfig} {s : InboundState}
    {motive : InboundAction τ → InboundState → List (ChatCall τ) → Prop} {a : InboundAction τ}
    {r : InboundState × List (ChatCall τ)} (hs : step cfg s a = some r)
    (rooms : ∀ b r, s.rooms.step cfg.toRoomsConfig b = some r →
      motive (.rooms b) { s with rooms := r.1 } (r.2.map ChatCall.rooms))
    (tick : ∀ ms, motive (.tick ms) { s with now := s.now + ms } [])
    (nostrEvent : ∀ via event,
      motive (.nostrEvent via event) ((s.seen via).handleNostrEvent cfg event) [])
    (deliver : ∀ room event rest, (s.chat room).waiting = event :: rest →
      motive (.deliver room) (s.deliver room event rest) [])
    (unnamed : ∀ room, motive (.named room none) (s.endLink room) [])
    (named : ∀ room event name, (s.chat room).delivering = some (event, .resolving) →
      motive (.named room (some name)) (s.named room event name) [])
    (check : ∀ room event displayName,
      (s.chat room).delivering = some (event, .resolved displayName) →
      motive (.check room) (s.check room event displayName) [])
    (rendered : ∀ room event displayName content,
      (s.chat room).delivering = some (event, .rendering displayName) →
      motive (.rendered room content) (s.sendMessage room event displayName content).1
        (s.sendMessage room event displayName content).2)
    (settled : ∀ room, motive (.settled room) (s.endLink room) [])
    (sourceChat : ∀ room msg key, room < s.rooms.nextRoom →
      motive (.sourceChat room msg key) (s.handleSourceChat room msg key) [])
    (sourceJoin : ∀ room presence key, room < s.rooms.nextRoom →
      motive (.sourceJoin room presence key) (s.bridgeChatter room presence.userId key) []) :
    motive a r.1 r.2 := by
  cases a with
  | rooms b =>
    obtain ⟨r', hr, rfl⟩ := Option.map_eq_some_iff.mp hs
    exact rooms b r' hr
  | tick ms =>
    obtain rfl := Option.some.inj hs
    exact tick ms
  | nostrEvent via event =>
    obtain rfl := Option.some.inj hs
    exact nostrEvent via event
  | deliver room =>
    simp only [step] at hs
    split at hs
    · rename_i event rest _ hw
      obtain rfl := Option.some.inj hs
      exact deliver room event rest hw
    · cases hs
  | named room answer =>
    simp only [step] at hs
    split at hs
    · obtain rfl := Option.some.inj hs
      exact unnamed room
    · rename_i event name hd
      obtain rfl := Option.some.inj hs
      exact named room event name hd
    · cases hs
  | check room =>
    simp only [step] at hs
    split at hs
    · rename_i event displayName hd
      obtain rfl := Option.some.inj hs
      exact check room event displayName hd
    · cases hs
  | rendered room content =>
    simp only [step] at hs
    split at hs
    · rename_i event displayName hd
      obtain rfl := Option.some.inj hs
      exact rendered room event displayName content hd
    · cases hs
  | settled room =>
    simp only [step] at hs
    split at hs
    · obtain rfl := Option.some.inj hs
      exact settled room
    · cases hs
  | sourceChat room msg key =>
    simp only [step] at hs
    split at hs
    · rename_i hroom
      obtain rfl := Option.some.inj hs
      exact sourceChat room msg key hroom
    · cases hs
  | sourceJoin room presence key =>
    simp only [step] at hs
    split at hs
    · rename_i hroom
      obtain rfl := Option.some.inj hs
      exact sourceJoin room presence key hroom
    · cases hs

end InboundState

end LivelierBridge.Chat
