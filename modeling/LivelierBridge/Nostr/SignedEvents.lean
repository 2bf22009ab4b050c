import LivelierBridge.Framework.Run
import LivelierBridge.Framework.OrderedMap
import LivelierBridge.Js.Stringify
import LivelierBridge.Nostr.Event

namespace LivelierBridge.Nostr

open Framework Js

abbrev CallId := Nat

structure EventTemplate where
  kind : Int
  content : JsString
  tags : List (List JsString)
  created_at : Int

/-- A signer library: `σ` are its signers, the number is the randomness of one signature. -/
structure Signing (σ : Type) where
  getPublicKey : σ → JsString
  signEvent : σ → EventTemplate → Nat → Event
  verifyEvent : Event → Bool

/-- A signed event carries its template under the signer's key and verifies. -/
structure Signing.Faithful {σ : Type} (lib : Signing σ) : Prop where
  pubkey : ∀ g t n, (lib.signEvent g t n).pubkey = lib.getPublicKey g
  kind : ∀ g t n, (lib.signEvent g t n).kind = t.kind
  content : ∀ g t n, (lib.signEvent g t n).content = t.content
  tags : ∀ g t n, (lib.signEvent g t n).tags = t.tags
  verifies : ∀ g t n, lib.verifyEvent (lib.signEvent g t n) = true

/-- The arguments of one `createSignedEvent` call. -/
structure SigningCall (σ : Type) where
  signer : σ
  kind : Int
  content : JsString
  tags : List (List JsString)

/-- Where a call is suspended, or how it settled. -/
inductive SigningPhase where
  | gettingKey
  | signing (template : EventTemplate)
  | inflight (owner : CallId)
  | returned (event : Event)
  | rejected

def SigningPhase.event? : SigningPhase → Option Event
  | .returned e => some e
  | _ => none

/-- A cached event, with the call that had it signed. -/
structure CachedEvent where
  event : Event
  owner : CallId

structure SigningState (σ : Type) where
  calls : List (SigningCall σ)
  phase : CallId → SigningPhase
  /-- What the `performSigning` promise of a call settled to. -/
  promise : CallId → Option (Option Event)
  signedEventCache : OrderedMap JsString CachedEvent
  inflightRequests : OrderedMap JsString CallId
  /-- Due time and key of each pending cache cleanup. -/
  timers : List (Nat × JsString)
  now : Nat

def SigningState.init (σ : Type) (now : Nat) : SigningState σ :=
  ⟨[], fun _ => .gettingKey, fun _ => none, .empty, .empty, [], now⟩

inductive SigningAction (σ : Type) where
  | createSignedEvent (call : SigningCall σ)
  /-- `getPublicKey` answers, or fails. -/
  | key (c : CallId) (ok : Bool)
  /-- `signEvent` answers under some randomness, or fails. -/
  | signed (c : CallId) (answer : Option Nat)
  /-- The call that started the signing goes on after it. -/
  | finish (c : CallId)
  /-- A call that shares another's promise goes on. -/
  | share (c : CallId)
  | expire (key : JsString)
  | tick (ms : Nat)

def CACHE_MS : Nat := 10000

/-- The rolling hash over the code units, kept to 32 bits. -/
def rollingHash (s : JsString) : Int :=
  s.foldl (fun hash u => toInt32 (toInt32 (hash * 32) - hash + u.toNat)) 0

def hashInput (kind : Int) (content : JsString) (tags : List (List JsString))
    (pubkey : JsString) : JsString :=
  jsonObject [(js "kind", intToString 10 kind), (js "content", quote content),
    (js "tags", jsonArray (tags.map fun t => jsonArray (t.map quote))), (js "pubkey", quote pubkey)]

def hashEventRequest (kind : Int) (content : JsString) (tags : List (List JsString))
    (pubkey : JsString) : JsString :=
  intToString 16 (rollingHash (hashInput kind content tags pubkey))

namespace SigningState

variable {σ : Type}

def requestKey (lib : Signing σ) (call : SigningCall σ) : JsString :=
  hashEventRequest call.kind call.content call.tags (lib.getPublicKey call.signer)

/-- The tags `performSigning` asks the signer for. -/
def finalTags (clientName : Option JsString) (tags : List (List JsString)) :
    List (List JsString) :=
  match clientName with
  | some name => if name = [] then tags else tags ++ [[js "client", name]]
  | none => tags

def setPhase (s : SigningState σ) (c : CallId) (p : SigningPhase) : SigningState σ :=
  { s with phase := Function.update s.phase c p }

/-- The lookups after `getPublicKey`: cached event, in-flight promise, or a new signing. -/
def lookup (lib : Signing σ) (clientName : Option JsString) (s : SigningState σ) (c : CallId)
    (call : SigningCall σ) : SigningState σ :=
  let key := requestKey lib call
  match s.signedEventCache.get? key with
  | some cached => s.setPhase c (.returned cached.event)
  | none =>
    match s.inflightRequests.get? key with
    | some owner => s.setPhase c (.inflight owner)
    | none =>
      { s.setPhase c (.signing ⟨call.kind, call.content, finalTags clientName call.tags,
          (s.now / 1000 : Nat)⟩) with
        inflightRequests := s.inflightRequests.set key c }

def finish (s : SigningState σ) (c : CallId) (key : JsString) : Option Event → SigningState σ
  | some e =>
    { s.setPhase c (.returned e) with
      signedEventCache := s.signedEventCache.set key ⟨e, c⟩
      timers := s.timers ++ [(s.now + CACHE_MS, key)]
      inflightRequests := s.inflightRequests.delete key }
  | none =>
    { s.setPhase c .rejected with inflightRequests := s.inflightRequests.delete key }

def step (lib : Signing σ) (clientName : Option JsString) (s : SigningState σ) :
    SigningAction σ → Option (SigningState σ)
  | .createSignedEvent call =>
    some { s.setPhase s.calls.length .gettingKey with calls := s.calls ++ [call] }
  | .key c ok =>
    match s.calls[c]?, s.phase c with
    | some call, .gettingKey =>
      some (if ok then s.lookup lib clientName c call else s.setPhase c .rejected)
    | _, _ => none
  | .signed c answer =>
    match s.calls[c]?, s.phase c, s.promise c with
    | some call, .signing template, none =>
      let result := answer.map fun n => lib.signEvent call.signer template n
      some { s with promise := Function.update s.promise c (some result) }
    | _, _, _ => none
  | .finish c =>
    match s.calls[c]?, s.phase c, s.promise c with
    | some call, .signing _, some result => some (s.finish c (requestKey lib call) result)
    | _, _, _ => none
  | .share c =>
    match s.phase c with
    | .inflight owner =>
      (s.promise owner).map fun result => s.setPhase c (result.elim .rejected .returned)
    | _ => none
  | .expire key =>
    match s.timers.find? fun t => t.2 = key && decide (t.1 ≤ s.now) with
    | some t =>
      some { s with
        signedEventCache := s.signedEventCache.delete key
        timers := s.timers.filter fun t' => t' ≠ t }
    | none => none
  | .tick ms => some { s with now := s.now + ms }

end SigningState

end LivelierBridge.Nostr
