import LivelierBridge.Js.Json

namespace LivelierBridge.Nostr

open Framework Js

/-- A signed event on its way out; `ν` are the numbers its tags may hold. -/
structure OutboundEvent (ν : Type) where
  id : JsString
  kind : Nat
  content : JsString
  tags : List (List (Json ν))

/-- How an event leaves: by `publishEvent` to a list of relays, or by `publishAuthed` to one. -/
inductive Route where
  | plain (relayUrls : List JsString)
  | authed (relayUrl : JsString)

def Route.relays : Route → List JsString
  | .plain relayUrls => relayUrls
  | .authed relayUrl => [relayUrl]

/-- What `createSignedEvent` is asked for, and where the event is to go. -/
structure PublishRequest (ν : Type) where
  kind : Nat
  content : JsString
  tags : List (List (Json ν))
  route : Route
  /-- The clock when the tags were built. -/
  builtAt : Nat

/-- `[...new Set(urls)]` -/
def dedupe (urls : List JsString) : List JsString := urls.eraseDups

theorem mem_dedupe {urls : List JsString} {url : JsString} : url ∈ dedupe urls ↔ url ∈ urls :=
  List.mem_eraseDups

/-- The locals of one `publishAuthed`. -/
structure AuthedSocket where
  challenge : Option JsString
  authSent : Bool
  authEventId : Option JsString
  eventResent : Bool
  settled : Bool
  /-- The interval that waits for the challenge. -/
  authWait : Bool

def AuthedSocket.new : AuthedSocket := ⟨none, false, none, false, false, false⟩

/-- The relay messages that `publishAuthed` reads. -/
inductive RelayMessage where
  | AUTH (challenge : JsString)
  | OK (id : JsString) (accepted : Bool) (reason : JsString)

/-- How far a publish is. -/
inductive Sending (ν : Type) where
  | signing
  /-- The relays whose `ensureRelay` has not answered. -/
  | plain (event : OutboundEvent ν) (connecting : List JsString)
  | authed (event : OutboundEvent ν) (socket : AuthedSocket)
  | failed

inductive PublishAction where
  /-- `createSignedEvent` answers under some circumstance, or throws. -/
  | signed (answer : Option Nat)
  /-- `ensureRelay` answers for a relay. -/
  | connected (relayUrl : JsString) (ok : Bool)
  | opened
  /-- A message of the relay; the id is that of the AUTH event, should one be signed. -/
  | message (m : RelayMessage) (authId : JsString)
  /-- The interval that waits for the challenge. -/
  | authWait (authId : JsString)
  /-- The fallback for a relay that does not acknowledge the AUTH. -/
  | fallback
  | timeout
  | error

/-- An event that a relay was sent. -/
structure Sent (ν : Type) where
  event : OutboundEvent ν
  relayUrl : JsString

namespace AuthedSocket

variable {ν : Type} (relayUrl : JsString) (event : OutboundEvent ν) (w : AuthedSocket)

def settle : AuthedSocket := { w with settled := true }

def resendEvent : AuthedSocket × List (Sent ν) :=
  if w.eventResent || w.settled then (w, [])
  else ({ w with eventResent := true }, [⟨event, relayUrl⟩])

/-- The NIP-42 answer to a challenge. -/
def authEvent (authId challenge : JsString) : OutboundEvent ν where
  id := authId
  kind := 22242
  content := []
  tags := [[.str (js "relay"), .str relayUrl], [.str (js "challenge"), .str challenge]]

def sendAuth (authId : JsString) : AuthedSocket × List (Sent ν) :=
  match w.challenge.filter (· ≠ []) with
  | none => (w, [])
  | some challenge =>
    if w.authSent then (w, [])
    else ({ w with authSent := true, authEventId := some authId },
      [⟨authEvent relayUrl authId challenge, relayUrl⟩])

/-- The relay's answer to the event. -/
def answered (accepted : Bool) (reason authId : JsString) : AuthedSocket × List (Sent ν) :=
  if accepted then (w.settle, [])
  else if (js "auth-required:").isPrefixOf reason && !w.authSent then
    if (w.challenge.filter (· ≠ [])).isSome then w.sendAuth relayUrl authId
    else ({ w with authWait := true }, [])
  else (w.settle, [])

def message (authId : JsString) : RelayMessage → AuthedSocket × List (Sent ν)
  | .AUTH challenge => ({ w with challenge := some challenge }, [])
  | .OK id accepted reason =>
    if (w.authEventId.filter (· ≠ [])) = some id then
      if accepted then w.resendEvent relayUrl event else (w.settle, [])
    else if id = event.id then w.answered relayUrl accepted reason authId
    else (w, [])

/-- The interval stops when there is a challenge. -/
def waited (authId : JsString) : AuthedSocket × List (Sent ν) :=
  if (w.challenge.filter (· ≠ [])).isSome then
    { w with authWait := false }.sendAuth relayUrl authId
  else (w, [])

/-- One event of the socket or of its timers. -/
def step : PublishAction → Option (AuthedSocket × List (Sent ν))
  | .opened => some (w, [⟨event, relayUrl⟩])
  | .message m authId => some (w.message relayUrl event authId m)
  | .authWait authId => if w.authWait then some (w.waited relayUrl authId) else none
  | .fallback => if w.authSent then some (w.resendEvent relayUrl event) else none
  | .timeout | .error => some (w.settle, [])
  | .signed _ | .connected _ _ => none

end AuthedSocket

namespace PublishRequest

variable {ν : Type} (createSignedEvent : PublishRequest ν → Nat → OutboundEvent ν)

/-- The event is signed, and the publish of its route begins; `publishEvent` throws on an empty
relay list. -/
def begin (r : PublishRequest ν) (event : OutboundEvent ν) : Sending ν :=
  match r.route with
  | .plain relayUrls => if relayUrls = [] then .failed else .plain event (dedupe relayUrls)
  | .authed _ => .authed event .new

def step (r : PublishRequest ν) : Sending ν → PublishAction → Option (Sending ν × List (Sent ν))
  | .signing, .signed none => some (.failed, [])
  | .signing, .signed (some n) => some (r.begin (createSignedEvent r n), [])
  | .plain event connecting, .connected relayUrl ok =>
    if relayUrl ∈ connecting then
      some (.plain event (connecting.erase relayUrl), if ok then [⟨event, relayUrl⟩] else [])
    else none
  | .authed event socket, a =>
    match r.route with
    | .plain _ => none
    | .authed relayUrl =>
      (socket.step relayUrl event a).map fun o => (.authed event o.1, o.2)
  | _, _ => none

end PublishRequest

/-- `createSignedEvent` returns an event of the kind and content it was asked for, with the tags it
was asked for and the client tag behind them. -/
structure Stamps {ν : Type} (clientName : JsString)
    (createSignedEvent : PublishRequest ν → Nat → OutboundEvent ν) : Prop where
  kind : ∀ r n, (createSignedEvent r n).kind = r.kind
  content : ∀ r n, (createSignedEvent r n).content = r.content
  tags : ∀ r n, (createSignedEvent r n).tags =
    r.tags ++ [[.str (js "client"), .str clientName]]

namespace PublishRequest

variable {ν : Type} {createSignedEvent : PublishRequest ν → Nat → OutboundEvent ν}

/-- A publish goes on with an event that was signed for it, to relays of its route. -/
inductive Underway (createSignedEvent : PublishRequest ν → Nat → OutboundEvent ν)
    (r : PublishRequest ν) : Sending ν → Prop
  | signing : Underway createSignedEvent r .signing
  | plain (n : Nat) {connecting : List JsString} (h : ∀ url ∈ connecting, url ∈ r.route.relays) :
      Underway createSignedEvent r (.plain (createSignedEvent r n) connecting)
  | authed (n : Nat) (socket : AuthedSocket) :
      Underway createSignedEvent r (.authed (createSignedEvent r n) socket)
  | failed : Underway createSignedEvent r .failed

/-- A publish sends an event that was signed for it, or answers a challenge, and only to relays
of its route. -/
def Sends (createSignedEvent : PublishRequest ν → Nat → OutboundEvent ν) (r : PublishRequest ν)
    (x : Sent ν) : Prop :=
  x.relayUrl ∈ r.route.relays ∧ ((∃ n, x.event = createSignedEvent r n) ∨ x.event.kind = 22242)

end PublishRequest

namespace AuthedSocket

variable {ν : Type} {relayUrl : JsString} {event : OutboundEvent ν}

/-- What a socket sends goes to its relay, and is the event or the answer to a challenge. -/
def SendsTo (relayUrl : JsString) (event : OutboundEvent ν) (xs : List (Sent ν)) : Prop :=
  ∀ x ∈ xs, x.relayUrl = relayUrl ∧ (x.event = event ∨ x.event.kind = 22242)

theorem sendsTo_nil : SendsTo relayUrl event [] := fun _ hx => absurd hx List.not_mem_nil

theorem sendsTo_event : SendsTo relayUrl event [⟨event, relayUrl⟩] := by
  intro x hx
  rw [List.mem_singleton.mp hx]
  exact ⟨rfl, .inl rfl⟩

theorem resendEvent_sends (w : AuthedSocket) :
    SendsTo relayUrl event (w.resendEvent relayUrl event).2 := by
  unfold resendEvent
  split
  · exact sendsTo_nil
  · exact sendsTo_event

theorem sendAuth_sends (w : AuthedSocket) (authId : JsString) :
    SendsTo relayUrl event (w.sendAuth relayUrl authId).2 := by
  unfold sendAuth
  split
  · exact sendsTo_nil
  split
  · exact sendsTo_nil
  intro x hx
  rw [List.mem_singleton.mp hx]
  exact ⟨rfl, .inr rfl⟩

theorem message_sends (w : AuthedSocket) (authId : JsString) (m : RelayMessage) :
    SendsTo relayUrl event (w.message relayUrl event authId m).2 := by
  cases m with
  | AUTH challenge => exact sendsTo_nil
  | OK id accepted reason =>
    unfold message answered
    dsimp only
    split
    · split
      · exact resendEvent_sends w
      · exact sendsTo_nil
    split
    · split
      · exact sendsTo_nil
      split
      · split
        · exact sendAuth_sends w authId
        · exact sendsTo_nil
      · exact sendsTo_nil
    · exact sendsTo_nil

theorem step_sends {w : AuthedSocket} {a : PublishAction} {o : AuthedSocket × List (Sent ν)}
    (h : w.step relayUrl event a = some o) : SendsTo relayUrl event o.2 := by
  cases a with
  | opened =>
    obtain rfl := Option.some.inj h
    exact sendsTo_event
  | message m authId =>
    obtain rfl := Option.some.inj h
    exact message_sends w authId m
  | authWait authId =>
    simp only [step] at h
    split at h
    · obtain rfl := Option.some.inj h
      unfold waited
      split
      · exact sendAuth_sends _ authId
      · exact sendsTo_nil
    · cases h
  | fallback =>
    simp only [step] at h
    split at h
    · obtain rfl := Option.some.inj h
      exact resendEvent_sends w
    · cases h
  | timeout | error =>
    obtain rfl := Option.some.inj h
    exact sendsTo_nil
  | signed _ | connected _ _ => cases h

end AuthedSocket

namespace PublishRequest

variable {ν : Type} {createSignedEvent : PublishRequest ν → Nat → OutboundEvent ν}

theorem begin_underway (r : PublishRequest ν) (n : Nat) :
    Underway createSignedEvent r (r.begin (createSignedEvent r n)) := by
  unfold begin
  split
  · rename_i relayUrls hroute
    split
    · exact .failed
    · refine .plain n fun url hurl => ?_
      rw [hroute]
      exact mem_dedupe.mp hurl
  · exact .authed n .new

/-- One step of a publish: what it sends, and that it stays underway. -/
theorem step_underway {r : PublishRequest ν} {sending : Sending ν} {a : PublishAction}
    {o : Sending ν × List (Sent ν)} (h : Underway createSignedEvent r sending)
    (hs : r.step createSignedEvent sending a = some o) :
    Underway createSignedEvent r o.1 ∧ ∀ x ∈ o.2, r.Sends createSignedEvent x := by
  cases h with
  | signing =>
    cases a with
    | signed answer =>
      cases answer with
      | none =>
        obtain rfl := Option.some.inj hs
        exact ⟨.failed, fun x hx => absurd hx List.not_mem_nil⟩
      | some n =>
        obtain rfl := Option.some.inj hs
        exact ⟨begin_underway r n, fun x hx => absurd hx List.not_mem_nil⟩
    | _ => cases hs
  | plain n hrelays =>
    cases a with
    | connected relayUrl ok =>
      simp only [step] at hs
      split at hs
      · rename_i hmem
        obtain rfl := Option.some.inj hs
        refine ⟨.plain n fun url hurl => hrelays url (List.mem_of_mem_erase hurl), fun x hx => ?_⟩
        dsimp only at hx
        split at hx
        · rw [List.mem_singleton.mp hx]
          exact ⟨hrelays relayUrl hmem, .inl ⟨n, rfl⟩⟩
        · cases hx
      · cases hs
    | _ => cases hs
  | authed n socket =>
    simp only [step] at hs
    split at hs
    · cases hs
    rename_i relayUrl hroute
    obtain ⟨o', ho', rfl⟩ := Option.map_eq_some_iff.mp hs
    refine ⟨.authed n _, fun x hx => ?_⟩
    obtain ⟨hrelay, hevent⟩ := AuthedSocket.step_sends ho' x hx
    refine ⟨?_, hevent.imp_left fun he => ⟨n, he⟩⟩
    rw [hroute, hrelay]
    exact List.mem_singleton.mpr rfl
  | failed => cases a <;> cases hs

end PublishRequest

end LivelierBridge.Nostr
