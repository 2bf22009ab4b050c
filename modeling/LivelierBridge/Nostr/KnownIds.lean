import LivelierBridge.Nostr.EventVerifier

namespace LivelierBridge.Nostr

open Framework Js

/-- A relay message of an event; the id that is asked for is the id of the event in it. -/
structure EventMessage extends WireEvent where
  scanned : ∀ e ∈ toWireEvent.shaped, e.id = scannedId

/-- One `subscribe()`, with the verifier of its client. -/
structure Subscription where
  verifier : EventVerifier
  /-- The ids that any relay of the subscription has sent. -/
  knownIds : List JsString
  /-- The relays with an open REQ. -/
  activeSubs : List JsString
  callerClosed : Bool
  /-- What `onevent` was called with. -/
  events : List Event

inductive SubscriptionAction where
  /-- A relay is connected and gets its REQ, at first or for a retry. -/
  | opened (url : JsString)
  /-- A relay ends its REQ. -/
  | ended (url : JsString)
  | message (url : JsString) (m : EventMessage)
  /-- The client verifies an event for another request. -/
  | verified (w : WireEvent)
  /-- The client publishes an event that it has signed. -/
  | published (id : JsString)
  | close

namespace Subscription

variable (urls : List JsString) (verifyEventPure matchFilters : Event → Bool)

def init (verifier : EventVerifier) : Subscription := ⟨verifier, [], [], false, []⟩

/-- What a verifier lets through to `onevent` of a message whose id is new. -/
def offered (v : EventVerifier) (m : EventMessage) : Option Event :=
  (v.cachedVerifyEvent verifyEventPure m.toWireEvent).1.filter matchFilters

/-- The message loop asks `alreadyHaveEvent`, and only then verifies and matches. -/
def receive (s : Subscription) (m : EventMessage) : Subscription :=
  if m.scannedId ∈ s.knownIds then s
  else
    { s with
      knownIds := m.scannedId :: s.knownIds
      verifier := (s.verifier.cachedVerifyEvent verifyEventPure m.toWireEvent).2
      events := s.events ++ (offered verifyEventPure matchFilters s.verifier m).toList }

/-- One step of the subscription. -/
def step (s : Subscription) : SubscriptionAction → Option Subscription
  | .opened url =>
    if url ∈ urls ∧ s.callerClosed = false then some { s with activeSubs := url :: s.activeSubs }
    else none
  | .ended url => some { s with activeSubs := s.activeSubs.erase url }
  | .message url m =>
    if url ∈ s.activeSubs then some (s.receive verifyEventPure matchFilters m) else none
  | .verified w =>
    some { s with verifier := (s.verifier.cachedVerifyEvent verifyEventPure w).2 }
  | .published id => some { s with verifier := s.verifier.markEventVerified id }
  | .close => some { s with callerClosed := true, activeSubs := [] }

/-- The messages that arrived while the subscription was open. -/
def messagesOf (as : List SubscriptionAction) : List EventMessage :=
  as.filterMap fun
    | .message _ m => some m
    | _ => none

/-- The message has a valid event that matches the filters. -/
def proper (m : EventMessage) : Bool :=
  m.shaped.any fun e => verifyEventPure e && matchFilters e

/-- `onevent` was called once for the id, with a valid event that matches. -/
def ReachedOnce (s : Subscription) (id : JsString) : Prop :=
  ∃ e, s.events.filter (fun e => e.id = id) = [e] ∧ verifyEventPure e = true ∧
    matchFilters e = true

/-- Each event that some relay delivered properly reached `onevent` once. -/
def Unsuppressed (as : List SubscriptionAction) (s : Subscription) : Prop :=
  ∀ m ∈ messagesOf as, proper verifyEventPure matchFilters m = true →
    s.ReachedOnce verifyEventPure matchFilters m.scannedId

/-- When some relay delivers an event properly, the first message with its id is proper. -/
def ProperFirst (as : List SubscriptionAction) : Prop :=
  ∀ m ∈ messagesOf as, proper verifyEventPure matchFilters m = true →
    ∀ first ∈ (messagesOf as).find? fun m' => m'.scannedId = m.scannedId,
      proper verifyEventPure matchFilters first = true

instance (as : List SubscriptionAction) :
    Decidable (ProperFirst verifyEventPure matchFilters as) :=
  inferInstanceAs (Decidable (∀ m ∈ messagesOf as, proper verifyEventPure matchFilters m = true →
    ∀ first ∈ (messagesOf as).find? fun m' => m'.scannedId = m.scannedId,
      proper verifyEventPure matchFilters first = true))

section Offered

variable {verifyEventPure matchFilters} {v : EventVerifier} {m : EventMessage} {e : Event}

theorem offered_shaped (h : offered verifyEventPure matchFilters v m = some e) :
    m.shaped = some e ∧ matchFilters e = true := by
  obtain ⟨hpassed, hmatches⟩ := Option.filter_eq_some_iff.mp h
  exact ⟨(EventVerifier.cachedVerifyEvent_passes hpassed).1, hmatches⟩

theorem offered_id (h : offered verifyEventPure matchFilters v m = some e) : e.id = m.scannedId :=
  m.scanned e (offered_shaped h).1

/-- A proper message passes, whatever the verifier has seen. -/
theorem offered_of_proper (h : proper verifyEventPure matchFilters m = true) :
    ∃ e, offered verifyEventPure matchFilters v m = some e ∧ verifyEventPure e = true ∧
      matchFilters e = true := by
  obtain ⟨e, hshaped, hproper⟩ := (Option.any_eq_true _ _).mp h
  obtain ⟨hverify, hmatches⟩ := Bool.and_eq_true_iff.mp hproper
  refine ⟨e, Option.filter_eq_some_iff.mpr ⟨?_, hmatches⟩, hverify, hmatches⟩
  unfold EventVerifier.cachedVerifyEvent
  rw [hshaped]
  dsimp only
  rw [if_pos hverify]
  split
  · rfl
  · rfl

/-- What passes with a valid signature was proper. -/
theorem proper_of_offered (h : offered verifyEventPure matchFilters v m = some e)
    (hverify : verifyEventPure e = true) : proper verifyEventPure matchFilters m = true := by
  obtain ⟨hshaped, hmatches⟩ := offered_shaped h
  simp [proper, hshaped, hverify, hmatches]

end Offered

/-- The known ids are those of the messages so far, and `onevent` saw of each id what the first of
its messages gave. -/
structure Recorded (as : List SubscriptionAction) (s : Subscription) : Prop where
  known : ∀ id, id ∈ s.knownIds ↔ ∃ m ∈ messagesOf as, m.scannedId = id
  reached : ∀ id, ∃ v, s.events.filter (fun e => e.id = id) =
    (((messagesOf as).find? fun m => m.scannedId = id).bind
      (offered verifyEventPure matchFilters v)).toList

section Run

variable {verifyEventPure matchFilters} {urls} {as : List SubscriptionAction}
  {s s' : Subscription}

theorem Recorded.same (h : Recorded verifyEventPure matchFilters as s) {a : SubscriptionAction}
    (hmessages : messagesOf (as ++ [a]) = messagesOf as) (hknown : s'.knownIds = s.knownIds)
    (hevents : s'.events = s.events) : Recorded verifyEventPure matchFilters (as ++ [a]) s' := by
  constructor
  · rw [hmessages, hknown]
    exact h.known
  · rw [hmessages, hevents]
    exact h.reached

theorem Recorded.receive (h : Recorded verifyEventPure matchFilters as s) (url : JsString)
    (m : EventMessage) : Recorded verifyEventPure matchFilters (as ++ [.message url m])
      (s.receive verifyEventPure matchFilters m) := by
  have hmessages : messagesOf (as ++ [.message url m]) = messagesOf as ++ [m] := by
    simp [messagesOf]
  -- the first message of an id that has one stays the first
  have hfind {id : JsString} (hid : ∃ m ∈ messagesOf as, m.scannedId = id) :
      (messagesOf as ++ [m]).find? (fun m => m.scannedId = id) =
        (messagesOf as).find? fun m => m.scannedId = id := by
    obtain ⟨m', hm', hscanned⟩ := hid
    have hsome : ((messagesOf as).find? fun m => m.scannedId = id).isSome = true :=
      List.find?_isSome.mpr ⟨m', hm', by simpa using hscanned⟩
    rw [List.find?_append, Option.or_of_isSome hsome]
  unfold Subscription.receive
  split
  · rename_i hknown
    constructor
    · intro id
      rw [h.known, hmessages]
      constructor
      · rintro ⟨m', hm', hid⟩
        exact ⟨m', List.mem_append_left _ hm', hid⟩
      · rintro ⟨m', hm', hid⟩
        rcases List.mem_append.mp hm' with hm' | hm'
        · exact ⟨m', hm', hid⟩
        · obtain rfl := List.mem_singleton.mp hm'
          rw [← hid]
          exact (h.known _).mp hknown
    · intro id
      obtain ⟨v, hreached⟩ := h.reached id
      refine ⟨v, ?_⟩
      rw [hreached, hmessages]
      by_cases hid : ∃ m ∈ messagesOf as, m.scannedId = id
      · rw [hfind hid]
      · have hne : m.scannedId ≠ id := fun heq => hid (heq ▸ (h.known _).mp hknown)
        rw [List.find?_append]
        simp [hne]
  · rename_i hnew
    constructor
    · intro id
      rw [List.mem_cons, h.known, hmessages]
      constructor
      · rintro (rfl | ⟨m', hm', hid⟩)
        · exact ⟨m, List.mem_append_right _ List.mem_cons_self, rfl⟩
        · exact ⟨m', List.mem_append_left _ hm', hid⟩
      · rintro ⟨m', hm', hid⟩
        rcases List.mem_append.mp hm' with hm' | hm'
        · exact .inr ⟨m', hm', hid⟩
        · obtain rfl := List.mem_singleton.mp hm'
          exact .inl hid.symm
    · intro id
      rw [hmessages]
      dsimp only
      rw [List.filter_append]
      by_cases hid : m.scannedId = id
      · -- the first message of its id
        subst hid
        obtain ⟨v, hreached⟩ := h.reached m.scannedId
        have hnone : (messagesOf as).find? (fun m' => m'.scannedId = m.scannedId) = none := by
          rw [List.find?_eq_none]
          intro m' hm' hid
          exact hnew ((h.known _).mpr ⟨m', hm', by simpa using hid⟩)
        refine ⟨s.verifier, ?_⟩
        rw [hreached, hnone, List.find?_append, hnone]
        cases hoffered : offered verifyEventPure matchFilters s.verifier m with
        | none => simp [hoffered]
        | some e => simp [hoffered, offered_id hoffered]
      · obtain ⟨v, hreached⟩ := h.reached id
        refine ⟨v, ?_⟩
        rw [hreached, List.find?_append]
        cases hoffered : offered verifyEventPure matchFilters s.verifier m with
        | none => simp [hid]
        | some e => simp [hid, offered_id hoffered]

theorem step_recorded {a : SubscriptionAction} (h : Recorded verifyEventPure matchFilters as s)
    (hs : step urls verifyEventPure matchFilters s a = some s') :
    Recorded verifyEventPure matchFilters (as ++ [a]) s' := by
  have hquiet (hnone : ∀ url m, a ≠ .message url m) : messagesOf (as ++ [a]) = messagesOf as := by
    cases a with
    | message url m => exact absurd rfl (hnone url m)
    | _ => simp [messagesOf]
  cases a with
  | opened url =>
    simp only [step] at hs
    split at hs
    · obtain rfl := Option.some.inj hs
      exact h.same (hquiet (by simp)) rfl rfl
    · cases hs
  | message url m =>
    simp only [step] at hs
    split at hs
    · obtain rfl := Option.some.inj hs
      exact h.receive url m
    · cases hs
  | ended _ | verified _ | published _ | close =>
    obtain rfl := Option.some.inj hs
    exact h.same (hquiet (by simp)) rfl rfl

/-- In every run, every properly delivered event reaches `onevent` once exactly when the first
message with its id is a proper one. -/
theorem unsuppressed_iff {v : EventVerifier} {t : Subscription}
    (hr : run (step urls verifyEventPure matchFilters) (init v) as = some t) :
    t.Unsuppressed verifyEventPure matchFilters as ↔
      ProperFirst verifyEventPure matchFilters as := by
  have hinit : Recorded verifyEventPure matchFilters [] (init v) :=
    ⟨fun id => by simp [init, messagesOf], fun id => ⟨v, rfl⟩⟩
  have hrecorded := run_history hinit (fun _ _ _ _ _ hi hs => step_recorded hi hs) hr
  constructor
  · intro h m hm hproper first hfirst
    obtain ⟨e, hevents, hverify, -⟩ := h m hm hproper
    obtain ⟨v', hreached⟩ := hrecorded.reached m.scannedId
    rw [hevents, Option.mem_def.mp hfirst, Option.bind_some] at hreached
    have hoffered : offered verifyEventPure matchFilters v' first = some e := by
      cases ho : offered verifyEventPure matchFilters v' first with
      | none => simp [ho] at hreached
      | some e' => simpa [ho] using hreached.symm
    exact proper_of_offered hoffered hverify
  · intro h m hm hproper
    obtain ⟨v', hreached⟩ := hrecorded.reached m.scannedId
    have hsome : ((messagesOf as).find? fun m' => m'.scannedId = m.scannedId).isSome = true :=
      List.find?_isSome.mpr ⟨m, hm, by simp⟩
    obtain ⟨first, hfirst⟩ := Option.isSome_iff_exists.mp hsome
    obtain ⟨e, hoffered, hverify, hmatches⟩ :=
      offered_of_proper (v := v') (h m hm hproper first hfirst)
    refine ⟨e, ?_, hverify, hmatches⟩
    rw [hreached, hfirst, Option.bind_some, hoffered, Option.toList_some]

end Run

/-- An event with an id and keys of the right lengths, and the message that carries it. -/
def demoMessage (sig : UInt16) : EventMessage where
  scannedId := List.replicate 64 0
  id := some (List.replicate 64 0)
  pubkey := some (List.replicate 64 0)
  sig := some (List.replicate 128 sig)
  created_at := 0
  kind := 1311
  tags := []
  content := js "hello"
  scanned := by
    intro e he
    obtain rfl := Option.some.inj (Option.mem_def.mp he)
    rfl

/-- Of the two signatures the first is valid. -/
def demoVerify (e : Event) : Bool := e.sig = List.replicate 128 1

/-- Two relays deliver the event, one of them with the signature given. -/
def demoDeliveries (sig : UInt16) : List SubscriptionAction :=
  [.opened (js "ws://a"), .opened (js "ws://b"), .message (js "ws://a") (demoMessage sig),
    .message (js "ws://b") (demoMessage 1)]

theorem unsuppressed_iff_delivered_twice :
    ∃ t, run (step [js "ws://a", js "ws://b"] demoVerify fun _ => true) (init .init)
        (demoDeliveries 1) = some t ∧
      t.Unsuppressed demoVerify (fun _ => true) (demoDeliveries 1) := by
  have hrun : (run (step [js "ws://a", js "ws://b"] demoVerify fun _ => true) (init .init)
      (demoDeliveries 1)).isSome = true := by decide +kernel
  obtain ⟨t, ht⟩ := Option.isSome_iff_exists.mp hrun
  exact ⟨t, ht, (unsuppressed_iff ht).mpr (by decide +kernel)⟩

/-- A relay that sends the id with a forged signature first keeps the event from `onevent`. -/
theorem unsuppressed_fails_forged :
    ¬ ∀ t, run (step [js "ws://a", js "ws://b"] demoVerify fun _ => true) (init .init)
        (demoDeliveries 2) = some t →
      t.Unsuppressed demoVerify (fun _ => true) (demoDeliveries 2) := by
  intro h
  have hrun : (run (step [js "ws://a", js "ws://b"] demoVerify fun _ => true) (init .init)
      (demoDeliveries 2)).map (fun t => t.events) = some [] := by decide +kernel
  obtain ⟨t, ht, hevents⟩ := Option.map_eq_some_iff.mp hrun
  have hmem : demoMessage 1 ∈ messagesOf (demoDeliveries 2) := by simp [messagesOf, demoDeliveries]
  obtain ⟨e, he, -⟩ := h t ht (demoMessage 1) hmem (by decide +kernel)
  rw [hevents] at he
  cases he

end Subscription

end LivelierBridge.Nostr
