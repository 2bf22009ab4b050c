import LivelierBridge.Nostr.SignedEvents

namespace LivelierBridge.Nostr

open Framework Js

/-- The signing library with what its verification stands for. -/
structure EventCrypto (σ : Type) extends Signing σ where
  /-- The hash of the serialized event without its id and signature. -/
  getEventHash : (pubkey : JsString) → (created_at kind : Int) → (tags : List (List JsString)) →
    (content : JsString) → JsString
  schnorrVerify : (sig id pubkey : JsString) → Bool

namespace EventCrypto

variable {σ : Type} (K : EventCrypto σ)

/-- The id is the hash of the event's own fields and its author has signed it. -/
def Authentic (e : Event) : Prop :=
  e.id = K.getEventHash e.pubkey e.created_at e.kind e.tags e.content ∧
    K.schnorrVerify e.sig e.id e.pubkey = true

instance (e : Event) : Decidable (K.Authentic e) := inferInstanceAs (Decidable (_ ∧ _))

/-- Only authentic events verify, and what is signed here verifies. -/
structure Sound : Prop where
  authentic : ∀ e, K.verifyEvent e = true → K.Authentic e
  verifies : ∀ g t n, K.verifyEvent (K.signEvent g t n) = true

theorem Sound.signed {K : EventCrypto σ} (h : K.Sound) (g : σ) (t : EventTemplate) (n : Nat) :
    K.Authentic (K.signEvent g t n) := h.authentic _ (h.verifies g t n)

end EventCrypto

/-- An event as a relay sends it: an id, key or signature that is no string is absent, and
`scannedId` is the id that nostr-tools reads from the message before it parses it. -/
structure WireEvent where
  scannedId : JsString
  id : Option JsString
  pubkey : Option JsString
  sig : Option JsString
  created_at : Int
  kind : Int
  tags : List (List JsString)
  content : JsString

/-- The event, when its id, key and signature are texts of the right length. -/
def WireEvent.shaped (w : WireEvent) : Option Event :=
  match w.id, w.pubkey, w.sig with
  | some id, some pubkey, some sig =>
    if id.length ≠ 64 ∨ pubkey.length ≠ 64 ∨ sig.length ≠ 128 then none
    else some ⟨id, pubkey, w.created_at, w.kind, w.tags, w.content, sig⟩
  | _, _, _ => none

/-- An event as an honest relay sends it on. -/
def Event.wire (e : Event) : WireEvent :=
  ⟨e.id, some e.id, some e.pubkey, some e.sig, e.created_at, e.kind, e.tags, e.content⟩

def MAX_VERIFIED_IDS : Nat := 20000

/-- The ids that were verified, oldest first. -/
structure EventVerifier where
  verifiedIds : OrderedMap JsString Unit

namespace EventVerifier

def init : EventVerifier := ⟨.empty⟩

def rememberVerified (v : EventVerifier) (id : JsString) : EventVerifier :=
  let kept := if MAX_VERIFIED_IDS ≤ v.verifiedIds.size then v.verifiedIds.dropFirst else v.verifiedIds
  ⟨kept.set id ()⟩

/-- For an event the client itself just signed. -/
def markEventVerified (v : EventVerifier) (id : JsString) : EventVerifier := v.rememberVerified id

/-- The event, if it passes: the signature is checked only when the id is new. -/
def cachedVerifyEvent (verifyEventPure : Event → Bool) (v : EventVerifier) (w : WireEvent) :
    Option Event × EventVerifier :=
  match w.shaped with
  | none => (none, v)
  | some event =>
    if v.verifiedIds.has event.id then (some event, v)
    else if verifyEventPure event then (some event, v.rememberVerified event.id)
    else (none, v)

/-- An event that passes has a verified id or a signature that was just checked. -/
theorem cachedVerifyEvent_passes {verifyEventPure : Event → Bool} {v : EventVerifier}
    {w : WireEvent} {e : Event} (h : (v.cachedVerifyEvent verifyEventPure w).1 = some e) :
    w.shaped = some e ∧ (v.verifiedIds.has e.id = true ∨ verifyEventPure e = true) := by
  unfold cachedVerifyEvent at h
  split at h
  · cases h
  · rename_i event hw
    split at h
    · rename_i hknown
      obtain rfl : event = e := Option.some.inj h
      exact ⟨hw, .inl hknown⟩
    · split at h
      · rename_i hok
        obtain rfl : event = e := Option.some.inj h
        exact ⟨hw, .inr hok⟩
      · cases h

end EventVerifier

end LivelierBridge.Nostr
