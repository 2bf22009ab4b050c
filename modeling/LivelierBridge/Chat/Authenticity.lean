import LivelierBridge.Chat.Sourced
import LivelierBridge.Nostr.EventVerifier
import LivelierBridge.Nostr.ProfileRequests
import LivelierBridge.Owncast.Frames

namespace LivelierBridge.Chat

open Framework Js Nostr

/-- A chat subscription: the ids it has seen, and the time from which its filter asks. -/
structure ChatSubscription where
  knownIds : List JsString
  since : Int

/-- The kinds that a firehose asks for. -/
def firehoseKinds : Via → List Int
  | .local => [1311]
  | .network => [1311, 1312, 1313]

def ChatSubscription.matches (sub : ChatSubscription) (via : Via) (event : Event) : Bool :=
  event.kind ∈ firehoseKinds via ∧ sub.since ≤ event.created_at

/-- What the bridge keeps of the events it reads. -/
structure IngestState (ν : Type) where
  verifier : EventVerifier
  subscription : Via → ChatSubscription
  chat : InboundState
  profiles : ProfileState ν

inductive IngestAction (σ τ : Type) where
  /-- A firehose is opened, or opened again. -/
  | subscribe (via : Via) (since : Int)
  /-- Some relay of a firehose sends an event. -/
  | chatEvent (via : Via) (w : WireEvent)
  /-- The chat service goes on by itself. -/
  | chat (a : InboundAction τ)
  | dispatch (pubkeys : List JsString)
  /-- Some relay answers the query of a dispatch. -/
  | profileEvent (f : Nat) (w : WireEvent)
  | endTier (f : Nat)
  /-- The loader's cache drops an event. -/
  | evict (pubkey : JsString)
  /-- The bridge publishes an event it has signed. -/
  | publish (signer : σ) (template : EventTemplate) (n : Nat)
  /-- A relay has accepted it. -/
  | prime (signer : σ) (template : EventTemplate) (n : Nat)

def InboundAction.fromRelay {τ : Type} : InboundAction τ → Bool
  | .nostrEvent _ _ => true
  | _ => false

namespace IngestState

variable {σ τ ν : Type} [JsNumber ν]

def init : IngestState ν := ⟨.init, fun _ => ⟨[], 0⟩, .init, .init⟩

/-- The id of an event that arrives on a firehose is known from then on. -/
def learnId (s : IngestState ν) (via : Via) (id : JsString) : IngestState ν :=
  { s with
    subscription := Function.update s.subscription via
      { s.subscription via with knownIds := id :: (s.subscription via).knownIds } }

/-- The relay connection verifies an event and matches it against the filter of its request
before it hands it on. -/
def accept (K : EventCrypto σ) (s : IngestState ν) (filter : Event → Bool) (w : WireEvent) :
    Option Event × IngestState ν :=
  let (passed, verifier) := s.verifier.cachedVerifyEvent K.verifyEvent w
  (passed.filter filter, { s with verifier })

def chatEvent (τ : Type) (K : EventCrypto σ) (cfg : InboundConfig) (s : IngestState ν) (via : Via)
    (w : WireEvent) : Option (IngestState ν) :=
  if w.scannedId ∈ (s.subscription via).knownIds then some s
  else
    match (s.learnId via w.scannedId).accept K ((s.subscription via).matches via) w with
    | (none, s) => some s
    | (some event, s) =>
      (InboundState.next cfg s.chat (.nostrEvent via event : InboundAction τ)).map fun chat =>
        { s with chat }

def profileEvent (K : EventCrypto σ) (s : IngestState ν) (f : Nat) (fetch : ProfileFetch)
    (w : WireEvent) : IngestState ν :=
  match s.accept K fetch.query.matches w with
  | (none, s) => s
  | (some event, s) => { s with profiles := s.profiles.receive f fetch event }

def step (K : EventCrypto σ) (cfg : InboundConfig) (s : IngestState ν) :
    IngestAction σ τ → Option (IngestState ν)
  | .subscribe via since =>
    some { s with subscription := Function.update s.subscription via ⟨[], since⟩ }
  | .chatEvent via w => s.chatEvent τ K cfg via w
  | .chat a =>
    if a.fromRelay then none
    else (InboundState.next cfg s.chat a).map fun chat => { s with chat }
  | .dispatch pubkeys => some { s with profiles := s.profiles.dispatch pubkeys }
  | .profileEvent f w =>
    s.profiles.fetches[f]?.bind fun fetch =>
      if fetch.tier.asking then some (s.profileEvent K f fetch w) else none
  | .endTier f =>
    s.profiles.fetches[f]?.bind fun fetch =>
      (s.profiles.endTier f fetch).map fun profiles => { s with profiles }
  | .evict pubkey =>
    some { s with profiles := { s.profiles with
      loaderCache := s.profiles.loaderCache.delete pubkey } }
  | .publish signer template n =>
    some { s with verifier := s.verifier.markEventVerified (K.signEvent signer template n).id }
  | .prime signer template n =>
    let event := K.signEvent signer template n
    if event.kind ≠ 0 then some s
    else
      some { s with profiles := { s.profiles with
        loaderCache := s.profiles.loaderCache.set event.pubkey event } }

/-- All that was delivered into a source chat, and all that was applied to the profile cache, is
authentic. -/
def Authenticated (K : EventCrypto σ) (s : IngestState ν) : Prop :=
  (∀ e ∈ s.chat.sent, K.Authentic e) ∧ ∀ x ∈ s.profiles.stored, K.Authentic x.1

/-- An event that repeats a verified id, and that no other check drops, is authentic. -/
def Untampered (K : EventCrypto σ) (cfg : InboundConfig) (s : IngestState ν) :
    IngestAction σ τ → Prop
  | .chatEvent via w =>
    w.scannedId ∉ (s.subscription via).knownIds → ∀ e ∈ w.shaped,
      s.verifier.verifiedIds.has e.id = true → (s.subscription via).matches via e = true →
        s.chat.Admitted cfg e → K.Authentic e
  | .profileEvent f w =>
    ∀ fetch ∈ s.profiles.fetches[f]?, ∀ e ∈ w.shaped,
      s.verifier.verifiedIds.has e.id = true → fetch.query.matches e = true →
        e.id ∉ fetch.query.knownIds → K.Authentic e
  | _ => True

instance (K : EventCrypto σ) (cfg : InboundConfig) (s : IngestState ν) (a : IngestAction σ τ) :
    Decidable (s.Untampered K cfg a) := by
  cases a <;> unfold Untampered <;> infer_instance

/-- Every event on its way to a source chat or to the profile cache is authentic. -/
structure Sourced (K : EventCrypto σ) (s : IngestState ν) : Prop where
  chat : s.chat.Sourced K.Authentic
  profiles : s.profiles.Sourced K.Authentic

section Step

variable {K : EventCrypto σ} {cfg : InboundConfig} {s s' : IngestState ν}

omit [JsNumber ν] in
theorem accept_passes {filter : Event → Bool} {w : WireEvent} {e : Event}
    (h : (s.accept K filter w).1 = some e) :
    w.shaped = some e ∧ filter e = true ∧
      (s.verifier.verifiedIds.has e.id = true ∨ K.verifyEvent e = true) := by
  obtain ⟨hpassed, hfilter⟩ := Option.filter_eq_some_iff.mp h
  obtain ⟨hshaped, hverified⟩ := EventVerifier.cachedVerifyEvent_passes hpassed
  exact ⟨hshaped, hfilter, hverified⟩

omit [JsNumber ν] in
theorem chatEvent_sourced (hK : K.Sound) (h : s.Sourced K) {via : Via} {w : WireEvent}
    (hg : s.Untampered K cfg (.chatEvent via w : IngestAction σ τ))
    (hs : s.chatEvent τ K cfg via w = some s') : s'.Sourced K := by
  unfold chatEvent at hs
  split at hs
  · cases hs
    exact h
  · rename_i hnew
    have hlearn : (s.learnId via w.scannedId).Sourced K := ⟨h.chat, h.profiles⟩
    split at hs
    · rename_i s₁ hacc
      cases hs
      obtain rfl := congrArg Prod.snd hacc
      exact ⟨hlearn.chat, hlearn.profiles⟩
    · rename_i event s₁ hacc
      obtain ⟨hshaped, hmatches, hverified⟩ := accept_passes (congrArg Prod.fst hacc)
      obtain rfl := congrArg Prod.snd hacc
      obtain ⟨chat, hchat, rfl⟩ := Option.map_eq_some_iff.mp hs
      refine ⟨InboundState.next_sourced hlearn.chat ?_ hchat, hlearn.profiles⟩
      intro via' e he hadmitted
      obtain ⟨rfl, rfl⟩ : via = via' ∧ event = e := by simpa using he
      rcases hverified with hknown | hfresh
      · exact hg hnew event hshaped hknown hmatches hadmitted
      · exact hK.authentic event hfresh

theorem profileEvent_sourced (hK : K.Sound) (h : s.Sourced K) {f : Nat} {fetch : ProfileFetch}
    (hf : s.profiles.fetches[f]? = some fetch) {w : WireEvent}
    (hg : s.Untampered K cfg (.profileEvent f w : IngestAction σ τ)) :
    (s.profileEvent K f fetch w).Sourced K := by
  unfold profileEvent
  split
  · rename_i s₁ hacc
    obtain rfl := congrArg Prod.snd hacc
    exact ⟨h.chat, h.profiles⟩
  · rename_i event s₁ hacc
    obtain ⟨hshaped, hmatches, hverified⟩ := accept_passes (congrArg Prod.fst hacc)
    obtain rfl := congrArg Prod.snd hacc
    refine ⟨h.chat, ?_⟩
    refine h.profiles.receive f (List.mem_of_getElem? hf) fun hnew => ?_
    rcases hverified with hknown | hfresh
    · exact hg fetch hf event hshaped hknown hmatches hnew
    · exact hK.authentic event hfresh

theorem step_sourced (hK : K.Sound) (h : s.Sourced K) {a : IngestAction σ τ}
    (hg : s.Untampered K cfg a) (hs : step K cfg s a = some s') : s'.Sourced K := by
  cases a with
  | subscribe via since =>
    cases hs
    exact ⟨h.chat, h.profiles⟩
  | chatEvent via w => exact chatEvent_sourced hK h hg hs
  | chat a =>
    simp only [step] at hs
    split at hs
    · cases hs
    · rename_i hlocal
      obtain ⟨chat, hchat, rfl⟩ := Option.map_eq_some_iff.mp hs
      refine ⟨InboundState.next_sourced h.chat ?_ hchat, h.profiles⟩
      rintro via e rfl
      exact absurd rfl hlocal
  | dispatch pubkeys =>
    cases hs
    exact ⟨h.chat, h.profiles.dispatch pubkeys⟩
  | profileEvent f w =>
    obtain ⟨fetch, hf, hs⟩ := Option.bind_eq_some_iff.mp hs
    split at hs
    · cases hs
      exact profileEvent_sourced hK h hf hg
    · cases hs
  | endTier f =>
    obtain ⟨fetch, hf, hs⟩ := Option.bind_eq_some_iff.mp hs
    obtain ⟨profiles, hprofiles, rfl⟩ := Option.map_eq_some_iff.mp hs
    exact ⟨h.chat, h.profiles.endTier f (List.mem_of_getElem? hf) hprofiles⟩
  | evict pubkey =>
    cases hs
    exact ⟨h.chat, h.profiles.evict pubkey⟩
  | publish signer template n =>
    cases hs
    exact ⟨h.chat, h.profiles⟩
  | prime signer template n =>
    simp only [step] at hs
    split at hs
    · cases hs
      exact h
    · cases hs
      exact ⟨h.chat, h.profiles.prime _ (hK.signed signer template n)⟩

end Step

/-- In every run in which no tampered copy of a verified event gets past the other checks, all
that is delivered into a source chat or applied to the profile cache is authentic. -/
theorem untampered_authenticated (K : EventCrypto σ) (hK : K.Sound) (cfg : InboundConfig)
    (as : List (IngestAction σ τ)) (t : IngestState ν)
    (hg : Guarded (step K cfg) (Untampered K cfg) (init : IngestState ν) as)
    (hr : run (step K cfg) init as = some t) : t.Authenticated K := by
  have hinit : (init : IngestState ν).Sourced K :=
    ⟨InboundState.sourced_init, ProfileState.sourced_init⟩
  have ht : t.Sourced K := run_invariant (fun _ _ _ hs hg h => step_sourced hK hs hg h) hinit hg hr
  exact ⟨ht.chat.sent, ht.profiles.stored⟩

end IngestState

def demoPubkey : JsString := js "f9308a019258c31049344f85f89d5229b531c845836f99b08601f113bce036f9"

/-- The key's event "hi" in the demo room, with its hash and signature. -/
def honestEvent : Event where
  id := js "e8f589dc2e6791923788d790c9557679866059aded87b0561f8548f9f7f32d05"
  pubkey := demoPubkey
  created_at := 0
  kind := 1311
  tags := [[js "a", js "30311:b:oc"]]
  content := js "hi"
  sig := js ("e77d96bce12ab4b3ab18e4a90dc60082a8906bca9212f4ce06fab352a8d338ca" ++
    "29956477120bfbeb4441e24f0514d139eeeb7e5edc2242dc7bf65fe4e3dad78f")

/-- A copy that keeps the id and the signature and changes the text. -/
def tamperedEvent : Event := { honestEvent with content := js "buy" }

/-- The hashes of the two demo events; any other content is its own hash. -/
def demoHash (pubkey : JsString) (created_at kind : Int) (tags : List (List JsString))
    (content : JsString) : JsString :=
  if (pubkey, created_at, kind, tags) ≠ (demoPubkey, 0, 1311, honestEvent.tags) then content
  else if content = js "hi" then honestEvent.id
  else if content = js "buy" then
    js "730badcc5d039275a2ff77285b27f27af5d3a55f5ae0c86f0e49039f31d3a60e"
  else content

def demoSig (id : JsString) : JsString := if id = honestEvent.id then honestEvent.sig else id ++ id

/-- A library of one key that signs each id in one way. -/
def demoCrypto : EventCrypto Unit where
  getPublicKey _ := demoPubkey
  signEvent _ t _ :=
    let id := demoHash demoPubkey t.created_at t.kind t.tags t.content
    ⟨id, demoPubkey, t.created_at, t.kind, t.tags, t.content, demoSig id⟩
  verifyEvent e :=
    e.id = demoHash e.pubkey e.created_at e.kind e.tags e.content ∧
      (e.pubkey = demoPubkey ∧ e.sig = demoSig e.id)
  getEventHash := demoHash
  schnorrVerify sig id pubkey := pubkey = demoPubkey ∧ sig = demoSig id

theorem demoCrypto_sound : demoCrypto.Sound where
  authentic e h := by simpa [EventCrypto.Authentic, demoCrypto] using h
  verifies _ _ _ := by simp [demoCrypto]

namespace IngestState

/-- The room opens, and each firehose carries a copy; both copies are delivered. -/
def twoFirehoses (copy copy' : Event) : List (IngestAction Unit Unit) :=
  [.chat (.rooms .refreshRooms), .chat (.rooms (.rows 0 (some [⟨js "u", js "oc"⟩]))),
    .chatEvent .local copy.wire, .chatEvent .network copy'.wire,
    .chat (.deliver 0), .chat (.named 0 (some none)), .chat (.check 0), .chat (.rendered 0 ()),
    .chat (.settled 0),
    .chat (.deliver 0), .chat (.named 0 (some none)), .chat (.check 0)]

theorem untampered_authenticated_twoFirehoses :
    ∃ t : IngestState Int,
      run (step demoCrypto InboundState.demoConfig) init (twoFirehoses honestEvent honestEvent) = some t ∧
        t.chat.sent = [honestEvent] ∧ t.Authenticated demoCrypto := by
  have hrun : (run (step demoCrypto InboundState.demoConfig) (init : IngestState Int)
      (twoFirehoses honestEvent honestEvent)).map (fun t => t.chat.sent) = some [honestEvent] := by
    decide +kernel
  obtain ⟨t, ht, hsent⟩ := Option.map_eq_some_iff.mp hrun
  have hg : Guarded (step demoCrypto InboundState.demoConfig) (Untampered demoCrypto InboundState.demoConfig)
      (init : IngestState Int) (twoFirehoses honestEvent honestEvent) := by decide +kernel
  exact ⟨t, ht, hsent, untampered_authenticated demoCrypto demoCrypto_sound InboundState.demoConfig _ t hg ht⟩

/-- The network relay changes the text of an event that the local relay has shown: the verified
id lets the copy through, and it is delivered under the author's name. -/
theorem authenticated_fails_tampered_copy :
    ∃ t : IngestState Int,
      run (step demoCrypto InboundState.demoConfig) init
          (twoFirehoses honestEvent tamperedEvent ++ [.chat (.rendered 0 ())]) = some t ∧
        ¬ t.Authenticated demoCrypto := by
  have hrun : (run (step demoCrypto InboundState.demoConfig) (init : IngestState Int)
      (twoFirehoses honestEvent tamperedEvent ++ [.chat (.rendered 0 ())])).map
        (fun t => t.chat.sent) = some [tamperedEvent, honestEvent] := by
    decide +kernel
  obtain ⟨t, ht, hsent⟩ := Option.map_eq_some_iff.mp hrun
  refine ⟨t, ht, fun h => ?_⟩
  have hforged : demoCrypto.Authentic tamperedEvent := h.1 _ (hsent ▸ List.mem_cons_self)
  exact absurd hforged (by decide +kernel)

end IngestState

end LivelierBridge.Chat
