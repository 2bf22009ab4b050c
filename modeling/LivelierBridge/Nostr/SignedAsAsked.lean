import LivelierBridge.Nostr.SignedEvents

namespace LivelierBridge.Nostr

open Framework Js

namespace SigningState

variable {σ : Type}

/-- The event is what the call asked for: signed under its signer's key, with its kind, content
and tags plus the client tag. -/
structure Answers (lib : Signing σ) (clientName : Option JsString) (call : SigningCall σ)
    (e : Event) : Prop where
  pubkey : e.pubkey = lib.getPublicKey call.signer
  verifies : lib.verifyEvent e = true
  kind : e.kind = call.kind
  content : e.content = call.content
  tags : e.tags = finalTags clientName call.tags

/-- Every event a call returned is the one it asked for. -/
def SignedAsAsked (lib : Signing σ) (clientName : Option JsString) (s : SigningState σ) : Prop :=
  ∀ c call, s.calls[c]? = some call → ∀ e ∈ (s.phase c).event?, Answers lib clientName call e

/-- Equal but for the signer object, which counts by its public key. -/
def SameRequest (lib : Signing σ) (call call' : SigningCall σ) : Prop :=
  call.kind = call'.kind ∧ call.content = call'.content ∧ call.tags = call'.tags ∧
    lib.getPublicKey call.signer = lib.getPublicKey call'.signer

instance (lib : Signing σ) (call call' : SigningCall σ) : Decidable (SameRequest lib call call') :=
  inferInstanceAs (Decidable (_ ∧ _))

/-- The call that had the entry under this key signed, or is having it signed. -/
def ownerOf (s : SigningState σ) (key : JsString) : Option CallId :=
  match s.signedEventCache.get? key with
  | some cached => some cached.owner
  | none => s.inflightRequests.get? key

/-- A lookup that meets an entry meets one of the same request: no two different requests with
one hash are within reach of each other. -/
def NoCollision (lib : Signing σ) (s : SigningState σ) : SigningAction σ → Prop
  | .key c true => ∀ call ∈ s.calls[c]?, ∀ owner ∈ s.ownerOf (requestKey lib call),
      ∀ call' ∈ s.calls[owner]?, SameRequest lib call call'
  | _ => True

instance (lib : Signing σ) (s : SigningState σ) :
    (a : SigningAction σ) → Decidable (s.NoCollision lib a)
  | .key c true => inferInstanceAs (Decidable (∀ call ∈ s.calls[c]?, _))
  | .key _ false | .createSignedEvent _ | .signed _ _ | .finish _ | .share _ | .expire _
  | .tick _ => inferInstanceAs (Decidable True)

theorem Answers.same {lib : Signing σ} {clientName : Option JsString} {call call' : SigningCall σ}
    {e : Event} (h : Answers lib clientName call' e) (hs : SameRequest lib call call') :
    Answers lib clientName call e := by
  obtain ⟨hk, hc, ht, hp⟩ := hs
  exact ⟨hp ▸ h.pubkey, h.verifies, hk ▸ h.kind, hc ▸ h.content, ht ▸ h.tags⟩

/-- What a call waits for, or has, belongs to its request. -/
def PhaseOk (lib : Signing σ) (clientName : Option JsString) (s : SigningState σ)
    (call : SigningCall σ) : SigningPhase → Prop
  | .signing t => t.kind = call.kind ∧ t.content = call.content ∧
      t.tags = finalTags clientName call.tags
  | .inflight owner => ∃ call', s.calls[owner]? = some call' ∧ SameRequest lib call call'
  | .returned e => Answers lib clientName call e
  | .gettingKey | .rejected => True

structure SigningOk (lib : Signing σ) (clientName : Option JsString) (s : SigningState σ) :
    Prop where
  phase : ∀ c call, s.calls[c]? = some call → s.PhaseOk lib clientName call (s.phase c)
  promise : ∀ c e, s.promise c = some (some e) →
    ∃ call, s.calls[c]? = some call ∧ Answers lib clientName call e
  cached : ∀ key cached, s.signedEventCache.get? key = some cached →
    ∃ call, s.calls[cached.owner]? = some call ∧ Answers lib clientName call cached.event
  inflight : ∀ key owner, s.inflightRequests.get? key = some owner →
    ∃ call, s.calls[owner]? = some call

theorem init_signingOk (lib : Signing σ) (clientName : Option JsString) (now : Nat) :
    SigningOk lib clientName (init σ now) := by
  constructor <;> simp [init]

theorem SigningOk.signedAsAsked {lib : Signing σ} {clientName : Option JsString}
    {s : SigningState σ} (h : SigningOk lib clientName s) : SignedAsAsked lib clientName s := by
  intro c call hc e he
  have hp := h.phase c call hc
  cases hph : s.phase c <;> rw [hph] at he hp <;> simp [SigningPhase.event?] at he
  exact he ▸ hp

/-- A call moves to another phase. -/
theorem SigningOk.setPhase {lib : Signing σ} {clientName : Option JsString} {s : SigningState σ}
    (h : SigningOk lib clientName s) (c : CallId) (p : SigningPhase)
    (hp : ∀ call, s.calls[c]? = some call → s.PhaseOk lib clientName call p) :
    SigningOk lib clientName (s.setPhase c p) := by
  refine ⟨?_, h.promise, h.cached, h.inflight⟩
  intro c' call hc
  have hold : s.PhaseOk lib clientName call ((s.setPhase c p).phase c') := by
    by_cases he : c' = c
    · subst he
      simpa [SigningState.setPhase] using hp call hc
    · simpa [SigningState.setPhase, Function.update_of_ne he] using h.phase c' call hc
  exact hold

theorem getElem?_snoc {calls : List (SigningCall σ)} {c : CallId} {call new : SigningCall σ}
    (h : calls[c]? = some call) : (calls ++ [new])[c]? = some call := by
  rw [List.getElem?_append_left (List.getElem?_eq_some_iff.mp h).1, h]

theorem SigningOk.create {lib : Signing σ} {clientName : Option JsString} {s : SigningState σ}
    (h : SigningOk lib clientName s) (new : SigningCall σ) :
    SigningOk lib clientName
      { s.setPhase s.calls.length .gettingKey with calls := s.calls ++ [new] } := by
  refine ⟨?_, ?_, ?_, ?_⟩
  · intro c call hc
    by_cases he : c = s.calls.length
    · subst he
      simp [SigningState.setPhase, PhaseOk]
    · have hlt : c < s.calls.length := by
        have hlen : c < s.calls.length + 1 := by
          simpa only [List.length_append, List.length_singleton] using
            (List.getElem?_eq_some_iff.mp hc).1
        exact Nat.lt_of_le_of_ne (Nat.le_of_lt_succ hlen) he
      have hc' : s.calls[c]? = some call := by
        rw [← List.getElem?_append_left hlt]
        exact hc
      have hp := h.phase c call hc'
      simp only [SigningState.setPhase, Function.update_of_ne he]
      cases hph : s.phase c <;> rw [hph] at hp <;> try exact hp
      obtain ⟨call', ho, hs⟩ := hp
      exact ⟨call', getElem?_snoc ho, hs⟩
  · intro c e hp
    obtain ⟨call, hc, ha⟩ := h.promise c e hp
    exact ⟨call, getElem?_snoc hc, ha⟩
  · intro key cached hk
    obtain ⟨call, hc, ha⟩ := h.cached key cached hk
    exact ⟨call, getElem?_snoc hc, ha⟩
  · intro key owner hk
    obtain ⟨call, hc⟩ := h.inflight key owner hk
    exact ⟨call, getElem?_snoc hc⟩

theorem SigningOk.lookup {lib : Signing σ} {clientName : Option JsString} {s : SigningState σ}
    (h : SigningOk lib clientName s) {c : CallId} {call : SigningCall σ}
    (hc : s.calls[c]? = some call)
    (hg : ∀ owner ∈ s.ownerOf (requestKey lib call), ∀ call' ∈ s.calls[owner]?,
      SameRequest lib call call') : SigningOk lib clientName (s.lookup lib clientName c call) := by
  have this {call' : SigningCall σ} (hc' : s.calls[c]? = some call') : call' = call :=
    Option.some.inj (hc'.symm.trans hc)
  unfold SigningState.lookup
  dsimp only
  cases hcache : s.signedEventCache.get? (requestKey lib call) with
  | some cached =>
    refine h.setPhase c _ fun call' hc' => ?_
    obtain ⟨own, ho, ha⟩ := h.cached _ cached hcache
    rw [this hc']
    exact ha.same (hg cached.owner (by simp [ownerOf, hcache]) own ho)
  | none =>
    dsimp only
    cases hin : s.inflightRequests.get? (requestKey lib call) with
    | some owner =>
      refine h.setPhase c _ fun call' hc' => ?_
      obtain ⟨own, ho⟩ := h.inflight _ owner hin
      rw [this hc']
      exact ⟨own, ho, hg owner (by simp [ownerOf, hcache, hin]) own ho⟩
    | none =>
      have h' := h.setPhase c (.signing ⟨call.kind, call.content, finalTags clientName call.tags,
        (s.now / 1000 : Nat)⟩) fun call' hc' => by
          rw [this hc']
          exact ⟨rfl, rfl, rfl⟩
      refine ⟨h'.phase, h'.promise, h'.cached, ?_⟩
      intro key owner hk
      simp only [OrderedMap.get?_set] at hk
      split_ifs at hk
      · obtain rfl := Option.some.inj hk
        exact ⟨call, hc⟩
      · exact h.inflight key owner hk

theorem SigningOk.finish {lib : Signing σ} {clientName : Option JsString} {s : SigningState σ}
    (h : SigningOk lib clientName s) {c : CallId} {call : SigningCall σ}
    (hc : s.calls[c]? = some call) (key : JsString) {result : Option Event}
    (hr : s.promise c = some result) : SigningOk lib clientName (s.finish c key result) := by
  have removed (key' : JsString) (owner : CallId)
      (hk : (s.inflightRequests.delete key).get? key' = some owner) :
      ∃ call, s.calls[owner]? = some call := by
    rw [OrderedMap.get?_delete] at hk
    split_ifs at hk
    exact h.inflight key' owner hk
  cases result with
  | none =>
    have h' := h.setPhase c .rejected fun _ _ => trivial
    exact ⟨h'.phase, h'.promise, h'.cached, removed⟩
  | some e =>
    have hans : Answers lib clientName call e := by
      obtain ⟨call', hc', ha⟩ := h.promise c e hr
      exact Option.some.inj (hc'.symm.trans hc) ▸ ha
    have h' := h.setPhase c (.returned e) fun call' hc' => by
      rw [Option.some.inj (hc'.symm.trans hc)]
      exact hans
    refine ⟨h'.phase, h'.promise, ?_, removed⟩
    intro key' cached hk
    simp only [SigningState.finish, OrderedMap.get?_set] at hk
    split_ifs at hk
    · obtain rfl := Option.some.inj hk
      exact ⟨call, hc, hans⟩
    · exact h.cached key' cached hk

/-- A faithful signer answers the call whose template it signs. -/
theorem PhaseOk.answers {lib : Signing σ} (hl : lib.Faithful) {clientName : Option JsString}
    {s : SigningState σ} {call : SigningCall σ} {template : EventTemplate}
    (h : s.PhaseOk lib clientName call (.signing template)) (n : Nat) :
    Answers lib clientName call (lib.signEvent call.signer template n) := by
  obtain ⟨hk, hc, ht⟩ := h
  exact ⟨hl.pubkey _ _ _, hl.verifies _ _ _, (hl.kind _ _ _).trans hk,
    (hl.content _ _ _).trans hc, (hl.tags _ _ _).trans ht⟩

/-- A promise settles with an event that answers its call, or rejects. -/
theorem SigningOk.settle {lib : Signing σ} {clientName : Option JsString} {s : SigningState σ}
    (h : SigningOk lib clientName s) {c : CallId} {call : SigningCall σ}
    (hc : s.calls[c]? = some call) {result : Option Event}
    (hr : ∀ e ∈ result, Answers lib clientName call e) :
    SigningOk lib clientName
      { s with promise := Function.update s.promise c (some result) } := by
  refine ⟨h.phase, ?_, h.cached, h.inflight⟩
  intro c' e he
  by_cases hne : c' = c
  · subst hne
    simp only [Function.update_self, Option.some.injEq] at he
    exact ⟨call, hc, hr e he⟩
  · dsimp only at he
    rw [Function.update_of_ne hne] at he
    exact h.promise c' e he

/-- A call that waits for another one takes over what that one is settled with. -/
theorem SigningOk.share {lib : Signing σ} {clientName : Option JsString} {s : SigningState σ}
    (h : SigningOk lib clientName s) {c owner : CallId} (hp : s.phase c = .inflight owner)
    {result : Option Event} (hr : s.promise owner = some result) :
    SigningOk lib clientName (s.setPhase c (result.elim .rejected .returned)) := by
  apply h.setPhase c
  intro call hc
  cases result with
  | none => trivial
  | some e =>
    have hwaits := h.phase c call hc
    rw [hp] at hwaits
    obtain ⟨call', ho, hsame⟩ := hwaits
    obtain ⟨call'', ho', ha⟩ := h.promise owner e hr
    rw [Option.some.inj (ho'.symm.trans ho)] at ha
    exact ha.same hsame

theorem step_signingOk {lib : Signing σ} (hl : lib.Faithful) {clientName : Option JsString}
    {s s' : SigningState σ} {a : SigningAction σ} (h : SigningOk lib clientName s)
    (hg : s.NoCollision lib a) (hs : s.step lib clientName a = some s') :
    SigningOk lib clientName s' := by
  cases a with
  | createSignedEvent call =>
    obtain rfl := Option.some.inj hs
    exact h.create call
  | key c ok =>
    simp only [step] at hs
    split at hs
    case _ call hc hp =>
      obtain rfl := Option.some.inj hs
      cases ok with
      | false => exact h.setPhase c .rejected fun _ _ => trivial
      | true => exact h.lookup hc (hg call hc)
    case _ => cases hs
  | signed c answer =>
    simp only [step] at hs
    split at hs
    case _ call template hc hp hn =>
      obtain rfl := Option.some.inj hs
      apply h.settle hc
      intro e he
      obtain ⟨n, -, rfl⟩ := Option.map_eq_some_iff.mp he
      have htemplate := h.phase c call hc
      rw [hp] at htemplate
      exact htemplate.answers hl n
    case _ => cases hs
  | finish c =>
    simp only [step] at hs
    split at hs
    case _ call template result hc hp hr =>
      obtain rfl := Option.some.inj hs
      exact h.finish hc _ hr
    case _ => cases hs
  | share c =>
    simp only [step] at hs
    split at hs
    case _ owner hp =>
      obtain ⟨result, hr, rfl⟩ := Option.map_eq_some_iff.mp hs
      exact h.share hp hr
    case _ => cases hs
  | expire key =>
    simp only [step] at hs
    split at hs
    case _ t ht =>
      obtain rfl := Option.some.inj hs
      refine ⟨h.phase, h.promise, ?_, h.inflight⟩
      intro key' cached hk
      simp only [OrderedMap.get?_delete] at hk
      split_ifs at hk
      exact h.cached key' cached hk
    case _ => cases hs
  | tick ms =>
    obtain rfl := Option.some.inj hs
    exact ⟨h.phase, h.promise, h.cached, h.inflight⟩

/-- As long as no two different requests with one hash meet within the cache window, every call
gets the event it asked for. -/
theorem noCollision_signedAsAsked {lib : Signing σ} (hl : lib.Faithful)
    (clientName : Option JsString) (now : Nat) {as : List (SigningAction σ)} {t : SigningState σ}
    (hg : Guarded (step lib clientName) (NoCollision lib) (init σ now) as)
    (hr : run (step lib clientName) (init σ now) as = some t) :
    SignedAsAsked lib clientName t :=
  (run_invariant (fun _ _ _ h hg hs => step_signingOk hl h hg hs)
    (init_signingOk lib clientName now) hg hr).signedAsAsked

/-- Signers named by their public key; every signature is taken to verify. -/
def namedSigning : Signing JsString where
  getPublicKey g := g
  signEvent g t n := ⟨js "id", g, t.created_at, t.kind, t.tags, t.content, intToString 16 n⟩
  verifyEvent _ := true

theorem namedSigning_faithful : namedSigning.Faithful := by
  constructor <;> intros <;> rfl

/-- One signer signs two contents, the second within the cache window of the first. -/
def twoContents (first second : JsString) : List (SigningAction JsString) :=
  [.createSignedEvent ⟨js "a1", 1311, first, []⟩, .key 0 true, .signed 0 (some 7), .finish 0,
    .createSignedEvent ⟨js "a1", 1311, second, []⟩, .key 1 true]

theorem noCollision_signedAsAsked_cached :
    ∃ t, run (step namedSigning (some (js "livelier"))) (init JsString 0)
      (twoContents (js "hi") (js "hi")) = some t ∧ (t.phase 1).event?.isSome = true ∧
      SignedAsAsked namedSigning (some (js "livelier")) t := by
  have hrun : (run (step namedSigning (some (js "livelier"))) (init JsString 0)
      (twoContents (js "hi") (js "hi"))).map (fun t => (t.phase 1).event?.isSome) = some true := by
    decide +kernel
  obtain ⟨t, ht, hp⟩ := Option.map_eq_some_iff.mp hrun
  exact ⟨t, ht, hp, noCollision_signedAsAsked namedSigning_faithful _ 0 (by decide +kernel) ht⟩

/-- "Aa" and "BB" hash alike: the second call gets the first one's event. -/
theorem signedAsAsked_fails_on_collision :
    ∃ t, run (step namedSigning (some (js "livelier"))) (init JsString 0)
      (twoContents (js "Aa") (js "BB")) = some t ∧
      ¬SignedAsAsked namedSigning (some (js "livelier")) t := by
  have hrun : (run (step namedSigning (some (js "livelier"))) (init JsString 0)
      (twoContents (js "Aa") (js "BB"))).map
        (fun t => (t.calls[1]?.map fun call => call.content,
          (t.phase 1).event?.map fun e => e.content)) =
      some (some (js "BB"), some (js "Aa")) := by decide +kernel
  obtain ⟨t, ht, hp⟩ := Option.map_eq_some_iff.mp hrun
  simp only [Prod.mk.injEq, Option.map_eq_some_iff] at hp
  obtain ⟨⟨call, hc, hcall⟩, e, he, hcontent⟩ := hp
  refine ⟨t, ht, fun h => ?_⟩
  have hans := (h 1 call hc e he).content
  rw [hcall, hcontent] at hans
  exact absurd hans (by decide)

end SigningState

end LivelierBridge.Nostr
