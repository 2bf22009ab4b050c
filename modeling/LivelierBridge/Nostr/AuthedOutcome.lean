import LivelierBridge.Framework.Run
import LivelierBridge.Nostr.AuthedProtocol
import LivelierBridge.Nostr.SignedAsAsked
import LivelierBridge.Owncast.Frames

namespace LivelierBridge.Nostr

open Framework Js

namespace AuthedPublish

section Outcome

variable {ν σ : Type} {lib : Signing σ} {args : AuthedArgs σ} {deadline : Nat}
  {s t : AuthedPublish ν} {msg : List (Json ν)}

/-- What happens at most once between two frames. -/
def Adds (s t : AuthedPublish ν) : Prop :=
  t.log = s.log ∨ ∃ e, e.isFrame = false ∧ t.log = s.log ++ [e]

theorem adds_settle (s : AuthedPublish ν) (err : Option JsString) : Adds s (s.settle err) := by
  unfold settle
  split_ifs
  · exact .inl rfl
  · exact .inr ⟨_, AuthedEvent.isFrame_settlement _ _, rfl⟩

theorem adds_resendEvent (s : AuthedPublish ν) : Adds s s.resendEvent := by
  unfold resendEvent
  split_ifs
  · exact .inl rfl
  · exact .inr ⟨.sentEvent, rfl, rfl⟩

theorem adds_sendAuth (s : AuthedPublish ν) (n : Nat) : Adds s (s.sendAuth lib args n) := by
  unfold sendAuth
  cases s.challenge? with
  | none => exact .inl rfl
  | some challenge =>
    dsimp only
    split_ifs
    · exact .inl rfl
    · exact .inr ⟨.sentAuth _, rfl, rfl⟩

theorem adds_answered (s : AuthedPublish ν) (msg : List (Json ν)) (n : Nat) :
    Adds s (s.answered lib args msg n) := by
  unfold answered
  by_cases haccepted : accepted msg = true
  · rw [if_pos haccepted]
    exact adds_settle s _
  rw [if_neg haccepted]
  by_cases hasks : (asksForAuth msg && !s.authSent) = true
  · rw [if_pos hasks]
    split_ifs
    · exact adds_sendAuth s n
    · exact .inl rfl
  · rw [if_neg hasks]
    exact adds_settle s _

theorem adds_onMessage (s : AuthedPublish ν) (msg : List (Json ν)) (n : Nat) :
    Adds s (s.onMessage lib args msg n) := by
  unfold onMessage
  cases challengeOf msg with
  | some challenge => exact .inl rfl
  | none =>
    dsimp only
    split_ifs
    · exact adds_resendEvent s
    · exact adds_settle s _
    · exact adds_answered s msg n
    · exact .inl rfl

theorem adds_onAuthWait (s : AuthedPublish ν) (i n : Nat) (wait : AuthWait) :
    Adds s (s.onAuthWait lib args i n wait) := by
  unfold onAuthWait
  split_ifs
  · exact adds_sendAuth { s with authWaits := s.authWaits.eraseIdx i } n
  · exact .inl rfl

theorem Adds.refusalsReject (h : Adds s t) (hs : RefusalsReject args s.log) :
    RefusalsReject args t.log := by
  rcases h with hlog | ⟨e, he, hlog⟩
  · rw [hlog]
    exact hs
  · rw [hlog]
    exact hs.concat he

theorem isOK_text {id : JsString} (h : isOK msg id = true) : text msg[0]? = some (js "OK") :=
  of_decide_eq_true (Bool.and_eq_true_iff.mp h).1

theorem challengeOf_of_ok (h : text msg[0]? = some (js "OK")) : challengeOf msg = none := by
  unfold challengeOf
  rw [if_neg]
  rw [h]
  decide

/-- The handler rejects the promise at a frame that the relay refuses with. -/
theorem onMessage_refused (h : s.InProtocol lib args deadline) (hrefuses : Refuses args s.log msg)
    (n : Nat) : ∃ message, s.onMessage lib args msg n = s.settle (some message) := by
  obtain ⟨haccepted, hcause⟩ := hrefuses
  have hok : text msg[0]? = some (js "OK") := by
    rcases hcause with ⟨hevent, -⟩ | ⟨authEvent, -, hauth⟩
    · exact isOK_text hevent
    · exact isOK_text hauth
  unfold onMessage
  rw [challengeOf_of_ok hok]
  dsimp only
  by_cases hack : (s.authEventId.filter (· ≠ [])).any (isOK msg) = true
  · rw [if_pos hack, haccepted, if_neg Bool.false_ne_true]
    exact ⟨_, rfl⟩
  rw [if_neg hack]
  rcases hcause with ⟨hevent, hfinal⟩ | ⟨authEvent, hmem, hauth⟩
  · have hasks : (asksForAuth msg && !s.authSent) = false := by
      rcases hfinal with hother | hsent
      · rw [hother, Bool.false_and]
      · rw [h.authSent.mpr hsent, Bool.not_true, Bool.and_false]
    rw [if_pos hevent, answered, haccepted, hasks, if_neg Bool.false_ne_true,
      if_neg Bool.false_ne_true]
    exact ⟨_, rfl⟩
  · obtain ⟨hid, hne⟩ := h.authId authEvent hmem
    refine absurd ?_ hack
    simp [hid, hne, hauth]

theorem RefusalsReject.onMessage (h : s.InProtocol lib args deadline)
    (hs : RefusalsReject args s.log) (msg : List (Json ν)) (n : Nat) :
    RefusalsReject args ((s.record (.frame msg)).onMessage lib args msg n).log := by
  by_cases hrefused : Unsettled s.log ∧ Refuses args s.log msg
  · obtain ⟨hun, haccepted, hcause⟩ := hrefused
    have hrefuses : Refuses args (s.record (.frame msg)).log msg := by
      simpa [Refuses, record] using And.intro haccepted hcause
    obtain ⟨message, heq⟩ := onMessage_refused (h.frame msg) hrefuses n
    have hsettled : s.settled = false := h.settled.trans hun
    rw [heq, settle, if_neg (by simpa [record] using hsettled)]
    simpa [record, AuthedEvent.settlement] using hs.refused msg s.now message
  · have hframe : RefusalsReject args (s.log ++ [.frame msg]) :=
      hs.frame fun hun hrefuses => hrefused ⟨hun, hrefuses⟩
    exact (adds_onMessage (s.record (.frame msg)) msg n).refusalsReject hframe

theorem RefusalsReject.step [JsNumber ν] (h : s.InProtocol lib args deadline)
    (hs : RefusalsReject args s.log) {a : AuthedAction} (hstep : step lib args s a = some t) :
    RefusalsReject args t.log := by
  cases a with
  | opens =>
    simp only [AuthedPublish.step] at hstep
    split_ifs at hstep
    obtain rfl := Option.some.inj hstep
    exact hs.concat rfl
  | message data n =>
    simp only [AuthedPublish.step] at hstep
    split_ifs at hstep
    split at hstep
    · obtain rfl := Option.some.inj hstep
      exact hs
    · obtain rfl := Option.some.inj hstep
      exact RefusalsReject.onMessage h hs _ n
    all_goals cases hstep
  | error message =>
    obtain rfl := Option.some.inj hstep
    exact (adds_settle s _).refusalsReject hs
  | timeoutFires =>
    simp only [AuthedPublish.step] at hstep
    split at hstep
    · split_ifs at hstep
      obtain rfl := Option.some.inj hstep
      exact (adds_settle s _).refusalsReject hs
    · cases hstep
  | resendFires =>
    simp only [AuthedPublish.step] at hstep
    split at hstep
    · split_ifs at hstep
      obtain rfl := Option.some.inj hstep
      exact (adds_resendEvent { s with resendTimer := none }).refusalsReject hs
    · cases hstep
  | authWaitFires i n =>
    simp only [AuthedPublish.step] at hstep
    split at hstep
    · split_ifs at hstep
      obtain rfl := Option.some.inj hstep
      exact (adds_onAuthWait s i n _).refusalsReject hs
    · cases hstep
  | authWaitEnds i =>
    simp only [AuthedPublish.step] at hstep
    split at hstep
    · split_ifs at hstep
      obtain rfl := Option.some.inj hstep
      exact hs
    · cases hstep
  | tick ms =>
    simp only [AuthedPublish.step] at hstep
    split_ifs at hstep
    obtain rfl := Option.some.inj hstep
    exact hs

/-- An unsettled promise has its timeout ahead, and settles by it whatever comes. -/
theorem InProtocol.settles_by_deadline [JsNumber ν] (h : s.InProtocol lib args deadline)
    (hun : Unsettled s.log) : s.now ≤ deadline ∧
      ∃ t, run (AuthedPublish.step lib args) s [.tick (deadline - s.now), .timeoutFires] = some t ∧
        ¬ Unsettled t.log := by
  have hsettled : s.settled = false := h.settled.trans hun
  obtain ⟨htimer, hle⟩ := h.timer hsettled
  have hnow : s.now + (deadline - s.now) = deadline := by omega
  refine ⟨hle, { s with now := deadline }.settle (some (js "authed publish timeout")), ?_, ?_⟩
  · simp [run, AuthedPublish.step, htimer, hnow]
  · simp [AuthedPublish.settle, hsettled, Unsettled]

/-- The protocol of `publishAuthed`: each event of its socket and its promise at its time, every
refusal a rejection, and a settlement by the timeout. -/
theorem publishAuthed_inProtocol [JsNumber ν] (lib : Signing σ)
    (hid : ∀ g t n, (lib.signEvent g t n).id ≠ []) (args : AuthedArgs σ) (now : Nat)
    {as : List AuthedAction} (h : run (step lib args) (start args now : AuthedPublish ν) as = some s) :
    Justified (AuthedLawful lib args (now + args.timeoutMs)) s.log ∧
      RefusalsReject args s.log ∧
      (Unsettled s.log → s.now ≤ now + args.timeoutMs ∧
        ∃ t, run (step lib args) s [.tick (now + args.timeoutMs - s.now), .timeoutFires] = some t ∧
          ¬ Unsettled t.log) := by
  have hkeep : ∀ (m : AuthedPublish ν) a m',
      m.InProtocol lib args (now + args.timeoutMs) ∧ RefusalsReject args m.log →
        step lib args m a = some m' →
          m'.InProtocol lib args (now + args.timeoutMs) ∧ RefusalsReject args m'.log := by
    rintro m a m' ⟨hm, hrejects⟩ hstep
    exact ⟨hm.step hid hstep, RefusalsReject.step hm hrejects hstep⟩
  obtain ⟨hs, hrejects⟩ :=
    run_invariant_all hkeep ⟨inProtocol_start lib args now, refusalsReject_nil⟩ h
  exact ⟨hs.laws, hrejects, hs.settles_by_deadline⟩

end Outcome

open SigningState (namedSigning)

/-- A protected event, published as its author. -/
def protectedPublish : AuthedArgs JsString where
  relayUrl := js "wss://strict"
  signer := js "a1"
  event := ⟨js "e1", js "a1", 0, 1311, [[js "-"]], js "hi", []⟩
  timeoutMs := 10000

/-- The relay asks for the AUTH, takes it, and takes the event. -/
def authedExchange : List AuthedAction :=
  [.opens, .message (js "[\"AUTH\",\"c1\"]") 0,
    .message (js "[\"OK\",\"e1\",false,\"auth-required: author\"]") 7,
    .message (js "[\"OK\",\"id\",true]") 0, .message (js "[\"OK\",\"e1\",true]") 0]

theorem publishAuthed_inProtocol_authed :
    ∃ s : AuthedPublish Int,
      run (step namedSigning protectedPublish) (start protectedPublish 0) authedExchange = some s ∧
      s.settled = true ∧
      Justified (AuthedLawful namedSigning protectedPublish 10000) s.log ∧
      RefusalsReject protectedPublish s.log := by
  have hrun : (run (step namedSigning protectedPublish) (start protectedPublish 0 : AuthedPublish Int)
      authedExchange).map (fun s => s.settled) = some true := by
    decide +kernel
  obtain ⟨s, hs, hsettled⟩ := Option.map_eq_some_iff.mp hrun
  have hid : ∀ g t n, (namedSigning.signEvent g t n).id ≠ [] := by
    intro g t n
    show js "id" ≠ []
    decide
  obtain ⟨hlaws, hrejects, -⟩ := publishAuthed_inProtocol namedSigning hid protectedPublish 0 hs
  exact ⟨s, hs, hsettled, hlaws, hrejects⟩

end AuthedPublish

end LivelierBridge.Nostr
