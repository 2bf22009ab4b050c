import LivelierBridge.Framework.Log
import LivelierBridge.Nostr.AuthedPublish

namespace LivelierBridge.Nostr

open Framework Js

namespace AuthedEvent

variable {ν : Type}

def isFrame : AuthedEvent ν → Bool
  | .frame _ => true
  | .sentEvent | .sentAuth _ | .resolved _ | .rejected _ _ => false

def isSentEvent : AuthedEvent ν → Bool
  | .sentEvent => true
  | .frame _ | .sentAuth _ | .resolved _ | .rejected _ _ => false

def isSettlement : AuthedEvent ν → Bool
  | .resolved _ | .rejected _ _ => true
  | .frame _ | .sentEvent | .sentAuth _ => false

variable (time : Nat) (err : Option JsString)

@[simp] theorem isFrame_settlement :
    (AuthedEvent.settlement time err : AuthedEvent ν).isFrame = false := by
  cases err <;> rfl

@[simp] theorem isSentEvent_settlement :
    (AuthedEvent.settlement time err : AuthedEvent ν).isSentEvent = false := by
  cases err <;> rfl

@[simp] theorem isSettlement_settlement :
    (AuthedEvent.settlement time err : AuthedEvent ν).isSettlement = true := by
  cases err <;> rfl

@[simp] theorem sentAuth_ne_settlement (authEvent : Event) :
    (AuthedEvent.sentAuth authEvent : AuthedEvent ν) ≠ .settlement time err := by
  cases err <;> simp [AuthedEvent.settlement]

end AuthedEvent

section Laws

variable {ν σ : Type} (lib : Signing σ) (args : AuthedArgs σ) (deadline : Nat)

/-- The promise has not settled yet. -/
def Unsettled (log : List (AuthedEvent ν)) : Prop := log.any AuthedEvent.isSettlement = false

/-- The relay accepts the event. -/
def Accepts (msg : List (Json ν)) : Prop := isOK msg args.event.id = true ∧ accepted msg = true

/-- The relay rejects the event for want of an AUTH. -/
def DemandsAuth (msg : List (Json ν)) : Prop :=
  isOK msg args.event.id = true ∧ accepted msg = false ∧ asksForAuth msg = true

/-- The relay rejects the AUTH, or it rejects the event for good: for another reason, or although the
AUTH has been sent. -/
def Refuses (pre : List (AuthedEvent ν)) (msg : List (Json ν)) : Prop :=
  accepted msg = false ∧
    (isOK msg args.event.id = true ∧
        (asksForAuth msg = false ∨ ∃ authEvent, .sentAuth authEvent ∈ pre) ∨
      ∃ authEvent, .sentAuth authEvent ∈ pre ∧ isOK msg authEvent.id = true)

/-- When each frame may be sent and the promise may settle, after what has happened before. -/
def AuthedLawful (pre : List (AuthedEvent ν)) : AuthedEvent ν → Prop
  | .frame _ => True
  | .sentEvent => pre.countP AuthedEvent.isSentEvent = 0 ∨
      pre.countP AuthedEvent.isSentEvent = 1 ∧ ∃ authEvent, .sentAuth authEvent ∈ pre
  | .sentAuth authEvent => (∀ other, .sentAuth other ∉ pre) ∧
      (∃ msg, .frame msg ∈ pre ∧ DemandsAuth args msg) ∧
        ∃ msg challenge now n, .frame msg ∈ pre ∧ challengeOf msg = some challenge ∧
          authEvent = lib.signEvent args.signer (AuthedPublish.authTemplate args now challenge) n
  | .resolved time => Unsettled pre ∧ time ≤ deadline ∧ ∃ msg, .frame msg ∈ pre ∧ Accepts args msg
  | .rejected time _ => Unsettled pre ∧ time ≤ deadline

/-- What the relay refuses makes the promise reject at once, unless it has settled. -/
def RefusalsReject (log : List (AuthedEvent ν)) : Prop :=
  ∀ pre msg post, log = pre ++ .frame msg :: post → Unsettled pre → Refuses args pre msg →
    ∃ time message rest, post = .rejected time message :: rest

variable {args} {log : List (AuthedEvent ν)}

theorem refusalsReject_nil : RefusalsReject args ([] : List (AuthedEvent ν)) := by
  intro pre msg post h
  simp at h

/-- Whatever is recorded behind a frame leaves what came right after it. -/
theorem RefusalsReject.concat (h : RefusalsReject args log) {e : AuthedEvent ν}
    (he : e.isFrame = false) : RefusalsReject args (log ++ [e]) := by
  intro pre msg post hl hpre hrefuses
  cases post using List.reverseRecOn with
  | nil =>
    obtain ⟨-, rfl⟩ : log = pre ∧ e = .frame msg := by simpa using hl
    cases he
  | append_singleton post y =>
    have hsplit : log ++ [e] = (pre ++ .frame msg :: post) ++ [y] := by simpa using hl
    obtain ⟨hlog, -⟩ := List.append_inj' hsplit rfl
    obtain ⟨time, message, rest, rfl⟩ := h pre msg post hlog hpre hrefuses
    exact ⟨time, message, rest ++ [y], rfl⟩

/-- A frame that is not refused. -/
theorem RefusalsReject.frame (h : RefusalsReject args log) {msg : List (Json ν)}
    (hmsg : Unsettled log → ¬ Refuses args log msg) : RefusalsReject args (log ++ [.frame msg]) := by
  intro pre msg' post hl hpre hrefuses
  cases post using List.reverseRecOn with
  | nil =>
    obtain ⟨rfl, heq⟩ : log = pre ∧ AuthedEvent.frame msg = .frame msg' := by simpa using hl
    obtain rfl := AuthedEvent.frame.inj heq
    exact absurd hrefuses (hmsg hpre)
  | append_singleton post y =>
    have hsplit : log ++ [.frame msg] = (pre ++ .frame msg' :: post) ++ [y] := by simpa using hl
    obtain ⟨hlog, -⟩ := List.append_inj' hsplit rfl
    obtain ⟨time, message, rest, rfl⟩ := h pre msg' post hlog hpre hrefuses
    exact ⟨time, message, rest ++ [y], rfl⟩

/-- A frame that is refused, and the rejection. -/
theorem RefusalsReject.refused (h : RefusalsReject args log) (msg : List (Json ν)) (time : Nat)
    (message : JsString) : RefusalsReject args (log ++ [.frame msg, .rejected time message]) := by
  intro pre msg' post hl hpre hrefuses
  cases post using List.reverseRecOn with
  | nil =>
    have hlast := congrArg List.getLast? hl
    simp at hlast
  | append_singleton post y =>
    have hsplit : (log ++ [.frame msg]) ++ [.rejected time message] =
        (pre ++ .frame msg' :: post) ++ [y] := by simpa using hl
    obtain ⟨hrest, hy⟩ := List.append_inj' hsplit rfl
    obtain rfl : AuthedEvent.rejected time message = y := by simpa using hy
    cases post using List.reverseRecOn with
    | nil => exact ⟨time, message, [], rfl⟩
    | append_singleton post z =>
      have hsplit' : log ++ [.frame msg] = (pre ++ .frame msg' :: post) ++ [z] := by
        simpa using hrest
      obtain ⟨hlog, -⟩ := List.append_inj' hsplit' rfl
      obtain ⟨time', message', rest, rfl⟩ := h pre msg' post hlog hpre hrefuses
      exact ⟨time', message', rest ++ [z] ++ [.rejected time message], by simp⟩

end Laws

namespace AuthedPublish

section Protocol

variable {ν σ : Type} (lib : Signing σ) (args : AuthedArgs σ) (deadline : Nat)

/-- What the flags and the timers say about what has happened. -/
structure InProtocol (s : AuthedPublish ν) : Prop where
  settled : s.settled = s.log.any AuthedEvent.isSettlement
  timer : s.settled = false → s.timer = some deadline ∧ s.now ≤ deadline
  challenge : ∀ challenge, s.challenge = some challenge →
    ∃ msg, .frame msg ∈ s.log ∧ challengeOf msg = some challenge
  authId : ∀ authEvent, .sentAuth authEvent ∈ s.log →
    s.authEventId = some authEvent.id ∧ authEvent.id ≠ []
  authSent : s.authSent = true ↔ ∃ authEvent, .sentAuth authEvent ∈ s.log
  authEventId : s.authEventId.isSome = true → s.authSent = true
  resends : s.resendTimer.isSome = true → s.authSent = true
  waits : s.authWaits ≠ [] → ∃ msg, .frame msg ∈ s.log ∧ DemandsAuth args msg
  unopened : s.opened = false → s.authSent = false ∧ s.eventResent = false ∧ s.authWaits = []
  events : s.log.countP AuthedEvent.isSentEvent = s.opened.toNat + s.eventResent.toNat
  laws : Justified (AuthedLawful lib args deadline) s.log

variable {lib args deadline} {s t : AuthedPublish ν} {msg : List (Json ν)}

theorem inProtocol_start (lib : Signing σ) (args : AuthedArgs σ) (now : Nat) :
    InProtocol lib args (now + args.timeoutMs) (start args now : AuthedPublish ν) where
  settled := rfl
  timer := fun _ => ⟨rfl, Nat.le_add_right _ _⟩
  challenge := fun _ h => by cases h
  authId := fun _ h => absurd h List.not_mem_nil
  authSent := by simp [start]
  authEventId := fun h => by cases h
  resends := fun h => by cases h
  waits := fun h => absurd rfl h
  unopened := fun _ => ⟨rfl, rfl, rfl⟩
  events := rfl
  laws := justified_nil _

/-- The frame that brought the challenge stays in the log. -/
theorem InProtocol.challenge_later (h : s.InProtocol lib args deadline)
    (later : List (AuthedEvent ν)) (challenge : JsString) (hc : s.challenge = some challenge) :
    ∃ msg, .frame msg ∈ s.log ++ later ∧ challengeOf msg = some challenge := by
  obtain ⟨m, hm, hof⟩ := h.challenge challenge hc
  exact ⟨m, List.mem_append_left _ hm, hof⟩

/-- So does the one that demanded the AUTH. -/
theorem InProtocol.waits_later (h : s.InProtocol lib args deadline)
    (later : List (AuthedEvent ν)) (hw : s.authWaits ≠ []) :
    ∃ msg, .frame msg ∈ s.log ++ later ∧ DemandsAuth args msg := by
  obtain ⟨m, hm, hd⟩ := h.waits hw
  exact ⟨m, List.mem_append_left _ hm, hd⟩

/-- A frame arrives. -/
theorem InProtocol.frame (h : s.InProtocol lib args deadline) (msg : List (Json ν)) :
    (s.record (.frame msg)).InProtocol lib args deadline where
  settled := by simpa [record, AuthedEvent.isSettlement] using h.settled
  timer := h.timer
  challenge := h.challenge_later _
  authId := by
    intro authEvent hmem
    exact h.authId authEvent (by simpa [record] using hmem)
  authSent := by simpa [record] using h.authSent
  authEventId := h.authEventId
  resends := h.resends
  waits := h.waits_later _
  unopened := h.unopened
  events := by simpa [record, List.countP_append, AuthedEvent.isSentEvent] using h.events
  laws := h.laws.concat trivial

/-- The promise settles, if it has not before. -/
theorem InProtocol.settle (h : s.InProtocol lib args deadline) {err : Option JsString}
    (herr : err = none → ∃ msg, .frame msg ∈ s.log ∧ Accepts args msg) :
    (s.settle err).InProtocol lib args deadline := by
  unfold AuthedPublish.settle
  split_ifs with hsettled
  · exact h
  · replace hsettled : s.settled = false := by simpa using hsettled
    have hun : Unsettled s.log := h.settled.symm.trans hsettled
    have hlawful : AuthedLawful lib args deadline s.log (.settlement s.now err) := by
      cases err with
      | none => exact ⟨hun, (h.timer hsettled).2, herr rfl⟩
      | some message => exact ⟨hun, (h.timer hsettled).2⟩
    constructor
    · simp
    · intro hfalse
      cases hfalse
    · exact h.challenge_later _
    · intro authEvent hmem
      exact h.authId authEvent (by simpa using hmem)
    · simpa using h.authSent
    · exact h.authEventId
    · exact h.resends
    · exact h.waits_later _
    · exact h.unopened
    · simpa [List.countP_append] using h.events
    · exact h.laws.concat hlawful

/-- The event is sent again, after the AUTH. -/
theorem InProtocol.resendEvent (h : s.InProtocol lib args deadline) (hauth : s.authSent = true) :
    s.resendEvent.InProtocol lib args deadline := by
  unfold AuthedPublish.resendEvent
  split_ifs with hdone
  · exact h
  · obtain ⟨hresent, -⟩ : s.eventResent = false ∧ s.settled = false := by simpa using hdone
    have hopened : s.opened = true := by
      by_contra hclosed
      have hnone := (h.unopened (by simpa using hclosed)).1
      rw [hauth] at hnone
      cases hnone
    have hcount : s.log.countP AuthedEvent.isSentEvent = 1 := by
      rw [h.events, hopened, hresent]
      rfl
    constructor
    · simpa [AuthedEvent.isSettlement] using h.settled
    · exact h.timer
    · exact h.challenge_later _
    · intro authEvent hmem
      exact h.authId authEvent (by simpa using hmem)
    · simpa using h.authSent
    · exact h.authEventId
    · exact h.resends
    · exact h.waits_later _
    · intro hclosed
      rw [hopened] at hclosed
      cases hclosed
    · simp [List.countP_append, hcount, hopened, AuthedEvent.isSentEvent]
    · exact h.laws.concat (.inr ⟨hcount, h.authSent.mp hauth⟩)

/-- The AUTH is sent, if there is a challenge and it has not been sent yet. -/
theorem InProtocol.sendAuth (hid : ∀ g t n, (lib.signEvent g t n).id ≠ [])
    (h : s.InProtocol lib args deadline) (hopened : s.opened = true)
    (hdemand : ∃ msg, .frame msg ∈ s.log ∧ DemandsAuth args msg) (n : Nat) :
    (s.sendAuth lib args n).InProtocol lib args deadline := by
  unfold AuthedPublish.sendAuth
  cases hc : s.challenge? with
  | none => exact h
  | some challenge =>
    by_cases hsent : s.authSent = true
    · simpa [hsent] using h
    · have hnone : ∀ other, .sentAuth other ∉ s.log := by
        intro other hmem
        exact hsent (h.authSent.mpr ⟨other, hmem⟩)
      obtain ⟨m, hm, hof⟩ := h.challenge challenge (Option.eq_some_of_filter_eq_some hc)
      simp only [hsent, Bool.false_eq_true, if_false]
      constructor
      · simpa [AuthedEvent.isSettlement] using h.settled
      · exact h.timer
      · intro challenge' hc'
        obtain ⟨m', hm', hof'⟩ := h.challenge challenge' hc'
        exact ⟨m', List.mem_append_left _ hm', hof'⟩
      · intro authEvent hmem
        rcases List.mem_append.mp hmem with hold | hlast
        · exact absurd hold (hnone authEvent)
        · obtain rfl := AuthedEvent.sentAuth.inj (List.mem_singleton.mp hlast)
          exact ⟨rfl, hid _ _ _⟩
      · simp
      · simp
      · simp
      · intro hw
        obtain ⟨m', hm', hd⟩ := h.waits hw
        exact ⟨m', List.mem_append_left _ hm', hd⟩
      · intro hclosed
        rw [show s.opened = false from hclosed] at hopened
        cases hopened
      · simpa [List.countP_append, AuthedEvent.isSentEvent] using h.events
      · exact h.laws.concat ⟨hnone, hdemand, m, challenge, s.now, n, hm, hof, rfl⟩

/-- The intervals change, for a demand that has come. -/
theorem InProtocol.setWaits (h : s.InProtocol lib args deadline) (waits : List AuthWait)
    (hwaits : waits ≠ [] → s.opened = true ∧ ∃ msg, .frame msg ∈ s.log ∧ DemandsAuth args msg) :
    { s with authWaits := waits }.InProtocol lib args deadline where
  settled := h.settled
  timer := h.timer
  challenge := h.challenge
  authId := h.authId
  authSent := h.authSent
  authEventId := h.authEventId
  resends := h.resends
  waits := fun hw => (hwaits hw).2
  unopened := by
    intro hclosed
    refine ⟨(h.unopened hclosed).1, (h.unopened hclosed).2.1, ?_⟩
    by_contra hw
    have hopened := (hwaits hw).1
    rw [show s.opened = false from hclosed] at hopened
    cases hopened
  events := h.events
  laws := h.laws

theorem InProtocol.opened_of_waits (h : s.InProtocol lib args deadline) (hw : s.authWaits ≠ []) :
    s.opened = true := by
  by_contra hclosed
  exact hw (h.unopened (by simpa using hclosed)).2.2

/-- The relay's answer to the event, which the log has as its frame. -/
theorem InProtocol.answered (hid : ∀ g t n, (lib.signEvent g t n).id ≠ [])
    (h : s.InProtocol lib args deadline) (hopened : s.opened = true)
    (hmem : .frame msg ∈ s.log) (hok : isOK msg args.event.id = true) (n : Nat) :
    (s.answered lib args msg n).InProtocol lib args deadline := by
  unfold AuthedPublish.answered
  by_cases haccepted : accepted msg = true
  · rw [if_pos haccepted]
    exact h.settle fun _ => ⟨msg, hmem, hok, haccepted⟩
  rw [if_neg haccepted]
  by_cases hasks : (asksForAuth msg && !s.authSent) = true
  · have hdemand : ∃ msg, .frame msg ∈ s.log ∧ DemandsAuth args msg :=
      ⟨msg, hmem, hok, by simpa using haccepted, (Bool.and_eq_true_iff.mp hasks).1⟩
    rw [if_pos hasks]
    split_ifs
    · exact h.sendAuth hid hopened hdemand n
    · exact h.setWaits _ fun _ => ⟨hopened, hdemand⟩
  · rw [if_neg hasks]
    exact h.settle fun herr => by cases herr

theorem InProtocol.onMessage (hid : ∀ g t n, (lib.signEvent g t n).id ≠ [])
    (h : s.InProtocol lib args deadline) (hopened : s.opened = true)
    (hmem : .frame msg ∈ s.log) (n : Nat) :
    (s.onMessage lib args msg n).InProtocol lib args deadline := by
  unfold AuthedPublish.onMessage
  cases hchallenge : challengeOf msg with
  | some challenge =>
    refine { h with challenge := ?_ }
    intro challenge' hc
    obtain rfl := Option.some.inj hc
    exact ⟨msg, hmem, hchallenge⟩
  | none =>
    dsimp only
    split_ifs with hack haccepted hok
    · refine h.resendEvent (h.authEventId ?_)
      cases hid : s.authEventId with
      | none => simp [hid] at hack
      | some id => rfl
    · exact h.settle fun herr => by cases herr
    · exact h.answered hid hopened hmem hok n
    · exact h

theorem InProtocol.onAuthWait (hid : ∀ g t n, (lib.signEvent g t n).id ≠ [])
    (h : s.InProtocol lib args deadline) {i : Nat} {wait : AuthWait} (n : Nat)
    (hwait : s.authWaits[i]? = some wait) :
    (s.onAuthWait lib args i n wait).InProtocol lib args deadline := by
  have hsome : s.authWaits ≠ [] := by
    rintro hnil
    simp [hnil] at hwait
  have hopened := h.opened_of_waits hsome
  unfold AuthedPublish.onAuthWait
  split_ifs
  · have hcleared := h.setWaits (s.authWaits.eraseIdx i) fun _ => ⟨hopened, h.waits hsome⟩
    exact hcleared.sendAuth hid hopened (h.waits hsome) n
  · exact h.setWaits _ fun _ => ⟨hopened, h.waits hsome⟩

/-- The socket opens, and the event is sent for the first time. -/
theorem InProtocol.opens (h : s.InProtocol lib args deadline) (hopened : s.opened = false) :
    ({ s with opened := true }.record .sentEvent).InProtocol lib args deadline := by
  obtain ⟨hauth, hresent, hwaits⟩ := h.unopened hopened
  have hcount : s.log.countP AuthedEvent.isSentEvent = 0 := by
    rw [h.events, hopened, hresent]
    rfl
  constructor
  · simpa [record, AuthedEvent.isSettlement] using h.settled
  · exact h.timer
  · exact h.challenge_later _
  · intro authEvent hmem
    exact h.authId authEvent (by simpa [record] using hmem)
  · simpa [record] using h.authSent
  · exact h.authEventId
  · exact h.resends
  · exact fun hw => absurd hwaits hw
  · intro hclosed
    cases hclosed
  · simp [record, List.countP_append, hcount, hresent, AuthedEvent.isSentEvent]
  · exact h.laws.concat (.inl hcount)

/-- Time does not pass the timeout of an unsettled promise. -/
theorem InProtocol.tick (h : s.InProtocol lib args deadline) {ms : Nat}
    (hdue : s.timer.all (fun due => s.now + ms ≤ due) = true) :
    { s with now := s.now + ms }.InProtocol lib args deadline := by
  refine { h with timer := ?_ }
  intro hsettled
  obtain ⟨htimer, -⟩ := h.timer hsettled
  exact ⟨htimer, by simpa [htimer] using hdue⟩

theorem InProtocol.step [JsNumber ν] (hid : ∀ g t n, (lib.signEvent g t n).id ≠ [])
    (h : s.InProtocol lib args deadline) {a : AuthedAction}
    (hstep : step lib args s a = some t) : t.InProtocol lib args deadline := by
  cases a with
  | opens =>
    simp only [AuthedPublish.step] at hstep
    split_ifs at hstep with hbusy
    obtain rfl := Option.some.inj hstep
    exact h.opens (by simp_all)
  | message data n =>
    simp only [AuthedPublish.step] at hstep
    split_ifs at hstep with hopened
    split at hstep
    · obtain rfl := Option.some.inj hstep
      exact h
    · obtain rfl := Option.some.inj hstep
      exact (h.frame _).onMessage hid hopened (by simp [record]) n
    all_goals cases hstep
  | error message =>
    obtain rfl := Option.some.inj hstep
    exact h.settle fun herr => by cases herr
  | timeoutFires =>
    simp only [AuthedPublish.step] at hstep
    split at hstep
    · split_ifs at hstep
      obtain rfl := Option.some.inj hstep
      exact h.settle fun herr => by cases herr
    · cases hstep
  | resendFires =>
    simp only [AuthedPublish.step] at hstep
    split at hstep
    next due hdue =>
      split_ifs at hstep
      obtain rfl := Option.some.inj hstep
      have hauth := h.resends (by simp [hdue])
      have hcleared : { s with resendTimer := none }.InProtocol lib args deadline :=
        { h with resends := fun hresend => by cases hresend }
      exact hcleared.resendEvent hauth
    next => cases hstep
  | authWaitFires i n =>
    simp only [AuthedPublish.step] at hstep
    split at hstep
    next wait hwait =>
      split_ifs at hstep
      obtain rfl := Option.some.inj hstep
      exact h.onAuthWait hid n hwait
    next => cases hstep
  | authWaitEnds i =>
    simp only [AuthedPublish.step] at hstep
    split at hstep
    next wait hwait =>
      split_ifs at hstep
      obtain rfl := Option.some.inj hstep
      have hsome : s.authWaits ≠ [] := by
        rintro hnil
        simp [hnil] at hwait
      exact h.setWaits _ fun _ => ⟨h.opened_of_waits hsome, h.waits hsome⟩
    next => cases hstep
  | tick ms =>
    simp only [AuthedPublish.step] at hstep
    split_ifs at hstep with hdue
    obtain rfl := Option.some.inj hstep
    exact h.tick hdue

end Protocol

end AuthedPublish

end LivelierBridge.Nostr
