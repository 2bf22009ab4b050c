import LivelierBridge.Chat.NoEcho

namespace LivelierBridge.Chat

open Framework Js

/-- A source user of one `Room`; every room has its own signer for the user. -/
abbrev Chatter := RoomId × JsString

def SourceHandler.chatter (h : SourceHandler) : Chatter := (h.room, h.frame.userId)

/-- An event given to `gateway.publish`. Handlers are numbered as the source delivered their
frames. -/
structure Handed where
  handler : HandlerId
  chatter : Chatter
  kind : Nat
  call : GatewayCall
  /-- The chatter's kind-0 and kind-10002 broadcasts had both completed. -/
  identified : Bool

/-- The chat service, the chatters whose identity was broadcast, and the events handed over. -/
structure OutboundTrace (τ : Type) where
  service : ChatState τ
  identified : List Chatter
  handed : List Handed

def OutboundTrace.init (τ : Type) : OutboundTrace τ := ⟨.init τ, [], []⟩

namespace InboundState

theorem chatterSigner_profiled (s : InboundState) (room id : RoomId) (userId key : JsString) :
    ((s.chatterSigner room userId key).chat id).profiledChatters =
      (s.chat id).profiledChatters := by
  unfold chatterSigner
  split
  · rfl
  · exact Undelivered.setChat (f := RoomChat.profiledChatters) s room id rfl

/-- A bridged frame leaves its chatter marked, and marks nobody else. -/
theorem bridgeChatter_profiled (s : InboundState) (room id : RoomId) (userId key u : JsString) :
    u ∈ ((s.bridgeChatter room userId key).chat id).profiledChatters ↔
      u ∈ (s.chat id).profiledChatters ∨ (id = room ∧ u = userId) := by
  have hsigner (i : RoomId) := chatterSigner_profiled s room i userId key
  unfold bridgeChatter
  dsimp only
  split
  · rename_i hmem
    rw [hsigner id]
    constructor
    · exact .inl
    · rintro (hu | ⟨rfl, rfl⟩)
      · exact hu
      · rwa [hsigner id] at hmem
  · by_cases hid : id = room
    · subst hid
      simp [setChat, hsigner id, or_comm]
    · simp [setChat, hid, hsigner id]

end InboundState

namespace ChatState

variable {τ : Type}

/-- The chatter's identity was published this session, says the room. -/
def Profiled (s : ChatState τ) (c : Chatter) : Prop :=
  c.2 ∈ (s.inbound.chat c.1).profiledChatters

instance (s : ChatState τ) (c : Chatter) : Decidable (s.Profiled c) :=
  inferInstanceAs (Decidable (c.2 ∈ (s.inbound.chat c.1).profiledChatters))

/-- The frame has a text that L3 has not seen, or is a join. -/
def bridges (s : ChatState τ) (room : RoomId) : SourceFrame → Bool
  | .chat msg _ =>
    msg.text ≠ [] && !((s.inbound.chat room).check s.inbound.now
      (FingerprintCache.key msg.displayName msg.text)).1
  | .join _ => true

/-- The handler that a step starts or goes on with. -/
def handlerOf (s : ChatState τ) : ChatAction τ → Option HandlerId
  | .inbound _ => none
  | .frame _ _ _ => some s.nextHandler
  | .answered id _ | .resume id => some id

/-- The handler of the step from `s` to `s'`, when that step suspended it at `p`. -/
def reaches (s s' : ChatState τ) (a : ChatAction τ) (p : Publishing) :
    Option (HandlerId × SourceHandler) :=
  (s.handlerOf a).bind fun id =>
    (s'.handlers.get? id).bind fun h => if h.publishing = p then some (id, h) else none

/-- The calls of `gateway.publish` in a log. -/
def published (log : List (ChatEffect τ)) : List GatewayCall :=
  log.filterMap fun e =>
    match e with
    | .gateway (.publish signer kind content tags) => some (.publish signer kind content tags)
    | _ => none

theorem published_append (log log' : List (ChatEffect τ)) :
    published (log ++ log') = published log ++ published log' := List.filterMap_append

/-- What the handler publishes when its turn comes in this state. -/
def eventOf (cfg : ChatServiceConfig) (s : ChatState τ) (h : SourceHandler) : GatewayCall :=
  eventCall cfg s.inbound.now (s.inbound.rooms.room h.room).aTag h.signer h.frame

/-- From `s` to `t` a frame of the room started the handler `h`: at its own event if its chatter
was marked, and otherwise at the chatter's profile. -/
structure Started (cfg : ChatServiceConfig) (s t : ChatState τ) (room : RoomId)
    (frame : SourceFrame) (h : SourceHandler) : Prop where
  chatter : h.chatter = (room, frame.userId)
  carries : h.frame = frame
  publishing : h.publishing = if s.Profiled (room, frame.userId) then .event else .profile
  handlers : t.handlers = s.handlers.set s.nextHandler h
  nextHandler : t.nextHandler = s.nextHandler + 1
  profiled : ∀ c, t.Profiled c ↔ s.Profiled c ∨ c = (room, frame.userId)
  log : published t.log = published s.log ++
    if s.Profiled (room, frame.userId) then [eventOf cfg s h] else []

theorem bridge_started (cfg : ChatServiceConfig) (s : ChatState τ) (room : RoomId)
    (frame : SourceFrame) (key : JsString) :
    ∃ h, Started cfg s (s.bridge cfg room frame key) room frame h := by
  let created : List (ChatEffect τ) := if (s.inbound.chat room).chatterSigners.has frame.userId
    then [] else [.bridged key]
  have hcreated : published created = [] := by
    simp only [created]
    split <;> rfl
  have hnow : (s.inbound.bridgeChatter room frame.userId key).now = s.inbound.now := by
    obtain ⟨c, bridged, hc, -⟩ := s.inbound.bridgeChatter_eq room frame.userId key
    rw [hc]
    rfl
  have hprofiled (c : Chatter) : (s.bridge cfg room frame key).Profiled c ↔
      s.Profiled c ∨ c = (room, frame.userId) := by
    simp [Profiled, bridge_inbound, InboundState.bridgeChatter_profiled, Prod.ext_iff]
  let signer := signerOf (s.inbound.chat room) frame.userId key
  by_cases hp : s.Profiled (room, frame.userId)
  · have hmem : frame.userId ∈ (s.inbound.chat room).profiledChatters := hp
    refine ⟨⟨room, frame, signer, .event⟩, rfl, rfl, (if_pos hp).symm, ?_, ?_, hprofiled, ?_⟩
    · simp [bridge, hmem, emit, startHandler, setHandler, signer]
    · simp [bridge, hmem, emit, startHandler, setHandler]
    · have hlog : (s.bridge cfg room frame key).log = (s.log ++ created) ++
          [.gateway (eventOf cfg s ⟨room, frame, signer, .event⟩)] := by
        simp [bridge, hmem, emit, startHandler, setHandler, signer, eventOf, hnow, created]
      rw [hlog, published_append, published_append, hcreated, List.append_nil, if_pos hp]
      rfl
  · have hmem : frame.userId ∉ (s.inbound.chat room).profiledChatters := hp
    refine ⟨⟨room, frame, signer, .profile⟩, rfl, rfl, (if_neg hp).symm, ?_, ?_, hprofiled, ?_⟩
    · simp [bridge, hmem, emit, startHandler, setHandler, signer]
    · simp [bridge, hmem, emit, startHandler, setHandler]
    · have hlog : (s.bridge cfg room frame key).log = (s.log ++ created) ++
          [.gateway (profileCall cfg signer frame.displayName
            (s.inbound.rooms.room room).row.url)] := by
        simp [bridge, hmem, emit, startHandler, setHandler, signer, created]
      rw [hlog, published_append, published_append, hcreated, List.append_nil, if_neg hp]
      rfl

/-- The fingerprint of a frame marks no chatter. -/
theorem check_profiled (s : ChatState τ) (room : RoomId) (fp : JsString) (c : Chatter) :
    let checked := ((s.inbound.chat room).check s.inbound.now fp).2
    ({ s with inbound := s.inbound.setChat room checked } : ChatState τ).Profiled c ↔
      s.Profiled c := by
  intro checked
  have hc := InboundState.Undelivered.setChat (f := RoomChat.profiledChatters) s.inbound
    room c.1 (c := checked) (InboundState.Undelivered.check (f := RoomChat.profiledChatters)
      (fun _ _ _ _ _ => rfl) (s.inbound.chat room) _ _ checked.delivering)
  exact iff_of_eq (congrArg (c.2 ∈ ·) hc)

theorem handleFrame_bridges (cfg : ChatServiceConfig) {s : ChatState τ} {room : RoomId}
    {frame : SourceFrame} (key : JsString) (hb : s.bridges room frame = true) :
    ∃ h, Started cfg s (s.handleFrame cfg room key frame) room frame h := by
  cases frame with
  | join presence => exact s.bridge_started cfg room (.join presence) key
  | chat msg emojis =>
    let fp := FingerprintCache.key msg.displayName msg.text
    obtain ⟨htext, hseen⟩ : msg.text ≠ [] ∧
        ((s.inbound.chat room).check s.inbound.now fp).1 = false := by
      simpa [bridges] using hb
    let checked := ((s.inbound.chat room).check s.inbound.now fp).2
    let m : ChatState τ := { s with inbound := s.inbound.setChat room checked }
    have hframe : s.handleFrame cfg room key (.chat msg emojis) =
        m.bridge cfg room (.chat msg emojis) key := by
      simp [handleFrame, handleSourceChat, htext, hseen, m, checked, fp]
    have hm (c : Chatter) : m.Profiled c ↔ s.Profiled c := s.check_profiled room fp c
    obtain ⟨h, hstart⟩ := m.bridge_started cfg room (.chat msg emojis) key
    refine ⟨h, hstart.chatter, hstart.carries, ?_, ?_, ?_, ?_, ?_⟩
    · simpa only [hm] using hstart.publishing
    · rw [hframe, hstart.handlers]
    · rw [hframe, hstart.nextHandler]
    · rw [hframe]
      simpa only [hm] using hstart.profiled
    · have hlog := hstart.log
      simp only [hm] at hlog
      rw [hframe]
      exact hlog

/-- Any other frame leaves no more than its fingerprint. -/
theorem handleFrame_drops (cfg : ChatServiceConfig) {s : ChatState τ} {room : RoomId}
    {frame : SourceFrame} (key : JsString) (hb : s.bridges room frame = false) :
    (s.handleFrame cfg room key frame).handlers = s.handlers ∧
    (s.handleFrame cfg room key frame).nextHandler = s.nextHandler ∧
    (∀ c, (s.handleFrame cfg room key frame).Profiled c ↔ s.Profiled c) ∧
    (s.handleFrame cfg room key frame).log = s.log := by
  cases frame with
  | join presence => cases hb
  | chat msg emojis =>
    by_cases htext : msg.text = []
    · simp [handleFrame, handleSourceChat, htext]
    · have hseen : ((s.inbound.chat room).check s.inbound.now
          (FingerprintCache.key msg.displayName msg.text)).1 = true := by
        simpa [bridges, htext] using hb
      simp only [handleFrame, handleSourceChat, if_neg htext, hseen, if_true, true_and, and_true]
      exact s.check_profiled room _

end ChatState

namespace OutboundTrace

open ChatState

variable {τ : Type} {cfg : ChatServiceConfig}

def handOver (cfg : ChatServiceConfig) (s : OutboundTrace τ) (id : HandlerId)
    (h : SourceHandler) : Handed :=
  ⟨id, h.chatter, h.frame.kind, eventOf cfg s.service h, decide (h.chatter ∈ s.identified)⟩

/-- What the step to `service` adds to the trace. -/
def extend (cfg : ChatServiceConfig) (s : OutboundTrace τ) (a : ChatAction τ)
    (service : ChatState τ) : OutboundTrace τ where
  service
  identified := s.identified ++
    (s.service.reaches service a .identified).toList.map fun e => e.2.chatter
  handed := s.handed ++
    (s.service.reaches service a .event).toList.map fun e => s.handOver cfg e.1 e.2

def next (cfg : ChatServiceConfig) (s : OutboundTrace τ) (a : ChatAction τ) :
    Option (OutboundTrace τ) :=
  (ChatState.next cfg s.service a).map (s.extend cfg a)

/-- Whoever speaks or joins was introduced before. -/
def IdentityFirst (s : OutboundTrace τ) : Prop := ∀ e ∈ s.handed, e.identified = true

/-- The messages of one chatter stand in the order of their frames. -/
def InOrder (s : OutboundTrace τ) : Prop :=
  s.handed.Pairwise fun e e' =>
    e.chatter = e'.chatter → e.kind = 1311 → e'.kind = 1311 → e.handler < e'.handler

/-- A message of the chatter has not come to its own publish yet. -/
def Unsaid (s : OutboundTrace τ) (c : Chatter) : Prop :=
  ∃ e ∈ s.service.handlers.entries,
    e.2.chatter = c ∧ e.2.publishing ≠ .event ∧ e.2.frame.kind = 1311

/-- A frame of a marked chatter comes when the identity is complete, and a message also when
none is left behind it. -/
def Introduced (s : OutboundTrace τ) : ChatAction τ → Prop
  | .frame room frame _ =>
    s.service.bridges room frame = true → s.service.Profiled (room, frame.userId) →
      (room, frame.userId) ∈ s.identified ∧
        (frame.kind = 1311 → ¬ s.Unsaid (room, frame.userId))
  | _ => True

/-- The step starts no handler, marks nobody and hands nothing over. -/
structure Still (s t : OutboundTrace τ) : Prop where
  nextHandler : t.service.nextHandler = s.service.nextHandler
  profiled : ∀ c, t.service.Profiled c ↔ s.service.Profiled c
  handed : t.handed = s.handed
  log : published t.service.log = published s.service.log

/-- What a step does to the handlers and their events. -/
inductive Move (cfg : ChatServiceConfig) (s t : OutboundTrace τ) : ChatAction τ → Prop where
  | aside {a} (still : Still s t) (handlers : t.service.handlers = s.service.handlers)
      (identified : t.identified = s.identified) : Move cfg s t a
  | frame {room frame key h} (bridges : s.service.bridges room frame = true)
      (started : Started cfg s.service t.service room frame h)
      (identified : t.identified = s.identified)
      (handed : t.handed = s.handed ++
        if h.publishing = .event then [s.handOver cfg s.service.nextHandler h] else []) :
      Move cfg s t (.frame room frame key)
  | relayList {id ok h} (running : s.service.handlers.get? id = some h)
      (publishing : h.publishing = .profile) (still : Still s t)
      (handlers : t.service.handlers =
        s.service.handlers.set id { h with publishing := .relayList })
      (identified : t.identified = s.identified) : Move cfg s t (.answered id ok)
  | identified {id ok h} (running : s.service.handlers.get? id = some h)
      (publishing : h.publishing = .relayList) (still : Still s t)
      (handlers : t.service.handlers =
        s.service.handlers.set id { h with publishing := .identified })
      (identified : t.identified = s.identified ++ [h.chatter]) : Move cfg s t (.answered id ok)
  | finish {id ok} (still : Still s t)
      (handlers : t.service.handlers = s.service.handlers.delete id)
      (identified : t.identified = s.identified) : Move cfg s t (.answered id ok)
  | publish {id h} (running : s.service.handlers.get? id = some h)
      (publishing : h.publishing = .identified)
      (handlers : t.service.handlers =
        s.service.handlers.set id { h with publishing := .event })
      (nextHandler : t.service.nextHandler = s.service.nextHandler)
      (profiled : ∀ c, t.service.Profiled c ↔ s.service.Profiled c)
      (identified : t.identified = s.identified)
      (handed : t.handed = s.handed ++ [s.handOver cfg id h])
      (log : published t.service.log = published s.service.log ++ [eventOf cfg s.service h]) :
      Move cfg s t (.resume id)

/-- The handlers that were started are those below `nextHandler`. -/
def Numbered (s : OutboundTrace τ) : Prop :=
  ∀ id h, s.service.handlers.get? id = some h → id < s.service.nextHandler

theorem published_adapter (calls : List (ChatCall τ)) :
    published (calls.map ChatEffect.adapter) = [] := by
  simp [published]

theorem reaches_of_get? {s s' : ChatState τ} {a : ChatAction τ} {id : HandlerId}
    {h : SourceHandler} (ha : s.handlerOf a = some id) (hh : s'.handlers.get? id = some h)
    (p : Publishing) :
    s.reaches s' a p = if h.publishing = p then some (id, h) else none := by
  simp [reaches, ha, hh]

theorem reaches_of_none {s s' : ChatState τ} {a : ChatAction τ} {id : HandlerId}
    (ha : s.handlerOf a = some id) (hh : s'.handlers.get? id = none) (p : Publishing) :
    s.reaches s' a p = none := by
  simp [reaches, ha, hh]

theorem finish_move {s : OutboundTrace τ} {service : ChatState τ} {id : HandlerId} (ok : Bool)
    (hin : service.inbound = s.service.inbound) (hlog : service.log = s.service.log)
    (hnext : service.nextHandler = s.service.nextHandler)
    (hhandlers : service.handlers = s.service.handlers.delete id) :
    Move cfg s (s.extend cfg (.answered id ok) service) (.answered id ok) := by
  have hget : service.handlers.get? id = none := by simp [hhandlers, OrderedMap.get?_delete]
  have hreach := reaches_of_none (s := s.service) (a := .answered id ok) rfl hget
  refine .finish ⟨hnext, fun c => by simp [Profiled, extend, hin], ?_, congrArg published hlog⟩
    hhandlers ?_
  · simp [extend, hreach]
  · simp [extend, hreach]

theorem answered_move {s : OutboundTrace τ} {service : ChatState τ} {id : HandlerId}
    {h : SourceHandler} {ok : Bool} (hh : s.service.handlers.get? id = some h)
    (hs : answered cfg s.service id h ok = some service) :
    Move cfg s (s.extend cfg (.answered id ok) service) (.answered id ok) := by
  have hin := answered_inbound hs
  unfold answered at hs
  split at hs
  · rename_i hp
    split at hs
    · obtain rfl := Option.some.inj hs
      have hget : ((s.service.setHandler id { h with publishing := .relayList }).emit
          [.gateway (relayListCall cfg h.signer)]).handlers.get? id =
          some { h with publishing := .relayList } := by simp [emit, setHandler]
      have hreach := reaches_of_get? (s := s.service) (a := .answered id ok) rfl hget
      refine .relayList hh hp ⟨rfl, fun _ => Iff.rfl, ?_, ?_⟩ rfl ?_
      · simp [extend, hreach]
      · exact (published_append _ _).trans (List.append_nil _)
      · simp [extend, hreach]
    · obtain rfl := Option.some.inj hs
      exact finish_move ok hin rfl rfl rfl
  · rename_i hp
    split at hs
    · obtain rfl := Option.some.inj hs
      have hget : (s.service.setHandler id { h with publishing := .identified }).handlers.get? id =
          some { h with publishing := .identified } := by simp [setHandler]
      have hreach := reaches_of_get? (s := s.service) (a := .answered id ok) rfl hget
      refine .identified hh hp ⟨rfl, fun _ => Iff.rfl, ?_, rfl⟩ rfl ?_
      · simp [extend, hreach]
      · simp [extend, hreach, SourceHandler.chatter]
    · obtain rfl := Option.some.inj hs
      exact finish_move ok hin rfl rfl rfl
  · cases hs
  · split at hs
    · obtain rfl := Option.some.inj hs
      cases hf : h.frame with
      | chat msg emojis => exact finish_move ok rfl rfl rfl rfl
      | join presence => exact finish_move ok rfl rfl rfl rfl
    · obtain rfl := Option.some.inj hs
      exact finish_move ok hin rfl rfl rfl

/-- What an enabled step does, by the stage of the handler it is about. -/
theorem next_move {s t : OutboundTrace τ} {a : ChatAction τ} (hn : s.Numbered)
    (hs : next cfg s a = some t) : Move cfg s t a := by
  obtain ⟨service, hservice, rfl⟩ := Option.map_eq_some_iff.mp hs
  cases a with
  | inbound b =>
    simp only [ChatState.next] at hservice
    split at hservice
    · cases hservice
    · rename_i hb
      obtain ⟨r, hr, rfl⟩ := Option.map_eq_some_iff.mp hservice
      refine .aside ⟨rfl, fun c => ?_, ?_, ?_⟩ rfl ?_
      · have hprofiled := InboundState.step_undelivered (f := RoomChat.profiledChatters)
          (fun _ _ _ _ _ => rfl) (by simpa using hb) hr c.1
        exact iff_of_eq (congrArg (c.2 ∈ ·) hprofiled)
      · simp [extend, reaches, handlerOf]
      · simp [extend, emit, published_append, published_adapter]
      · simp [extend, reaches, handlerOf]
  | frame room frame key =>
    simp only [ChatState.next] at hservice
    split at hservice
    · obtain rfl := Option.some.inj hservice
      by_cases hb : s.service.bridges room frame = true
      · obtain ⟨h, hstart⟩ := handleFrame_bridges cfg key hb
        have hget : (s.service.handleFrame cfg room key frame).handlers.get?
            s.service.nextHandler = some h := by simp [hstart.handlers]
        have hreach := reaches_of_get? (s := s.service) (a := .frame room frame key) rfl hget
        have hstage : h.publishing ≠ .identified := by
          rw [hstart.publishing]
          split <;> simp
        refine .frame hb hstart ?_ ?_
        · simp [extend, hreach, hstage]
        · rw [extend, hreach .event]
          split <;> rfl
      · obtain ⟨hhandlers, hnext, hprofiled, hlog⟩ :=
          handleFrame_drops cfg key (by simpa using hb)
        have hget : (s.service.handleFrame cfg room key frame).handlers.get?
            s.service.nextHandler = none := by
          rw [hhandlers]
          by_contra hsome
          obtain ⟨h, hh⟩ := Option.ne_none_iff_exists'.mp hsome
          exact Nat.lt_irrefl _ (hn _ _ hh)
        have hreach := reaches_of_none (s := s.service) (a := .frame room frame key) rfl hget
        refine .aside ⟨hnext, hprofiled, ?_, congrArg published hlog⟩ hhandlers ?_
        · simp [extend, hreach]
        · simp [extend, hreach]
    · cases hservice
  | answered id ok =>
    obtain ⟨h, hh, hservice⟩ := Option.bind_eq_some_iff.mp hservice
    exact answered_move hh hservice
  | resume id =>
    simp only [ChatState.next] at hservice
    split at hservice
    · rename_i h hh
      split at hservice
      · rename_i hp
        obtain rfl := Option.some.inj hservice
        have hget : (s.service.publishEvent cfg id h).handlers.get? id =
            some { h with publishing := .event } := by simp [publishEvent, emit, setHandler]
        have hreach := reaches_of_get? (s := s.service) (a := .resume id) rfl hget
        refine .publish hh hp rfl rfl (fun _ => Iff.rfl) ?_ ?_ ?_
        · simp [extend, hreach]
        · rw [extend, hreach .event]
          rfl
        · simp only [extend, publishEvent, emit, published_append]
          rfl
      · cases hservice
    · cases hservice

/-- The handlers of a run: those before their own event belong to marked chatters, one to each;
whoever has handed something over is marked too. -/
structure Booked (s : OutboundTrace τ) : Prop where
  numbered : s.Numbered
  marked : ∀ id h, s.service.handlers.get? id = some h → s.service.Profiled h.chatter
  alone : ∀ id h id' h', s.service.handlers.get? id = some h →
    s.service.handlers.get? id' = some h' → h.publishing ≠ .event → h'.publishing ≠ .event →
    h'.chatter = h.chatter → id' = id
  complete : ∀ id h, s.service.handlers.get? id = some h → h.publishing = .identified →
    h.chatter ∈ s.identified
  handed : ∀ e ∈ s.handed, e.handler < s.service.nextHandler ∧ s.service.Profiled e.chatter
  log : published s.service.log = s.handed.map Handed.call

theorem booked_init (τ : Type) : (init τ).Booked where
  numbered := by simp [Numbered, init, ChatState.init]
  marked := by simp [init, ChatState.init]
  alone := by simp [init, ChatState.init]
  complete := by simp [init, ChatState.init]
  handed := by simp [init]
  log := rfl

/-- One handler takes a step towards its own event. -/
theorem Booked.advance {s t : OutboundTrace τ} (hb : s.Booked) {id : HandlerId}
    {h h' : SourceHandler} (hh : s.service.handlers.get? id = some h)
    (hp : h.publishing ≠ .event) (hhandlers : t.service.handlers = s.service.handlers.set id h')
    (hc : h'.chatter = h.chatter)
    (hnext : t.service.nextHandler = s.service.nextHandler)
    (hprofiled : ∀ c, t.service.Profiled c ↔ s.service.Profiled c)
    (hold : ∀ c ∈ s.identified, c ∈ t.identified)
    (hcomplete : h'.publishing = .identified → h.chatter ∈ t.identified)
    (hhanded : ∀ e ∈ t.handed, e ∈ s.handed ∨ (e.handler = id ∧ e.chatter = h.chatter))
    (hlog : published t.service.log = t.handed.map Handed.call) : t.Booked := by
  have hmarked := hb.marked id h hh
  have hnum := hb.numbered id h hh
  refine ⟨?_, ?_, ?_, ?_, ?_, hlog⟩
  · intro i k hk
    rw [hhandlers, OrderedMap.get?_set] at hk
    rw [hnext]
    split at hk
    · rename_i hi
      exact hi ▸ hnum
    · exact hb.numbered i k hk
  · intro i k hk
    rw [hhandlers, OrderedMap.get?_set] at hk
    rw [hprofiled]
    split at hk
    · obtain rfl := Option.some.inj hk
      rwa [hc]
    · exact hb.marked i k hk
  · intro i k i' k' hk hk' hpk hpk' hck
    rw [hhandlers, OrderedMap.get?_set] at hk hk'
    split at hk
    · rename_i hi
      obtain rfl := Option.some.inj hk
      split at hk'
      · rename_i hi'
        exact hi'.trans hi.symm
      · exact (hb.alone id h i' k' hh hk' hp hpk' (hck.trans hc)).trans hi.symm
    · split at hk'
      · rename_i hi'
        obtain rfl := Option.some.inj hk'
        exact hi'.trans (hb.alone i k id h hk hh hpk hp (hc.symm.trans hck))
      · exact hb.alone i k i' k' hk hk' hpk hpk' hck
  · intro i k hk hpk
    rw [hhandlers, OrderedMap.get?_set] at hk
    split at hk
    · obtain rfl := Option.some.inj hk
      rw [hc]
      exact hcomplete hpk
    · exact hold _ (hb.complete i k hk hpk)
  · intro e he
    rw [hnext, hprofiled]
    rcases hhanded e he with hs | ⟨hid, hec⟩
    · exact hb.handed e hs
    · exact ⟨hid ▸ hnum, hec ▸ hmarked⟩

theorem Booked.aside {s t : OutboundTrace τ} (hb : s.Booked) (hstill : Still s t)
    (hsub : ∀ id h, t.service.handlers.get? id = some h → s.service.handlers.get? id = some h)
    (hid : t.identified = s.identified) : t.Booked := by
  refine ⟨?_, ?_, ?_, ?_, ?_, ?_⟩
  · intro id h hh
    rw [hstill.nextHandler]
    exact hb.numbered id h (hsub id h hh)
  · intro id h hh
    rw [hstill.profiled]
    exact hb.marked id h (hsub id h hh)
  · intro id h id' h' hh hh'
    exact hb.alone id h id' h' (hsub id h hh) (hsub id' h' hh')
  · intro id h hh hp
    rw [hid]
    exact hb.complete id h (hsub id h hh) hp
  · intro e he
    rw [hstill.nextHandler, hstill.profiled]
    exact hb.handed e (hstill.handed ▸ he)
  · rw [hstill.log, hstill.handed]
    exact hb.log

/-- A new handler waits for an identity only if nobody else of its chatter does. -/
theorem Booked.start {s t : OutboundTrace τ} (hb : s.Booked) {room : RoomId}
    {frame : SourceFrame} {h : SourceHandler}
    (hs : Started cfg s.service t.service room frame h) (hid : t.identified = s.identified)
    (hhanded : t.handed = s.handed ++
      if h.publishing = .event then [s.handOver cfg s.service.nextHandler h] else []) :
    t.Booked := by
  have hunmarked (hp : h.publishing ≠ .event) (id : HandlerId) (k : SourceHandler)
      (hk : s.service.handlers.get? id = some k) : k.chatter ≠ h.chatter := by
    intro hc
    have hmarked := hb.marked id k hk
    rw [hc, hs.chatter] at hmarked
    exact hp (by rw [hs.publishing, if_pos hmarked])
  have hfirst : h.publishing ≠ .identified := by
    rw [hs.publishing]
    split <;> simp
  have hevent : h.publishing = .event ↔ s.service.Profiled (room, frame.userId) := by
    rw [hs.publishing]
    split <;> simp [*]
  refine ⟨?_, ?_, ?_, ?_, ?_, ?_⟩
  · intro id k hk
    rw [hs.handlers, OrderedMap.get?_set] at hk
    rw [hs.nextHandler]
    split at hk
    · rename_i hi
      exact hi ▸ Nat.lt_succ_self _
    · exact Nat.lt_succ_of_lt (hb.numbered id k hk)
  · intro id k hk
    rw [hs.handlers, OrderedMap.get?_set] at hk
    rw [hs.profiled]
    split at hk
    · obtain rfl := Option.some.inj hk
      exact .inr hs.chatter
    · exact .inl (hb.marked id k hk)
  · intro id k id' k' hk hk' hpk hpk' hck
    rw [hs.handlers, OrderedMap.get?_set] at hk hk'
    split at hk
    · rename_i hi
      obtain rfl := Option.some.inj hk
      split at hk'
      · rename_i hi'
        exact hi'.trans hi.symm
      · exact absurd hck (hunmarked hpk id' k' hk')
    · split at hk'
      · obtain rfl := Option.some.inj hk'
        exact absurd hck.symm (hunmarked hpk' id k hk)
      · exact hb.alone id k id' k' hk hk' hpk hpk' hck
  · intro id k hk hpk
    rw [hs.handlers, OrderedMap.get?_set] at hk
    split at hk
    · obtain rfl := Option.some.inj hk
      exact absurd hpk hfirst
    · rw [hid]
      exact hb.complete id k hk hpk
  · intro e he
    rw [hs.nextHandler, hs.profiled]
    rw [hhanded] at he
    rcases List.mem_append.mp he with he | he
    · exact ⟨Nat.lt_succ_of_lt (hb.handed e he).1, .inl (hb.handed e he).2⟩
    · split at he
      · obtain rfl : e = _ := by simpa using he
        exact ⟨Nat.lt_succ_self _, .inr hs.chatter⟩
      · simp at he
  · rw [hs.log, hhanded, hb.log]
    by_cases hp : h.publishing = .event
    · rw [if_pos hp, if_pos (hevent.mp hp), List.map_append]
      rfl
    · rw [if_neg hp, if_neg (hevent.not.mp hp), List.append_nil, List.append_nil]

theorem next_booked {s t : OutboundTrace τ} {a : ChatAction τ} (hb : s.Booked)
    (hs : next cfg s a = some t) : t.Booked := by
  cases next_move hb.numbered hs with
  | aside still handlers identified =>
    exact hb.aside still (fun _ _ hh => handlers ▸ hh) identified
  | frame bridges started identified handed => exact hb.start started identified handed
  | relayList running publishing still handlers identified =>
    refine hb.advance running (by simp [publishing]) handlers rfl still.nextHandler still.profiled
      (by simp [identified]) (by simp) (fun e he => .inl (still.handed ▸ he)) ?_
    rw [still.log, still.handed]
    exact hb.log
  | identified running publishing still handlers identified =>
    refine hb.advance running (by simp [publishing]) handlers rfl still.nextHandler still.profiled
      (by simp +contextual [identified]) (by simp [identified])
      (fun e he => .inl (still.handed ▸ he)) ?_
    rw [still.log, still.handed]
    exact hb.log
  | finish still handlers identified =>
    refine hb.aside still (fun i k hk => ?_) identified
    rw [handlers, OrderedMap.get?_delete] at hk
    split at hk
    · cases hk
    · exact hk
  | publish running publishing handlers nextHandler profiled identified handed log =>
    refine hb.advance running (by simp [publishing]) handlers rfl nextHandler profiled
      (by simp [identified]) (by simp) (fun e he => ?_) ?_
    · rw [handed] at he
      rcases List.mem_append.mp he with he | he
      · exact .inl he
      · obtain rfl : e = _ := by simpa using he
        exact .inr ⟨rfl, rfl⟩
    · rw [log, handed, hb.log, List.map_append]
      rfl

theorem run_booked {as : List (ChatAction τ)} {t : OutboundTrace τ}
    (hr : run (next cfg) (init τ) as = some t) : t.Booked :=
  run_invariant_all (fun _ _ _ hb hs => next_booked hb hs) (booked_init τ) hr

/-- The trace lists every 1311 and every presence that the service publishes. -/
theorem handed_published {as : List (ChatAction τ)} {t : OutboundTrace τ}
    (hr : run (next cfg) (init τ) as = some t) :
    t.handed.map Handed.call = published t.service.log := (run_booked hr).log.symm

theorem unsaid_iff (s : OutboundTrace τ) (c : Chatter) :
    s.Unsaid c ↔ ∃ id h, s.service.handlers.get? id = some h ∧ h.chatter = c ∧
      h.publishing ≠ .event ∧ h.frame.kind = 1311 := by
  constructor
  · rintro ⟨⟨id, h⟩, hmem, hc⟩
    exact ⟨id, h, (OrderedMap.get?_eq_some_iff _ _ _).mpr hmem, hc⟩
  · rintro ⟨id, h, hget, hc⟩
    exact ⟨(id, h), (OrderedMap.get?_eq_some_iff _ _ _).mp hget, hc⟩

/-- The invariant of a run whose chatters are introduced: nobody is heard while an earlier
message of his waits. -/
structure Ordered (s : OutboundTrace τ) : Prop where
  unheard : ∀ e ∈ s.handed, e.kind = 1311 → ¬ s.Unsaid e.chatter
  identityFirst : s.IdentityFirst
  inOrder : s.InOrder

theorem ordered_init (τ : Type) : (init τ).Ordered where
  unheard := by simp [init]
  identityFirst := by simp [IdentityFirst, init]
  inOrder := by simp [InOrder, init]

theorem Ordered.aside {s t : OutboundTrace τ} (ho : s.Ordered) (hhanded : t.handed = s.handed)
    (hunsaid : ∀ e ∈ s.handed, t.Unsaid e.chatter → s.Unsaid e.chatter) : t.Ordered := by
  refine ⟨?_, ?_, ?_⟩
  · intro e he hk hu
    rw [hhanded] at he
    exact ho.unheard e he hk (hunsaid e he hu)
  · intro e he
    exact ho.identityFirst e (hhanded ▸ he)
  · rw [InOrder, hhanded]
    exact ho.inOrder

/-- An introduced chatter's next event goes out. -/
theorem Ordered.hand {s t : OutboundTrace τ} (ho : s.Ordered) {e : Handed}
    (hhanded : t.handed = s.handed ++ [e]) (hid : e.identified = true)
    (hunsaid : ∀ c, t.Unsaid c → s.Unsaid c) (hlast : e.kind = 1311 → ¬ t.Unsaid e.chatter)
    (horder : ∀ e' ∈ s.handed, e'.chatter = e.chatter → e'.kind = 1311 → e.kind = 1311 →
      e'.handler < e.handler) : t.Ordered := by
  refine ⟨?_, ?_, ?_⟩
  · intro d hd hk hu
    rw [hhanded] at hd
    rcases List.mem_append.mp hd with hd | hd
    · exact ho.unheard d hd hk (hunsaid _ hu)
    · obtain rfl : d = e := by simpa using hd
      exact hlast hk hu
  · intro d hd
    rw [hhanded] at hd
    rcases List.mem_append.mp hd with hd | hd
    · exact ho.identityFirst d hd
    · obtain rfl : d = e := by simpa using hd
      exact hid
  · rw [InOrder, hhanded, List.pairwise_append]
    refine ⟨ho.inOrder, List.pairwise_singleton _ _, fun e' he' d hd => ?_⟩
    obtain rfl : d = e := by simpa using hd
    exact horder e' he'

/-- Handlers that are still before their event, after one of them was set. -/
theorem unsaid_set {s t : OutboundTrace τ} {id : HandlerId} {h : SourceHandler} {c : Chatter}
    (hhandlers : t.service.handlers = s.service.handlers.set id h) (hu : t.Unsaid c) :
    s.Unsaid c ∨ (h.chatter = c ∧ h.publishing ≠ .event ∧ h.frame.kind = 1311) := by
  obtain ⟨i, k, hk, hrest⟩ := (unsaid_iff t c).mp hu
  rw [hhandlers, OrderedMap.get?_set] at hk
  split at hk
  · obtain rfl := Option.some.inj hk
    exact .inr hrest
  · exact .inl ((unsaid_iff s c).mpr ⟨i, k, hk, hrest⟩)

theorem unsaid_sub {s t : OutboundTrace τ} {c : Chatter}
    (hsub : ∀ id h, t.service.handlers.get? id = some h → s.service.handlers.get? id = some h)
    (hu : t.Unsaid c) : s.Unsaid c := by
  obtain ⟨i, k, hk, hrest⟩ := (unsaid_iff t c).mp hu
  exact (unsaid_iff s c).mpr ⟨i, k, hsub i k hk, hrest⟩

theorem next_ordered {s t : OutboundTrace τ} {a : ChatAction τ} (hb : s.Booked)
    (ho : s.Ordered) (hg : s.Introduced a) (hs : next cfg s a = some t) : t.Ordered := by
  cases next_move hb.numbered hs with
  | aside still handlers identified =>
    exact ho.aside still.handed fun e _ hu => unsaid_sub (fun _ _ hh => handlers ▸ hh) hu
  | @frame room frame key h bridges started identified handed =>
    by_cases hp : s.service.Profiled (room, frame.userId)
    · obtain ⟨hid, hlast⟩ := hg bridges hp
      have hevent : h.publishing = .event := by rw [started.publishing, if_pos hp]
      have hback (c : Chatter) (hu : t.Unsaid c) : s.Unsaid c :=
        (unsaid_set started.handlers hu).resolve_right fun hne => hne.2.1 hevent
      refine ho.hand (by rw [handed, if_pos hevent]) ?_ hback ?_ ?_
      · simpa [handOver, started.chatter] using hid
      · intro hk hu
        have hchat : frame.kind = 1311 := by simpa [handOver, started.carries] using hk
        exact hlast hchat (started.chatter ▸ hback _ hu)
      · exact fun e he _ _ _ => (hb.handed e he).1
    · have hprofile : h.publishing ≠ .event := by rw [started.publishing, if_neg hp]; simp
      refine ho.aside (by rw [handed, if_neg hprofile, List.append_nil]) fun e he hu => ?_
      refine (unsaid_set started.handlers hu).resolve_right fun hnew => hp ?_
      rw [← started.chatter, hnew.1]
      exact (hb.handed e he).2
  | relayList running publishing still handlers identified =>
    refine ho.aside still.handed fun e _ hu => (unsaid_set handlers hu).elim id fun hnew => ?_
    exact (unsaid_iff s _).mpr ⟨_, _, running, hnew.1, by simp [publishing], hnew.2.2⟩
  | identified running publishing still handlers identified =>
    refine ho.aside still.handed fun e _ hu => (unsaid_set handlers hu).elim id fun hnew => ?_
    exact (unsaid_iff s _).mpr ⟨_, _, running, hnew.1, by simp [publishing], hnew.2.2⟩
  | finish still handlers identified =>
    refine ho.aside still.handed fun e _ hu => unsaid_sub (fun i k hk => ?_) hu
    rw [handlers, OrderedMap.get?_delete] at hk
    split at hk
    · cases hk
    · exact hk
  | @publish id h running publishing handlers nextHandler profiled identified handed log =>
    have hp : h.publishing ≠ .event := by simp [publishing]
    have hback (c : Chatter) (hu : t.Unsaid c) : s.Unsaid c :=
      (unsaid_set handlers hu).resolve_right fun hne => hne.2.1 rfl
    refine ho.hand handed ?_ hback ?_ ?_
    · simpa [handOver] using hb.complete id h running publishing
    · intro _ hu
      obtain ⟨i, k, hk, hc, hpk, -⟩ := (unsaid_iff t _).mp hu
      rw [handlers, OrderedMap.get?_set] at hk
      split at hk
      · obtain rfl := Option.some.inj hk
        exact hpk rfl
      · rename_i hi
        exact hi (hb.alone id h i k running hk hp hpk hc)
    · intro e he hc hke hk
      exact absurd ((unsaid_iff s _).mpr ⟨id, h, running, hc.symm, hp, hk⟩)
        (ho.unheard e he hke)

/-- When no frame of a marked chatter comes before the identity is complete, nor a message while
an earlier one is on its way there, every chatter is introduced before he speaks and his messages
go out in order. -/
theorem outbound_introduced_in_order (cfg : ChatServiceConfig) {as : List (ChatAction τ)}
    {t : OutboundTrace τ} (hg : Guarded (next cfg) Introduced (init τ) as)
    (hr : run (next cfg) (init τ) as = some t) : t.IdentityFirst ∧ t.InOrder := by
  have hstep (s : OutboundTrace τ) (a : ChatAction τ) (s' : OutboundTrace τ)
      (hi : s.Booked ∧ s.Ordered) (hg : s.Introduced a) (hs : next cfg s a = some s') :
      s'.Booked ∧ s'.Ordered := ⟨next_booked hi.1 hs, next_ordered hi.1 hi.2 hg hs⟩
  have hinv := run_invariant hstep ⟨booked_init τ, ordered_init τ⟩ hg hr
  exact ⟨hinv.2.identityFirst, hinv.2.inOrder⟩

theorem run_handed {s t : OutboundTrace τ} {as : List (ChatAction τ)}
    (hr : run (next cfg) s as = some t) : ∀ e ∈ s.handed, e ∈ t.handed := by
  have hstep (m : OutboundTrace τ) (a : ChatAction τ) (m' : OutboundTrace τ)
      (hm : ∀ e ∈ s.handed, e ∈ m.handed) (hs : next cfg m a = some m') :
      ∀ e ∈ s.handed, e ∈ m'.handed := by
    intro e he
    obtain ⟨service, -, rfl⟩ := Option.map_eq_some_iff.mp hs
    exact List.mem_append_left _ (hm e he)
  exact run_invariant_all hstep (fun _ he => he) hr

/-- The first half of the condition is exact: a frame that comes before its chatter's identity
is complete is published without it. -/
theorem introduced_of_identityFirst {as : List (ChatAction τ)} {t : OutboundTrace τ}
    (hr : run (next cfg) (init τ) as = some t) (hfirst : t.IdentityFirst) :
    ∀ as₁ room frame key as₂ s, as = as₁ ++ .frame room frame key :: as₂ →
      run (next cfg) (init τ) as₁ = some s → s.service.bridges room frame = true →
      s.service.Profiled (room, frame.userId) → (room, frame.userId) ∈ s.identified := by
  intro as₁ room frame key as₂ s has hs hbridges hp
  obtain ⟨m, hm, ht⟩ := run_append_eq_some.mp (has ▸ hr)
  obtain rfl : s = m := Option.some.inj (hs.symm.trans hm)
  obtain ⟨s', hs', ht⟩ := run_cons_eq_some.mp ht
  obtain ⟨service, hservice, rfl⟩ := Option.map_eq_some_iff.mp hs'
  simp only [ChatState.next] at hservice
  split at hservice
  · obtain rfl := Option.some.inj hservice
    obtain ⟨h, hstart⟩ := handleFrame_bridges cfg key hbridges
    have hevent : h.publishing = .event := by rw [hstart.publishing, if_pos hp]
    have hget : (s.service.handleFrame cfg room key frame).handlers.get?
        s.service.nextHandler = some h := by simp [hstart.handlers]
    have hreach := reaches_of_get? (s := s.service) (a := .frame room frame key) rfl hget .event
    have hmem : s.handOver cfg s.service.nextHandler h ∈
        (s.extend cfg (.frame room frame key)
          (s.service.handleFrame cfg room key frame)).handed := by
      simp [extend, hreach, hevent]
    have hflag := hfirst _ (run_handed ht _ hmem)
    simpa [handOver, hstart.chatter] using hflag
  · cases hservice

instance (s : OutboundTrace τ) (c : Chatter) : Decidable (s.Unsaid c) :=
  inferInstanceAs (Decidable (∃ e ∈ s.service.handlers.entries, _ ∧ _ ∧ _))

instance (s : OutboundTrace τ) (a : ChatAction τ) : Decidable (s.Introduced a) :=
  match a with
  | .frame room frame _ =>
    inferInstanceAs (Decidable (s.service.bridges room frame = true →
      s.service.Profiled (room, frame.userId) → (room, frame.userId) ∈ s.identified ∧
        (frame.kind = 1311 → ¬ s.Unsaid (room, frame.userId))))
  | .inbound _ | .answered _ _ | .resume _ => inferInstanceAs (Decidable True)

/-- Alice's second message waits for her identity. -/
def helloAgain : List (ChatAction Unit) :=
  hello ++ [.answered 0 true, .answered 0 true, .resume 0,
    .frame 0 (.chat ⟨js "alice", js "Alice", js "again"⟩ []) (js "k2")]

theorem outbound_introduced_in_order_hello :
    ∃ t, run (next demoService) (init Unit) helloAgain = some t ∧
      t.handed.map Handed.handler = [0, 1] ∧ t.IdentityFirst ∧ t.InOrder := by
  have hrun : (run (next demoService) (init Unit) helloAgain).map
      (fun t => t.handed.map Handed.handler) = some [0, 1] := by decide +kernel
  obtain ⟨t, ht, hhanded⟩ := Option.map_eq_some_iff.mp hrun
  exact ⟨t, ht, hhanded, outbound_introduced_in_order demoService (by decide +kernel) ht⟩

/-- Alice's second message comes while the broadcast of her profile is pending: it goes out
before her identity and before her first one. -/
theorem second_message_overtakes :
    ∃ t, run (next demoService) (init Unit)
        (hello ++ [.frame 0 (.chat ⟨js "alice", js "Alice", js "again"⟩ []) (js "k2"),
          .answered 0 true, .answered 0 true, .resume 0]) = some t ∧
      ¬ t.IdentityFirst ∧ ¬ t.InOrder := by
  have hrun : (run (next demoService) (init Unit)
      (hello ++ [.frame 0 (.chat ⟨js "alice", js "Alice", js "again"⟩ []) (js "k2"),
        .answered 0 true, .answered 0 true, .resume 0])).map
      (fun t => t.handed.map fun e => (e.handler, e.chatter, e.kind, e.identified)) =
        some [(1, (0, js "alice"), 1311, false), (0, (0, js "alice"), 1311, true)] := by
    decide +kernel
  obtain ⟨t, ht, hhanded⟩ := Option.map_eq_some_iff.mp hrun
  obtain ⟨second, rest, hsecond, hs, hrest⟩ := List.map_eq_cons_iff.mp hhanded
  obtain ⟨first, last, rfl, hf, hlast⟩ := List.map_eq_cons_iff.mp hrest
  simp only [Prod.mk.injEq] at hs hf
  refine ⟨t, ht, fun h => ?_, fun h => ?_⟩
  · have hflag := h second (by simp [hsecond])
    simp [hs.2.2.2] at hflag
  · rw [InOrder, hsecond] at h
    have horder := List.rel_of_pairwise_cons h List.mem_cons_self
      (hs.2.1.trans hf.2.1.symm) hs.2.2.1 hf.2.2.1
    rw [hs.1, hf.1] at horder
    exact absurd horder (by decide)

end OutboundTrace

end LivelierBridge.Chat
