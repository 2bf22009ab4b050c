import LivelierBridge.Chat.Silence
import LivelierBridge.Config

namespace LivelierBridge

open Framework Js Nostr Discovery Chat

def isListenerOpening {τ : Type} : ChatEffect τ → Bool
  | .adapter (.rooms (.openListener _)) => true
  | _ => false

namespace BridgeConfig

variable {μ ν τ : Type} (config : BridgeConfig μ)

def startsDiscovery : Bool := config.owncast.enabled && config.owncast.discoveryEnabled

def startsChat : Bool :=
  config.owncast.enabled && (config.owncast.chatToNostr || config.owncast.chatFromNostr)

/-- The core settings as both services are given them; the messages live this many seconds. -/
def workerCore (seconds : Nat) : CoreConfig where
  chatRelayUrl := config.core.chatRelayUrl
  networkProfilePublishEnabled := config.core.networkProfilePublishEnabled
  networkProfileWriteRelays := config.core.networkProfileWriteRelays
  bridgeName := config.core.bridgeName
  eventRelayUrl := config.core.eventRelayUrl
  bridgeKeySecret := config.core.bridgeKeySecret
  chatExpirationSeconds := seconds

/-- The chat service with the gates of the source -/
def chatSettings (cfg : ChatServiceConfig) : ChatServiceConfig :=
  { cfg with
    chatToNostr := config.owncast.chatToNostr
    demand := config.core.demandUrl.isSome }

/-- `main` has started what takes the action; frames come of listeners that were opened. -/
def serves (s : Worker ν τ) : WorkerAction ν τ → Bool
  | .cycle _ => config.startsDiscovery
  | .chat (.frame _ _ _) => config.startsChat && s.chat.log.any isListenerOpening
  | .chat _ => config.startsChat
  | .store _ | .publish _ _ => true

/-- One step of the process that `main` starts. -/
def step [DecidableEq ν] [JsNumber ν] [JsFinite ν] (seconds : Nat) (E : Engine)
    (cfg : ChatServiceConfig) (createSignedEvent : PublishRequest ν → Nat → OutboundEvent ν)
    (s : Worker ν τ) (a : WorkerAction ν τ) : Option (Worker ν τ) :=
  if config.serves s a then
    Worker.step (config.workerCore seconds) E (config.chatSettings cfg) createSignedEvent s a
  else none

end BridgeConfig

namespace Chat

/-- Only the listings of refreshes are under way. -/
def RoomsState.Unopened (s : RoomsState) : Prop :=
  ∀ run p, s.runs.get? run = some p → p = .refreshListing

section Rooms

variable {cfg : RoomsConfig} {s : RoomsState} {r : RoomsState × List AdapterCall}

theorem RoomsState.Unopened.set (h : s.Unopened) {s' : RoomsState} (run : RunId)
    (hruns : s'.runs = s.runs.set run .refreshListing) : s'.Unopened := by
  intro run' p hp
  rw [hruns, OrderedMap.get?_set] at hp
  split at hp
  · exact (Option.some.inj hp).symm
  · exact h run' p hp

theorem RoomsState.Unopened.delete (h : s.Unopened) {s' : RoomsState} (run : RunId)
    (hruns : s'.runs = s.runs.delete run) : s'.Unopened := by
  intro run' p hp
  rw [hruns, OrderedMap.get?_delete] at hp
  split at hp
  · cases hp
  · exact h run' p hp

/-- Rooms that are not bridged to Nostr are opened without a listener. -/
theorem RoomsState.bringUp_unbridged (hoff : cfg.chatToNostr = false) (rows : List RoomRow)
    (s : RoomsState) : (s.bringUp cfg rows).2 = none ∧ (s.bringUp cfg rows).1.runs = s.runs := by
  induction rows generalizing s with
  | nil => exact ⟨rfl, rfl⟩
  | cons row rest ih =>
    unfold RoomsState.bringUp
    rw [hoff]
    split
    · exact ih s
    · simp only [Bool.false_and, Bool.false_eq_true, if_false]
      exact ih (s.openRoom cfg row)

theorem RoomsState.continueRefresh_unbridged (hoff : cfg.chatToNostr = false) (run : RunId)
    (rows : List RoomRow) (s : RoomsState) :
    s.continueRefresh cfg run rows = ((s.bringUp cfg rows).1.finish run, []) := by
  have hnone := (RoomsState.bringUp_unbridged hoff rows s).1
  unfold RoomsState.continueRefresh
  generalize s.bringUp cfg rows = brought at hnone
  obtain ⟨s', rest⟩ := brought
  obtain rfl : rest = none := hnone
  rfl

/-- With the way to Nostr shut no step asks for a listener. -/
theorem RoomsState.step_unopened (hoff : cfg.chatToNostr = false) (h : s.Unopened)
    {a : RoomsAction} (hs : s.step cfg a = some r) :
    r.1.Unopened ∧ ∀ url, .openListener url ∉ r.2 := by
  cases a with
  | refreshRooms =>
    obtain rfl := Option.some.inj hs
    exact ⟨h.set _ rfl, fun _ => List.not_mem_nil⟩
  | pollDemand =>
    simp only [RoomsState.step, hoff, Bool.and_false, Bool.false_eq_true, if_false] at hs
    obtain rfl := Option.some.inj hs
    exact ⟨h, fun _ => List.not_mem_nil⟩
  | stop =>
    obtain rfl := Option.some.inj hs
    refine ⟨h, fun url hmem => ?_⟩
    simp at hmem
  | rows run answer =>
    cases answer with
    | none =>
      simp only [RoomsState.step] at hs
      split at hs
      · obtain rfl := Option.some.inj hs
        exact ⟨h.delete run rfl, fun _ => List.not_mem_nil⟩
      · contradiction
      · cases hs
    | some rows =>
      simp only [RoomsState.step] at hs
      split at hs
      · contradiction
      · rename_i hrows
        obtain rfl := Option.some.inj hrows
        rw [RoomsState.continueRefresh_unbridged hoff] at hs
        obtain rfl := Option.some.inj hs
        have hruns := (RoomsState.bringUp_unbridged hoff (RoomsState.wantedRooms rows).values
          (s.closeUnwanted (RoomsState.wantedRooms rows))).2
        refine ⟨h.delete run (congrArg (·.delete run) hruns), fun url hmem => ?_⟩
        rw [List.append_nil] at hmem
        obtain ⟨e, -, he⟩ := List.mem_flatMap.mp hmem
        simp at he
      · cases hs
  | demanded run answer =>
    simp only [RoomsState.step] at hs
    split at hs
    · obtain rfl := Option.some.inj hs
      exact ⟨h.delete run rfl, fun _ => List.not_mem_nil⟩
    · rename_i hrun
      cases h run _ hrun
    · cases hs
  | listener run ok =>
    simp only [RoomsState.step] at hs
    split at hs
    · rename_i hrun
      cases h run _ hrun
    · rename_i hrun
      cases h run _ hrun
    · cases hs
  | resume run =>
    simp only [RoomsState.step] at hs
    split at hs
    · rename_i hrun
      cases h run _ hrun
    · rename_i hrun
      cases h run _ hrun
    · cases hs

end Rooms

section Inbound

variable {τ : Type} {cfg : InboundConfig} {s : InboundState}

/-- An inbound step that is none of the rooms' leaves them and opens no listener. -/
theorem InboundState.step_unopened (hoff : cfg.chatToNostr = false) (h : s.rooms.Unopened)
    {a : InboundAction τ} {r : InboundState × List (ChatCall τ)} (hs : s.step cfg a = some r) :
    r.1.rooms.Unopened ∧ ∀ url, .rooms (.openListener url) ∉ r.2 := by
  have hsame {s' : InboundState} (hrooms : s'.rooms = s.rooms) :
      s'.rooms.Unopened ∧ ∀ url, ChatCall.rooms (.openListener url) ∉ ([] : List (ChatCall τ)) :=
    ⟨hrooms ▸ h, fun _ => List.not_mem_nil⟩
  apply InboundState.step_elim (motive := fun _ s' calls =>
    s'.rooms.Unopened ∧ ∀ url, ChatCall.rooms (.openListener url) ∉ calls) hs
  case rooms =>
    intro b r' hr
    obtain ⟨hunopened, hcalls⟩ := RoomsState.step_unopened hoff h hr
    refine ⟨hunopened, fun url hmem => ?_⟩
    obtain ⟨call, hcall, heq⟩ := List.mem_map.mp hmem
    cases heq
    exact hcalls url hcall
  case tick => exact fun ms => hsame rfl
  case nostrEvent =>
    intro via event
    have hseen : (s.seen via).rooms = s.rooms := by cases via <;> rfl
    exact hsame ((InboundState.handleNostrEvent_rooms cfg _ event).trans hseen)
  case deliver => exact fun room event rest _ => hsame rfl
  case unnamed => exact fun room => hsame rfl
  case named =>
    intro room event name _
    unfold InboundState.named
    split <;> exact hsame rfl
  case check => exact fun room event displayName _ => hsame rfl
  case rendered =>
    intro room event displayName content _
    unfold InboundState.sendMessage
    dsimp only
    split
    · exact hsame rfl
    · refine ⟨h, fun url hmem => ?_⟩
      simp at hmem
  case settled => exact fun room => hsame rfl
  case sourceChat =>
    exact fun room msg key _ => hsame (s.handleSourceChat_rooms room msg key)
  case sourceJoin =>
    exact fun room presence key _ => hsame (s.bridgeChatter_rooms room presence.userId key)

end Inbound

/-- Nothing of the source is heard or on its way to Nostr. -/
structure ChatState.Muted {τ : Type} (c : ChatState τ) : Prop where
  unopened : c.inbound.rooms.Unopened
  unheard : c.log.any isListenerOpening = false
  idle : ∀ id, c.handlers.get? id = none

theorem ChatState.muted_init (τ : Type) : (ChatState.init τ).Muted :=
  ⟨fun _ _ h => by simp [ChatState.init, InboundState.init, RoomsState.init] at h, rfl, fun _ => rfl⟩

/-- What a muted service does is about rooms and deliveries only. -/
theorem ChatState.next_muted {τ : Type} {cfg : ChatServiceConfig} {c c' : ChatState τ}
    {a : ChatAction τ} (hoff : cfg.chatToNostr = false) (h : c.Muted)
    (hframe : ∀ room frame key, a ≠ .frame room frame key) (hs : ChatState.next cfg c a = some c') :
    c'.Muted ∧ ∃ calls : List (ChatCall τ), c'.log = c.log ++ calls.map ChatEffect.adapter := by
  cases a with
  | inbound a =>
    simp only [ChatState.next] at hs
    split at hs
    · cases hs
    · obtain ⟨r, hr, rfl⟩ := Option.map_eq_some_iff.mp hs
      obtain ⟨hunopened, hcalls⟩ := InboundState.step_unopened hoff h.unopened hr
      refine ⟨⟨hunopened, ?_, h.idle⟩, r.2, rfl⟩
      show (c.log ++ r.2.map ChatEffect.adapter).any isListenerOpening = false
      rw [List.any_append, h.unheard, Bool.false_or, List.any_eq_false]
      intro effect heffect
      obtain ⟨call, hcall, rfl⟩ := List.mem_map.mp heffect
      intro hopening
      unfold isListenerOpening at hopening
      split at hopening
      · rename_i url heq
        cases heq
        exact hcalls url hcall
      · cases hopening
  | frame room frame key => exact absurd rfl (hframe room frame key)
  | answered id ok =>
    simp only [ChatState.next, h.idle id, Option.bind_none] at hs
    cases hs
  | resume id =>
    simp only [ChatState.next, h.idle id] at hs
    cases hs

end Chat

section Publishes

variable {ν : Type} {createSignedEvent : PublishRequest ν → Nat → OutboundEvent ν}

/-- A plain publish answers no challenge. -/
theorem step_plain {r : PublishRequest ν} {sending : Sending ν} {a : PublishAction}
    {o : Sending ν × List (Sent ν)} {urls : List JsString} (hroute : r.route = .plain urls)
    (h : PublishRequest.Underway createSignedEvent r sending)
    (hs : r.step createSignedEvent sending a = some o) :
    ∀ x ∈ o.2, ∃ n, x.event = createSignedEvent r n := by
  cases h with
  | signing =>
    cases a with
    | signed answer =>
      cases answer with
      | none =>
        obtain rfl := Option.some.inj hs
        exact fun x hx => absurd hx List.not_mem_nil
      | some n =>
        obtain rfl := Option.some.inj hs
        exact fun x hx => absurd hx List.not_mem_nil
    | _ => cases hs
  | plain n hrelays =>
    cases a with
    | connected relayUrl ok =>
      simp only [PublishRequest.step] at hs
      split at hs
      · obtain rfl := Option.some.inj hs
        intro x hx
        dsimp only at hx
        split at hx
        · rw [List.mem_singleton.mp hx]
          exact ⟨n, rfl⟩
        · cases hx
      · cases hs
    | _ => cases hs
  | authed n socket =>
    simp only [PublishRequest.step, hroute] at hs
    cases hs
  | failed => cases a <;> cases hs

end Publishes

namespace BridgeConfig

variable {μ ν τ : Type} {config : BridgeConfig μ} {seconds : Nat}
  {createSignedEvent : PublishRequest ν → Nat → OutboundEvent ν}

/-- A publish that the services which are on may begin. -/
inductive Begins (config : BridgeConfig μ) (r : PublishRequest ν) : Prop
  | discovered (hon : config.startsDiscovery = true)
      (hkind : r.kind = 0 ∨ r.kind = 10002 ∨ r.kind = 30311) (urls : List JsString)
      (hroute : r.route = .plain urls)
  | chatter (hon : config.startsChat = true) (hto : config.owncast.chatToNostr = true)
      (hkind : r.kind = 0 ∨ r.kind = 10002) (urls : List JsString) (hroute : r.route = .plain urls)
  | bridged (hon : config.startsChat = true) (hto : config.owncast.chatToNostr = true)
      (hkind : r.kind = 1311 ∨ r.kind = 10312) (hroute : r.route = .authed config.core.chatRelayUrl)

/-- An event that was sent for such a publish -/
structure SentFor (config : BridgeConfig μ) (seconds : Nat)
    (createSignedEvent : PublishRequest ν → Nat → OutboundEvent ν) (r : PublishRequest ν)
    (x : Sent ν) : Prop where
  begins : config.Begins r
  contained : RequestContained (config.workerCore seconds) r
  sends : r.Sends createSignedEvent x
  signed : ∀ urls, r.route = .plain urls → ∃ n, x.event = createSignedEvent r n

structure Booted (config : BridgeConfig μ) (seconds : Nat)
    (createSignedEvent : PublishRequest ν → Nat → OutboundEvent ν) (s : Worker ν τ) : Prop where
  kept : Worker.Kept (config.workerCore seconds) createSignedEvent s
  publishes : ∀ p ∈ s.publishes, config.Begins p.1
  sent : ∀ x ∈ s.sent, ∃ r, config.SentFor seconds createSignedEvent r x.2
  muted : config.owncast.chatToNostr = false → s.chat.Muted

theorem booted_init (config : BridgeConfig μ) (seconds : Nat)
    (createSignedEvent : PublishRequest ν → Nat → OutboundEvent ν) :
    config.Booted seconds createSignedEvent (Worker.init ν τ) :=
  ⟨⟨fun _ hp => absurd hp List.not_mem_nil, fun _ hx => absurd hx List.not_mem_nil⟩,
    fun _ hp => absurd hp List.not_mem_nil, fun _ hx => absurd hx List.not_mem_nil,
    fun _ => ChatState.muted_init τ⟩

theorem requestOfCall_kind [JsNumber ν] [JsFinite ν] {now : Nat} {x : Call ν}
    {r : PublishRequest ν} (hr : requestOfCall now x = some r) :
    (r.kind = 0 ∨ r.kind = 10002 ∨ r.kind = 30311) ∧ ∃ urls, r.route = .plain urls := by
  cases x with
  | publishProfile signer profile relayUrls results =>
    obtain rfl := Option.some.inj hr
    exact ⟨.inl rfl, _, rfl⟩
  | publishRelayList signer eventRelayUrl chatRelayUrl relayUrls results =>
    obtain rfl := Option.some.inj hr
    exact ⟨.inr (.inl rfl), _, rfl⟩
  | publishLiveEvent input results =>
    obtain rfl := Option.some.inj hr
    exact ⟨.inr (.inr rfl), _, rfl⟩
  | checkLiveness | fetchViewerCount | count => cases hr

theorem begins_of_offered {cfg : ChatServiceConfig} {now now' : Nat} {call : GatewayCall}
    (hon : config.startsChat = true) (hto : config.owncast.chatToNostr = true)
    (h : Offered cfg now call) :
    config.Begins (requestOfGateway config.core.chatRelayUrl now' call : PublishRequest ν) := by
  cases h with
  | profile signer displayName instanceUrl => exact .chatter hon hto (.inl rfl) _ rfl
  | relayList signer => exact .chatter hon hto (.inr rfl) _ rfl
  | event aTag signer frame =>
    have hkind : frame.kind = 1311 ∨ frame.kind = 10312 := by
      cases frame with
      | chat msg emojis => exact .inl rfl
      | join presence => exact .inr rfl
    exact .bridged hon hto hkind rfl

theorem Booted.begin {s s' : Worker ν τ} (h : config.Booted seconds createSignedEvent s)
    (hkept : Worker.Kept (config.workerCore seconds) createSignedEvent s')
    {requests : List (PublishRequest ν)} (hrequests : ∀ r ∈ requests, config.Begins r)
    (hpublishes : s'.publishes = s.publishes ++ requests.map fun r => (r, .signing))
    (hsent : s'.sent = s.sent) (hmuted : config.owncast.chatToNostr = false → s'.chat.Muted) :
    config.Booted seconds createSignedEvent s' := by
  refine ⟨hkept, fun p hp => ?_, hsent ▸ h.sent, hmuted⟩
  rw [hpublishes] at hp
  rcases List.mem_append.mp hp with hp | hp
  · exact h.publishes p hp
  · obtain ⟨r, hr, rfl⟩ := List.mem_map.mp hp
    exact hrequests r hr

variable [DecidableEq ν] [JsNumber ν] [JsFinite ν] {E : Engine} {cfg : ChatServiceConfig}

theorem step_booted (hstamps : Stamps config.core.bridgeName createSignedEvent) {s s' : Worker ν τ}
    {a : WorkerAction ν τ} (h : config.Booted seconds createSignedEvent s)
    (hs : config.step seconds E cfg createSignedEvent s a = some s') :
    config.Booted seconds createSignedEvent s' := by
  unfold step at hs
  split at hs
  case isFalse => cases hs
  rename_i hserves
  have hkept : Worker.Kept (config.workerCore seconds) createSignedEvent s' :=
    Worker.step_kept hstamps h.kept hs
  cases a with
  | cycle c =>
    obtain rfl := Option.some.inj hs
    refine h.begin hkept (fun r hr => ?_) rfl rfl h.muted
    obtain ⟨e, -, he⟩ := List.mem_filterMap.mp hr
    obtain ⟨hkind, urls, hroute⟩ := requestOfCall_kind he
    exact .discovered hserves hkind urls hroute
  | store table =>
    obtain rfl := Option.some.inj hs
    exact ⟨hkept, h.publishes, h.sent, h.muted⟩
  | chat a =>
    obtain ⟨c, hc, rfl⟩ := Option.map_eq_some_iff.mp hs
    have hon : config.startsChat = true := by
      cases a with
      | frame => exact (Bool.and_eq_true_iff.mp hserves).1
      | _ => exact hserves
    cases hto : config.owncast.chatToNostr with
    | true =>
      refine h.begin hkept (fun r hr => ?_) rfl rfl fun hoff => absurd (hto.symm.trans hoff) (by decide)
      obtain ⟨call, hcall, rfl⟩ := List.mem_map.mp hr
      exact begins_of_offered hon hto (Worker.gatewayCalls_offered (next_offers hc) call hcall)
    | false =>
      have hmuted := h.muted hto
      have hframe : ∀ room frame key, a ≠ .frame room frame key := by
        rintro room frame key rfl
        have hheard := (Bool.and_eq_true_iff.mp hserves).2
        rw [hmuted.unheard] at hheard
        cases hheard
      obtain ⟨hmuted', calls, hlog⟩ := ChatState.next_muted hto hmuted hframe hc
      have hnone : Worker.gatewayCalls s.chat c = [] := by
        rw [Worker.gatewayCalls, hlog, List.drop_left, List.filterMap_eq_nil_iff]
        intro effect heffect
        obtain ⟨call, -, rfl⟩ := List.mem_map.mp heffect
        rfl
      refine h.begin hkept (fun r hr => ?_) rfl rfl fun _ => hmuted'
      rw [hnone] at hr
      cases hr
  | publish n a =>
    simp only [Worker.step] at hs
    split at hs
    · cases hs
    rename_i r sending hget
    obtain ⟨o, ho, rfl⟩ := Option.map_eq_some_iff.mp hs
    have hmem : (r, sending) ∈ s.publishes := List.mem_of_getElem? hget
    have hbegins := h.publishes _ hmem
    obtain ⟨hcontained, hunderway⟩ := h.kept.publishes _ hmem
    obtain ⟨-, hsends⟩ := PublishRequest.step_underway hunderway ho
    refine ⟨hkept, fun p hp => ?_, fun x hx => ?_, h.muted⟩
    · rcases List.mem_or_eq_of_mem_set hp with hp | rfl
      · exact h.publishes p hp
      · exact hbegins
    · rcases List.mem_append.mp hx with hx | hx
      · exact h.sent x hx
      · obtain ⟨y, hy, rfl⟩ := List.mem_map.mp hx
        exact ⟨r, hbegins, hcontained, hsends y hy, fun urls hroute =>
          step_plain hroute hunderway ho y hy⟩

theorem run_booted (hstamps : Stamps config.core.bridgeName createSignedEvent)
    {as : List (WorkerAction ν τ)} {t : Worker ν τ}
    (hr : run (config.step seconds E cfg createSignedEvent) (Worker.init ν τ) as = some t) :
    config.Booted seconds createSignedEvent t :=
  run_invariant_all (fun _ _ _ h hs => step_booted hstamps h hs)
    (booted_init config seconds createSignedEvent) hr

end BridgeConfig

/-- A switch that is set to one of the texts that mean on -/
def SwitchedOn (value : Option JsString) : Prop := value = some (js "true") ∨ value = some (js "1")

instance (value : Option JsString) : Decidable (SwitchedOn value) :=
  inferInstanceAs (Decidable (_ ∨ _))

namespace Env

/-- The relay is the value of one of the three relay settings. -/
def NamesRelay (env : Env) (url : JsString) : Prop :=
  url ≠ [] ∧
    ∃ name ∈ [js "LOCAL_RELAY_URL", js "EVENT_RELAY_URL", js "CHAT_RELAY_URL"], env name = some url

/-- The parts between the commas of the network's write relays -/
def writeRelayParts (env : Env) : List JsString :=
  ((split (js ",") ((env (js "NETWORK_PROFILE_WRITE_RELAYS")).getD [])).map trim).filter (· ≠ [])

/-- The relay is one of the network's write relays, of the built-in ones where none is named. -/
def NamesWriteRelay (env : Env) (url : JsString) : Prop :=
  if env.writeRelayParts = [] then url ∈ NETWORK_PROFILE_WRITE_RELAYS else url ∈ env.writeRelayParts

end Env

section Environment

variable {μ : Type} [NatCast μ] {number : JsString → Option μ} {env : Env} {config : BridgeConfig μ}

theorem boolFromEnv_false (value : Option JsString) :
    boolFromEnv value false = true ↔ SwitchedOn value := by
  cases value with
  | none => simp [boolFromEnv, SwitchedOn]
  | some text =>
    by_cases hempty : text = []
    · subst hempty
      have hno : ¬ SwitchedOn (some []) := by decide
      simp [boolFromEnv, hno]
    · simp [boolFromEnv, orNull_some hempty, SwitchedOn]

theorem listFromEnv_writeRelays (env : Env) :
    (listFromEnv (env (js "NETWORK_PROFILE_WRITE_RELAYS"))).getD NETWORK_PROFILE_WRITE_RELAYS =
      if env.writeRelayParts = [] then NETWORK_PROFILE_WRITE_RELAYS else env.writeRelayParts := by
  have hparts : ((split (js ",") []).map trim).filter (· ≠ []) = [] := by decide
  unfold listFromEnv Env.writeRelayParts
  cases env (js "NETWORK_PROFILE_WRITE_RELAYS") with
  | none =>
    rw [orNull_none, Option.getD_none, Option.getD_none, hparts]
    rfl
  | some text =>
    by_cases hempty : text = []
    · rw [hempty, orNull_empty, Option.getD_some, hparts]
      rfl
    · rw [orNull_some hempty, Option.getD_some]
      dsimp only
      split_ifs
      · rfl
      · rfl

/-- The configuration that is loaded, where nothing that is required is missing -/
theorem missingEnv_of_ok (h : loadConfig number env = .ok config) : missingEnv env = [] := by
  by_contra hmissing
  simp [loadConfig, hmissing] at h

theorem env_local (h : loadConfig number env = .ok config) :
    ∃ url, env (js "LOCAL_RELAY_URL") = some url ∧ url ≠ [] := by
  have hnone := missingEnv_of_ok h
  have hlocal : js "LOCAL_RELAY_URL" ∉ missingEnv env := hnone ▸ List.not_mem_nil
  have hset : (env (js "LOCAL_RELAY_URL")).getD [] ≠ [] := by
    intro hempty
    apply hlocal
    rw [missingEnv, List.mem_filter]
    exact ⟨by decide, decide_eq_true hempty⟩
  cases hget : env (js "LOCAL_RELAY_URL") with
  | none => simp [hget] at hset
  | some url => exact ⟨url, rfl, by simpa [hget] using hset⟩

/-- A relay setting, with the local relay behind it -/
theorem namesRelay_orValue (h : loadConfig number env = .ok config) (name : JsString)
    (hname : name ∈ [js "LOCAL_RELAY_URL", js "EVENT_RELAY_URL", js "CHAT_RELAY_URL"]) :
    env.NamesRelay (orValue (env name) ((env (js "LOCAL_RELAY_URL")).getD [])) := by
  obtain ⟨url, hlocal, hne⟩ := env_local h
  have hfallback : env.NamesRelay url := ⟨hne, _, List.mem_cons_self, hlocal⟩
  rw [hlocal, Option.getD_some]
  unfold orValue orText
  cases hget : env name with
  | none => exact hfallback
  | some value =>
    cases value with
    | nil => exact hfallback
    | cons u us => exact ⟨List.cons_ne_nil u us, name, hname, hget⟩

theorem loadConfig_relays (h : loadConfig number env = .ok config) :
    env.NamesRelay config.core.eventRelayUrl ∧ env.NamesRelay config.core.chatRelayUrl := by
  have hevent := namesRelay_orValue h (js "EVENT_RELAY_URL") (by decide)
  have hchat := namesRelay_orValue h (js "CHAT_RELAY_URL") (by decide)
  have hnone := missingEnv_of_ok h
  simp only [loadConfig, hnone, ne_eq, not_true_eq_false, if_false] at h
  obtain rfl := Except.ok.inj h
  exact ⟨hevent, hchat⟩

theorem loadConfig_profileWrites (h : loadConfig number env = .ok config) {seconds : Nat}
    {url : JsString} (hurl : url ∈ profileWriteRelays (config.workerCore seconds).toRelayFlagConfig) :
    env.NamesRelay url ∨
      (SwitchedOn (env (js "NETWORK_PROFILE_PUBLISH_ENABLED")) ∧ env.NamesWriteRelay url) := by
  have hchat := (loadConfig_relays h).2
  have hnone := missingEnv_of_ok h
  simp only [loadConfig, hnone, ne_eq, not_true_eq_false, if_false] at h
  obtain rfl := Except.ok.inj h
  unfold profileWriteRelays at hurl
  split at hurl
  · obtain rfl := List.mem_singleton.mp hurl
    exact .inl hchat
  · rename_i hon
    rcases List.mem_cons.mp (mem_dedupe.mp hurl) with rfl | hurl
    · exact .inl hchat
    · right
      refine ⟨(boolFromEnv_false _).mp (by simpa [BridgeConfig.workerCore] using hon), ?_⟩
      have hwrites := listFromEnv_writeRelays env
      simp only [BridgeConfig.workerCore, hwrites] at hurl
      unfold Env.NamesWriteRelay
      split at hurl
      · rename_i hparts
        rwa [if_pos hparts]
      · rename_i hparts
        rwa [if_neg hparts]

end Environment

namespace BridgeConfig

variable {μ ν τ : Type} [NatCast μ] [DecidableEq ν] [JsNumber ν] [JsFinite ν]
  {number : JsString → Option μ} {env : Env} {config : BridgeConfig μ} {seconds : Nat} {E : Engine}
  {cfg : ChatServiceConfig} {createSignedEvent : PublishRequest ν → Nat → OutboundEvent ν}
  {as : List (WorkerAction ν τ)} {t : Worker ν τ}

/-- No write falls back to a relay that nobody named: in every run of the process, each event goes
to a relay of the environment's relay settings, or is a profile or relay list that goes to one of
the network's write relays while the publish switch is on. -/
theorem relays_named (hload : loadConfig number env = .ok config)
    (hstamps : Stamps config.core.bridgeName createSignedEvent)
    (hr : run (config.step seconds E cfg createSignedEvent) (Worker.init ν τ) as = some t) :
    ∀ x ∈ t.sent, env.NamesRelay x.2.relayUrl ∨
      ((x.2.event.kind = 0 ∨ x.2.event.kind = 10002) ∧
        SwitchedOn (env (js "NETWORK_PROFILE_PUBLISH_ENABLED")) ∧
        env.NamesWriteRelay x.2.relayUrl) := by
  intro x hx
  obtain ⟨r, hfor⟩ := (run_booted hstamps hr).sent x hx
  obtain ⟨hrelay, -⟩ := hfor.sends
  have hcontained := hfor.contained x.2.relayUrl hrelay
  have hprofile {urls : List JsString} (hroute : r.route = .plain urls)
      (hkind : r.kind = 0 ∨ r.kind = 10002) : env.NamesRelay x.2.relayUrl ∨
      ((x.2.event.kind = 0 ∨ x.2.event.kind = 10002) ∧
        SwitchedOn (env (js "NETWORK_PROFILE_PUBLISH_ENABLED")) ∧
        env.NamesWriteRelay x.2.relayUrl) := by
    obtain ⟨n, hevent⟩ := hfor.signed urls hroute
    rw [hevent, hstamps.kind]
    exact (loadConfig_profileWrites hload (hcontained.profile hkind)).imp_right fun h => ⟨hkind, h⟩
  cases hfor.begins with
  | discovered _ hkind urls hroute =>
    rcases hkind with hkind | hkind | hkind
    · exact hprofile hroute (.inl hkind)
    · exact hprofile hroute (.inr hkind)
    · left
      rw [(hcontained.live hkind).1]
      exact (loadConfig_relays hload).1
  | chatter _ _ hkind urls hroute => exact hprofile hroute hkind
  | bridged _ _ _ hroute =>
    left
    rw [hroute] at hrelay
    rw [List.mem_singleton.mp hrelay]
    exact (loadConfig_relays hload).2

/-- An environment that lets profiles out to the network and leaves the chat shut -/
def demoEnv : Env := fun name =>
  ([(js "BRIDGE_KEY_SECRET", js "secret"), (js "DATABASE_URL", js "postgres://db"),
    (js "LOCAL_RELAY_URL", js "ws://local"), (js "EVENT_RELAY_URL", js "ws://event"),
    (js "BRIDGE_NAME", js "livelier"), (js "NETWORK_PROFILE_PUBLISH_ENABLED", js "1"),
    (js "NETWORK_PROFILE_WRITE_RELAYS", js " ws://network ,, ws://local")].find? fun e =>
      e.1 = name).map Prod.snd

def demoNumber (text : JsString) : Option Nat :=
  if text.all isDigit then some (digitsValue text) else none

/-- A stream is listed; its profile goes to the network and its live event to the event relay. -/
def demoBoot : List (WorkerAction Int Unit) :=
  [.cycle (demoEngine.cycleOn (some (demoPayload "https://a.example")) demoLive demoAnswers),
    .publish 0 (.signed (some 0)), .publish 0 (.connected (js "ws://network") true),
    .publish 2 (.signed (some 0)), .publish 2 (.connected (js "ws://event") true)]

theorem demoSigned_stamps {config : BridgeConfig Nat}
    (hload : loadConfig demoNumber demoEnv = .ok config) :
    Stamps config.core.bridgeName Worker.demoSigned := by
  have hname : config.core.bridgeName = js "livelier" := by
    rw [← Except.ok.inj hload]
    rfl
  rw [hname]
  exact ⟨fun _ _ => rfl, fun _ _ => rfl, fun _ _ => rfl⟩

theorem relays_named_demo : ∃ config t, loadConfig demoNumber demoEnv = .ok config ∧
    run (config.step 60 demoEngine ChatState.demoService Worker.demoSigned) (Worker.init Int Unit)
      demoBoot = some t ∧
    t.sent.map (fun x => (x.2.event.kind, x.2.relayUrl)) =
      [(0, js "ws://network"), (30311, js "ws://event")] ∧
    ∀ x ∈ t.sent, demoEnv.NamesRelay x.2.relayUrl ∨ demoEnv.NamesWriteRelay x.2.relayUrl := by
  obtain ⟨config, hload⟩ : ∃ config, loadConfig demoNumber demoEnv = .ok config := ⟨_, rfl⟩
  have hrun : ((loadConfig demoNumber demoEnv).toOption.bind fun config =>
      run (config.step 60 demoEngine ChatState.demoService Worker.demoSigned)
        (Worker.init Int Unit) demoBoot).map
          (fun t => t.sent.map fun x => (x.2.event.kind, x.2.relayUrl)) =
        some [(0, js "ws://network"), (30311, js "ws://event")] := by decide +kernel
  rw [hload] at hrun
  obtain ⟨t, ht, hsent⟩ := Option.map_eq_some_iff.mp hrun
  have hstamps := demoSigned_stamps hload
  have hnamed := relays_named hload hstamps ht
  exact ⟨config, t, hload, ht, hsent, fun x hx => (hnamed x hx).imp_right fun h => h.2.2⟩

end BridgeConfig

end LivelierBridge
