import LivelierBridge.Chat.NoEcho
import LivelierBridge.Discovery.Calls
import LivelierBridge.Discovery.Coordinates
import LivelierBridge.Discovery.LiveEventTags
import LivelierBridge.Nostr.Publishing

namespace LivelierBridge

open Framework Js Nostr Discovery Chat

/-- The slice of the core configuration that decides where profiles are written. -/
structure RelayFlagConfig where
  chatRelayUrl : JsString
  networkProfilePublishEnabled : Bool
  networkProfileWriteRelays : List JsString

/-- Every relay that a kind 0 or 10002 of the bridge goes to. -/
def profileWriteRelays (config : RelayFlagConfig) : List JsString :=
  if !config.networkProfilePublishEnabled then [config.chatRelayUrl]
  else dedupe (config.chatRelayUrl :: config.networkProfileWriteRelays)

/-- The settings that both services take from the core block. -/
structure CoreConfig extends RelayFlagConfig where
  bridgeName : JsString
  eventRelayUrl : JsString
  bridgeKeySecret : JsString
  chatExpirationSeconds : Nat

namespace CoreConfig

variable (core : CoreConfig)

/-- The discovery engine of a source, as `main` configures it. -/
def discoveryEngine (source : Engine) : Engine :=
  { source with
    bridgeKeySecret := core.bridgeKeySecret
    eventRelayUrl := core.eventRelayUrl
    chatRelayUrl := core.chatRelayUrl
    profileWriteRelays := profileWriteRelays core.toRelayFlagConfig }

/-- The chat service of a source, as `main` configures it. -/
def chatService (source : ChatServiceConfig) : ChatServiceConfig :=
  { source with
    bridgeName := core.bridgeName
    chatRelayUrl := core.chatRelayUrl
    profileWriteRelays := profileWriteRelays core.toRelayFlagConfig
    chatExpirationSeconds := core.chatExpirationSeconds }

end CoreConfig

section Requests

variable {ν : Type} [JsNumber ν] [JsFinite ν]

/-- What `LiveEventPublisher` publishes for a call of the engine. -/
def requestOfCall (now : Nat) : Call ν → Option (PublishRequest ν)
  | .publishProfile _ profile relayUrls _ =>
    some ⟨0, buildBridgedProfileContent profile, [], .plain relayUrls, now⟩
  | .publishRelayList _ eventRelayUrl chatRelayUrl relayUrls _ =>
    some ⟨10002, [], [textTag [js "r", eventRelayUrl, js "write"],
      textTag [js "r", chatRelayUrl, js "read"]], .plain relayUrls, now⟩
  | .publishLiveEvent input _ =>
    some ⟨30311, [], liveEventTags input, .plain [input.relayUrl], now⟩
  | .checkLiveness _ | .fetchViewerCount _ | .count _ => none

omit [JsNumber ν] [JsFinite ν] in
/-- What `ClientServiceGateway` publishes for a call; it is pinned to one relay. -/
def requestOfGateway (relayUrl : JsString) (now : Nat) : GatewayCall → PublishRequest ν
  | .publish _ kind content tags => ⟨kind, content, tags.map textTag, .authed relayUrl, now⟩
  | .broadcast _ kind content tags relayUrls =>
    ⟨kind, content, tags.map textTag, .plain relayUrls, now⟩

end Requests

/-- An event with this kind and these tags may be sent to the relay. -/
structure Contained {ν : Type} (core : CoreConfig) (builtAt : Nat) (kind : Nat)
    (tags : List (Tag ν)) (relayUrl : JsString) : Prop where
  live : kind = 30311 → relayUrl = core.eventRelayUrl ∧
    tagsNamed (js "relays") tags = [textTag [js "relays", core.chatRelayUrl]]
  chat : kind = 1311 ∨ kind = 10312 → relayUrl = core.chatRelayUrl ∧ textTag [js "-"] ∈ tags ∧
    tagsNamed (js "expiration") tags = [textTag [js "expiration",
      intToString 10 (builtAt / 1000 + core.chatExpirationSeconds : Nat)]]
  profile : kind = 0 ∨ kind = 10002 → relayUrl ∈ profileWriteRelays core.toRelayFlagConfig

/-- The request names only relays that its event may be sent to. -/
def RequestContained {ν : Type} (core : CoreConfig) (r : PublishRequest ν) : Prop :=
  ∀ url ∈ r.route.relays, Contained core r.builtAt r.kind r.tags url

/-- The bridge process: its two services, the publishes they began and the events that left, each
with the clock when it was built. -/
structure Worker (ν τ : Type) where
  discovery : DiscoveryState ν
  chat : ChatState τ
  publishes : List (PublishRequest ν × Sending ν)
  sent : List (Nat × Sent ν)

inductive WorkerAction (ν τ : Type) where
  /-- A poll cycle of the discovery engine, on any answers of its adapter. -/
  | cycle (c : Discovery.Cycle ν)
  /-- The stored rows change under the engine. -/
  | store (table : InstanceTable ν)
  | chat (a : ChatAction τ)
  /-- The publish with this number goes on. -/
  | publish (n : Nat) (a : PublishAction)

namespace Worker

variable {ν τ : Type}

def init (ν τ : Type) : Worker ν τ := ⟨.init, .init τ, [], []⟩

def beginAll (s : Worker ν τ) (requests : List (PublishRequest ν)) : Worker ν τ :=
  { s with publishes := s.publishes ++ requests.map fun r => (r, .signing) }

/-- The gateway calls that a step of the chat service has added. -/
def gatewayCalls (c c' : ChatState τ) : List GatewayCall :=
  (c'.log.drop c.log.length).filterMap fun
    | .gateway call => some call
    | _ => none

variable [DecidableEq ν] [JsNumber ν] [JsFinite ν]

/-- One step of the process. -/
def step (core : CoreConfig) (E : Engine) (cfg : ChatServiceConfig)
    (createSignedEvent : PublishRequest ν → Nat → OutboundEvent ν) (s : Worker ν τ) :
    WorkerAction ν τ → Option (Worker ν τ)
  | .cycle c =>
    let discovery := (core.discoveryEngine E).runCycle c s.discovery
    some ({ s with discovery := discovery }.beginAll
      (discovery.cycleLog.filterMap fun e : JsString × Call ν =>
        requestOfCall s.chat.inbound.now e.2))
  | .store table => some { s with discovery := { s.discovery with table := table } }
  | .chat a =>
    (ChatState.next (core.chatService cfg) s.chat a).map fun chat =>
      { s with chat := chat }.beginAll ((gatewayCalls s.chat chat).map
        (requestOfGateway core.chatRelayUrl s.chat.inbound.now))
  | .publish n a =>
    match s.publishes[n]? with
    | none => none
    | some (r, sending) =>
      (r.step createSignedEvent sending a).map fun o =>
        { s with
          publishes := s.publishes.set n (r, o.1)
          sent := s.sent ++ o.2.map fun x => (r.builtAt, x) }

end Worker

section Stamp

variable {ν : Type} {core : CoreConfig}

theorem tagsNamed_client {name : JsString} (h : js "client" ≠ name) (tags : List (Tag ν)) :
    tagsNamed name (tags ++ [textTag [js "client", core.bridgeName]]) = tagsNamed name tags := by
  rw [tagsNamed_append]
  simp [tagsNamed, textTag, Tag.named, h]

/-- The client tag does not change where an event may be sent. -/
theorem Contained.stamped {builtAt kind : Nat} {tags : List (Tag ν)} {relayUrl : JsString}
    (h : Contained core builtAt kind tags relayUrl) :
    Contained core builtAt kind (tags ++ [textTag [js "client", core.bridgeName]]) relayUrl where
  live hkind := by
    obtain ⟨hrelay, htags⟩ := h.live hkind
    exact ⟨hrelay, (tagsNamed_client (by decide) tags).trans htags⟩
  chat hkind := by
    obtain ⟨hrelay, hminus, htags⟩ := h.chat hkind
    exact ⟨hrelay, List.mem_append_left _ hminus, (tagsNamed_client (by decide) tags).trans htags⟩
  profile := h.profile

/-- What a publish of a contained request sends may go where it is sent. -/
theorem RequestContained.sends {createSignedEvent : PublishRequest ν → Nat → OutboundEvent ν}
    (hstamps : Stamps core.bridgeName createSignedEvent) {r : PublishRequest ν}
    (h : RequestContained core r) {x : Sent ν} (hx : r.Sends createSignedEvent x) :
    Contained core r.builtAt x.event.kind x.event.tags x.relayUrl := by
  obtain ⟨hrelay, ⟨n, hevent⟩ | hauth⟩ := hx
  · rw [hevent, hstamps.kind, hstamps.tags]
    exact (h x.relayUrl hrelay).stamped
  · -- the answer to a challenge is of none of the kinds
    rw [hauth]
    exact ⟨fun h => absurd h (by decide), fun h => absurd h (by decide),
      fun h => absurd h (by decide)⟩

end Stamp

section Discovery

variable {ν : Type} [JsNumber ν] [JsFinite ν] {core : CoreConfig} {E : Engine} {now : Nat}

omit [JsNumber ν] [JsFinite ν] in
/-- Profiles and relay lists may go wherever profiles are written. -/
theorem contained_of_profile {kind : Nat} (hkind : kind = 0 ∨ kind = 10002) {builtAt : Nat}
    {tags : List (Tag ν)} {url : JsString}
    (hurl : url ∈ profileWriteRelays core.toRelayFlagConfig) :
    Contained core builtAt kind tags url := by
  rcases hkind with rfl | rfl
  · exact ⟨fun h => absurd h (by decide), fun h => absurd h (by decide), fun _ => hurl⟩
  · exact ⟨fun h => absurd h (by decide), fun h => absurd h (by decide), fun _ => hurl⟩

omit [JsNumber ν] [JsFinite ν] in
theorem contained_of_live {builtAt : Nat} {tags : List (Tag ν)} {url : JsString}
    (hurl : url = core.eventRelayUrl)
    (htags : tagsNamed (js "relays") tags = [textTag [js "relays", core.chatRelayUrl]]) :
    Contained core builtAt 30311 tags url :=
  ⟨fun _ => ⟨hurl, htags⟩, fun h => absurd h (by decide), fun h => absurd h (by decide)⟩

theorem publishProfile_contained (signer : JsString) (profile : BridgedProfileInput)
    (results : Option RelayResults) {r : PublishRequest ν}
    (hr : requestOfCall now (.publishProfile signer profile
      (core.discoveryEngine E).profileWriteRelays results) = some r) : RequestContained core r := by
  obtain rfl := Option.some.inj hr
  exact fun _ => contained_of_profile (.inl rfl)

theorem publishRelayList_contained (signer eventRelayUrl chatRelayUrl : JsString)
    (results : Option RelayResults) {r : PublishRequest ν}
    (hr : requestOfCall now (.publishRelayList signer eventRelayUrl chatRelayUrl
      (core.discoveryEngine E).profileWriteRelays results) = some r) : RequestContained core r := by
  obtain rfl := Option.some.inj hr
  exact fun _ => contained_of_profile (.inr rfl)

/-- A live event that names the two relays of the core block is contained. -/
theorem publishLiveEvent_contained {input : LivePublishInput ν}
    (hevent : input.relayUrl = core.eventRelayUrl) (hchat : input.chatRelayUrl = core.chatRelayUrl)
    (results : Option RelayResults) {r : PublishRequest ν}
    (hr : requestOfCall now (.publishLiveEvent input results) = some r) :
    RequestContained core r := by
  obtain rfl := Option.some.inj hr
  intro url hurl
  obtain rfl := List.mem_singleton.mp hurl
  exact contained_of_live hevent (by rw [liveEventTags_relays, hchat])

/-- What a call of the engine publishes is contained. -/
def CallContained (core : CoreConfig) (now : Nat) (x : Call ν) : Prop :=
  ∀ r, requestOfCall now x = some r → RequestContained core r

theorem liveCall_contained {inst : DiscoveredLive ν} {A : LiveAnswers ν} {x : Call ν}
    (h : LiveCall (core.discoveryEngine E) inst A x) : CallContained core now x := by
  intro r hr
  cases h with
  | count metric => cases hr
  | probe => cases hr
  | profile hs => exact publishProfile_contained _ _ _ hr
  | relayList hs => exact publishRelayList_contained _ _ _ _ hr
  | poll hl hlive => cases hr
  | event hs dTag row status polled => exact publishLiveEvent_contained rfl rfl _ hr

theorem manualCall_contained {url : JsString} {row : InstanceRow ν} {A : ManualAnswers ν}
    {x : Call ν} (h : ManualCall (core.discoveryEngine E) url row A x) :
    CallContained core now x := by
  intro r hr
  cases h with
  | count metric => cases hr
  | probe => cases hr
  | profile hs => exact publishProfile_contained _ _ _ hr
  | relayList hs => exact publishRelayList_contained _ _ _ _ hr
  | poll hl hs => cases hr
  | event starts participants => exact publishLiveEvent_contained rfl rfl _ hr

theorem reconcileCall_contained {url : JsString} {row : InstanceRow ν} {A : ReconcileAnswers}
    {x : Call ν} (h : ReconcileCall (core.discoveryEngine E) url row A x) :
    CallContained core now x := by
  intro r hr
  cases h with
  | count metric => cases hr
  | probe => cases hr
  | event starts => exact publishLiveEvent_contained rfl rfl _ hr

/-- Every call of a cycle is contained, whatever the adapter lists. -/
theorem runCycle_contained [DecidableEq ν] (c : Discovery.Cycle ν) (s : DiscoveryState ν) :
    ∀ e ∈ ((core.discoveryEngine E).runCycle c s).cycleLog, CallContained core now e.2 := by
  have hrows {answer : Option (JsString → Nat)} {p : InstanceRow ν → Bool}
      {job : JsString × InstanceRow ν → Local ν Unit}
      (hjob : ∀ e, Faulty.Logs (CallContained core now) (job e)) :
      Faulty.Logs (fun e => CallContained core now e.2)
        (Engine.forRows answer p job : Engine.CycleM ν Unit) := by
    refine (Faulty.logs_await _).bind fun order => Faulty.logs_get.bind fun work => ?_
    apply Keyed.logs_runJobs (P := fun _ => CallContained core now)
    intro job' hjob'
    obtain ⟨e, -, rfl⟩ := List.mem_map.mp hjob'
    exact hjob e
  have hpasses (live : List (DiscoveredLive ν × LiveAnswers ν)) :
      Faulty.Logs (fun e => CallContained core now e.2)
        ((core.discoveryEngine E).passes c live) := by
    unfold Engine.passes
    refine Faulty.Logs.bind ?_ fun _ => Faulty.Logs.bind ?_ fun _ => ?_
    · apply Keyed.logs_runJobs (P := fun _ => CallContained core now)
      intro job hjob
      obtain ⟨e, -, rfl⟩ := List.mem_map.mp hjob
      intro t x hx
      exact liveCall_contained (processLive_calls _ e.1 e.2 _ x hx)
    · exact hrows fun e t x hx =>
        manualCall_contained (processManualRow_calls _ e.1 e.2 _ t x hx)
    · exact hrows fun e t x hx =>
        reconcileCall_contained (reconcileRow_calls _ e.1 e.2 _ t x hx)
  rcases (core.discoveryEngine E).runCycle_cases c s with ⟨-, hrun⟩ | ⟨fetched, -, -, -, hlog⟩
  · rw [hrun]
    exact fun _ he => absurd he List.not_mem_nil
  · rw [hlog]
    exact hpasses fetched.live _

end Discovery

section Chat

variable {ν τ : Type} {core : CoreConfig} {cfg : ChatServiceConfig}

/-- The calls that the chat service makes on its gateway -/
inductive Offered (cfg : ChatServiceConfig) (now : Nat) : GatewayCall → Prop
  | profile (signer displayName instanceUrl : JsString) :
      Offered cfg now (ChatState.profileCall cfg signer displayName instanceUrl)
  | relayList (signer : JsString) : Offered cfg now (ChatState.relayListCall cfg signer)
  | event (aTag signer : JsString) (frame : SourceFrame) :
      Offered cfg now (ChatState.eventCall cfg now aTag signer frame)

/-- The state has logged more, and all the gateway calls in that are offered. -/
def Offers (cfg : ChatServiceConfig) (now : Nat) (c c' : ChatState τ) : Prop :=
  ∃ effects, c'.log = c.log ++ effects ∧ ∀ call, .gateway call ∈ effects → Offered cfg now call

theorem Offers.same {now : Nat} {c c' : ChatState τ} (h : c'.log = c.log) : Offers cfg now c c' :=
  ⟨[], by rw [h, List.append_nil], fun _ hcall => absurd hcall List.not_mem_nil⟩

theorem Offers.behind {now : Nat} {c c' : ChatState τ} {created : List (ChatEffect τ)}
    {call : GatewayCall} (hcreated : ∀ call, .gateway call ∉ created)
    (h : c'.log = c.log ++ (created ++ [.gateway call])) (hcall : Offered cfg now call) :
    Offers cfg now c c' := by
  refine ⟨_, h, fun call' hmem => ?_⟩
  rcases List.mem_append.mp hmem with hmem | hmem
  · exact absurd hmem (hcreated call')
  · obtain rfl : call' = call := by simpa using hmem
    exact hcall

theorem Offers.one {now : Nat} {c c' : ChatState τ} {call : GatewayCall}
    (h : c'.log = c.log ++ [.gateway call]) (hcall : Offered cfg now call) :
    Offers cfg now c c' := .behind (fun _ => List.not_mem_nil) h hcall

theorem bridgeChatter_now (s : InboundState) (room : RoomId) (userId key : JsString) :
    (s.bridgeChatter room userId key).now = s.now := by
  unfold InboundState.bridgeChatter InboundState.chatterSigner
  dsimp only
  split <;> split <;> rfl

theorem bridge_offers (cfg : ChatServiceConfig) (c : ChatState τ) (room : RoomId)
    (frame : SourceFrame) (key : JsString) :
    Offers cfg c.inbound.now c (c.bridge cfg room frame key) := by
  have hcreated (b : Bool) (call : GatewayCall) :
      .gateway call ∉ (if b then [] else [ChatEffect.bridged key] : List (ChatEffect τ)) := by
    cases b <;> simp
  unfold ChatState.bridge
  dsimp only
  split
  · refine .behind (hcreated _) (List.append_assoc _ _ _) ?_
    show Offered cfg c.inbound.now (ChatState.eventCall cfg
      (c.inbound.bridgeChatter room frame.userId key).now _ _ frame)
    rw [bridgeChatter_now]
    exact .event _ _ frame
  · exact .behind (hcreated _) (List.append_assoc _ _ _) (.profile _ _ _)

theorem handleFrame_offers (cfg : ChatServiceConfig) (c : ChatState τ) (room : RoomId)
    (key : JsString) (frame : SourceFrame) :
    Offers cfg c.inbound.now c (c.handleFrame cfg room key frame) := by
  cases frame with
  | join presence => exact bridge_offers cfg c room (.join presence) key
  | chat msg emojis =>
    show Offers cfg c.inbound.now c (c.handleSourceChat cfg room msg emojis key)
    unfold ChatState.handleSourceChat
    split
    · exact .same rfl
    dsimp only
    split
    · exact .same rfl
    · exact bridge_offers cfg { c with inbound := c.inbound.setChat room _ } room _ key

theorem answered_offers {c c' : ChatState τ} {id : HandlerId} {h : SourceHandler} {ok : Bool}
    (hs : c.answered cfg id h ok = some c') : Offers cfg c.inbound.now c c' := by
  unfold ChatState.answered at hs
  split at hs
  · split at hs
    · obtain rfl := Option.some.inj hs
      exact .one rfl (.relayList h.signer)
    · obtain rfl := Option.some.inj hs
      exact .same rfl
  · split at hs <;> obtain rfl := Option.some.inj hs <;> exact .same rfl
  · cases hs
  · split at hs
    · obtain rfl := Option.some.inj hs
      cases h.frame <;> exact .same rfl
    · obtain rfl := Option.some.inj hs
      exact .same rfl

/-- What one step of the chat service calls on its gateway -/
theorem next_offers {c c' : ChatState τ} {a : ChatAction τ}
    (hs : ChatState.next cfg c a = some c') : Offers cfg c.inbound.now c c' := by
  cases a with
  | inbound a =>
    simp only [ChatState.next] at hs
    split at hs
    · cases hs
    · obtain ⟨r, -, rfl⟩ := Option.map_eq_some_iff.mp hs
      refine ⟨r.2.map .adapter, rfl, fun call hcall => ?_⟩
      obtain ⟨x, -, hx⟩ := List.mem_map.mp hcall
      cases hx
  | frame room frame key =>
    simp only [ChatState.next] at hs
    split at hs
    · obtain rfl := Option.some.inj hs
      exact handleFrame_offers cfg c room key frame
    · cases hs
  | answered id ok =>
    obtain ⟨h, -, hs⟩ := Option.bind_eq_some_iff.mp hs
    exact answered_offers hs
  | resume id =>
    simp only [ChatState.next] at hs
    split at hs
    · split at hs
      · obtain rfl := Option.some.inj hs
        exact .one rfl (.event _ _ _)
      · cases hs
    · cases hs

/-- No emoji that a source names makes a second expiration. -/
theorem eventTags_expiration (head expiration : Tag ν) (frame : SourceFrame)
    (hhead : head.named (js "expiration") = false)
    (hexpiration : expiration.named (js "expiration") = true) :
    tagsNamed (js "expiration") (head :: textTag [js "-"] :: expiration ::
      frame.emojiTags.map textTag) = [expiration] := by
  have hemojis : tagsNamed (js "expiration") (frame.emojiTags.map textTag : List (Tag ν)) = [] := by
    cases frame with
    | join presence => rfl
    | chat msg emojis =>
      rw [SourceFrame.emojiTags, List.map_map]
      exact tagsNamed_map _ false (fun _ => rfl) emojis
  have hminus : (textTag [js "-"] : Tag ν).named (js "expiration") = false := rfl
  rw [tagsNamed] at hemojis ⊢
  simp [hhead, hexpiration, hminus, hemojis]

theorem contained_of_chat {kind : Nat} (hkind : kind = 1311 ∨ kind = 10312) {builtAt : Nat}
    {tags : List (Tag ν)} {url : JsString} (hurl : url = core.chatRelayUrl)
    (hminus : textTag [js "-"] ∈ tags)
    (hexpiration : tagsNamed (js "expiration") tags = [textTag [js "expiration",
      intToString 10 (builtAt / 1000 + core.chatExpirationSeconds : Nat)]]) :
    Contained core builtAt kind tags url := by
  rcases hkind with rfl | rfl
  · exact ⟨fun h => absurd h (by decide), fun _ => ⟨hurl, hminus, hexpiration⟩,
      fun h => absurd h (by decide)⟩
  · exact ⟨fun h => absurd h (by decide), fun _ => ⟨hurl, hminus, hexpiration⟩,
      fun h => absurd h (by decide)⟩

/-- A call of the chat service is contained. -/
theorem Offered.contained {now : Nat} {call : GatewayCall}
    (h : Offered (core.chatService cfg) now call) :
    RequestContained core (requestOfGateway core.chatRelayUrl now call : PublishRequest ν) := by
  cases h with
  | profile signer displayName instanceUrl => exact fun _ => contained_of_profile (.inl rfl)
  | relayList signer => exact fun _ => contained_of_profile (.inr rfl)
  | event aTag signer frame =>
    intro url hurl
    have hkind : frame.kind = 1311 ∨ frame.kind = 10312 := by
      cases frame with
      | chat msg emojis => exact .inl rfl
      | join presence => exact .inr rfl
    refine contained_of_chat hkind (List.mem_singleton.mp hurl) ?_ ?_
    · exact List.mem_cons_of_mem _ List.mem_cons_self
    · exact eventTags_expiration _ _ frame rfl rfl

end Chat

namespace Worker

variable {ν τ : Type} {core : CoreConfig} {E : Engine} {cfg : ChatServiceConfig}
  {createSignedEvent : PublishRequest ν → Nat → OutboundEvent ν}

/-- Every publish is of a contained request, and what was sent is contained. -/
structure Kept (core : CoreConfig) (createSignedEvent : PublishRequest ν → Nat → OutboundEvent ν)
    (s : Worker ν τ) : Prop where
  publishes : ∀ p ∈ s.publishes,
    RequestContained core p.1 ∧ PublishRequest.Underway createSignedEvent p.1 p.2
  sent : ∀ x ∈ s.sent, Contained core x.1 x.2.event.kind x.2.event.tags x.2.relayUrl

theorem Kept.begin {s s' : Worker ν τ} (h : Kept core createSignedEvent s)
    {requests : List (PublishRequest ν)} (hrequests : ∀ r ∈ requests, RequestContained core r)
    (hpublishes : s'.publishes = s.publishes ++ requests.map fun r => (r, .signing))
    (hsent : s'.sent = s.sent) : Kept core createSignedEvent s' := by
  refine ⟨fun p hp => ?_, hsent ▸ h.sent⟩
  rw [hpublishes] at hp
  rcases List.mem_append.mp hp with hp | hp
  · exact h.publishes p hp
  · obtain ⟨r, hr, rfl⟩ := List.mem_map.mp hp
    exact ⟨hrequests r hr, .signing⟩

theorem gatewayCalls_offered {now : Nat} {c c' : ChatState τ} (h : Offers cfg now c c') :
    ∀ call ∈ gatewayCalls c c', Offered cfg now call := by
  obtain ⟨effects, hlog, hoffered⟩ := h
  intro call hcall
  rw [gatewayCalls, hlog, List.drop_left] at hcall
  obtain ⟨effect, heffect, hsome⟩ := List.mem_filterMap.mp hcall
  cases effect with
  | gateway call' =>
    obtain rfl := Option.some.inj hsome
    exact hoffered call' heffect
  | bridged pubkey => cases hsome
  | adapter call' => cases hsome

variable [DecidableEq ν] [JsNumber ν] [JsFinite ν]

theorem step_kept (hstamps : Stamps core.bridgeName createSignedEvent) {s s' : Worker ν τ}
    {a : WorkerAction ν τ} (h : Kept core createSignedEvent s)
    (hs : step core E cfg createSignedEvent s a = some s') : Kept core createSignedEvent s' := by
  cases a with
  | cycle c =>
    obtain rfl := Option.some.inj hs
    refine h.begin (fun r hr => ?_) rfl rfl
    obtain ⟨e, he, hr⟩ := List.mem_filterMap.mp hr
    exact runCycle_contained c s.discovery e he r hr
  | store table =>
    obtain rfl := Option.some.inj hs
    exact ⟨h.publishes, h.sent⟩
  | chat a =>
    obtain ⟨c, hc, rfl⟩ := Option.map_eq_some_iff.mp hs
    refine h.begin (fun r hr => ?_) rfl rfl
    obtain ⟨call, hcall, rfl⟩ := List.mem_map.mp hr
    exact (gatewayCalls_offered (next_offers hc) call hcall).contained
  | publish n a =>
    simp only [step] at hs
    split at hs
    · cases hs
    rename_i r sending hget
    obtain ⟨o, ho, rfl⟩ := Option.map_eq_some_iff.mp hs
    obtain ⟨hcontained, hunderway⟩ := h.publishes (r, sending) (List.mem_of_getElem? hget)
    obtain ⟨hnext, hsends⟩ := PublishRequest.step_underway hunderway ho
    refine ⟨fun p hp => ?_, fun x hx => ?_⟩
    · rcases List.mem_or_eq_of_mem_set hp with hp | rfl
      · exact h.publishes p hp
      · exact ⟨hcontained, hnext⟩
    · rcases List.mem_append.mp hx with hx | hx
      · exact h.sent x hx
      · obtain ⟨y, hy, rfl⟩ := List.mem_map.mp hx
        exact hcontained.sends hstamps (hsends y hy)

/-- A signed event, with the request it was signed for. -/
def demoSigned (r : PublishRequest Int) (_ : Nat) : OutboundEvent Int :=
  ⟨js "id", r.kind, r.content, r.tags ++ [textTag [js "client", js "livelier"]]⟩

end Worker

end LivelierBridge
