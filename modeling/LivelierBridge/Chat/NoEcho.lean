import LivelierBridge.Framework.Log
import LivelierBridge.Chat.Outbound

namespace LivelierBridge.Chat

open Framework Js Nostr

namespace InboundState

/-- No identity was created between the two. -/
structure SameSigners (s s' : InboundState) : Prop where
  bridged : s'.bridgedPubkeys = s.bridgedPubkeys
  signers : ∀ room, (s'.chat room).chatterSigners = (s.chat room).chatterSigners

theorem SameSigners.setChat (s : InboundState) (room : RoomId) {c : RoomChat}
    (hc : c.chatterSigners = (s.chat room).chatterSigners) :
    SameSigners s (s.setChat room c) := by
  refine ⟨rfl, fun id => ?_⟩
  by_cases hid : id = room
  · subst hid
    simpa [InboundState.setChat] using hc
  · simp [InboundState.setChat, hid]

/-- `f` reads nothing of a room that a delivery writes. -/
def Undelivered {β : Type} (f : RoomChat → β) : Prop :=
  ∀ c fingerprints waiting delivering added,
    f { c with fingerprints, waiting, delivering, added } = f c

section

variable {β : Type} {f : RoomChat → β}

theorem Undelivered.check (hf : Undelivered f) (c : RoomChat) (now : Nat) (fp : JsString)
    (delivering : Option (Event × Stage)) :
    f { (c.check now fp).2 with delivering } = f c := by
  cases h : (c.fingerprints.has now fp).1 with
  | true => rw [RoomChat.check_seen h]; exact hf c _ _ _ _
  | false => rw [RoomChat.check_fresh h]; exact hf c _ _ _ _

theorem Undelivered.setChat (s : InboundState) (room id : RoomId) {c : RoomChat}
    (hc : f c = f (s.chat room)) : f ((s.setChat room c).chat id) = f (s.chat id) := by
  by_cases hid : id = room
  · subst hid
    simpa [InboundState.setChat] using hc
  · simp [InboundState.setChat, hid]

theorem Undelivered.handleNostrEvent (hf : Undelivered f) (cfg : InboundConfig)
    (s : InboundState) (event : Event) (id : RoomId) :
    f ((s.handleNostrEvent cfg event).chat id) = f (s.chat id) := by
  unfold InboundState.handleNostrEvent
  split_ifs
  · rfl
  · rfl
  · rfl
  · split
    · rfl
    · rename_i room _
      exact Undelivered.setChat s room id (hf (s.chat room) _ _ _ _)

theorem Undelivered.named (hf : Undelivered f) (s : InboundState) (room id : RoomId)
    (event : Event) (name : Option JsString) :
    f ((s.named room event name).chat id) = f (s.chat id) := by
  unfold InboundState.named
  split
  · exact Undelivered.setChat s room id (hf (s.chat room) _ _ _ _)
  · exact Undelivered.setChat s room id (hf (s.chat room) _ _ _ _)

theorem Undelivered.sendMessage {τ : Type} (hf : Undelivered f) (s : InboundState)
    (room id : RoomId) (event : Event) (displayName : JsString) (content : τ) :
    f ((s.sendMessage room event displayName content).1.chat id) = f (s.chat id) := by
  unfold InboundState.sendMessage
  dsimp only
  split
  · exact Undelivered.setChat s room id (hf (s.chat room) _ _ _ _)
  · exact Undelivered.setChat s room id (hf (s.chat room) _ _ _ _)

/-- Only the source handlers write what a delivery does not. -/
theorem step_undelivered {τ : Type} (hf : Undelivered f) {cfg : InboundConfig}
    {s : InboundState} {a : InboundAction τ} {r : InboundState × List (ChatCall τ)}
    (ha : a.isSource = false) (hs : step cfg s a = some r) (id : RoomId) :
    f (r.1.chat id) = f (s.chat id) := by
  revert ha
  apply step_elim (motive := fun a s' _ => a.isSource = false →
    f (s'.chat id) = f (s.chat id)) hs
  case rooms => exact fun _ _ _ _ => rfl
  case tick => exact fun _ _ => rfl
  case nostrEvent =>
    intro via event _
    have hseen : (s.seen via).chat = s.chat := by cases via <;> rfl
    rw [hf.handleNostrEvent cfg (s.seen via) event id, hseen]
  case deliver => exact fun room _ _ _ _ => Undelivered.setChat s room id (hf _ _ _ _ _)
  case unnamed => exact fun room _ => Undelivered.setChat s room id (hf _ _ _ _ _)
  case named => exact fun room event name _ _ => hf.named s room id event name
  case check =>
    exact fun room _ _ _ _ => Undelivered.setChat s room id (hf.check _ _ _ _)
  case rendered =>
    exact fun room event displayName content _ _ =>
      hf.sendMessage s room id event displayName content
  case settled => exact fun room _ => Undelivered.setChat s room id (hf _ _ _ _ _)
  case sourceChat =>
    intro _ _ _ _ ha
    cases ha
  case sourceJoin =>
    intro _ _ _ _ ha
    cases ha

end

theorem check_chatterSigners (c : RoomChat) (now : Nat) (fp : JsString) :
    (c.check now fp).2.chatterSigners = c.chatterSigners := by
  cases h : (c.fingerprints.has now fp).1 with
  | true => rw [RoomChat.check_seen h]
  | false => rw [RoomChat.check_fresh h]

/-- Only the source handlers create identities. -/
theorem step_sameSigners {τ : Type} {cfg : InboundConfig} {s : InboundState}
    {a : InboundAction τ} {r : InboundState × List (ChatCall τ)} (ha : a.isSource = false)
    (hs : step cfg s a = some r) : SameSigners s r.1 := by
  refine ⟨?_, step_undelivered (f := RoomChat.chatterSigners) (fun _ _ _ _ _ => rfl) ha hs⟩
  revert ha
  apply step_elim (motive := fun a s' _ => a.isSource = false →
    s'.bridgedPubkeys = s.bridgedPubkeys) hs
  case rooms => exact fun _ _ _ _ => rfl
  case tick => exact fun _ _ => rfl
  case nostrEvent =>
    intro via event _
    have hseen : (s.seen via).bridgedPubkeys = s.bridgedPubkeys := by cases via <;> rfl
    rw [← hseen]
    unfold InboundState.handleNostrEvent
    split_ifs
    · rfl
    · rfl
    · rfl
    · split <;> rfl
  case deliver => exact fun _ _ _ _ _ => rfl
  case unnamed => exact fun _ _ => rfl
  case named =>
    intro room event name _ _
    unfold InboundState.named
    split <;> rfl
  case check => exact fun _ _ _ _ _ => rfl
  case rendered =>
    intro room event displayName content _ _
    unfold InboundState.sendMessage
    dsimp only
    split <;> rfl
  case settled => exact fun _ _ => rfl
  case sourceChat =>
    intro _ _ _ _ ha
    cases ha
  case sourceJoin =>
    intro _ _ _ _ ha
    cases ha

theorem bridgeChatter_bridged (s : InboundState) (room : RoomId) (userId key : JsString) :
    (s.bridgeChatter room userId key).bridgedPubkeys =
      if (s.chat room).chatterSigners.has userId then s.bridgedPubkeys
      else key :: s.bridgedPubkeys := by
  unfold bridgeChatter chatterSigner OrderedMap.has
  cases (s.chat room).chatterSigners.get? userId with
  | none => dsimp only; split <;> rfl
  | some k => dsimp only; split <;> rfl

/-- A signer of a room is an earlier one, or the one drawn for the user. -/
theorem bridgeChatter_signers {s : InboundState} {room id : RoomId} {userId key u k : JsString}
    (h : ((s.bridgeChatter room userId key).chat id).chatterSigners.get? u = some k) :
    ((s.chat id).chatterSigners.get? u = some k) ∨
      (id = room ∧ u = userId ∧ k = key ∧ (s.chat room).chatterSigners.get? userId = none) := by
  have hsigners : ((s.bridgeChatter room userId key).chat id).chatterSigners =
      ((s.chatterSigner room userId key).chat id).chatterSigners := by
    unfold bridgeChatter
    dsimp only
    split
    · rfl
    · let c := (s.chatterSigner room userId key).chat room
      exact (SameSigners.setChat (s.chatterSigner room userId key) room
        (c := { c with profiledChatters := userId :: c.profiledChatters }) rfl).signers id
  rw [hsigners] at h
  unfold chatterSigner at h
  split at h
  · exact .inl h
  · rename_i hnone
    by_cases hid : id = room
    · subst hid
      have hset : ((s.chat id).chatterSigners.set userId key).get? u = some k := by
        simpa [setChat] using h
      rw [OrderedMap.get?_set] at hset
      split at hset
      · rename_i hu
        exact .inr ⟨rfl, hu, (Option.some.inj hset).symm, hnone⟩
      · exact .inl hset
    · exact .inl (by simpa [setChat, hid] using h)

/-- The same state with other reception counts. -/
def recount (s : InboundState) (l n : Nat) : InboundState :=
  { s with localSeen := l, networkSeen := n }

section Recount

variable (s : InboundState) (l n : Nat)

@[simp] theorem recount_chat : (s.recount l n).chat = s.chat := rfl

@[simp] theorem recount_rooms : (s.recount l n).rooms = s.rooms := rfl

theorem chatterSigner_recount (room : RoomId) (userId key : JsString) :
    (s.recount l n).chatterSigner room userId key =
      (s.chatterSigner room userId key).recount l n := by
  unfold chatterSigner
  rw [recount_chat]
  cases (s.chat room).chatterSigners.get? userId with
  | none => rfl
  | some k => rfl

theorem bridgeChatter_recount (room : RoomId) (userId key : JsString) :
    (s.recount l n).bridgeChatter room userId key =
      (s.bridgeChatter room userId key).recount l n := by
  unfold bridgeChatter
  rw [chatterSigner_recount]
  dsimp only
  rw [apply_ite (fun t : InboundState => t.recount l n)]
  rfl

theorem handleSourceChat_recount (room : RoomId) (msg : SourceChatMessage) (key : JsString) :
    (s.recount l n).handleSourceChat room msg key =
      (s.handleSourceChat room msg key).recount l n := by
  unfold handleSourceChat
  rw [apply_ite (fun t : InboundState => t.recount l n)]
  congr 1
  dsimp only
  rw [apply_ite (fun t : InboundState => t.recount l n)]
  congr 1
  let c := ((s.chat room).check s.now (FingerprintCache.key msg.displayName msg.text)).2
  exact bridgeChatter_recount (s.setChat room c) l n room msg.userId key

theorem handleNostrEvent_recount (cfg : InboundConfig) (event : Event) :
    (s.recount l n).handleNostrEvent cfg event = (s.handleNostrEvent cfg event).recount l n := by
  have hroom : (s.recount l n).roomFor event = s.roomFor event := rfl
  unfold handleNostrEvent
  simp only [apply_ite (fun t : InboundState => t.recount l n), hroom]
  cases s.roomFor event with
  | none => rfl
  | some room => rfl

theorem named_recount (room : RoomId) (event : Event) (name : Option JsString) :
    (s.recount l n).named room event name = (s.named room event name).recount l n := by
  cases name with
  | none => rfl
  | some u =>
    cases u with
    | nil => rfl
    | cons u us => rfl

theorem sendMessage_recount {τ : Type} (room : RoomId) (event : Event) (displayName : JsString)
    (content : τ) :
    (s.recount l n).sendMessage room event displayName content =
      ((s.sendMessage room event displayName content).1.recount l n,
        (s.sendMessage room event displayName content).2) := by
  unfold sendMessage
  dsimp only
  rw [recount_rooms]
  split
  · rfl
  · rfl

/-- What the service does never depends on how many events it has counted. -/
theorem step_recount {τ : Type} (cfg : InboundConfig) (a : InboundAction τ) :
    ∃ l' n', step cfg (s.recount l n) a =
      (step cfg s a).map fun r => (r.1.recount l' n', r.2) := by
  cases a with
  | nostrEvent via event =>
    cases via with
    | «local» =>
      exact ⟨l + 1, n, congrArg (fun t => some (t, []))
        (handleNostrEvent_recount (s.seen .local) (l + 1) n cfg event)⟩
    | network =>
      exact ⟨l, n + 1, congrArg (fun t => some (t, []))
        (handleNostrEvent_recount (s.seen .network) l (n + 1) cfg event)⟩
  | tick ms => exact ⟨l, n, rfl⟩
  | rooms b =>
    refine ⟨l, n, ?_⟩
    simp only [step, Option.map_map, recount_rooms]
    rfl
  | deliver room =>
    refine ⟨l, n, ?_⟩
    simp only [step, recount_chat]
    split
    · rfl
    · rfl
  | named room answer =>
    refine ⟨l, n, ?_⟩
    simp only [step, recount_chat]
    split
    · rfl
    · simp [named_recount]
    · rfl
  | check room =>
    refine ⟨l, n, ?_⟩
    simp only [step, recount_chat]
    split
    · rfl
    · rfl
  | rendered room content =>
    refine ⟨l, n, ?_⟩
    simp only [step, recount_chat]
    split
    · simp [sendMessage_recount]
    · rfl
  | settled room =>
    refine ⟨l, n, ?_⟩
    simp only [step, recount_chat]
    split
    · rfl
    · rfl
  | sourceChat room msg key =>
    refine ⟨l, n, ?_⟩
    simp only [step, recount_rooms, handleSourceChat_recount]
    split
    · rfl
    · rfl
  | sourceJoin room presence key =>
    refine ⟨l, n, ?_⟩
    simp only [step, recount_rooms, bridgeChatter_recount]
    split
    · rfl
    · rfl

/-- An event of the bridge's own making is counted, and nothing else. -/
theorem step_echo {τ : Type} (cfg : InboundConfig) (via : Via) {event : Event}
    (he : ownClientTag cfg event = true ∨ event.pubkey ∈ s.bridgedPubkeys) :
    ∃ l n, step cfg s (.nostrEvent via event : InboundAction τ) = some (s.recount l n, []) := by
  have hignored : (s.seen via).handleNostrEvent cfg event = s.seen via := by
    have hbridged : (s.seen via).bridgedPubkeys = s.bridgedPubkeys := by cases via <;> rfl
    unfold handleNostrEvent
    rw [hbridged]
    rcases he with htag | hkey
    · simp [htag]
    · simp [hkey]
  have hseen : ∃ l n, s.seen via = s.recount l n := by
    cases via with
    | «local» => exact ⟨s.localSeen + 1, s.networkSeen, rfl⟩
    | network => exact ⟨s.localSeen, s.networkSeen + 1, rfl⟩
  obtain ⟨l, n, h⟩ := hseen
  exact ⟨l, n, by rw [step, hignored, h]⟩

end Recount

/-- A message goes out for an event that counts as sent from then on. -/
theorem step_sent {τ : Type} {cfg : InboundConfig} {s : InboundState} {a : InboundAction τ}
    {r : InboundState × List (ChatCall τ)} (hs : step cfg s a = some r) :
    (∀ e ∈ s.sent, e ∈ r.1.sent) ∧
      ∀ room url key name content, .sendMessage room url key name content ∈ r.2 →
        ∃ e ∈ r.1.sent, e.pubkey = key := by
  apply step_elim (motive := fun _ s' calls => (∀ e ∈ s.sent, e ∈ s'.sent) ∧
    ∀ room url key name content, ChatCall.sendMessage room url key name content ∈ calls →
      ∃ e ∈ s'.sent, e.pubkey = key) hs
  case rooms => exact fun b r' _ => ⟨fun _ h => h, by simp⟩
  case tick => exact fun ms => ⟨fun _ h => h, by simp⟩
  case nostrEvent =>
    intro via event
    have hsent : ((s.seen via).handleNostrEvent cfg event).sent = s.sent := by
      have hseen : (s.seen via).sent = s.sent := by cases via <;> rfl
      unfold handleNostrEvent
      split_ifs
      · exact hseen
      · exact hseen
      · exact hseen
      · split <;> exact hseen
    exact ⟨fun _ h => hsent ▸ h, by simp⟩
  case deliver => exact fun room event rest _ => ⟨fun _ h => h, by simp⟩
  case unnamed => exact fun room => ⟨fun _ h => h, by simp⟩
  case named =>
    intro room event name _
    have hsent : (s.named room event name).sent = s.sent := by
      unfold named
      split <;> rfl
    exact ⟨fun _ h => hsent ▸ h, by simp⟩
  case check => exact fun room event displayName _ => ⟨fun _ h => h, by simp⟩
  case rendered =>
    intro room event displayName content _
    unfold sendMessage
    dsimp only
    split
    · exact ⟨fun _ h => h, by simp⟩
    · refine ⟨fun _ h => List.mem_cons_of_mem event h, fun room' url key name content' h => ?_⟩
      simp only [List.mem_singleton, ChatCall.sendMessage.injEq] at h
      exact ⟨event, List.mem_cons_self, h.2.2.1.symm⟩
  case settled => exact fun room => ⟨fun _ h => h, by simp⟩
  case sourceChat =>
    intro room msg key _
    exact ⟨fun _ h => (s.calm_handleSourceChat room msg key).sent ▸ h, by simp⟩
  case sourceJoin =>
    intro room presence key _
    exact ⟨fun _ h => (s.calm_bridgeChatter room presence.userId key).sent ▸ h, by simp⟩

end InboundState

namespace ChatState

variable {τ : Type} {cfg : ChatServiceConfig} {s s' : ChatState τ}

/-- A gateway call needs its signer's key to be among the bridged ones. -/
def Uses : ChatEffect τ → ChatEffect τ → Prop
  | .gateway call, .bridged pubkey => call.signer = pubkey
  | _, _ => False

/-- `bridgedPubkeys` has the keys that were announced, and no other signer is in use. -/
structure Announced (s : ChatState τ) : Prop where
  founded : Founded Uses s.log
  known : ∀ k, k ∈ s.inbound.bridgedPubkeys ↔ .bridged k ∈ s.log
  signers : ∀ room u k, (s.inbound.chat room).chatterSigners.get? u = some k → .bridged k ∈ s.log
  handlers : ∀ id h, s.handlers.get? id = some h → .bridged h.signer ∈ s.log

theorem announced_init : (init τ).Announced where
  founded := founded_nil _
  known := fun k => by simp [init, InboundState.init]
  signers := fun room u k h => by
    simp [init, InboundState.init, RoomChat.new] at h
  handlers := fun id h hh => by simp [init] at hh

theorem Announced.emit (h : s.Announced) {effects : List (ChatEffect τ)}
    (hnew : ∀ k, .bridged k ∉ effects)
    (hcalls : ∀ call, .gateway call ∈ effects → .bridged call.signer ∈ s.log) :
    (s.emit effects).Announced where
  founded := by
    apply h.founded.append
    intro e he n hn
    cases e with
    | gateway call =>
      cases n with
      | bridged k =>
        obtain rfl : call.signer = k := hn
        exact hcalls call he
      | gateway _ | adapter _ => exact hn.elim
    | bridged _ | adapter _ => exact hn.elim
  known := fun k => by
    rw [show (s.emit effects).inbound = s.inbound from rfl, h.known]
    simp [ChatState.emit, hnew k]
  signers := fun room u k hk => List.mem_append_left _ (h.signers room u k hk)
  handlers := fun id x hx => List.mem_append_left _ (h.handlers id x hx)

theorem Announced.emitCall (h : s.Announced) {call : GatewayCall}
    (hcall : .bridged call.signer ∈ s.log) : (s.emit [.gateway call]).Announced := by
  apply h.emit
  · simp
  · intro c hc
    obtain rfl : c = call := by simpa using hc
    exact hcall

theorem Announced.setHandler (h : s.Announced) (id : HandlerId) (handler : SourceHandler)
    (hk : .bridged handler.signer ∈ s.log) : (s.setHandler id handler).Announced := by
  refine ⟨h.founded, h.known, h.signers, fun id' x hx => ?_⟩
  have hset : (s.handlers.set id handler).get? id' = some x := hx
  rw [OrderedMap.get?_set] at hset
  split at hset
  · obtain rfl := Option.some.inj hset
    exact hk
  · exact h.handlers id' x hset

theorem Announced.startHandler (h : s.Announced) {handler : SourceHandler}
    (hk : .bridged handler.signer ∈ s.log) : (s.startHandler handler).Announced :=
  have hset := h.setHandler s.nextHandler handler hk
  ⟨hset.founded, hset.known, hset.signers, hset.handlers⟩

theorem Announced.finishHandler (h : s.Announced) (id : HandlerId) :
    (s.finishHandler id).Announced := by
  refine ⟨h.founded, h.known, h.signers, fun id' x hx => ?_⟩
  have hdel : (s.handlers.delete id).get? id' = some x := hx
  rw [OrderedMap.get?_delete] at hdel
  split at hdel
  · cases hdel
  · exact h.handlers id' x hdel

theorem Announced.countPublish (h : s.Announced) (frame : SourceFrame) :
    (s.countPublish frame).Announced := by
  cases frame with
  | chat msg emojis => exact ⟨h.founded, h.known, h.signers, h.handlers⟩
  | join presence => exact h

theorem Announced.sameSigners (h : s.Announced) {i : InboundState}
    (hi : InboundState.SameSigners s.inbound i) : { s with inbound := i }.Announced where
  founded := h.founded
  known := fun k => hi.bridged ▸ h.known k
  signers := fun room u k hk => h.signers room u k (hi.signers room ▸ hk)
  handlers := h.handlers

/-- `chatterSigner` announces a key as soon as it has drawn it. -/
theorem Announced.identify (h : s.Announced) (room : RoomId) (userId key : JsString) :
    ({ s with inbound := s.inbound.bridgeChatter room userId key }.emit
      (if (s.inbound.chat room).chatterSigners.has userId then []
        else [ChatEffect.bridged key])).Announced := by
  have hb := s.inbound.bridgeChatter_bridged room userId key
  have hs := @InboundState.bridgeChatter_signers s.inbound room
  split at hb
  · rename_i hhas
    refine ⟨by simpa [ChatState.emit, hhas] using h.founded, fun k => ?_, fun id u k hk => ?_, ?_⟩
    · simpa [ChatState.emit, hhas, hb] using h.known k
    · rcases hs hk with hold | ⟨-, -, -, hnone⟩
      · simpa [ChatState.emit, hhas] using h.signers id u k hold
      · simp [OrderedMap.has, hnone] at hhas
    · simpa [ChatState.emit, hhas] using h.handlers
  · rename_i hhas
    refine ⟨?_, fun k => ?_, fun id u k hk => ?_, fun id x hx => ?_⟩
    · simp only [ChatState.emit, hhas]
      exact h.founded.concat fun n hn => by cases n <;> exact hn.elim
    · simp [ChatState.emit, hhas, hb, h.known k, or_comm]
    · simp only [ChatState.emit, hhas]
      rcases hs hk with hold | ⟨-, -, rfl, -⟩
      · exact List.mem_append_left _ (h.signers id u k hold)
      · simp
    · simp only [ChatState.emit, hhas]
      exact List.mem_append_left _ (h.handlers id x hx)

/-- The signer of a source user is announced by then. -/
theorem signerOf_announced (room : RoomId) (userId key : JsString) (h : s.Announced) :
    .bridged (signerOf (s.inbound.chat room) userId key) ∈
      ({ s with inbound := s.inbound.bridgeChatter room userId key }.emit
        (if (s.inbound.chat room).chatterSigners.has userId then []
          else [ChatEffect.bridged key])).log := by
  unfold signerOf OrderedMap.has
  cases hk : (s.inbound.chat room).chatterSigners.get? userId with
  | none => simp [ChatState.emit]
  | some k => simpa [ChatState.emit] using h.signers room userId k hk

theorem Announced.bridge (h : s.Announced) (cfg : ChatServiceConfig) (room : RoomId)
    (frame : SourceFrame) (key : JsString) : (s.bridge cfg room frame key).Announced := by
  have hid := h.identify room frame.userId key
  have hsigner := signerOf_announced room frame.userId key h
  unfold ChatState.bridge
  dsimp only
  split
  · exact (hid.startHandler hsigner).emitCall hsigner
  · exact (hid.startHandler hsigner).emitCall hsigner

theorem Announced.handleFrame (h : s.Announced) (cfg : ChatServiceConfig) (room : RoomId)
    (key : JsString) (frame : SourceFrame) : (s.handleFrame cfg room key frame).Announced := by
  cases frame with
  | join presence => exact h.bridge cfg room _ key
  | chat msg emojis =>
    show (s.handleSourceChat cfg room msg emojis key).Announced
    unfold handleSourceChat
    split
    · exact h
    · dsimp only
      have hcheck := h.sameSigners (.setChat s.inbound room (InboundState.check_chatterSigners
        (s.inbound.chat room) s.inbound.now (FingerprintCache.key msg.displayName msg.text)))
      split
      · exact hcheck
      · exact hcheck.bridge cfg room _ key

theorem Announced.answered (h : s.Announced) {id : HandlerId} {handler : SourceHandler}
    (hh : s.handlers.get? id = some handler) {ok : Bool}
    (hs : s.answered cfg id handler ok = some s') : s'.Announced := by
  have hsigner := h.handlers id handler hh
  have hset (p : Publishing) : (s.setHandler id { handler with publishing := p }).Announced :=
    h.setHandler id _ hsigner
  unfold ChatState.answered at hs
  split at hs
  · split at hs
    · obtain rfl := Option.some.inj hs
      exact (hset .relayList).emitCall hsigner
    · obtain rfl := Option.some.inj hs
      exact h.finishHandler id
  · split at hs
    · obtain rfl := Option.some.inj hs
      exact hset .identified
    · obtain rfl := Option.some.inj hs
      exact h.finishHandler id
  · cases hs
  · split at hs
    · obtain rfl := Option.some.inj hs
      exact (h.finishHandler id).countPublish handler.frame
    · obtain rfl := Option.some.inj hs
      exact h.finishHandler id

theorem next_announced {a : ChatAction τ} (h : s.Announced) (hs : next cfg s a = some s') :
    s'.Announced := by
  cases a with
  | inbound a =>
    simp only [next] at hs
    split at hs
    · cases hs
    · rename_i ha
      obtain ⟨r, hr, rfl⟩ := Option.map_eq_some_iff.mp hs
      have hsame := InboundState.step_sameSigners (by simpa using ha) hr
      apply (h.sameSigners hsame).emit
      · simp
      · simp
  | frame room frame key =>
    simp only [next] at hs
    split at hs
    · obtain rfl := Option.some.inj hs
      exact h.handleFrame cfg room key frame
    · cases hs
  | answered id ok =>
    obtain ⟨handler, hh, hs⟩ := Option.bind_eq_some_iff.mp hs
    exact h.answered hh hs
  | resume id =>
    simp only [next] at hs
    split at hs
    · rename_i handler hh
      split at hs
      · obtain rfl := Option.some.inj hs
        have hsigner := h.handlers id handler hh
        have hset := h.setHandler id { handler with publishing := .event } hsigner
        exact hset.emitCall hsigner
      · cases hs
    · cases hs

/-- The same state with other reception counts. -/
def recount (s : ChatState τ) (l n : Nat) : ChatState τ :=
  { s with inbound := s.inbound.recount l n }

theorem bridge_recount (cfg : ChatServiceConfig) (s : ChatState τ) (room : RoomId)
    (frame : SourceFrame) (key : JsString) (l n : Nat) :
    (s.recount l n).bridge cfg room frame key = (s.bridge cfg room frame key).recount l n := by
  have hb := s.inbound.bridgeChatter_recount l n room frame.userId key
  unfold bridge
  rw [apply_ite (fun t : ChatState τ => t.recount l n)]
  dsimp only [recount]
  rw [hb]
  rfl

theorem handleFrame_recount (cfg : ChatServiceConfig) (s : ChatState τ) (room : RoomId)
    (key : JsString) (frame : SourceFrame) (l n : Nat) :
    (s.recount l n).handleFrame cfg room key frame =
      (s.handleFrame cfg room key frame).recount l n := by
  cases frame with
  | join presence => exact bridge_recount cfg s room _ key l n
  | chat msg emojis =>
    show (s.recount l n).handleSourceChat cfg room msg emojis key =
      (s.handleSourceChat cfg room msg emojis key).recount l n
    unfold handleSourceChat
    rw [apply_ite (fun t : ChatState τ => t.recount l n)]
    congr 1
    dsimp only
    rw [apply_ite (fun t : ChatState τ => t.recount l n)]
    congr 1
    let c := ((s.inbound.chat room).check s.inbound.now
      (FingerprintCache.key msg.displayName msg.text)).2
    exact bridge_recount cfg { s with inbound := s.inbound.setChat room c } room _ key l n

theorem answered_recount (cfg : ChatServiceConfig) (s : ChatState τ) (id : HandlerId)
    (h : SourceHandler) (ok : Bool) (l n : Nat) :
    (s.recount l n).answered cfg id h ok =
      (s.answered cfg id h ok).map fun t => t.recount l n := by
  unfold answered
  cases h.publishing with
  | profile | relayList => cases ok <;> rfl
  | identified => rfl
  | event =>
    cases ok with
    | false => rfl
    | true => cases h.frame <;> rfl

theorem next_recount (cfg : ChatServiceConfig) (s : ChatState τ) (a : ChatAction τ) (l n : Nat) :
    ∃ l' n', next cfg (s.recount l n) a = (next cfg s a).map fun t => t.recount l' n' := by
  cases a with
  | inbound a =>
    obtain ⟨l', n', h⟩ := s.inbound.step_recount l n cfg.toInboundConfig a
    refine ⟨l', n', ?_⟩
    simp only [next, recount, h]
    split
    · rfl
    · simp only [Option.map_map]
      rfl
  | frame room frame key =>
    refine ⟨l, n, ?_⟩
    simp only [next, handleFrame_recount]
    show (if room < s.inbound.rooms.nextRoom then _ else _) = _
    split
    · rfl
    · rfl
  | answered id ok =>
    refine ⟨l, n, ?_⟩
    show (s.handlers.get? id).bind _ = ((s.handlers.get? id).bind _).map _
    cases s.handlers.get? id with
    | none => rfl
    | some h => exact answered_recount cfg s id h ok l n
  | resume id =>
    refine ⟨l, n, ?_⟩
    have hget : (s.recount l n).handlers.get? id = s.handlers.get? id := rfl
    simp only [next, hget]
    cases s.handlers.get? id with
    | none => rfl
    | some h =>
      dsimp only
      split
      · rfl
      · rfl

theorem run_recount (cfg : ChatServiceConfig) (as : List (ChatAction τ)) (s : ChatState τ)
    (l n : Nat) : ∃ l' n', run (next cfg) (s.recount l n) as =
      (run (next cfg) s as).map fun t => t.recount l' n' := by
  induction as generalizing s l n with
  | nil => exact ⟨l, n, rfl⟩
  | cons a as ih =>
    obtain ⟨l₁, n₁, h⟩ := next_recount cfg s a l n
    simp only [run, h]
    cases next cfg s a with
    | none => exact ⟨l, n, rfl⟩
    | some s' => exact ih s' l₁ n₁

/-- The event came in before its author was known as a chatter of the bridge, without the
bridge's own tag. -/
def Foreign (cfg : ChatServiceConfig) (as : List (ChatAction τ)) (e : Event) : Prop :=
  ∃ as₁ via as₂ s, as = as₁ ++ .inbound (.nostrEvent via e) :: as₂ ∧
    run (next cfg) (init τ) as₁ = some s ∧ .bridged e.pubkey ∉ s.log ∧
      InboundState.ownClientTag cfg.toInboundConfig e = false

/-- Everything sent to the source, or on its way there, came in as a foreign event. -/
structure Foreigners (cfg : ChatServiceConfig) (as : List (ChatAction τ)) (s : ChatState τ) :
    Prop where
  announced : s.Announced
  sourced : s.inbound.Sourced (Foreign cfg as)
  sent : ∀ room url key name content,
    .adapter (.sendMessage room url key name content) ∈ s.log → ∃ e ∈ s.inbound.sent, e.pubkey = key

theorem Foreign.later {as : List (ChatAction τ)} {e : Event} (h : Foreign cfg as e)
    (a : ChatAction τ) : Foreign cfg (as ++ [a]) e := by
  obtain ⟨as₁, via, as₂, s, rfl, hrest⟩ := h
  exact ⟨as₁, via, as₂ ++ [a], s, by simp, hrest⟩

/-- The source handlers leave the adapter alone. -/
theorem bridge_log (cfg : ChatServiceConfig) (s : ChatState τ) (room : RoomId)
    (frame : SourceFrame) (key : JsString) (call : ChatCall τ) :
    .adapter call ∈ (s.bridge cfg room frame key).log ↔ .adapter call ∈ s.log := by
  unfold bridge
  dsimp only
  split
  · simp only [emit, startHandler, setHandler]
    split <;> simp
  · simp only [emit, startHandler, setHandler]
    split <;> simp

theorem handleFrame_log (cfg : ChatServiceConfig) (s : ChatState τ) (room : RoomId)
    (key : JsString) (frame : SourceFrame) (call : ChatCall τ) :
    .adapter call ∈ (s.handleFrame cfg room key frame).log ↔ .adapter call ∈ s.log := by
  cases frame with
  | join presence => exact bridge_log cfg s room _ key call
  | chat msg emojis =>
    show .adapter call ∈ (s.handleSourceChat cfg room msg emojis key).log ↔ _
    unfold handleSourceChat
    split
    · rfl
    · dsimp only
      split
      · rfl
      · exact bridge_log cfg _ room _ key call

theorem answered_log {id : HandlerId} {h : SourceHandler} {ok : Bool}
    (hs : s.answered cfg id h ok = some s') (call : ChatCall τ) :
    .adapter call ∈ s'.log ↔ .adapter call ∈ s.log := by
  unfold answered at hs
  split at hs
  · split at hs
    · obtain rfl := Option.some.inj hs
      simp [emit, setHandler]
    · obtain rfl := Option.some.inj hs
      rfl
  · split at hs
    · obtain rfl := Option.some.inj hs
      rfl
    · obtain rfl := Option.some.inj hs
      rfl
  · cases hs
  · split at hs
    · obtain rfl := Option.some.inj hs
      cases h.frame <;> rfl
    · obtain rfl := Option.some.inj hs
      rfl

theorem next_sent {a : ChatAction τ} (hs : next cfg s a = some s') :
    ∀ e ∈ s.inbound.sent, e ∈ s'.inbound.sent := by
  intro e he
  rcases next_inbound hs with hsame | ⟨b, hb, -⟩
  · rwa [hsame]
  · obtain ⟨r, hr, hr'⟩ := Option.map_eq_some_iff.mp hb
    exact hr' ▸ (InboundState.step_sent hr).1 e he

theorem Foreigners.sendMessage {as : List (ChatAction τ)} (h : s.Foreigners cfg as)
    {a : ChatAction τ} (hs : next cfg s a = some s') {room : RoomId} {url key name : JsString}
    {content : τ} (hm : .adapter (.sendMessage room url key name content) ∈ s'.log) :
    ∃ e ∈ s'.inbound.sent, e.pubkey = key := by
  have hold (hm : .adapter (.sendMessage room url key name content) ∈ s.log) :
      ∃ e ∈ s'.inbound.sent, e.pubkey = key := by
    obtain ⟨e, he, hk⟩ := h.sent room url key name content hm
    exact ⟨e, next_sent hs e he, hk⟩
  cases a with
  | inbound b =>
    simp only [next] at hs
    split at hs
    · cases hs
    · obtain ⟨r, hr, rfl⟩ := Option.map_eq_some_iff.mp hs
      rcases List.mem_append.mp hm with hm | hm
      · exact hold hm
      · have hcall : .sendMessage room url key name content ∈ r.2 := by simpa using hm
        exact (InboundState.step_sent hr).2 room url key name content hcall
  | frame room' frame key' =>
    simp only [next] at hs
    split at hs
    · obtain rfl := Option.some.inj hs
      exact hold ((handleFrame_log cfg s room' key' frame _).mp hm)
    · cases hs
  | answered id ok =>
    obtain ⟨handler, -, hs'⟩ := Option.bind_eq_some_iff.mp hs
    exact hold ((answered_log hs' _).mp hm)
  | resume id =>
    simp only [next] at hs
    split at hs
    · split at hs
      · obtain rfl := Option.some.inj hs
        exact hold (by simpa [publishEvent, ChatState.emit, setHandler] using hm)
      · cases hs
    · cases hs

theorem next_foreigners {as : List (ChatAction τ)} {a : ChatAction τ}
    (hrun : run (next cfg) (init τ) as = some s) (h : s.Foreigners cfg as)
    (hs : next cfg s a = some s') : s'.Foreigners cfg (as ++ [a]) := by
  have hann := next_announced h.announced hs
  have hsourced : s.inbound.Sourced (Foreign cfg (as ++ [a])) :=
    ⟨fun room e he => (h.sourced.held room e he).later a,
      fun e he => (h.sourced.sent e he).later a⟩
  refine ⟨hann, ?_, fun room url key name content hm => h.sendMessage hs hm⟩
  rcases next_inbound hs with hsame | ⟨b, hb, hab⟩
  · rwa [hsame]
  · apply InboundState.next_sourced hsourced _ hb
    rintro via e rfl hadmitted
    rcases hab with hsource | rfl
    · cases hsource
    · have hnew : .bridged e.pubkey ∉ s.log := fun hmem =>
        hadmitted.2.2.1 ((h.announced.known e.pubkey).mpr hmem)
      exact ⟨as, via, [], s, rfl, hrun, hnew, hadmitted.2.1⟩

theorem run_foreigners {as : List (ChatAction τ)}
    (hr : run (next cfg) (init τ) as = some s) : s.Foreigners cfg as := by
  have hstart : (init τ).Foreigners cfg [] :=
    ⟨announced_init, InboundState.sourced_init, by simp [init]⟩
  exact run_history hstart (fun _ _ _ _ hm hi hs => next_foreigners hm hi hs) hr

/-- No chatter of the bridge speaks before its key is known, and an event of the bridge's own
making never gets back to the source: without it the service does the same. -/
theorem no_echo_into_source (cfg : ChatServiceConfig) {as : List (ChatAction τ)}
    {t : ChatState τ} (hr : run (next cfg) (init τ) as = some t) :
    (∀ pre call post, t.log = pre ++ .gateway call :: post → .bridged call.signer ∈ pre) ∧
    (∀ room userId key, (t.inbound.chat room).chatterSigners.get? userId = some key →
      .bridged key ∈ t.log) ∧
    (∀ key, .bridged key ∈ t.log → key ∈ t.inbound.bridgedPubkeys) ∧
    (∀ as₁ via e as₂ s, as = as₁ ++ .inbound (.nostrEvent via e) :: as₂ →
      run (next cfg) (init τ) as₁ = some s →
      (.bridged e.pubkey ∈ s.log ∨ InboundState.ownClientTag cfg.toInboundConfig e = true) →
      ∃ t', run (next cfg) (init τ) (as₁ ++ as₂) = some t' ∧ t'.log = t.log) ∧
    ∀ room url key name content, .adapter (.sendMessage room url key name content) ∈ t.log →
      ∃ e, e.pubkey = key ∧ Foreign cfg as e := by
  have hf := run_foreigners hr
  refine ⟨?_, hf.announced.signers, fun key => (hf.announced.known key).mpr, ?_, ?_⟩
  · intro pre call post hl
    exact hf.announced.founded pre (.gateway call) post hl (.bridged call.signer) rfl
  · intro as₁ via e as₂ s has hs he
    have hann := (run_foreigners hs).announced
    obtain ⟨m, hm, ht⟩ := run_append_eq_some.mp (has ▸ hr)
    obtain rfl : s = m := Option.some.inj (hs.symm.trans hm)
    obtain ⟨s', hs', ht⟩ := run_cons_eq_some.mp ht
    have hecho : InboundState.ownClientTag cfg.toInboundConfig e = true ∨
        e.pubkey ∈ s.inbound.bridgedPubkeys := he.symm.imp_right (hann.known e.pubkey).mpr
    obtain ⟨l, n, hstep⟩ : ∃ l n, InboundState.step cfg.toInboundConfig s.inbound
        (.nostrEvent via e : InboundAction τ) = some (s.inbound.recount l n, []) :=
      s.inbound.step_echo cfg.toInboundConfig via hecho
    have hcounted : s' = s.recount l n := by
      have hnext : next cfg s (.inbound (.nostrEvent via e)) = some (s.recount l n) := by
        simp [next, InboundAction.isSource, hstep, emit, recount]
      exact Option.some.inj (hs'.symm.trans hnext)
    obtain ⟨l', n', hrest⟩ := run_recount cfg as₂ s l n
    rw [hcounted, hrest] at ht
    obtain ⟨t', ht', rfl⟩ := Option.map_eq_some_iff.mp ht
    exact ⟨t', run_append_eq_some.mpr ⟨s, hs, ht'⟩, rfl⟩
  · intro room url key name content hm
    obtain ⟨e, he, hk⟩ := hf.sent room url key name content hm
    exact ⟨e, hk, hf.sourced.sent e he⟩

def demoService : ChatServiceConfig :=
  { bridgePubkey := js "b", chatToNostr := true, demand := false, bridgeName := js "livelier"
    sourceName := js "Owncast", chatRelayUrl := js "ws://chat", profileWriteRelays := [js "ws://chat"]
    chatExpirationSeconds := 60 }

/-- A room opens with its listener, and a chatter of the source says hello. -/
def hello : List (ChatAction Unit) :=
  [.inbound (.rooms .refreshRooms), .inbound (.rooms (.rows 0 (some [⟨js "u", js "oc"⟩]))),
    .inbound (.rooms (.listener 0 true)), .inbound (.rooms (.resume 0)),
    .frame 0 (.chat ⟨js "alice", js "Alice", js "hello"⟩ []) (js "k")]

/-- The relay sends the chatter's message back, and then somebody else's. -/
def helloAnswered : List (ChatAction Unit) :=
  hello ++ [.answered 0 true, .answered 0 true, .resume 0, .answered 0 true,
    .inbound (.nostrEvent .local { InboundState.demoEvent with pubkey := js "k" }),
    .inbound (.nostrEvent .local InboundState.demoEvent), .inbound (.deliver 0),
    .inbound (.named 0 (some none)), .inbound (.check 0), .inbound (.rendered 0 ())]

theorem no_echo_into_source_hello :
    ∃ t, run (next demoService) (init Unit) helloAnswered = some t ∧
      t.inbound.sent = [InboundState.demoEvent] ∧ t.inbound.bridgedPubkeys = [js "k"] ∧
      ∀ room url key name content, .adapter (.sendMessage room url key name content) ∈ t.log →
        ∃ e, e.pubkey = key ∧ Foreign demoService helloAnswered e := by
  have hrun : (run (next demoService) (init Unit) helloAnswered).map
      (fun t => (t.inbound.sent, t.inbound.bridgedPubkeys)) =
        some ([InboundState.demoEvent], [js "k"]) := by decide +kernel
  obtain ⟨t, ht, hsent⟩ := Option.map_eq_some_iff.mp hrun
  obtain ⟨-, -, -, -, hforeign⟩ := no_echo_into_source demoService ht
  exact ⟨t, ht, congrArg Prod.fst hsent, congrArg Prod.snd hsent, hforeign⟩

end ChatState

end LivelierBridge.Chat
