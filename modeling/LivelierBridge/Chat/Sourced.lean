import LivelierBridge.Chat.AtMostOnce

namespace LivelierBridge.Chat

open Framework Js Nostr

/-- The events that wait in a room's chain or are being delivered. -/
def RoomChat.held (c : RoomChat) : List Event := c.waiting ++ (c.delivering.map Prod.fst).toList

theorem RoomChat.held_check (c : RoomChat) (now : Nat) (fp : JsString) :
    (c.check now fp).2.held = c.held := by
  cases h : (c.fingerprints.has now fp).1 with
  | true => rw [RoomChat.check_seen h]; rfl
  | false => rw [RoomChat.check_fresh h]; rfl

namespace InboundState

/-- The filters of `handleNostrEvent` let the event through to a room. -/
def Admitted (cfg : InboundConfig) (s : InboundState) (event : Event) : Prop :=
  event.kind = 1311 ∧ ownClientTag cfg event = false ∧ event.pubkey ∉ s.bridgedPubkeys ∧
    (s.roomFor event).isSome = true

instance (cfg : InboundConfig) (s : InboundState) (event : Event) :
    Decidable (s.Admitted cfg event) := inferInstanceAs (Decidable (_ ∧ _))

/-- All events that wait, are being delivered or were sent satisfy `P`. -/
structure Sourced (P : Event → Prop) (s : InboundState) : Prop where
  held : ∀ room, ∀ e ∈ (s.chat room).held, P e
  sent : ∀ e ∈ s.sent, P e

section Sourced

variable {P : Event → Prop} {s : InboundState}

theorem sourced_init : init.Sourced P :=
  ⟨fun _ _ h => absurd h List.not_mem_nil, fun _ h => absurd h List.not_mem_nil⟩

theorem Sourced.setChat (h : s.Sourced P) {room : RoomId} {c : RoomChat}
    (hc : ∀ e ∈ c.held, P e) : (s.setChat room c).Sourced P := by
  refine ⟨fun id e he => ?_, h.sent⟩
  by_cases hid : id = room
  · subst hid
    exact hc e (by simpa [InboundState.setChat] using he)
  · exact h.held id e (by simpa [InboundState.setChat, hid] using he)

theorem mem_held_of_delivering {c : RoomChat} {event : Event} {stage : Stage}
    (h : c.delivering = some (event, stage)) : event ∈ c.held := by
  simp [RoomChat.held, h]

theorem Sourced.endLink (h : s.Sourced P) (room : RoomId) : (s.endLink room).Sourced P := by
  refine h.setChat fun e he => h.held room e ?_
  have hw : e ∈ (s.chat room).waiting := by simpa [RoomChat.held] using he
  exact List.mem_append_left _ hw

theorem Sourced.setStage (h : s.Sourced P) {room : RoomId} {event : Event} {stage : Stage}
    (hd : (s.chat room).delivering = some (event, stage)) (stage' : Stage) :
    (s.setStage room event stage').Sourced P := by
  refine h.setChat fun e he => h.held room e ?_
  simpa [RoomChat.held, hd] using he

theorem Sourced.handleNostrEvent (h : s.Sourced P) (cfg : InboundConfig) {event : Event}
    (he : s.Admitted cfg event → P event) : (s.handleNostrEvent cfg event).Sourced P := by
  unfold InboundState.handleNostrEvent
  split_ifs with hkind htag hbridged
  · exact h
  · exact h
  · exact h
  · split
    · exact h
    · rename_i room hroom
      have hadmitted : s.Admitted cfg event :=
        ⟨not_not.mp hkind, by simpa using htag, hbridged, by simp [hroom]⟩
      have hset : (s.setChat room { s.chat room with
          waiting := (s.chat room).waiting ++ [event] }).Sourced P := by
        refine h.setChat fun e hmem => ?_
        have hcases : e ∈ (s.chat room).held ∨ e = event := by
          simp only [RoomChat.held, List.mem_append, List.mem_singleton] at hmem ⊢
          tauto
        exact hcases.elim (h.held room e) fun heq => heq ▸ he hadmitted
      exact ⟨hset.held, hset.sent⟩

theorem Sourced.deliver (h : s.Sourced P) {room : RoomId} {event : Event} {rest : List Event}
    (hw : (s.chat room).waiting = event :: rest) : (s.deliver room event rest).Sourced P := by
  refine h.setChat fun e he => h.held room e ?_
  simp only [RoomChat.held, hw, Option.map_some, Option.toList_some, List.mem_append,
    List.mem_cons] at he ⊢
  tauto

theorem Sourced.named (h : s.Sourced P) {room : RoomId} {event : Event} {stage : Stage}
    (hd : (s.chat room).delivering = some (event, stage)) (name : Option JsString) :
    (s.named room event name).Sourced P := by
  unfold InboundState.named
  split
  · rename_i u us
    have hset := h.setStage hd (.resolved (u :: us))
    exact ⟨hset.held, hset.sent⟩
  · exact h.setStage hd _

theorem Sourced.check (h : s.Sourced P) {room : RoomId} {event : Event} {displayName : JsString}
    {stage : Stage} (hd : (s.chat room).delivering = some (event, stage)) :
    (s.check room event displayName).Sourced P := by
  let fp := FingerprintCache.key displayName event.content
  have hheld := (s.chat room).held_check s.now fp
  have hkeep (delivering : Option (Event × Stage))
      (hsame : ∀ x ∈ delivering, x.1 = event) :
      (s.setChat room { ((s.chat room).check s.now fp).2 with delivering }).Sourced P := by
    refine h.setChat fun e he => ?_
    rcases List.mem_append.mp he with hw | hd'
    · exact h.held room e (hheld ▸ List.mem_append_left _ hw)
    · obtain ⟨x, hx, rfl⟩ := Option.map_eq_some_iff.mp (Option.mem_toList.mp hd')
      rw [hsame x hx]
      exact h.held room event (mem_held_of_delivering hd)
  have hset := hkeep
    (if ((s.chat room).check s.now fp).1 then none else some (event, .rendering displayName)) (by
      intro x hx
      split at hx
      · cases hx
      · exact Option.some.inj hx ▸ rfl)
  exact ⟨hset.held, hset.sent⟩

theorem Sourced.sendMessage {τ : Type} (h : s.Sourced P) {room : RoomId} {event : Event}
    {stage : Stage} (hd : (s.chat room).delivering = some (event, stage)) (displayName : JsString)
    (content : τ) : (s.sendMessage room event displayName content).1.Sourced P := by
  unfold InboundState.sendMessage
  dsimp only
  split
  · exact h.endLink room
  · have hset := h.setStage hd .sending
    exact ⟨hset.held, List.forall_mem_cons.mpr
      ⟨h.held room event (mem_held_of_delivering hd), h.sent⟩⟩

theorem Sourced.chatterSigner (h : s.Sourced P) (room : RoomId) (userId key : JsString) :
    (s.chatterSigner room userId key).Sourced P := by
  unfold InboundState.chatterSigner
  split
  · exact h
  · have hset : (s.setChat room { s.chat room with
        chatterSigners := (s.chat room).chatterSigners.set userId key }).Sourced P :=
      h.setChat (h.held room)
    exact ⟨hset.held, hset.sent⟩

theorem Sourced.bridgeChatter (h : s.Sourced P) (room : RoomId) (userId key : JsString) :
    (s.bridgeChatter room userId key).Sourced P := by
  have hsigner := h.chatterSigner room userId key
  unfold InboundState.bridgeChatter
  dsimp only
  split
  · exact hsigner
  · exact hsigner.setChat (hsigner.held room)

theorem Sourced.handleSourceChat (h : s.Sourced P) (room : RoomId) (msg : SourceChatMessage)
    (key : JsString) : (s.handleSourceChat room msg key).Sourced P := by
  have hcheck : (s.setChat room ((s.chat room).check s.now
      (FingerprintCache.key msg.displayName msg.text)).2).Sourced P :=
    h.setChat fun e he => h.held room e (RoomChat.held_check _ _ _ ▸ he)
  unfold InboundState.handleSourceChat
  split
  · exact h
  · dsimp only
    split
    · exact hcheck
    · exact hcheck.bridgeChatter room msg.userId key

/-- The events of the chat service stay within `P` when those that it admits are. -/
theorem next_sourced {τ : Type} {cfg : InboundConfig} {s' : InboundState} {a : InboundAction τ}
    (h : s.Sourced P) (ha : ∀ via e, a = .nostrEvent via e → s.Admitted cfg e → P e)
    (hs : next cfg s a = some s') : s'.Sourced P := by
  obtain ⟨r, hstep, rfl⟩ := Option.map_eq_some_iff.mp hs
  revert ha
  apply step_elim (motive := fun a s' _ =>
    (∀ via e, a = .nostrEvent via e → s.Admitted cfg e → P e) → s'.Sourced P) hstep
  case rooms => exact fun _ _ _ _ => ⟨h.held, h.sent⟩
  case tick => exact fun _ _ => ⟨h.held, h.sent⟩
  case nostrEvent =>
    intro via event ha
    have hseen : (s.seen via).Sourced P := by cases via <;> exact ⟨h.held, h.sent⟩
    apply hseen.handleNostrEvent cfg
    intro hadmitted
    apply ha via event rfl
    cases via <;> exact hadmitted
  case deliver => exact fun room event rest hw _ => h.deliver hw
  case unnamed => exact fun room _ => h.endLink room
  case named => exact fun room event name hd _ => h.named hd name
  case check => exact fun room event displayName hd _ => h.check hd
  case rendered =>
    exact fun room event displayName content hd _ => h.sendMessage hd displayName content
  case settled => exact fun room _ => h.endLink room
  case sourceChat => exact fun room msg key _ _ => h.handleSourceChat room msg key
  case sourceJoin => exact fun room presence key _ _ => h.bridgeChatter room presence.userId key

end Sourced

end InboundState

end LivelierBridge.Chat
