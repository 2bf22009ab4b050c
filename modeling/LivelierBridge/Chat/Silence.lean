import LivelierBridge.Chat.ListenerOwnership
import LivelierBridge.Chat.NoEcho

namespace LivelierBridge.Chat

open Framework Js Nostr

namespace RoomsState

/-- Rooms are added, and the ones that exist keep their a-tag. -/
structure Extends (s s' : RoomsState) : Prop where
  rooms : s.nextRoom ≤ s'.nextRoom
  tags : ∀ id < s.nextRoom, (s'.room id).aTag = (s.room id).aTag

variable {cfg : RoomsConfig} {s s' : RoomsState}

theorem Extends.of_room (hn : s'.nextRoom = s.nextRoom) (hr : s'.room = s.room) :
    s.Extends s' := ⟨Nat.le_of_eq hn.symm, fun id _ => by rw [hr]⟩

theorem Extends.trans {s'' : RoomsState} (h : s.Extends s') (h' : s'.Extends s'') :
    s.Extends s'' := by
  refine ⟨Nat.le_trans h.rooms h'.rooms, fun id hid => ?_⟩
  have hid' : id < s'.nextRoom := Nat.lt_of_lt_of_le hid h.rooms
  exact (h'.tags id hid').trans (h.tags id hid)

theorem extends_openRoom (cfg : RoomsConfig) (s : RoomsState) (row : RoomRow) :
    s.Extends (s.openRoom cfg row) :=
  ⟨Nat.le_succ _, fun id hid => by rw [openRoom_room_of_lt hid]⟩

theorem extends_bringUp (cfg : RoomsConfig) (rows : List RoomRow) (s : RoomsState) :
    s.Extends (s.bringUp cfg rows).1 := by
  induction rows generalizing s with
  | nil => exact .of_room rfl rfl
  | cons row rows ih =>
    unfold bringUp
    split
    · exact ih s
    · split
      · exact extends_openRoom cfg s row
      · exact (extends_openRoom cfg s row).trans (ih _)

theorem extends_continueRefresh (cfg : RoomsConfig) (s : RoomsState) (run : RunId)
    (rows : List RoomRow) : s.Extends (s.continueRefresh cfg run rows).1 := by
  have hup := extends_bringUp cfg rows s
  unfold continueRefresh
  split
  · rename_i h
    rw [h] at hup
    exact hup.trans (.of_room rfl rfl)
  · rename_i h
    rw [h] at hup
    exact hup.trans (.of_room rfl rfl)

theorem extends_continuePoll (s : RoomsState) (run : RunId) (aTags : List JsString)
    (from' : RoomId) : s.Extends (s.continuePoll run aTags from').1 := by
  unfold continuePoll
  split
  · exact .of_room rfl rfl
  · exact .of_room rfl rfl

theorem extends_assignListener (s : RoomsState) (room : RoomId) :
    s.Extends (s.assignListener room) := by
  refine ⟨Nat.le_refl _, fun id _ => ?_⟩
  by_cases hid : id = room
  · subst hid
    simp [assignListener]
  · simp [assignListener, hid]

theorem step_extends {a : RoomsAction} {r : RoomsState × List AdapterCall}
    (hs : step cfg s a = some r) : s.Extends r.1 := by
  cases a with
  | refreshRooms =>
    obtain rfl := Option.some.inj hs
    exact .of_room rfl rfl
  | pollDemand =>
    simp only [step] at hs
    split at hs
    · obtain rfl := Option.some.inj hs
      exact .of_room rfl rfl
    · obtain rfl := Option.some.inj hs
      exact .of_room rfl rfl
  | stop =>
    obtain rfl := Option.some.inj hs
    exact .of_room rfl rfl
  | rows run answer =>
    simp only [step] at hs
    split at hs
    · obtain rfl := Option.some.inj hs
      exact .of_room rfl rfl
    · rename_i rows _
      obtain rfl := Option.some.inj hs
      have hclose : s.Extends (s.closeUnwanted (wantedRooms rows)) := .of_room rfl rfl
      exact hclose.trans (extends_continueRefresh cfg _ run _)
    · cases hs
  | demanded run answer =>
    simp only [step] at hs
    split at hs
    · obtain rfl := Option.some.inj hs
      exact .of_room rfl rfl
    · obtain rfl := Option.some.inj hs
      exact extends_continuePoll s run _ _
    · cases hs
  | listener run ok =>
    have hassign (room : RoomId) (p : Suspended) :
        s.Extends ((s.assignListener room).suspend run p) :=
      (extends_assignListener s room).trans (.of_room rfl rfl)
    have hfinish : s.Extends (s.finish run) := .of_room rfl rfl
    simp only [step] at hs
    split at hs
    · split at hs
      · obtain rfl := Option.some.inj hs
        exact hassign _ _
      · obtain rfl := Option.some.inj hs
        exact hfinish
    · split at hs
      · obtain rfl := Option.some.inj hs
        exact hassign _ _
      · obtain rfl := Option.some.inj hs
        exact hfinish
    · cases hs
  | resume run =>
    simp only [step] at hs
    split at hs
    · obtain rfl := Option.some.inj hs
      exact extends_continueRefresh cfg s run _
    · obtain rfl := Option.some.inj hs
      exact extends_continuePoll s run _ _
    · cases hs

/-- The a-tags of the rooms that a refresh takes down with these rows. -/
def removedTags (s : RoomsState) : RoomsAction → List JsString
  | .rows _ (some rows) =>
    (s.rooms.entries.filter fun e => !(wantedRooms rows).has e.1).map fun e => (s.room e.2).aTag
  | _ => []

/-- The a-tags of the rooms that were opened between the two. -/
def openedTags (s s' : RoomsState) : List JsString :=
  (s'.rooms.values.filter (s.nextRoom ≤ ·)).map fun id => (s'.room id).aTag

end RoomsState

namespace InboundState

theorem bridgeChatter_rooms (s : InboundState) (room : RoomId) (userId key : JsString) :
    (s.bridgeChatter room userId key).rooms = s.rooms := by
  obtain ⟨c, bridged, he, -⟩ := s.bridgeChatter_eq room userId key
  rw [he]
  rfl

theorem handleSourceChat_rooms (s : InboundState) (room : RoomId) (msg : SourceChatMessage)
    (key : JsString) : (s.handleSourceChat room msg key).rooms = s.rooms := by
  unfold handleSourceChat
  split
  · rfl
  · dsimp only
    split
    · rfl
    · exact bridgeChatter_rooms _ room _ key

theorem handleNostrEvent_rooms (cfg : InboundConfig) (s : InboundState) (event : Event) :
    (s.handleNostrEvent cfg event).rooms = s.rooms := by
  unfold handleNostrEvent
  split_ifs
  · rfl
  · rfl
  · rfl
  · split <;> rfl

theorem step_rooms {τ : Type} {cfg : InboundConfig} {s : InboundState} {a : InboundAction τ}
    {r : InboundState × List (ChatCall τ)} (hs : step cfg s a = some r) :
    s.rooms.Extends r.1.rooms := by
  have hsame {s' : InboundState} (h : s'.rooms = s.rooms) : s.rooms.Extends s'.rooms := by
    rw [h]
    exact .of_room rfl rfl
  apply step_elim (motive := fun _ s' _ => s.rooms.Extends s'.rooms) hs
  case rooms => exact fun b r' hr => RoomsState.step_extends hr
  case tick => exact fun ms => hsame rfl
  case nostrEvent =>
    intro via event
    have hseen : (s.seen via).rooms = s.rooms := by cases via <;> rfl
    exact hsame ((handleNostrEvent_rooms cfg _ event).trans hseen)
  case deliver => exact fun room event rest _ => hsame rfl
  case unnamed => exact fun room => hsame rfl
  case named =>
    intro room event name _
    unfold named
    split <;> exact hsame rfl
  case check => exact fun room event displayName _ => hsame rfl
  case rendered =>
    intro room event displayName content _
    unfold sendMessage
    dsimp only
    split <;> exact hsame rfl
  case settled => exact fun room => hsame rfl
  case sourceChat =>
    exact fun room msg key _ => hsame (s.handleSourceChat_rooms room msg key)
  case sourceJoin =>
    exact fun room presence key _ => hsame (s.bridgeChatter_rooms room presence.userId key)

end InboundState

/-- The chat service, with the a-tags of the rooms that `refreshRooms` took down and did not
open since, and those that a 1311 or 10312 was published for in the meantime. -/
structure RoomWatch (τ : Type) where
  chat : ChatState τ
  closed : List JsString
  loud : List JsString

/-- The room that a 1311 or 10312 is published for. -/
def ChatEffect.roomTag {τ : Type} : ChatEffect τ → Option JsString
  | .gateway (.publish _ kind _ tags) =>
    if kind = 1311 ∨ kind = 10312 then tagValue tags (js "a") else none
  | _ => none

namespace RoomWatch

variable {τ : Type}

def init (τ : Type) : RoomWatch τ := ⟨.init τ, [], []⟩

def removedTags (s : RoomWatch τ) : ChatAction τ → List JsString
  | .inbound (.rooms a) => s.chat.inbound.rooms.removedTags a
  | _ => []

/-- The a-tags of the events that were published between the two. -/
def publishedTags (c c' : ChatState τ) : List JsString :=
  (c'.log.drop c.log.length).filterMap ChatEffect.roomTag

/-- What the watch holds after a step of the service. -/
def after (s : RoomWatch τ) (a : ChatAction τ) (c : ChatState τ) : RoomWatch τ :=
  { chat := c
    closed := (s.closed ++ s.removedTags a).filter fun tag =>
      tag ∉ s.chat.inbound.rooms.openedTags c.inbound.rooms
    loud := s.loud ++ (publishedTags s.chat c).filter fun tag => tag ∈ s.closed }

def step (cfg : ChatServiceConfig) (s : RoomWatch τ) (a : ChatAction τ) : Option (RoomWatch τ) :=
  (s.chat.next cfg a).map (s.after a)

/-- Every closed room is silent. -/
def Silent (s : RoomWatch τ) : Prop := s.loud = []

/-- The frame is neither empty nor a message that was just seen. -/
def passes (s : RoomWatch τ) (room : RoomId) : SourceFrame → Bool
  | .join _ => true
  | .chat msg _ =>
    msg.text ≠ [] && !((s.chat.inbound.chat room).fingerprints.has s.chat.inbound.now
      (FingerprintCache.key msg.displayName msg.text)).1

def tagOf (s : RoomWatch τ) (room : RoomId) : JsString := (s.chat.inbound.rooms.room room).aTag

/-- No frame is handled for a closed room, and no room is closed while one of its handlers has
its own event still to publish. -/
def Settled (s : RoomWatch τ) : ChatAction τ → Prop
  | .frame room frame _ => s.passes room frame = true → s.tagOf room ∉ s.closed
  | .inbound a => ∀ e ∈ s.chat.handlers.entries, e.2.publishing ≠ .event →
      s.tagOf e.2.room ∉ s.removedTags (.inbound a)
  | _ => True

instance (s : RoomWatch τ) (a : ChatAction τ) : Decidable (s.Settled a) :=
  match a with
  | .frame _ _ _ => inferInstanceAs (Decidable (_ → _))
  | .inbound _ => inferInstanceAs (Decidable (∀ e ∈ s.chat.handlers.entries, _))
  | .answered _ _ | .resume _ => inferInstanceAs (Decidable True)

instance (s : RoomWatch τ) : Decidable s.Silent := inferInstanceAs (Decidable (_ = _))

theorem eventCall_roomTag (cfg : ChatServiceConfig) (now : Nat) (aTag signer : JsString)
    (frame : SourceFrame) :
    (.gateway (ChatState.eventCall cfg now aTag signer frame) : ChatEffect τ).roomTag =
      some aTag := by
  cases frame with
  | chat msg emojis => rfl
  | join presence => rfl

theorem publishedTags_of_log {c c' : ChatState τ} {effects : List (ChatEffect τ)}
    (h : c'.log = c.log ++ effects) :
    publishedTags c c' = effects.filterMap ChatEffect.roomTag := by
  simp [publishedTags, h]

/-- A new handler publishes for its own room. -/
theorem bridge_spec (cfg : ChatServiceConfig) (c : ChatState τ) (room : RoomId)
    (frame : SourceFrame) (key : JsString) :
    (∃ signer p, (c.bridge cfg room frame key).handlers =
      c.handlers.set c.nextHandler ⟨room, frame, signer, p⟩) ∧
    ∀ tag ∈ publishedTags c (c.bridge cfg room frame key),
      tag = (c.inbound.rooms.room room).aTag := by
  have hcreated (b : Bool) : (if b then [] else [ChatEffect.bridged key] :
      List (ChatEffect τ)).filterMap ChatEffect.roomTag = [] := by cases b <;> rfl
  unfold ChatState.bridge
  dsimp only
  split
  · refine ⟨⟨_, _, rfl⟩, fun tag ht => ?_⟩
    rw [publishedTags_of_log (List.append_assoc _ _ _), List.filterMap_append, hcreated] at ht
    simpa [eventCall_roomTag] using ht
  · refine ⟨⟨_, _, rfl⟩, fun tag ht => ?_⟩
    rw [publishedTags_of_log (List.append_assoc _ _ _), List.filterMap_append, hcreated] at ht
    simp [ChatState.profileCall, ChatEffect.roomTag] at ht

theorem handleFrame_rooms (cfg : ChatServiceConfig) (c : ChatState τ) (room : RoomId)
    (key : JsString) (frame : SourceFrame) :
    (c.handleFrame cfg room key frame).inbound.rooms = c.inbound.rooms := by
  have hbridge (c : ChatState τ) (frame : SourceFrame) :
      (c.bridge cfg room frame key).inbound.rooms = c.inbound.rooms := by
    rw [ChatState.bridge_inbound, InboundState.bridgeChatter_rooms]
  cases frame with
  | join presence => exact hbridge c _
  | chat msg emojis =>
    show (c.handleSourceChat cfg room msg emojis key).inbound.rooms = _
    unfold ChatState.handleSourceChat
    split
    · rfl
    · dsimp only
      split
      · rfl
      · exact hbridge _ _

/-- A frame that does not pass starts nothing. -/
theorem handleFrame_spec (cfg : ChatServiceConfig) (s : RoomWatch τ) (room : RoomId)
    (key : JsString) (frame : SourceFrame) :
    let c' := s.chat.handleFrame cfg room key frame
    (c'.handlers = s.chat.handlers ∧ publishedTags s.chat c' = []) ∨
    (s.passes room frame = true ∧
      (∃ signer p, c'.handlers =
        s.chat.handlers.set s.chat.nextHandler ⟨room, frame, signer, p⟩) ∧
      ∀ tag ∈ publishedTags s.chat c', tag = s.tagOf room) := by
  cases frame with
  | join presence => exact .inr ⟨rfl, bridge_spec cfg s.chat room (.join presence) key⟩
  | chat msg emojis =>
    dsimp only
    show _ ∨ _
    rw [show s.chat.handleFrame cfg room key (.chat msg emojis) =
      s.chat.handleSourceChat cfg room msg emojis key from rfl]
    unfold ChatState.handleSourceChat
    split
    · exact .inl ⟨rfl, by simp [publishedTags]⟩
    · rename_i htext
      dsimp only
      split
      · exact .inl ⟨rfl, by simp [publishedTags]⟩
      · rename_i hseen
        have hpasses : s.passes room (.chat msg emojis) = true := by
          rw [RoomChat.check_fst] at hseen
          simpa [passes, htext] using hseen
        let c := ((s.chat.inbound.chat room).check s.chat.inbound.now
          (FingerprintCache.key msg.displayName msg.text)).2
        exact .inr ⟨hpasses, bridge_spec cfg
          { s.chat with inbound := s.chat.inbound.setChat room c } room (.chat msg emojis) key⟩

theorem answered_spec {cfg : ChatServiceConfig} {c c' : ChatState τ} {id : HandlerId}
    {h : SourceHandler} {ok : Bool} (hs : c.answered cfg id h ok = some c') :
    publishedTags c c' = [] ∧ (c'.handlers = c.handlers.delete id ∨
      h.publishing ≠ .event ∧ ∃ p, c'.handlers = c.handlers.set id { h with publishing := p }) := by
  have hnone : publishedTags c c = [] := by simp [publishedTags]
  unfold ChatState.answered at hs
  split at hs
  · rename_i hp
    split at hs
    · obtain rfl := Option.some.inj hs
      refine ⟨?_, .inr ⟨by simp [hp], .relayList, rfl⟩⟩
      rw [publishedTags_of_log rfl]
      rfl
    · obtain rfl := Option.some.inj hs
      exact ⟨hnone, .inl rfl⟩
  · rename_i hp
    split at hs
    · obtain rfl := Option.some.inj hs
      exact ⟨hnone, .inr ⟨by simp [hp], .identified, rfl⟩⟩
    · obtain rfl := Option.some.inj hs
      exact ⟨hnone, .inl rfl⟩
  · cases hs
  · split at hs
    · obtain rfl := Option.some.inj hs
      cases h.frame <;> exact ⟨hnone, .inl rfl⟩
    · obtain rfl := Option.some.inj hs
      exact ⟨hnone, .inl rfl⟩

/-- Nothing is about to be published for a closed room. -/
structure Hushed (s : RoomWatch τ) : Prop where
  rooms : ∀ id h, s.chat.handlers.get? id = some h → h.room < s.chat.inbound.rooms.nextRoom
  pending : ∀ id h, s.chat.handlers.get? id = some h → h.publishing ≠ .event →
    s.tagOf h.room ∉ s.closed
  silent : s.Silent

theorem hushed_init : (init τ).Hushed :=
  ⟨fun id h hh => by simp [init, ChatState.init] at hh,
    fun id h hh => by simp [init, ChatState.init] at hh, rfl⟩

section Step

variable {cfg : ChatServiceConfig} {s s' : RoomWatch τ} {c : ChatState τ} {a : ChatAction τ}

theorem notMem_closed_after {tag : JsString} (hold : tag ∉ s.closed)
    (hremoved : tag ∉ s.removedTags a) : tag ∉ (s.after a c).closed := by
  intro hmem
  rcases List.mem_append.mp (List.mem_filter.mp hmem).1 with h | h
  · exact hold h
  · exact hremoved h

theorem Hushed.loud_after (h : s.Hushed) (hp : ∀ tag ∈ publishedTags s.chat c, tag ∉ s.closed) :
    (s.after a c).Silent := by
  have hnone : (publishedTags s.chat c).filter (fun tag => decide (tag ∈ s.closed)) = [] := by
    rw [List.filter_eq_nil_iff]
    intro tag ht
    simpa using hp tag ht
  show s.loud ++ (publishedTags s.chat c).filter (fun tag => decide (tag ∈ s.closed)) = []
  rw [hnone, show s.loud = [] from h.silent]
  rfl

/-- A step of a handler, which leaves the rooms alone. -/
theorem Hushed.handlers (h : s.Hushed) (hrooms : c.inbound.rooms = s.chat.inbound.rooms)
    (hremoved : s.removedTags a = [])
    (hh : ∀ id x, c.handlers.get? id = some x → s.chat.handlers.get? id = some x ∨
      (x.room < s.chat.inbound.rooms.nextRoom ∧
        (x.publishing ≠ .event → s.tagOf x.room ∉ s.closed)))
    (hp : ∀ tag ∈ publishedTags s.chat c, tag ∉ s.closed) : (s.after a c).Hushed := by
  have hroom : (s.after a c).chat.inbound.rooms = s.chat.inbound.rooms := hrooms
  have htag (room : RoomId) : (s.after a c).tagOf room = s.tagOf room := by
    rw [tagOf, hroom]
    rfl
  refine ⟨fun id x hx => ?_, fun id x hx hpub => ?_, h.loud_after hp⟩
  · rw [hroom]
    exact (hh id x hx).elim (h.rooms id x) And.left
  · rw [htag]
    apply notMem_closed_after
    · exact (hh id x hx).elim (fun hold => h.pending id x hold hpub) fun hnew => hnew.2 hpub
    · simp [hremoved]

theorem Hushed.frame (h : s.Hushed) {room : RoomId} {frame : SourceFrame} {key : JsString}
    (hg : s.Settled (.frame room frame key)) (hroom : room < s.chat.inbound.rooms.nextRoom) :
    (s.after (.frame room frame key) (s.chat.handleFrame cfg room key frame)).Hushed := by
  have hrooms := handleFrame_rooms cfg s.chat room key frame
  rcases handleFrame_spec cfg s room key frame with ⟨hh, hp⟩ | ⟨hpasses, ⟨signer, p, hh⟩, hp⟩
  · apply h.handlers hrooms rfl
    · exact fun id x hx => .inl (hh ▸ hx)
    · simp [hp]
  · have hopen : s.tagOf room ∉ s.closed := hg hpasses
    apply h.handlers hrooms rfl
    · intro id x hx
      rw [hh, OrderedMap.get?_set] at hx
      split at hx
      · obtain rfl := Option.some.inj hx
        exact .inr ⟨hroom, fun _ => hopen⟩
      · exact .inl hx
    · intro tag ht
      rwa [hp tag ht]

theorem Hushed.answered (h : s.Hushed) {id : HandlerId} {x : SourceHandler} {ok : Bool}
    (hx : s.chat.handlers.get? id = some x) (hs : s.chat.answered cfg id x ok = some c) :
    (s.after (.answered id ok) c).Hushed := by
  obtain ⟨hp, hh⟩ := answered_spec hs
  have hrooms : c.inbound.rooms = s.chat.inbound.rooms := by
    rw [ChatState.answered_inbound hs]
  apply h.handlers hrooms rfl
  · intro id' y hy
    rcases hh with hdel | ⟨hpub, p, hset⟩
    · rw [hdel, OrderedMap.get?_delete] at hy
      split at hy
      · cases hy
      · exact .inl hy
    · rw [hset, OrderedMap.get?_set] at hy
      split at hy
      · obtain rfl := Option.some.inj hy
        exact .inr ⟨h.rooms id x hx, fun _ => h.pending id x hx hpub⟩
      · exact .inl hy
  · simp [hp]

theorem Hushed.resume (h : s.Hushed) {id : HandlerId} {x : SourceHandler}
    (hx : s.chat.handlers.get? id = some x) (hpub : x.publishing = .identified) :
    (s.after (.resume id) (s.chat.publishEvent cfg id x)).Hushed := by
  have hopen : s.tagOf x.room ∉ s.closed := h.pending id x hx (by simp [hpub])
  refine h.handlers (c := s.chat.publishEvent cfg id x) rfl rfl ?_ ?_
  · intro id' y hy
    have hset : (s.chat.handlers.set id { x with publishing := .event }).get? id' = some y := hy
    rw [OrderedMap.get?_set] at hset
    split at hset
    · obtain rfl := Option.some.inj hset
      exact .inr ⟨h.rooms id x hx, fun hne => absurd rfl hne⟩
    · exact .inl hset
  · intro tag ht
    rw [ChatState.publishEvent, publishedTags_of_log rfl] at ht
    simp only [List.filterMap_cons, eventCall_roomTag, List.filterMap_nil,
      List.mem_singleton] at ht
    rwa [ht]

theorem Hushed.inbound (h : s.Hushed) {b : InboundAction τ}
    {r : InboundState × List (ChatCall τ)} (hg : s.Settled (.inbound b))
    (hr : s.chat.inbound.step cfg.toInboundConfig b = some r) :
    (s.after (.inbound b)
      ({ s.chat with inbound := r.1 }.emit (r.2.map ChatEffect.adapter))).Hushed := by
  have hrooms : s.chat.inbound.rooms.Extends r.1.rooms := InboundState.step_rooms hr
  have htag (room : RoomId) (hroom : room < s.chat.inbound.rooms.nextRoom) :
      (r.1.rooms.room room).aTag = s.tagOf room := hrooms.tags room hroom
  refine ⟨fun id x hx => ?_, fun id x hx hpub => ?_, h.loud_after ?_⟩
  · exact Nat.lt_of_lt_of_le (h.rooms id x hx) hrooms.rooms
  · show (r.1.rooms.room x.room).aTag ∉ _
    rw [htag x.room (h.rooms id x hx)]
    apply notMem_closed_after
    · exact h.pending id x hx hpub
    · exact hg (id, x) ((OrderedMap.get?_eq_some_iff _ _ _).mp hx) hpub
  · intro tag ht
    rw [publishedTags_of_log rfl] at ht
    obtain ⟨effect, he, htag⟩ := List.mem_filterMap.mp ht
    obtain ⟨call, -, rfl⟩ := List.mem_map.mp he
    cases htag

theorem step_hushed (h : s.Hushed) (hg : s.Settled a) (hs : step cfg s a = some s') :
    s'.Hushed := by
  obtain ⟨c, hc, rfl⟩ := Option.map_eq_some_iff.mp hs
  cases a with
  | inbound b =>
    simp only [ChatState.next] at hc
    split at hc
    · cases hc
    · obtain ⟨r, hr, rfl⟩ := Option.map_eq_some_iff.mp hc
      exact h.inbound hg hr
  | frame room frame key =>
    simp only [ChatState.next] at hc
    split at hc
    · rename_i hroom
      obtain rfl := Option.some.inj hc
      exact h.frame hg hroom
    · cases hc
  | answered id ok =>
    obtain ⟨x, hx, hc⟩ := Option.bind_eq_some_iff.mp hc
    exact h.answered hx hc
  | resume id =>
    simp only [ChatState.next] at hc
    split at hc
    · rename_i x hx
      split at hc
      · rename_i hpub
        obtain rfl := Option.some.inj hc
        exact h.resume hx hpub
      · cases hc
    · cases hc

end Step

/-- Where no frame comes late and no handler is caught with its event unpublished, nothing is
published for a room from its removal until it is opened again. -/
theorem settled_silent (cfg : ChatServiceConfig) {as : List (ChatAction τ)} {t : RoomWatch τ}
    (hg : Guarded (step cfg) Settled (init τ) as) (hr : run (step cfg) (init τ) as = some t) :
    t.Silent :=
  (run_invariant (fun _ _ _ h hg hs => step_hushed h hg hs) hushed_init hg hr).silent

/-- The demo room is removed. -/
def demoRemoved : List (ChatAction Unit) :=
  [.inbound (.rooms .refreshRooms), .inbound (.rooms (.rows 1 (some [])))]

theorem settled_silent_idle :
    ∃ t, run (step ChatState.demoService) (init Unit) (ChatState.hello ++
        [.answered 0 true, .answered 0 true, .resume 0] ++ demoRemoved) = some t ∧
      t.closed = [js "30311:b:oc"] ∧ t.Silent := by
  have hrun : (run (step ChatState.demoService) (init Unit) (ChatState.hello ++
      [.answered 0 true, .answered 0 true, .resume 0] ++ demoRemoved)).map
        (fun t => t.closed) = some [js "30311:b:oc"] := by decide +kernel
  obtain ⟨t, ht, hclosed⟩ := Option.map_eq_some_iff.mp hrun
  have hg : Guarded (step ChatState.demoService) Settled (init Unit) (ChatState.hello ++
      [.answered 0 true, .answered 0 true, .resume 0] ++ demoRemoved) := by decide +kernel
  exact ⟨t, ht, hclosed, settled_silent ChatState.demoService hg ht⟩

/-- The room is removed while the chatter's profile is being published. -/
theorem silent_fails_in_flight :
    ∃ t, run (step ChatState.demoService) (init Unit) (ChatState.hello ++ demoRemoved ++
        [.answered 0 true, .answered 0 true, .resume 0]) = some t ∧ ¬t.Silent := by
  have hrun : (run (step ChatState.demoService) (init Unit) (ChatState.hello ++ demoRemoved ++
      [.answered 0 true, .answered 0 true, .resume 0])).map (fun t => t.loud) =
        some [js "30311:b:oc"] := by decide +kernel
  obtain ⟨t, ht, hloud⟩ := Option.map_eq_some_iff.mp hrun
  refine ⟨t, ht, fun h => ?_⟩
  have hnone : t.loud = [] := h
  rw [hnone] at hloud
  cases hloud

end RoomWatch

end LivelierBridge.Chat
