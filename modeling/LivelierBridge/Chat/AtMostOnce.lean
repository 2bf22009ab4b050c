import LivelierBridge.Chat.Inbound

namespace LivelierBridge.Chat

open Framework Js Nostr

namespace RoomChat

def SamePrints (c c' : RoomChat) : Prop :=
  c'.fingerprints = c.fingerprints ∧ c'.added = c.added

/-- At most one fingerprint check separates the two. -/
def Checked (now : Nat) (c c' : RoomChat) : Prop :=
  SamePrints c c' ∨ ∃ fp, SamePrints (c.check now fp).2 c'

/-- The fingerprint added as number `before` at time `t` is still recognised, unless it expired
or too many were added since. -/
def Tracks (c : RoomChat) (now : Nat) (fp : JsString) (t before : Nat) : Prop :=
  now ≤ t + DEFAULT_TTL_MS → c.added ≤ before + MAX_ENTRIES →
    c.fingerprints.Holds fp t (c.added - (before + 1))

theorem check_seen {c : RoomChat} {now : Nat} {fp : JsString}
    (h : (c.fingerprints.has now fp).1 = true) :
    c.check now fp = (true, { c with fingerprints := (c.fingerprints.has now fp).2 }) := by
  simp [check, h]

theorem check_fresh {c : RoomChat} {now : Nat} {fp : JsString}
    (h : (c.fingerprints.has now fp).1 = false) :
    c.check now fp = (false, { c with
      fingerprints := (c.fingerprints.has now fp).2.add now fp, added := c.added + 1 }) := by
  simp [check, h]

theorem check_ttlMs (c : RoomChat) (now : Nat) (fp : JsString) :
    (c.check now fp).2.fingerprints.ttlMs = c.fingerprints.ttlMs := by
  cases h : (c.fingerprints.has now fp).1 with
  | true => rw [check_seen h]; exact FingerprintCache.has_ttlMs _ _ _
  | false => rw [check_fresh h]; exact FingerprintCache.has_ttlMs _ _ _

theorem check_added (c : RoomChat) (now : Nat) (fp : JsString) :
    c.added ≤ (c.check now fp).2.added := by
  cases h : (c.fingerprints.has now fp).1 with
  | true => simp [check_seen h]
  | false => simp [check_fresh h]

theorem check_fst (c : RoomChat) (now : Nat) (fp : JsString) :
    (c.check now fp).1 = (c.fingerprints.has now fp).1 := by
  cases h : (c.fingerprints.has now fp).1 with
  | true => simp [check_seen h]
  | false => simp [check_fresh h]

theorem Tracks.later {c : RoomChat} {now now' t b : Nat} {fp : JsString}
    (h : c.Tracks now fp t b) (hn : now ≤ now') : c.Tracks now' fp t b :=
  fun ht ha => h (Nat.le_trans hn ht) ha

theorem Tracks.same {c c' : RoomChat} {now t b : Nat} {fp : JsString} (h : c.Tracks now fp t b)
    (hc : SamePrints c c') : c'.Tracks now fp t b := by
  intro ht ha
  rw [hc.2] at ha ⊢
  rw [hc.1]
  exact h ht ha

/-- A tracked fingerprint survives the check of any other. -/
theorem Tracks.check {c : RoomChat} {now t b : Nat} {fp : JsString} (h : c.Tracks now fp t b)
    (httl : c.fingerprints.ttlMs = DEFAULT_TTL_MS) (hb : b + 1 ≤ c.added) (fp' : JsString) :
    (c.check now fp').2.Tracks now fp t b := by
  intro ht ha
  have hold : c.fingerprints.Holds fp t (c.added - (b + 1)) :=
    h ht (Nat.le_trans (check_added c now fp') ha)
  have htime : now ≤ t + c.fingerprints.ttlMs := httl ▸ ht
  cases hs : (c.fingerprints.has now fp').1 with
  | true =>
    rw [check_seen hs]
    exact hold.afterHas htime fp'
  | false =>
    rw [check_fresh hs] at ha ⊢
    have hne : fp ≠ fp' := by
      rintro rfl
      simp [hold.has htime] at hs
    have hcount : c.added + 1 - (b + 1) = c.added - (b + 1) + 1 := by omega
    have htime' : now ≤ t + (c.fingerprints.has now fp').2.ttlMs := by
      rw [FingerprintCache.has_ttlMs]
      exact htime
    rw [hcount]
    refine (hold.afterHas htime fp').add htime' hne ?_
    simp only [MAX_ENTRIES] at ha ⊢
    omega

theorem tracks_added {c : RoomChat} {now : Nat} {fp : JsString}
    (h : (c.check now fp).1 = false) : (c.check now fp).2.Tracks now fp now c.added := by
  intro _ _
  have hs : (c.fingerprints.has now fp).1 = false := check_fst c now fp ▸ h
  rw [check_fresh hs]
  simpa using FingerprintCache.holds_add_self _ now fp (FingerprintCache.get?_of_has_false hs)

/-- What is tracked is recognised. -/
theorem Tracks.seen {c : RoomChat} {now t b : Nat} {fp : JsString} (h : c.Tracks now fp t b)
    (httl : c.fingerprints.ttlMs = DEFAULT_TTL_MS) (ht : now ≤ t + DEFAULT_TTL_MS)
    (ha : c.added ≤ b + MAX_ENTRIES) : (c.check now fp).1 = true := by
  rw [check_fst, (h ht ha).has (httl ▸ ht)]

end RoomChat

namespace InboundState

/-- Two arrivals of the event are at most the TTL apart. -/
def CloseArrivals (s : InboundState) (e : Event) : Prop :=
  ∀ a ∈ s.arrivals, ∀ b ∈ s.arrivals, a.event = e → b.event = e → b.at' ≤ a.at' + DEFAULT_TTL_MS

/-- Between two checks of the event, its room added fewer than 500 other fingerprints. -/
def FewBetween (s : InboundState) (e : Event) : Prop :=
  ∀ l ∈ s.lookups, ∀ l' ∈ s.lookups, l.event = e → l'.event = e → l.room = l'.room →
    l'.before ≤ l.before + MAX_ENTRIES

def AtMostOnce (s : InboundState) (e : Event) : Prop :=
  s.CloseArrivals e → s.FewBetween e → s.sent.count e ≤ 1

/-- A later copy of the event is checked against the same `Room`, under the same display name,
and not so long after an arrival in time that the fingerprint expired in the meantime. -/
def RepeatableAt (s : InboundState) (e : Event) (room : RoomId) : Option (Event × Stage) → Prop
  | some (event, .resolved displayName) =>
    event = e → ∀ l ∈ s.lookups, l.event = e → l.fresh = true →
      l.room = room ∧ l.displayName = displayName ∧
        (s.CloseArrivals e → s.now ≤ l.at' + DEFAULT_TTL_MS)
  | _ => True

def Repeatable {τ : Type} (e : Event) (s : InboundState) : InboundAction τ → Prop
  | .check room => s.RepeatableAt e room (s.chat room).delivering
  | _ => True

instance (s : InboundState) (e : Event) : Decidable (s.CloseArrivals e) :=
  inferInstanceAs (Decidable (∀ a ∈ s.arrivals, ∀ b ∈ s.arrivals, _))

instance (s : InboundState) (e : Event) : Decidable (s.FewBetween e) :=
  inferInstanceAs (Decidable (∀ l ∈ s.lookups, ∀ l' ∈ s.lookups, _))

instance (s : InboundState) (e : Event) : Decidable (s.AtMostOnce e) :=
  inferInstanceAs (Decidable (_ → _ → _))

instance (s : InboundState) (e : Event) (room : RoomId) :
    (d : Option (Event × Stage)) → Decidable (s.RepeatableAt e room d)
  | some (_, .resolved _) => inferInstanceAs (Decidable (_ → ∀ l ∈ s.lookups, _))
  | none | some (_, .resolving) | some (_, .rendering _) | some (_, .sending) =>
    inferInstanceAs (Decidable True)

instance {τ : Type} (e : Event) (s : InboundState) (a : InboundAction τ) :
    Decidable (s.Repeatable e a) :=
  match a with
  | .check room => inferInstanceAs (Decidable (s.RepeatableAt e room (s.chat room).delivering))
  | .rooms _ | .tick _ | .nostrEvent _ _ | .deliver _ | .named _ _ | .rendered _ _ | .settled _
  | .sourceChat _ _ _ | .sourceJoin _ _ _ => inferInstanceAs (Decidable True)

/-- A step that checks no delivery and sends nothing. -/
structure Calm (s s' : InboundState) : Prop where
  prints : ∀ room, RoomChat.Checked s.now (s.chat room) (s'.chat room)
  rendering : ∀ room e name, (s'.chat room).delivering = some (e, .rendering name) →
    (s.chat room).delivering = some (e, .rendering name)
  lookups : s'.lookups = s.lookups
  sent : s'.sent = s.sent
  arrivals : ∀ a ∈ s.arrivals, a ∈ s'.arrivals
  now : s.now ≤ s'.now

theorem calm_of_chat {s s' : InboundState} (hc : s'.chat = s.chat)
    (hl : s'.lookups = s.lookups) (hs : s'.sent = s.sent)
    (ha : ∀ a ∈ s.arrivals, a ∈ s'.arrivals) (hn : s.now ≤ s'.now) : Calm s s' :=
  ⟨fun _ => .inl ⟨by rw [hc], by rw [hc]⟩, fun _ _ _ h => by rwa [hc] at h, hl, hs, ha, hn⟩

/-- Rewriting one room's chat half is calm when its fingerprints are at most checked and no
rendering starts. -/
theorem calm_setChat {s s' : InboundState} {room : RoomId} {c : RoomChat}
    (hc : s'.chat = Function.update s.chat room c)
    (hp : RoomChat.Checked s.now (s.chat room) c)
    (hr : ∀ e name, c.delivering = some (e, .rendering name) →
      (s.chat room).delivering = some (e, .rendering name))
    (hl : s'.lookups = s.lookups) (hs : s'.sent = s.sent)
    (ha : ∀ a ∈ s.arrivals, a ∈ s'.arrivals) (hn : s.now ≤ s'.now) : Calm s s' := by
  refine ⟨?_, ?_, hl, hs, ha, hn⟩
  · intro id
    by_cases h : id = room
    · subst h
      simpa [hc] using hp
    · rw [hc, Function.update_of_ne h]
      exact .inl ⟨rfl, rfl⟩
  · intro id e name hd
    by_cases h : id = room
    · subst h
      exact hr e name (by simpa [hc] using hd)
    · simpa [hc, Function.update_of_ne h] using hd

theorem calm_endLink (s : InboundState) (room : RoomId) : Calm s (s.endLink room) :=
  calm_setChat rfl (.inl ⟨rfl, rfl⟩) (by simp) rfl rfl (fun _ h => h) (Nat.le_refl _)

theorem bridgeChatter_eq (s : InboundState) (room : RoomId) (userId key : JsString) :
    ∃ c bridged, s.bridgeChatter room userId key = { s.setChat room c with
        bridgedPubkeys := bridged } ∧
      RoomChat.SamePrints (s.chat room) c ∧ c.delivering = (s.chat room).delivering := by
  unfold bridgeChatter chatterSigner
  cases (s.chat room).chatterSigners.get? userId with
  | some _ =>
    dsimp only
    split_ifs
    · exact ⟨s.chat room, s.bridgedPubkeys, by simp [setChat], ⟨rfl, rfl⟩, rfl⟩
    · exact ⟨_, s.bridgedPubkeys, rfl, ⟨rfl, rfl⟩, rfl⟩
  | none =>
    dsimp only
    split_ifs
    · exact ⟨_, _, rfl, ⟨rfl, rfl⟩, rfl⟩
    · exact ⟨_, _, by simp only [setChat, Function.update_idem]; rfl,
        ⟨by simp, by simp⟩, by simp⟩

theorem calm_bridgeChatter (s : InboundState) (room : RoomId) (userId key : JsString) :
    Calm s (s.bridgeChatter room userId key) := by
  obtain ⟨c, bridged, he, hp, hd⟩ := s.bridgeChatter_eq room userId key
  rw [he]
  exact calm_setChat rfl (.inl hp) (fun _ _ h => hd ▸ h) rfl rfl (fun _ h => h) (Nat.le_refl _)

theorem check_delivering (c : RoomChat) (now : Nat) (fp : JsString) :
    (c.check now fp).2.delivering = c.delivering := by
  unfold RoomChat.check
  dsimp only
  split_ifs <;> rfl

theorem calm_handleSourceChat (s : InboundState) (room : RoomId) (msg : SourceChatMessage)
    (key : JsString) : Calm s (s.handleSourceChat room msg key) := by
  unfold handleSourceChat
  split_ifs with ht
  · exact calm_of_chat rfl rfl rfl (fun _ h => h) (Nat.le_refl _)
  · dsimp only
    split_ifs with hseen
    · exact calm_setChat rfl (.inr ⟨_, rfl, rfl⟩) (by simp [check_delivering]) rfl rfl
        (fun _ h => h) (Nat.le_refl _)
    · generalize hc : ((s.chat room).check s.now _).2 = c
      obtain ⟨c', bridged, he, hp, hd⟩ := (s.setChat room c).bridgeChatter_eq room msg.userId key
      rw [he]
      have hchat : ((s.setChat room c).setChat room c').chat =
          Function.update s.chat room c' := by simp [setChat]
      refine calm_setChat hchat
        (.inr ⟨FingerprintCache.key msg.displayName msg.text, ?_⟩) ?_ rfl rfl
        (fun _ h => h) (Nat.le_refl _)
      · rw [hc]
        simpa [setChat] using hp
      · intro e name h
        rw [hd] at h
        simpa [setChat, ← hc, check_delivering] using h

theorem calm_handleNostrEvent (cfg : InboundConfig) (s : InboundState) (event : Event) :
    Calm s (s.handleNostrEvent cfg event) := by
  have still : Calm s s := calm_of_chat rfl rfl rfl (fun _ h => h) (Nat.le_refl _)
  unfold handleNostrEvent
  split_ifs
  iterate 3 exact still
  cases s.roomFor event with
  | none => exact still
  | some room =>
    exact calm_setChat rfl (.inl ⟨rfl, rfl⟩) (fun _ _ h => h) rfl rfl
      (fun _ h => List.mem_append_left _ h) (Nat.le_refl _)

theorem calm_deliver (s : InboundState) (room : RoomId) (event : Event) (rest : List Event) :
    Calm s (s.deliver room event rest) := by
  refine calm_setChat rfl (.inl ⟨rfl, rfl⟩) ?_ rfl rfl (fun _ h => h) (Nat.le_refl _)
  intro e name h
  dsimp only at h
  split at h
  · split_ifs at h <;> simp at h
  · simp at h

theorem calm_named (s : InboundState) (room : RoomId) (event : Event)
    (name : Option JsString) : Calm s (s.named room event name) := by
  rcases name with _ | _ | ⟨u, us⟩ <;>
    exact calm_setChat rfl (.inl ⟨rfl, rfl⟩) (by simp) rfl rfl (fun _ h => h) (Nat.le_refl _)

/-- What a step can do, as far as deliveries are concerned. -/
theorem next_cases {τ : Type} {cfg : InboundConfig} {s s' : InboundState} {a : InboundAction τ}
    (h : next cfg s a = some s') :
    Calm s s' ∨
    (∃ room event displayName, a = .check room ∧
      (s.chat room).delivering = some (event, .resolved displayName) ∧
      s' = s.check room event displayName) ∨
    (∃ room event displayName,
      (s.chat room).delivering = some (event, .rendering displayName) ∧
      s' = { s.setStage room event .sending with sent := event :: s.sent }) := by
  obtain ⟨r, hstep, rfl⟩ := Option.map_eq_some_iff.mp h
  apply step_elim (motive := fun a s' _ => Calm s s' ∨
    (∃ room event displayName, a = .check room ∧
      (s.chat room).delivering = some (event, .resolved displayName) ∧
      s' = s.check room event displayName) ∨
    (∃ room event displayName,
      (s.chat room).delivering = some (event, .rendering displayName) ∧
      s' = { s.setStage room event .sending with sent := event :: s.sent })) hstep
  case rooms =>
    intro b r hr
    exact .inl (calm_of_chat rfl rfl rfl (fun _ h => h) (Nat.le_refl _))
  case tick =>
    intro ms
    exact .inl (calm_of_chat rfl rfl rfl (fun _ h => h) (Nat.le_add_right _ _))
  case nostrEvent =>
    intro via event
    obtain ⟨hp, hr, hl, hs, ha, hn⟩ := calm_handleNostrEvent cfg (s.seen via) event
    cases via <;> exact .inl ⟨hp, hr, hl, hs, ha, hn⟩
  case deliver =>
    intro room event rest _
    exact .inl (calm_deliver s room event rest)
  case unnamed =>
    intro room
    exact .inl (calm_endLink s room)
  case named =>
    intro room event name _
    exact .inl (calm_named s room event name)
  case check =>
    intro room event displayName hd
    exact .inr (.inl ⟨room, event, displayName, rfl, hd, rfl⟩)
  case rendered =>
    intro room event displayName content hd
    unfold sendMessage
    dsimp only
    split
    · exact .inl (calm_endLink s room)
    · exact .inr (.inr ⟨room, event, displayName, hd, rfl⟩)
  case settled =>
    intro room
    exact .inl (calm_endLink s room)
  case sourceChat =>
    intro room msg key _
    exact .inl (calm_handleSourceChat s room msg key)
  case sourceJoin =>
    intro room presence key _
    exact .inl (calm_bridgeChatter s room presence.userId key)

/-- Every fingerprint a delivery added is tracked in its room. -/
structure Tracked (s : InboundState) : Prop where
  ttlMs : ∀ room, (s.chat room).fingerprints.ttlMs = DEFAULT_TTL_MS
  past : ∀ l ∈ s.lookups, l.at' ≤ s.now
  counted : ∀ l ∈ s.lookups, l.fresh = true → l.before + 1 ≤ (s.chat l.room).added
  tracks : ∀ l ∈ s.lookups, l.fresh = true →
    (s.chat l.room).Tracks s.now (FingerprintCache.key l.displayName l.event.content) l.at' l.before

theorem init_tracked : init.Tracked :=
  ⟨fun _ => rfl, by simp [init], by simp [init], by simp [init]⟩

/-- Checks keep what is tracked, whatever fingerprint they are about. -/
theorem Tracked.checked {s s' : InboundState} (h : s.Tracked)
    (hp : ∀ room, RoomChat.Checked s.now (s.chat room) (s'.chat room)) (hn : s.now ≤ s'.now) :
    (∀ room, (s'.chat room).fingerprints.ttlMs = DEFAULT_TTL_MS) ∧
    ∀ l ∈ s.lookups, l.at' ≤ s'.now ∧ (l.fresh = true → l.before + 1 ≤ (s'.chat l.room).added ∧
      (s'.chat l.room).Tracks s'.now (FingerprintCache.key l.displayName l.event.content)
        l.at' l.before) := by
  constructor
  · intro room
    rcases hp room with he | ⟨fp, he⟩
    · rw [he.1, h.ttlMs]
    · rw [he.1, RoomChat.check_ttlMs, h.ttlMs]
  · intro l hl
    refine ⟨Nat.le_trans (h.past l hl) hn, fun hf => ?_⟩
    have hb : l.before + 1 ≤ (s.chat l.room).added := h.counted l hl hf
    rcases hp l.room with he | ⟨fp, he⟩
    · exact ⟨he.2 ▸ hb, ((h.tracks l hl hf).same he).later hn⟩
    · have hadd := RoomChat.check_added (s.chat l.room) s.now fp
      exact ⟨he.2 ▸ Nat.le_trans hb hadd,
        (((h.tracks l hl hf).check (h.ttlMs _) hb fp).same he).later hn⟩

theorem check_checked (s : InboundState) (room : RoomId) (event : Event)
    (displayName : JsString) (id : RoomId) :
    RoomChat.Checked s.now (s.chat id) ((s.check room event displayName).chat id) := by
  by_cases h : id = room
  · subst h
    exact .inr ⟨FingerprintCache.key displayName event.content, by simp [check, setChat],
      by simp [check, setChat]⟩
  · exact .inl ⟨by simp [check, setChat, Function.update_of_ne h],
      by simp [check, setChat, Function.update_of_ne h]⟩

/-- The entry a delivery's check leaves in the log. -/
def lookupOf (s : InboundState) (room : RoomId) (event : Event) (displayName : JsString) :
    Lookup :=
  ⟨event, room, displayName, s.now, (s.chat room).added,
    !((s.chat room).check s.now (FingerprintCache.key displayName event.content)).1⟩

theorem check_lookups (s : InboundState) (room : RoomId) (event : Event)
    (displayName : JsString) : (s.check room event displayName).lookups =
      s.lookups ++ [s.lookupOf room event displayName] := rfl

theorem check_chat_self (s : InboundState) (room : RoomId) (event : Event)
    (displayName : JsString) :
    let c := (s.chat room).check s.now (FingerprintCache.key displayName event.content)
    (s.check room event displayName).chat room = { c.2 with
      delivering := if c.1 then none else some (event, .rendering displayName) } := by
  simp [check, setChat]

theorem next_tracked {τ : Type} {cfg : InboundConfig} {s s' : InboundState}
    {a : InboundAction τ} (hi : s.Tracked) (h : next cfg s a = some s') : s'.Tracked := by
  rcases next_cases h with hc | ⟨room, event, displayName, -, -, rfl⟩ |
    ⟨room, event, displayName, -, rfl⟩
  · obtain ⟨httl, hl⟩ := hi.checked hc.prints hc.now
    rw [← hc.lookups] at hl
    exact ⟨httl, fun l h => (hl l h).1, fun l h hf => ((hl l h).2 hf).1,
      fun l h hf => ((hl l h).2 hf).2⟩
  · obtain ⟨httl, hl⟩ := hi.checked (s.check_checked room event displayName) (Nat.le_refl _)
    have new : (s.lookupOf room event displayName).fresh = true →
        (s.chat room).added + 1 ≤ ((s.check room event displayName).chat room).added ∧
        ((s.check room event displayName).chat room).Tracks s.now
          (FingerprintCache.key displayName event.content) s.now (s.chat room).added := by
      intro hf
      have hseen : ((s.chat room).check s.now
          (FingerprintCache.key displayName event.content)).1 = false := by
        simpa [lookupOf] using hf
      rw [check_chat_self]
      constructor
      · simp [RoomChat.check_fresh (RoomChat.check_fst _ _ _ ▸ hseen)]
      · exact (RoomChat.tracks_added hseen).same ⟨rfl, rfl⟩
    refine ⟨httl, ?_, ?_, ?_⟩ <;> intro l hm <;> rw [check_lookups, List.mem_append] at hm <;>
      rcases hm with hm | hm
    · exact (hl l hm).1
    · obtain rfl := List.mem_singleton.mp hm
      exact Nat.le_refl _
    · exact fun hf => ((hl l hm).2 hf).1
    · obtain rfl := List.mem_singleton.mp hm
      exact fun hf => (new hf).1
    · exact fun hf => ((hl l hm).2 hf).2
    · obtain rfl := List.mem_singleton.mp hm
      exact fun hf => (new hf).2
  · have hp (id : RoomId) : RoomChat.Checked s.now (s.chat id)
        ((s.setStage room event .sending).chat id) := by
      by_cases he : id = room
      · subst he
        exact .inl ⟨by simp [setStage, setChat], by simp [setStage, setChat]⟩
      · exact .inl ⟨by simp [setStage, setChat, Function.update_of_ne he],
          by simp [setStage, setChat, Function.update_of_ne he]⟩
    obtain ⟨httl, hl⟩ := hi.checked hp (Nat.le_refl _)
    exact ⟨httl, fun l h => (hl l h).1, fun l h hf => ((hl l h).2 hf).1,
      fun l h hf => ((hl l h).2 hf).2⟩

/-- The event passed the fingerprint check here. -/
def Passed (s : InboundState) (e : Event) (l : Lookup) : Prop :=
  l ∈ s.lookups ∧ l.event = e ∧ l.fresh = true

/-- A copy of the event is on its way from the fingerprint check to the source. -/
def Rendering (s : InboundState) (e : Event) (room : RoomId) : Prop :=
  ∃ name, (s.chat room).delivering = some (e, .rendering name)

/-- The event passed the check in one room only, and is sent once for it. -/
structure Once (s : InboundState) (e : Event) : Prop where
  oneRoom : ∀ l l', s.Passed e l → s.Passed e l' → l.room = l'.room
  backed : ∀ room, s.Rendering e room → s.sent.count e = 0 ∧ ∃ l, s.Passed e l ∧ l.room = room
  silent : (∀ l, ¬s.Passed e l) → s.sent.count e = 0
  atMost : s.sent.count e ≤ 1

theorem init_once (e : Event) : init.Once e := by
  constructor <;> simp [init, Passed, Rendering, RoomChat.new]

theorem Calm.once {s s' : InboundState} {e : Event} (hc : Calm s s') (h : s.Once e) :
    s'.Once e := by
  have hp (l : Lookup) : s'.Passed e l ↔ s.Passed e l := by rw [Passed, Passed, hc.lookups]
  constructor
  · intro l l' hl hl'
    exact h.oneRoom l l' ((hp l).mp hl) ((hp l').mp hl')
  · rintro room ⟨name, hr⟩
    obtain ⟨h0, l, hl, hroom⟩ := h.backed room ⟨name, hc.rendering room e name hr⟩
    exact ⟨hc.sent ▸ h0, l, (hp l).mpr hl, hroom⟩
  · intro hn
    rw [hc.sent]
    exact h.silent fun l hl => hn l ((hp l).mpr hl)
  · rw [hc.sent]
    exact h.atMost

/-- A delivery of another event checks nothing about this one. -/
theorem Once.checkOther {s : InboundState} {e event : Event} (h : s.Once e) (room : RoomId)
    (displayName : JsString) (hne : event ≠ e) : (s.check room event displayName).Once e := by
  have hp (l : Lookup) : (s.check room event displayName).Passed e l ↔ s.Passed e l := by
    simp only [Passed, check_lookups, List.mem_append, List.mem_singleton]
    constructor
    · rintro ⟨hm | rfl, he, hf⟩
      · exact ⟨hm, he, hf⟩
      · exact absurd he hne
    · rintro ⟨hm, he, hf⟩
      exact ⟨.inl hm, he, hf⟩
  have hr (id : RoomId) (hid : (s.check room event displayName).Rendering e id) :
      s.Rendering e id := by
    obtain ⟨name, hd⟩ := hid
    by_cases heq : id = room
    · subst heq
      rw [check_chat_self] at hd
      dsimp only at hd
      split_ifs at hd
      simp at hd
      exact absurd hd.1 hne
    · exact ⟨name, by simpa [check, setChat, Function.update_of_ne heq] using hd⟩
  constructor
  · exact fun l l' hl hl' => h.oneRoom l l' ((hp l).mp hl) ((hp l').mp hl')
  · intro id hid
    obtain ⟨h0, l, hl, hroom⟩ := h.backed id (hr id hid)
    exact ⟨h0, l, (hp l).mpr hl, hroom⟩
  · exact fun hn => h.silent fun l hl => hn l ((hp l).mpr hl)
  · exact h.atMost

/-- A copy that passed before is recognised; the first one is the only one that passes. -/
theorem Once.checkSame {s : InboundState} {e : Event} (h : s.Once e) (ht : s.Tracked)
    (room : RoomId) (displayName : JsString)
    (hg : ∀ l, s.Passed e l → l.room = room ∧ l.displayName = displayName ∧
      s.now ≤ l.at' + DEFAULT_TTL_MS)
    (hfew : (s.check room e displayName).FewBetween e) :
    (s.check room e displayName).Once e := by
  have other {id : RoomId} (hid : id ≠ room) :
      (s.check room e displayName).chat id = s.chat id := by
    simp [check, setChat, Function.update_of_ne hid]
  have mem : s.lookupOf room e displayName ∈ (s.check room e displayName).lookups := by
    simp [check_lookups]
  cases hseen : ((s.chat room).check s.now (FingerprintCache.key displayName e.content)).1 with
  | true =>
    have hp (l : Lookup) : (s.check room e displayName).Passed e l ↔ s.Passed e l := by
      simp only [Passed, check_lookups, List.mem_append, List.mem_singleton]
      constructor
      · rintro ⟨hm | rfl, he, hf⟩
        · exact ⟨hm, he, hf⟩
        · simp [lookupOf, hseen] at hf
      · rintro ⟨hm, he, hf⟩
        exact ⟨.inl hm, he, hf⟩
    constructor
    · exact fun l l' hl hl' => h.oneRoom l l' ((hp l).mp hl) ((hp l').mp hl')
    · rintro id ⟨name, hd⟩
      by_cases hid : id = room
      · subst hid
        simp [check_chat_self, hseen] at hd
      · obtain ⟨h0, l, hl, hroom⟩ := h.backed id ⟨name, by rwa [other hid] at hd⟩
        exact ⟨h0, l, (hp l).mpr hl, hroom⟩
    · exact fun hn => h.silent fun l hl => hn l ((hp l).mpr hl)
    · exact h.atMost
  | false =>
    have none_before (l : Lookup) : ¬s.Passed e l := by
      intro hl
      obtain ⟨hroom, hname, htime⟩ := hg l hl
      have hb : (s.lookupOf room e displayName).before ≤ l.before + MAX_ENTRIES :=
        hfew l (by simp [check_lookups, hl.1]) _ mem hl.2.1 rfl hroom
      have htr := ht.tracks l hl.1 hl.2.2
      rw [hroom, hname, hl.2.1] at htr
      simp [htr.seen (ht.ttlMs room) htime hb] at hseen
    have hp (l : Lookup) : (s.check room e displayName).Passed e l ↔
        l = s.lookupOf room e displayName := by
      simp only [Passed, check_lookups, List.mem_append, List.mem_singleton]
      constructor
      · rintro ⟨hm | hm, he, hf⟩
        · exact absurd ⟨hm, he, hf⟩ (none_before l)
        · exact hm
      · rintro rfl
        exact ⟨.inr rfl, rfl, by simp [lookupOf, hseen]⟩
    have h0 : s.sent.count e = 0 := h.silent none_before
    constructor
    · intro l l' hl hl'
      rw [(hp l).mp hl, (hp l').mp hl']
    · rintro id ⟨name, hd⟩
      by_cases hid : id = room
      · exact ⟨h0, _, (hp _).mpr rfl, hid.symm⟩
      · obtain ⟨-, l, hl, -⟩ := h.backed id ⟨name, by rwa [other hid] at hd⟩
        exact absurd hl (none_before l)
    · exact fun _ => h0
    · exact h0 ▸ Nat.zero_le 1

theorem Once.send {s : InboundState} {e : Event} (h : s.Once e) {room : RoomId} {event : Event}
    {displayName : JsString}
    (hd : (s.chat room).delivering = some (event, .rendering displayName)) :
    Once { s.setStage room event .sending with sent := event :: s.sent } e := by
  have other {id : RoomId}
      (hr : Rendering { s.setStage room event .sending with sent := event :: s.sent } e id) :
      id ≠ room ∧ s.Rendering e id := by
    obtain ⟨name, hr⟩ := hr
    by_cases hid : id = room
    · subst hid
      simp [setStage, setChat] at hr
    · exact ⟨hid, name, by simpa [setStage, setChat, Function.update_of_ne hid] using hr⟩
  by_cases he : event = e
  · subst he
    obtain ⟨h0, l, hl, hroom⟩ := h.backed room ⟨displayName, hd⟩
    constructor
    · exact h.oneRoom
    · intro id hr
      obtain ⟨hid, hr⟩ := other hr
      obtain ⟨-, l', hl', hroom'⟩ := h.backed id hr
      exact absurd (hroom'.symm.trans ((h.oneRoom l' l hl' hl).trans hroom)) hid
    · exact fun hn => absurd hl (hn l)
    · simp [h0]
  · have hcount : (event :: s.sent).count e = s.sent.count e := List.count_cons_of_ne he
    constructor
    · exact h.oneRoom
    · intro id hr
      rw [hcount]
      exact h.backed id (other hr).2
    · intro hn
      rw [hcount]
      exact h.silent hn
    · rw [hcount]
      exact h.atMost

theorem next_arrivals {τ : Type} {cfg : InboundConfig} {s s' : InboundState}
    {a : InboundAction τ} (h : next cfg s a = some s') : ∀ x ∈ s.arrivals, x ∈ s'.arrivals := by
  rcases next_cases h with hc | ⟨_, _, _, -, -, rfl⟩ | ⟨_, _, _, -, rfl⟩
  · exact hc.arrivals
  · exact fun _ hx => hx
  · exact fun _ hx => hx

theorem next_lookups {τ : Type} {cfg : InboundConfig} {s s' : InboundState}
    {a : InboundAction τ} (h : next cfg s a = some s') : ∀ x ∈ s.lookups, x ∈ s'.lookups := by
  rcases next_cases h with hc | ⟨_, _, _, -, -, rfl⟩ | ⟨_, _, _, -, rfl⟩
  · exact fun _ hx => hc.lookups ▸ hx
  · exact fun _ hx => List.mem_append_left _ hx
  · exact fun _ hx => hx

theorem next_once {τ : Type} {cfg : InboundConfig} {e : Event} {s s' : InboundState}
    {a : InboundAction τ} (ht : s.Tracked) (ho : s.CloseArrivals e → s.FewBetween e → s.Once e)
    (hg : s.Repeatable e a) (h : next cfg s a = some s') :
    s'.CloseArrivals e → s'.FewBetween e → s'.Once e := by
  intro hclose hfew
  have hclose' : s.CloseArrivals e := fun x hx y hy =>
    hclose x (next_arrivals h x hx) y (next_arrivals h y hy)
  have hfew' : s.FewBetween e := fun x hx y hy =>
    hfew x (next_lookups h x hx) y (next_lookups h y hy)
  have hs : s.Once e := ho hclose' hfew'
  rcases next_cases h with hc | ⟨room, event, displayName, rfl, hd, rfl⟩ |
    ⟨room, event, displayName, hd, rfl⟩
  · exact hc.once hs
  · by_cases he : event = e
    · subst he
      have hrep : s.RepeatableAt event room (some (event, .resolved displayName)) := hd ▸ hg
      refine hs.checkSame ht room displayName ?_ hfew
      rintro l ⟨hm, hl, hf⟩
      obtain ⟨hroom, hname, htime⟩ := hrep rfl l hm hl hf
      exact ⟨hroom, hname, htime hclose'⟩
    · exact hs.checkOther room displayName he
  · exact hs.send hd

/-- An event whose later copies are all checked under the same name, in the same room and
before its fingerprint expires, reaches the source at most once. -/
theorem repeatable_atMostOnce {τ : Type} (cfg : InboundConfig) (e : Event)
    {as : List (InboundAction τ)} {t : InboundState}
    (hg : Guarded (next cfg) (Repeatable e) init as) (hr : run (next cfg) init as = some t) :
    t.AtMostOnce e := by
  let inv (s : InboundState) := s.Tracked ∧ (s.CloseArrivals e → s.FewBetween e → s.Once e)
  have hinv : inv t := run_invariant
    (fun s a s' hi hg h => ⟨next_tracked hi.1 h, next_once hi.1 hi.2 hg h⟩)
    ⟨init_tracked, fun _ _ => init_once e⟩ hg hr
  exact fun hclose hfew => (hinv.2 hclose hfew).atMost

def demoConfig : InboundConfig := ⟨⟨js "b", false, false⟩, js "livelier"⟩

def demoEvent : Event :=
  ⟨js "01", js "a1", 0, 1311, [[js "a", js "30311:b:oc"]], js "hi", []⟩

/-- Both firehoses deliver the event; the name lookups of the two copies answer as given. -/
def twoCopies (name name' : Option JsString) : List (InboundAction Unit) :=
  [.rooms .refreshRooms, .rooms (.rows 0 (some [⟨js "u", js "oc"⟩])),
    .nostrEvent .local demoEvent, .nostrEvent .network demoEvent,
    .deliver 0, .named 0 (some name), .check 0, .rendered 0 (), .settled 0,
    .deliver 0, .named 0 (some name'), .check 0, .rendered 0 (), .settled 0]

theorem repeatable_atMostOnce_guest :
    ∃ t, run (next demoConfig) init ((twoCopies none none).take 12) = some t ∧
      t.sent.count demoEvent = 1 ∧ t.AtMostOnce demoEvent :=
  have hg : Guarded (next demoConfig) (Repeatable demoEvent) init ((twoCopies none none).take 12) :=
    by decide
  ⟨_, rfl, by decide, repeatable_atMostOnce demoConfig demoEvent hg rfl⟩

/-- The first lookup misses, the second finds the name: the fingerprints differ. -/
theorem atMostOnce_fails_guest_then_name :
    ∃ t, run (next demoConfig) init (twoCopies none (some (js "Alice"))) = some t ∧
      ¬t.AtMostOnce demoEvent :=
  ⟨_, rfl, by decide⟩

end InboundState

end LivelierBridge.Chat
