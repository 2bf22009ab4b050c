import LivelierBridge.Framework.Run
import LivelierBridge.Chat.AtMostOnce

namespace LivelierBridge.Chat

open Framework Js Nostr

namespace FingerprintCache

/-- Two pairs share a fingerprint exactly when they are equal, or one display name goes on with a
colon where the other's text begins. -/
theorem key_eq_key_iff {name content name' content' : JsString} :
    key name content = key name' content' ↔ (name = name' ∧ content = content') ∨
      (∃ mid, name' = name ++ js ":" ++ mid ∧ content = mid ++ js ":" ++ content') ∨
      ∃ mid, name = name' ++ js ":" ++ mid ∧ content' = mid ++ js ":" ++ content := by
  have hcolon : js ":" = [58] := rfl
  have longer {n c n' c' : JsString} (h : n ++ 58 :: c = n' ++ 58 :: c') {as : JsString}
      (hn : n' = n ++ as) : (n = n' ∧ c = c') ∨
        ∃ mid, n' = n ++ [58] ++ mid ∧ c = mid ++ [58] ++ c' := by
    subst hn
    rw [List.append_assoc] at h
    have htail : 58 :: c = as ++ 58 :: c' := List.append_cancel_left h
    cases as with
    | nil =>
      obtain ⟨-, rfl⟩ := List.cons.inj htail
      exact .inl ⟨by simp, rfl⟩
    | cons u mid =>
      obtain ⟨rfl, rfl⟩ := List.cons.inj htail
      exact .inr ⟨mid, by simp, by simp⟩
  simp only [key, hcolon]
  constructor
  · intro h
    have happ : name ++ 58 :: content = name' ++ 58 :: content' := by simpa using h
    rcases List.append_eq_append_iff.mp happ with ⟨as, hn, -⟩ | ⟨as, hn, -⟩
    · rcases longer happ hn with hsame | hmid
      · exact .inl hsame
      · exact .inr (.inl hmid)
    · rcases longer happ.symm hn with ⟨hn, hc⟩ | hmid
      · exact .inl ⟨hn.symm, hc.symm⟩
      · exact .inr (.inr hmid)
  · rintro (⟨rfl, rfl⟩ | ⟨mid, rfl, rfl⟩ | ⟨mid, rfl, rfl⟩)
    · rfl
    · simp
    · simp

theorem has_entries {c : FingerprintCache} {now : Nat} {k : JsString} {e : JsString × Nat}
    (he : e ∈ (c.has now k).2.entries.entries) : e ∈ c.entries.entries := by
  unfold has at he
  split at he
  · exact he
  · split_ifs at he
    · exact (List.mem_filter.mp he).1
    · exact he

theorem prune_entries {c : FingerprintCache} {now : Nat} {e : JsString × Nat}
    (he : e ∈ (c.prune now).entries.entries) : e ∈ c.entries.entries :=
  (List.mem_filter.mp ((OrderedMap.dropOldest_suffix _ _).subset he)).1

theorem add_entries {c : FingerprintCache} {now : Nat} {k : JsString} {e : JsString × Nat}
    (he : e ∈ (c.add now k).entries.entries) : e = (k, now) ∨ e ∈ c.entries.entries := by
  obtain ⟨k', t⟩ := e
  have hget : (c.add now k).entries.get? k' = some t := (OrderedMap.get?_eq_some_iff _ _ _).mpr he
  simp only [add, OrderedMap.get?_set] at hget
  split_ifs at hget with hk
  · obtain rfl := Option.some.inj hget
    exact .inl (by rw [hk])
  · exact .inr (prune_entries ((OrderedMap.get?_eq_some_iff _ _ _).mp hget))

/-- A recognised fingerprint was added within the TTL. -/
theorem mem_of_has {c : FingerprintCache} {now : Nat} {k : JsString}
    (h : (c.has now k).1 = true) : ∃ t, (k, t) ∈ c.entries.entries ∧ now ≤ t + c.ttlMs := by
  unfold has at h
  split at h
  · cases h
  · rename_i t hget
    split_ifs at h with hold
    exact ⟨t, (OrderedMap.get?_eq_some_iff _ _ _).mp hget, by omega⟩

end FingerprintCache

/-- A pair that a handler asks L3 about. -/
structure Asked where
  room : RoomId
  displayName : JsString
  content : JsString
  deriving DecidableEq

def Asked.key (q : Asked) : JsString := FingerprintCache.key q.displayName q.content

/-- L3's answer to a handler. -/
structure Verdict extends Asked where
  at' : Nat
  fresh : Bool
  deriving DecidableEq

namespace InboundState

variable {τ : Type}

/-- The pair the step checks, in either direction. -/
def asked (s : InboundState) : InboundAction τ → Option Asked
  | .check room =>
    match (s.chat room).delivering with
    | some (event, .resolved displayName) => some ⟨room, displayName, event.content⟩
    | _ => none
  | .sourceChat room msg _ =>
    if msg.text = [] then none else some ⟨room, msg.displayName, msg.text⟩
  | _ => none

def verdict (s : InboundState) (q : Asked) : Verdict :=
  ⟨q, s.now, !((s.chat q.room).check s.now q.key).1⟩

/-- A message that is not fresh goes no further. -/
theorem handleSourceChat_dropped {s : InboundState} {room : RoomId} {msg : SourceChatMessage}
    {key : JsString} (h : (s.verdict ⟨room, msg.displayName, msg.text⟩).fresh = false) :
    ∃ c, s.handleSourceChat room msg key = s.setChat room c ∧
      c.chatterSigners = (s.chat room).chatterSigners ∧ c.added = (s.chat room).added := by
  have hseen : ((s.chat room).check s.now (FingerprintCache.key msg.displayName msg.text)).1 = true :=
    by simpa [verdict, Asked.key] using h
  have hcheck := RoomChat.check_seen (RoomChat.check_fst _ _ _ ▸ hseen)
  unfold handleSourceChat
  split_ifs
  · exact ⟨s.chat room, by simp [setChat], rfl, rfl⟩
  · rw [hcheck]
    exact ⟨_, rfl, rfl, rfl⟩

theorem check_dropped {s : InboundState} {room : RoomId} {event : Event} {displayName : JsString}
    (h : (s.verdict ⟨room, displayName, event.content⟩).fresh = false) :
    ((s.check room event displayName).chat room).delivering = none := by
  have hseen : ((s.chat room).check s.now (FingerprintCache.key displayName event.content)).1 = true :=
    by simpa [verdict, Asked.key] using h
  simp [check_chat_self, hseen]

theorem prints_setChat {s s' : InboundState} {room : RoomId} {c : RoomChat}
    (hc : s'.chat = Function.update s.chat room c)
    (hp : RoomChat.SamePrints (s.chat room) c) (id : RoomId) :
    (s'.chat id).fingerprints = (s.chat id).fingerprints := by
  by_cases h : id = room
  · subst h
    simp [hc, hp.1]
  · simp [hc, Function.update_of_ne h]

theorem prints_bridgeChatter (s : InboundState) (room : RoomId) (userId key : JsString)
    (id : RoomId) :
    ((s.bridgeChatter room userId key).chat id).fingerprints = (s.chat id).fingerprints := by
  obtain ⟨c, bridged, he, hp, -⟩ := s.bridgeChatter_eq room userId key
  rw [he]
  exact prints_setChat rfl hp id

theorem prints_handleNostrEvent (cfg : InboundConfig) (s : InboundState) (event : Event)
    (id : RoomId) :
    ((s.handleNostrEvent cfg event).chat id).fingerprints = (s.chat id).fingerprints := by
  unfold handleNostrEvent
  split_ifs
  iterate 3 rfl
  cases s.roomFor event with
  | none => rfl
  | some room => exact prints_setChat rfl ⟨by rfl, by rfl⟩ id

/-- The fingerprints of a room after the step: as before, or after a check of the pair asked for. -/
def Printed (s s' : InboundState) (q : Option Asked) (room : RoomId) : Prop :=
  (s'.chat room).fingerprints = (s.chat room).fingerprints ∨
    ∃ a, q = some a ∧ a.room = room ∧
      (s'.chat room).fingerprints = ((s.chat room).check s.now a.key).2.fingerprints

theorem printed_handleSourceChat (s : InboundState) (room : RoomId) (msg : SourceChatMessage)
    (key : JsString) (id : RoomId) :
    Printed s (s.handleSourceChat room msg key)
      (if msg.text = [] then none else some ⟨room, msg.displayName, msg.text⟩) id := by
  unfold handleSourceChat
  by_cases ht : msg.text = []
  · rw [if_pos ht]
    exact .inl rfl
  · rw [if_neg ht, if_neg ht]
    dsimp only
    generalize hc : (s.chat room).check s.now (FingerprintCache.key msg.displayName msg.text) = c
    have hchecked : Printed s (s.setChat room c.2) (some ⟨room, msg.displayName, msg.text⟩) id := by
      by_cases hid : id = room
      · subst hid
        refine .inr ⟨_, rfl, rfl, ?_⟩
        simp [setChat, Asked.key, hc]
      · exact .inl (by simp [setChat, Function.update_of_ne hid])
    split_ifs
    · exact hchecked
    · unfold Printed
      rw [prints_bridgeChatter]
      exact hchecked

theorem next_printed {cfg : InboundConfig} {s s' : InboundState} {a : InboundAction τ}
    (h : next cfg s a = some s') (id : RoomId) : Printed s s' (s.asked a) id := by
  obtain ⟨r, hstep, rfl⟩ := Option.map_eq_some_iff.mp h
  apply step_elim (motive := fun a s' _ => Printed s s' (s.asked a) id) hstep
  case rooms => exact fun _ _ _ => .inl rfl
  case tick => exact fun _ => .inl rfl
  case nostrEvent =>
    intro via event
    apply Or.inl
    rw [prints_handleNostrEvent]
    cases via <;> rfl
  case deliver => exact fun room _ _ _ => .inl (prints_setChat rfl ⟨by rfl, by rfl⟩ id)
  case unnamed => exact fun room => .inl (prints_setChat rfl ⟨by rfl, by rfl⟩ id)
  case named =>
    rintro room event (_ | _ | ⟨u, us⟩) _ <;> exact .inl (prints_setChat rfl ⟨by rfl, by rfl⟩ id)
  case check =>
    intro room event displayName hd
    by_cases hid : id = room
    · subst hid
      refine .inr ⟨⟨id, displayName, event.content⟩, by simp [asked, hd], rfl, ?_⟩
      simp [check, setChat, Asked.key]
    · exact .inl (by simp [check, setChat, Function.update_of_ne hid])
  case rendered =>
    intro room event displayName content _
    apply Or.inl
    unfold sendMessage
    dsimp only
    split
    · exact prints_setChat rfl ⟨by rfl, by rfl⟩ id
    · exact prints_setChat rfl ⟨by rfl, by rfl⟩ id
  case settled => exact fun room => .inl (prints_setChat rfl ⟨by rfl, by rfl⟩ id)
  case sourceChat => exact fun room msg key _ => printed_handleSourceChat s room msg key id
  case sourceJoin => exact fun room presence key _ => .inl (prints_bridgeChatter s room _ key id)

end InboundState

/-- The chat service, and every answer of L3 so far, the latest first. -/
structure JudgedState where
  inbound : InboundState
  verdicts : List Verdict

namespace JudgedState

variable {τ : Type}

def init : JudgedState := ⟨.init, []⟩

def next (cfg : InboundConfig) (s : JudgedState) (a : InboundAction τ) : Option JudgedState :=
  (InboundState.next cfg s.inbound a).map fun inbound =>
    ⟨inbound, ((s.inbound.asked a).map s.inbound.verdict).toList ++ s.verdicts⟩

end JudgedState

/-- The pair of `q` passed in its room at most the TTL ago. -/
def PassedBefore (earlier : List Verdict) (v : Verdict) : Prop :=
  ∃ p ∈ earlier, p.fresh = true ∧ p.toAsked = v.toAsked ∧ v.at' ≤ p.at' + DEFAULT_TTL_MS

/-- Only a pair that passed within the TTL was ever turned down. -/
def Exact : List Verdict → Prop
  | [] => True
  | v :: earlier => (v.fresh = false → PassedBefore earlier v) ∧ Exact earlier

instance (earlier : List Verdict) (v : Verdict) : Decidable (PassedBefore earlier v) :=
  inferInstanceAs (Decidable (∃ p ∈ earlier, _))

instance Exact.decidable : (vs : List Verdict) → Decidable (Exact vs)
  | [] => inferInstanceAs (Decidable True)
  | v :: earlier =>
    have : Decidable (Exact earlier) := Exact.decidable earlier
    inferInstanceAs (Decidable ((v.fresh = false → PassedBefore earlier v) ∧ Exact earlier))

namespace JudgedState

variable {τ : Type}

/-- No other pair with the fingerprint that is asked for passed the room within the last TTL. -/
def Unambiguous (s : JudgedState) (a : InboundAction τ) : Prop :=
  ∀ q ∈ s.inbound.asked a, ∀ p ∈ s.verdicts, p.fresh = true → p.room = q.room →
    s.inbound.now ≤ p.at' + DEFAULT_TTL_MS → p.key = q.key → p.toAsked = q

instance (s : JudgedState) (a : InboundAction τ) : Decidable (s.Unambiguous a) :=
  inferInstanceAs (Decidable (∀ q ∈ s.inbound.asked a, ∀ p ∈ s.verdicts, _))

/-- Every fingerprint a room holds was left by a pair that passed there. -/
structure Judged (s : JudgedState) : Prop where
  ttlMs : ∀ room, (s.inbound.chat room).fingerprints.ttlMs = DEFAULT_TTL_MS
  backed : ∀ room, ∀ e ∈ (s.inbound.chat room).fingerprints.entries.entries,
    ∃ p ∈ s.verdicts, p.fresh = true ∧ p.room = room ∧ p.key = e.1 ∧ p.at' = e.2
  exact' : Exact s.verdicts

theorem judged_init : init.Judged where
  ttlMs := fun _ => rfl
  backed := by simp [init, InboundState.init, RoomChat.new, FingerprintCache.new, OrderedMap.empty]
  exact' := trivial

/-- A checked room still holds only what its verdicts left, the newest among them. -/
theorem Judged.backed_check {s : JudgedState} (h : s.Judged) (q : Asked) {e : JsString × Nat}
    (he : e ∈ ((s.inbound.chat q.room).check s.inbound.now q.key).2.fingerprints.entries.entries) :
    ∃ p ∈ s.inbound.verdict q :: s.verdicts,
      p.fresh = true ∧ p.room = q.room ∧ p.key = e.1 ∧ p.at' = e.2 := by
  have hold (he : e ∈ (s.inbound.chat q.room).fingerprints.entries.entries) :
      ∃ p ∈ s.inbound.verdict q :: s.verdicts,
        p.fresh = true ∧ p.room = q.room ∧ p.key = e.1 ∧ p.at' = e.2 := by
    obtain ⟨p, hp, hrest⟩ := h.backed q.room e he
    exact ⟨p, List.mem_cons_of_mem _ hp, hrest⟩
  cases hseen : ((s.inbound.chat q.room).fingerprints.has s.inbound.now q.key).1 with
  | true =>
    rw [RoomChat.check_seen hseen] at he
    exact hold (FingerprintCache.has_entries he)
  | false =>
    have hcheck := RoomChat.check_fresh hseen
    rw [hcheck] at he
    rcases FingerprintCache.add_entries he with rfl | he
    · refine ⟨s.inbound.verdict q, List.mem_cons_self, ?_, rfl, rfl, rfl⟩
      simp [InboundState.verdict, hcheck]
    · exact hold (FingerprintCache.has_entries he)

/-- A pair that is turned down passed before, when nothing else with its fingerprint did. -/
theorem Judged.passedBefore {s : JudgedState} (h : s.Judged) {a : InboundAction τ}
    (hg : s.Unambiguous a) {q : Asked} (hq : s.inbound.asked a = some q)
    (hdropped : (s.inbound.verdict q).fresh = false) :
    PassedBefore s.verdicts (s.inbound.verdict q) := by
  have hseen : ((s.inbound.chat q.room).fingerprints.has s.inbound.now q.key).1 = true := by
    rw [← RoomChat.check_fst]
    simpa [InboundState.verdict] using hdropped
  obtain ⟨t, hmem, ht⟩ := FingerprintCache.mem_of_has hseen
  obtain ⟨p, hp, hfresh, hroom, hkey, hat⟩ := h.backed q.room _ hmem
  have htime : s.inbound.now ≤ p.at' + DEFAULT_TTL_MS := by
    rw [hat, ← h.ttlMs q.room]
    exact ht
  exact ⟨p, hp, hfresh, hg q hq p hp hfresh hroom htime hkey, htime⟩

theorem next_judged {cfg : InboundConfig} {s s' : JudgedState} {a : InboundAction τ}
    (hi : s.Judged) (hg : s.Unambiguous a) (hs : next cfg s a = some s') : s'.Judged := by
  obtain ⟨inbound, hin, rfl⟩ := Option.map_eq_some_iff.mp hs
  have hprinted := InboundState.next_printed hin
  refine ⟨?_, ?_, ?_⟩
  · intro room
    rcases hprinted room with hsame | ⟨q, -, -, hcheck⟩
    · rw [hsame, hi.ttlMs]
    · rw [hcheck, RoomChat.check_ttlMs, hi.ttlMs]
  · intro room e he
    rcases hprinted room with hsame | ⟨q, hq, rfl, hcheck⟩
    · rw [hsame] at he
      obtain ⟨p, hp, hrest⟩ := hi.backed room e he
      exact ⟨p, List.mem_append_right _ hp, hrest⟩
    · rw [hcheck] at he
      rw [hq]
      exact hi.backed_check q he
  · cases hq : s.inbound.asked a with
    | none => exact hi.exact'
    | some q => exact ⟨hi.passedBefore hg hq, hi.exact'⟩

/-- As long as no other pair with the same fingerprint passed a room within the TTL, L3 turns a
message down only when the same pair passed there; and it is only ever a colon in a display name
that gives two pairs one fingerprint. -/
theorem unambiguous_exact (cfg : InboundConfig) :
    (∀ (as : List (InboundAction τ)) (t : JudgedState),
      Guarded (next cfg) Unambiguous init as → run (next cfg) init as = some t →
        Exact t.verdicts) ∧
    ∀ p q : Asked, p.room = q.room → (p.key = q.key ↔ p = q ∨
      (∃ mid, q.displayName = p.displayName ++ js ":" ++ mid ∧
        p.content = mid ++ js ":" ++ q.content) ∨
      ∃ mid, p.displayName = q.displayName ++ js ":" ++ mid ∧
        q.content = mid ++ js ":" ++ p.content) := by
  constructor
  · intro as t hg hr
    exact (run_invariant (fun s a s' => next_judged) judged_init hg hr).exact'
  · rintro ⟨room, name, content⟩ ⟨room', name', content'⟩ hroom
    obtain rfl : room = room' := hroom
    simpa [Asked.key] using FingerprintCache.key_eq_key_iff

def demoConfig : InboundConfig := ⟨⟨js "b", false, false⟩, js "livelier"⟩

/-- A room opens, and its source delivers the messages. -/
def heard (msgs : List (String × String)) : List (InboundAction Unit) :=
  [.rooms .refreshRooms, .rooms (.rows 0 (some [⟨js "u", js "oc"⟩]))] ++
    msgs.map fun m => .sourceChat 0 ⟨js "user", js m.1, js m.2⟩ (js "k")

/-- A repeated message is turned down, one with a colon elsewhere in it is not. -/
theorem unambiguous_exact_repeat :
    ∃ t, run (next demoConfig) init (heard [("a", "b:c"), ("a", "b:c"), ("a", "c:b")]) = some t ∧
      t.verdicts.map Verdict.fresh = [true, false, true] ∧ Exact t.verdicts := by
  have hrun : (run (next demoConfig) init (heard [("a", "b:c"), ("a", "b:c"), ("a", "c:b")])).map
      (fun t => t.verdicts.map Verdict.fresh) = some [true, false, true] := by decide +kernel
  obtain ⟨t, ht, hfresh⟩ := Option.map_eq_some_iff.mp hrun
  exact ⟨t, ht, hfresh, (unambiguous_exact demoConfig).1 _ t (by decide +kernel) ht⟩

/-- The user `a:b` says `c`, and then the user `a` says `b:c`, which nobody said before. -/
theorem exact_fails_colon :
    ∃ t, run (next demoConfig) init (heard [("a:b", "c"), ("a", "b:c")]) = some t ∧
      ¬Exact t.verdicts := by
  have hrun : (run (next demoConfig) init (heard [("a:b", "c"), ("a", "b:c")])).map
      (fun t => decide (Exact t.verdicts)) = some false := by decide +kernel
  obtain ⟨t, ht, hexact⟩ := Option.map_eq_some_iff.mp hrun
  exact ⟨t, ht, of_decide_eq_false hexact⟩

end JudgedState

end LivelierBridge.Chat
