import Mathlib.Algebra.GroupWithZero.Nat
import Mathlib.Data.List.Perm.Subperm
import Mathlib.Data.List.Sort
import LivelierBridge.Framework.PromiseChain
import LivelierBridge.Chat.AtMostOnce

namespace LivelierBridge.Chat

open Framework Js Nostr

/-- The pieces of one `deliverToSource`, each up to its next await. -/
inductive LinkAction (τ : Type) where
  | deliver
  | named (answer : Option (Option JsString))
  | check
  | rendered (content : τ)
  | settled

def LinkAction.inRoom {τ : Type} (room : RoomId) : LinkAction τ → InboundAction τ
  | .deliver => .deliver room
  | .named answer => .named room answer
  | .check => .check room
  | .rendered content => .rendered room content
  | .settled => .settled room

def InboundAction.isLink {τ : Type} : InboundAction τ → Bool
  | .deliver _ | .named _ _ | .check _ | .rendered _ _ | .settled _ => true
  | _ => false

/-- A link of a room's chain: the promise that `then` returned for it. -/
abbrev Link := RoomId × PromiseId

/-- The inbound half with the promise `room.delivery` in place of the queues of `inbound`, which
are not used. -/
structure ChainedState where
  inbound : InboundState
  delivery : RoomId → Chain Event Stage
  /-- The links in the order their events arrived. -/
  joined : List Link
  /-- The links whose `adapter.sendMessage` was called, in order. -/
  sends : List Link

inductive ChainedAction (τ : Type) where
  | inbound (a : InboundAction τ)
  | link (room : RoomId) (promise : PromiseId) (a : LinkAction τ)

theorem RoomChat.check_waiting (c : RoomChat) (now : Nat) (fp : JsString) :
    (c.check now fp).2.waiting = c.waiting := by
  cases h : (c.fingerprints.has now fp).1 with
  | true => rw [RoomChat.check_seen h]
  | false => rw [RoomChat.check_fresh h]

namespace InboundState

/-- Other queues in all rooms. -/
def refill (s : InboundState) (q : RoomId → List Event × Option (Event × Stage)) :
    InboundState :=
  { s with chat := fun room =>
      { s.chat room with waiting := (q room).1, delivering := (q room).2 } }

/-- One link, as the code of `deliverToSource` sees it. -/
def focus (s : InboundState) (r : Reaction Event Stage) : InboundState :=
  s.refill fun _ => (if r.running.isNone then [r.job] else [],
    r.running.map fun stage => (r.job, stage))

/-- The room whose chain takes the event; the others are skipped. -/
def addressee (cfg : InboundConfig) (s : InboundState) (event : Event) : Option RoomId :=
  if event.kind ≠ 1311 then none
  else if ownClientTag cfg event then none
  else if event.pubkey ∈ s.bridgedPubkeys then none
  else s.roomFor event

end InboundState

namespace ChainedState

variable {τ : Type}

def init : ChainedState := ⟨.init, fun _ => .new, [], []⟩

/-- `room.delivery = room.delivery.then(…)` -/
def chain (s : ChainedState) (room : RoomId) (event : Event) : ChainedState :=
  { s with
    delivery := Function.update s.delivery room ((s.delivery room).extend event)
    joined := s.joined ++ [(room, (s.delivery room).made)] }

def handleNostrEvent (cfg : InboundConfig) (s : ChainedState) (event : Event) : ChainedState :=
  match s.inbound.addressee cfg event with
  | none => s
  | some room =>
    let arrivals := s.inbound.arrivals ++ [⟨event, s.inbound.now⟩]
    { s with inbound := { s.inbound with arrivals } }.chain room event

/-- A link's callback ran to its next await, or to its end; a failure ends it as well. -/
def resume (s : ChainedState) (room : RoomId) (p : PromiseId)
    (o : InboundState × List (ChatCall τ)) : ChainedState :=
  { s with
    inbound := o.1
    delivery := Function.update s.delivery room
      ((s.delivery room).goOn p ((o.1.chat room).delivering.map Prod.snd))
    sends := s.sends ++ o.2.map fun _ => (room, p) }

/-- One synchronous piece of the service; whether a link may run is up to the promises. -/
def step (cfg : InboundConfig) (s : ChainedState) :
    ChainedAction τ → Option (ChainedState × List (ChatCall τ))
  | .inbound (.nostrEvent via event) =>
    some ({ s with inbound := s.inbound.seen via }.handleNostrEvent cfg event, [])
  | .inbound a =>
    if a.isLink then none
    else (InboundState.step cfg s.inbound a).map fun o => ({ s with inbound := o.1 }, o.2)
  | .link room p a =>
    match (s.delivery room).find p with
    | none => none
    | some r =>
      if (s.delivery room).Ready r then
        (InboundState.step cfg (s.inbound.focus r) (a.inRoom room)).map fun o =>
          (s.resume room p o, o.2)
      else none

def next (cfg : InboundConfig) (s : ChainedState) (a : ChainedAction τ) : Option ChainedState :=
  (step cfg s a).map Prod.fst

/-- The queues that the promises amount to. -/
def queued (s : ChainedState) : InboundState :=
  s.inbound.refill fun room => ((s.delivery room).waiting, (s.delivery room).active)

end ChainedState

namespace InboundState

variable {τ : Type} (s : InboundState) (q : RoomId → List Event × Option (Event × Stage))

@[simp] theorem refill_waiting (room : RoomId) :
    ((s.refill q).chat room).waiting = (q room).1 := rfl

@[simp] theorem refill_delivering (room : RoomId) :
    ((s.refill q).chat room).delivering = (q room).2 := rfl

theorem refill_refill (q' : RoomId → List Event × Option (Event × Stage)) :
    (s.refill q).refill q' = s.refill q' := rfl

/-- Writing a room behind other queues writes its queue. -/
theorem setChat_refill (room : RoomId) (c : RoomChat) :
    (s.refill q).setChat room c =
      (s.setChat room c).refill (Function.update q room (c.waiting, c.delivering)) := by
  have hchat : ((s.refill q).setChat room c).chat =
      ((s.setChat room c).refill (Function.update q room (c.waiting, c.delivering))).chat := by
    funext i
    by_cases hi : i = room
    · subst hi
      simp [setChat, refill]
    · simp [setChat, refill, hi]
  simp only [setChat, refill, mk.injEq, true_and, and_true]
  exact hchat

theorem seen_refill (via : Via) : (s.refill q).seen via = (s.seen via).refill q := by
  cases via <;> rfl

theorem check_refill (c : RoomChat) (now : Nat) (fp : JsString) (w : List Event)
    (d : Option (Event × Stage)) :
    ({ c with waiting := w, delivering := d } : RoomChat).check now fp =
      ((c.check now fp).1, { (c.check now fp).2 with waiting := w, delivering := d }) := by
  unfold RoomChat.check
  dsimp only
  split <;> rfl

/-- Behind other queues it does not matter which queue a room was written with. -/
theorem refill_setChat (room : RoomId) (c : RoomChat) (w : List Event)
    (d : Option (Event × Stage)) :
    (s.setChat room { c with waiting := w, delivering := d }).refill q =
      (s.setChat room c).refill q := by
  simp only [setChat, refill, mk.injEq, true_and, and_true]
  funext i
  by_cases hi : i = room
  · subst hi
    simp
  · simp [hi]

theorem endLink_refill (room : RoomId) :
    (s.refill q).endLink room =
      (s.endLink room).refill (Function.update q room ((q room).1, none)) := by
  rw [endLink, setChat_refill]
  exact (refill_setChat s _ room (s.chat room) (q room).1 none).trans
    (refill_setChat s _ room (s.chat room) (s.chat room).waiting none).symm

theorem setStage_refill (room : RoomId) (event : Event) (stage : Stage) :
    (s.refill q).setStage room event stage = (s.setStage room event stage).refill
      (Function.update q room ((q room).1, some (event, stage))) := by
  rw [setStage, setChat_refill]
  exact (refill_setChat s _ room (s.chat room) (q room).1 (some (event, stage))).trans
    (refill_setChat s _ room (s.chat room) (s.chat room).waiting (some (event, stage))).symm

theorem deliver_refill (room : RoomId) (event : Event) (rest rest' : List Event) :
    (s.refill q).deliver room event rest = (s.deliver room event rest').refill
      (Function.update q room (rest, ((s.deliver room event rest').chat room).delivering)) := by
  simp only [deliver, setChat, refill, mk.injEq, true_and, and_true]
  funext i
  by_cases hi : i = room
  · subst hi
    simp
  · simp [hi]

theorem named_refill (room : RoomId) (event : Event) (name : Option JsString) :
    (s.refill q).named room event name = (s.named room event name).refill
      (Function.update q room ((q room).1, ((s.named room event name).chat room).delivering)) := by
  unfold named
  split
  · rw [setStage_refill]
    simp [setStage, setChat, refill]
  · rw [setStage_refill]
    simp [setStage, setChat]

theorem check_link_refill (room : RoomId) (event : Event) (displayName : JsString) :
    (s.refill q).check room event displayName = (s.check room event displayName).refill
      (Function.update q room
        ((q room).1, ((s.check room event displayName).chat room).delivering)) := by
  have hchat : ((s.refill q).chat room).check (s.refill q).now
      (FingerprintCache.key displayName event.content) = _ :=
    check_refill (s.chat room) s.now _ (q room).1 (q room).2
  unfold check
  rw [hchat]
  simp only [setChat, refill, mk.injEq, true_and, and_true]
  funext i
  by_cases hi : i = room
  · subst hi
    simp
  · simp [hi]

theorem sendMessage_refill (room : RoomId) (event : Event) (displayName : JsString)
    (content : τ) :
    (s.refill q).sendMessage room event displayName content =
      ((s.sendMessage room event displayName content).1.refill (Function.update q room
        ((q room).1, ((s.sendMessage room event displayName content).1.chat room).delivering)),
        (s.sendMessage room event displayName content).2) := by
  by_cases hopen : s.rooms.rooms.get? (s.rooms.room room).row.url = some room
  · have hopen' : (s.refill q).rooms.rooms.get? ((s.refill q).rooms.room room).row.url =
        some room := hopen
    rw [sendMessage, sendMessage, if_neg (not_not.mpr hopen), if_neg (not_not.mpr hopen'),
      setStage_refill]
    simp [setStage, setChat, refill]
  · have hopen' : (s.refill q).rooms.rooms.get? ((s.refill q).rooms.room room).row.url ≠
        some room := hopen
    rw [sendMessage, sendMessage, if_pos hopen, if_pos hopen', endLink_refill]
    simp [endLink, setChat]

/-- A link's piece reads and writes its room's queue only, and there no further than its own
event. -/
theorem step_link_refill (cfg : InboundConfig) (room : RoomId) (a : LinkAction τ)
    {w rest : List Event} {d : Option (Event × Stage)} (hq : q room = (w ++ rest, d))
    (hd : d = none → w ≠ []) :
    step cfg (s.refill q) (a.inRoom room) =
      (step cfg (s.refill fun _ => (w, d)) (a.inRoom room)).map fun o =>
        (o.1.refill (Function.update q room
          ((o.1.chat room).waiting ++ rest, (o.1.chat room).delivering)), o.2) := by
  cases a with
  | deliver =>
    simp only [LinkAction.inRoom, step, refill_waiting, refill_delivering, hq]
    cases d with
    | some x => rfl
    | none =>
      obtain ⟨e, w', rfl⟩ := List.exists_cons_of_ne_nil (hd rfl)
      simp only [List.cons_append, Option.map_some]
      rw [deliver_refill s q room e _ w', deliver_refill s _ room e w' w']
      simp [refill_refill]
  | named answer =>
    simp only [LinkAction.inRoom, step, refill_delivering, hq]
    split
    · simp [endLink_refill, refill_refill, hq]
    · simp [named_refill, refill_refill, hq]
    · rfl
  | check =>
    simp only [LinkAction.inRoom, step, refill_delivering, hq]
    split
    · simp [check_link_refill, refill_refill, hq]
    · rfl
  | rendered content =>
    simp only [LinkAction.inRoom, step, refill_delivering, hq]
    split
    · simp [sendMessage_refill, refill_refill, hq]
    · rfl
  | settled =>
    simp only [LinkAction.inRoom, step, refill_delivering, hq]
    split
    · simp [endLink_refill, refill_refill, hq]
    · rfl

/-- A write that leaves the room's queue alone. -/
theorem setChat_refill_keeps (room : RoomId) (c : RoomChat) :
    (s.refill q).setChat room { c with waiting := (q room).1, delivering := (q room).2 } =
      (s.setChat room c).refill q := by
  rw [setChat_refill, refill_setChat]
  simp

theorem chatterSigner_refill (room : RoomId) (userId key : JsString) :
    (s.refill q).chatterSigner room userId key = (s.chatterSigner room userId key).refill q := by
  have hsigners : ((s.refill q).chat room).chatterSigners = (s.chat room).chatterSigners := rfl
  unfold chatterSigner
  rw [hsigners]
  split
  · rfl
  · let c := { s.chat room with chatterSigners := (s.chat room).chatterSigners.set userId key }
    have hset := setChat_refill_keeps s q room c
    exact congrArg (fun t : InboundState => { t with bridgedPubkeys := key :: s.bridgedPubkeys }) hset

theorem bridgeChatter_refill (room : RoomId) (userId key : JsString) :
    (s.refill q).bridgeChatter room userId key = (s.bridgeChatter room userId key).refill q := by
  unfold bridgeChatter
  rw [chatterSigner_refill]
  by_cases hmem : userId ∈ ((s.chatterSigner room userId key).chat room).profiledChatters
  · have hmem' : userId ∈
        (((s.chatterSigner room userId key).refill q).chat room).profiledChatters := hmem
    simp only [if_pos hmem, if_pos hmem']
  · have hmem' : userId ∉
        (((s.chatterSigner room userId key).refill q).chat room).profiledChatters := hmem
    simp only [if_neg hmem, if_neg hmem']
    let c := (s.chatterSigner room userId key).chat room
    exact setChat_refill_keeps _ q room { c with profiledChatters := userId :: c.profiledChatters }

theorem handleSourceChat_refill (room : RoomId) (msg : SourceChatMessage) (key : JsString) :
    (s.refill q).handleSourceChat room msg key = (s.handleSourceChat room msg key).refill q := by
  have hchat : ((s.refill q).chat room).check (s.refill q).now
      (FingerprintCache.key msg.displayName msg.text) = _ :=
    check_refill (s.chat room) s.now _ (q room).1 (q room).2
  unfold handleSourceChat
  rw [hchat]
  split
  · rfl
  · dsimp only
    rw [setChat_refill_keeps]
    split
    · rfl
    · exact bridgeChatter_refill _ q room msg.userId key

/-- The rest of the service does not look at the queues. -/
theorem step_refill (cfg : InboundConfig) {a : InboundAction τ} (ha : a.isLink = false)
    (hn : ∀ via event, a ≠ .nostrEvent via event) :
    step cfg (s.refill q) a = (step cfg s a).map fun o => (o.1.refill q, o.2) := by
  cases a with
  | rooms b =>
    simp only [step, Option.map_map]
    rfl
  | tick ms => rfl
  | nostrEvent via event => exact absurd rfl (hn via event)
  | sourceChat room msg key =>
    have hroom : (s.refill q).rooms = s.rooms := rfl
    simp only [step, hroom, handleSourceChat_refill]
    split <;> rfl
  | sourceJoin room presence key =>
    have hroom : (s.refill q).rooms = s.rooms := rfl
    simp only [step, hroom, bridgeChatter_refill]
    split <;> rfl
  | deliver room => cases ha
  | named room answer => cases ha
  | check room => cases ha
  | rendered room content => cases ha
  | settled room => cases ha

theorem handleNostrEvent_addressee (cfg : InboundConfig) (event : Event) :
    s.handleNostrEvent cfg event =
      match s.addressee cfg event with
      | none => s
      | some room =>
        { s.setChat room { s.chat room with waiting := (s.chat room).waiting ++ [event] } with
          arrivals := s.arrivals ++ [⟨event, s.now⟩] } := by
  unfold handleNostrEvent addressee
  split_ifs <;> rfl

/-- An event that joins a chain joins the room's queue. -/
theorem enqueue_refill (room : RoomId) (event : Event) :
    (s.refill q).setChat room { (s.refill q).chat room with
        waiting := ((s.refill q).chat room).waiting ++ [event] } =
      s.refill (Function.update q room ((q room).1 ++ [event], (q room).2)) := by
  rw [setChat_refill]
  have hset := refill_setChat s (Function.update q room ((q room).1 ++ [event], (q room).2)) room
    (s.chat room) ((q room).1 ++ [event]) (q room).2
  have hself : s.setChat room (s.chat room) = s := by simp [setChat]
  rw [hself] at hset
  exact hset

end InboundState

/-- The action as the queues see it. -/
def ChainedAction.flat {τ : Type} : ChainedAction τ → InboundAction τ
  | .inbound a => a
  | .link room _ a => a.inRoom room

namespace ChainedState

variable {τ : Type} {cfg : InboundConfig}

/-- Every room's promises form one chain. -/
def AllLinked (s : ChainedState) : Prop := ∀ room, (s.delivery room).Linked

/-- What an enabled step does, by action. -/
theorem step_elim {s : ChainedState}
    {motive : ChainedAction τ → ChainedState → List (ChatCall τ) → Prop} {a : ChainedAction τ}
    {o : ChainedState × List (ChatCall τ)} (hs : step cfg s a = some o)
    (skipped : ∀ via event, (s.inbound.seen via).addressee cfg event = none →
      motive (.inbound (.nostrEvent via event)) { s with inbound := s.inbound.seen via } [])
    (joined : ∀ via event room i, (s.inbound.seen via).addressee cfg event = some room →
      i = { s.inbound.seen via with
        arrivals := (s.inbound.seen via).arrivals ++ [⟨event, (s.inbound.seen via).now⟩] } →
      motive (.inbound (.nostrEvent via event)) ({ s with inbound := i }.chain room event) [])
    (inbound : ∀ b o, b.isLink = false → (∀ via event, b ≠ .nostrEvent via event) →
      InboundState.step cfg s.inbound b = some o →
      motive (.inbound b) { s with inbound := o.1 } o.2)
    (link : ∀ room p r b o, (s.delivery room).find p = some r → (s.delivery room).Ready r →
      InboundState.step cfg (s.inbound.focus r) (b.inRoom room) = some o →
      motive (.link room p b) (s.resume room p o) o.2) :
    motive a o.1 o.2 := by
  cases a with
  | inbound b =>
    by_cases hn : ∃ via event, b = .nostrEvent via event
    · obtain ⟨via, event, rfl⟩ := hn
      obtain rfl := Option.some.inj hs
      unfold handleNostrEvent
      dsimp only
      split
      · rename_i hnone
        exact skipped via event hnone
      · rename_i room hroom
        exact joined via event room _ hroom rfl
    · have hb : ∀ via event, b ≠ .nostrEvent via event := fun via event h => hn ⟨via, event, h⟩
      have hstep : (if b.isLink then none else (InboundState.step cfg s.inbound b).map
          fun o => ({ s with inbound := o.1 }, o.2)) = some o := by
        rw [← hs]
        cases b with
        | nostrEvent via event => exact absurd rfl (hb via event)
        | _ => rfl
      split at hstep
      · cases hstep
      · rename_i hlink
        obtain ⟨r, hr, rfl⟩ := Option.map_eq_some_iff.mp hstep
        exact inbound b r (by simpa using hlink) hb hr
  | link room p b =>
    simp only [step] at hs
    split at hs
    · cases hs
    · rename_i r hr
      split at hs
      · rename_i hready
        obtain ⟨o', ho', rfl⟩ := Option.map_eq_some_iff.mp hs
        exact link room p r b o' hr hready ho'
      · cases hs

theorem step_linked {s : ChainedState} {a : ChainedAction τ}
    {o : ChainedState × List (ChatCall τ)} (hl : s.AllLinked) (hs : step cfg s a = some o) :
    o.1.AllLinked := by
  have hupdate (delivery : RoomId → Chain Event Stage) (room : RoomId) (c : Chain Event Stage)
      (hd : ∀ i, (delivery i).Linked) (hc : c.Linked) :
      ∀ i, (Function.update delivery room c i).Linked := by
    intro i
    by_cases hi : i = room
    · subst hi
      simpa using hc
    · simpa [hi] using hd i
  apply step_elim (motive := fun _ t _ => t.AllLinked) hs
  case skipped => exact fun _ _ _ => hl
  case joined => exact fun _ event room _ _ _ => hupdate _ room _ hl ((hl room).extend event)
  case inbound => exact fun _ _ _ _ _ => hl
  case link =>
    exact fun room p r _ _ hr hready _ => hupdate _ room _ hl ((hl room).goOn hr hready _)

/-- What the piece of a link leaves behind is its own event, or nothing. -/
structure LeftBy (event : Event) (c : RoomChat) : Prop where
  waiting : c.waiting = []
  delivering : ∀ x, c.delivering = some x → x.1 = event

/-- The pieces of `deliverToSource`: where the link stands before and after one, and the calls
it makes. -/
inductive Goes (i : InboundState) (room : RoomId) (event : Event) :
    Option Stage → LinkAction τ → Option Stage → List (ChatCall τ) → Prop where
  | start (stage : Stage) (hs : stage = .resolving ∨ ∃ name, stage = .resolved name) :
      Goes i room event none .deliver (some stage) []
  | unnamed : Goes i room event (some .resolving) (.named none) none []
  | named (answer : Option JsString) (name : JsString) :
      Goes i room event (some .resolving) (.named (some answer)) (some (.resolved name)) []
  | seen (name : JsString) (h : ((i.chat room).fingerprints.has i.now
        (FingerprintCache.key name event.content)).1 = true) :
      Goes i room event (some (.resolved name)) .check none []
  | fresh (name : JsString) : Goes i room event (some (.resolved name)) .check
      (some (.rendering name)) []
  | gone (name : JsString) (content : τ)
      (h : i.rooms.rooms.get? (i.rooms.room room).row.url ≠ some room) :
      Goes i room event (some (.rendering name)) (.rendered content) none []
  | send (name : JsString) (content : τ) : Goes i room event (some (.rendering name))
      (.rendered content) (some .sending)
      [.sendMessage room (i.rooms.room room).row.url event.pubkey name content]
  | settled : Goes i room event (some .sending) .settled none []

theorem Goes.calls {i : InboundState} {room : RoomId} {event : Event} {before after : Option Stage}
    {b : LinkAction τ} {calls : List (ChatCall τ)} (h : Goes i room event before b after calls) :
    calls = [] ∨ ∃ name call, before = some (.rendering name) ∧ after = some .sending ∧
      calls = [call] := by
  cases h with
  | send name content => exact .inr ⟨name, _, rfl, rfl, rfl⟩
  | _ => exact .inl rfl

theorem Goes.ends {i : InboundState} {room : RoomId} {event : Event} {before after : Option Stage}
    {b : LinkAction τ} {calls : List (ChatCall τ)} (h : Goes i room event before b after calls)
    (hb : before = some .sending) : after = none := by
  cases h with
  | settled => rfl
  | _ => cases hb

theorem Goes.sends {i : InboundState} {room : RoomId} {event : Event} {before after : Option Stage}
    {b : LinkAction τ} {calls : List (ChatCall τ)} (h : Goes i room event before b after calls)
    (ha : after = some .sending) : ∃ call, calls = [call] := by
  cases h with
  | start stage hs =>
    obtain rfl := Option.some.inj ha
    rcases hs with hs | ⟨name, hs⟩ <;> cases hs
  | send name content => exact ⟨_, rfl⟩
  | _ => cases ha

theorem check_stage (i : InboundState) (room : RoomId) (event : Event) (name : JsString)
    (hw : (i.chat room).waiting = []) :
    LeftBy event ((i.check room event name).chat room) ∧
      Goes i room event (some (.resolved name)) .check
        (((i.check room event name).chat room).delivering.map Prod.snd) ([] : List (ChatCall τ)) := by
  rw [InboundState.check_chat_self]
  dsimp only
  refine ⟨⟨(RoomChat.check_waiting _ _ _).trans hw, fun x hx => ?_⟩, ?_⟩
  · split at hx
    · cases hx
    · obtain rfl := Option.some.inj hx
      rfl
  · split
    · rename_i hseen
      exact .seen name ((RoomChat.check_fst _ _ _).symm.trans hseen)
    · exact .fresh name

theorem sendMessage_stage (i : InboundState) (room : RoomId) (event : Event) (name : JsString)
    (content : τ) (hw : (i.chat room).waiting = []) :
    LeftBy event ((i.sendMessage room event name content).1.chat room) ∧
      Goes i room event (some (.rendering name)) (.rendered content)
        (((i.sendMessage room event name content).1.chat room).delivering.map Prod.snd)
        (i.sendMessage room event name content).2 := by
  unfold InboundState.sendMessage
  dsimp only
  split
  · rename_i hgone
    refine ⟨⟨by simpa [InboundState.endLink, InboundState.setChat] using hw, ?_⟩, ?_⟩
    · simp [InboundState.endLink, InboundState.setChat]
    · simpa [InboundState.endLink, InboundState.setChat] using Goes.gone name content hgone
  · refine ⟨⟨by simpa [InboundState.setStage, InboundState.setChat] using hw, ?_⟩, ?_⟩
    · simp [InboundState.setStage, InboundState.setChat]
    · simpa [InboundState.setStage, InboundState.setChat] using Goes.send name content

/-- Which queue the link was shown does not matter. -/
theorem Goes.of_focus {i : InboundState} {r : Reaction Event Stage} {room : RoomId} {event : Event}
    {before after : Option Stage} {b : LinkAction τ} {calls : List (ChatCall τ)}
    (h : Goes (i.focus r) room event before b after calls) :
    Goes i room event before b after calls := by
  cases h with
  | start stage hs => exact .start stage hs
  | unnamed => exact .unnamed
  | named answer name => exact .named answer name
  | seen name h => exact .seen name h
  | fresh name => exact .fresh name
  | gone name content h => exact .gone name content h
  | send name content => exact .send name content
  | settled => exact .settled

theorem deliver_stage (i : InboundState) (room : RoomId) (event : Event) :
    LeftBy event ((i.deliver room event []).chat room) ∧
      Goes i room event none .deliver
        (((i.deliver room event []).chat room).delivering.map Prod.snd) ([] : List (ChatCall τ)) := by
  simp only [InboundState.deliver, InboundState.setChat, Function.update_self, Option.map_some]
  refine ⟨⟨rfl, fun x hx => by obtain rfl := Option.some.inj hx; rfl⟩, .start _ ?_⟩
  split
  · split
    · exact .inl rfl
    · exact .inr ⟨_, rfl⟩
  · exact .inl rfl

theorem named_stage (i : InboundState) (room : RoomId) (event : Event) (answer : Option JsString)
    (hw : (i.chat room).waiting = []) :
    LeftBy event ((i.named room event answer).chat room) ∧
      Goes i room event (some .resolving) (.named (some answer))
        (((i.named room event answer).chat room).delivering.map Prod.snd) ([] : List (ChatCall τ)) := by
  have hstage (name : JsString) : LeftBy event
      ((i.setStage room event (.resolved name)).chat room) ∧
      ((i.setStage room event (.resolved name)).chat room).delivering =
        some (event, .resolved name) := by
    simp only [InboundState.setStage, InboundState.setChat, Function.update_self]
    exact ⟨⟨hw, fun x hx => by obtain rfl := Option.some.inj hx; rfl⟩, trivial⟩
  unfold InboundState.named
  split
  · rename_i u us
    refine ⟨(hstage (u :: us)).1, ?_⟩
    dsimp only
    rw [(hstage (u :: us)).2]
    exact .named _ _
  · refine ⟨(hstage (js "Guest")).1, ?_⟩
    rw [(hstage (js "Guest")).2]
    exact .named _ _

theorem endLink_stage (i : InboundState) (room : RoomId) (event : Event)
    (hw : (i.chat room).waiting = []) :
    LeftBy event ((i.endLink room).chat room) ∧ ((i.endLink room).chat room).delivering = none := by
  simp only [InboundState.endLink, InboundState.setChat, Function.update_self]
  exact ⟨⟨hw, fun x hx => by cases hx⟩, trivial⟩

/-- What an enabled piece of a link does. -/
theorem link_goes {i : InboundState} {r : Reaction Event Stage} {room : RoomId}
    {b : LinkAction τ} {o : InboundState × List (ChatCall τ)}
    (hs : InboundState.step cfg (i.focus r) (b.inRoom room) = some o) :
    LeftBy r.job (o.1.chat room) ∧
      Goes i room r.job r.running b ((o.1.chat room).delivering.map Prod.snd) o.2 := by
  suffices h : LeftBy r.job (o.1.chat room) ∧ Goes (i.focus r) room r.job r.running b
      ((o.1.chat room).delivering.map Prod.snd) o.2 from ⟨h.1, h.2.of_focus⟩
  have hwaiting : ((i.focus r).chat room).waiting = if r.running.isNone then [r.job] else [] := rfl
  have hdelivering : ((i.focus r).chat room).delivering =
      r.running.map fun stage => (r.job, stage) := rfl
  cases hrun : r.running with
  | none =>
    simp only [hrun, Option.isNone_none, if_true] at hwaiting
    simp only [hrun, Option.map_none] at hdelivering
    cases b with
    | deliver =>
      simp only [LinkAction.inRoom, InboundState.step, hwaiting, hdelivering] at hs
      obtain rfl := Option.some.inj hs
      exact deliver_stage (i.focus r) room r.job
    | _ => simp [LinkAction.inRoom, InboundState.step, hdelivering] at hs
  | some stage =>
    simp only [hrun, Option.isNone_some, Bool.false_eq_true, if_false] at hwaiting
    simp only [hrun, Option.map_some] at hdelivering
    have hend := endLink_stage (i.focus r) room r.job hwaiting
    cases b with
    | deliver => simp [LinkAction.inRoom, InboundState.step, hdelivering] at hs
    | named answer =>
      simp only [LinkAction.inRoom, InboundState.step, hdelivering] at hs
      split at hs
      · rename_i heq
        obtain ⟨-, rfl⟩ := Prod.mk.inj (Option.some.inj heq)
        obtain rfl := Option.some.inj hs
        rw [hend.2]
        exact ⟨hend.1, .unnamed⟩
      · rename_i event name heq
        obtain ⟨rfl, rfl⟩ := Prod.mk.inj (Option.some.inj heq)
        obtain rfl := Option.some.inj hs
        exact named_stage (i.focus r) room r.job name hwaiting
      · cases hs
    | check =>
      simp only [LinkAction.inRoom, InboundState.step, hdelivering] at hs
      split at hs
      · rename_i event displayName heq
        obtain ⟨rfl, rfl⟩ := Prod.mk.inj (Option.some.inj heq)
        obtain rfl := Option.some.inj hs
        exact check_stage (i.focus r) room r.job displayName hwaiting
      · cases hs
    | rendered content =>
      simp only [LinkAction.inRoom, InboundState.step, hdelivering] at hs
      split at hs
      · rename_i event displayName heq
        obtain ⟨rfl, rfl⟩ := Prod.mk.inj (Option.some.inj heq)
        obtain rfl := Option.some.inj hs
        exact sendMessage_stage (i.focus r) room r.job displayName content hwaiting
      · cases hs
    | settled =>
      simp only [LinkAction.inRoom, InboundState.step, hdelivering] at hs
      split at hs
      · rename_i heq
        obtain ⟨-, rfl⟩ := Prod.mk.inj (Option.some.inj heq)
        obtain rfl := Option.some.inj hs
        rw [hend.2]
        exact ⟨hend.1, .settled⟩
      · cases hs

/-- The promise chain refines the queue: whatever link the promises let go on, the queue would
have let it, and the two stay in step. -/
theorem step_queued {s : ChainedState} {a : ChainedAction τ}
    {o : ChainedState × List (ChatCall τ)} (hl : s.AllLinked) (hs : step cfg s a = some o) :
    InboundState.step cfg s.queued a.flat = some (o.1.queued, o.2) := by
  apply step_elim (motive := fun a t calls =>
    InboundState.step cfg s.queued a.flat = some (t.queued, calls)) hs
  case skipped =>
    intro via event hskip
    have haddressee : (s.queued.seen via).addressee cfg event = none := by
      rw [queued, InboundState.seen_refill]
      exact hskip
    simp only [ChainedAction.flat, InboundState.step, InboundState.handleNostrEvent_addressee,
      haddressee]
    rw [queued, InboundState.seen_refill]
    rfl
  case joined =>
    intro via event room i hjoin hi
    have haddressee : (s.queued.seen via).addressee cfg event = some room := by
      rw [queued, InboundState.seen_refill]
      exact hjoin
    simp only [ChainedAction.flat, InboundState.step, InboundState.handleNostrEvent_addressee,
      haddressee]
    rw [queued, InboundState.seen_refill, InboundState.enqueue_refill]
    have hqueues : (fun id => ((({ s with inbound := i }.chain room event).delivery id).waiting,
        (({ s with inbound := i }.chain room event).delivery id).active)) =
        Function.update (fun id => ((s.delivery id).waiting, (s.delivery id).active)) room
          ((s.delivery room).waiting ++ [event], (s.delivery room).active) := by
      funext id
      by_cases hid : id = room
      · subst hid
        simp [chain, Chain.waiting_extend, Chain.active_extend]
      · simp [chain, hid]
    rw [queued, hqueues, hi]
    rfl
  case inbound =>
    intro b o hlink hn hb
    simp only [ChainedAction.flat, queued]
    rw [InboundState.step_refill _ _ cfg hlink hn, hb]
    rfl
  case link =>
    intro room p r b o hr hready hb
    obtain ⟨rest, hw, ha, hw', ha'⟩ := (hl room).queue hr hready
      ((o.1.chat room).delivering.map Prod.snd)
    obtain ⟨hleft, -⟩ := link_goes hb
    have hnext : (o.1.chat room).delivering =
        ((o.1.chat room).delivering.map Prod.snd).map fun stage => (r.job, stage) := by
      cases hd : (o.1.chat room).delivering with
      | none => rfl
      | some x => simp [← hleft.delivering x hd]
    have hstep := InboundState.step_link_refill s.inbound
      (fun i => ((s.delivery i).waiting, (s.delivery i).active)) cfg room b
      (d := r.running.map fun stage => (r.job, stage)) (Prod.ext hw ha)
      (by cases r.running <;> simp)
    refine (hstep.trans (congrArg _ hb)).trans (congrArg some (Prod.ext ?_ rfl))
    dsimp only [queued, resume]
    congr 1
    funext i
    by_cases hi : i = room
    · subst hi
      rw [Function.update_self, Function.update_self, hw', ha', hleft.waiting, ← hnext]
      rfl
    · simp [hi]

theorem run_queued {as : List (ChainedAction τ)} {t : ChainedState}
    (hr : run (next cfg) init as = some t) :
    run (InboundState.next cfg) .init (as.map ChainedAction.flat) = some t.queued := by
  have hrun : t.AllLinked ∧
      run (InboundState.next cfg) .init (as.map ChainedAction.flat) = some t.queued := by
    let Kept (bs : List (ChainedAction τ)) (m : ChainedState) : Prop := m.AllLinked ∧
      run (InboundState.next cfg) .init (bs.map ChainedAction.flat) = some m.queued
    have hkept : Kept [] init := ⟨fun _ => Chain.linked_new, rfl⟩
    refine run_history hkept ?_ hr
    intro bs m a m' _ ⟨hl, hm⟩ hs
    obtain ⟨o, ho, rfl⟩ := Option.map_eq_some_iff.mp hs
    refine ⟨step_linked hl ho, ?_⟩
    rw [List.map_append, run_append_eq_some]
    refine ⟨m.queued, hm, run_cons_eq_some.mpr ⟨o.1.queued, ?_, rfl⟩⟩
    simp [InboundState.next, step_queued hl ho]
  exact hrun.2

def linksOf (links : List Link) (room : RoomId) : List Link := links.filter fun l => l.1 = room

/-- The link's callback has ended. -/
def Settled (s : ChainedState) (l : Link) : Prop := l.2 ∈ (s.delivery l.1).settled

/-- In the order their promises were made, room by room. -/
def InOrder (links : List Link) : Prop := links.Pairwise fun l l' => l.1 = l'.1 → l.2 < l'.2

/-- A link that has sent its message waits for the answer, or has ended. -/
structure InTurn (s : ChainedState) : Prop where
  linked : s.AllLinked
  made : ∀ l ∈ s.joined, l.2 < (s.delivery l.1).made
  joined : InOrder s.joined
  known : ∀ room, ∀ r ∈ (s.delivery room).reactions, (room, r.promise) ∈ s.joined
  sent : ∀ l ∈ s.sends, l ∈ s.joined ∧ (s.Settled l ∨
    ∃ r, (s.delivery l.1).find l.2 = some r ∧ r.running = some .sending)
  calling : ∀ room p r, (s.delivery room).find p = some r → r.running = some .sending →
    (room, p) ∈ s.sends
  sends : InOrder s.sends

theorem inTurn_init : init.InTurn where
  linked := fun _ => Chain.linked_new
  made := by simp [init]
  joined := by simp [InOrder, init]
  known := by simp [init, Chain.new]
  sent := by simp [init]
  calling := by simp [init, Chain.find, Chain.new]
  sends := by simp [InOrder, init]

theorem InOrder.concat {links : List Link} (h : InOrder links) {l : Link}
    (hl : ∀ l' ∈ links, l'.1 = l.1 → l'.2 < l.2) : InOrder (links ++ [l]) := by
  refine List.pairwise_append.mpr ⟨h, List.pairwise_singleton _ _, fun l' hl' x hx => ?_⟩
  obtain rfl : x = l := by simpa using hx
  exact hl l' hl'

theorem step_inTurn {s : ChainedState} {a : ChainedAction τ}
    {o : ChainedState × List (ChatCall τ)} (hi : s.InTurn) (hs : step cfg s a = some o) :
    o.1.InTurn := by
  have hlinked := step_linked hi.linked hs
  revert hlinked
  apply step_elim (motive := fun _ t _ => t.AllLinked → t.InTurn) hs
  case skipped =>
    exact fun _ _ _ h => ⟨h, hi.made, hi.joined, hi.known, hi.sent, hi.calling, hi.sends⟩
  case inbound =>
    exact fun _ _ _ _ _ h => ⟨h, hi.made, hi.joined, hi.known, hi.sent, hi.calling, hi.sends⟩
  case joined =>
    intro via event room i _ _ h
    refine ⟨h, ?_, ?_, ?_, ?_, ?_, hi.sends⟩
    · intro l hl
      rcases List.mem_append.mp hl with hl | hl
      · by_cases hroom : l.1 = room
        · simpa [chain, hroom, Chain.extend] using Nat.lt_succ_of_lt (hroom ▸ hi.made l hl)
        · simpa [chain, hroom] using hi.made l hl
      · obtain rfl : l = _ := by simpa using hl
        simp [chain, Chain.extend]
    · refine hi.joined.concat fun l hl hroom => ?_
      have hmade := hi.made l hl
      rwa [show l.1 = room from hroom] at hmade
    · intro room' r hr
      by_cases hroom : room' = room
      · subst hroom
        simp only [chain, Function.update_self] at hr
        rcases List.mem_append.mp hr with hr | hr
        · exact List.mem_append_left _ (hi.known _ r hr)
        · obtain rfl : r = _ := by simpa using hr
          exact List.mem_append_right _ (List.mem_singleton.mpr rfl)
      · simp only [chain, Function.update_of_ne hroom] at hr
        exact List.mem_append_left _ (hi.known _ r hr)
    · intro l hl
      obtain ⟨hjoined, hstate⟩ := hi.sent l hl
      refine ⟨List.mem_append_left _ hjoined, ?_⟩
      by_cases hroom : l.1 = room
      · obtain ⟨_, p⟩ := l
        obtain rfl : _ = room := hroom
        refine hstate.imp ?_ ?_
        · intro hsettled
          simpa [Settled, chain, Chain.extend] using hsettled
        · rintro ⟨r, hr, hrun⟩
          exact ⟨r, by simpa [chain] using Chain.find_extend hr event, hrun⟩
      · simpa [Settled, chain, hroom] using hstate
    · intro room' p r hr hrun
      by_cases hroom : room' = room
      · subst hroom
        rcases Chain.find_of_extend (by simpa [chain] using hr) with hr | hnone
        · exact hi.calling _ p r hr hrun
        · rw [hrun] at hnone
          cases hnone
      · exact hi.calling _ p r (by simpa [chain, hroom] using hr) hrun
  case link =>
    intro room p r b o hr hready hb h
    obtain ⟨-, hgoes⟩ := link_goes hb
    have hpending := (Chain.find_eq_some hr).1
    have hpromise := (Chain.find_eq_some hr).2
    refine ⟨h, ?_, hi.joined, ?_, ?_, ?_, ?_⟩
    · intro l hl
      by_cases hroom : l.1 = room
      · simpa [resume, hroom, Chain.goOn_made] using hroom ▸ hi.made l hl
      · simpa [resume, hroom] using hi.made l hl
    · intro room' r' hr'
      by_cases hroom : room' = room
      · subst hroom
        simp only [resume, Function.update_self] at hr'
        obtain ⟨r'', hr'', hp⟩ := Chain.mem_goOn hr'
        exact hp ▸ hi.known _ r'' hr''
      · simp only [resume, Function.update_of_ne hroom] at hr'
        exact hi.known _ r' hr'
    · intro l hl
      rcases List.mem_append.mp hl with hl | hl
      · obtain ⟨hjoined, hstate⟩ := hi.sent l hl
        refine ⟨hjoined, ?_⟩
        by_cases hroom : l.1 = room
        · obtain ⟨_, q⟩ := l
          obtain rfl : _ = room := hroom
          rcases hstate with hsettled | ⟨r', hr', hrun⟩
          · exact .inl (by simpa [Settled, resume] using Chain.settled_goOn p _ hsettled)
          · obtain ⟨rfl, rfl⟩ := (hi.linked _).ready_unique hr hready hr' fun hn => by
              rw [hrun] at hn
              cases hn
            exact .inl (by simp [Settled, resume, hgoes.ends hrun, Chain.goOn])
        · simpa [Settled, resume, hroom] using hstate
      · obtain ⟨call, hcall, rfl⟩ := List.mem_map.mp hl
        rcases hgoes.calls with hnil | ⟨name, call', -, hafter, -⟩
        · rw [hnil] at hcall
          cases hcall
        · have hknown : (room, p) ∈ s.joined := hpromise ▸ hi.known room r hpending
          refine ⟨hknown, .inr ⟨{ r with running := some .sending }, ?_, rfl⟩⟩
          simpa [resume, hafter] using (hi.linked room).find_suspend hr hready .sending
    · intro room' q r' hr' hrun
      by_cases hroom : room' = room
      · subst hroom
        rcases Chain.find_of_goOn (by simpa [resume] using hr') with hr' | ⟨rfl, hnext, -⟩
        · exact List.mem_append_left _ (hi.calling _ q r' hr' hrun)
        · obtain ⟨call, hcall⟩ := hgoes.sends (hnext.symm.trans hrun)
          exact List.mem_append_right _ (by simp [hcall])
      · exact List.mem_append_left _
          (hi.calling _ q r' (by simpa [resume, hroom] using hr') hrun)
    · rcases hgoes.calls with hnil | ⟨name, call, hbefore, -, hcalls⟩
      · simpa [resume, hnil] using hi.sends
      · rw [show (s.resume room p o).sends = s.sends ++ [(room, p)] by simp [resume, hcalls]]
        refine hi.sends.concat fun l hl hroom => ?_
        obtain ⟨_, q⟩ := l
        obtain rfl : _ = room := hroom
        rcases (hi.sent _ hl).2 with hsettled | ⟨r', hr', hrun⟩
        · exact hpromise ▸ ((hi.linked _).settled_lt hsettled).1 r hpending
        · obtain ⟨-, rfl⟩ := (hi.linked _).ready_unique hr hready hr' fun hn => by
            rw [hrun] at hn
            cases hn
          rw [hrun] at hbefore
          cases hbefore

theorem run_inTurn {as : List (ChainedAction τ)} {t : ChainedState}
    (hr : run (next cfg) init as = some t) : t.InTurn := by
  refine run_invariant_all (fun s a s' hi hs => ?_) inTurn_init hr
  obtain ⟨o, ho, rfl⟩ := Option.map_eq_some_iff.mp hs
  exact step_inTurn hi ho

/-- What may come of the calls that a delivery awaits, for each link. -/
structure Answers (τ : Type) where
  name : PromiseId → Option (Option JsString)
  content : PromiseId → τ

/-- A piece of a link of the room, with these answers. -/
def Answers.Give (e : Answers τ) (room : RoomId) : ChainedAction τ → Prop
  | .inbound _ => False
  | .link id p (.named answer) => id = room ∧ answer = e.name p
  | .link id p (.rendered content) => id = room ∧ content = e.content p
  | .link id _ _ => id = room

/-- How many pieces a link may still take. -/
def rank : Option Stage → Nat
  | none => 5
  | some .resolving => 4
  | some (.resolved _) => 3
  | some (.rendering _) => 2
  | some .sending => 1

def work (s : ChainedState) (room : RoomId) : Nat :=
  ((s.delivery room).reactions.map fun r => rank r.running).sum

theorem Goes.rank_lt {i : InboundState} {room : RoomId} {event : Event}
    {before after : Option Stage} {b : LinkAction τ} {calls : List (ChatCall τ)}
    (h : Goes i room event before b after calls) : ∀ stage, after = some stage →
      rank (some stage) < rank before := by
  intro stage hstage
  cases h with
  | start stage' hs =>
    obtain rfl := Option.some.inj hstage
    rcases hs with rfl | ⟨name, rfl⟩ <;> simp [rank]
  | unnamed | seen | gone | settled => cases hstage
  | named | fresh | send =>
    obtain rfl := Option.some.inj hstage
    simp [rank]

/-- Each piece of a link brings its room nearer to the end of the chain. -/
theorem work_lt {s : ChainedState} (hl : s.AllLinked) {room : RoomId} {p : PromiseId}
    {r : Reaction Event Stage} {b : LinkAction τ} {o : InboundState × List (ChatCall τ)}
    (hr : (s.delivery room).find p = some r) (hready : (s.delivery room).Ready r)
    (hb : InboundState.step cfg (s.inbound.focus r) (b.inRoom room) = some o) :
    (s.resume room p o).work room < s.work room := by
  obtain ⟨-, hgoes⟩ := link_goes hb
  obtain ⟨rs, hc⟩ := (hl room).head hr hready
  obtain ⟨-, rfl⟩ := Chain.find_eq_some hr
  have hdelivery : (s.resume room r.promise o).delivery room =
      (s.delivery room).goOn r.promise ((o.1.chat room).delivering.map Prod.snd) := by simp [resume]
  rw [work, work, hdelivery, hc]
  cases hnext : (o.1.chat room).delivering.map Prod.snd with
  | none =>
    rw [(hl room).reactions_settle hc]
    have hpos : 0 < rank r.running := by
      cases hrun : r.running with
      | none => decide
      | some stage => cases stage <;> simp [rank]
    simp only [List.map_cons, List.sum_cons]
    omega
  | some stage =>
    rw [(hl room).reactions_suspend hc stage]
    have hlt := hgoes.rank_lt stage hnext
    simp only [List.map_cons, List.sum_cons]
    omega

/-- The piece that a link is at. -/
def LinkAction.due (e : Answers τ) (p : PromiseId) : Option Stage → LinkAction τ
  | none => .deliver
  | some .resolving => .named (e.name p)
  | some (.resolved _) => .check
  | some (.rendering _) => .rendered (e.content p)
  | some .sending => .settled

theorem due_enabled (cfg : InboundConfig) (e : Answers τ) (i : InboundState) (room : RoomId)
    (p : PromiseId) (r : Reaction Event Stage) :
    ∃ o, InboundState.step cfg (i.focus r) ((LinkAction.due e p r.running).inRoom room) =
      some o := by
  have hdelivering : ((i.focus r).chat room).delivering =
      r.running.map fun stage => (r.job, stage) := rfl
  have hwaiting : ((i.focus r).chat room).waiting = if r.running.isNone then [r.job] else [] := rfl
  cases hrun : r.running with
  | none =>
    rw [hrun] at hdelivering hwaiting
    simp [LinkAction.due, LinkAction.inRoom, InboundState.step, hdelivering, hwaiting]
  | some stage =>
    rw [hrun] at hdelivering
    cases stage with
    | resolving =>
      cases hname : e.name p <;>
        simp [LinkAction.due, LinkAction.inRoom, InboundState.step, hdelivering, hname]
    | _ => simp [LinkAction.due, LinkAction.inRoom, InboundState.step, hdelivering]

theorem give_due (e : Answers τ) (room : RoomId) (p : PromiseId) (before : Option Stage) :
    e.Give room (.link room p (LinkAction.due e p before)) := by
  cases before with
  | none => rfl
  | some stage => cases stage <;> simp [LinkAction.due, Answers.Give]

/-- Whichever way the awaited call settles, the link at the head of the chain goes on. -/
theorem head_goes_on {s : ChainedState} (hl : s.AllLinked) (cfg : InboundConfig) (e : Answers τ)
    {room : RoomId} (hr : (s.delivery room).reactions ≠ []) :
    ∃ a s', e.Give room a ∧ next cfg s a = some s' ∧ s'.AllLinked ∧ s'.joined = s.joined ∧
      s'.work room < s.work room := by
  obtain ⟨p, r, hfind, hready⟩ := (hl room).ready hr
  obtain ⟨o, ho⟩ := due_enabled cfg e s.inbound room p r
  have hs : step cfg s (.link room p (LinkAction.due e p r.running)) =
      some (s.resume room p o, o.2) := by simp [step, hfind, hready, ho]
  refine ⟨.link room p (LinkAction.due e p r.running), s.resume room p o, give_due e room p _, ?_,
    step_linked hl hs, rfl, work_lt hl hfind hready ho⟩
  simp [next, hs]

/-- The chain runs to its end, each link in its turn; the induction is on the pieces left. -/
theorem drains (cfg : InboundConfig) (e : Answers τ) (room : RoomId) {s : ChainedState}
    (hl : s.AllLinked) :
    ∃ bs t, (∀ b ∈ bs, e.Give room b) ∧ run (next cfg) s bs = some t ∧ t.joined = s.joined ∧
      t.AllLinked ∧ (t.delivery room).reactions = [] := by
  induction hn : s.work room using Nat.strongRecOn generalizing s with
  | _ n ih =>
    by_cases hr : (s.delivery room).reactions = []
    · exact ⟨[], s, by simp, rfl, rfl, hl, hr⟩
    · obtain ⟨a, s', ha, hs', hl', hj, hlt⟩ := head_goes_on hl cfg e hr
      obtain ⟨bs, t, hbs, ht, hjt, hlt', hdone⟩ := ih (s'.work room) (hn ▸ hlt) hl' rfl
      refine ⟨a :: bs, t, ?_, run_cons_eq_some.mpr ⟨s', hs', ht⟩, hjt.trans hj, hlt', hdone⟩
      exact List.forall_mem_cons.mpr ⟨ha, hbs⟩

/-- What every step of a run keeps to. -/
structure InboundLaw (cfg : InboundConfig) (m : ChainedState) (a : ChainedAction τ)
    (m' : ChainedState) : Prop where
  /-- A message is sent when all that joined its room's chain before it have settled. -/
  sendsInTurn : ∀ l ∈ m'.sends, l ∉ m.sends → ∀ pre post,
    linksOf m.joined l.1 = pre ++ l :: post → ∀ l' ∈ pre, m.Settled l'
  /-- An event for an open room joins that room's chain, unless L1 or L2 recognises it. -/
  joins : ∀ via event, a = .inbound (.nostrEvent via event) → event.kind = 1311 →
    (∃ room, m.inbound.roomFor event = some room ∧
      m'.joined = m.joined ++ [(room, (m.delivery room).made)] ∧
      m'.delivery room = (m.delivery room).extend event) ∨
    InboundState.ownClientTag cfg event = true ∨ event.pubkey ∈ m.inbound.bridgedPubkeys ∨
    m.inbound.roomFor event = none
  /-- A link ends with its `sendMessage`, with its own failure, or because L3 recognises the
  event or the room is gone. -/
  ends : ∀ room p, ¬ m.Settled (room, p) → m'.Settled (room, p) →
    (room, p) ∈ m.sends ∨ a = .link room p (.named none) ∨
    (∃ r name, (m.delivery room).find p = some r ∧ r.running = some (.resolved name) ∧
      ((m.inbound.chat room).fingerprints.has m.inbound.now
        (FingerprintCache.key name r.job.content)).1 = true) ∨
    m.inbound.rooms.rooms.get? (m.inbound.rooms.room room).row.url ≠ some room

theorem sends_inTurn {m : ChainedState} {a : ChainedAction τ}
    {o : ChainedState × List (ChatCall τ)} (hi : m.InTurn) (hs : step cfg m a = some o) :
    ∀ l ∈ o.1.sends, l ∉ m.sends → ∀ pre post, linksOf m.joined l.1 = pre ++ l :: post →
      ∀ l' ∈ pre, m.Settled l' := by
  apply step_elim (motive := fun _ t _ => ∀ l ∈ t.sends, l ∉ m.sends → ∀ pre post,
    linksOf m.joined l.1 = pre ++ l :: post → ∀ l' ∈ pre, m.Settled l') hs
  case skipped => exact fun _ _ _ l hl hn => absurd hl hn
  case joined => exact fun _ _ _ _ _ _ l hl hn => absurd hl hn
  case inbound => exact fun _ _ _ _ _ l hl hn => absurd hl hn
  case link =>
    intro room p r b o hr hready hb l hl hn pre post hsplit l' hl'
    rcases List.mem_append.mp hl with hl | hl
    · exact absurd hl hn
    · obtain ⟨call, -, rfl⟩ := List.mem_map.mp hl
      have horder : (linksOf m.joined room).Pairwise fun l l' => l.1 = l'.1 → l.2 < l'.2 :=
        hi.joined.filter _
      rw [hsplit] at horder
      have hroom : l'.1 = room := by
        have hmem : l' ∈ linksOf m.joined room := hsplit ▸ List.mem_append_left _ hl'
        simpa [linksOf] using (List.mem_filter.mp hmem).2
      have hlt : l'.2 < p :=
        (List.pairwise_append.mp horder).2.2 l' hl' (room, p) List.mem_cons_self hroom
      rw [Settled, hroom]
      exact (hi.linked room).settled_before hr hready l'.2 hlt

theorem step_law {m : ChainedState} {a : ChainedAction τ}
    {o : ChainedState × List (ChatCall τ)} (hi : m.InTurn) (hs : step cfg m a = some o) :
    InboundLaw cfg m a o.1 := by
  refine ⟨sends_inTurn hi hs, ?_, ?_⟩
  · rintro via event rfl hkind
    obtain rfl := Option.some.inj hs
    have hseen : (m.inbound.seen via).roomFor event = m.inbound.roomFor event ∧
        (m.inbound.seen via).bridgedPubkeys = m.inbound.bridgedPubkeys := by
      cases via <;> exact ⟨rfl, rfl⟩
    by_cases hl1 : InboundState.ownClientTag cfg event = true
    · exact .inr (.inl hl1)
    · by_cases hl2 : event.pubkey ∈ m.inbound.bridgedPubkeys
      · exact .inr (.inr (.inl hl2))
      · have haddressee : (m.inbound.seen via).addressee cfg event = m.inbound.roomFor event := by
          simp [InboundState.addressee, hkind, hl1, hseen, hl2]
        cases hroom : m.inbound.roomFor event with
        | none => exact .inr (.inr (.inr rfl))
        | some room =>
          refine .inl ⟨room, rfl, ?_, ?_⟩
          · simp [handleNostrEvent, haddressee, hroom, chain]
          · simp [handleNostrEvent, haddressee, hroom, chain]
  · apply step_elim (motive := fun a t _ => ∀ room p, ¬ m.Settled (room, p) →
      t.Settled (room, p) → (room, p) ∈ m.sends ∨ a = .link room p (.named none) ∨
      (∃ r name, (m.delivery room).find p = some r ∧ r.running = some (.resolved name) ∧
        ((m.inbound.chat room).fingerprints.has m.inbound.now
          (FingerprintCache.key name r.job.content)).1 = true) ∨
      m.inbound.rooms.rooms.get? (m.inbound.rooms.room room).row.url ≠ some room) hs
    case skipped => exact fun _ _ _ _ _ hn hset => absurd hset hn
    case inbound => exact fun _ _ _ _ _ _ _ hn hset => absurd hset hn
    case joined =>
      intro via event room' i _ _ room p hn hset
      refine absurd ?_ hn
      by_cases hroom : room = room'
      · subst hroom
        simpa [Settled, chain, Chain.extend] using hset
      · simpa [Settled, chain, hroom] using hset
    case link =>
      intro room' p' r b o hr hready hb room p hn hset
      obtain ⟨-, hgoes⟩ := link_goes hb
      by_cases hroom : room = room'
      · subst hroom
        have hgo : p ∈ ((m.delivery room).goOn p'
            ((o.1.chat room).delivering.map Prod.snd)).settled := by
          simpa [Settled, resume] using hset
        cases hnext : (o.1.chat room).delivering.map Prod.snd with
        | some stage =>
          rw [hnext] at hgo
          exact absurd hgo hn
        | none =>
          rw [hnext] at hgo hgoes
          obtain rfl : p = p' := (List.mem_cons.mp hgo).resolve_right hn
          generalize hrun : r.running = before at hgoes
          generalize o.2 = calls at hgoes
          cases hgoes with
          | unnamed => exact .inr (.inl rfl)
          | seen name h => exact .inr (.inr (.inl ⟨r, name, hr, hrun, h⟩))
          | gone name content h => exact .inr (.inr (.inr h))
          | settled => exact .inl (hi.calling room p r hr hrun)
      · refine absurd ?_ hn
        simpa [Settled, resume, hroom] using hset

/-- The events of a room reach the source in the order they arrived, each after the one before
it has settled; none is dropped but for the stated reasons, and whatever becomes of one, those
behind it go on to their own end. -/
theorem inbound_fifo (cfg : InboundConfig) {as : List (ChainedAction τ)} {t : ChainedState}
    (hr : run (next cfg) init as = some t) :
    (∀ room, (linksOf t.sends room).Sublist (linksOf t.joined room)) ∧ t.joined.Nodup ∧
    (∀ as₁ a as₂ m m', as = as₁ ++ a :: as₂ → run (next cfg) init as₁ = some m →
      next cfg m a = some m' → InboundLaw cfg m a m') ∧
    ∀ (e : Answers τ) room, ∃ bs t', (∀ b ∈ bs, e.Give room b) ∧
      run (next cfg) t bs = some t' ∧ t'.joined = t.joined ∧
      ∀ l ∈ linksOf t.joined room, t'.Settled l := by
  have hi := run_inTurn hr
  have hnodup : ∀ ls : List Link, InOrder ls → ls.Nodup := fun ls h =>
    h.imp fun hlt heq => by
      subst heq
      exact Nat.lt_irrefl _ (hlt rfl)
  refine ⟨fun room => ?_, hnodup _ hi.joined, ?_, ?_⟩
  · have hsub : linksOf t.sends room ⊆ linksOf t.joined room := fun l hl =>
      List.mem_filter.mpr ⟨(hi.sent l (List.mem_filter.mp hl).1).1, (List.mem_filter.mp hl).2⟩
    have hsorted (links : List Link) (h : InOrder links) :
        (linksOf links room).Pairwise fun l l' => l.1 = l'.1 ∧ l.2 < l'.2 := by
      refine (h.filter fun l => decide (l.1 = room)).imp_of_mem fun {l l'} hl hl' hlt => ?_
      have hrooms : l.1 = l'.1 := by
        have hroom := (List.mem_filter.mp hl).2
        have hroom' := (List.mem_filter.mp hl').2
        simp_all
      exact ⟨hrooms, hlt hrooms⟩
    have hanti : Std.Antisymm fun l l' : Link => l.1 = l'.1 ∧ l.2 < l'.2 :=
      ⟨fun l l' h h' => absurd h.2 (Nat.lt_asymm h'.2)⟩
    have honce : (linksOf t.sends room).Nodup := (hnodup _ hi.sends).filter _
    exact List.sublist_of_subperm_of_pairwise (honce.subperm hsub) (hsorted _ hi.sends)
      (hsorted _ hi.joined)
  · intro as₁ a as₂ m m' _ hm hs
    obtain ⟨o, ho, rfl⟩ := Option.map_eq_some_iff.mp hs
    exact step_law (run_inTurn hm) ho
  · intro e room
    obtain ⟨bs, t', hbs, ht', hj, hl, hdone⟩ := drains cfg e room hi.linked
    refine ⟨bs, t', hbs, ht', hj, fun l hl' => ?_⟩
    have hi' : t'.InTurn := run_inTurn (run_append_eq_some.mpr ⟨t, hr, ht'⟩)
    obtain ⟨hmem, hroom⟩ := List.mem_filter.mp hl'
    obtain rfl : l.1 = room := by simpa using hroom
    rcases (hi'.linked l.1).covered l.2 (hi'.made l (hj ▸ hmem)) with hs | ⟨r, hr', -⟩
    · exact hs
    · rw [hdone] at hr'
      cases hr'

/-- The name lookup of the first event rejects; the second one is delivered. -/
def secondAfterFailure : List (ChainedAction Unit) :=
  [.inbound (.rooms .refreshRooms), .inbound (.rooms (.rows 0 (some [⟨js "u", js "oc"⟩]))),
    .inbound (.nostrEvent .local InboundState.demoEvent),
    .inbound (.nostrEvent .local { InboundState.demoEvent with id := js "02" }),
    .link 0 1 .deliver, .link 0 1 (.named none),
    .link 0 2 .deliver, .link 0 2 (.named (some none)), .link 0 2 .check, .link 0 2 (.rendered ())]

theorem inbound_fifo_second :
    ∃ t, run (next InboundState.demoConfig) init secondAfterFailure = some t ∧
      t.joined = [(0, 1), (0, 2)] ∧ t.sends = [(0, 2)] ∧
      (linksOf t.sends 0).Sublist (linksOf t.joined 0) := by
  have hrun : (run (next InboundState.demoConfig) init secondAfterFailure).map
      (fun t => (t.joined, t.sends)) = some ([(0, 1), (0, 2)], [(0, 2)]) := by decide +kernel
  obtain ⟨t, ht, hlinks⟩ := Option.map_eq_some_iff.mp hrun
  obtain ⟨hjoined, hsends⟩ := Prod.mk.inj hlinks
  exact ⟨t, ht, hjoined, hsends, (inbound_fifo InboundState.demoConfig ht).1 0⟩

end ChainedState

end LivelierBridge.Chat
