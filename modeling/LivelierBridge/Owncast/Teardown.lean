import LivelierBridge.Owncast.Adapter
import LivelierBridge.Owncast.PoolSockets

namespace LivelierBridge.Owncast

open Framework Js Chat

namespace PoolState

theorem connect_conns (s : PoolState) (c : ConnId) : (s.connect c).conns = s.conns := by
  unfold connect
  split <;> rfl

theorem drainRest_conns (s : PoolState) (c : ConnId) : (s.drainRest c).conns = s.conns := by
  unfold drainRest
  split_ifs
  · rfl
  · rfl
  · exact s.connect_conns c

theorem write_conns (s : PoolState) (c : ConnId) : (s.write c).conns = s.conns := by
  unfold write
  cases (s.conn c).queue with
  | nil => rfl
  | cons id rest =>
    cases (s.conn c).ws with
    | none => exact drainRest_conns _ c
    | some w =>
      dsimp only
      split
      · exact drainRest_conns _ c
      · rfl
      · exact drainRest_conns _ c

theorem pace_conns (s : PoolState) (c : ConnId) : (s.pace c).conns = s.conns := by
  unfold pace
  split_ifs
  · rfl
  · exact s.write_conns c

theorem push_conns (s : PoolState) (c : ConnId) (body : JsString) :
    (s.push c body).conns = s.conns := by
  unfold push
  split
  · unfold drain
    split_ifs
    · exact pace_conns _ c
    · exact connect_conns _ c
  · rfl

theorem settleConnect_conns (s : PoolState) (w : SocketId) (d : Drain) :
    (s.settleConnect w d).conns = s.conns := by
  unfold settleConnect
  split
  · split_ifs <;> rfl
  · rfl

/-- Only the adapter's calls touch the map. -/
theorem step_conns {s s' : PoolState} {a : PoolAction} (ha : a.internal = true)
    (hs : s.step a = some s') : s'.conns = s.conns := by
  revert ha
  apply step_elim (motive := fun a s' => a.internal = true → s'.conns = s.conns) hs
  case send | destroyInstance | destroyAll =>
    intros
    contradiction
  case opened => exact fun w _ _ => settleConnect_conns _ w _
  case errored => exact fun w _ => settleConnect_conns _ w _
  case resume => exact fun c _ _ => s.pace_conns c
  case timer => exact fun c _ _ _ => s.write_conns c
  all_goals
    intros
    rfl

theorem lookup_send_of_ne (s : PoolState) {url url' : JsString} (h : url' ≠ url)
    (pubkey body pubkey' : JsString) :
    (s.send url pubkey body).lookup url' pubkey' = s.lookup url' pubkey' := by
  unfold send
  dsimp only
  split
  · rw [lookup, push_conns, lookup]
  · split_ifs
    · simp [lookup, OrderedMap.get?_set_of_ne _ h]
    · rw [lookup, push_conns]
      simp [newConn, lookup, OrderedMap.get?_set_of_ne _ h]

end PoolState

namespace BridgeState

variable {τ ε : Type}

/-- The connections in the map and the rendering of messages when the adapter closes the
instances of `calls`: no message is between the liveness check and `pool.send`, and no loop
would dial again. -/
def CleanClose (s : BridgeState τ) (calls : List (ChatCall τ)) : Prop :=
  (∀ e ∈ s.sending.entries, match e.2 with
    | .emoji url _ _ => closes calls url = false
    | .pool _ => True) ∧
  ∀ c < s.pool.nextConn, s.pool.Mapped c → closes calls (s.pool.conn c).url = true → s.pool.Quiet c

/-- The adapter closes an instance only while nothing for it is under way, and no close event
comes after its connection has reconnected. -/
def Settled (cfg : InboundConfig) (s : BridgeState τ) : BridgeAction τ ε → Prop
  | .inbound a => ∀ o ∈ s.inbound.step cfg a, s.CleanClose o.2
  | .emoji _ _ => True
  | .pool a => s.pool.CurrentClose a

instance (s : BridgeState τ) (calls : List (ChatCall τ)) : Decidable (s.CleanClose calls) :=
  have (e : RoomId × Sending τ) : Decidable (match e.2 with
      | .emoji url _ _ => closes calls url = false
      | .pool _ => True) :=
    match e with
    | (_, .emoji url _ _) => inferInstanceAs (Decidable (closes calls url = false))
    | (_, .pool _) => inferInstanceAs (Decidable True)
  inferInstanceAs (Decidable (_ ∧ _))

instance (cfg : InboundConfig) (s : BridgeState τ) :
    (a : BridgeAction τ ε) → Decidable (s.Settled cfg a)
  | .inbound a => inferInstanceAs (Decidable (∀ o ∈ s.inbound.step cfg a, _))
  | .emoji _ _ => inferInstanceAs (Decidable True)
  | .pool a => inferInstanceAs (Decidable (s.pool.CurrentClose a))

/-- After `closeRoom` or `closeAll`, until the room opens again, the pool dials the instance no
more, and every socket of it is closed or owned by a connection in the map. -/
structure TornDown (s : BridgeState τ) : Prop where
  silent : s.late = []
  owned : ∀ url, s.closed url = true → ∀ w, (s.pool.conn (s.pool.socket w).conn).url = url →
    (s.pool.socket w).live = true → s.pool.Mapped (s.pool.socket w).conn ∧
      (s.pool.conn (s.pool.socket w).conn).ws = some w

structure BridgeTidy (s : BridgeState τ) : Prop where
  pool : s.pool.Tidy
  shut : ∀ url, s.closed url = true →
    s.inbound.rooms.rooms.has url = false ∧ ∀ pubkey, s.pool.lookup url pubkey = none
  still : ∀ room url senderKey content,
    s.sending.get? room = some (.emoji url senderKey content) → s.closed url = false
  silent : s.late = []

theorem init_tidy (now : Nat) : (init τ now).BridgeTidy :=
  ⟨PoolState.init_tidy now, by simp [init], by simp [init], rfl⟩

theorem BridgeTidy.tornDown {s : BridgeState τ} (h : s.BridgeTidy) : s.TornDown :=
  ⟨h.silent, fun _ _ w _ hl => ⟨(h.pool.owned w hl).2, (h.pool.owned w hl).1⟩⟩

/-- The pool after the adapter's teardown calls. -/
def tearDown (p : PoolState) : List AdapterCall → PoolState
  | [] => p
  | .closeRoom url :: cs => tearDown (p.destroyInstance url) cs
  | .closeAll :: cs => tearDown p.destroyAll cs
  | _ :: cs => tearDown p cs

theorem foldl_call (r : Rendering τ ε) (s : BridgeState τ) (cs : List AdapterCall) :
    (cs.map ChatCall.rooms).foldl (call r) s = { s with pool := tearDown s.pool cs } := by
  induction cs generalizing s with
  | nil => rfl
  | cons c cs ih => cases c <;> simp [call, ih, tearDown]

def shuts (cs : List AdapterCall) (url : JsString) : Bool :=
  cs.any fun
    | .closeRoom url' => url' = url
    | .closeAll => true
    | _ => false

theorem closes_rooms (cs : List AdapterCall) (url : JsString) :
    closes (cs.map ChatCall.rooms : List (ChatCall τ)) url = shuts cs url := by
  induction cs with
  | nil => rfl
  | cons c cs ih =>
    simp only [closes, List.map_cons, List.any_cons, shuts] at ih ⊢
    rw [ih]
    cases c <;> rfl

theorem shuts_cons (c : AdapterCall) (cs : List AdapterCall) (url : JsString) :
    shuts (c :: cs) url = (shuts [c] url || shuts cs url) := by
  simp [shuts]

/-- Closing quiet connections keeps the pool tidy and empties the map for their instances. -/
theorem tearDown_tidy {p : PoolState} (cs : List AdapterCall) (h : p.Tidy)
    (hq : ∀ c, p.Mapped c → shuts cs (p.conn c).url = true → p.Quiet c) :
    (tearDown p cs).Tidy ∧ ∀ url pubkey, (tearDown p cs).lookup url pubkey =
      if shuts cs url then none else p.lookup url pubkey := by
  induction cs generalizing p with
  | nil => exact ⟨h, fun _ _ => by simp [shuts, tearDown]⟩
  | cons c cs ih =>
    have step {p' : PoolState} (ht : p'.Tidy) (hconn : p'.conn = p.conn)
        (hlook : ∀ url pubkey, p'.lookup url pubkey =
          if shuts [c] url then none else p.lookup url pubkey) :
        (tearDown p' cs).Tidy ∧ ∀ url pubkey, (tearDown p' cs).lookup url pubkey =
          if shuts (c :: cs) url then none else p.lookup url pubkey := by
      have hq' (c' : ConnId) (hm : p'.Mapped c') (hc : shuts cs (p'.conn c').url = true) :
          p'.Quiet c' := by
        rw [PoolState.Mapped, hlook, hconn] at hm
        split_ifs at hm
        rw [hconn] at hc
        rw [PoolState.Quiet, hconn]
        exact hq c' hm (by rw [shuts_cons, hc, Bool.or_true])
      obtain ⟨ht', hl'⟩ := ih ht hq'
      refine ⟨ht', fun url pubkey => ?_⟩
      rw [hl', hlook, shuts_cons c cs]
      cases shuts [c] url <;> cases shuts cs url <;> rfl
    cases c with
    | openListener url => exact step h rfl fun _ _ => by simp [shuts]
    | stopListener l => exact step h rfl fun _ _ => by simp [shuts]
    | closeRoom url =>
      refine step (h.destroyInstance url fun c hm hu => hq c hm ?_) rfl ?_
      · simp [shuts, hu]
      · intro url' pubkey
        rw [PoolState.lookup_destroyInstance]
        by_cases hu : url' = url <;> simp [shuts, hu, eq_comm]
    | closeAll =>
      refine step (h.destroyAll fun c hm => hq c hm ?_) rfl ?_
      · simp [shuts]
      · intro url' pubkey
        simp [shuts, PoolState.destroyAll, PoolState.lookup]

/-- The adapter calls of one step of the chat service: those of the room machine, or one
`sendMessage` for an open room. -/
theorem inbound_calls {cfg : InboundConfig} {s : InboundState} {a : InboundAction τ}
    {o : InboundState × List (ChatCall τ)} (h : s.step cfg a = some o) :
    (∃ cs : List AdapterCall, o.2 = cs.map ChatCall.rooms) ∨
    (∃ room url senderKey displayName content, o.1.rooms = s.rooms ∧
      s.rooms.rooms.has url = true ∧
      o.2 = [.sendMessage room url senderKey displayName content]) := by
  apply InboundState.step_elim (motive := fun _ s' calls =>
    (∃ cs : List AdapterCall, calls = cs.map ChatCall.rooms) ∨
    (∃ room url senderKey displayName content, s'.rooms = s.rooms ∧
      s.rooms.rooms.has url = true ∧
      calls = [.sendMessage room url senderKey displayName content])) h
  case rooms => exact fun _ r _ => .inl ⟨r.2, rfl⟩
  case rendered =>
    intro room event displayName content _
    unfold InboundState.sendMessage
    dsimp only
    split_ifs with hne
    · exact .inl ⟨[], rfl⟩
    · refine .inr ⟨room, _, _, _, content, rfl, ?_, rfl⟩
      rw [OrderedMap.has, not_not.mp hne]
      rfl
  all_goals
    intros
    exact .inl ⟨[], rfl⟩

theorem BridgeTidy.poolSend {s : BridgeState τ} (h : s.BridgeTidy) {url : JsString}
    (hopen : s.closed url = false) (room : RoomId) (senderKey html : JsString) :
    (s.poolSend room url senderKey html).BridgeTidy := by
  refine ⟨h.pool.send url senderKey html, ?_, ?_, h.silent⟩
  · intro url' hcl
    have hne : url' ≠ url := by
      rintro rfl
      exact absurd (hopen.symm.trans hcl) (by decide)
    refine ⟨(h.shut url' hcl).1, fun pubkey => ?_⟩
    exact (PoolState.lookup_send_of_ne s.pool hne _ _ pubkey).trans ((h.shut url' hcl).2 pubkey)
  · intro room' url' senderKey' content hg
    simp only [BridgeState.poolSend, OrderedMap.get?_set] at hg
    split_ifs at hg
    · simp at hg
    · exact h.still room' url' senderKey' content hg

/-- The chat service's half of a step keeps the bridge tidy when it closes cleanly. -/
theorem BridgeTidy.serve {cfg : InboundConfig} {s : BridgeState τ} (h : s.BridgeTidy)
    (r : Rendering τ ε) {a : InboundAction τ} {o : InboundState × List (ChatCall τ)}
    (ho : s.inbound.step cfg a = some o) (hc : s.CleanClose o.2) :
    (s.serve r o.1 o.2).BridgeTidy := by
  have still' (url : JsString) (hcl : ((s.closed url || closes o.2 url) &&
      !o.1.rooms.rooms.has url) = true) : o.1.rooms.rooms.has url = false ∧
      (s.closed url = true ∨ closes o.2 url = true) := by
    simpa [and_comm] using hcl
  rcases inbound_calls ho with ⟨cs, hcs⟩ | ⟨room, url, senderKey, displayName, content, hrooms,
    hopen, hcs⟩
  · have hpool := tearDown_tidy cs h.pool fun c hm hs =>
      hc.2 c (h.pool.known _ _ c hm).1 hm (by rwa [hcs, closes_rooms])
    have hs : s.serve r o.1 o.2 = { s with
        inbound := o.1
        pool := tearDown s.pool cs
        closed := fun url => (s.closed url || closes o.2 url) && !o.1.rooms.rooms.has url } := by
      rw [BridgeState.serve, hcs, foldl_call]
    rw [hs]
    refine ⟨hpool.1, ?_, ?_, h.silent⟩
    · intro url hcl
      obtain ⟨hno, hcl⟩ := still' url hcl
      refine ⟨hno, fun pubkey => ?_⟩
      have hrooms : closes (cs.map ChatCall.rooms : List (ChatCall τ)) url = shuts cs url :=
        closes_rooms cs url
      rw [hpool.2, ← hrooms, ← hcs]
      split_ifs with hclose
      · rfl
      · exact (h.shut url (hcl.resolve_right hclose)).2 pubkey
    · intro room url senderKey content hg
      have hold := h.still room url senderKey content hg
      have hkeep : closes o.2 url = false :=
        hc.1 (room, _) ((s.sending.get?_eq_some_iff room _).mp hg)
      simp [hold, hkeep]
  · have hopen' : s.closed url = false := by
      cases hcl : s.closed url with
      | false => rfl
      | true => exact absurd (hopen.symm.trans (h.shut url hcl).1) (by decide)
    let s₁ : BridgeState τ := { s with
      inbound := o.1
      closed := fun url => (s.closed url || closes o.2 url) && !o.1.rooms.rooms.has url }
    have same {url' : JsString} (hcl : s₁.closed url' = true) : s.closed url' = true := by
      obtain ⟨-, hcl⟩ := still' url' hcl
      exact hcl.resolve_right (by simp [hcs, closes])
    have hs₁ : s₁.BridgeTidy := by
      refine ⟨h.pool, ?_, ?_, h.silent⟩
      · intro url' hcl
        exact ⟨(still' url' hcl).1, (h.shut url' (same hcl)).2⟩
      · intro room' url' senderKey' content' hg
        have hold := h.still room' url' senderKey' content' hg
        cases hcl : s₁.closed url' with
        | false => rfl
        | true => exact absurd (hold.symm.trans (same hcl)) (by decide)
    have hopen₁ : s₁.closed url = false := by
      cases hcl : s₁.closed url with
      | false => rfl
      | true => exact absurd (hopen'.symm.trans (same hcl)) (by decide)
    have hs : s.serve r o.1 o.2 =
        call r s₁ (.sendMessage room url senderKey displayName content) := by
      simp only [BridgeState.serve, hcs, List.foldl_cons, List.foldl_nil, call, s₁]
      split_ifs <;> rfl
    rw [hs, call]
    split_ifs
    · refine ⟨hs₁.pool, hs₁.shut, ?_, hs₁.silent⟩
      intro room' url' senderKey' content' hg
      simp only [OrderedMap.get?_set] at hg
      split_ifs at hg
      · obtain ⟨rfl, -, -⟩ : url = url' ∧ senderKey = senderKey' ∧ content = content' := by
          simpa using hg
        exact hopen₁
      · exact hs₁.still room' url' senderKey' content' hg
    · exact hs₁.poolSend hopen₁ room senderKey _

/-- A connection that dials is in the map, so its instance was not closed. -/
theorem BridgeTidy.dialsLate {s : BridgeState τ} (h : s.BridgeTidy) {a : PoolAction}
    {p : PoolState} (hp : s.pool.step a = some p) : s.dialsLate a = [] := by
  unfold BridgeState.dialsLate
  split
  case _ c =>
    simp only [PoolState.step] at hp
    split at hp
    case _ token hd =>
      have hm : s.pool.Mapped c := by
        by_contra hm
        have hq := h.pool.retired c hm
        rw [PoolState.Quiet, hd] at hq
        exact hq
      rw [if_neg]
      intro hcl
      have hnone := (h.shut _ hcl).2 (s.pool.conn c).pubkey
      rw [PoolState.Mapped, hnone] at hm
      cases hm
    case _ => cases hp
  case _ => rfl

theorem step_tidy {cfg : InboundConfig} {r : Rendering τ ε} {s s' : BridgeState τ}
    {a : BridgeAction τ ε} (h : s.BridgeTidy) (hg : s.Settled cfg a)
    (hs : s.step cfg r a = some s') : s'.BridgeTidy := by
  cases a with
  | inbound a =>
    have served (a : InboundAction τ) (hg : s.Settled cfg (.inbound a : BridgeAction τ ε))
        (hs : ((s.inbound.step cfg a).map fun o => s.serve r o.1 o.2) = some s') :
        s'.BridgeTidy := by
      obtain ⟨o, ho, rfl⟩ := Option.map_eq_some_iff.mp hs
      exact h.serve r ho (hg o ho)
    cases a with
    | settled room =>
      simp only [step] at hs
      split_ifs at hs
      obtain ⟨o, ho, rfl⟩ := Option.map_eq_some_iff.mp hs
      have hserve := h.serve r ho (hg o ho)
      have hnil : o = (s.inbound.endLink room, []) := by
        simp only [InboundState.step] at ho
        split at ho
        · exact (Option.some.inj ho).symm
        · cases ho
      refine ⟨hserve.pool, hserve.shut, ?_, hserve.silent⟩
      intro room' url senderKey content hm
      simp only [OrderedMap.get?_delete] at hm
      split_ifs at hm
      subst hnil
      exact hserve.still room' url senderKey content hm
    | rooms _ => exact served _ hg hs
    | tick _ => exact served _ hg hs
    | nostrEvent _ _ => exact served _ hg hs
    | deliver _ => exact served _ hg hs
    | named _ _ => exact served _ hg hs
    | check _ => exact served _ hg hs
    | rendered _ _ => exact served _ hg hs
    | sourceChat _ _ _ => exact served _ hg hs
    | sourceJoin _ _ _ => exact served _ hg hs
  | emoji room list =>
    simp only [step] at hs
    split at hs
    case _ url senderKey content hm =>
      obtain rfl := Option.some.inj hs
      exact h.poolSend (h.still room url senderKey content hm) room senderKey _
    case _ => cases hs
  | pool a =>
    simp only [step] at hs
    split_ifs at hs with hint
    obtain ⟨p, hp, rfl⟩ := Option.map_eq_some_iff.mp hs
    have hconns : p.conns = s.pool.conns := PoolState.step_conns hint hp
    have htidy : p.Tidy := PoolState.step_tidy h.pool hg
      (fun url ha => by simp [ha, PoolAction.internal] at hint)
      (fun ha => by simp [ha, PoolAction.internal] at hint) hp
    refine ⟨htidy, ?_, h.still, ?_⟩
    · intro url hcl
      refine ⟨(h.shut url hcl).1, fun pubkey => ?_⟩
      rw [PoolState.lookup, hconns]
      exact (h.shut url hcl).2 pubkey
    · simp [h.silent, h.dialsLate hp]

/-- When the adapter closes instances only while nothing for them is under way, teardown is
final: no later dial, and no socket left behind. -/
theorem settled_tornDown (cfg : InboundConfig) (r : Rendering τ ε) (now : Nat)
    {as : List (BridgeAction τ ε)} {t : BridgeState τ}
    (hg : Guarded (step cfg r) (Settled cfg) (init τ now) as)
    (hr : run (step cfg r) (init τ now) as = some t) : t.TornDown :=
  (run_invariant (fun _ _ _ h hg hs => step_tidy h hg hs) (init_tidy now) hg hr).tornDown

def demoRendering : Rendering JsString Unit := ⟨fun c => c.contains 58, fun c _ => c⟩

def demoConfig : InboundConfig := ⟨⟨js "b", false, false⟩, js "livelier"⟩

def demoEvent : Nostr.Event :=
  ⟨js "01", js "a1", 0, 1311, [[js "a", js "30311:b:oc"]], js "hi", []⟩

/-- One room opens and one message is rendered for its source. -/
def messageFor (url content : JsString) : List (BridgeAction JsString Unit) :=
  [.inbound (.rooms .refreshRooms), .inbound (.rooms (.rows 0 (some [⟨url, js "oc"⟩]))),
    .inbound (.nostrEvent .local demoEvent), .inbound (.deliver 0), .inbound (.named 0 (some none)),
    .inbound (.check 0), .inbound (.rendered 0 content)]

/-- The message is delivered before the service stops. -/
theorem settled_tornDown_delivered :
    ∃ t, run (step demoConfig demoRendering) (init JsString 1000)
      (messageFor (js "u") (js "hi") ++
        [.pool (.registered 0 (some ⟨js "t", js "u"⟩)), .pool (.dial 0 true), .pool (.opened 0),
          .pool (.resume 0), .pool (.settle 0), .inbound (.settled 0),
          .inbound (.rooms .stop)]) = some t ∧ t.closed (js "u") = true ∧ t.TornDown := by
  have hrun : (run (step demoConfig demoRendering) (init JsString 1000)
      (messageFor (js "u") (js "hi") ++
        [.pool (.registered 0 (some ⟨js "t", js "u"⟩)), .pool (.dial 0 true), .pool (.opened 0),
          .pool (.resume 0), .pool (.settle 0), .inbound (.settled 0),
          .inbound (.rooms .stop)])).map (fun t => t.closed (js "u")) = some true := by decide
  obtain ⟨t, ht, hc⟩ := Option.map_eq_some_iff.mp hrun
  exact ⟨t, ht, hc, settled_tornDown demoConfig demoRendering 1000 (by decide) ht⟩

/-- The service stops while the sender is being registered: the answer still opens a socket. -/
theorem tornDown_fails_stop_during_register :
    ∃ t, run (step demoConfig demoRendering) (init JsString 1000)
      (messageFor (js "u") (js "hi") ++
        [.inbound (.rooms .stop), .pool (.registered 0 (some ⟨js "t", js "u"⟩)),
          .pool (.dial 0 true), .pool (.opened 0)]) = some t ∧ ¬t.TornDown := by
  have hrun : (run (step demoConfig demoRendering) (init JsString 1000)
      (messageFor (js "u") (js "hi") ++
        [.inbound (.rooms .stop), .pool (.registered 0 (some ⟨js "t", js "u"⟩)),
          .pool (.dial 0 true), .pool (.opened 0)])).map (fun t => t.late) = some [0] := by decide
  obtain ⟨t, ht, hc⟩ := Option.map_eq_some_iff.mp hrun
  exact ⟨t, ht, fun h => by simp [h.silent] at hc⟩

end BridgeState

end LivelierBridge.Owncast
