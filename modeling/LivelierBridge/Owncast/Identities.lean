import LivelierBridge.Owncast.PoolSockets
import LivelierBridge.Owncast.Delivery
import LivelierBridge.Owncast.Frames

namespace LivelierBridge.Owncast

open Framework Js

/-- The user id that the loop is about to open a socket under. -/
def Drain.dialingId : Option Drain → Option JsString
  | some (.dialing token) => some token.userId
  | _ => none

namespace PoolState

def socketUrl (s : PoolState) (w : SocketId) : JsString := (s.conn (s.socket w).conn).url

/-- Every user id that a chat socket was opened under is one the instance is known by. -/
def IdsKnown (s : PoolState) : Prop :=
  ∀ w < s.nextSocket, (s.socket w).token.userId ∈ s.getOwncastUserIds (s.socketUrl w)

def tokenOf (s : PoolState) (url pubkey : JsString) : Option ChatterToken :=
  ((s.tokens.get? url).getD .empty).get? pubkey

/-- Some socket of the instance was or is being opened under the user id. -/
def IdInUse (s : PoolState) (url userId : JsString) : Prop :=
  (∃ w < s.nextSocket, s.socketUrl w = url ∧ (s.socket w).token.userId = userId) ∨
    ∃ c < s.nextConn, (s.conn c).url = url ∧ Drain.dialingId (s.conn c).draining = some userId

/-- A registration does not answer, with another user id, for a sender whose registered id is
already in use. -/
def Unreplaced (s : PoolState) : PoolAction → Prop
  | .registered c (some token) =>
    ∀ old ∈ s.tokenOf (s.conn c).url (s.conn c).pubkey, s.IdInUse (s.conn c).url old.userId →
      old.userId = token.userId
  | _ => True

instance (s : PoolState) : Decidable s.IdsKnown :=
  inferInstanceAs (Decidable (∀ w < s.nextSocket, _))

instance (s : PoolState) (url userId : JsString) : Decidable (s.IdInUse url userId) :=
  inferInstanceAs (Decidable (_ ∨ _))

instance (s : PoolState) (a : PoolAction) : Decidable (s.Unreplaced a) :=
  match a with
  | .registered _ (some _) => inferInstanceAs (Decidable (∀ old ∈ s.tokenOf _ _, _))
  | .registered _ none | .send _ _ _ | .dial _ _ | .opened _ | .errored _ | .closing _ | .closed _
  | .resume _ | .timer _ | .settle _ | .destroyInstance _ | .destroyAll | .tick _ =>
    inferInstanceAs (Decidable True)

/-- The ids in use are known, and what is in use belongs to connections there are. -/
structure Identified (s : PoolState) : Prop where
  opened : s.IdsKnown
  owner : ∀ w < s.nextSocket, (s.socket w).conn < s.nextConn
  dialing : ∀ c id, Drain.dialingId (s.conn c).draining = some id →
    id ∈ s.getOwncastUserIds (s.conn c).url
  started : ∀ c, (s.conn c).draining ≠ none → c < s.nextConn
  mapped : ∀ url pubkey c, s.lookup url pubkey = some c → c < s.nextConn

theorem init_identified (now : Nat) : (init now).Identified := by
  constructor <;> simp [init, IdsKnown, lookup, Drain.dialingId]

theorem mem_userIds_of_tokenOf {s : PoolState} {url pubkey : JsString} {token : ChatterToken}
    (h : s.tokenOf url pubkey = some token) : token.userId ∈ s.getOwncastUserIds url := by
  have he := (OrderedMap.get?_eq_some_iff _ _ _).mp h
  exact List.mem_map.mpr ⟨token, List.mem_map.mpr ⟨(pubkey, token), he, rfl⟩, rfl⟩

/-- Moving one connection's loop or queue, its instance unchanged. -/
theorem Identified.setConn {s : PoolState} (h : s.Identified) (c : ConnId) (conn : ChatterConn)
    (hu : conn.url = (s.conn c).url)
    (hd : ∀ id, Drain.dialingId conn.draining = some id → id ∈ s.getOwncastUserIds conn.url)
    (hc : conn.draining ≠ none → c < s.nextConn) : (s.setConn c conn).Identified := by
  have self : (s.setConn c conn).conn c = conn := s.setConn_self c conn
  have other {c' : ConnId} (hne : c' ≠ c) : (s.setConn c conn).conn c' = s.conn c' :=
    s.setConn_other hne conn
  have url (c' : ConnId) : ((s.setConn c conn).conn c').url = (s.conn c').url := by
    by_cases hne : c' = c
    · subst hne
      rw [self, hu]
    · rw [other hne]
  refine ⟨fun w hw => ?_, h.owner, fun c' id hid => ?_, fun c' hc' => ?_, h.mapped⟩
  · rw [socketUrl, url]
    exact h.opened w hw
  · by_cases hne : c' = c
    · subst hne
      rw [self] at hid ⊢
      exact hd id hid
    · rw [other hne] at hid ⊢
      exact h.dialing c' id hid
  · by_cases hne : c' = c
    · subst hne
      exact hc (self ▸ hc')
    · exact h.started c' (other hne ▸ hc')

theorem Identified.setDraining {s : PoolState} (h : s.Identified) {c : ConnId}
    (hc : c < s.nextConn) {d : Drain}
    (hd : ∀ id, Drain.dialingId (some d) = some id → id ∈ s.getOwncastUserIds (s.conn c).url) :
    (s.setDraining c d).Identified := h.setConn c _ rfl hd fun _ => hc

/-- The loop goes on without an id at hand. -/
theorem Identified.setQuiet {s : PoolState} (h : s.Identified) {c : ConnId}
    (hc : c < s.nextConn) {d : Drain} (hd : Drain.dialingId (some d) = none) :
    (s.setDraining c d).Identified := by
  apply h.setDraining hc
  intro id hid
  rw [hd] at hid
  cases hid

theorem Identified.connect {s : PoolState} (h : s.Identified) {c : ConnId} (hc : c < s.nextConn) :
    (s.connect c).Identified := by
  unfold PoolState.connect
  split
  · rename_i token htoken
    apply h.setDraining hc
    intro id hid
    obtain rfl := Option.some.inj hid
    exact mem_userIds_of_tokenOf htoken
  · exact h.setQuiet hc rfl

theorem Identified.drainRest {s : PoolState} (h : s.Identified) {c : ConnId}
    (hc : c < s.nextConn) : (s.drainRest c).Identified := by
  unfold PoolState.drainRest
  split_ifs
  · exact h.setQuiet hc rfl
  · exact h.setQuiet hc rfl
  · exact h.connect hc

theorem Identified.sent {s : PoolState} (h : s.Identified) {c : ConnId} (hc : c < s.nextConn)
    (rest : List SendId) : (s.sent c rest).Identified :=
  have hset := h.setConn c { s.conn c with queue := rest, lastSentAt := s.now } rfl
    (h.dialing c) fun _ => hc
  hset.drainRest hc

theorem Identified.write {s : PoolState} (h : s.Identified) {c : ConnId} (hc : c < s.nextConn) :
    (s.write c).Identified := by
  unfold PoolState.write
  split
  · exact h.setQuiet hc rfl
  · rename_i id rest _
    split
    · exact h.sent hc rest
    · rename_i w _
      split
      · have hlog : PoolState.Identified { s with writes := s.writes ++ [⟨id, c, w, s.now⟩] } :=
          ⟨h.opened, h.owner, h.dialing, h.started, h.mapped⟩
        exact hlog.sent hc rest
      · exact h.setConn c _ rfl (fun id hid => nomatch hid) fun _ => hc
      · exact h.sent hc rest

theorem Identified.pace {s : PoolState} (h : s.Identified) {c : ConnId} (hc : c < s.nextConn) :
    (s.pace c).Identified := by
  unfold PoolState.pace
  split
  · exact h.setQuiet hc rfl
  · exact h.write hc

theorem Identified.push {s : PoolState} (h : s.Identified) {c : ConnId} (hc : c < s.nextConn)
    (body : JsString) : (s.push c body).Identified := by
  have henqueue : (s.enqueue c body).Identified := by
    have hset := h.setConn c { s.conn c with
      queue := (s.conn c).queue ++ [s.nextSend], awaiting := (s.conn c).awaiting ++ [s.nextSend] }
      rfl (h.dialing c) fun _ => hc
    exact ⟨hset.opened, hset.owner, hset.dialing, hset.started, hset.mapped⟩
  unfold PoolState.push
  split
  · unfold PoolState.drain
    split
    · exact henqueue.pace hc
    · exact henqueue.connect hc
  · exact henqueue

theorem Identified.newConn {s : PoolState} (h : s.Identified) (url pubkey : JsString) :
    (s.newConn url pubkey ((s.conns.get? url).getD .empty)).Identified := by
  have old {c : ConnId} (hc : c < s.nextConn) :
      (s.newConn url pubkey ((s.conns.get? url).getD .empty)).conn c = s.conn c := by
    simp [PoolState.newConn, Function.update_of_ne (Nat.ne_of_lt hc)]
  refine ⟨fun w hw => ?_, fun w hw => Nat.lt_succ_of_lt (h.owner w hw), fun c id hid => ?_,
    fun c hc => ?_, fun url' pubkey' c hl => ?_⟩
  · have hold := h.opened w hw
    rw [socketUrl] at hold ⊢
    exact (old (h.owner w hw)).symm ▸ hold
  · by_cases hc : c = s.nextConn
    · subst hc
      simp [PoolState.newConn, Drain.dialingId] at hid
    · simp only [PoolState.newConn, Function.update_of_ne hc] at hid ⊢
      exact h.dialing c id hid
  · by_cases heq : c = s.nextConn
    · subst heq
      exact Nat.lt_succ_self _
    · simp only [PoolState.newConn, Function.update_of_ne heq] at hc
      exact Nat.lt_succ_of_lt (h.started c hc)
  · rw [lookup_newConn] at hl
    split at hl
    · obtain rfl := Option.some.inj hl
      exact Nat.lt_succ_self _
    · exact Nat.lt_succ_of_lt (h.mapped url' pubkey' c hl)

theorem Identified.send {s : PoolState} (h : s.Identified) (url pubkey body : JsString) :
    (s.send url pubkey body).Identified := by
  unfold PoolState.send
  dsimp only
  split
  · rename_i c hget
    have hlookup : s.lookup url pubkey = some c := by rw [← lookup_getD, hget]
    exact h.push (h.mapped url pubkey c hlookup) body
  · split
    · refine ⟨h.opened, h.owner, h.dialing, h.started, fun url' pubkey' c hl => ?_⟩
      apply h.mapped url' pubkey' c
      rw [← s.lookup_overCap url]
      exact hl
    · exact (h.newConn url pubkey).push (Nat.lt_succ_self _) body

/-- Sockets may close, and connections leave the map. -/
theorem Identified.teardown {s s' : PoolState} (h : s.Identified) (hconn : s'.conn = s.conn)
    (hnext : s'.nextConn = s.nextConn) (htokens : s'.tokens = s.tokens)
    (hsockets : s'.nextSocket = s.nextSocket)
    (hsocket : ∀ w, (s'.socket w).conn = (s.socket w).conn ∧
      (s'.socket w).token = (s.socket w).token)
    (hmapped : ∀ url pubkey c, s'.lookup url pubkey = some c → s.lookup url pubkey = some c) :
    s'.Identified := by
  have hids (url : JsString) : s'.getOwncastUserIds url = s.getOwncastUserIds url := by
    rw [getOwncastUserIds, htokens]
    rfl
  refine ⟨fun w hw => ?_, fun w hw => ?_, fun c id hid => ?_, fun c hc => ?_,
    fun url pubkey c hl => ?_⟩
  · rw [hids, socketUrl, hconn, (hsocket w).1, (hsocket w).2]
    exact h.opened w (hsockets ▸ hw)
  · rw [hnext, (hsocket w).1]
    exact h.owner w (hsockets ▸ hw)
  · rw [hids, hconn]
    exact h.dialing c id (hconn ▸ hid)
  · rw [hnext]
    exact h.started c (hconn ▸ hc)
  · rw [hnext]
    exact h.mapped url pubkey c (hmapped url pubkey c hl)

theorem closeSockets_token (s : PoolState) (cs : List ConnId) (w : SocketId) :
    ((s.closeSockets cs).socket w).conn = (s.socket w).conn ∧
      ((s.closeSockets cs).socket w).token = (s.socket w).token := by
  have hclose (x : Socket) : x.close.conn = x.conn ∧ x.close.token = x.token := by
    unfold Socket.close
    split <;> exact ⟨rfl, rfl⟩
  unfold closeSockets
  dsimp only
  split
  · exact hclose (s.socket w)
  · exact ⟨rfl, rfl⟩

theorem Identified.setReadyState {s : PoolState} (h : s.Identified) (w : SocketId)
    (r : ReadyState) : (s.setReadyState w r).Identified := by
  refine h.teardown rfl rfl rfl rfl (fun x => ?_) fun _ _ _ hl => hl
  by_cases hx : x = w
  · subst hx
    simp [PoolState.setReadyState]
  · simp [PoolState.setReadyState, hx]

theorem Identified.settleConnect {s : PoolState} (h : s.Identified) (w : SocketId) {d : Drain}
    (hd : Drain.dialingId (some d) = none) : (s.settleConnect w d).Identified := by
  unfold PoolState.settleConnect
  split
  · rename_i w' hdrain
    split
    · apply h.setDraining (h.started _ (by simp [hdrain]))
      intro id hid
      rw [hd] at hid
      cases hid
    · exact h
  · exact h

theorem openSocket_url (s : PoolState) (c c' : ConnId) (token : ChatterToken) :
    ((s.openSocket c token).conn c').url = (s.conn c').url := by
  by_cases hne : c' = c
  · subst hne
    simp [PoolState.openSocket, PoolState.setConn]
  · simp [PoolState.openSocket, PoolState.setConn, hne]

theorem Identified.openSocket {s : PoolState} (h : s.Identified) {c : ConnId}
    {token : ChatterToken} (hd : (s.conn c).draining = some (.dialing token)) :
    (s.openSocket c token).Identified := by
  have hc : c < s.nextConn := h.started c (by simp [hd])
  have hset := h.setConn c { s.conn c with
    ws := some s.nextSocket, draining := some (.connecting s.nextSocket) } rfl
    (fun id hid => nomatch hid) fun _ => hc
  have hid : token.userId ∈ s.getOwncastUserIds (s.conn c).url :=
    h.dialing c token.userId (by simp [Drain.dialingId, hd])
  have hold {w : SocketId} (hw : w < s.nextSocket + 1) (hne : w ≠ s.nextSocket) :
      w < s.nextSocket := Nat.lt_of_le_of_ne (Nat.le_of_lt_succ hw) hne
  refine ⟨fun w hw => ?_, fun w hw => ?_, hset.dialing, hset.started, hset.mapped⟩
  · by_cases hne : w = s.nextSocket
    · subst hne
      rw [socketUrl, openSocket_url]
      show (Function.update s.socket s.nextSocket _ s.nextSocket).token.userId ∈
        s.getOwncastUserIds (s.conn (Function.update s.socket s.nextSocket _ s.nextSocket).conn).url
      rwa [Function.update_self]
    · rw [socketUrl, openSocket_url]
      show (Function.update s.socket s.nextSocket _ w).token.userId ∈
        s.getOwncastUserIds (s.conn (Function.update s.socket s.nextSocket _ w).conn).url
      rw [Function.update_of_ne hne]
      exact h.opened w (hold hw hne)
  · show (Function.update s.socket s.nextSocket ⟨c, token, .CONNECTING⟩ w).conn < s.nextConn
    by_cases hne : w = s.nextSocket
    · subst hne
      simpa using hc
    · simpa [hne] using h.owner w (hold hw hne)

theorem tokenOf_setToken (s : PoolState) (url pubkey url' pubkey' : JsString)
    (token : ChatterToken) : (s.setToken url pubkey token).tokenOf url' pubkey' =
      if url' = url ∧ pubkey' = pubkey then some token else s.tokenOf url' pubkey' := by
  by_cases hu : url' = url
  · subst hu
    simp [tokenOf, PoolState.setToken, OrderedMap.get?_set]
  · simp [tokenOf, PoolState.setToken, OrderedMap.get?_set, hu]

/-- A registration adds its own id; the one it may replace was not in use. -/
theorem Identified.setToken {s : PoolState} (h : s.Identified) {url pubkey : JsString}
    {token : ChatterToken}
    (hg : ∀ old ∈ s.tokenOf url pubkey, s.IdInUse url old.userId → old.userId = token.userId) :
    (s.setToken url pubkey token).Identified ∧
      token.userId ∈ (s.setToken url pubkey token).getOwncastUserIds url := by
  have hself : (s.setToken url pubkey token).tokenOf url pubkey = some token := by
    simp [tokenOf_setToken]
  have hnew := mem_userIds_of_tokenOf hself
  have hkeep {url' id : JsString} (hid : id ∈ s.getOwncastUserIds url')
      (hu : s.IdInUse url' id) : id ∈ (s.setToken url pubkey token).getOwncastUserIds url' := by
    obtain ⟨old, hold, rfl⟩ := List.mem_map.mp hid
    obtain ⟨e, he, rfl⟩ := List.mem_map.mp hold
    have hget : s.tokenOf url' e.1 = some e.2 := (OrderedMap.get?_eq_some_iff _ _ _).mpr he
    by_cases hsame : url' = url ∧ e.1 = pubkey
    · obtain ⟨rfl, hp⟩ := hsame
      rw [hg e.2 (hp ▸ hget) hu]
      exact hnew
    · apply mem_userIds_of_tokenOf
      rw [tokenOf_setToken, if_neg hsame]
      exact hget
  refine ⟨⟨fun w hw => hkeep (h.opened w hw) (.inl ⟨w, hw, rfl, rfl⟩), h.owner,
    fun c id hid => hkeep (h.dialing c id hid) (.inr ⟨c, h.started c ?_, rfl, hid⟩), h.started,
    h.mapped⟩, hnew⟩
  intro hnone
  have hid' : Drain.dialingId (s.conn c).draining = some id := hid
  rw [hnone] at hid'
  cases hid'

/-- The socket is gone, and its connection forgets whichever it holds. -/
theorem Identified.closed {s : PoolState} (h : s.Identified) (w : SocketId) :
    ((s.setReadyState w .CLOSED).setConn (s.socket w).conn
      { s.conn (s.socket w).conn with ws := none }).Identified :=
  (h.setReadyState w .CLOSED).setConn (s.socket w).conn { s.conn (s.socket w).conn with ws := none }
    rfl (h.dialing _) (h.started _)

theorem Identified.settleSends {s : PoolState} (h : s.Identified) (c : ConnId)
    (status : SendStatus) : (s.settleSends c status).Identified :=
  have hset := h.setConn c { s.conn c with draining := none, awaiting := [] } rfl
    (fun _ hid => nomatch hid) fun hne => absurd rfl hne
  ⟨hset.opened, hset.owner, hset.dialing, hset.started, hset.mapped⟩

theorem step_identified {s s' : PoolState} {a : PoolAction} (h : s.Identified)
    (hg : s.Unreplaced a) (hs : s.step a = some s') : s'.Identified := by
  revert hg
  apply step_elim (motive := fun a s' => s.Unreplaced a → s'.Identified) hs
  case send => exact fun url pubkey body _ => h.send url pubkey body
  case unregistered =>
    intro c hd _
    exact h.setQuiet (h.started c (by simp [hd])) rfl
  case registered =>
    intro c token hd hg
    obtain ⟨hset, hid⟩ := h.setToken hg
    apply hset.setDraining (h.started c (by simp [hd]))
    intro id heq
    obtain rfl := Option.some.inj heq
    exact hid
  case undialed =>
    intro c token hd _
    exact h.setQuiet (h.started c (by simp [hd])) rfl
  case dialed => exact fun c token hd _ => h.openSocket hd
  case opened => exact fun w _ _ => (h.setReadyState w .OPEN).settleConnect w rfl
  case errored => exact fun w _ => (h.setReadyState w .CLOSING).settleConnect w rfl
  case closing => exact fun w _ => h.setReadyState w .CLOSING
  case closed => exact fun w _ => h.closed w
  case resume =>
    intro c hd _
    exact h.pace (h.started c (by simp [hd]))
  case timer =>
    intro c _ hd _
    exact h.write (h.started c (by simp [hd]))
  case fulfilled => exact fun c _ _ => h.settleSends c .fulfilled
  case rejected => exact fun c _ _ => h.settleSends c .rejected
  case destroyInstance =>
    intro url _
    refine h.teardown rfl rfl rfl rfl (s.closeSockets_token _) fun url' pubkey c hl => ?_
    rw [lookup_destroyInstance] at hl
    split at hl
    · cases hl
    · exact hl
  case destroyAll =>
    intro _
    refine h.teardown rfl rfl rfl rfl (s.closeSockets_token _) fun url pubkey c hl => ?_
    cases hl
  case tick => exact fun _ _ => ⟨h.opened, h.owner, h.dialing, h.started, h.mapped⟩

end PoolState

section Filter

variable {ν : Type} [JsNumber ν] (L : Listener ν)

/-- What the adapter passes on of a frame is by nobody whom the pool registered. -/
theorem pooled_filtered {s : PoolState} {url userId : JsString}
    (hL : L.owncastUserIds = (s.getOwncastUserIds url).map Json.str)
    (hid : userId ∈ s.getOwncastUserIds url) (displayName : Json ν) (body : JsString) :
    L.onChat (.str userId) displayName body = .ok none ∧
      L.onJoin (.str userId) displayName = none := by
  have hpooled : L.isPooled (.str userId) = true := by
    apply List.any_eq_true.mpr
    exact ⟨.str userId, hL ▸ List.mem_map_of_mem hid, by simp [Json.same]⟩
  exact ⟨by simp [Listener.onChat, hpooled], by simp [Listener.onJoin, hpooled]⟩

end Filter

namespace PoolState

/-- Every id that a chat socket was opened under is known, and so the adapter passes on nothing
that the instance broadcasts for it. -/
def EchoFree (ν : Type) [JsNumber ν] (s : PoolState) : Prop :=
  s.IdsKnown ∧ ∀ w < s.nextSocket, ∀ L : Listener ν,
    L.owncastUserIds = (s.getOwncastUserIds (s.socketUrl w)).map Json.str →
    ∀ displayName body, L.onChat (.str (s.socket w).token.userId) displayName body = .ok none ∧
      L.onJoin (.str (s.socket w).token.userId) displayName = none

theorem IdsKnown.echoFree (ν : Type) [JsNumber ν] {s : PoolState} (h : s.IdsKnown) :
    s.EchoFree ν :=
  ⟨h, fun w hw L hL displayName body => pooled_filtered L hL (h w hw) displayName body⟩

/-- Where no registration replaces an id that is in use, the pool never reads its own messages
back. -/
theorem unreplaced_echoFree (ν : Type) [JsNumber ν] (now : Nat) {as : List PoolAction}
    {t : PoolState} (hg : Guarded step Unreplaced (init now) as)
    (hr : run step (init now) as = some t) : t.EchoFree ν := by
  have hid : t.Identified := run_invariant (fun _ _ _ h hg hs => step_identified h hg hs)
    (init_identified now) hg hr
  exact hid.opened.echoFree ν

def demoToken : ChatterToken := ⟨js "t1", js "id1"⟩

/-- The sender comes back to a room that was closed and opened again, with the id it has. -/
def returns : List PoolAction :=
  [.send (js "https://a.example") (js "p") (js "<p>hi</p>"), .registered 0 (some demoToken),
    .dial 0 true, .destroyAll, .send (js "https://a.example") (js "p") (js "<p>ho</p>"),
    .dial 1 true]

theorem unreplaced_echoFree_returns :
    ∃ t, run step (init 0) returns = some t ∧ t.nextSocket = 2 ∧ t.EchoFree Int :=
  have hg : Guarded step Unreplaced (init 0) returns := by decide +kernel
  ⟨_, rfl, rfl, unreplaced_echoFree Int 0 hg rfl⟩

/-- The room is closed and opened again before the first registration has answered, so the sender
registers twice, and the second answer replaces the id that the first socket speaks under. -/
def registersTwice : List PoolAction :=
  [.send (js "https://a.example") (js "p") (js "<p>hi</p>"), .destroyAll,
    .send (js "https://a.example") (js "p") (js "<p>ho</p>"), .registered 0 (some demoToken),
    .dial 0 true, .registered 1 (some ⟨js "t2", js "id2"⟩)]

theorem echoFree_fails_registersTwice :
    ∃ t, run step (init 0) registersTwice = some t ∧ ¬t.EchoFree Int := by
  refine ⟨_, rfl, fun h => ?_⟩
  have hknown := h.1 0 (by decide)
  revert hknown
  decide +kernel

end PoolState

end LivelierBridge.Owncast
