import LivelierBridge.Owncast.ChatPool

namespace LivelierBridge.Owncast

open Framework Js

/-- The loop is about to open a socket. -/
def Drain.dials : Option Drain → Bool
  | some .registering | some (.dialing _) => true
  | _ => false

namespace PoolState

/-- The connection is still in the pool's map. -/
def Mapped (s : PoolState) (c : ConnId) : Prop :=
  s.lookup (s.conn c).url (s.conn c).pubkey = some c

/-- A loop that dials no more once its socket is closed. -/
def QuietAt (queued : Nat) : Option Drain → Prop
  | some .registering | some (.dialing _) => False
  | some .connected | some (.pacing _) => queued ≤ 1
  | _ => True

def Quiet (s : PoolState) (c : ConnId) : Prop := QuietAt (s.conn c).queue.length (s.conn c).draining

/-- No live socket belongs to the connection. -/
def Offline (s : PoolState) (c : ConnId) : Prop :=
  ∀ w, (s.socket w).live = true → (s.socket w).conn ≠ c

instance (s : PoolState) (c : ConnId) : Decidable (s.Mapped c) :=
  inferInstanceAs (Decidable (_ = _))

instance (n : Nat) : (d : Option Drain) → Decidable (QuietAt n d)
  | some .registering | some (.dialing _) => inferInstanceAs (Decidable False)
  | some .connected | some (.pacing _) => inferInstanceAs (Decidable (n ≤ 1))
  | none | some (.connecting _) | some .failed | some .finished =>
    inferInstanceAs (Decidable True)

instance (s : PoolState) (c : ConnId) : Decidable (s.Quiet c) :=
  inferInstanceAs (Decidable (QuietAt _ _))

/-- Every live socket is the one of a connection in the map, and a connection that left the map
never dials again. -/
structure Tidy (s : PoolState) : Prop where
  known : ∀ url pubkey c, s.lookup url pubkey = some c →
    c < s.nextConn ∧ (s.conn c).url = url ∧ (s.conn c).pubkey = pubkey
  owned : ∀ w, (s.socket w).live = true →
    (s.conn (s.socket w).conn).ws = some w ∧ s.Mapped (s.socket w).conn
  attached : ∀ c w, (s.conn c).ws = some w → w < s.nextSocket ∧ (s.socket w).conn = c
  connecting : ∀ w, (s.socket w).readyState = .CONNECTING →
    (s.conn (s.socket w).conn).draining = some (.connecting w)
  dialing : ∀ c, Drain.dials (s.conn c).draining = true → s.Offline c
  retired : ∀ c, ¬s.Mapped c → s.Quiet c

theorem init_tidy (now : Nat) : (init now).Tidy := by
  constructor <;> simp [init, lookup, Socket.live, Quiet, QuietAt, Drain.dials]

theorem live_of_connecting {w : Socket} (h : w.readyState = .CONNECTING) : w.live = true := by
  simp [Socket.live, h]

/-- Nothing of the connection is CONNECTING while its loop is elsewhere. -/
theorem Tidy.notConnecting {s : PoolState} (h : s.Tidy) {c : ConnId}
    (hd : ∀ w, (s.conn c).draining ≠ some (.connecting w)) (w : SocketId)
    (hw : (s.socket w).readyState = .CONNECTING) : (s.socket w).conn ≠ c := by
  rintro rfl
  exact hd w (h.connecting w hw)

theorem Tidy.offline {s : PoolState} (h : s.Tidy) {c : ConnId} (ho : s.isOpen c = false)
    (hn : ∀ w, (s.socket w).readyState = .CONNECTING → (s.socket w).conn ≠ c) : s.Offline c := by
  rintro w hl rfl
  have hws := (h.owned w hl).1
  have hne : (s.socket w).readyState ≠ .OPEN := by simpa [isOpen, hws] using ho
  have hc : (s.socket w).readyState = .CONNECTING := by
    simpa [Socket.live, hne] using hl
  exact hn w hc rfl

/-- Moving one connection's loop or queue, its socket and identity unchanged. -/
theorem Tidy.setConn {s : PoolState} (h : s.Tidy) (c : ConnId) (conn : ChatterConn)
    (hu : conn.url = (s.conn c).url) (hp : conn.pubkey = (s.conn c).pubkey)
    (hws : conn.ws = (s.conn c).ws)
    (hcon : ∀ w, (s.socket w).readyState = .CONNECTING → (s.socket w).conn = c →
      conn.draining = some (.connecting w))
    (hdial : Drain.dials conn.draining = true → s.Offline c)
    (hret : ¬s.Mapped c → QuietAt conn.queue.length conn.draining) : (s.setConn c conn).Tidy := by
  have self : (s.setConn c conn).conn c = conn := s.setConn_self c conn
  have other {c' : ConnId} (hc : c' ≠ c) : (s.setConn c conn).conn c' = s.conn c' :=
    s.setConn_other hc conn
  have ws (c' : ConnId) : ((s.setConn c conn).conn c').ws = (s.conn c').ws := by
    by_cases hc : c' = c
    · subst hc
      rw [self, hws]
    · rw [other hc]
  have who (c' : ConnId) : ((s.setConn c conn).conn c').url = (s.conn c').url ∧
      ((s.setConn c conn).conn c').pubkey = (s.conn c').pubkey := by
    by_cases hc : c' = c
    · subst hc
      rw [self]
      exact ⟨hu, hp⟩
    · rw [other hc]
      exact ⟨rfl, rfl⟩
  have mapped (c' : ConnId) : (s.setConn c conn).Mapped c' ↔ s.Mapped c' := by
    rw [Mapped, (who c').1, (who c').2]
    rfl
  constructor
  · intro url pubkey c' hl
    rw [(who c').1, (who c').2]
    exact h.known url pubkey c' hl
  · intro w hl
    rw [ws, mapped]
    exact h.owned w hl
  · intro c' w hw
    exact h.attached c' w (ws c' ▸ hw)
  · intro w hw
    by_cases hc : (s.socket w).conn = c
    · have hd := hcon w hw hc
      subst hc
      exact (congrArg ChatterConn.draining self).trans hd
    · exact (congrArg ChatterConn.draining (other hc)).trans (h.connecting w hw)
  · intro c' hd
    by_cases hc : c' = c
    · subst hc
      rw [self] at hd
      exact hdial hd
    · rw [other hc] at hd
      exact h.dialing c' hd
  · intro c' hm
    rw [mapped] at hm
    by_cases hc : c' = c
    · subst hc
      rw [Quiet, self]
      exact hret hm
    · rw [Quiet, other hc]
      exact h.retired c' hm

/-- A loop that waits for no socket takes up a phase that needs none. -/
theorem Tidy.rest {s : PoolState} (h : s.Tidy) {c : ConnId}
    (hn : ∀ w, (s.socket w).readyState = .CONNECTING → (s.socket w).conn ≠ c)
    {d : Option Drain} (hdials : Drain.dials d = false)
    (hquiet : ¬s.Mapped c → QuietAt (s.conn c).queue.length d) (awaiting : List SendId) :
    (s.setConn c { s.conn c with draining := d, awaiting := awaiting }).Tidy := by
  refine h.setConn c _ rfl rfl rfl ?_ (by simp [hdials]) hquiet
  intro w hw hc
  exact absurd hc (hn w hw)

theorem Tidy.setDraining {s : PoolState} (h : s.Tidy) {c : ConnId}
    (hn : ∀ w, (s.socket w).readyState = .CONNECTING → (s.socket w).conn ≠ c) {d : Drain}
    (hdials : Drain.dials (some d) = false)
    (hquiet : ¬s.Mapped c → QuietAt (s.conn c).queue.length (some d)) :
    (s.setDraining c d).Tidy := h.rest hn hdials hquiet (s.conn c).awaiting

theorem Tidy.connect {s : PoolState} (h : s.Tidy) {c : ConnId} (hm : s.Mapped c)
    (ho : s.Offline c) : (s.connect c).Tidy := by
  have hcon (d : Drain) (w : SocketId) (hw : (s.socket w).readyState = .CONNECTING)
      (hc : (s.socket w).conn = c) : some d = some (.connecting w) :=
    absurd hc (ho w (live_of_connecting hw))
  unfold PoolState.connect
  split <;> exact h.setConn c _ rfl rfl rfl (hcon _) (fun _ => ho) (absurd hm)

theorem Tidy.drainRest {s : PoolState} (h : s.Tidy) {c : ConnId}
    (hn : ∀ w, (s.socket w).readyState = .CONNECTING → (s.socket w).conn ≠ c)
    (hm : ¬s.Mapped c → (s.conn c).queue = []) : (s.drainRest c).Tidy := by
  unfold PoolState.drainRest
  split_ifs with hq ho
  · exact h.setDraining hn rfl fun _ => trivial
  · exact h.setDraining hn rfl fun hm' => absurd (hm hm') hq
  · exact h.connect (not_not.mp fun hm' => hq (hm hm')) (h.offline (by simpa using ho) hn)

theorem Tidy.sent {s : PoolState} (h : s.Tidy) {c : ConnId} {rest : List SendId}
    (hn : ∀ w, (s.socket w).readyState = .CONNECTING → (s.socket w).conn ≠ c)
    (hd : Drain.dials (s.conn c).draining = false) (hm : ¬s.Mapped c → rest = []) :
    (s.sent c rest).Tidy := by
  have h' : (s.setConn c { s.conn c with queue := rest, lastSentAt := s.now }).Tidy := by
    refine h.setConn c _ rfl rfl rfl (fun w hw hc => absurd hc (hn w hw)) ?_ ?_
    · intro hd'
      exact absurd (hd.symm.trans hd') (by decide)
    · intro hm'
      have hq := h.retired c hm'
      rw [hm hm']
      revert hq
      unfold Quiet QuietAt
      split <;> simp_all
  refine h'.drainRest hn ?_
  intro hm'
  rw [Mapped, setConn_self] at hm'
  rw [setConn_self]
  exact hm hm'

/-- A write on a connection that left the map finds no open socket and ends the loop. -/
theorem Tidy.write {s : PoolState} (h : s.Tidy) {c : ConnId}
    (hn : ∀ w, (s.socket w).readyState = .CONNECTING → (s.socket w).conn ≠ c)
    (hd : Drain.dials (s.conn c).draining = false)
    (hm : ¬s.Mapped c → (s.conn c).queue.length ≤ 1) : (s.write c).Tidy := by
  unfold PoolState.write
  cases hq : (s.conn c).queue with
  | nil => exact h.setDraining hn rfl fun _ => trivial
  | cons id rest =>
    have hrest : ¬s.Mapped c → rest = [] := by
      intro hm'
      simpa [hq] using hm hm'
    cases hws : (s.conn c).ws with
    | none => exact h.sent hn hd hrest
    | some w =>
      dsimp only
      split
      · refine Tidy.sent ?_ hn hd hrest
        exact ⟨h.known, h.owned, h.attached, h.connecting, h.dialing, h.retired⟩
      case _ hr => exact absurd (h.attached c w hws).2 (hn w hr)
      · exact h.sent hn hd hrest

theorem Tidy.pace {s : PoolState} (h : s.Tidy) {c : ConnId}
    (hn : ∀ w, (s.socket w).readyState = .CONNECTING → (s.socket w).conn ≠ c)
    (hd : Drain.dials (s.conn c).draining = false)
    (hm : ¬s.Mapped c → (s.conn c).queue.length ≤ 1) : (s.pace c).Tidy := by
  unfold PoolState.pace
  split_ifs
  · exact h.setDraining hn rfl hm
  · exact h.write hn hd hm

theorem Tidy.drain {s : PoolState} (h : s.Tidy) {c : ConnId} (hm : s.Mapped c)
    (hd : (s.conn c).draining = none) : (s.drain c).Tidy := by
  have hn := h.notConnecting (c := c) (by simp [hd])
  unfold PoolState.drain
  split_ifs with ho
  · exact h.pace hn (by simp [hd, Drain.dials]) (absurd hm)
  · exact h.connect hm (h.offline (by simpa using ho) hn)

theorem Tidy.enqueue {s : PoolState} (h : s.Tidy) {c : ConnId} (hm : s.Mapped c)
    (body : JsString) : (s.enqueue c body).Tidy := by
  have h' := h.setConn c { s.conn c with
      queue := (s.conn c).queue ++ [s.nextSend], awaiting := (s.conn c).awaiting ++ [s.nextSend] }
    rfl rfl rfl (fun w hw hc => hc ▸ h.connecting w hw) (h.dialing c) (absurd hm)
  exact ⟨h'.known, h'.owned, h'.attached, h'.connecting, h'.dialing, h'.retired⟩

theorem Tidy.push {s : PoolState} (h : s.Tidy) {c : ConnId} (hm : s.Mapped c)
    (body : JsString) : (s.push c body).Tidy := by
  have self : (s.enqueue c body).conn c = { s.conn c with
      queue := (s.conn c).queue ++ [s.nextSend],
      awaiting := (s.conn c).awaiting ++ [s.nextSend] } := by
    simp [PoolState.enqueue, PoolState.setConn]
  have hm' : (s.enqueue c body).Mapped c := by
    rw [Mapped, self]
    exact hm
  unfold PoolState.push
  split
  case _ hd => exact (h.enqueue hm body).drain hm' (by rw [self]; exact hd)
  case _ => exact h.enqueue hm body

theorem Tidy.newConn {s : PoolState} (h : s.Tidy) {url pubkey : JsString}
    (hl : s.lookup url pubkey = none) :
    let s' := s.newConn url pubkey ((s.conns.get? url).getD .empty)
    s'.Tidy ∧ s'.Mapped s.nextConn := by
  intro s'
  have self : s'.conn s.nextConn = ⟨url, pubkey, none, [], none, [], 0⟩ := by
    simp [s', PoolState.newConn]
  have other {c : ConnId} (hc : c ≠ s.nextConn) : s'.conn c = s.conn c := by
    simp [s', PoolState.newConn, Function.update_of_ne hc]
  have look : ∀ url' pubkey', s'.lookup url' pubkey' =
      if url' = url ∧ pubkey' = pubkey then some s.nextConn else s.lookup url' pubkey' :=
    s.lookup_newConn url pubkey
  have new : s'.Mapped s.nextConn := by simp [Mapped, self, look]
  have old {c : ConnId} (hm : s.Mapped c) : c ≠ s.nextConn ∧ s'.Mapped c := by
    have hc : c ≠ s.nextConn := Nat.ne_of_lt (h.known _ _ c hm).1
    refine ⟨hc, ?_⟩
    rw [Mapped, other hc, look, if_neg, hm]
    rintro ⟨hu, hp⟩
    rw [Mapped, hu, hp, hl] at hm
    cases hm
  have live {w : SocketId} (hw : (s.socket w).live = true) : (s.socket w).conn ≠ s.nextConn :=
    (old (h.owned w hw).2).1
  refine ⟨⟨?_, ?_, ?_, ?_, ?_, ?_⟩, new⟩
  · intro url' pubkey' c hc
    rw [look] at hc
    split_ifs at hc with he
    · obtain rfl := Option.some.inj hc
      rw [self]
      exact ⟨Nat.lt_succ_self _, he.1.symm, he.2.symm⟩
    · obtain ⟨hlt, hk⟩ := h.known url' pubkey' c hc
      rw [other (Nat.ne_of_lt hlt)]
      exact ⟨Nat.lt_succ_of_lt hlt, hk⟩
  · intro w hw
    obtain ⟨hws, hm⟩ := h.owned w hw
    refine ⟨?_, (old hm).2⟩
    exact (congrArg ChatterConn.ws (other (live hw))).trans hws
  · intro c w hw
    by_cases hc : c = s.nextConn
    · subst hc
      simp [self] at hw
    · rw [other hc] at hw
      exact h.attached c w hw
  · intro w hw
    exact (congrArg ChatterConn.draining (other (live (live_of_connecting hw)))).trans
      (h.connecting w hw)
  · intro c hd
    by_cases hc : c = s.nextConn
    · subst hc
      simp [self, Drain.dials] at hd
    · rw [other hc] at hd
      exact h.dialing c hd
  · intro c hm
    have hc : c ≠ s.nextConn := fun hc => hm (hc ▸ new)
    rw [Quiet, other hc]
    exact h.retired c fun hm' => hm (old hm').2

theorem Tidy.send {s : PoolState} (h : s.Tidy) (url pubkey body : JsString) :
    (s.send url pubkey body).Tidy := by
  unfold PoolState.send
  cases hl : s.lookup url pubkey with
  | some c =>
    simp only [lookup_getD, hl]
    obtain ⟨-, hu, hp⟩ := h.known url pubkey c hl
    exact h.push (by rw [Mapped, hu, hp, hl]) body
  | none =>
    simp only [lookup_getD, hl]
    split_ifs
    · have mapped (c : ConnId) : ((s.conns.set url ((s.conns.get? url).getD .empty)).get?
          (s.conn c).url).bind (fun m => m.get? (s.conn c).pubkey) = some c ↔ s.Mapped c := by
        rw [lookup_overCap]
        rfl
      exact ⟨fun url' pubkey' c hc => h.known url' pubkey' c (s.lookup_overCap url url' pubkey' ▸ hc),
        fun w hw => ⟨(h.owned w hw).1, (mapped _).mpr (h.owned w hw).2⟩, h.attached, h.connecting,
        h.dialing, fun c hm => h.retired c fun hm' => hm ((mapped c).mpr hm')⟩
    · obtain ⟨h', hm⟩ := h.newConn hl
      exact h'.push hm body

/-- Taking connections out of the map closes their sockets. -/
theorem Tidy.teardown {s s' : PoolState} (h : s.Tidy) (p : JsString → Bool)
    (hconn : s'.conn = s.conn) (hnext : s'.nextConn = s.nextConn)
    (hsock : s'.nextSocket = s.nextSocket)
    (hlook : ∀ url pubkey, s'.lookup url pubkey = if p url then none else s.lookup url pubkey)
    (hown : ∀ w, (s'.socket w).conn = (s.socket w).conn)
    (hstate : ∀ w, (s'.socket w).live = true → s'.socket w = s.socket w ∧
      ∀ c, s.Mapped c → p (s.conn c).url = true → (s.conn c).ws ≠ some w)
    (hq : ∀ c, s.Mapped c → p (s.conn c).url = true → s.Quiet c) : s'.Tidy := by
  have mapped (c : ConnId) : s'.Mapped c ↔ p (s.conn c).url = false ∧ s.Mapped c := by
    rw [Mapped, hconn, hlook]
    cases p (s.conn c).url <;> simp [Mapped]
  constructor
  · intro url pubkey c hl
    rw [hlook] at hl
    rw [hconn, hnext]
    split_ifs at hl
    exact h.known url pubkey c hl
  · intro w hl
    obtain ⟨hs, hne⟩ := hstate w hl
    rw [hs] at hl
    obtain ⟨hws, hm⟩ := h.owned w hl
    rw [hown, hconn, mapped]
    refine ⟨hws, ?_, hm⟩
    cases hp : p (s.conn (s.socket w).conn).url with
    | false => rfl
    | true => exact absurd hws (hne _ hm hp)
  · intro c w hw
    rw [hown, hsock]
    exact h.attached c w (hconn ▸ hw)
  · intro w hw
    obtain ⟨hs, -⟩ := hstate w (live_of_connecting hw)
    rw [hs, hconn]
    exact h.connecting w (hs ▸ hw)
  · intro c hd w hl
    obtain ⟨hs, -⟩ := hstate w hl
    rw [hown]
    exact h.dialing c (hconn ▸ hd) w (hs ▸ hl)
  · intro c hm
    rw [mapped] at hm
    rw [Quiet, hconn]
    cases hp : p (s.conn c).url with
    | false => exact h.retired c fun hm' => hm ⟨hp, hm'⟩
    | true =>
      by_cases hm' : s.Mapped c
      · exact hq c hm' hp
      · exact h.retired c hm'

theorem closeSockets_state (s : PoolState) (cs : List ConnId) (w : SocketId) :
    ((s.closeSockets cs).socket w).conn = (s.socket w).conn ∧
    (((s.closeSockets cs).socket w).live = true →
      (s.closeSockets cs).socket w = s.socket w ∧ ∀ c ∈ cs, (s.conn c).ws ≠ some w) := by
  have closed (x : Socket) : x.close.conn = x.conn ∧ x.close.live = false := by
    unfold Socket.close
    split_ifs with hl
    · exact ⟨rfl, by simp [Socket.live]⟩
    · exact ⟨rfl, by simpa using hl⟩
  simp only [closeSockets]
  split_ifs with ha
  · exact ⟨(closed _).1, fun hl => absurd ((closed _).2.symm.trans hl) (by decide)⟩
  · refine ⟨rfl, fun _ => ⟨rfl, fun c hc hws => ha ?_⟩⟩
    exact List.any_eq_true.mpr ⟨c, hc, by simpa using hws⟩

theorem mem_values_of_lookup {s : PoolState} {url pubkey : JsString} {c : ConnId}
    (h : s.lookup url pubkey = some c) : c ∈ ((s.conns.get? url).getD .empty).values := by
  unfold lookup at h
  cases hm : s.conns.get? url with
  | none => simp [hm] at h
  | some m =>
    rw [hm] at h
    exact List.mem_map.mpr ⟨(pubkey, c), (m.get?_eq_some_iff pubkey c).mp h, rfl⟩

theorem lookup_destroyInstance (s : PoolState) (url url' pubkey : JsString) :
    (s.destroyInstance url).lookup url' pubkey =
      if decide (url' = url) then none else s.lookup url' pubkey := by
  simp only [destroyInstance, lookup, OrderedMap.get?_delete, decide_eq_true_eq]
  split_ifs <;> rfl

theorem Tidy.destroyInstance {s : PoolState} (h : s.Tidy) (url : JsString)
    (hq : ∀ c, s.Mapped c → (s.conn c).url = url → s.Quiet c) : (s.destroyInstance url).Tidy := by
  refine h.teardown (fun url' => url' = url) rfl rfl rfl (s.lookup_destroyInstance url)
    (fun w => (closeSockets_state s _ w).1) ?_ (fun c hm hp => hq c hm (by simpa using hp))
  intro w hl
  obtain ⟨hs, hne⟩ := (closeSockets_state s _ w).2 hl
  refine ⟨hs, fun c hm hp => hne c ?_⟩
  obtain rfl : (s.conn c).url = url := by simpa using hp
  exact mem_values_of_lookup hm

theorem Tidy.destroyAll {s : PoolState} (h : s.Tidy) (hq : ∀ c, s.Mapped c → s.Quiet c) :
    s.destroyAll.Tidy := by
  refine h.teardown (fun _ => true) rfl rfl rfl (fun _ _ => rfl)
    (fun w => (closeSockets_state s _ w).1) ?_ (fun c hm _ => hq c hm)
  intro w hl
  obtain ⟨hs, hne⟩ := (closeSockets_state s _ w).2 hl
  refine ⟨hs, fun c hm _ => hne c ?_⟩
  have hv := mem_values_of_lookup hm
  cases hg : s.conns.get? (s.conn c).url with
  | none => simp [hg, OrderedMap.empty, OrderedMap.values] at hv
  | some m =>
    rw [hg] at hv
    exact List.mem_flatMap.mpr ⟨m, List.mem_map.mpr
      ⟨(_, m), (s.conns.get?_eq_some_iff _ m).mp hg, rfl⟩, hv⟩

/-- A close event is not that of a socket the connection has replaced by a live one. -/
def CurrentClose (s : PoolState) : PoolAction → Prop
  | .closed w => ∀ w' ∈ (s.conn (s.socket w).conn).ws, w' ≠ w → (s.socket w').live = false
  | _ => True

instance (s : PoolState) : (a : PoolAction) → Decidable (s.CurrentClose a)
  | .closed w => inferInstanceAs (Decidable (∀ w' ∈ (s.conn (s.socket w).conn).ws, _))
  | .send _ _ _ | .registered _ _ | .dial _ _ | .opened _ | .errored _ | .closing _ | .resume _
  | .timer _ | .settle _ | .destroyInstance _ | .destroyAll | .tick _ =>
    inferInstanceAs (Decidable True)

theorem setReadyState_conn (s : PoolState) (w x : SocketId) (r : ReadyState) :
    ((s.setReadyState w r).socket x).conn = (s.socket x).conn := by
  by_cases hx : x = w
  · subst hx
    simp [setReadyState]
  · simp [setReadyState, Function.update_of_ne hx]

theorem setReadyState_live {s : PoolState} {w x : SocketId} {r : ReadyState}
    (hr : r ≠ .CONNECTING) (hl : r = .OPEN → (s.socket w).live = true)
    (h : ((s.setReadyState w r).socket x).live = true) : (s.socket x).live = true := by
  by_cases hx : x = w
  · subst hx
    have ho : r = .OPEN := by simpa [setReadyState, Socket.live, hr] using h
    exact hl ho
  · simpa [setReadyState, Function.update_of_ne hx] using h

theorem setReadyState_connecting {s : PoolState} {w x : SocketId} {r : ReadyState}
    (hr : r ≠ .CONNECTING) (h : ((s.setReadyState w r).socket x).readyState = .CONNECTING) :
    x ≠ w ∧ (s.socket x).readyState = .CONNECTING := by
  by_cases hx : x = w
  · subst hx
    exact absurd (by simpa [setReadyState] using h) hr
  · exact ⟨hx, by simpa [setReadyState, Function.update_of_ne hx] using h⟩

theorem Tidy.setReadyState {s : PoolState} (h : s.Tidy) (w : SocketId) {r : ReadyState}
    (hr : r ≠ .CONNECTING) (hl : r = .OPEN → (s.socket w).live = true) :
    (s.setReadyState w r).Tidy := by
  refine ⟨h.known, ?_, ?_, ?_, ?_, h.retired⟩
  · intro x hx
    rw [setReadyState_conn]
    exact h.owned x (setReadyState_live hr hl hx)
  · intro c x hx
    rw [setReadyState_conn]
    exact h.attached c x hx
  · intro x hx
    rw [setReadyState_conn]
    exact h.connecting x (setReadyState_connecting hr hx).2
  · intro c hd x hx
    rw [setReadyState_conn]
    exact h.dialing c hd x (setReadyState_live hr hl hx)

/-- A loop leaves the await of `connect`. -/
theorem Tidy.settleConnect {s : PoolState} (h : s.Tidy) {w : SocketId} {d : Drain}
    (hd : Drain.dials (some d) = false) (hw : (s.socket w).readyState ≠ .CONNECTING)
    (hret : ∀ c, ¬s.Mapped c → (s.socket w).conn = c →
      QuietAt (s.conn c).queue.length (some d)) : (s.settleConnect w d).Tidy := by
  unfold PoolState.settleConnect
  split
  case _ w' hdr =>
    split_ifs with he
    · subst he
      refine h.setConn _ _ rfl rfl rfl ?_ ?_ (fun hm => hret _ hm rfl)
      · intro x hx hc
        have hcx := h.connecting x hx
        rw [hc, hdr] at hcx
        obtain rfl : w' = x := by simpa using hcx
        exact absurd hx hw
      · intro hd'
        exact absurd (hd.symm.trans hd') (by decide)
    · exact h
  case _ => exact h

/-- The owner of a closed socket forgets whichever socket it holds. -/
theorem Tidy.closed {s : PoolState} (h : s.Tidy) (w : SocketId)
    (hg : s.CurrentClose (.closed w)) :
    ((s.setReadyState w .CLOSED).setConn (s.socket w).conn
      { s.conn (s.socket w).conn with ws := none }).Tidy := by
  generalize hc : (s.socket w).conn = c
  generalize hs' : (s.setReadyState w .CLOSED).setConn c { s.conn c with ws := none } = s'
  have self : s'.conn c = { s.conn c with ws := none } := by simp [← hs', PoolState.setConn]
  have other {c' : ConnId} (hc' : c' ≠ c) : s'.conn c' = s.conn c' := by
    simp [← hs', PoolState.setConn, Function.update_of_ne hc', PoolState.setReadyState]
  have same (c' : ConnId) : (s'.conn c').url = (s.conn c').url ∧
      (s'.conn c').pubkey = (s.conn c').pubkey ∧ (s'.conn c').queue = (s.conn c').queue ∧
      (s'.conn c').draining = (s.conn c').draining := by
    by_cases hc' : c' = c
    · subst hc'
      rw [self]
      exact ⟨rfl, rfl, rfl, rfl⟩
    · rw [other hc']
      exact ⟨rfl, rfl, rfl, rfl⟩
  have sock : s'.socket = (s.setReadyState w .CLOSED).socket := by rw [← hs']; rfl
  have look (url pubkey : JsString) : s'.lookup url pubkey = s.lookup url pubkey := by
    rw [← hs']
    rfl
  have mapped (c' : ConnId) : s'.Mapped c' ↔ s.Mapped c' := by
    rw [Mapped, (same c').1, (same c').2.1, look]
    rfl
  have live {x : SocketId} (hx : (s'.socket x).live = true) :
      x ≠ w ∧ (s.socket x).live = true := by
    rw [sock] at hx
    refine ⟨?_, setReadyState_live (by simp) (by simp) hx⟩
    rintro rfl
    simp [PoolState.setReadyState, Socket.live] at hx
  constructor
  · intro url pubkey c' hl
    rw [look] at hl
    have hn : s'.nextConn = s.nextConn := by rw [← hs']; rfl
    rw [(same c').1, (same c').2.1, hn]
    exact h.known url pubkey c' hl
  · intro x hx
    obtain ⟨hne, hl⟩ := live hx
    obtain ⟨hws, hm⟩ := h.owned x hl
    rw [sock, setReadyState_conn, mapped]
    refine ⟨?_, hm⟩
    by_cases hxc : (s.socket x).conn = c
    · -- a live socket of the same owner would have been replaced: the guard excludes it
      rw [hxc, ← hc] at hws
      exact absurd hl (by simp [hg x hws hne])
    · rw [other hxc]
      exact hws
  · intro c' x hx
    have hn : s'.nextSocket = s.nextSocket := by rw [← hs']; rfl
    rw [sock, setReadyState_conn, hn]
    by_cases hc' : c' = c
    · subst hc'
      simp [self] at hx
    · rw [other hc'] at hx
      exact h.attached c' x hx
  · intro x hx
    rw [sock] at hx
    rw [sock, setReadyState_conn, (same _).2.2.2]
    exact h.connecting x (setReadyState_connecting (by simp) hx).2
  · intro c' hd x hx
    rw [(same c').2.2.2] at hd
    rw [sock, setReadyState_conn]
    exact h.dialing c' hd x (live hx).2
  · intro c' hm
    rw [mapped] at hm
    rw [Quiet, (same c').2.2.1, (same c').2.2.2]
    exact h.retired c' hm

/-- Only a connection of the map gets a new socket. -/
theorem Tidy.openSocket {s : PoolState} (h : s.Tidy) {c : ConnId} {token : ChatterToken}
    (hd : (s.conn c).draining = some (.dialing token)) : (s.openSocket c token).Tidy := by
  have hoff : s.Offline c := h.dialing c (by simp [hd, Drain.dials])
  have hm : s.Mapped c := by
    by_contra hm
    have hq := h.retired c hm
    rw [Quiet, hd] at hq
    exact hq
  generalize hs' : s.openSocket c token = s'
  have self : s'.conn c = { s.conn c with
      ws := some s.nextSocket, draining := some (.connecting s.nextSocket) } := by
    simp [← hs', PoolState.openSocket, PoolState.setConn]
  have other {c' : ConnId} (hc' : c' ≠ c) : s'.conn c' = s.conn c' := by
    simp [← hs', PoolState.openSocket, PoolState.setConn, Function.update_of_ne hc']
  have new : s'.socket s.nextSocket = ⟨c, token, .CONNECTING⟩ := by
    simp [← hs', PoolState.openSocket]
  have old {x : SocketId} (hx : x ≠ s.nextSocket) : s'.socket x = s.socket x := by
    simp [← hs', PoolState.openSocket, PoolState.setConn, Function.update_of_ne hx]
  have who (c' : ConnId) : (s'.conn c').url = (s.conn c').url ∧
      (s'.conn c').pubkey = (s.conn c').pubkey := by
    by_cases hc' : c' = c
    · subst hc'
      rw [self]
      exact ⟨rfl, rfl⟩
    · rw [other hc']
      exact ⟨rfl, rfl⟩
  have mapped (c' : ConnId) : s'.Mapped c' ↔ s.Mapped c' := by
    rw [Mapped, (who c').1, (who c').2, ← hs']
    rfl
  constructor
  · intro url pubkey c' hl
    rw [(who c').1, (who c').2]
    rw [← hs'] at hl ⊢
    exact h.known url pubkey c' hl
  · intro w hw
    rw [mapped]
    by_cases he : w = s.nextSocket
    · subst he
      rw [new]
      exact ⟨by rw [self], hm⟩
    · rw [old he] at hw ⊢
      rw [other (hoff w hw)]
      exact h.owned w hw
  · intro c' w hw
    have hn : s'.nextSocket = s.nextSocket + 1 := by rw [← hs']; rfl
    rw [hn]
    by_cases hc' : c' = c
    · subst hc'
      obtain rfl : s.nextSocket = w := by simpa [self] using hw
      exact ⟨Nat.lt_succ_self _, by rw [new]⟩
    · rw [other hc'] at hw
      obtain ⟨hlt, hc''⟩ := h.attached c' w hw
      exact ⟨Nat.lt_succ_of_lt hlt, by rw [old (Nat.ne_of_lt hlt), hc'']⟩
  · intro w hw
    by_cases he : w = s.nextSocket
    · subst he
      rw [new]
      exact congrArg ChatterConn.draining self
    · rw [old he] at hw ⊢
      rw [other (hoff w (live_of_connecting hw))]
      exact h.connecting w hw
  · intro c' hd' w hw
    have hc' : c' ≠ c := by
      rintro rfl
      simp [self, Drain.dials] at hd'
    rw [other hc'] at hd'
    by_cases he : w = s.nextSocket
    · subst he
      rw [new]
      exact Ne.symm hc'
    · rw [old he] at hw ⊢
      exact h.dialing c' hd' w hw
  · intro c' hm'
    rw [mapped] at hm'
    have hc' : c' ≠ c := fun hc' => hm' (hc' ▸ hm)
    rw [Quiet, other hc']
    exact h.retired c' hm'

theorem Tidy.settleSends {s : PoolState} (h : s.Tidy) {c : ConnId} (status : SendStatus)
    (hd : ∀ w, (s.conn c).draining ≠ some (.connecting w)) : (s.settleSends c status).Tidy := by
  have h' := h.rest (h.notConnecting hd) (d := none) rfl (fun _ => trivial) []
  exact ⟨h'.known, h'.owned, h'.attached, h'.connecting, h'.dialing, h'.retired⟩

/-- A sender that has been registered is dialed with its token. -/
theorem Tidy.registered {s : PoolState} (h : s.Tidy) {c : ConnId} (token : ChatterToken)
    (hd : (s.conn c).draining = some .registering) :
    ((s.setToken (s.conn c).url (s.conn c).pubkey token).setDraining c (.dialing token)).Tidy := by
  have ht : (s.setToken (s.conn c).url (s.conn c).pubkey token).Tidy :=
    ⟨h.known, h.owned, h.attached, h.connecting, h.dialing, h.retired⟩
  have hoff : s.Offline c := h.dialing c (by simp [hd, Drain.dials])
  refine ht.setConn c _ rfl rfl rfl ?_ (fun _ => hoff) ?_
  · intro w hw hc
    exact absurd hc (hoff w (live_of_connecting hw))
  · intro hm
    have hq := h.retired c hm
    rw [Quiet, hd] at hq
    exact hq

/-- Every step keeps the sockets tidy, given that the connections it takes out of the map are
quiet and that a close event is not overtaken by a reconnect. -/
theorem step_tidy {s s' : PoolState} {a : PoolAction} (h : s.Tidy) (hi : s.CurrentClose a)
    (hd : ∀ url, a = .destroyInstance url → ∀ c, s.Mapped c → (s.conn c).url = url → s.Quiet c)
    (hall : a = .destroyAll → ∀ c, s.Mapped c → s.Quiet c)
    (hs : s.step a = some s') : s'.Tidy := by
  revert hi hd hall
  apply step_elim (motive := fun a s' => s.CurrentClose a →
    (∀ url, a = .destroyInstance url → ∀ c, s.Mapped c → (s.conn c).url = url → s.Quiet c) →
    (a = .destroyAll → ∀ c, s.Mapped c → s.Quiet c) → s'.Tidy) hs
  case send => exact fun url pubkey body _ _ _ => h.send url pubkey body
  case unregistered =>
    intro c hdr _ _ _
    exact h.setDraining (h.notConnecting (by simp [hdr])) rfl fun _ => trivial
  case registered => exact fun c token hdr _ _ _ => h.registered token hdr
  case undialed =>
    intro c token hdr _ _ _
    exact h.setDraining (h.notConnecting (by simp [hdr])) rfl fun _ => trivial
  case dialed => exact fun c token hdr _ _ _ => h.openSocket hdr
  case opened =>
    intro w hw _ _ _
    have hl := live_of_connecting hw
    refine (h.setReadyState w (by simp) fun _ => hl).settleConnect (by simp [Drain.dials])
      (by simp [setReadyState]) ?_
    rintro c hm rfl
    rw [setReadyState_conn] at hm
    exact absurd (h.owned w hl).2 hm
  case errored =>
    intro w _ _ _
    exact (h.setReadyState w (by simp) (by simp)).settleConnect (by simp [Drain.dials])
      (by simp [setReadyState]) (by simp [QuietAt])
  case closing => exact fun w _ _ _ => h.setReadyState w (by simp) (by simp)
  case closed => exact fun w hi _ _ => h.closed w hi
  case resume =>
    intro c hdr _ _ _
    refine h.pace (h.notConnecting (by simp [hdr])) (by simp [hdr, Drain.dials]) fun hm => ?_
    have hq := h.retired c hm
    rwa [Quiet, hdr] at hq
  case timer =>
    intro c _ hdr _ _ _
    refine h.write (h.notConnecting (by simp [hdr])) (by simp [hdr, Drain.dials]) fun hm => ?_
    have hq := h.retired c hm
    rwa [Quiet, hdr] at hq
  case fulfilled | rejected =>
    intro c hdr _ _ _
    exact h.settleSends _ (by simp [hdr])
  case destroyInstance => exact fun url _ hd _ => h.destroyInstance url (hd url rfl)
  case destroyAll => exact fun _ _ hall => h.destroyAll (hall rfl)
  case tick =>
    exact fun _ _ _ _ => ⟨h.known, h.owned, h.attached, h.connecting, h.dialing, h.retired⟩

end PoolState

end LivelierBridge.Owncast
