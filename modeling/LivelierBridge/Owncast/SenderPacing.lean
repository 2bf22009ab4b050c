import LivelierBridge.Owncast.Delivery
import LivelierBridge.Owncast.PoolSockets

namespace LivelierBridge.Owncast

open Framework Js

/-- A loop that may write yet. -/
def Drain.mayWrite : Option Drain → Bool
  | none | some .failed | some .finished => false
  | some .registering | some (.dialing _) | some (.connecting _) | some .connected
  | some (.pacing _) => true

namespace PoolState

/-- The connection is the one of a sender on an instance. -/
def IsOf (s : PoolState) (c : ConnId) (url pubkey : JsString) : Prop :=
  (s.conn c).url = url ∧ (s.conn c).pubkey = pubkey

instance (s : PoolState) (c : ConnId) (url pubkey : JsString) : Decidable (s.IsOf c url pubkey) :=
  inferInstanceAs (Decidable (_ ∧ _))

/-- Two frames of one sender are a whole spacing apart, on whatever sockets. -/
def Spaced (s : PoolState) : Prop :=
  s.writes.Pairwise fun w w' => s.SameSender w.conn w'.conn → w.at' + SEND_SPACING_MS ≤ w'.at'

instance (s : PoolState) : Decidable s.Spaced :=
  inferInstanceAs (Decidable (s.writes.Pairwise fun w w' =>
    (s.conn w.conn).url = (s.conn w'.conn).url ∧ (s.conn w.conn).pubkey = (s.conn w'.conn).pubkey →
      w.at' + SEND_SPACING_MS ≤ w'.at'))

/-- Nothing of the sender is still to be written or was written lately. -/
def Rested (s : PoolState) (url pubkey : JsString) : Prop :=
  (∀ c < s.nextConn, s.IsOf c url pubkey → Drain.mayWrite (s.conn c).draining = false) ∧
    ∀ w ∈ s.writes, s.IsOf w.conn url pubkey → w.at' + SEND_SPACING_MS ≤ s.now

instance (s : PoolState) (url pubkey : JsString) : Decidable (s.Rested url pubkey) :=
  inferInstanceAs (Decidable ((∀ c < s.nextConn, _) ∧ ∀ w ∈ s.writes, _))

/-- The send makes a connection for a sender that has none in the pool. -/
def makesConn (s : PoolState) (url pubkey : JsString) : Bool :=
  (s.lookup url pubkey).isNone && ((s.conns.get? url).getD .empty).size < PER_INSTANCE_CAP

/-- A sender gets a new connection only after its earlier one is at rest. -/
def RestsBetween (s : PoolState) : PoolAction → Prop
  | .send url pubkey _ => s.makesConn url pubkey = true → s.Rested url pubkey
  | _ => True

instance (s : PoolState) : (a : PoolAction) → Decidable (s.RestsBetween a)
  | .send url pubkey _ =>
    inferInstanceAs (Decidable (s.makesConn url pubkey = true → s.Rested url pubkey))
  | .registered _ _ | .dial _ _ | .opened _ | .errored _ | .closing _ | .closed _ | .resume _
  | .timer _ | .settle _ | .destroyInstance _ | .destroyAll | .tick _ =>
    inferInstanceAs (Decidable True)

/-- The connection is in the pool's map, or its loop may write yet. -/
def Active (s : PoolState) (c : ConnId) : Prop :=
  (∃ url pubkey, s.lookup url pubkey = some c) ∨ Drain.mayWrite (s.conn c).draining = true

/-- A sender has one active connection at most, and that one knows the sender's last frame. -/
structure PaceLog (s : PoolState) : Prop where
  known : ∀ url pubkey c, s.lookup url pubkey = some c → c < s.nextConn ∧ s.IsOf c url pubkey
  started : ∀ c, Drain.mayWrite (s.conn c).draining = true → c < s.nextConn
  writer : ∀ w ∈ s.writes, w.conn < s.nextConn
  past : ∀ w ∈ s.writes, w.at' ≤ s.now
  spaced : s.Spaced
  one : ∀ c c', s.Active c → s.Active c' → s.SameSender c c' → c = c'
  recent : ∀ c, s.Active c → ∀ w ∈ s.writes, s.SameSender w.conn c →
    w.at' ≤ (s.conn c).lastSentAt ∨ w.at' + SEND_SPACING_MS ≤ s.now

/-- A loop's timer waits for the whole spacing. -/
def TimerOk (s : PoolState) (c : ConnId) : Prop :=
  ∀ until', (s.conn c).draining = some (.pacing until') →
    (s.conn c).lastSentAt + SEND_SPACING_MS ≤ until'

structure PaceOk (s : PoolState) : Prop where
  log : s.PaceLog
  timer : ∀ c, s.TimerOk c

/-- `PaceOk` while the loop of `c` is between two awaits. -/
structure AtWork (s : PoolState) (c : ConnId) : Prop where
  log : s.PaceLog
  timer : ∀ c' ≠ c, s.TimerOk c'
  active : s.Active c

theorem init_paceOk (now : Nat) : (init now).PaceOk := by
  constructor
  · constructor <;> simp [init, lookup, Spaced, Active, Drain.mayWrite]
  · simp [init, TimerOk]

section Steps

variable {s s' : PoolState} {c : ConnId}

theorem PaceLog.active_lt (h : s.PaceLog) (hc : s.Active c) : c < s.nextConn := by
  rcases hc with ⟨url, pubkey, hlookup⟩ | hwrites
  · exact (h.known url pubkey c hlookup).1
  · exact h.started c hwrites

/-- Connections may leave the map; the pace is in them, in the frames and in the clock. -/
theorem PaceOk.teardown (h : s.PaceOk) (hconn : s'.conn = s.conn) (hnext : s'.nextConn = s.nextConn)
    (hwrites : s'.writes = s.writes) (hnow : s'.now = s.now)
    (hmapped : ∀ url pubkey c, s'.lookup url pubkey = some c → s.lookup url pubkey = some c) :
    s'.PaceOk := by
  have hsame (c c' : ConnId) : s'.SameSender c c' ↔ s.SameSender c c' := by
    simp only [SameSender, hconn]
  have hactive (c : ConnId) (ha : s'.Active c) : s.Active c := by
    rcases ha with ⟨url, pubkey, hlookup⟩ | hwrites
    · exact .inl ⟨url, pubkey, hmapped url pubkey c hlookup⟩
    · exact .inr (hconn ▸ hwrites)
  refine ⟨⟨fun url pubkey c hlookup => ?_, ?_, ?_, ?_, ?_, fun c c' hc hc' hs => ?_,
    fun c hc => ?_⟩, ?_⟩
  · simpa only [IsOf, hconn, hnext] using h.log.known url pubkey c (hmapped url pubkey c hlookup)
  · simpa only [hconn, hnext] using h.log.started
  · simpa only [hwrites, hnext] using h.log.writer
  · simpa only [hwrites, hnow] using h.log.past
  · simpa only [Spaced, hwrites, hsame] using h.log.spaced
  · exact h.log.one c c' (hactive c hc) (hactive c' hc') ((hsame c c').mp hs)
  · simpa only [hwrites, hsame, hconn, hnow] using h.log.recent c (hactive c hc)
  · simpa only [TimerOk, hconn] using h.timer

theorem setConn_sameSender {conn : ChatterConn} (hurl : conn.url = (s.conn c).url)
    (hpubkey : conn.pubkey = (s.conn c).pubkey) (c₁ c₂ : ConnId) :
    (s.setConn c conn).SameSender c₁ c₂ ↔ s.SameSender c₁ c₂ := by
  have hfields (c' : ConnId) : ((s.setConn c conn).conn c').url = (s.conn c').url ∧
      ((s.setConn c conn).conn c').pubkey = (s.conn c').pubkey := by
    by_cases hne : c' = c
    · subst hne
      rw [setConn_self]
      exact ⟨hurl, hpubkey⟩
    · rw [s.setConn_other hne]
      exact ⟨rfl, rfl⟩
  simp only [SameSender, hfields]

/-- Moving one connection's loop or queue, and telling it that a payload goes out now. -/
theorem PaceLog.setConn (h : s.PaceLog) (c : ConnId) (conn : ChatterConn)
    (hurl : conn.url = (s.conn c).url) (hpubkey : conn.pubkey = (s.conn c).pubkey)
    (hlast : conn.lastSentAt = (s.conn c).lastSentAt ∨ conn.lastSentAt = s.now)
    (hactive : Drain.mayWrite conn.draining = true → s.Active c) : (s.setConn c conn).PaceLog := by
  have hother {c' : ConnId} (hne : c' ≠ c) : (s.setConn c conn).conn c' = s.conn c' :=
    s.setConn_other hne conn
  have hsame := setConn_sameSender hurl hpubkey
  have hact (c' : ConnId) (ha : (s.setConn c conn).Active c') : s.Active c' := by
    rcases ha with hlookup | hwrites
    · exact .inl hlookup
    · by_cases hne : c' = c
      · subst hne
        rw [setConn_self] at hwrites
        exact hactive hwrites
      · rw [hother hne] at hwrites
        exact .inr hwrites
  refine ⟨fun url pubkey c' hlookup => ?_, fun c' hwrites => ?_, h.writer, h.past, ?_,
    fun c₁ c₂ h₁ h₂ hs => ?_, fun c' ha w hw hs => ?_⟩
  · obtain ⟨hlt, hof⟩ := h.known url pubkey c' hlookup
    refine ⟨hlt, ?_⟩
    by_cases hne : c' = c
    · subst hne
      rw [IsOf, setConn_self, hurl, hpubkey]
      exact hof
    · rw [IsOf, hother hne]
      exact hof
  · exact h.active_lt (hact c' (.inr hwrites))
  · exact h.spaced.imp fun hw hs => hw ((hsame _ _).mp hs)
  · exact h.one c₁ c₂ (hact c₁ h₁) (hact c₂ h₂) ((hsame c₁ c₂).mp hs)
  · have hold := h.recent c' (hact c' ha) w hw ((hsame _ _).mp hs)
    by_cases hne : c' = c
    · subst hne
      rw [setConn_self]
      rcases hlast with hlast | hlast
      · rw [hlast]
        exact hold
      · rw [hlast]
        exact .inl (h.past w hw)
    · rw [hother hne]
      exact hold

/-- A connection that keeps its phase stays active. -/
theorem active_setConn {conn : ChatterConn} (h : s.Active c)
    (hdraining : conn.draining = (s.conn c).draining) : (s.setConn c conn).Active c := by
  rcases h with hlookup | hwrites
  · exact .inl hlookup
  · refine .inr ?_
    rw [setConn_self, hdraining]
    exact hwrites

/-- What a step of one connection leaves of the others' timers -/
theorem timerOk_setConn {conn : ChatterConn} {c' : ConnId} (hne : c' ≠ c) (h : s.TimerOk c') :
    (s.setConn c conn).TimerOk c' := by
  rwa [TimerOk, s.setConn_other hne]

/-- The loop of `c` moves, all at once, between two awaits. -/
theorem PaceLog.setConn_paceOk (h : s.PaceLog) (hothers : ∀ c' ≠ c, s.TimerOk c')
    {conn : ChatterConn} (hurl : conn.url = (s.conn c).url)
    (hpubkey : conn.pubkey = (s.conn c).pubkey)
    (hlast : conn.lastSentAt = (s.conn c).lastSentAt)
    (hactive : Drain.mayWrite conn.draining = true → s.Active c)
    (htimer : ∀ until', conn.draining = some (.pacing until') →
      conn.lastSentAt + SEND_SPACING_MS ≤ until') : (s.setConn c conn).PaceOk := by
  refine ⟨h.setConn c conn hurl hpubkey (.inl hlast) hactive, fun c' => ?_⟩
  by_cases hne : c' = c
  · subst hne
    rw [TimerOk, setConn_self]
    exact htimer
  · exact timerOk_setConn hne (hothers c' hne)

theorem PaceOk.atWork (h : s.PaceOk) (hc : s.Active c) : s.AtWork c :=
  ⟨h.log, fun c' _ => h.timer c', hc⟩

theorem AtWork.setDraining (h : s.AtWork c) {d : Drain}
    (htimer : ∀ until', d = .pacing until' → (s.conn c).lastSentAt + SEND_SPACING_MS ≤ until') :
    (s.setDraining c d).PaceOk :=
  h.log.setConn_paceOk h.timer rfl rfl rfl (fun _ => h.active)
    fun until' hd => htimer until' (Option.some.inj hd)

theorem AtWork.connect (h : s.AtWork c) : (s.connect c).PaceOk := by
  unfold PoolState.connect
  split
  · exact h.setDraining (by simp)
  · exact h.setDraining (by simp)

theorem AtWork.drainRest (h : s.AtWork c) : (s.drainRest c).PaceOk := by
  unfold PoolState.drainRest
  split_ifs
  · exact h.setDraining (by simp)
  · refine h.setDraining fun until' hd => ?_
    injection hd with hd
    omega
  · exact h.connect

/-- A payload that is due goes out, and the socket takes it or not. -/
theorem AtWork.sent (h : s.AtWork c) (rest : List SendId) : (s.sent c rest).PaceOk := by
  have hwork : (s.setConn c { s.conn c with queue := rest, lastSentAt := s.now }).AtWork c :=
    ⟨h.log.setConn c _ rfl rfl (.inr rfl) fun _ => h.active,
      fun c' hne => timerOk_setConn hne (h.timer c' hne), active_setConn h.active rfl⟩
  exact hwork.drainRest

theorem AtWork.frame (h : s.AtWork c) (hdue : (s.conn c).lastSentAt + SEND_SPACING_MS ≤ s.now)
    (rest : List SendId) (id : SendId) (w : SocketId) :
    (PoolState.sent { s with writes := s.writes ++ [⟨id, c, w, s.now⟩] } c rest).PaceOk := by
  have hrecent : ∀ x ∈ s.writes, s.SameSender x.conn c → x.at' + SEND_SPACING_MS ≤ s.now := by
    intro x hx hs
    rcases h.log.recent c h.active x hx hs with hlast | hlast
    · omega
    · exact hlast
  -- the one active connection of the sender is told of the frame in the same step
  have hlog : (setConn { s with writes := s.writes ++ [⟨id, c, w, s.now⟩] } c
      { s.conn c with queue := rest, lastSentAt := s.now }).PaceLog := by
    have hquiet := h.log.setConn c { s.conn c with queue := rest, lastSentAt := s.now }
      rfl rfl (.inr rfl) fun _ => h.active
    obtain ⟨h1, h2, h3, h4, h5, h6, h7⟩ := hquiet
    have hsame : ∀ c₁ c₂, (s.setConn c { s.conn c with
        queue := rest, lastSentAt := s.now }).SameSender c₁ c₂ ↔ s.SameSender c₁ c₂ := by
      apply setConn_sameSender
      · rfl
      · rfl
    have hactive : (s.setConn c { s.conn c with queue := rest, lastSentAt := s.now }).Active c :=
      active_setConn h.active rfl
    refine ⟨h1, h2, ?_, ?_, ?_, h6, ?_⟩
    · intro x hx
      rcases List.mem_append.mp hx with hx | hx
      · exact h3 x hx
      · rw [List.mem_singleton.mp hx]
        exact h.log.active_lt h.active
    · intro x hx
      rcases List.mem_append.mp hx with hx | hx
      · exact h4 x hx
      · obtain rfl := List.mem_singleton.mp hx
        exact Nat.le_refl _
    · refine List.pairwise_append.mpr ⟨h5, List.pairwise_singleton _ _, fun x hx y hy hs => ?_⟩
      obtain rfl := List.mem_singleton.mp hy
      exact hrecent x hx ((hsame _ _).mp hs)
    · intro c' ha x hx hs
      rcases List.mem_append.mp hx with hx | hx
      · exact h7 c' ha x hx hs
      · obtain rfl := List.mem_singleton.mp hx
        obtain rfl : c = c' := h6 c c' hactive ha hs
        exact .inl (Nat.le_of_eq (by rw [setConn_self]))
  have hwork : (setConn { s with writes := s.writes ++ [⟨id, c, w, s.now⟩] } c
      { s.conn c with queue := rest, lastSentAt := s.now }).AtWork c :=
    ⟨hlog, fun c' hne => timerOk_setConn hne (h.timer c' hne), active_setConn h.active rfl⟩
  exact hwork.drainRest

theorem AtWork.write (h : s.AtWork c) (hdue : (s.conn c).lastSentAt + SEND_SPACING_MS ≤ s.now) :
    (s.write c).PaceOk := by
  unfold PoolState.write
  split
  · exact h.setDraining (by simp)
  · rename_i id rest hqueue
    split
    · exact h.sent rest
    · rename_i w hws
      split
      · exact h.frame hdue rest id w
      · exact h.log.setConn_paceOk h.timer rfl rfl rfl (fun _ => h.active) fun _ hd => by cases hd
      · exact h.sent rest

theorem AtWork.pace (h : s.AtWork c) : (s.pace c).PaceOk := by
  unfold PoolState.pace
  split_ifs with hwait
  · refine h.setDraining fun until' hd => ?_
    injection hd with hd
    omega
  · exact h.write (by omega)

theorem AtWork.drain (h : s.AtWork c) : (s.drain c).PaceOk := by
  unfold PoolState.drain
  split_ifs
  · exact h.pace
  · exact h.connect

theorem PaceOk.enqueue (h : s.PaceOk) (c : ConnId) (body : JsString) : (s.enqueue c body).PaceOk := by
  have hset : (s.setConn c { s.conn c with
      queue := (s.conn c).queue ++ [s.nextSend],
      awaiting := (s.conn c).awaiting ++ [s.nextSend] }).PaceOk :=
    h.log.setConn_paceOk (fun c' _ => h.timer c') rfl rfl rfl .inr (h.timer c)
  exact hset.teardown rfl rfl rfl rfl fun _ _ _ hlookup => hlookup

theorem PaceOk.push (h : s.PaceOk) {url pubkey : JsString} (hc : s.lookup url pubkey = some c)
    (body : JsString) : (s.push c body).PaceOk := by
  have hqueued := h.enqueue c body
  unfold PoolState.push
  split
  · exact (hqueued.atWork (.inl ⟨url, pubkey, hc⟩)).drain
  · exact hqueued

/-- A sender at rest gets a new connection, which knows of no frame. -/
theorem PaceOk.newConn (h : s.PaceOk) {url pubkey : JsString} (hnone : s.lookup url pubkey = none)
    (hrested : s.Rested url pubkey) :
    (s.newConn url pubkey ((s.conns.get? url).getD .empty)).PaceOk := by
  generalize hs' : s.newConn url pubkey ((s.conns.get? url).getD .empty) = s'
  have hself : s'.conn s.nextConn = ⟨url, pubkey, none, [], none, [], 0⟩ := by
    simp [← hs', PoolState.newConn]
  have hother {c : ConnId} (hc : c ≠ s.nextConn) : s'.conn c = s.conn c := by
    simp [← hs', PoolState.newConn, Function.update_of_ne hc]
  have hnext : s'.nextConn = s.nextConn + 1 := by simp [← hs', PoolState.newConn]
  have hwrites : s'.writes = s.writes := by simp [← hs', PoolState.newConn]
  have hnow : s'.now = s.now := by simp [← hs', PoolState.newConn]
  have hlookup (url' pubkey' : JsString) : s'.lookup url' pubkey' =
      if url' = url ∧ pubkey' = pubkey then some s.nextConn else s.lookup url' pubkey' := by
    rw [← hs']
    exact s.lookup_newConn url pubkey url' pubkey'
  have hactive {c : ConnId} (ha : s'.Active c) : c = s.nextConn ∨ s.Active c := by
    by_cases hc : c = s.nextConn
    · exact .inl hc
    · right
      rcases ha with ⟨url', pubkey', hl⟩ | hw
      · rw [hlookup] at hl
        split_ifs at hl
        · exact absurd (Option.some.inj hl).symm hc
        · exact .inl ⟨url', pubkey', hl⟩
      · exact .inr (hother hc ▸ hw)
  have hold {c : ConnId} (hc : s.Active c) : c ≠ s.nextConn := Nat.ne_of_lt (h.log.active_lt hc)
  have hwriter {w : Write} (hw : w ∈ s.writes) : w.conn ≠ s.nextConn :=
    Nat.ne_of_lt (h.log.writer w hw)
  -- no other connection of the sender is left that is active
  have hsole {c : ConnId} (hc : s.Active c) : ¬s.IsOf c url pubkey := by
    intro hof
    rcases hc with ⟨url', pubkey', hl⟩ | hw
    · obtain ⟨-, hu, hp⟩ := h.log.known url' pubkey' c hl
      rw [hof.1] at hu
      rw [hof.2] at hp
      rw [← hu, ← hp, hnone] at hl
      cases hl
    · rw [hrested.1 c (h.log.started c hw) hof] at hw
      cases hw
  have hofNew {c : ConnId} (hc : c ≠ s.nextConn) (hs : s'.SameSender c s.nextConn) :
      s.IsOf c url pubkey := by
    rw [SameSender, hother hc, hself] at hs
    exact hs
  have hsameOld {c c' : ConnId} (hc : c ≠ s.nextConn) (hc' : c' ≠ s.nextConn)
      (hs : s'.SameSender c c') : s.SameSender c c' := by
    rw [SameSender, hother hc, hother hc'] at hs
    exact hs
  refine ⟨⟨fun url' pubkey' c hl => ?_, fun c hw => ?_, fun w hw => ?_, ?_, ?_,
    fun c c' hc hc' hs => ?_, fun c hc w hw hs => ?_⟩, fun c => ?_⟩
  · rw [hlookup] at hl
    rw [hnext]
    split_ifs at hl with hof
    · obtain rfl := Option.some.inj hl
      exact ⟨Nat.lt_succ_self _, by simp [IsOf, hself, hof]⟩
    · obtain ⟨hlt, hof⟩ := h.log.known url' pubkey' c hl
      refine ⟨Nat.lt_succ_of_lt hlt, ?_⟩
      rwa [IsOf, hother (Nat.ne_of_lt hlt)]
  · rw [hnext]
    rcases hactive (.inr hw) with rfl | ha
    · exact Nat.lt_succ_self _
    · exact Nat.lt_succ_of_lt (h.log.active_lt ha)
  · rw [hwrites] at hw
    rw [hnext]
    exact Nat.lt_succ_of_lt (h.log.writer w hw)
  · rw [hwrites, hnow]
    exact h.log.past
  · rw [Spaced, hwrites]
    apply h.log.spaced.imp_of_mem
    intro w w' hw hw' hspaced hs
    exact hspaced (hsameOld (hwriter hw) (hwriter hw') hs)
  · rcases hactive hc with rfl | ha <;> rcases hactive hc' with rfl | ha'
    · rfl
    · exact absurd (hofNew (hold ha') ⟨hs.1.symm, hs.2.symm⟩) (hsole ha')
    · exact absurd (hofNew (hold ha) hs) (hsole ha)
    · exact h.log.one c c' ha ha' (hsameOld (hold ha) (hold ha') hs)
  · rw [hwrites] at hw
    rw [hnow]
    rcases hactive hc with rfl | ha
    · exact .inr (hrested.2 w hw (hofNew (hwriter hw) hs))
    · rw [hother (hold ha)]
      exact h.log.recent c ha w hw (hsameOld (hwriter hw) (hold ha) hs)
  · by_cases hc : c = s.nextConn
    · subst hc
      intro until' hd
      rw [hself] at hd
      cases hd
    · rw [TimerOk, hother hc]
      exact h.timer c

theorem PaceOk.send (h : s.PaceOk) {url pubkey body : JsString}
    (hg : s.RestsBetween (.send url pubkey body)) : (s.send url pubkey body).PaceOk := by
  unfold PoolState.send
  dsimp only
  split
  · rename_i c hget
    exact h.push (by rw [← lookup_getD, hget]) body
  · rename_i hget
    have hnone : s.lookup url pubkey = none := by rw [← lookup_getD, hget]
    split
    · refine h.teardown rfl rfl rfl rfl fun url' pubkey' c hl => ?_
      rw [← s.lookup_overCap url]
      exact hl
    · rename_i hcap
      have hrested : s.Rested url pubkey := hg (by simp [makesConn, hnone, Nat.lt_of_not_le hcap])
      have hlookup : (s.newConn url pubkey ((s.conns.get? url).getD .empty)).lookup url pubkey =
          some s.nextConn := by simp [lookup_newConn]
      exact (h.newConn hnone hrested).push hlookup body

theorem PaceOk.setDraining (h : s.PaceOk) {d : Drain} (hc : s.Active c)
    (hd : ∀ until', d ≠ .pacing until') : (s.setDraining c d).PaceOk :=
  (h.atWork hc).setDraining fun until' heq => absurd heq (hd until')

theorem PaceOk.setReadyState (h : s.PaceOk) (w : SocketId) (r : ReadyState) :
    (s.setReadyState w r).PaceOk :=
  h.teardown rfl rfl rfl rfl fun _ _ _ hl => hl

theorem PaceOk.openSocket (h : s.PaceOk) (hc : s.Active c) (token : ChatterToken) :
    (s.openSocket c token).PaceOk := by
  have hset : (s.setConn c { s.conn c with
      ws := some s.nextSocket, draining := some (.connecting s.nextSocket) }).PaceOk :=
    h.log.setConn_paceOk (fun c' _ => h.timer c') rfl rfl rfl (fun _ => hc) fun _ hd => by cases hd
  exact hset.teardown rfl rfl rfl rfl fun _ _ _ hl => hl

theorem PaceOk.settleConnect (h : s.PaceOk) (w : SocketId) {d : Drain}
    (hd : ∀ until', d ≠ .pacing until') : (s.settleConnect w d).PaceOk := by
  unfold PoolState.settleConnect
  split
  · rename_i w' hdrain
    split_ifs
    · exact h.setDraining (.inr (by simp [hdrain, Drain.mayWrite])) hd
    · exact h
  · exact h

theorem PaceOk.settleSends (h : s.PaceOk) (c : ConnId) (status : SendStatus) :
    (s.settleSends c status).PaceOk := by
  have hset : (s.setConn c { s.conn c with draining := none, awaiting := [] }).PaceOk :=
    h.log.setConn_paceOk (fun c' _ => h.timer c') rfl rfl rfl (by simp [Drain.mayWrite]) (by simp)
  exact hset.teardown rfl rfl rfl rfl fun _ _ _ hl => hl

theorem PaceOk.tick (h : s.PaceOk) (ms : Nat) : PaceOk { s with now := s.now + ms } := by
  refine ⟨⟨h.log.known, h.log.started, h.log.writer, fun w hw => ?_, h.log.spaced, h.log.one,
    fun c hc w hw hs => ?_⟩, h.timer⟩
  · exact Nat.le_trans (h.log.past w hw) (Nat.le_add_right _ _)
  · rcases h.log.recent c hc w hw hs with hlast | hpast
    · exact .inl hlast
    · exact .inr (Nat.le_trans hpast (Nat.le_add_right _ _))

theorem step_paceOk {a : PoolAction} (h : s.PaceOk) (hg : s.RestsBetween a)
    (hs : s.step a = some s') : s'.PaceOk := by
  have hwrites {c : ConnId} {d : Drain} (hd : (s.conn c).draining = some d)
      (hmay : Drain.mayWrite (some d) = true) : s.Active c := .inr (hd ▸ hmay)
  have hstep := hs
  revert hg hstep
  apply step_elim (motive := fun a s' => s.RestsBetween a → s.step a = some s' → s'.PaceOk) hs
  case send => exact fun url pubkey body hg _ => h.send hg
  case unregistered => exact fun c hd _ _ => h.setDraining (hwrites hd rfl) (by simp)
  case registered =>
    intro c token hd _ _
    have htoken : (s.setToken (s.conn c).url (s.conn c).pubkey token).PaceOk :=
      h.teardown rfl rfl rfl rfl fun _ _ _ hl => hl
    exact htoken.setDraining (hwrites hd rfl) (by simp)
  case undialed => exact fun c token hd _ _ => h.setDraining (hwrites hd rfl) (by simp)
  case dialed => exact fun c token hd _ _ => h.openSocket (hwrites hd rfl) token
  case opened => exact fun w _ _ _ => (h.setReadyState w .OPEN).settleConnect w (by simp)
  case errored => exact fun w _ _ => (h.setReadyState w .CLOSING).settleConnect w (by simp)
  case closing => exact fun w _ _ => h.setReadyState w .CLOSING
  case closed =>
    intro w _ _
    have hset := h.setReadyState w .CLOSED
    exact hset.log.setConn_paceOk (fun c' _ => hset.timer c') rfl rfl rfl .inr (hset.timer _)
  case resume => exact fun c hd _ _ => (h.atWork (hwrites hd rfl)).pace
  case timer =>
    intro c until' hd _ hstep
    -- the timer fires no earlier than it was set for
    have hdue : until' ≤ s.now := by
      by_contra hearly
      simp [step, hd, hearly] at hstep
    exact (h.atWork (hwrites hd rfl)).write (Nat.le_trans (h.timer c until' hd) hdue)
  case fulfilled => exact fun c _ _ _ => h.settleSends c .fulfilled
  case rejected => exact fun c _ _ _ => h.settleSends c .rejected
  case destroyInstance =>
    intro url _ _
    refine h.teardown rfl rfl rfl rfl fun url' pubkey c hl => ?_
    rw [lookup_destroyInstance] at hl
    split at hl
    · cases hl
    · exact hl
  case destroyAll =>
    intro _ _
    refine h.teardown rfl rfl rfl rfl fun url pubkey c hl => ?_
    cases hl
  case tick => exact fun ms _ _ => h.tick ms

end Steps

/-- Where a sender gets a new connection only after its earlier one is at rest, no two frames of
one sender come closer than the spacing, however the rooms close and open again. -/
theorem rested_spaced (now : Nat) {as : List PoolAction} {t : PoolState}
    (hg : Guarded step RestsBetween (init now) as) (hr : run step (init now) as = some t) :
    t.Spaced := by
  have hpace : t.PaceOk := run_invariant (fun _ _ _ h hg hs => step_paceOk h hg hs)
    (init_paceOk now) hg hr
  exact hpace.log.spaced

/-- One message, and the room is closed; `ms` later it opens again and the sender goes on. -/
abbrev comesBack (ms : Nat) : List PoolAction :=
  [.send (js "https://a.example") (js "p") (js "<p>hi</p>"),
    .registered 0 (some ⟨js "t1", js "id1"⟩), .dial 0 true, .opened 0, .tick 1000, .resume 0,
    .settle 0, .destroyInstance (js "https://a.example"), .tick ms,
    .send (js "https://a.example") (js "p") (js "<p>ho</p>"), .dial 1 true, .opened 1, .resume 1]

theorem rested_spaced_comesBack :
    ∃ t, run step (init 0) (comesBack 700) = some t ∧ t.writes.length = 2 ∧ t.Spaced :=
  have hg : Guarded step RestsBetween (init 0) (comesBack 700) := by decide +kernel
  ⟨_, rfl, rfl, rested_spaced 0 hg rfl⟩

/-- The new connection does not know when the old one wrote. -/
theorem spaced_fails_comesBack :
    ∃ t, run step (init 0) (comesBack 100) = some t ∧ ¬t.Spaced := by
  refine ⟨_, rfl, ?_⟩
  decide +kernel

end PoolState

end LivelierBridge.Owncast
