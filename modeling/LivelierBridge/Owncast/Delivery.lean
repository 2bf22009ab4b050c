import LivelierBridge.Owncast.ChatPool

namespace LivelierBridge.Owncast

open Framework Js

def PoolAction.destroys : PoolAction → Bool
  | .destroyInstance _ | .destroyAll => true
  | _ => false

namespace PoolState

/-- How often the payload of a `send` was handed to an OPEN socket. -/
def written (s : PoolState) (id : SendId) : Nat := (s.writes.map Write.send).count id

def SameSender (s : PoolState) (c c' : ConnId) : Prop :=
  (s.conn c).url = (s.conn c').url ∧ (s.conn c).pubkey = (s.conn c').pubkey

/-- The pool delivers exactly what its `send` promises report, in the order of the calls. -/
structure Reported (s : PoolState) : Prop where
  fulfilled : ∀ id < s.nextSend, (s.sends id).status = .fulfilled →
    s.written id = 1 ∧ ∀ c, id ∉ (s.conn c).queue
  rejected : ∀ id < s.nextSend, (s.sends id).status = .rejected → s.written id = 0
  ordered : s.writes.Pairwise fun w w' => s.SameSender w.conn w'.conn → w.send < w'.send

/-- The payload a write would take belongs to a send that still awaits it, and the socket is
OPEN. -/
def WriteOk (s : PoolState) (c : ConnId) : Prop :=
  ∀ id ∈ (s.conn c).queue.head?, s.isOpen c = true ∧ (s.sends id).status = .pending

/-- No awaiting send of the connection was written yet. -/
def Unwritten (s : PoolState) (c : ConnId) : Prop :=
  ∀ id ∈ (s.conn c).awaiting, s.written id = 0

/-- What a new `send` finds on its connection: not a loop that has ended without being cleared,
and, when it would write at once, no payload left behind. -/
def SendOk (s : PoolState) (c : ConnId) : Option Drain → Prop
  | none => s.isOpen c = true → (s.conn c).lastSentAt + SEND_SPACING_MS ≤ s.now →
      (s.conn c).queue = []
  | some .finished => False
  | some _ => True

def ConnectOk (s : PoolState) (w : SocketId) : Option Drain → Prop
  | some (.connecting w') => w' = w → s.Unwritten (s.socket w).conn
  | _ => True

/-- Payloads are written to an OPEN socket for a send that still awaits them, a `connect` fails
only before its loop wrote anything, and no `send` meets a loop that has already ended. -/
def Lossless (s : PoolState) : PoolAction → Prop
  | .send url pubkey _ => ∀ c ∈ s.lookup url pubkey, s.SendOk c (s.conn c).draining
  | .registered c none | .dial c false => s.Unwritten c
  | .errored w => s.ConnectOk w (s.conn (s.socket w).conn).draining
  | .resume c => (s.conn c).lastSentAt + SEND_SPACING_MS ≤ s.now → s.WriteOk c
  | .timer c => s.WriteOk c
  | _ => True

instance (s : PoolState) (c : ConnId) : Decidable (s.WriteOk c) :=
  inferInstanceAs (Decidable (∀ id ∈ (s.conn c).queue.head?, _))

instance (s : PoolState) (c : ConnId) : Decidable (s.Unwritten c) :=
  inferInstanceAs (Decidable (∀ id ∈ (s.conn c).awaiting, _))

instance (s : PoolState) (c : ConnId) : (d : Option Drain) → Decidable (s.SendOk c d)
  | none => inferInstanceAs (Decidable (_ → _ → _))
  | some .finished => inferInstanceAs (Decidable False)
  | some .registering | some (.dialing _) | some (.connecting _) | some .connected
  | some (.pacing _) | some .failed => inferInstanceAs (Decidable True)

instance (s : PoolState) (w : SocketId) : (d : Option Drain) → Decidable (s.ConnectOk w d)
  | some (.connecting _) => inferInstanceAs (Decidable (_ → _))
  | none | some .registering | some (.dialing _) | some .connected | some (.pacing _)
  | some .failed | some .finished => inferInstanceAs (Decidable True)

instance (s : PoolState) : (a : PoolAction) → Decidable (s.Lossless a)
  | .send url pubkey _ => inferInstanceAs (Decidable (∀ c ∈ s.lookup url pubkey, _))
  | .registered c none | .dial c false => inferInstanceAs (Decidable (s.Unwritten c))
  | .errored _ => inferInstanceAs (Decidable (s.ConnectOk _ _))
  | .resume _ => inferInstanceAs (Decidable (_ → _))
  | .timer c => inferInstanceAs (Decidable (s.WriteOk c))
  | .registered _ (some _) | .dial _ true | .opened _ | .closing _ | .closed _ | .settle _
  | .destroyInstance _ | .destroyAll | .tick _ => inferInstanceAs (Decidable True)

/-- A connection's queue against its writes and its awaiting sends. -/
structure QueueOk (s : PoolState) (c : ConnId) : Prop where
  owned : ∀ id, id ∈ (s.conn c).queue ∨ id ∈ (s.conn c).awaiting →
    id < s.nextSend ∧ (s.sends id).conn = some c
  pending : ∀ id ∈ (s.conn c).awaiting, (s.sends id).status = .pending
  sorted : (s.conn c).queue.Pairwise (· < ·)
  after : ∀ w ∈ s.writes, w.conn = c → ∀ id ∈ (s.conn c).queue, w.send < id
  accounted : ∀ id ∈ (s.conn c).awaiting, id ∈ (s.conn c).queue ∨ s.written id = 1
  leftover : ∀ id ∈ (s.conn c).queue, (s.sends id).status ≠ .fulfilled ∧
    ((s.sends id).status = .pending → id ∈ (s.conn c).awaiting)

/-- Where the drain loop of a connection can stand. -/
structure PhaseOk (s : PoolState) (c : ConnId) : Prop where
  idle : (s.conn c).draining = none → (s.conn c).awaiting = []
  finished : (s.conn c).draining = some .finished → (s.conn c).queue = []
  failed : (s.conn c).draining = some .failed → s.Unwritten c
  known : (s.conn c).draining ≠ none → c < s.nextConn

/-- What every send promise, write and sender fulfils, whichever loop is running. -/
structure LogOk (s : PoolState) : Prop where
  queue : ∀ c, s.QueueOk c
  writer : ∀ w ∈ s.writes, w.send < s.nextSend ∧ (s.sends w.send).conn = some w.conn ∧
    w.conn < s.nextConn
  fulfilled : ∀ id < s.nextSend, (s.sends id).status = .fulfilled → s.written id = 1
  rejected : ∀ id < s.nextSend, (s.sends id).status = .rejected → s.written id = 0
  ordered : s.writes.Pairwise fun w w' => w.conn = w'.conn → w.send < w'.send
  mapped : ∀ c < s.nextConn, s.lookup (s.conn c).url (s.conn c).pubkey = some c
  known : ∀ url pubkey c, s.lookup url pubkey = some c → c < s.nextConn

structure PoolOk (s : PoolState) : Prop where
  log : s.LogOk
  phase : ∀ c, s.PhaseOk c

/-- `PoolOk` while the loop of `c` is between two awaits. -/
structure Working (s : PoolState) (c : ConnId) : Prop where
  log : s.LogOk
  phase : ∀ c' ≠ c, s.PhaseOk c'
  known : c < s.nextConn

/-- A step keeps the queue of a connection when it leaves alone what the queue is about. -/
theorem QueueOk.frame {s s' : PoolState} {c : ConnId} (h : s.QueueOk c)
    (hq : (s'.conn c).queue = (s.conn c).queue)
    (ha : (s'.conn c).awaiting = (s.conn c).awaiting) (hnext : s.nextSend ≤ s'.nextSend)
    (hsends : ∀ id, id ∈ (s.conn c).queue ∨ id ∈ (s.conn c).awaiting → s'.sends id = s.sends id)
    (hafter : ∀ w ∈ s'.writes, w.conn = c → w ∈ s.writes)
    (hwritten : ∀ id ∈ (s.conn c).awaiting, s'.written id = s.written id) : s'.QueueOk c := by
  constructor
  · rw [hq, ha]
    intro id hm
    rw [hsends id hm]
    exact ⟨Nat.lt_of_lt_of_le (h.owned id hm).1 hnext, (h.owned id hm).2⟩
  · rw [ha]
    intro id hm
    rw [hsends id (.inr hm)]
    exact h.pending id hm
  · rw [hq]
    exact h.sorted
  · rw [hq]
    intro w hw hc
    exact h.after w (hafter w hw hc) hc
  · rw [hq, ha]
    intro id hm
    rw [hwritten id hm]
    exact h.accounted id hm
  · rw [hq, ha]
    intro id hm
    rw [hsends id (.inl hm)]
    exact h.leftover id hm

/-- A step keeps the phase of a loop when it leaves alone its connection and its sends. -/
theorem PhaseOk.frame {s s' : PoolState} {c : ConnId} (h : s.PhaseOk c)
    (hd : (s'.conn c).draining = (s.conn c).draining)
    (hq : (s'.conn c).queue = (s.conn c).queue)
    (ha : (s'.conn c).awaiting = (s.conn c).awaiting) (hn : s.nextConn ≤ s'.nextConn)
    (hwritten : ∀ id ∈ (s.conn c).awaiting, s'.written id = s.written id) : s'.PhaseOk c := by
  constructor
  · rw [hd, ha]
    exact h.idle
  · rw [hd, hq]
    exact h.finished
  · rw [hd, Unwritten, ha]
    intro hf id hm
    rw [hwritten id hm]
    exact h.failed hf id hm
  · rw [hd]
    exact fun hne => Nat.lt_of_lt_of_le (h.known hne) hn

theorem init_poolOk (now : Nat) : (init now).PoolOk := by
  constructor
  · constructor <;> simp [init, lookup]
    intro c
    constructor <;> simp
  · intro c
    constructor <;> simp [init]

theorem LogOk.sameConn {s : PoolState} (h : s.LogOk) {c c' : ConnId} (hc : c < s.nextConn)
    (hc' : c' < s.nextConn) (hs : s.SameSender c c') : c = c' := by
  have he := h.mapped c hc
  rw [hs.1, hs.2, h.mapped c' hc'] at he
  exact (Option.some.inj he).symm

theorem LogOk.reported {s : PoolState} (h : s.LogOk) : s.Reported := by
  refine ⟨?_, h.rejected, ?_⟩
  · intro id hid hf
    refine ⟨h.fulfilled id hid hf, ?_⟩
    intro c hm
    exact ((h.queue c).leftover id hm).1 hf
  · refine h.ordered.imp_of_mem ?_
    intro w w' hw hw' ho hs
    exact ho (h.sameConn (h.writer w hw).2.2 (h.writer w' hw').2.2 hs)

/-- A queued payload was not written. -/
theorem LogOk.queued {s : PoolState} (h : s.LogOk) {c : ConnId} {id : SendId}
    (hid : id ∈ (s.conn c).queue) : s.written id = 0 := by
  refine List.count_eq_zero.mpr ?_
  intro hm
  obtain ⟨w, hw, rfl⟩ := List.mem_map.mp hm
  have hc : w.conn = c := by
    have he := ((h.queue c).owned _ (.inl hid)).2
    rw [(h.writer w hw).2.1] at he
    exact Option.some.inj he
  exact Nat.lt_irrefl _ ((h.queue c).after w hw hc _ hid)

/-- The two states agree on everything the invariants read but the drain phases. -/
structure SameLog (s s' : PoolState) : Prop where
  lookup : ∀ url pubkey, s'.lookup url pubkey = s.lookup url pubkey
  conn : ∀ c, (s'.conn c).url = (s.conn c).url ∧ (s'.conn c).pubkey = (s.conn c).pubkey ∧
    (s'.conn c).queue = (s.conn c).queue ∧ (s'.conn c).awaiting = (s.conn c).awaiting
  nextConn : s'.nextConn = s.nextConn
  sends : s'.sends = s.sends
  nextSend : s'.nextSend = s.nextSend
  writes : s'.writes = s.writes

theorem SameLog.logOk {s s' : PoolState} (e : SameLog s s') (h : s.LogOk) : s'.LogOk := by
  have written (id : SendId) : s'.written id = s.written id := by rw [written, e.writes, written]
  constructor
  · intro c
    obtain ⟨-, -, hq, ha⟩ := e.conn c
    apply (h.queue c).frame hq ha (Nat.le_of_eq e.nextSend.symm)
    · intro id _
      rw [e.sends]
    · intro w hw _
      rw [← e.writes]
      exact hw
    · exact fun id _ => written id
  · rw [e.writes, e.nextSend, e.sends, e.nextConn]
    exact h.writer
  · simp only [written, e.nextSend, e.sends]
    exact h.fulfilled
  · simp only [written, e.nextSend, e.sends]
    exact h.rejected
  · rw [e.writes]
    exact h.ordered
  · intro c hc
    rw [e.lookup, (e.conn c).1, (e.conn c).2.1]
    exact h.mapped c (e.nextConn ▸ hc)
  · intro url pubkey c hl
    rw [e.nextConn]
    exact h.known url pubkey c (e.lookup url pubkey ▸ hl)

theorem SameLog.phaseOk {s s' : PoolState} (e : SameLog s s') {c : ConnId}
    (hd : (s'.conn c).draining = (s.conn c).draining) (h : s.PhaseOk c) : s'.PhaseOk c := by
  obtain ⟨-, -, hq, ha⟩ := e.conn c
  apply h.frame hd hq ha (Nat.le_of_eq e.nextConn.symm)
  intro id _
  rw [written, e.writes, written]

theorem sameLog_setConn (s : PoolState) (c : ConnId) (conn : ChatterConn)
    (hu : conn.url = (s.conn c).url) (hp : conn.pubkey = (s.conn c).pubkey)
    (hq : conn.queue = (s.conn c).queue) (ha : conn.awaiting = (s.conn c).awaiting) :
    SameLog s (s.setConn c conn) := by
  refine ⟨fun _ _ => rfl, ?_, rfl, rfl, rfl, rfl⟩
  intro c'
  by_cases h : c' = c
  · subst h
    simp [setConn, hu, hp, hq, ha]
  · simp [setConn, Function.update_of_ne h]

theorem PoolOk.working {s : PoolState} (h : s.PoolOk) {c : ConnId} (hc : c < s.nextConn) :
    s.Working c := ⟨h.log, fun c' _ => h.phase c', hc⟩

/-- Steps that touch neither a connection's payloads nor its loop. -/
theorem PoolOk.same {s s' : PoolState} (h : s.PoolOk) (e : SameLog s s')
    (hd : ∀ c, (s'.conn c).draining = (s.conn c).draining) : s'.PoolOk :=
  ⟨e.logOk h.log, fun c => e.phaseOk (hd c) (h.phase c)⟩

theorem PoolOk.setReadyState {s : PoolState} (h : s.PoolOk) (w : SocketId) (r : ReadyState) :
    (s.setReadyState w r).PoolOk :=
  h.same ⟨fun _ _ => rfl, fun _ => ⟨rfl, rfl, rfl, rfl⟩, rfl, rfl, rfl, rfl⟩ fun _ => rfl

theorem Working.setDraining {s : PoolState} {c : ConnId} (h : s.Working c) (d : Drain)
    (hf : d = .finished → (s.conn c).queue = []) (hx : d = .failed → s.Unwritten c) :
    (s.setDraining c d).PoolOk := by
  have e : SameLog s (s.setDraining c d) := sameLog_setConn s c _ rfl rfl rfl rfl
  refine ⟨e.logOk h.log, ?_⟩
  intro c'
  by_cases hc : c' = c
  · subst hc
    have hd : ((s.setDraining c' d).conn c').draining = some d := by
      simp [PoolState.setDraining, setConn]
    have hq : ((s.setDraining c' d).conn c').queue = (s.conn c').queue := (e.conn c').2.2.1
    have ha : ((s.setDraining c' d).conn c').awaiting = (s.conn c').awaiting := (e.conn c').2.2.2
    constructor
    · simp [hd]
    · intro he
      rw [hq]
      exact hf (Option.some.inj (hd.symm.trans he))
    · intro he
      rw [Unwritten, ha]
      exact hx (Option.some.inj (hd.symm.trans he))
    · exact fun _ => h.known
  · refine e.phaseOk ?_ (h.phase c' hc)
    rw [PoolState.setDraining, setConn_other s hc]

theorem Working.connect {s : PoolState} {c : ConnId} (h : s.Working c) : (s.connect c).PoolOk := by
  unfold PoolState.connect
  split <;> exact h.setDraining _ (by simp) (by simp)

theorem Working.drainRest {s : PoolState} {c : ConnId} (h : s.Working c) :
    (s.drainRest c).PoolOk := by
  unfold PoolState.drainRest
  split_ifs with hq
  · exact h.setDraining _ (fun _ => hq) (by simp)
  · exact h.setDraining _ (by simp) (by simp)
  · exact h.connect

/-- The state in which the loop goes on after a payload went out. -/
def shipped (s : PoolState) (c : ConnId) (id : SendId) (w : SocketId) (rest : List SendId) :
    PoolState :=
  setConn { s with writes := s.writes ++ [⟨id, c, w, s.now⟩] } c
    { s.conn c with queue := rest, lastSentAt := s.now }

theorem written_shipped (s : PoolState) (c : ConnId) (id : SendId) (w : SocketId)
    (rest : List SendId) (id' : SendId) : (s.shipped c id w rest).written id' =
      s.written id' + if id = id' then 1 else 0 := by
  simp [written, shipped, setConn, List.count_cons]

theorem Working.shipped {s : PoolState} {c : ConnId} (h : s.Working c) {id : SendId}
    {rest : List SendId} (hq : (s.conn c).queue = id :: rest)
    (hp : (s.sends id).status = .pending) (w : SocketId) : (s.shipped c id w rest).Working c := by
  have hid : id ∈ (s.conn c).queue := by simp [hq]
  have own := ((h.log.queue c).owned id (.inl hid))
  have other {c' : ConnId} (hc : c' ≠ c) : (s.shipped c id w rest).conn c' = s.conn c' :=
    setConn_other _ hc _
  have self : (s.shipped c id w rest).conn c =
      { s.conn c with queue := rest, lastSentAt := s.now } := setConn_self _ c _
  have keep {id' : SendId} (hne : id ≠ id') :
      (s.shipped c id w rest).written id' = s.written id' := by simp [written_shipped, hne]
  have foreign {c' : ConnId} (hc : c' ≠ c) {id' : SendId}
      (hm : id' ∈ (s.conn c').queue ∨ id' ∈ (s.conn c').awaiting) : id ≠ id' := by
    rintro rfl
    exact hc (Option.some.inj (((h.log.queue c').owned id hm).2.symm.trans own.2))
  have sorted := (h.log.queue c).sorted
  rw [hq, List.pairwise_cons] at sorted
  have once : (s.shipped c id w rest).written id = 1 := by
    simp [written_shipped, h.log.queued hid]
  refine ⟨⟨?_, ?_, ?_, ?_, ?_, ?_, h.log.known⟩, ?_, h.known⟩
  · intro c'
    by_cases hc : c' = c
    · subst hc
      constructor <;> simp only [self]
      · rintro id' (hm | hm)
        · exact (h.log.queue c').owned id' (.inl (by simp [hq, hm]))
        · exact (h.log.queue c').owned id' (.inr hm)
      · exact (h.log.queue c').pending
      · exact sorted.2
      · intro x hx hxc id' hm
        rcases List.mem_append.mp hx with hx | hx
        · exact (h.log.queue c').after x hx hxc id' (by simp [hq, hm])
        · obtain rfl := List.mem_singleton.mp hx
          exact sorted.1 id' hm
      · intro id' hm
        by_cases he : id = id'
        · exact .inr (he ▸ once)
        · rw [keep he]
          refine ((h.log.queue c').accounted id' hm).imp_left ?_
          rw [hq, List.mem_cons]
          exact fun ho => ho.resolve_left (Ne.symm he)
      · exact fun id' hm => (h.log.queue c').leftover id' (by simp [hq, hm])
    · apply (h.log.queue c').frame
      · rw [other hc]
      · rw [other hc]
      · exact Nat.le_refl _
      · exact fun _ _ => rfl
      · intro x hx hxc
        rcases List.mem_append.mp hx with hx | hx
        · exact hx
        · obtain rfl := List.mem_singleton.mp hx
          exact absurd hxc.symm hc
      · exact fun id' hm => keep (foreign hc (.inr hm))
  · intro x hx
    rcases List.mem_append.mp hx with hx | hx
    · exact h.log.writer x hx
    · obtain rfl := List.mem_singleton.mp hx
      exact ⟨own.1, own.2, h.known⟩
  · intro id' hlt hf
    rw [keep (by rintro rfl; exact absurd (hp.symm.trans hf) (by decide))]
    exact h.log.fulfilled id' hlt hf
  · intro id' hlt hf
    rw [keep (by rintro rfl; exact absurd (hp.symm.trans hf) (by decide))]
    exact h.log.rejected id' hlt hf
  · refine List.pairwise_append.mpr ⟨h.log.ordered, List.pairwise_singleton _ _, ?_⟩
    intro x hx y hy hxy
    obtain rfl := List.mem_singleton.mp hy
    exact (h.log.queue c).after x hx hxy id hid
  · intro c' hc'
    by_cases hc : c' = c
    · subst hc
      rw [self]
      exact h.log.mapped c' hc'
    · rw [other hc]
      exact h.log.mapped c' hc'
  · intro c' hc
    apply (h.phase c' hc).frame
    · rw [other hc]
    · rw [other hc]
    · rw [other hc]
    · exact Nat.le_refl _
    · exact fun id' hm => keep (foreign hc (.inr hm))

theorem Working.write {s : PoolState} {c : ConnId} (h : s.Working c) (hw : s.WriteOk c) :
    (s.write c).PoolOk := by
  unfold PoolState.write
  cases hq : (s.conn c).queue with
  | nil => exact h.setDraining _ (fun _ => hq) (by simp)
  | cons id rest =>
    obtain ⟨hopen, hp⟩ := hw id (by simp [hq])
    cases hws : (s.conn c).ws with
    | none => simp [isOpen, hws] at hopen
    | some w =>
      have hr : (s.socket w).readyState = .OPEN := by simpa [isOpen, hws] using hopen
      simp only [hr]
      exact (h.shipped hq hp w).drainRest

theorem Working.pace {s : PoolState} {c : ConnId} (h : s.Working c)
    (hw : (s.conn c).lastSentAt + SEND_SPACING_MS ≤ s.now → s.WriteOk c) : (s.pace c).PoolOk := by
  unfold PoolState.pace
  split_ifs with hn
  · exact h.setDraining _ (by simp) (by simp)
  · exact h.write (hw (Nat.not_lt.mp hn))

theorem Working.drain {s : PoolState} {c : ConnId} (h : s.Working c)
    (hw : s.isOpen c = true → (s.conn c).lastSentAt + SEND_SPACING_MS ≤ s.now → s.WriteOk c) :
    (s.drain c).PoolOk := by
  unfold PoolState.drain
  split_ifs with ho
  · exact h.pace (hw ho)
  · exact h.connect

theorem PoolOk.setDraining {s : PoolState} (h : s.PoolOk) {c : ConnId}
    (hd : (s.conn c).draining ≠ none) (d : Drain) (hf : d ≠ .finished)
    (hx : d = .failed → s.Unwritten c) : (s.setDraining c d).PoolOk :=
  (h.working ((h.phase c).known hd)).setDraining d (fun he => absurd he hf) hx

theorem PoolOk.settleConnect {s : PoolState} (h : s.PoolOk) (w : SocketId) (d : Drain)
    (hf : d ≠ .finished)
    (hx : d = .failed → s.ConnectOk w (s.conn (s.socket w).conn).draining) :
    (s.settleConnect w d).PoolOk := by
  unfold PoolState.settleConnect
  split
  case _ w' hd =>
    split_ifs with hw
    · refine h.setDraining (by simp [hd]) d hf ?_
      intro he
      have hc := hx he
      rw [hd] at hc
      exact hc hw
    · exact h
  case _ => exact h

/-- A new send awaits the loop of its connection with its payload queued last. -/
theorem LogOk.enqueue {s : PoolState} (h : s.LogOk) {c : ConnId} (body : JsString) :
    (s.enqueue c body).LogOk := by
  have self : (s.enqueue c body).conn c = { s.conn c with
      queue := (s.conn c).queue ++ [s.nextSend],
      awaiting := (s.conn c).awaiting ++ [s.nextSend] } := setConn_self _ c _
  have other {c' : ConnId} (hc : c' ≠ c) : (s.enqueue c body).conn c' = s.conn c' :=
    setConn_other s hc _
  have old {id : SendId} (hid : id < s.nextSend) : (s.enqueue c body).sends id = s.sends id := by
    simp [PoolState.enqueue, Function.update_of_ne (Nat.ne_of_lt hid)]
  have new : (s.enqueue c body).sends s.nextSend = ⟨some c, body, .pending⟩ := by
    simp [PoolState.enqueue]
  have lt {c' : ConnId} {id : SendId}
      (hm : id ∈ (s.conn c').queue ∨ id ∈ (s.conn c').awaiting) : id < s.nextSend :=
    ((h.queue c').owned id hm).1
  refine ⟨?_, ?_, ?_, ?_, h.ordered, ?_, h.known⟩
  · intro c'
    by_cases hc : c' = c
    · subst hc
      constructor <;> simp only [self, List.mem_append, List.mem_singleton]
      · have own (id : SendId) (hm : id ∈ (s.conn c').queue ∨ id ∈ (s.conn c').awaiting) :
            id < s.nextSend + 1 ∧ ((s.enqueue c' body).sends id).conn = some c' := by
          rw [old (lt hm)]
          exact ⟨Nat.lt_succ_of_lt (lt hm), ((h.queue c').owned id hm).2⟩
        have own' : s.nextSend < s.nextSend + 1 ∧
            ((s.enqueue c' body).sends s.nextSend).conn = some c' :=
          ⟨Nat.lt_succ_self _, by rw [new]⟩
        rintro id ((hm | rfl) | (hm | rfl))
        · exact own id (.inl hm)
        · exact own'
        · exact own id (.inr hm)
        · exact own'
      · rintro id (hm | rfl)
        · rw [old (lt (.inr hm))]
          exact (h.queue c').pending id hm
        · rw [new]
      · refine List.pairwise_append.mpr ⟨(h.queue c').sorted, List.pairwise_singleton _ _, ?_⟩
        intro id hm id' hm'
        obtain rfl := List.mem_singleton.mp hm'
        exact lt (.inl hm)
      · rintro w hw hwc id (hm | rfl)
        · exact (h.queue c').after w hw hwc id hm
        · exact (h.writer w hw).1
      · rintro id (hm | rfl)
        · exact ((h.queue c').accounted id hm).imp_left .inl
        · exact .inl (.inr rfl)
      · rintro id (hm | rfl)
        · rw [old (lt (.inl hm))]
          exact ⟨((h.queue c').leftover id hm).1, fun hp => .inl (((h.queue c').leftover id hm).2 hp)⟩
        · rw [new]
          exact ⟨by simp, fun _ => .inr rfl⟩
    · apply (h.queue c').frame
      · rw [other hc]
      · rw [other hc]
      · exact Nat.le_succ _
      · exact fun id hm => old (lt hm)
      · exact fun _ hw _ => hw
      · exact fun _ _ => rfl
  · intro w hw
    obtain ⟨hlt, hcn, hk⟩ := h.writer w hw
    rw [old hlt]
    exact ⟨Nat.lt_succ_of_lt hlt, hcn, hk⟩
  · intro id hlt hf
    rcases Nat.lt_succ_iff_lt_or_eq.mp hlt with hlt | rfl
    · exact h.fulfilled id hlt (old hlt ▸ hf)
    · simp [new] at hf
  · intro id hlt hf
    rcases Nat.lt_succ_iff_lt_or_eq.mp hlt with hlt | rfl
    · exact h.rejected id hlt (old hlt ▸ hf)
    · simp [new] at hf
  · intro c' hc'
    by_cases hc : c' = c
    · subst hc
      rw [self]
      exact h.mapped c' hc'
    · rw [other hc]
      exact h.mapped c' hc'

theorem PoolOk.enqueuePhase {s : PoolState} (h : s.PoolOk) {c c' : ConnId} (hc : c' ≠ c)
    (body : JsString) : (s.enqueue c body).PhaseOk c' := by
  have other : (s.enqueue c body).conn c' = s.conn c' := setConn_other s hc _
  apply (h.phase c').frame
  · rw [other]
  · rw [other]
  · rw [other]
  · exact Nat.le_refl _
  · exact fun _ _ => rfl

theorem PoolOk.push {s : PoolState} (h : s.PoolOk) {c : ConnId} (hc : c < s.nextConn)
    (body : JsString) (hs : s.SendOk c (s.conn c).draining) : (s.push c body).PoolOk := by
  have self : (s.enqueue c body).conn c = { s.conn c with
      queue := (s.conn c).queue ++ [s.nextSend],
      awaiting := (s.conn c).awaiting ++ [s.nextSend] } := setConn_self _ c _
  have work : (s.enqueue c body).Working c :=
    ⟨h.log.enqueue body, fun c' hne => h.enqueuePhase hne body, hc⟩
  unfold PoolState.push
  split
  case _ hd =>
    refine work.drain ?_
    intro ho hn id hm
    refine ⟨ho, ?_⟩
    have ho' : s.isOpen c = true := by
      rw [isOpen, self] at ho
      exact ho
    rw [self] at hn hm
    rw [hd] at hs
    obtain rfl : s.nextSend = id := by simpa [hs ho' hn] using hm
    simp [PoolState.enqueue]
  case _ d hd =>
    refine ⟨work.log, ?_⟩
    intro c'
    by_cases hne : c' = c
    · subst hne
      have hdr : ((s.enqueue c' body).conn c').draining = some d := by rw [self]; exact hd
      constructor
      · simp [hdr]
      · intro he
        rw [hdr.symm.trans he |> Option.some.inj] at hd
        rw [hd] at hs
        exact hs.elim
      · intro he
        rw [Option.some.inj (hdr.symm.trans he)] at hd
        intro id hm
        rw [self, List.mem_append, List.mem_singleton] at hm
        rcases hm with hm | rfl
        · exact (h.phase c').failed hd id hm
        · exact work.log.queued (c := c') (by simp [self])
      · exact fun _ => hc
    · exact h.enqueuePhase hne body

/-- A new sender starts with an empty queue. -/
theorem PoolOk.newConn {s : PoolState} (h : s.PoolOk) {url pubkey : JsString}
    (hl : s.lookup url pubkey = none) :
    (s.newConn url pubkey ((s.conns.get? url).getD .empty)).PoolOk := by
  generalize hs' : s.newConn url pubkey ((s.conns.get? url).getD .empty) = s'
  have self : s'.conn s.nextConn = ⟨url, pubkey, none, [], none, [], 0⟩ := by
    simp [← hs', PoolState.newConn]
  have other {c : ConnId} (hc : c ≠ s.nextConn) : s'.conn c = s.conn c := by
    simp [← hs', PoolState.newConn, Function.update_of_ne hc]
  have hn : s'.nextConn = s.nextConn + 1 := by simp [← hs', PoolState.newConn]
  have look (url' pubkey' : JsString) : s'.lookup url' pubkey' =
      if url' = url ∧ pubkey' = pubkey then some s.nextConn else s.lookup url' pubkey' := by
    rw [← hs']
    exact s.lookup_newConn url pubkey url' pubkey'
  have hsends : s'.sends = s.sends := by rw [← hs']; rfl
  have hnext : s'.nextSend = s.nextSend := by rw [← hs']; rfl
  have hwrites : s'.writes = s.writes := by rw [← hs']; rfl
  have written (id : SendId) : s'.written id = s.written id := by
    rw [PoolState.written, hwrites, PoolState.written]
  refine ⟨⟨?_, ?_, ?_, ?_, ?_, ?_, ?_⟩, ?_⟩
  · intro c
    by_cases hc : c = s.nextConn
    · subst hc
      constructor <;> simp [self]
    · apply (h.log.queue c).frame (by rw [other hc]) (by rw [other hc]) (Nat.le_of_eq hnext.symm)
      · exact fun _ _ => by rw [hsends]
      · exact fun w hw _ => hwrites ▸ hw
      · exact fun id _ => written id
  · rw [hwrites, hnext, hsends, hn]
    exact fun w hw => (h.log.writer w hw).imp_right fun hw' => hw'.imp_right Nat.lt_succ_of_lt
  · simp only [written, hnext, hsends]
    exact h.log.fulfilled
  · simp only [written, hnext, hsends]
    exact h.log.rejected
  · rw [hwrites]
    exact h.log.ordered
  · intro c hc
    rw [hn] at hc
    rcases Nat.lt_succ_iff_lt_or_eq.mp hc with hc | rfl
    · have hm := h.log.mapped c hc
      rw [other (Nat.ne_of_lt hc), look, if_neg, hm]
      rintro ⟨hu, hp⟩
      rw [hu, hp, hl] at hm
      cases hm
    · simp [self, look]
  · intro url' pubkey' c hc
    rw [look] at hc
    rw [hn]
    split_ifs at hc
    · obtain rfl := Option.some.inj hc
      exact Nat.lt_succ_self _
    · exact Nat.lt_succ_of_lt (h.log.known url' pubkey' c hc)
  · intro c
    by_cases hc : c = s.nextConn
    · subst hc
      constructor <;> simp [self]
    · apply (h.phase c).frame (by rw [other hc]) (by rw [other hc]) (by rw [other hc])
      · rw [hn]
        exact Nat.le_succ _
      · exact fun id _ => written id

/-- A send over the cap rejects with nothing queued. -/
theorem PoolOk.overCap {s s' : PoolState} (h : s.PoolOk) (body : JsString)
    (hlook : ∀ url pubkey, s'.lookup url pubkey = s.lookup url pubkey)
    (hconn : s'.conn = s.conn) (hn : s'.nextConn = s.nextConn)
    (hsends : s'.sends = Function.update s.sends s.nextSend ⟨none, body, .rejected⟩)
    (hnext : s'.nextSend = s.nextSend + 1) (hwrites : s'.writes = s.writes) : s'.PoolOk := by
  have old {id : SendId} (hid : id < s.nextSend) : s'.sends id = s.sends id := by
    simp [hsends, Function.update_of_ne (Nat.ne_of_lt hid)]
  have new : s'.sends s.nextSend = ⟨none, body, .rejected⟩ := by simp [hsends]
  have written (id : SendId) : s'.written id = s.written id := by
    rw [PoolState.written, hwrites, PoolState.written]
  have lt {c : ConnId} {id : SendId}
      (hm : id ∈ (s.conn c).queue ∨ id ∈ (s.conn c).awaiting) : id < s.nextSend :=
    ((h.log.queue c).owned id hm).1
  refine ⟨⟨?_, ?_, ?_, ?_, ?_, ?_, ?_⟩, ?_⟩
  · intro c
    apply (h.log.queue c).frame (by rw [hconn]) (by rw [hconn])
    · rw [hnext]
      exact Nat.le_succ _
    · exact fun id hm => old (lt hm)
    · exact fun w hw _ => hwrites ▸ hw
    · exact fun id _ => written id
  · intro w hw
    rw [hwrites] at hw
    obtain ⟨hlt, hw'⟩ := h.log.writer w hw
    rw [old hlt, hnext, hn]
    exact ⟨Nat.lt_succ_of_lt hlt, hw'⟩
  · intro id hlt hf
    rw [hnext] at hlt
    rw [written]
    rcases Nat.lt_succ_iff_lt_or_eq.mp hlt with hlt | rfl
    · exact h.log.fulfilled id hlt (old hlt ▸ hf)
    · simp [new] at hf
  · intro id hlt hf
    rw [hnext] at hlt
    rw [written]
    rcases Nat.lt_succ_iff_lt_or_eq.mp hlt with hlt | rfl
    · exact h.log.rejected id hlt (old hlt ▸ hf)
    · refine List.count_eq_zero.mpr ?_
      intro hm
      obtain ⟨w, hw, he⟩ := List.mem_map.mp hm
      exact Nat.ne_of_lt (h.log.writer w hw).1 he
  · rw [hwrites]
    exact h.log.ordered
  · rw [hn, hconn]
    exact fun c hc => (hlook _ _).trans (h.log.mapped c hc)
  · rw [hn]
    exact fun url pubkey c hl => h.log.known url pubkey c ((hlook url pubkey).symm.trans hl)
  · intro c
    exact (h.phase c).frame (by rw [hconn]) (by rw [hconn]) (by rw [hconn])
      (Nat.le_of_eq hn.symm) fun id _ => written id

theorem PoolOk.send {s : PoolState} (h : s.PoolOk) (url pubkey body : JsString)
    (hs : ∀ c ∈ s.lookup url pubkey, s.SendOk c (s.conn c).draining) :
    (s.send url pubkey body).PoolOk := by
  unfold PoolState.send
  cases hl : s.lookup url pubkey with
  | some c =>
    simp only [lookup_getD, hl]
    exact h.push (h.log.known url pubkey c hl) body (hs c hl)
  | none =>
    simp only [lookup_getD, hl]
    split_ifs
    · exact h.overCap body (s.lookup_overCap url) rfl rfl rfl rfl rfl
    · refine (h.newConn hl).push (Nat.lt_succ_self _) body ?_
      have hd : ((s.newConn url pubkey ((s.conns.get? url).getD .empty)).conn
          s.nextConn).draining = none := by simp [PoolState.newConn]
      rw [hd]
      intro ho
      simp [isOpen, PoolState.newConn] at ho

/-- A settled loop leaves no send awaiting it. -/
theorem PoolOk.settleSends {s : PoolState} (h : s.PoolOk) (c : ConnId) (status : SendStatus)
    (hp : status ≠ .pending)
    (hq : status = .fulfilled → (s.conn c).queue = [])
    (hr : status = .rejected → s.Unwritten c) : (s.settleSends c status).PoolOk := by
  generalize hs' : s.settleSends c status = s'
  have self : s'.conn c = { s.conn c with draining := none, awaiting := [] } := by
    rw [← hs']
    exact setConn_self s c _
  have other {c' : ConnId} (hc : c' ≠ c) : s'.conn c' = s.conn c' := by
    rw [← hs']
    exact setConn_other s hc _
  have queue (c' : ConnId) : (s'.conn c').queue = (s.conn c').queue := by
    by_cases hc : c' = c
    · subst hc
      rw [self]
    · rw [other hc]
  have sends (id : SendId) : s'.sends id =
      if id ∈ (s.conn c).awaiting then { s.sends id with status := status } else s.sends id := by
    rw [← hs']
    rfl
  have owner (id : SendId) : (s'.sends id).conn = (s.sends id).conn := by
    rw [sends]
    split_ifs <;> rfl
  have hnext : s'.nextSend = s.nextSend := by rw [← hs']; rfl
  have hn : s'.nextConn = s.nextConn := by rw [← hs']; rfl
  have hwrites : s'.writes = s.writes := by rw [← hs']; rfl
  have hlook (url pubkey : JsString) : s'.lookup url pubkey = s.lookup url pubkey := by
    rw [← hs']
    rfl
  have written (id : SendId) : s'.written id = s.written id := by
    rw [PoolState.written, hwrites, PoolState.written]
  have foreign {c' : ConnId} (hc : c' ≠ c) {id : SendId}
      (hm : id ∈ (s.conn c').queue ∨ id ∈ (s.conn c').awaiting) : s'.sends id = s.sends id := by
    rw [sends, if_neg]
    intro ha
    exact hc (Option.some.inj (((h.log.queue c').owned id hm).2.symm.trans
      ((h.log.queue c).owned id (.inr ha)).2))
  refine ⟨⟨?_, ?_, ?_, ?_, ?_, ?_, ?_⟩, ?_⟩
  · intro c'
    by_cases hc : c' = c
    · subst hc
      have ho := h.log.queue c'
      constructor <;> simp only [self, hnext, hwrites, owner]
      · rintro id (hm | hm)
        · exact ho.owned id (.inl hm)
        · cases hm
      · simp
      · exact ho.sorted
      · exact ho.after
      · simp
      · intro id hm
        by_cases ha : id ∈ (s.conn c').awaiting
        · rw [sends, if_pos ha]
          refine ⟨?_, fun he => absurd he hp⟩
          intro he
          rw [hq he] at hm
          cases hm
        · rw [sends, if_neg ha]
          exact ⟨(ho.leftover id hm).1, fun he => absurd ((ho.leftover id hm).2 he) ha⟩
    · apply (h.log.queue c').frame (by rw [other hc]) (by rw [other hc]) (Nat.le_of_eq hnext.symm)
      · exact fun id hm => foreign hc hm
      · exact fun w hw _ => hwrites ▸ hw
      · exact fun id _ => written id
  · rw [hwrites, hnext, hn]
    exact fun w hw => ⟨(h.log.writer w hw).1, (owner _).trans (h.log.writer w hw).2.1,
      (h.log.writer w hw).2.2⟩
  · intro id hlt hf
    rw [written]
    rw [sends] at hf
    split_ifs at hf with ha
    · have hqe := hq hf
      refine ((h.log.queue c).accounted id ha).resolve_left ?_
      simp [hqe]
    · exact h.log.fulfilled id (hnext ▸ hlt) hf
  · intro id hlt hf
    rw [written]
    rw [sends] at hf
    split_ifs at hf with ha
    · exact hr hf id ha
    · exact h.log.rejected id (hnext ▸ hlt) hf
  · rw [hwrites]
    exact h.log.ordered
  · intro c' hc'
    have hm := h.log.mapped c' (hn ▸ hc')
    by_cases hc : c' = c
    · subst hc
      rw [self, hlook]
      exact hm
    · rw [other hc, hlook]
      exact hm
  · rw [hn]
    exact fun url pubkey c hl => h.log.known url pubkey c ((hlook url pubkey).symm.trans hl)
  · intro c'
    by_cases hc : c' = c
    · subst hc
      constructor <;> simp [self]
    · exact (h.phase c').frame (by rw [other hc]) (by rw [other hc]) (by rw [other hc])
        (Nat.le_of_eq hn.symm) fun id _ => written id

/-- The dial hands out a new socket; the connection waits for it to open. -/
theorem PoolOk.openSocket {s : PoolState} (h : s.PoolOk) {c : ConnId} {token : ChatterToken}
    (hd : (s.conn c).draining = some (.dialing token)) : (s.openSocket c token).PoolOk := by
  have hw : s.Working c := h.working ((h.phase c).known (by simp [hd]))
  let conn := { s.conn c with ws := some s.nextSocket }
  have e : SameLog s (s.setConn c conn) := sameLog_setConn s c conn rfl rfl rfl rfl
  have hw' : (s.setConn c conn).Working c :=
    ⟨e.logOk hw.log, fun c' hc => e.phaseOk (by rw [setConn_other s hc]) (hw.phase c' hc),
      hw.known⟩
  have hok := hw'.setDraining (.connecting s.nextSocket) (by simp) (by simp)
  refine hok.same ⟨fun _ _ => rfl, ?_, rfl, rfl, rfl, rfl⟩ ?_ <;> intro c' <;>
    simp [PoolState.openSocket, PoolState.setDraining, setConn, conn]

/-- A close event takes the socket off its connection and leaves the payloads alone. -/
theorem PoolOk.closed {s : PoolState} (h : s.PoolOk) (w : SocketId) :
    ((s.setReadyState w .CLOSED).setConn (s.socket w).conn
      { s.conn (s.socket w).conn with ws := none }).PoolOk := by
  refine (h.setReadyState w .CLOSED).same (sameLog_setConn _ _ _ rfl rfl rfl rfl) ?_
  intro c
  by_cases hc : c = (s.socket w).conn
  · subst hc
    rw [setConn_self]
    rfl
  · rw [setConn_other _ hc]

/-- An error event rejects the `connect` that waits for the socket. -/
theorem PoolOk.errored {s : PoolState} (h : s.PoolOk) {w : SocketId}
    (hg : s.ConnectOk w (s.conn (s.socket w).conn).draining) :
    ((s.setReadyState w .CLOSING).settleConnect w .failed).PoolOk := by
  have hc : ((s.setReadyState w .CLOSING).socket w).conn = (s.socket w).conn := by
    simp [PoolState.setReadyState]
  refine (h.setReadyState w .CLOSING).settleConnect w _ (by simp) fun _ => ?_
  rw [hc]
  cases hdr : (s.conn (s.socket w).conn).draining with
  | none => simp [PoolState.setReadyState, hdr, ConnectOk]
  | some d =>
    rw [hdr] at hg
    cases d <;> simp_all [PoolState.setReadyState, ConnectOk, Unwritten, written]

theorem step_poolOk {s s' : PoolState} {a : PoolAction} (h : s.PoolOk) (hg : s.Lossless a)
    (hd : a.destroys = false) (hs : s.step a = some s') : s'.PoolOk := by
  have same {s' : PoolState} (e : SameLog s s') (hdr : s'.conn = s.conn) : s'.PoolOk :=
    h.same e fun c => by rw [hdr]
  revert hg hd
  apply step_elim (motive := fun a s' => s.Lossless a → a.destroys = false → s'.PoolOk) hs
  case send => exact fun url pubkey body hg _ => h.send url pubkey body hg
  case unregistered =>
    intro c hdr hg _
    exact h.setDraining (by simp [hdr]) _ (by simp) fun _ => hg
  case registered =>
    intro c token hdr _ _
    have ht : (s.setToken (s.conn c).url (s.conn c).pubkey token).PoolOk :=
      same ⟨fun _ _ => rfl, fun _ => ⟨rfl, rfl, rfl, rfl⟩, rfl, rfl, rfl, rfl⟩ rfl
    exact ht.setDraining (by simp [setToken, hdr]) _ (by simp) (by simp)
  case undialed =>
    intro c token hdr hg _
    exact h.setDraining (by simp [hdr]) _ (by simp) fun _ => hg
  case dialed => exact fun c token hdr _ _ => h.openSocket hdr
  case opened =>
    exact fun w _ _ _ => (h.setReadyState w .OPEN).settleConnect w _ (by simp) (by simp)
  case errored => exact fun w hg _ => h.errored hg
  case closing => exact fun w _ _ => h.setReadyState w .CLOSING
  case closed => exact fun w _ _ => h.closed w
  case resume =>
    intro c hdr hg _
    exact (h.working ((h.phase c).known (by simp [hdr]))).pace hg
  case timer =>
    intro c _ hdr hg _
    exact (h.working ((h.phase c).known (by simp [hdr]))).write hg
  case fulfilled =>
    intro c hdr _ _
    exact h.settleSends c .fulfilled (by simp) (fun _ => (h.phase c).finished hdr) (by simp)
  case rejected =>
    intro c hdr _ _
    exact h.settleSends c .rejected (by simp) (by simp) fun _ => (h.phase c).failed hdr
  case destroyInstance | destroyAll =>
    intros
    contradiction
  case tick =>
    intro ms _ _
    exact same ⟨fun _ _ => rfl, fun _ => ⟨rfl, rfl, rfl, rfl⟩, rfl, rfl, rfl, rfl⟩ rfl

/-- Without teardown, a lossless run writes exactly the payloads whose `send` fulfils, once each
and in the order of the calls. -/
theorem lossless_reported (now : Nat) {as : List PoolAction} {t : PoolState}
    (hd : ∀ a ∈ as, a.destroys = false) (hg : Guarded step Lossless (init now) as)
    (hr : run step (init now) as = some t) : t.Reported := by
  have both := hg.and (guarded_of_forall hd _)
  have hok : t.PoolOk := run_invariant
    (fun s a s' h hg hs => step_poolOk h hg.1 hg.2 hs) (init_poolOk now) both hr
  exact hok.log.reported

/-- Two sends share one loop; `late` is what happens to the socket during the pacing wait. -/
def twoSends (late : List PoolAction) : List PoolAction :=
  [.send (js "https://o") (js "a1") (js "one"), .send (js "https://o") (js "a1") (js "two"),
    .registered 0 (some ⟨js "t", js "u"⟩), .dial 0 true, .opened 0, .resume 0] ++ late ++
  [.tick 700, .timer 0, .settle 0]

theorem lossless_reported_twoSends :
    ∃ t, run step (init 1000) (twoSends []) = some t ∧ t.writes.map Write.send = [0, 1] ∧
      t.Reported := by
  have hrun : (run step (init 1000) (twoSends [])).map (fun t => t.writes.map Write.send) =
      some [0, 1] := by decide
  obtain ⟨t, ht, hw⟩ := Option.map_eq_some_iff.mp hrun
  exact ⟨t, ht, hw, lossless_reported 1000 (by decide) (by decide) ht⟩

/-- The socket closes during the pacing wait: the second payload is dropped, its `send`
fulfils. -/
theorem reported_fails_close_during_pacing :
    ∃ t, run step (init 1000) (twoSends [.closing 0, .closed 0]) = some t ∧ ¬t.Reported := by
  have hrun : (run step (init 1000) (twoSends [.closing 0, .closed 0])).map
      (fun t => (t.nextSend, (t.sends 1).status, t.written 1)) = some (2, .fulfilled, 0) := by decide
  obtain ⟨t, ht, hw⟩ := Option.map_eq_some_iff.mp hrun
  simp only [Prod.mk.injEq] at hw
  refine ⟨t, ht, fun h => ?_⟩
  have hone := (h.fulfilled 1 (by simp [hw.1]) hw.2.1).1
  simp [hw.2.2] at hone

end PoolState

end LivelierBridge.Owncast
