import LivelierBridge.Chat.Rooms

namespace LivelierBridge.Chat

open Framework Js

namespace RoomsState

/-- No `openListener` call is pending. -/
def Quiet (s : RoomsState) : Prop := ∀ id, ¬s.Opening id

def Unstopped (s : RoomsState) (l : ListenerId) : Prop :=
  l < s.nextListener ∧ l ∉ s.stoppedListeners

instance (s : RoomsState) (l : ListenerId) : Decidable (s.Unstopped l) :=
  inferInstanceAs (Decidable (_ ∧ _))

/-- Every open listener is the `listener` of exactly one current room, and no room holds two. -/
structure ListenersOwned (s : RoomsState) : Prop where
  owner : ∀ l, s.Unstopped l → ∃! id, id ∈ s.rooms.values ∧ (s.room id).listener = some l
  single : ∀ id ∈ s.rooms.values, ∀ l l', s.Unstopped l → s.Unstopped l' →
    (s.room id).listener = some l → (s.room id).listener = some l' → l = l'

/-- `rows` would create a room. -/
def BringsUp (s : RoomsState) (rows : List RoomRow) : Prop :=
  ∃ row ∈ rows, s.rooms.has row.url = false

/-- The step neither opens a listener on a room that another call is opening, nor closes a
room whose listener is being opened, nor lets a refresh that a `stop()` overtook bring a room
back. -/
def Undisturbed (s : RoomsState) : RoomsAction → Prop
  | .stop => ∀ id ∈ s.rooms.values, ¬s.Opening id
  | .rows _ (some rows) =>
    (∀ e ∈ s.rooms.entries, (wantedRooms rows).has e.1 = false → ¬s.Opening e.2) ∧
      (s.halted = true → ¬s.BringsUp (wantedRooms rows).values)
  | .demanded _ (some aTags) => ∀ id ∈ s.nextDemanded aTags 0, ¬s.Opening id
  | .resume run =>
    match s.runs.get? run with
    | some (.refreshOpened rest) => s.halted = true → ¬s.BringsUp rest
    | some (.pollOpened room aTags) => ∀ id ∈ s.nextDemanded aTags (room + 1), ¬s.Opening id
    | _ => True
  | _ => True

instance (s : RoomsState) (rows : List RoomRow) : Decidable (s.BringsUp rows) :=
  inferInstanceAs (Decidable (∃ row ∈ rows, s.rooms.has row.url = false))

instance (s : RoomsState) (a : RoomsAction) : Decidable (s.Undisturbed a) :=
  match a with
  | .stop => inferInstanceAs (Decidable (∀ id ∈ s.rooms.values, ¬s.Opening id))
  | .rows _ (some _) => inferInstanceAs (Decidable (_ ∧ _))
  | .demanded _ (some _) => inferInstanceAs (Decidable (∀ id ∈ _, ¬s.Opening id))
  | .resume run => by
    unfold Undisturbed
    dsimp only
    split <;> infer_instance
  | .refreshRooms | .pollDemand | .rows _ none | .demanded _ none | .listener _ _ =>
    inferInstanceAs (Decidable True)

/-- Listeners, rooms and pending calls agree. -/
structure Consistent (s : RoomsState) : Prop where
  roomLt : ∀ id ∈ s.rooms.values, id < s.nextRoom
  roomNodup : s.rooms.values.Nodup
  runLt : ∀ run ∈ s.runs.keys, run < s.nextRun
  opening : ∀ run p id, s.runs.get? run = some p → p.openingRoom = some id →
    id ∈ s.rooms.values ∧ (s.room id).listener = none
  openingOnce : ∀ run p run' p' id, s.runs.get? run = some p → s.runs.get? run' = some p' →
    p.openingRoom = some id → p'.openingRoom = some id → run = run'
  owner : ∀ l, s.Unstopped l → ∃ id ∈ s.rooms.values, (s.room id).listener = some l
  distinct : ∀ id ∈ s.rooms.values, ∀ id' ∈ s.rooms.values, ∀ l,
    (s.room id).listener = some l → (s.room id').listener = some l → id = id'
  returned : ∀ id ∈ s.rooms.values, ∀ l, (s.room id).listener = some l → l < s.nextListener
  halted : s.halted = true → s.rooms.entries = []

theorem init_consistent : Consistent init := by
  constructor <;> simp [init, OrderedMap.empty, OrderedMap.values, OrderedMap.keys, Unstopped,
    OrderedMap.get?, OrderedMap.find]

theorem Consistent.listenersOwned {s : RoomsState} (h : s.Consistent) : s.ListenersOwned := by
  constructor
  · intro l hl
    obtain ⟨id, hid, hr⟩ := h.owner l hl
    exact ⟨id, ⟨hid, hr⟩, fun id' h' => h.distinct id' h'.1 id hid l h'.2 hr⟩
  · intro id _ l l' _ _ hl hl'
    exact Option.some.inj (hl.symm.trans hl')

/-- Replacing what a run waits for keeps the state consistent when the new wait opens no
listener, or opens one on a current room that nothing else is opening. -/
theorem Consistent.setRun {s : RoomsState} (h : s.Consistent) (run : RunId) (p : Suspended)
    (hrun : run < s.nextRun)
    (hp : ∀ id, p.openingRoom = some id → id ∈ s.rooms.values ∧ (s.room id).listener = none ∧
      ∀ run' p', run' ≠ run → s.runs.get? run' = some p' → p'.openingRoom ≠ some id) :
    (s.suspend run p).Consistent := by
  have get (r : RunId) : (s.suspend run p).runs.get? r =
      if r = run then some p else s.runs.get? r := OrderedMap.get?_set _ _ _ _
  refine ⟨h.roomLt, h.roomNodup, ?_, ?_, ?_, h.owner, h.distinct, h.returned, h.halted⟩
  · intro r hr
    rcases (OrderedMap.mem_put_keys run p s.runs.entries r).mp hr with he | he
    · exact he ▸ hrun
    · exact h.runLt r he
  · intro r q id hq ho
    rw [get] at hq
    split_ifs at hq with he
    · obtain rfl := Option.some.inj hq
      exact ⟨(hp id ho).1, (hp id ho).2.1⟩
    · exact h.opening r q id hq ho
  · intro r q r' q' id hq hq' ho ho'
    rw [get] at hq hq'
    split_ifs at hq hq' with he he' he'
    · exact he.trans he'.symm
    · obtain rfl := Option.some.inj hq
      exact absurd ho' ((hp id ho).2.2 r' q' he' hq')
    · obtain rfl := Option.some.inj hq'
      exact absurd ho ((hp id ho').2.2 r q he hq)
    · exact h.openingOnce r q r' q' id hq hq' ho ho'

theorem Consistent.finish {s : RoomsState} (h : s.Consistent) (run : RunId) :
    (s.finish run).Consistent := by
  have get {r : RunId} {p : Suspended} (hr : (s.finish run).runs.get? r = some p) :
      s.runs.get? r = some p := by
    have he : (s.finish run).runs.get? r = if r = run then none else s.runs.get? r :=
      OrderedMap.get?_delete _ _ _
    rw [he] at hr
    split_ifs at hr
    exact hr
  refine ⟨h.roomLt, h.roomNodup, ?_, fun r p id hr => h.opening r p id (get hr),
    fun r p r' p' id hr hr' => h.openingOnce r p r' p' id (get hr) (get hr'),
    h.owner, h.distinct, h.returned, h.halted⟩
  intro r hr
  obtain ⟨e, he, rfl⟩ := List.mem_map.mp hr
  exact h.runLt _ (List.mem_map.mpr ⟨e, (List.mem_filter.mp he).1, rfl⟩)

theorem Consistent.start {s : RoomsState} (h : s.Consistent) (p : Suspended)
    (hp : p.openingRoom = none) : (s.start p).Consistent := by
  have hs : Consistent { s with nextRun := s.nextRun + 1 } :=
    ⟨h.roomLt, h.roomNodup, fun r hr => Nat.lt_succ_of_lt (h.runLt r hr), h.opening,
      h.openingOnce, h.owner, h.distinct, h.returned, h.halted⟩
  exact hs.setRun s.nextRun p (Nat.lt_succ_self _) (by simp [hp])

theorem opening_lt {s : RoomsState} (h : s.Consistent) {id : RoomId} (ho : s.Opening id) :
    id < s.nextRoom := by
  obtain ⟨run, p, hr, hp⟩ := (s.opening_iff id).mp ho
  exact h.roomLt id (h.opening run p id hr hp).1

theorem values_openRoom {cfg : RoomsConfig} {s : RoomsState} {row : RoomRow}
    (hn : s.rooms.has row.url = false) :
    (s.openRoom cfg row).rooms.values = s.rooms.values ++ [s.nextRoom] := by
  have hk : row.url ∉ s.rooms.keys := by
    intro hk
    simp [(OrderedMap.has_iff _ _).mpr hk] at hn
  simp [OrderedMap.values, openRoom, OrderedMap.entries_set_of_notMem _ hk]

theorem openRoom_room_of_lt {cfg : RoomsConfig} {s : RoomsState} {row : RoomRow} {id : RoomId}
    (h : id < s.nextRoom) : (s.openRoom cfg row).room id = s.room id := by
  simp [openRoom, Function.update_of_ne (Nat.ne_of_lt h)]

theorem openRoom_room_new (cfg : RoomsConfig) (s : RoomsState) (row : RoomRow) :
    ((s.openRoom cfg row).room s.nextRoom).listener = none := by simp [openRoom]

/-- A new room starts without a listener, so it changes nothing about the others. -/
theorem Consistent.openRoom {s : RoomsState} (h : s.Consistent) (cfg : RoomsConfig)
    (row : RoomRow) (hn : s.rooms.has row.url = false) (hh : s.halted = false) :
    (s.openRoom cfg row).Consistent := by
  have vals : (s.openRoom cfg row).rooms.values = s.rooms.values ++ [s.nextRoom] :=
    values_openRoom hn
  have old {id : RoomId} (hid : id ∈ s.rooms.values) :
      (s.openRoom cfg row).room id = s.room id := openRoom_room_of_lt (h.roomLt id hid)
  have new : ((s.openRoom cfg row).room s.nextRoom).listener = none := openRoom_room_new cfg s row
  refine ⟨?_, ?_, h.runLt, ?_, h.openingOnce, ?_, ?_, ?_, ?_⟩
  · intro id hid
    rw [vals, List.mem_append, List.mem_singleton] at hid
    rcases hid with hid | rfl
    · exact Nat.lt_succ_of_lt (h.roomLt id hid)
    · exact Nat.lt_succ_self _
  · rw [vals, List.nodup_append]
    refine ⟨h.roomNodup, List.nodup_singleton _, ?_⟩
    intro a ha b hb he
    obtain rfl := List.mem_singleton.mp hb
    exact absurd (h.roomLt a ha) (he ▸ Nat.lt_irrefl _)
  · intro run p id hr hp
    obtain ⟨hid, hl⟩ := h.opening run p id hr hp
    rw [vals, old hid]
    exact ⟨List.mem_append_left _ hid, hl⟩
  · intro l hl
    obtain ⟨id, hid, hr⟩ := h.owner l hl
    exact ⟨id, by rw [vals]; exact List.mem_append_left _ hid, by rw [old hid]; exact hr⟩
  · intro id hid id' hid' l hl hl'
    rw [vals, List.mem_append, List.mem_singleton] at hid hid'
    rcases hid with hid | rfl
    · rcases hid' with hid' | rfl
      · rw [old hid] at hl
        rw [old hid'] at hl'
        exact h.distinct id hid id' hid' l hl hl'
      · simp [new] at hl'
    · simp [new] at hl
  · intro id hid l hl
    rw [vals, List.mem_append, List.mem_singleton] at hid
    rcases hid with hid | rfl
    · rw [old hid] at hl
      exact h.returned id hid l hl
    · simp [new] at hl
  · intro hhalt
    have : s.halted = true := hhalt
    simp [hh] at this

/-- What bringing rooms up can do: it keeps consistency and the pending calls, and the room it
stops at is a current one without a listener that nothing is opening. -/
theorem bringUp_spec (cfg : RoomsConfig) (rows : List RoomRow) (s : RoomsState)
    (h : s.Consistent) (hb : s.halted = true → ¬s.BringsUp rows) :
    (bringUp cfg s rows).1.Consistent ∧ (bringUp cfg s rows).1.runs = s.runs ∧
      (bringUp cfg s rows).1.nextRun = s.nextRun ∧
      ∀ id rest, (bringUp cfg s rows).2 = some (id, rest) →
        id ∈ (bringUp cfg s rows).1.rooms.values ∧
          ((bringUp cfg s rows).1.room id).listener = none ∧ ¬s.Opening id := by
  induction rows generalizing s with
  | nil => exact ⟨h, rfl, rfl, by simp [bringUp]⟩
  | cons row rows ih =>
    by_cases hrow : s.rooms.has row.url = true
    · have hb' : s.halted = true → ¬s.BringsUp rows := fun hh ⟨r, hr, hn⟩ =>
        hb hh ⟨r, List.mem_cons_of_mem _ hr, hn⟩
      simpa only [bringUp, hrow, if_true] using ih s h hb'
    · have hn : s.rooms.has row.url = false := by simpa using hrow
      have hh : s.halted = false := by
        by_contra hc
        exact hb (by simpa using hc) ⟨row, List.mem_cons_self, hn⟩
      have ho := h.openRoom cfg row hn hh
      by_cases he : (cfg.chatToNostr && !cfg.demand) = true
      · simp only [bringUp, hn, Bool.false_eq_true, if_false, he, if_true]
        refine ⟨ho, rfl, rfl, ?_⟩
        rintro id rest heq
        obtain ⟨rfl, -⟩ := Prod.mk.inj (Option.some.inj heq)
        refine ⟨?_, openRoom_room_new cfg s row, fun hop => ?_⟩
        · rw [values_openRoom hn]
          exact List.mem_append_right _ (List.mem_singleton_self _)
        · exact absurd (opening_lt h hop) (Nat.lt_irrefl _)
      · have hcall := ih (s.openRoom cfg row) ho (fun hh' => by
          have : s.halted = true := hh'
          simp [hh] at this)
        rw [bringUp, if_neg (by simp [hn]), if_neg he]
        exact hcall

theorem continueRefresh_consistent (cfg : RoomsConfig) (s : RoomsState) (run : RunId)
    (rows : List RoomRow) (h : s.Consistent) (hrun : run < s.nextRun)
    (hb : s.halted = true → ¬s.BringsUp rows) :
    (s.continueRefresh cfg run rows).1.Consistent := by
  obtain ⟨hc, hruns, hnext, hroom⟩ := bringUp_spec cfg rows s h hb
  unfold continueRefresh
  split
  case _ s' heq =>
    rw [heq] at hc
    exact hc.finish run
  case _ s' id rest heq =>
    rw [heq] at hc hruns hnext hroom
    obtain ⟨hid, hl, hop⟩ := hroom id rest rfl
    refine hc.setRun run _ (hnext.symm ▸ hrun) ?_
    intro id' hid'
    obtain rfl : id = id' := Option.some.inj hid'
    refine ⟨hid, hl, fun run' p' _ hr' hp' => hop ((s.opening_iff id).mpr ⟨run', p', ?_, hp'⟩)⟩
    have hr'' : s'.runs.get? run' = some p' := hr'
    rw [hruns] at hr''
    exact hr''

theorem nextDemanded_spec {s : RoomsState} {aTags : List JsString} {from' id : RoomId}
    (h : s.nextDemanded aTags from' = some id) :
    id ∈ s.rooms.values ∧ (s.room id).listener = none := by
  refine ⟨List.mem_of_find?_eq_some h, ?_⟩
  have hp := List.find?_some h
  simp only [Bool.and_eq_true, Option.isNone_iff_eq_none] at hp
  exact hp.1.2

theorem continuePoll_consistent (s : RoomsState) (run : RunId) (aTags : List JsString)
    (from' : RoomId) (h : s.Consistent) (hrun : run < s.nextRun)
    (hop : ∀ id, s.nextDemanded aTags from' = some id → ¬s.Opening id) :
    (s.continuePoll run aTags from').1.Consistent := by
  unfold continuePoll
  split
  case _ => exact h.finish run
  case _ id heq =>
    obtain ⟨hid, hl⟩ := nextDemanded_spec heq
    refine h.setRun run _ hrun ?_
    intro id' hid'
    obtain rfl : id = id' := Option.some.inj hid'
    exact ⟨hid, hl, fun run' p' _ hr' hp' => hop id heq
      ((s.opening_iff id).mpr ⟨run', p', hr', hp'⟩)⟩

/-- Removing rooms together with their listeners, none of them being opened. -/
theorem Consistent.remove {s : RoomsState} (h : s.Consistent) (keep : JsString × RoomId → Bool)
    (halted : Bool) (hh : halted = true → s.rooms.entries.filter keep = [])
    (hop : ∀ e ∈ s.rooms.entries, keep e = false → ¬s.Opening e.2) :
    Consistent { s with
      rooms := s.rooms.filter keep
      stoppedListeners := s.stoppedListeners ++
        s.stopGone (s.rooms.entries.filter fun e => !keep e)
      halted := halted } := by
  have sub {id : RoomId} (hid : id ∈ (s.rooms.filter keep).values) : id ∈ s.rooms.values := by
    obtain ⟨e, he, rfl⟩ := List.mem_map.mp hid
    exact List.mem_map.mpr ⟨e, (List.mem_filter.mp he).1, rfl⟩
  refine ⟨fun id hid => h.roomLt id (sub hid), ?_, h.runLt, ?_, h.openingOnce, ?_,
    fun id hid id' hid' => h.distinct id (sub hid) id' (sub hid'),
    fun id hid => h.returned id (sub hid), hh⟩
  · exact h.roomNodup.sublist (List.filter_sublist.map _)
  · intro run p id hr hp
    obtain ⟨hid, hl⟩ := h.opening run p id hr hp
    refine ⟨?_, hl⟩
    obtain ⟨e, he, rfl⟩ := List.mem_map.mp hid
    refine List.mem_map.mpr ⟨e, List.mem_filter.mpr ⟨he, ?_⟩, rfl⟩
    by_contra hk
    exact hop e he (by simpa using hk) ((s.opening_iff e.2).mpr ⟨run, p, hr, hp⟩)
  · rintro l ⟨hlt, hns⟩
    rw [List.mem_append, not_or] at hns
    obtain ⟨id, hid, hl⟩ := h.owner l ⟨hlt, hns.1⟩
    obtain ⟨e, he, rfl⟩ := List.mem_map.mp hid
    refine ⟨e.2, List.mem_map.mpr ⟨e, List.mem_filter.mpr ⟨he, ?_⟩, rfl⟩, hl⟩
    -- a removed room's listener was stopped with it
    by_contra hk
    exact hns.2 (List.mem_filterMap.mpr
      ⟨e, List.mem_filter.mpr ⟨he, by simpa using hk⟩, hl⟩)

theorem closeUnwanted_consistent {s : RoomsState} (h : s.Consistent)
    (wanted : OrderedMap JsString RoomRow)
    (hop : ∀ e ∈ s.rooms.entries, wanted.has e.1 = false → ¬s.Opening e.2) :
    (s.closeUnwanted wanted).Consistent :=
  h.remove (fun e => wanted.has e.1) s.halted
    (fun hh => by rw [h.halted hh]; rfl) hop

theorem stopAll_consistent {s : RoomsState} (h : s.Consistent)
    (hop : ∀ id ∈ s.rooms.values, ¬s.Opening id) : s.stopAll.Consistent := by
  have hrem := h.remove (fun _ => false) true (fun _ => List.filter_false _)
    (fun e he _ => hop e.2 (List.mem_map.mpr ⟨e, he, rfl⟩))
  have hrooms : s.rooms.filter (fun _ => false) = .empty := by
    simp [OrderedMap.filter, OrderedMap.empty]
  simpa [stopAll, hrooms] using hrem

/-- The handle goes to the room the call was opening, which had none. -/
theorem assignListener_consistent {s : RoomsState} (h : s.Consistent) {run : RunId}
    {p p' : Suspended} {id : RoomId} (hr : s.runs.get? run = some p)
    (hp : p.openingRoom = some id) (hp' : p'.openingRoom = none) :
    ((s.assignListener id).suspend run p').Consistent := by
  obtain ⟨hid, hl⟩ := h.opening run p id hr hp
  have self : ((s.assignListener id).room id).listener = some s.nextListener := by
    simp [assignListener]
  have other {id' : RoomId} (hne : id' ≠ id) : (s.assignListener id).room id' = s.room id' := by
    simp [assignListener, Function.update_of_ne hne]
  have get (r : RunId) : ((s.assignListener id).suspend run p').runs.get? r =
      if r = run then some p' else s.runs.get? r := OrderedMap.get?_set _ _ _ _
  have still {r : RunId} {q : Suspended} {id' : RoomId}
      (hq : ((s.assignListener id).suspend run p').runs.get? r = some q)
      (ho : q.openingRoom = some id') : r ≠ run ∧ s.runs.get? r = some q := by
    rw [get] at hq
    split_ifs at hq with he
    · obtain rfl := Option.some.inj hq
      simp [hp'] at ho
    · exact ⟨he, hq⟩
  have listener {id' : RoomId} {l : ListenerId}
      (hl' : ((s.assignListener id).room id').listener = some l) :
      (id' = id ∧ l = s.nextListener) ∨ (id' ≠ id ∧ (s.room id').listener = some l) := by
    by_cases he : id' = id
    · subst he
      exact .inl ⟨rfl, Option.some.inj (hl'.symm.trans self)⟩
    · exact .inr ⟨he, by rwa [other he] at hl'⟩
  refine ⟨h.roomLt, h.roomNodup, ?_, ?_, ?_, ?_, ?_, ?_, h.halted⟩
  · intro r hmem
    rcases (OrderedMap.mem_put_keys run p' s.runs.entries r).mp hmem with he | he
    · subst he
      exact h.runLt r (List.mem_map.mpr ⟨_, (OrderedMap.get?_eq_some_iff _ _ _).mp hr, rfl⟩)
    · exact h.runLt r he
  · intro r q id' hq ho
    obtain ⟨hne, hq'⟩ := still hq ho
    obtain ⟨hid', hl'⟩ := h.opening r q id' hq' ho
    refine ⟨hid', ?_⟩
    have hne' : id' ≠ id := fun he => hne (h.openingOnce r q run p id' hq' hr ho (he ▸ hp))
    change ((s.assignListener id).room id').listener = none
    rw [other hne', hl']
  · intro r q r' q' id' hq hq' ho ho'
    exact h.openingOnce r q r' q' id' (still hq ho).2 (still hq' ho').2 ho ho'
  · rintro l ⟨hlt, hns⟩
    by_cases he : l = s.nextListener
    · exact ⟨id, hid, he ▸ self⟩
    · obtain ⟨id', hid', hl'⟩ :=
        h.owner l ⟨Nat.lt_of_le_of_ne (Nat.le_of_lt_succ hlt) he, hns⟩
      have hne : id' ≠ id := by
        rintro rfl
        simp [hl] at hl'
      refine ⟨id', hid', ?_⟩
      change ((s.assignListener id).room id').listener = some l
      rw [other hne, hl']
  · intro a ha b hb l hla hlb
    rcases listener hla with ⟨ea, el⟩ | ⟨na, la⟩ <;> rcases listener hlb with ⟨eb, el'⟩ | ⟨nb, lb⟩
    · exact ea.trans eb.symm
    · exact absurd (h.returned b hb l lb) (el ▸ Nat.lt_irrefl _)
    · exact absurd (h.returned a ha l la) (el' ▸ Nat.lt_irrefl _)
    · exact h.distinct a ha b hb l la lb
  · intro a ha l hla
    rcases listener hla with ⟨-, el⟩ | ⟨-, la⟩
    · exact el ▸ Nat.lt_succ_self _
    · exact Nat.lt_succ_of_lt (h.returned a ha l la)

theorem Consistent.run_lt {s : RoomsState} (h : s.Consistent) {run : RunId} {p : Suspended}
    (hr : s.runs.get? run = some p) : run < s.nextRun :=
  h.runLt run (List.mem_map.mpr ⟨_, (OrderedMap.get?_eq_some_iff _ _ _).mp hr, rfl⟩)

/-- Every undisturbed step keeps listeners, rooms and pending calls consistent. -/
theorem next_consistent {cfg : RoomsConfig} {s s' : RoomsState} {a : RoomsAction}
    (h : s.Consistent) (hu : s.Undisturbed a) (hs : next cfg s a = some s') : s'.Consistent := by
  obtain ⟨⟨t, calls⟩, hst, rfl⟩ := Option.map_eq_some_iff.mp hs
  cases a with
  | refreshRooms =>
    obtain ⟨rfl, -⟩ := Prod.mk.inj (Option.some.inj hst)
    have hstart := h.start .refreshListing rfl
    exact ⟨hstart.roomLt, hstart.roomNodup, hstart.runLt, hstart.opening, hstart.openingOnce,
      hstart.owner, hstart.distinct, hstart.returned, fun hf => by simp at hf⟩
  | pollDemand =>
    simp only [step] at hst
    split_ifs at hst <;> obtain ⟨rfl, -⟩ := Prod.mk.inj (Option.some.inj hst)
    · exact h.start .pollFetching rfl
    · exact h
  | stop =>
    obtain ⟨rfl, -⟩ := Prod.mk.inj (Option.some.inj hst)
    exact stopAll_consistent h hu
  | rows run answer =>
    simp only [step] at hst
    split at hst
    case _ => obtain ⟨rfl, -⟩ := Prod.mk.inj (Option.some.inj hst); exact h.finish run
    case _ rows hrun =>
      obtain ⟨rfl, -⟩ := Prod.mk.inj (Option.some.inj hst)
      refine continueRefresh_consistent cfg _ run _
        (closeUnwanted_consistent h _ hu.1) (h.run_lt hrun) ?_
      intro hh hb
      obtain ⟨row, hrow, hn⟩ := hb
      refine hu.2 hh ⟨row, hrow, ?_⟩
      have he := h.halted hh
      simp [OrderedMap.has, OrderedMap.get?, OrderedMap.find, he]
    case _ => cases hst
  | demanded run answer =>
    simp only [step] at hst
    split at hst
    case _ => obtain ⟨rfl, -⟩ := Prod.mk.inj (Option.some.inj hst); exact h.finish run
    case _ aTags hrun =>
      obtain ⟨rfl, -⟩ := Prod.mk.inj (Option.some.inj hst)
      exact continuePoll_consistent s run aTags 0 h (h.run_lt hrun) hu
    case _ => cases hst
  | listener run ok =>
    simp only [step] at hst
    split at hst
    case _ room rest hrun =>
      split_ifs at hst <;> obtain ⟨rfl, -⟩ := Prod.mk.inj (Option.some.inj hst)
      · exact assignListener_consistent h hrun rfl rfl
      · exact h.finish run
    case _ room aTags hrun =>
      split_ifs at hst <;> obtain ⟨rfl, -⟩ := Prod.mk.inj (Option.some.inj hst)
      · exact assignListener_consistent h hrun rfl rfl
      · exact h.finish run
    case _ => cases hst
  | resume run =>
    simp only [step] at hst
    split at hst
    case _ rest hrun =>
      obtain ⟨rfl, -⟩ := Prod.mk.inj (Option.some.inj hst)
      exact continueRefresh_consistent cfg s run rest h (h.run_lt hrun)
        (by simpa [Undisturbed, hrun] using hu)
    case _ room aTags hrun =>
      obtain ⟨rfl, -⟩ := Prod.mk.inj (Option.some.inj hst)
      exact continuePoll_consistent s run aTags (room + 1) h (h.run_lt hrun)
        (by simpa [Undisturbed, hrun] using hu)
    case _ => cases hst

/-- The ownership law over a run: every listener has one owner whenever no `openListener` is
pending, and none survives a `stop()` once the calls it overtook have settled. -/
def ListenerLaw (cfg : RoomsConfig) (as : List RoomsAction) : Prop :=
  ∀ s, run (next cfg) init as = some s →
    (s.Quiet → s.ListenersOwned) ∧
      (s.halted = true → s.runs.entries = [] → ∀ l, ¬s.Unstopped l)

/-- In an undisturbed run every open listener belongs to exactly one current room, and a
`stop()` leaves none behind. -/
theorem undisturbed_listenerLaw (cfg : RoomsConfig) (as : List RoomsAction)
    (hg : Guarded (next cfg) Undisturbed init as) : ListenerLaw cfg as := by
  intro s hr
  have h : s.Consistent :=
    run_invariant (fun _ _ _ hc hu hs => next_consistent hc hu hs) init_consistent hg hr
  refine ⟨fun _ => h.listenersOwned, fun hh _ l hl => ?_⟩
  obtain ⟨id, hid, -⟩ := h.owner l hl
  simp [OrderedMap.values, h.halted hh] at hid

/-- Eager listeners, one room: the source is still answering `openListener`. -/
def eager : RoomsConfig := ⟨js "b", true, false⟩

def roomA : RoomRow := ⟨js "https://a.example", js "oc-1"⟩

/-- A quiet room life: opened by a refresh, its listener established, then `stop()`. -/
theorem undisturbed_listenerLaw_stop :
    ListenerLaw eager [.refreshRooms, .rows 0 (some [roomA]), .listener 0 true, .resume 0, .stop] :=
  undisturbed_listenerLaw eager _ (by decide)

/-- `stop()` lands while `openListener` is pending: the handle that arrives afterwards goes to
a room nobody holds, and nothing ever stops it. -/
theorem listenerLaw_fails_stop_during_open :
    ¬ListenerLaw eager
      [.refreshRooms, .rows 0 (some [roomA]), .stop, .listener 0 true, .resume 0] := by
  intro h
  obtain ⟨-, hstop⟩ := h _ rfl
  exact hstop rfl rfl 0 (by decide)

end RoomsState

end LivelierBridge.Chat
