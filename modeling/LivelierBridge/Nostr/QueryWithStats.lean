import Mathlib.Data.List.TakeWhile
import Mathlib.Logic.Relation
import LivelierBridge.Framework.Run
import LivelierBridge.Framework.FirstSeen
import LivelierBridge.Framework.OrderedMap
import LivelierBridge.Nostr.Event

namespace LivelierBridge.Nostr

open Framework Js

/-- Cap on the filter summaries of one relay in one window. -/
def MAX_SUMMARIES_PER_RELAY : Nat := 20

structure RelayWindow where
  count : Nat
  bySummary : OrderedMap JsString Nat

/-- The REQ accounting that all requests share. -/
structure RelayReqStats where
  windows : OrderedMap JsString RelayWindow
  openSubs : OrderedMap JsString Nat

namespace RelayReqStats

variable (st : RelayReqStats)

/-- How many REQs are open at the relay. -/
def gauge (relayUrl : JsString) : Nat := (st.openSubs.get? relayUrl).getD 0

/-- Record an outgoing REQ to a relay. -/
def recordReqOpened (relayUrl filterSummary : JsString) : RelayReqStats :=
  let window := (st.windows.get? relayUrl).getD ⟨0, .empty⟩
  let seen := (window.bySummary.get? filterSummary).getD 0
  let bySummary :=
    if window.bySummary.has filterSummary || window.bySummary.size < MAX_SUMMARIES_PER_RELAY then
      window.bySummary.set filterSummary (seen + 1)
    else window.bySummary
  { windows := st.windows.set relayUrl ⟨window.count + 1, bySummary⟩
    openSubs := st.openSubs.set relayUrl (st.gauge relayUrl + 1) }

/-- Record a REQ ending. -/
def recordReqClosed (relayUrl : JsString) : RelayReqStats :=
  let current := st.gauge relayUrl
  if current ≤ 1 then { st with openSubs := st.openSubs.delete relayUrl }
  else { st with openSubs := st.openSubs.set relayUrl (current - 1) }

@[simp] theorem gauge_opened (u filterSummary v : JsString) :
    (st.recordReqOpened u filterSummary).gauge v =
      if v = u then st.gauge v + 1 else st.gauge v := by
  unfold recordReqOpened gauge
  dsimp only
  rw [OrderedMap.get?_set]
  split_ifs with h
  · rw [Option.getD_some, h]
  · rfl

@[simp] theorem gauge_closed (u v : JsString) :
    (st.recordReqClosed u).gauge v = if v = u then st.gauge v - 1 else st.gauge v := by
  unfold recordReqClosed
  dsimp only
  by_cases h : v = u
  · subst h
    rw [if_pos rfl]
    split_ifs with hone
    · have hzero : st.gauge v - 1 = 0 := by omega
      rw [hzero, gauge, OrderedMap.get?_delete, if_pos rfl, Option.getD_none]
    · rw [gauge, OrderedMap.get?_set_self, Option.getD_some]
  · rw [if_neg h]
    split_ifs
    · rw [gauge, OrderedMap.get?_delete, if_neg h]
      rfl
    · rw [gauge, OrderedMap.get?_set_of_ne _ h]
      rfl

end RelayReqStats

/-- The locals of one relay's promise once its REQ is sent; `closed` when `onclose` was called. -/
structure RelayReq where
  settled : Bool
  closed : Bool
  /-- `timeoutHandle` is set. -/
  armed : Bool
  deriving DecidableEq

/-- A REQ that nothing has ended, and one that something has. -/
def RelayReq.running : RelayReq := ⟨false, false, true⟩
def RelayReq.over : RelayReq := ⟨true, true, false⟩

/-- Where the query is with one relay; it has `returned` when there was no connection, or when the
query was complete before there was one. -/
inductive RelayTurn where
  | connecting
  | returned
  | asking (req : RelayReq)
  deriving DecidableEq

/-- The relay's promise has resolved. -/
def RelayTurn.isDecided : RelayTurn → Bool
  | .connecting => false
  | .returned => true
  | .asking req => req.settled

/-- How many REQs the relay was sent, and how many of them have ended. -/
def RelayTurn.openedReqs : RelayTurn → Nat
  | .connecting | .returned => 0
  | .asking _ => 1

def RelayTurn.endedReqs : RelayTurn → Nat
  | .connecting | .returned => 0
  | .asking req => req.settled.toNat

/-- What happened so far; `opened` and `closed` are the calls of `recordReqOpened` and
`recordReqClosed`, and `decided` is the outcome of the relay. -/
inductive QueryMark where
  | opened (url : JsString)
  | closed (url : JsString)
  | decided (url : JsString)
  | eose (url : JsString)
  | event (url : JsString) (event : Event)
  deriving DecidableEq

/-- The relay that a mark is about. -/
def QueryMark.relay : QueryMark → JsString
  | .opened url | .closed url | .decided url | .eose url | .event url _ => url

/-- The arguments of one query, and the relays that are left of them. -/
structure StatsQuery where
  relays : List JsString
  distinct : relays.Nodup
  filterSummary : JsString
  isComplete : Option (List Event → Bool)

/-- The relays that are not cooling down, each once. -/
def StatsQuery.ofUrls (isRelayCoolingDown : JsString → Bool) (urls : List JsString)
    (filterSummary : JsString) (isComplete : Option (List Event → Bool)) : StatsQuery where
  relays := urls.eraseDups.filter fun url => !isRelayCoolingDown url
  distinct := (nodup_eraseDups urls).filter _
  filterSummary := filterSummary
  isComplete := isComplete

/-- The locals of one `queryWithStats`. -/
structure QueryRun where
  turn : JsString → RelayTurn
  knownIds : List JsString
  events : List Event
  eoseCount : Nat
  completedEarly : Bool
  /-- The relays that have pushed their closer, in this order. -/
  earlyClosers : List JsString
  stats : RelayReqStats
  log : List QueryMark

inductive QueryAction where
  /-- `ensureRelay` settles. -/
  | connected (url : JsString)
  | failed (url : JsString)
  | event (url : JsString) (event : Event)
  | eose (url : JsString)
  /-- The relay, or its connection, ends the REQ. -/
  | closed (url : JsString)
  | deadline (url : JsString)
  deriving DecidableEq

namespace QueryRun

variable (q : StatsQuery) (s : QueryRun) (url : JsString)

def init (stats : RelayReqStats) : QueryRun :=
  ⟨fun _ => .connecting, [], [], 0, false, [], stats, []⟩

def setTurn (turn : RelayTurn) : QueryRun := { s with turn := Function.update s.turn url turn }

def note (marks : List QueryMark) : QueryRun := { s with log := s.log ++ marks }

/-- The relay's promise resolves without a REQ. -/
def giveUp : QueryRun := (s.setTurn url .returned).note [.decided url]

def finish : QueryRun :=
  match s.turn url with
  | .asking req =>
    if req.settled then s
    else
      { (s.setTurn url (.asking { req with settled := true, armed := false })) with
        stats := s.stats.recordReqClosed url }.note [.closed url, .decided url]
  | .connecting | .returned => s

/-- `sub.close()`, which calls `onclose` unless that was called before. -/
def closeSub : QueryRun :=
  match s.turn url with
  | .asking req =>
    if req.closed then s else (s.setTurn url (.asking { req with closed := true })).finish url
  | .connecting | .returned => s

/-- What the early closer and the deadline of a relay do. -/
def release : QueryRun := (s.closeSub url).finish url

def maybeCompleteEarly : QueryRun :=
  if s.completedEarly then s
  else
    match q.isComplete with
    | none => s
    | some isComplete =>
      if isComplete s.events then
        s.earlyClosers.foldl release { s with completedEarly := true }
      else s

/-- Send the relay the REQ, with its deadline and its early closer. -/
def openReq : QueryRun :=
  { (s.setTurn url (.asking .running)) with
    stats := s.stats.recordReqOpened url q.filterSummary
    earlyClosers := s.earlyClosers ++ [url] }.note [.opened url]

/-- The relay is connected, unless the query was satisfied meanwhile. -/
def connected : QueryRun :=
  if s.completedEarly then s.giveUp url else maybeCompleteEarly q (s.openReq q url)

/-- Keep an event that is new. -/
def keep (event : Event) : QueryRun :=
  { s with knownIds := event.id :: s.knownIds, events := s.events ++ [event] }

def onevent (event : Event) : QueryRun :=
  let s := s.note [.event url event]
  if event.id ∈ s.knownIds then s else maybeCompleteEarly q (s.keep event)

def oneose (req : RelayReq) : QueryRun :=
  let s := s.note [.eose url]
  let s := if req.settled then s else { s with eoseCount := s.eoseCount + 1 }
  s.release url

/-- One step of the query. -/
def step (s : QueryRun) : QueryAction → Option QueryRun
  | .connected url =>
    if url ∈ q.relays ∧ s.turn url = .connecting then some (s.connected q url) else none
  | .failed url =>
    if url ∈ q.relays ∧ s.turn url = .connecting then some (s.giveUp url) else none
  | .event url event =>
    match s.turn url with
    | .asking _ => some (s.onevent q url event)
    | .connecting | .returned => none
  | .eose url =>
    match s.turn url with
    | .asking req => some (s.oneose url req)
    | .connecting | .returned => none
  | .closed url =>
    match s.turn url with
    | .asking req =>
      if req.closed then none
      else some ((s.setTurn url (.asking { req with closed := true })).finish url)
    | .connecting | .returned => none
  | .deadline url =>
    match s.turn url with
    | .asking req => if req.armed then some (s.release url) else none
    | .connecting | .returned => none


/-- The promise of every relay has resolved. -/
def Resolved : Prop := ∀ url ∈ q.relays, (s.turn url).isDecided = true

/-- The EOSE of the relay arrived before its outcome was decided. -/
def eosedFirst (log : List QueryMark) (url : JsString) : Bool :=
  .eose url ∈ log.takeWhile fun m => m ≠ .decided url

/-- The events that relays have delivered, in order. -/
def delivered (log : List QueryMark) : List Event :=
  log.filterMap fun m =>
    match m with
    | .event _ e => some e
    | .opened _ | .closed _ | .decided _ | .eose _ => none

/-- Two events are the same to a query when their ids are. -/
def byId (event : Event) : Option JsString := some event.id

/-! ### What can happen -/

/-- The REQ of the relay ends, and with it the relay's part in the query. -/
def settle : QueryRun :=
  { (s.setTurn url (.asking .over)) with
    stats := s.stats.recordReqClosed url }.note [.closed url, .decided url]

/-- The elementary changes that the steps are made of. -/
inductive Move (q : StatsQuery) : QueryRun → QueryRun → Prop
  | giveUp {s : QueryRun} {url : JsString} (hr : url ∈ q.relays) (ht : s.turn url = .connecting) :
      Move q s (s.giveUp url)
  | openReq {s : QueryRun} {url : JsString} (hr : url ∈ q.relays) (ht : s.turn url = .connecting) :
      Move q s (s.openReq q url)
  | repeated {s : QueryRun} {url : JsString} {req : RelayReq} {event : Event}
      (ht : s.turn url = .asking req) (he : event.id ∈ s.knownIds) :
      Move q s (s.note [.event url event])
  | kept {s : QueryRun} {url : JsString} {req : RelayReq} {event : Event}
      (ht : s.turn url = .asking req) (he : event.id ∉ s.knownIds) :
      Move q s ((s.note [.event url event]).keep event)
  | answered {s : QueryRun} {url : JsString} (ht : s.turn url = .asking .running) :
      Move q s (settle { s.note [.eose url] with eoseCount := s.eoseCount + 1 } url)
  | late {s : QueryRun} {url : JsString} (ht : s.turn url = .asking .over) :
      Move q s (s.note [.eose url])
  | settled {s : QueryRun} {url : JsString} (ht : s.turn url = .asking .running) :
      Move q s (s.settle url)
  | complete {s : QueryRun} : Move q s { s with completedEarly := true }

abbrev Moves (q : StatsQuery) : QueryRun → QueryRun → Prop := Relation.ReflTransGen (Move q)

/-- A REQ runs, or it is over in every respect. -/
def Tidy : Prop := ∀ url req, s.turn url = .asking req → req = .running ∨ req = .over

section Moves

variable {q : StatsQuery} {s s' : QueryRun} {url url' : JsString}

@[simp] theorem setTurn_self (turn : RelayTurn) : (s.setTurn url turn).turn url = turn := by
  simp [setTurn]

theorem setTurn_of_ne (h : url' ≠ url) (turn : RelayTurn) :
    (s.setTurn url turn).turn url' = s.turn url' := by
  simp [setTurn, h]

@[simp] theorem note_turn (marks : List QueryMark) : (s.note marks).turn = s.turn := rfl

theorem finish_over (h : s.turn url = .asking .over) : s.finish url = s := by
  simp [finish, h, RelayReq.over]

theorem closed_finish :
    (s.setTurn url (.asking { RelayReq.running with closed := true })).finish url = s.settle url := by
  simp [finish, settle, setTurn, RelayReq.running, RelayReq.over]

theorem closeSub_running (h : s.turn url = .asking .running) : s.closeSub url = s.settle url := by
  rw [← closed_finish]
  simp [closeSub, h, RelayReq.running]

theorem settle_turn_self : (s.settle url).turn url = .asking .over := setTurn_self _

theorem settle_turn_of_ne (h : url' ≠ url) : (s.settle url).turn url' = s.turn url' :=
  setTurn_of_ne h _

theorem release_running (h : s.turn url = .asking .running) : s.release url = s.settle url := by
  rw [release, closeSub_running h, finish_over settle_turn_self]

theorem release_idle (h : s.turn url ≠ .asking .running) (ht : s.Tidy) : s.release url = s := by
  cases hturn : s.turn url with
  | connecting | returned => simp [release, closeSub, finish, hturn]
  | asking req =>
    rcases ht url req hturn with rfl | rfl
    · exact absurd hturn h
    · have hclose : s.closeSub url = s := by simp [closeSub, hturn, RelayReq.over]
      rw [release, hclose, finish_over hturn]

theorem Move.tidy (h : Move q s s') (ht : s.Tidy) : s'.Tidy := by
  have hset {s : QueryRun} (ht : s.Tidy) (url : JsString) {t : RelayTurn}
      (hturn : ∀ req, t = .asking req → req = .running ∨ req = .over) :
      (s.setTurn url t).Tidy := by
    intro u req hu
    by_cases heq : u = url
    · subst heq
      rw [setTurn_self] at hu
      exact hturn req hu
    · rw [setTurn_of_ne heq] at hu
      exact ht u req hu
  cases h with
  | @giveUp url =>
    refine hset ht url (t := .returned) fun req h => ?_
    cases h
  | @openReq url =>
    refine hset ht url (t := .asking .running) fun req h => .inl ?_
    cases h
    rfl
  | repeated | kept | late | complete => exact ht
  | @answered url | @settled url =>
    refine hset ht url (t := .asking .over) fun req h => .inr ?_
    cases h
    rfl

theorem Moves.tidy (h : Moves q s s') (ht : s.Tidy) : s'.Tidy := by
  induction h with
  | refl => exact ht
  | tail _ hmove ih => exact hmove.tidy ih

theorem release_moves (ht : s.Tidy) (url : JsString) : Moves q s (s.release url) := by
  by_cases h : s.turn url = .asking .running
  · rw [release_running h]
    exact .single (.settled h)
  · rw [release_idle h ht]

theorem foldl_release_moves (ht : s.Tidy) (closers : List JsString) :
    Moves q s (closers.foldl release s) := by
  induction closers generalizing s with
  | nil => exact .refl
  | cons url closers ih =>
    have hfirst : Moves q s (s.release url) := release_moves ht url
    exact hfirst.trans (ih (hfirst.tidy ht))

theorem maybeCompleteEarly_moves (ht : s.Tidy) : Moves q s (s.maybeCompleteEarly q) := by
  unfold maybeCompleteEarly
  split_ifs
  · exact .refl
  · split
    · exact .refl
    · split_ifs
      · have hfirst : Moves q s { s with completedEarly := true } := .single .complete
        exact hfirst.trans (foldl_release_moves (hfirst.tidy ht) s.earlyClosers)
      · exact .refl

/-- Only a REQ that runs can be closed by its relay. -/
theorem step_closed (ht : s.Tidy) (hs : step q s (.closed url) = some s') :
    s.turn url = .asking .running ∧ s' = s.settle url := by
  simp only [step] at hs
  split at hs
  · rename_i req hreq
    rcases ht url req hreq with rfl | rfl
    · rw [if_neg (by simp [RelayReq.running])] at hs
      obtain rfl := Option.some.inj hs
      exact ⟨hreq, closed_finish⟩
    · rw [if_pos (by simp [RelayReq.over])] at hs
      cases hs
  all_goals cases hs

/-- Every step is made of elementary changes. -/
theorem step_moves {a : QueryAction} (ht : s.Tidy) (hs : step q s a = some s') : Moves q s s' := by
  have hmaybe {m : QueryRun} (hm : Move q s m) : Moves q s (m.maybeCompleteEarly q) :=
    (Relation.ReflTransGen.single hm).trans (maybeCompleteEarly_moves (hm.tidy ht))
  cases a with
  | connected url =>
    simp only [step] at hs
    split_ifs at hs with h
    obtain rfl := Option.some.inj hs
    unfold connected
    split_ifs
    · exact .single (.giveUp h.1 h.2)
    · exact hmaybe (.openReq h.1 h.2)
  | failed url =>
    simp only [step] at hs
    split_ifs at hs with h
    obtain rfl := Option.some.inj hs
    exact .single (.giveUp h.1 h.2)
  | event url event =>
    simp only [step] at hs
    split at hs
    · rename_i req hreq
      obtain rfl := Option.some.inj hs
      unfold onevent
      dsimp only
      split_ifs with he
      · exact .single (.repeated hreq he)
      · exact hmaybe (.kept hreq he)
    all_goals cases hs
  | eose url =>
    simp only [step] at hs
    split at hs
    · rename_i req hreq
      obtain rfl := Option.some.inj hs
      unfold oneose
      dsimp only
      rcases ht url req hreq with rfl | rfl
      · rw [if_neg (by simp [RelayReq.running]), release_running (by exact hreq)]
        exact .single (.answered hreq)
      · rw [if_pos (by simp [RelayReq.over])]
        have hidle : (s.note [.eose url]).release url = s.note [.eose url] := by
          refine release_idle ?_ ht
          rw [note_turn, hreq]
          decide
        rw [hidle]
        exact .single (.late hreq)
    all_goals cases hs
  | closed url =>
    obtain ⟨hreq, rfl⟩ := step_closed ht hs
    exact .single (.settled hreq)
  | deadline url =>
    simp only [step] at hs
    split at hs
    · split_ifs at hs
      obtain rfl := Option.some.inj hs
      exact release_moves ht url
    all_goals cases hs

end Moves

/-! ### The accounts -/

structure Accounted (q : StatsQuery) (base : RelayReqStats) (s : QueryRun) : Prop where
  tidy : s.Tidy
  known : ∀ url, s.turn url ≠ .connecting → url ∈ q.relays
  opened : ∀ url, s.log.count (.opened url) = (s.turn url).openedReqs
  closed : ∀ url, s.log.count (.closed url) = (s.turn url).endedReqs
  decided : ∀ url, s.log.count (.decided url) = (s.turn url).isDecided.toNat
  gauge : ∀ url, s.stats.gauge url + (s.turn url).endedReqs =
    base.gauge url + (s.turn url).openedReqs
  eosed : ∀ url, .eose url ∈ s.log → s.turn url = .asking .over
  eoseCount : s.eoseCount = q.relays.countP (eosedFirst s.log)
  ids : ∀ i, i ∈ s.knownIds ↔ ∃ e ∈ delivered s.log, e.id = i
  events : s.events = firsts byId [] (delivered s.log)

section Accounts

variable {q : StatsQuery} {base : RelayReqStats} {s s' : QueryRun} {url : JsString}

theorem takeWhile_undecided {log : List QueryMark} (h : .decided url ∉ log) :
    log.takeWhile (fun m => m ≠ .decided url) = log := by
  rw [List.takeWhile_eq_self_iff]
  intro m hm
  have hne : m ≠ .decided url := by
    rintro rfl
    exact h hm
  simpa using hne

/-- What is noted after the outcome counts for nothing. -/
theorem eosedFirst_decided {log marks : List QueryMark} (h : .decided url ∈ log) :
    eosedFirst (log ++ marks) url = eosedFirst log url := by
  unfold eosedFirst
  rw [List.takeWhile_append, if_neg]
  intro hlen
  have hall := List.takeWhile_eq_self_iff.mp ((List.takeWhile_prefix _).eq_of_length hlen)
  simpa using hall _ h

/-- Before the outcome, an EOSE is the first one. -/
theorem eosedFirst_undecided {log marks : List QueryMark} (h : .decided url ∉ log)
    (he : .eose url ∉ log) : eosedFirst (log ++ marks) url = eosedFirst marks url := by
  have hall := takeWhile_undecided h
  unfold eosedFirst
  rw [List.takeWhile_append, if_pos (by rw [hall])]
  simp [he]

theorem decided_mem_iff (h : Accounted q base s) (url : JsString) :
    .decided url ∈ s.log ↔ (s.turn url).isDecided = true := by
  rw [← List.count_pos_iff, h.decided url]
  cases (s.turn url).isDecided <;> simp

theorem Accounted.not_eosed (h : Accounted q base s) (hd : (s.turn url).isDecided = false) :
    .eose url ∉ s.log := by
  intro he
  rw [h.eosed url he] at hd
  cases hd

/-- Marks of another relay change nothing. -/
theorem eosedFirst_other {log marks : List QueryMark} (hm : ∀ m ∈ marks, m.relay = url)
    {u : JsString} (hu : u ≠ url) : eosedFirst (log ++ marks) u = eosedFirst log u := by
  by_cases h : .decided u ∈ log
  · exact eosedFirst_decided h
  · have hall : ∀ m ∈ marks, m ≠ .decided u ∧ m ≠ .eose u := by
      intro m hmem
      constructor
      · rintro rfl
        exact hu (hm _ hmem)
      · rintro rfl
        exact hu (hm _ hmem)
    have hnot : .eose u ∉ marks := fun hmem => (hall _ hmem).2 rfl
    have hlog := takeWhile_undecided h
    have hmarks : marks.takeWhile (fun m => m ≠ .decided u) = marks :=
      takeWhile_undecided fun hmem => (hall _ hmem).1 rfl
    unfold eosedFirst
    rw [List.takeWhile_append, if_pos (by rw [hlog]), hlog, hmarks]
    simp [hnot]

/-- A count changes with the one element that does. -/
theorem countP_change {f g : JsString → Bool} {relays : List JsString} (hn : relays.Nodup)
    (hother : ∀ u ≠ url, g u = f u) (hf : f url = false) :
    relays.countP g = relays.countP f + if url ∈ relays ∧ g url = true then 1 else 0 := by
  induction relays with
  | nil => simp
  | cons u relays ih =>
    obtain ⟨hu, hn⟩ := List.nodup_cons.mp hn
    have hrest := ih hn
    rw [List.countP_cons, List.countP_cons]
    by_cases heq : u = url
    · subst heq
      rw [if_neg (fun h => hu h.1)] at hrest
      simp [hf, hrest]
    · rw [hother u heq, hrest]
      have hmem : url ∈ u :: relays ↔ url ∈ relays := by simp [Ne.symm heq]
      simp only [hmem]
      omega

/-- What marks of one relay add to the count of the first EOSEs. -/
theorem Accounted.countP_eosedFirst (h : Accounted q base s) {marks : List QueryMark}
    (hm : ∀ m ∈ marks, m.relay = url) :
    q.relays.countP (eosedFirst (s.log ++ marks)) = s.eoseCount +
      if (s.turn url).isDecided = false ∧ url ∈ q.relays ∧ eosedFirst marks url = true then 1
      else 0 := by
  rw [h.eoseCount]
  cases hd : (s.turn url).isDecided with
  | true =>
    rw [if_neg (by simp), Nat.add_zero]
    congr 1
    funext u
    by_cases hu : u = url
    · subst hu
      exact eosedFirst_decided ((decided_mem_iff h u).mpr hd)
    · exact eosedFirst_other hm hu
  | false =>
    have hnot : .decided url ∉ s.log := by
      rw [decided_mem_iff h, hd]
      simp
    have hbefore : eosedFirst s.log url = false := by
      have hsame := @eosedFirst_undecided url s.log [] hnot (h.not_eosed hd)
      rw [List.append_nil] at hsame
      rw [hsame]
      rfl
    rw [countP_change q.distinct (fun u hu => eosedFirst_other hm hu) hbefore,
      eosedFirst_undecided hnot (h.not_eosed hd)]
    simp

theorem delivered_append (log marks : List QueryMark) :
    delivered (log ++ marks) = delivered log ++ delivered marks := List.filterMap_append

/-- The counts after marks of one relay, from the counts in the marks. -/
theorem Accounted.counts (h : Accounted q base s) {marks : List QueryMark}
    (hlog : s'.log = s.log ++ marks) (hm : ∀ m ∈ marks, m.relay = url)
    (hother : ∀ u ≠ url, s'.turn u = s.turn u)
    (ho : (s.turn url).openedReqs + marks.count (.opened url) = (s'.turn url).openedReqs)
    (hc : (s.turn url).endedReqs + marks.count (.closed url) = (s'.turn url).endedReqs)
    (hd : (s.turn url).isDecided.toNat + marks.count (.decided url) =
      (s'.turn url).isDecided.toNat) :
    (∀ u, s'.log.count (.opened u) = (s'.turn u).openedReqs) ∧
    (∀ u, s'.log.count (.closed u) = (s'.turn u).endedReqs) ∧
    ∀ u, s'.log.count (.decided u) = (s'.turn u).isDecided.toNat := by
  have hnone {u : JsString} (hu : u ≠ url) {m : QueryMark} (hrelay : m.relay = u) :
      marks.count m = 0 := by
    refine List.count_eq_zero.mpr fun hmem => hu ?_
    rw [← hrelay, hm m hmem]
  refine ⟨fun u => ?_, fun u => ?_, fun u => ?_⟩
  all_goals
    rw [hlog, List.count_append]
    by_cases hu : u = url
    · subst hu
      first
        | rw [h.opened u, ho]
        | rw [h.closed u, hc]
        | rw [h.decided u, hd]
    · rw [hnone hu rfl, hother u hu, Nat.add_zero]
      first
        | exact h.opened u
        | exact h.closed u
        | exact h.decided u

/-- The accounts after a change at one relay, from what the change is there. -/
theorem Accounted.extend (h : Accounted q base s) (htidy : s'.Tidy) {marks : List QueryMark}
    (hlog : s'.log = s.log ++ marks) (hm : ∀ m ∈ marks, m.relay = url)
    (hother : ∀ u ≠ url, s'.turn u = s.turn u)
    (hk : s'.turn url ≠ .connecting → url ∈ q.relays)
    (ho : (s.turn url).openedReqs + marks.count (.opened url) = (s'.turn url).openedReqs)
    (hc : (s.turn url).endedReqs + marks.count (.closed url) = (s'.turn url).endedReqs)
    (hd : (s.turn url).isDecided.toNat + marks.count (.decided url) =
      (s'.turn url).isDecided.toNat)
    (hstats : ∀ u ≠ url, s'.stats.gauge u = s.stats.gauge u)
    (hgauge : s'.stats.gauge url + (s'.turn url).endedReqs =
      base.gauge url + (s'.turn url).openedReqs)
    (he : .eose url ∈ s.log ++ marks → s'.turn url = .asking .over)
    (hcount : s'.eoseCount = s.eoseCount +
      if (s.turn url).isDecided = false ∧ url ∈ q.relays ∧ eosedFirst marks url = true then 1
      else 0)
    (hids : ∀ i, i ∈ s'.knownIds ↔ ∃ e ∈ delivered s'.log, e.id = i)
    (hevents : s'.events = firsts byId [] (delivered s'.log)) :
    Accounted q base s' := by
  obtain ⟨hopened, hclosed, hdecided⟩ := h.counts hlog hm hother ho hc hd
  refine ⟨htidy, ?_, hopened, hclosed, hdecided, ?_, ?_, ?_, hids, hevents⟩
  · intro u hu
    by_cases heq : u = url
    · subst heq
      exact hk hu
    · rw [hother u heq] at hu
      exact h.known u hu
  · intro u
    by_cases heq : u = url
    · subst heq
      exact hgauge
    · rw [hstats u heq, hother u heq]
      exact h.gauge u
  · intro u hu
    rw [hlog] at hu
    by_cases heq : u = url
    · subst heq
      exact he hu
    · have hold : .eose u ∈ s.log := by
        rcases List.mem_append.mp hu with hu | hu
        · exact hu
        · exact absurd (hm _ hu) heq
      rw [hother u heq]
      exact h.eosed u hold
  · rw [hcount, hlog, h.countP_eosedFirst hm]

/-- What is delivered stays the same when none of the marks is an event. -/
theorem Accounted.ids_of_log (h : Accounted q base s) {marks : List QueryMark}
    (hlog : s'.log = s.log ++ marks) (hnone : delivered marks = []) (i : JsString) :
    i ∈ s.knownIds ↔ ∃ e ∈ delivered s'.log, e.id = i := by
  rw [hlog, delivered_append, hnone, List.append_nil]
  exact h.ids i

theorem Accounted.events_of_log (h : Accounted q base s) {marks : List QueryMark}
    (hlog : s'.log = s.log ++ marks) (hnone : delivered marks = []) :
    s.events = firsts byId [] (delivered s'.log) := by
  rw [hlog, delivered_append, hnone, List.append_nil]
  exact h.events

theorem Accounted.not_eosed_connecting (h : Accounted q base s) (ht : s.turn url = .connecting) :
    .eose url ∉ s.log := by
  apply h.not_eosed
  rw [ht]
  rfl

theorem Accounted.mem_relays (h : Accounted q base s) {req : RelayReq}
    (ht : s.turn url = .asking req) : url ∈ q.relays := by
  apply h.known
  rw [ht]
  simp

theorem Accounted.giveUp (h : Accounted q base s) (hr : url ∈ q.relays)
    (ht : s.turn url = .connecting) : Accounted q base (s.giveUp url) := by
  have hself : (s.giveUp url).turn url = .returned := setTurn_self _
  have hlog : (s.giveUp url).log = s.log ++ [.decided url] := rfl
  have hgauge := h.gauge url
  rw [ht] at hgauge
  refine h.extend ((Move.giveUp hr ht).tidy h.tidy) hlog (by simp [QueryMark.relay])
    (fun u hu => setTurn_of_ne hu _) (fun _ => hr) ?_ ?_ ?_ (fun _ _ => rfl) ?_ ?_ ?_
    (h.ids_of_log hlog rfl) (h.events_of_log hlog rfl)
  · simp [ht, hself, RelayTurn.openedReqs]
  · simp [ht, hself, RelayTurn.endedReqs]
  · simp [ht, hself, RelayTurn.isDecided]
  · rw [hself]
    exact hgauge
  · simp [h.not_eosed_connecting ht]
  · rw [if_neg (by simp [eosedFirst])]
    rfl

theorem Accounted.openReq (h : Accounted q base s) (hr : url ∈ q.relays)
    (ht : s.turn url = .connecting) : Accounted q base (s.openReq q url) := by
  have hself : (s.openReq q url).turn url = .asking .running := setTurn_self _
  have hlog : (s.openReq q url).log = s.log ++ [.opened url] := rfl
  have hstats : (s.openReq q url).stats = s.stats.recordReqOpened url q.filterSummary := rfl
  have hgauge := h.gauge url
  simp only [ht, RelayTurn.openedReqs, RelayTurn.endedReqs] at hgauge
  refine h.extend ((Move.openReq hr ht).tidy h.tidy) hlog (by simp [QueryMark.relay])
    (fun u hu => setTurn_of_ne hu _) (fun _ => hr) ?_ ?_ ?_ ?_ ?_ ?_ ?_
    (h.ids_of_log hlog rfl) (h.events_of_log hlog rfl)
  · simp [ht, hself, RelayTurn.openedReqs]
  · simp [ht, hself, RelayTurn.endedReqs, RelayReq.running]
  · simp [ht, hself, RelayTurn.isDecided, RelayReq.running]
  · intro u hu
    simp [hstats, hu]
  · simp [hstats, hself, RelayTurn.openedReqs, RelayTurn.endedReqs, RelayReq.running]
    omega
  · simp [h.not_eosed_connecting ht]
  · rw [if_neg (by simp [eosedFirst])]
    rfl

/-- The REQ of a relay ends, after its EOSE or without one. -/
theorem Accounted.settle (h : Accounted q base s) (ht : s.turn url = .asking .running)
    {eosed : List QueryMark} (hor : eosed = [] ∨ eosed = [.eose url]) :
    Accounted q base
      (QueryRun.settle { s.note eosed with eoseCount := s.eoseCount + eosed.length } url) := by
  let m : QueryRun := { s.note eosed with eoseCount := s.eoseCount + eosed.length }
  change Accounted q base (m.settle url)
  have hself : (m.settle url).turn url = .asking .over := settle_turn_self
  have hlog : (m.settle url).log = s.log ++ (eosed ++ [.closed url, .decided url]) :=
    List.append_assoc _ _ _
  have hstats : (m.settle url).stats = s.stats.recordReqClosed url := rfl
  have hgauge := h.gauge url
  simp only [ht, RelayTurn.openedReqs, RelayTurn.endedReqs, RelayReq.running] at hgauge
  have hr := h.mem_relays ht
  have htidy : (m.settle url).Tidy := (Move.settled (q := q) (s := m) ht).tidy h.tidy
  have hnone : delivered (eosed ++ [.closed url, .decided url]) = [] := by
    rcases hor with rfl | rfl
    · rfl
    · rfl
  refine h.extend htidy hlog ?_ (fun u hu => settle_turn_of_ne hu) (fun _ => hr) ?_ ?_ ?_ ?_ ?_
    (fun _ => hself) ?_ (h.ids_of_log hlog hnone) (h.events_of_log hlog hnone)
  · rcases hor with rfl | rfl
    · simp [QueryMark.relay]
    · simp [QueryMark.relay]
  · rcases hor with rfl | rfl
    · simp [ht, hself, RelayTurn.openedReqs]
    · simp [ht, hself, RelayTurn.openedReqs]
  · rcases hor with rfl | rfl
    · simp [ht, hself, RelayTurn.endedReqs, RelayReq.running, RelayReq.over]
    · simp [ht, hself, RelayTurn.endedReqs, RelayReq.running, RelayReq.over]
  · rcases hor with rfl | rfl
    · simp [ht, hself, RelayTurn.isDecided, RelayReq.running, RelayReq.over]
    · simp [ht, hself, RelayTurn.isDecided, RelayReq.running, RelayReq.over]
  · intro u hu
    simp [hstats, hu]
  · simp [hstats, hself, RelayTurn.openedReqs, RelayTurn.endedReqs, RelayReq.over]
    simp at hgauge
    omega
  · have hcount : (m.settle url).eoseCount = s.eoseCount + eosed.length := rfl
    rw [hcount]
    rcases hor with rfl | rfl
    · rw [if_neg (by simp [eosedFirst])]
      rfl
    · rw [if_pos ⟨by rw [ht]; rfl, hr, by simp [eosedFirst]⟩]
      rfl

/-- A mark that no outcome depends on. -/
theorem Accounted.note (h : Accounted q base s) {req : RelayReq} (ht : s.turn url = .asking req)
    {mark : QueryMark} (hm : mark = .eose url ∧ req = .over ∨ ∃ e, mark = .event url e)
    {ids : List JsString} {evs : List Event}
    (hids : ∀ i, i ∈ ids ↔ ∃ e ∈ delivered (s.log ++ [mark]), e.id = i)
    (hevents : evs = firsts byId [] (delivered (s.log ++ [mark]))) :
    Accounted q base { s.note [mark] with knownIds := ids, events := evs } := by
  have hr := h.mem_relays ht
  have hrelay : ∀ m ∈ [mark], m.relay = url := by
    rcases hm with ⟨rfl, -⟩ | ⟨e, rfl⟩
    · simp [QueryMark.relay]
    · simp [QueryMark.relay]
  refine h.extend h.tidy rfl hrelay (fun _ _ => rfl) (fun _ => hr) ?_ ?_ ?_ (fun _ _ => rfl)
    (h.gauge url) ?_ ?_ hids hevents
  · rcases hm with ⟨rfl, -⟩ | ⟨e, rfl⟩
    · simp
    · simp
  · rcases hm with ⟨rfl, -⟩ | ⟨e, rfl⟩
    · simp
    · simp
  · rcases hm with ⟨rfl, -⟩ | ⟨e, rfl⟩
    · simp
    · simp
  · intro he
    rcases hm with ⟨rfl, rfl⟩ | ⟨e, rfl⟩
    · exact ht
    · exact h.eosed url (by simpa using he)
  · rcases hm with ⟨rfl, rfl⟩ | ⟨e, rfl⟩
    · rw [if_neg (by simp [ht, RelayTurn.isDecided, RelayReq.over])]
      rfl
    · rw [if_neg (by simp [eosedFirst])]
      rfl

theorem Accounted.repeated (h : Accounted q base s) {req : RelayReq}
    (ht : s.turn url = .asking req) {event : Event} (he : event.id ∈ s.knownIds) :
    Accounted q base (s.note [.event url event]) := by
  have hdelivered : delivered (s.log ++ [.event url event]) = delivered s.log ++ [event] :=
    delivered_append _ _
  obtain ⟨old, hold, hid⟩ := (h.ids event.id).mp he
  refine h.note ht (.inr ⟨event, rfl⟩) (fun i => ?_) ?_
  · rw [hdelivered, h.ids i]
    constructor
    · rintro ⟨e, hmem, hi⟩
      exact ⟨e, List.mem_append_left _ hmem, hi⟩
    · rintro ⟨e, hmem, hi⟩
      rcases List.mem_append.mp hmem with hmem | hmem
      · exact ⟨e, hmem, hi⟩
      · obtain rfl := List.mem_singleton.mp hmem
        exact ⟨old, hold, hid.trans hi⟩
  · have hkey : byId event = some event.id := rfl
    rw [hdelivered, firsts_concat hkey, if_pos (.inr ⟨old, hold, congrArg some hid⟩),
      List.append_nil]
    exact h.events

theorem Accounted.kept (h : Accounted q base s) {req : RelayReq}
    (ht : s.turn url = .asking req) {event : Event} (he : event.id ∉ s.knownIds) :
    Accounted q base ((s.note [.event url event]).keep event) := by
  have hdelivered : delivered (s.log ++ [.event url event]) = delivered s.log ++ [event] :=
    delivered_append _ _
  refine h.note ht (.inr ⟨event, rfl⟩) (fun i => ?_) ?_
  · have hor : (∃ e ∈ delivered s.log ++ [event], e.id = i) ↔
        event.id = i ∨ ∃ e ∈ delivered s.log, e.id = i := by
      simp only [List.mem_append, List.mem_singleton, or_and_right, exists_or, exists_eq_left]
      exact or_comm
    rw [hdelivered, hor, ← h.ids i, eq_comm (a := event.id)]
    exact List.mem_cons
  · have hnew : ¬∃ e ∈ delivered s.log, byId e = some event.id := by
      rintro ⟨e, hmem, hid⟩
      exact he ((h.ids _).mpr ⟨e, hmem, Option.some.inj hid⟩)
    have hkey : byId event = some event.id := rfl
    rw [hdelivered, firsts_concat hkey, if_neg (by simpa using hnew), ← h.events]
    rfl

theorem Accounted.move (h : Accounted q base s) (hm : Move q s s') : Accounted q base s' := by
  cases hm with
  | giveUp hr ht => exact h.giveUp hr ht
  | openReq hr ht => exact h.openReq hr ht
  | repeated ht he => exact h.repeated ht he
  | kept ht he => exact h.kept ht he
  | answered ht => exact h.settle ht (.inr rfl)
  | @late url ht =>
    have hlog : (s.note [.eose url]).log = s.log ++ [.eose url] := rfl
    exact h.note ht (.inl ⟨rfl, rfl⟩) (h.ids_of_log hlog rfl) (h.events_of_log hlog rfl)
  | @settled url ht =>
    have hnone : { s.note [] with eoseCount := s.eoseCount + 0 } = s := by simp [QueryRun.note]
    have hsettle := h.settle ht (.inl rfl)
    rw [List.length_nil, hnone] at hsettle
    exact hsettle
  | complete =>
    exact ⟨h.tidy, h.known, h.opened, h.closed, h.decided, h.gauge, h.eosed, h.eoseCount, h.ids,
      h.events⟩

theorem Accounted.moves (h : Accounted q base s) (hm : Moves q s s') : Accounted q base s' := by
  induction hm with
  | refl => exact h
  | tail _ hmove ih => exact ih.move hmove

theorem accounted_init (q : StatsQuery) (base : RelayReqStats) : Accounted q base (init base) := by
  constructor
  case tidy =>
    intro url req h
    cases h
  case eoseCount =>
    have hnone : eosedFirst (init base).log = fun _ => false := by
      funext u
      simp [eosedFirst, init]
    rw [hnone]
    simp [init]
  all_goals simp [init, RelayTurn.openedReqs, RelayTurn.endedReqs, RelayTurn.isDecided, delivered,
    firsts]

theorem accounted_run {as : List QueryAction} (hr : run (step q) (init base) as = some s) :
    Accounted q base s :=
  run_invariant_all (fun _ _ _ h hs => h.moves (step_moves h.tidy hs)) (accounted_init q base) hr

end Accounts

end QueryRun

end LivelierBridge.Nostr
