import LivelierBridge.Framework.Run
import LivelierBridge.Framework.OrderedMap
import LivelierBridge.Js.String

namespace LivelierBridge.Chat

open Framework Js

abbrev RoomId := Nat
abbrev ListenerId := Nat
abbrev RunId := Nat

/-- The columns of a `bridge_instances` row that decide a room. -/
structure RoomRow where
  url : JsString
  d_tag : JsString
  deriving DecidableEq

structure Room where
  row : RoomRow
  aTag : JsString
  listener : Option ListenerId
  deriving DecidableEq

structure RoomsConfig where
  bridgePubkey : JsString
  chatToNostr : Bool
  /-- A demand source is wired, so listeners wait for a viewer. -/
  demand : Bool

/-- Where a started `refreshRooms` or `pollDemand` is suspended. `opening` is the await of
`adapter.openListener`, `opened` the continuation after the handle was assigned. -/
inductive Suspended where
  | refreshListing
  | refreshOpening (room : RoomId) (rest : List RoomRow)
  | refreshOpened (rest : List RoomRow)
  | pollFetching
  | pollOpening (room : RoomId) (demanded : List JsString)
  | pollOpened (room : RoomId) (demanded : List JsString)
  deriving DecidableEq

def Suspended.openingRoom : Suspended → Option RoomId
  | .refreshOpening room _ => some room
  | .pollOpening room _ => some room
  | _ => none

/-- Room objects outlive their entry in `rooms`: a suspended call still holds them. -/
structure RoomsState where
  rooms : OrderedMap JsString RoomId
  room : RoomId → Room
  nextRoom : RoomId
  runs : OrderedMap RunId Suspended
  nextRun : RunId
  /-- Handles `0 … nextListener-1` were returned by `openListener`. -/
  nextListener : ListenerId
  stoppedListeners : List ListenerId
  /-- `stop()` was called and no `refreshRooms` was started since. -/
  halted : Bool

def RoomsState.init : RoomsState :=
  ⟨.empty, fun _ => ⟨⟨[], []⟩, [], none⟩, 0, .empty, 0, 0, [], false⟩

/-- The calls on the adapter and on its listener handles that one step makes. -/
inductive AdapterCall where
  | openListener (url : JsString)
  | stopListener (l : ListenerId)
  | closeRoom (url : JsString)
  | closeAll
  deriving DecidableEq

inductive RoomsAction where
  | refreshRooms
  | pollDemand
  | stop
  /-- `store.listChatRooms` answers, or throws. -/
  | rows (run : RunId) (rows : Option (List RoomRow))
  /-- `demand.fetchDemandedATags` answers, or throws. -/
  | demanded (run : RunId) (aTags : Option (List JsString))
  /-- The pending `openListener` of the run resolves with a handle, or rejects. -/
  | listener (run : RunId) (ok : Bool)
  /-- The loop goes on after its `startListener` returned. -/
  | resume (run : RunId)

namespace RoomsState

def start (s : RoomsState) (p : Suspended) : RoomsState :=
  { s with runs := s.runs.set s.nextRun p, nextRun := s.nextRun + 1 }

def suspend (s : RoomsState) (run : RunId) (p : Suspended) : RoomsState :=
  { s with runs := s.runs.set run p }

def finish (s : RoomsState) (run : RunId) : RoomsState := { s with runs := s.runs.delete run }

def aTagOf (cfg : RoomsConfig) (row : RoomRow) : JsString :=
  js "30311:" ++ cfg.bridgePubkey ++ js ":" ++ row.d_tag

def openRoom (cfg : RoomsConfig) (s : RoomsState) (row : RoomRow) : RoomsState :=
  { s with
    rooms := s.rooms.set row.url s.nextRoom
    room := Function.update s.room s.nextRoom ⟨row, aTagOf cfg row, none⟩
    nextRoom := s.nextRoom + 1 }

/-- The rooms of `gone` stop their listener, in iteration order. -/
def stopGone (s : RoomsState) (gone : List (JsString × RoomId)) : List ListenerId :=
  gone.filterMap fun e => (s.room e.2).listener

/-- Tear down rooms no longer wanted. -/
def closeUnwanted (s : RoomsState) (wanted : OrderedMap JsString RoomRow) : RoomsState :=
  { s with
    rooms := s.rooms.filter fun e => wanted.has e.1
    stoppedListeners := s.stoppedListeners ++
      s.stopGone (s.rooms.entries.filter fun e => !wanted.has e.1) }

def closeCalls (s : RoomsState) (wanted : OrderedMap JsString RoomRow) : List AdapterCall :=
  (s.rooms.entries.filter fun e => !wanted.has e.1).flatMap fun e =>
    ((s.room e.2).listener.toList.map .stopListener) ++ [.closeRoom e.1]

/-- Bring up new rooms, up to the first one whose listener has to be awaited. -/
def bringUp (cfg : RoomsConfig) (s : RoomsState) :
    List RoomRow → RoomsState × Option (RoomId × List RoomRow)
  | [] => (s, none)
  | row :: rest =>
    if s.rooms.has row.url then bringUp cfg s rest
    else if cfg.chatToNostr && !cfg.demand then
      (s.openRoom cfg row, some (s.nextRoom, rest))
    else bringUp cfg (s.openRoom cfg row) rest

def continueRefresh (cfg : RoomsConfig) (s : RoomsState) (run : RunId) (rows : List RoomRow) :
    RoomsState × List AdapterCall :=
  match bringUp cfg s rows with
  | (s', none) => (s'.finish run, [])
  | (s', some (room, rest)) =>
    (s'.suspend run (.refreshOpening room rest), [.openListener (s'.room room).row.url])

/-- The live iterator of `this.rooms.values()`: room ids grow in insertion order, so it stands
at the first id it has not visited. -/
def nextDemanded (s : RoomsState) (aTags : List JsString) (from' : RoomId) : Option RoomId :=
  s.rooms.values.find? fun id =>
    decide (from' ≤ id) && (s.room id).listener.isNone && aTags.contains (s.room id).aTag

def continuePoll (s : RoomsState) (run : RunId) (aTags : List JsString) (from' : RoomId) :
    RoomsState × List AdapterCall :=
  match s.nextDemanded aTags from' with
  | none => (s.finish run, [])
  | some room => (s.suspend run (.pollOpening room aTags), [.openListener (s.room room).row.url])

/-- `room.listener = await …` on a fresh handle. -/
def assignListener (s : RoomsState) (room : RoomId) : RoomsState :=
  { s with
    room := Function.update s.room room { s.room room with listener := some s.nextListener }
    nextListener := s.nextListener + 1 }

def stopAll (s : RoomsState) : RoomsState :=
  { s with
    rooms := .empty
    stoppedListeners := s.stoppedListeners ++ s.stopGone s.rooms.entries
    halted := true }

def wantedRooms (rows : List RoomRow) : OrderedMap JsString RoomRow :=
  .ofList (rows.map fun r => (r.url, r))

/-- One synchronous piece of `refreshRooms`, `pollDemand` or `stop`, with the adapter calls it
makes. -/
def step (cfg : RoomsConfig) (s : RoomsState) :
    RoomsAction → Option (RoomsState × List AdapterCall)
  | .refreshRooms => some ({ s.start .refreshListing with halted := false }, [])
  | .pollDemand =>
    if cfg.demand && cfg.chatToNostr then some (s.start .pollFetching, []) else some (s, [])
  | .stop =>
    some (s.stopAll, (s.stopGone s.rooms.entries).map .stopListener ++ [.closeAll])
  | .rows run answer =>
    match s.runs.get? run, answer with
    | some .refreshListing, none => some (s.finish run, [])
    | some .refreshListing, some rows =>
      let wanted := wantedRooms rows
      let (s', calls) := (s.closeUnwanted wanted).continueRefresh cfg run wanted.values
      some (s', s.closeCalls wanted ++ calls)
    | _, _ => none
  | .demanded run answer =>
    match s.runs.get? run, answer with
    | some .pollFetching, none => some (s.finish run, [])
    | some .pollFetching, some aTags => some (s.continuePoll run aTags 0)
    | _, _ => none
  | .listener run ok =>
    match s.runs.get? run with
    | some (.refreshOpening room rest) =>
      if ok then some ((s.assignListener room).suspend run (.refreshOpened rest), [])
      else some (s.finish run, [])
    | some (.pollOpening room aTags) =>
      if ok then some ((s.assignListener room).suspend run (.pollOpened room aTags), [])
      else some (s.finish run, [])
    | _ => none
  | .resume run =>
    match s.runs.get? run with
    | some (.refreshOpened rest) => some (s.continueRefresh cfg run rest)
    | some (.pollOpened room aTags) => some (s.continuePoll run aTags (room + 1))
    | _ => none

def next (cfg : RoomsConfig) (s : RoomsState) (a : RoomsAction) : Option RoomsState :=
  (step cfg s a).map Prod.fst

/-- Some started run awaits `openListener` for this room. -/
def Opening (s : RoomsState) (id : RoomId) : Prop :=
  ∃ e ∈ s.runs.entries, e.2.openingRoom = some id

instance (s : RoomsState) (id : RoomId) : Decidable (s.Opening id) :=
  inferInstanceAs (Decidable (∃ e ∈ s.runs.entries, e.2.openingRoom = some id))

theorem opening_iff (s : RoomsState) (id : RoomId) :
    s.Opening id ↔ ∃ run p, s.runs.get? run = some p ∧ p.openingRoom = some id := by
  constructor
  · rintro ⟨⟨run, p⟩, he, hp⟩
    exact ⟨run, p, (s.runs.get?_eq_some_iff run p).mpr he, hp⟩
  · rintro ⟨run, p, hr, hp⟩
    exact ⟨(run, p), (s.runs.get?_eq_some_iff run p).mp hr, hp⟩

end RoomsState

end LivelierBridge.Chat
