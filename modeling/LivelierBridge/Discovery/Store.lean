import LivelierBridge.Framework.OrderedMap
import LivelierBridge.Js.String
import Mathlib.Data.List.Sort

namespace LivelierBridge.Discovery

open Framework Js

inductive Status where
  | live
  | ended
  deriving DecidableEq

inductive Liveness where
  | live
  | ended
  | error
  deriving DecidableEq

/-- A row of `bridge_instances` without its key, the url; times are in milliseconds. -/
structure InstanceRow (ν : Type) where
  source : JsString
  origin : JsString
  pubkey : JsString
  dTag : JsString
  name : JsString
  streamTitle : JsString
  description : JsString
  image : JsString
  nsfw : Bool
  startsAt : Option Int
  status : Status
  hlsUrl : JsString
  lastLiveness : Option Liveness
  consecutiveFailures : Nat
  profileHash : Option JsString
  /-- The last published viewer count, absent when the source hides it. -/
  viewerCount : Option ν
  chatEnabled : Bool
  discoveryEnabled : Bool
  firstSeenAt : Int
  lastPublishedAt : Option Int
  deriving DecidableEq

structure UpsertSeenInput where
  source : JsString
  pubkey : JsString
  dTag : JsString
  name : JsString
  streamTitle : JsString
  description : JsString
  image : JsString
  nsfw : Bool
  startsAt : Option Int
  hlsUrl : JsString
  discoveryEnabled : Bool
  chatEnabled : Bool

variable {ν : Type}

/-- The row that the INSERT makes, with the column defaults. -/
def insertedRow (input : UpsertSeenInput) (now : Int) : InstanceRow ν where
  source := input.source
  origin := js "discovered"
  pubkey := input.pubkey
  dTag := input.dTag
  name := input.name
  streamTitle := input.streamTitle
  description := input.description
  image := input.image
  nsfw := input.nsfw
  startsAt := input.startsAt
  status := .live
  hlsUrl := input.hlsUrl
  lastLiveness := none
  consecutiveFailures := 0
  profileHash := none
  viewerCount := none
  chatEnabled := input.chatEnabled
  discoveryEnabled := input.discoveryEnabled
  firstSeenAt := now
  lastPublishedAt := none

/-- The row that `ON CONFLICT (url) DO UPDATE` makes of the stored one. -/
def refreshedRow (row : InstanceRow ν) (input : UpsertSeenInput) : InstanceRow ν :=
  { row with
    source := input.source
    dTag := input.dTag
    name := input.name
    streamTitle := input.streamTitle
    description := input.description
    image := input.image
    nsfw := input.nsfw
    startsAt := input.startsAt
    hlsUrl := input.hlsUrl }

/-- The row that the upsert returns. -/
def upsertedRow (stored : Option (InstanceRow ν)) (input : UpsertSeenInput) (now : Int) :
    InstanceRow ν :=
  match stored with
  | none => insertedRow input now
  | some row => refreshedRow row input

/-- `bridge_instances`, keyed by url. -/
abbrev InstanceTable (ν : Type) := OrderedMap JsString (InstanceRow ν)

/-- The rows that satisfy a condition, in an order that the query leaves open. -/
def InstanceTable.select (table : InstanceTable ν) (order : JsString → Nat)
    (p : InstanceRow ν → Bool) : List (JsString × InstanceRow ν) :=
  (table.entries.filter fun e => p e.2).insertionSort fun e e' => order e.1 ≤ order e'.1

/-- `listManual`: `WHERE source = $1 AND origin = 'manual'` -/
def listManual (source : JsString) (row : InstanceRow ν) : Bool :=
  row.source = source ∧ row.origin = js "manual"

/-- `listByStatus`: `WHERE status = $1 AND source = $2` -/
def listByStatus (status : Status) (source : JsString) (row : InstanceRow ν) : Bool :=
  row.status = status ∧ row.source = source

theorem listByStatus_status {status : Status} {source : JsString} {row : InstanceRow ν}
    (h : listByStatus status source row = true) : row.status = status := by
  simp only [listByStatus, decide_eq_true_eq] at h
  exact h.1

/-- `listChatRooms`: `WHERE chat_enabled AND discovery_enabled AND status = 'live' AND source = $1` -/
def listChatRooms (source : JsString) (row : InstanceRow ν) : Bool :=
  row.chatEnabled ∧ row.discoveryEnabled ∧ row.status = .live ∧ row.source = source

theorem InstanceTable.mem_select {table : InstanceTable ν} {order : JsString → Nat}
    {p : InstanceRow ν → Bool} {url : JsString} {row : InstanceRow ν} :
    (url, row) ∈ table.select order p ↔ table.get? url = some row ∧ p row = true := by
  simp [InstanceTable.select, List.mem_insertionSort, OrderedMap.get?_eq_some_iff]

theorem InstanceTable.select_nodup (table : InstanceTable ν) (order : JsString → Nat)
    (p : InstanceRow ν → Bool) : ((table.select order p).map Prod.fst).Nodup := by
  have hperm := List.perm_insertionSort (fun e e' : JsString × InstanceRow ν => order e.1 ≤ order e'.1)
    (table.entries.filter fun e => p e.2)
  exact (hperm.map Prod.fst).nodup_iff.mpr (table.nodup.sublist (List.filter_sublist.map _))

end LivelierBridge.Discovery
