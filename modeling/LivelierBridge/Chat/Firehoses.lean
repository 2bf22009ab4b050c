import LivelierBridge.Chat.Inbound

namespace LivelierBridge.Chat

open Framework Js

/-- Silence tolerated before the subscription is rebuilt regardless. -/
def MAX_SILENCE_MS : Nat := 60 * 60000
/-- Consecutive health checks with publishes but no echo before rebuilding. -/
def ECHO_MISS_RESTART : Nat := 2
/-- Minimum gap between close-driven restarts. -/
def MIN_RESTART_INTERVAL_MS : Nat := 30000
/-- Share of a subscription's relays that must drop before it is rebuilt, in percent. -/
def RELAY_DISCONNECT_THRESHOLD : Nat := 75
def LOCAL_FIREHOSE_RELAYS : Nat := 1

structure FirehoseConfig where
  chatFromNostr : Bool
  networkChatReadRelays : List JsString

/-- A subscription handle, by the number of its `subscribe` call. -/
abbrev SubId := Nat

/-- How a `close()` comes back: by calling `onclose` with some reasons, or not at all. -/
abbrev Echo := Option (List JsString)

/-- What the service holds, and which handles are unclosed, between two calls. -/
structure Moment where
  stopped : Bool
  nostrSub : Option SubId
  networkSub : Option SubId
  unclosed : List (Via × SubId)
  deriving DecidableEq

structure Firehoses where
  nostrSub : Option SubId
  networkSub : Option SubId
  stopped : Bool
  lastEventTime : Nat
  disconnectedRelayCount : Nat
  publishedSinceCheck : Nat
  seenSinceCheck : Nat
  echoMissStreak : Nat
  lastRestartAt : Nat
  now : Nat
  /-- How many calls of `refreshRooms` have not come to their end. -/
  refreshing : Nat
  nextSub : SubId
  unclosed : List (Via × SubId)
  /-- The handles that `close()` was called on. -/
  closes : List SubId
  /-- The moment after each call on a gateway or a handle. -/
  moments : List Moment
  /-- The held local subscription, once its restart was deferred and no event came since. -/
  deferred : Option SubId
  /-- When each firehose was rebuilt by its close handler. -/
  rebuilds : Via → List Nat
  /-- `start()` was called since the last such rebuild of the local one. -/
  startedSince : Bool

inductive FirehoseAction where
  | tick (ms : Nat)
  | start
  | refreshRooms
  /-- A refresh ends, at its tail or with an error before. -/
  | refreshed (ok : Bool)
  | nostrEvent (via : Via)
  /-- A bridged 1311 was accepted. -/
  | published
  /-- The relays report an unclosed subscription ended. -/
  | onclose (via : Via) (sub : SubId) (reasons : List JsString) (echoes : List Echo)
  | checkSubscriptionHealth (echoes : List Echo)
  | stop (echoes networkEchoes : List Echo)

namespace Firehoses

def init (now : Nat) : Firehoses :=
  { nostrSub := none, networkSub := none, stopped := false, lastEventTime := now
    disconnectedRelayCount := 0, publishedSinceCheck := 0, seenSinceCheck := 0
    echoMissStreak := 0, lastRestartAt := 0, now := now, refreshing := 0, nextSub := 0
    unclosed := [], closes := [], moments := [], deferred := none, rebuilds := fun _ => []
    startedSince := false }

def held (s : Firehoses) : Via → Option SubId
  | .local => s.nostrSub
  | .network => s.networkSub

def moment (s : Firehoses) : Moment := ⟨s.stopped, s.nostrSub, s.networkSub, s.unclosed⟩

def noteMoment (s : Firehoses) : Firehoses := { s with moments := s.moments ++ [s.moment] }

/-- `this.nostrSub = …` or `this.networkSub = …` -/
def setSub (s : Firehoses) (via : Via) (sub : Option SubId) : Firehoses :=
  match via with
  | .local => { s with nostrSub := sub }
  | .network => { s with networkSub := sub }

/-- Subscribe, and hold on to the handle. -/
def openSub (s : Firehoses) (via : Via) : Firehoses :=
  noteMoment { s.setSub via (some s.nextSub) with
    nextSub := s.nextSub + 1, unclosed := s.unclosed ++ [(via, s.nextSub)] }

/-- `sub.close()`, but for what it calls back. -/
def closeSub (s : Firehoses) (sub : SubId) : Firehoses :=
  noteMoment { s with
    unclosed := s.unclosed.filter fun e => e.2 ≠ sub, closes := s.closes ++ [sub] }

def ensureNostrSub (cfg : FirehoseConfig) (s : Firehoses) : Firehoses :=
  if s.stopped || !cfg.chatFromNostr || s.nostrSub.isSome then s else s.openSub .local

def ensureNetworkSub (cfg : FirehoseConfig) (s : Firehoses) : Firehoses :=
  if s.stopped || !cfg.chatFromNostr || s.networkSub.isSome then s
  else if cfg.networkChatReadRelays.isEmpty then s
  else s.openSub .network

/-- The new subscription must not be judged on the old one's window. -/
def resetWindow (s : Firehoses) : Firehoses :=
  { s with
    disconnectedRelayCount := 0, publishedSinceCheck := 0, seenSinceCheck := 0
    echoMissStreak := 0, lastRestartAt := s.now }

/-- Detach the local handle, then close it. -/
def dropNostrSub (s : Firehoses) (reenter : Firehoses → Firehoses) : Firehoses :=
  match s.nostrSub with
  | none => s
  | some sub => reenter (closeSub { s with nostrSub := none, deferred := none } sub)

/-- Cleanly stop the current subscription and recreate it. -/
def restartNostrSub (cfg : FirehoseConfig) (s : Firehoses) (reenter : Firehoses → Firehoses) :
    Firehoses :=
  ensureNostrSub cfg { s.resetWindow.dropNostrSub reenter with lastEventTime := s.now }

def noteRebuild (s : Firehoses) (via : Via) : Firehoses :=
  { s with
    rebuilds := Function.update s.rebuilds via (s.rebuilds via ++ [s.now])
    startedSince := if via = .local then false else s.startedSince }

def countClosed (s : Firehoses) (reasons : List JsString) : Firehoses :=
  { s with disconnectedRelayCount := s.disconnectedRelayCount + reasons.length }

/-- `disconnectPct` is over the threshold. -/
def exceeded (s : Firehoses) : Bool :=
  s.disconnectedRelayCount * 100 > RELAY_DISCONNECT_THRESHOLD * LOCAL_FIREHOSE_RELAYS

/-- The last restart is too recent for another one. -/
def floored (s : Firehoses) : Bool := s.now - s.lastRestartAt < MIN_RESTART_INTERVAL_MS

/-- The close handler of the local firehose -/
def localOnClose (cfg : FirehoseConfig) (s : Firehoses) (reenter : Firehoses → Firehoses)
    (reasons : List JsString) : Firehoses :=
  if s.stopped || s.nostrSub.isNone then s
  else if !(s.countClosed reasons).exceeded then s.countClosed reasons
  else if s.floored then { s.countClosed reasons with deferred := s.nostrSub }
  else ((s.countClosed reasons).noteRebuild .local).restartNostrSub cfg reenter

/-- The close handler of the network firehose; it only logs the reasons. -/
def networkOnClose (cfg : FirehoseConfig) (s : Firehoses) (reenter : Firehoses → Firehoses) :
    Firehoses :=
  match s.networkSub with
  | none => s
  | some sub =>
    if s.stopped then s
    else ensureNetworkSub cfg (reenter (closeSub { s.noteRebuild .network with
      networkSub := none } sub))

/-- What a `close()` of the local handle runs: its close handler, whose own `close()` comes back
the same way. -/
def reenterLocal (cfg : FirehoseConfig) : List Echo → Firehoses → Firehoses
  | some reasons :: echoes, s => s.localOnClose cfg (reenterLocal cfg echoes) reasons
  | _, s => s

def reenterNetwork (cfg : FirehoseConfig) : List Echo → Firehoses → Firehoses
  | some _ :: echoes, s => s.networkOnClose cfg (reenterNetwork cfg echoes)
  | _, s => s

def onclose (cfg : FirehoseConfig) (s : Firehoses) (reasons : List JsString)
    (echoes : List Echo) : Via → Firehoses
  | .local => s.localOnClose cfg (reenterLocal cfg echoes) reasons
  | .network => s.networkOnClose cfg (reenterNetwork cfg echoes)

/-- Published above zero with nothing received. -/
def echoMissing (s : Firehoses) : Bool := s.publishedSinceCheck > 0 && s.seenSinceCheck = 0

/-- The echo accounting of a health check -/
def closeWindow (s : Firehoses) : Firehoses :=
  { s with
    publishedSinceCheck := 0, seenSinceCheck := 0
    echoMissStreak := if s.echoMissing then s.echoMissStreak + 1 else 0 }

def checkSubscriptionHealth (cfg : FirehoseConfig) (s : Firehoses)
    (reenter : Firehoses → Firehoses) : Firehoses :=
  if !cfg.chatFromNostr || s.nostrSub.isNone then s
  else if s.closeWindow.echoMissStreak ≥ ECHO_MISS_RESTART then
    restartNostrSub cfg { s.closeWindow with echoMissStreak := 0 } reenter
  else if s.now - s.lastEventTime < MAX_SILENCE_MS then s.closeWindow
  else s.closeWindow.restartNostrSub cfg reenter

/-- The part of `start()` before its first await. -/
def start (s : Firehoses) : Firehoses :=
  { s with
    stopped := false, lastEventTime := s.now, disconnectedRelayCount := 0
    publishedSinceCheck := 0, seenSinceCheck := 0, echoMissStreak := 0, lastRestartAt := 0
    refreshing := s.refreshing + 1, startedSince := true }

/-- Both handles are detached before either is closed. -/
def detach (s : Firehoses) : Firehoses :=
  { s with stopped := true, nostrSub := none, networkSub := none, deferred := none }

/-- Close a handle that was held. -/
def closeHeld (s : Firehoses) (reenter : Firehoses → Firehoses) : Option SubId → Firehoses
  | none => s
  | some sub => reenter (s.closeSub sub)

def stop (cfg : FirehoseConfig) (s : Firehoses) (echoes networkEchoes : List Echo) : Firehoses :=
  (s.detach.closeHeld (reenterLocal cfg echoes) s.nostrSub).closeHeld
    (reenterNetwork cfg networkEchoes) s.networkSub

def nostrEvent (s : Firehoses) : Via → Firehoses
  | .local =>
    { s with seenSinceCheck := s.seenSinceCheck + 1, lastEventTime := s.now, deferred := none }
  | .network => s

/-- The tail of `refreshRooms` -/
def refreshTail (cfg : FirehoseConfig) (s : Firehoses) : Firehoses :=
  ensureNetworkSub cfg (ensureNostrSub cfg s)

/-- One synchronous piece of the service's subscriptions. -/
def step (cfg : FirehoseConfig) (s : Firehoses) : FirehoseAction → Option Firehoses
  | .tick ms => some { s with now := s.now + ms }
  | .start => some s.start
  | .refreshRooms => some { s with refreshing := s.refreshing + 1 }
  | .refreshed ok =>
    match s.refreshing with
    | 0 => none
    | n + 1 =>
      some (if ok then refreshTail cfg { s with refreshing := n } else { s with refreshing := n })
  | .nostrEvent via => some (s.nostrEvent via)
  | .published => some { s with publishedSinceCheck := s.publishedSinceCheck + 1 }
  | .onclose via sub reasons echoes =>
    if (via, sub) ∈ s.unclosed then some (s.onclose cfg reasons echoes via) else none
  | .checkSubscriptionHealth echoes =>
    some (s.checkSubscriptionHealth cfg (reenterLocal cfg echoes))
  | .stop echoes networkEchoes => some (s.stop cfg echoes networkEchoes)

end Firehoses

end LivelierBridge.Chat
