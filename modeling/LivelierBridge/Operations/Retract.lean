import LivelierBridge.Boot
import LivelierBridge.Discovery.HostKeys
import LivelierBridge.Discovery.KeyMessages
import LivelierBridge.Discovery.OptOut

namespace LivelierBridge.Operations

open Framework Js Nostr Discovery

/-- The relays that the script writes to. -/
structure RetractRelays where
  eventRelay : JsString
  profileRelays : List JsString

/-- The script's own reading of the relay settings; it throws where a relay is missing. -/
def relayConfig (env : Env) : Option RetractRelays :=
  let localRelay := orValue (env (js "LOCAL_RELAY_URL")) []
  let eventRelay := orValue (env (js "EVENT_RELAY_URL")) localRelay
  let chatRelay := orValue (env (js "CHAT_RELAY_URL")) localRelay
  let publishEnabled := env (js "NETWORK_PROFILE_PUBLISH_ENABLED") = some (js "true") ||
    env (js "NETWORK_PROFILE_PUBLISH_ENABLED") = some (js "1")
  let networkWrites := ((split (js ",")
    (orValue (env (js "NETWORK_PROFILE_WRITE_RELAYS")) [])).map trim).filter (· ≠ [])
  if eventRelay = [] ∨ chatRelay = [] then none
  else
    some ⟨eventRelay,
      if publishEnabled then
        dedupe (chatRelay :: if networkWrites = [] then [js "wss://purplepag.es"] else networkWrites)
      else [chatRelay]⟩

section Keys

variable (R : Runtime) (nsecPubkey : JsString → Option JsString)

/-- The script's own derivation of an instance's key, by its public key -/
def deriveInstanceKey (instanceUrl secret ns : JsString) : Option JsString :=
  if secret = [] then none
  else (R.parseUrl instanceUrl).map fun u => R.derivedPubkey secret (ns ++ js ":" ++
    (toLowerCase u.protocol ++ js "//" ++ toLowerCase u.host ++ stripTrailingSlashes u.pathname))

/-- The script's own bridge key; `nsecPubkey` reads an nsec, and has no value where that throws. -/
def bridgeKey (env : Env) : Option JsString :=
  match orNull (env (js "BRIDGE_NSEC")) with
  | some nsec => nsecPubkey nsec
  | none =>
    let secret := (env (js "BRIDGE_KEY_SECRET")).getD []
    if secret = [] then none else some (R.derivedPubkey secret bridgeIdentityMessage)

end Keys

/-- An event that the script signs -/
structure ScriptEvent where
  signer : JsString
  kind : Nat
  content : JsString
  tags : List (List JsString)

def deletion (bridge dTag : JsString) : ScriptEvent :=
  ⟨bridge, 5, js "instance opted out of bridging",
    [[js "a", js "30311:" ++ bridge ++ js ":" ++ dTag], [js "k", js "30311"]]⟩

def blankProfile (key : JsString) : ScriptEvent := ⟨key, 0, js "{}", []⟩

def blankRelayList (key : JsString) : ScriptEvent := ⟨key, 10002, [], []⟩

/-- Where a confirmed script is suspended. -/
inductive RetractStage where
  | deleting (bridge : JsString)
  | blanking (key : JsString)
  | unlisting (key : JsString)
  /-- The await of the UPDATE -/
  | marking
  | done
  | failed
  deriving DecidableEq

/-- A confirmed run of the script; the last two fields are for the statements. -/
structure Retraction (ν : Type) where
  url : JsString
  /-- The row as it was read -/
  row : InstanceRow ν
  relays : RetractRelays
  sent : List (ScriptEvent × RelayResults)
  stage : RetractStage
  /-- How many calls the worker had made when the script read the row -/
  since : Nat
  /-- Discovery was switched on for the instance in the meantime. -/
  reopened : Bool

/-- The stored instances under the worker and the operator's scripts -/
structure OperatedDb (ν : Type) where
  db : DiscoveryState ν
  retractions : List (Retraction ν)

inductive OperatorAction (ν : Type) where
  | cycle (payload : Option (Json ν)) (live : JsString → LiveAnswers ν) (answers : CycleAnswers ν)
  | addManual (url : JsString) (row : InstanceRow ν)
  /-- `set-discovery.mjs`, confirmed -/
  | setDiscovery (url : JsString) (enabled : Bool)
  /-- `set-chat.mjs`, confirmed -/
  | setChat (url : JsString) (enabled : Bool)
  /-- `retract-instance.mjs`, confirmed, up to its first publish -/
  | retract (url : JsString)
  /-- The relays answer a publish of the script with this number. -/
  | answered (n : Nat) (accepts : JsString → Bool)
  /-- The UPDATE of the script with this number answers, or rejects. -/
  | marked (n : Nat) (ok : Bool)

variable {ν : Type}

/-- What the script tells when it is done -/
def retractedRow (row : InstanceRow ν) : InstanceRow ν :=
  { row with lastPublishedAt := none, profileHash := none, status := .ended }

namespace Retraction

variable (r : Retraction ν)

/-- `publishToAll` comes back with an answer for each relay. -/
def tell (event : ScriptEvent) (relayUrls : List JsString) (accepts : JsString → Bool)
    (stage : RetractStage) : Retraction ν :=
  { r with sent := r.sent ++ [(event, relayUrls.map fun url => (url, accepts url))], stage := stage }

/-- Each of the publishes was accepted by some relay. -/
def accepted : Bool := r.sent.all fun e => anyRelayAccepted e.2

/-- The script goes on after a publish. -/
def answered (R : Runtime) (env : Env) (accepts : JsString → Bool) : Option (Retraction ν) :=
  match r.stage with
  | .deleting bridge =>
    let stage := match deriveInstanceKey R r.url ((env (js "BRIDGE_KEY_SECRET")).getD []) r.row.source with
      | some key => RetractStage.blanking key
      | none => .failed
    some (r.tell (deletion bridge r.row.dTag) [r.relays.eventRelay] accepts stage)
  | .blanking key =>
    some (r.tell (blankProfile key) r.relays.profileRelays accepts (.unlisting key))
  | .unlisting key =>
    let r := r.tell (blankRelayList key) r.relays.profileRelays accepts .marking
    some (if r.accepted then r else { r with stage := .failed })
  | .marking | .done | .failed => none

end Retraction

namespace OperatedDb

def init : OperatedDb ν := ⟨.init, []⟩

def setRow (s : OperatedDb ν) (url : JsString) (f : InstanceRow ν → InstanceRow ν) : OperatedDb ν :=
  match s.db.table.get? url with
  | some row => { s with db := { s.db with table := s.db.table.set url (f row) } }
  | none => s

def setRetraction (s : OperatedDb ν) (n : Nat) (r : Retraction ν) : OperatedDb ν :=
  { s with retractions := s.retractions.set n r }

variable (R : Runtime) (nsecPubkey : JsString → Option JsString) (env : Env)

/-- The script reads its settings and the row; it ends here where something is missing, and while
discovery is on. -/
def retract (s : OperatedDb ν) (url : JsString) : OperatedDb ν :=
  match relayConfig env, s.db.table.get? url, bridgeKey R nsecPubkey env with
  | some relays, some row, some bridge =>
    if row.discoveryEnabled then s
    else
      { s with
        retractions := s.retractions ++
          [⟨url, row, relays, [], .deleting bridge, s.db.history.length, false⟩] }
  | _, _, _ => s

variable [DecidableEq ν] [JsNumber ν]

/-- One step of the stored instances; rows are added by hand under the identity that the engine
derives. -/
def step (E : Engine) (s : OperatedDb ν) : OperatorAction ν → Option (OperatedDb ν)
  | .cycle payload live answers =>
    some { s with db := E.runCycle (E.cycleOn payload live answers) s.db }
  | .addManual url row =>
    match E.identityOf url with
    | none => none
    | some id =>
      if s.db.table.has url then none
      else
        let table := s.db.table.set url (SharedDb.addedRow row id)
        some { s with db := { s.db with table := table } }
  | .setDiscovery url enabled =>
    let reopen (r : Retraction ν) : Retraction ν :=
      { r with reopened := r.reopened || (enabled && r.url = url) }
    some { s.setRow url fun row => { row with discoveryEnabled := enabled } with
      retractions := s.retractions.map reopen }
  | .setChat url enabled => some (s.setRow url fun row => { row with chatEnabled := enabled })
  | .retract url => some (s.retract R nsecPubkey env url)
  | .answered n accepts =>
    match s.retractions[n]? with
    | none => none
    | some r => (r.answered R env accepts).map (s.setRetraction n)
  | .marked n ok =>
    match s.retractions[n]? with
    | none => none
    | some r =>
      if r.stage = .marking then
        if ok then some ((s.setRow r.url retractedRow).setRetraction n { r with stage := .done })
        else some (s.setRetraction n { r with stage := .failed })
      else none

end OperatedDb

section Mirrors

variable {μ : Type} [NatCast μ] {number : JsString → Option μ} {env : Env} {config : BridgeConfig μ}
  {R : Runtime} {nsecPubkey : JsString → Option JsString}

end Mirrors

end LivelierBridge.Operations
