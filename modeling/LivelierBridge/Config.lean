import LivelierBridge.Containment
import LivelierBridge.Js.Text

namespace LivelierBridge

open Framework Js Nostr Discovery Chat

/-- The environment of the process; a variable that is not set has no value. -/
abbrev Env := JsString → Option JsString

def NETWORK_PROFILE_WRITE_RELAYS : List JsString := [js "wss://purplepag.es"]

def NETWORK_CHAT_READ_RELAYS : List JsString :=
  [js "wss://purplepag.es", js "wss://relay.nostr.net", js "wss://nostrelites.org",
    js "wss://nostr.wine", js "wss://relay.primal.net", js "wss://nos.lol",
    js "wss://relay.snort.social"]

/-- Settings shared by every source; `ν` are the numbers. -/
structure CoreSettings (ν : Type) where
  bridgeName : JsString
  bridgeNsec : Option JsString
  localRelayUrl : JsString
  eventRelayUrl : JsString
  chatRelayUrl : JsString
  bridgeKeySecret : JsString
  databaseUrl : JsString
  chatExpirationSeconds : ν
  demandUrl : Option JsString
  demandAuthToken : Option JsString
  demandPollIntervalMs : ν
  networkProfilePublishEnabled : Bool
  networkChatReadEnabled : Bool
  networkProfileWriteRelays : List JsString
  networkChatReadRelays : List JsString

/-- The settings of the Owncast source -/
structure OwncastSourceConfig (ν : Type) where
  enabled : Bool
  discoveryEnabled : Bool
  directoryUrl : JsString
  pollIntervalMs : ν
  republishIntervalMs : ν
  snapshotIntervalMs : ν
  hlsTimeoutMs : ν
  maxConsecutiveFailures : ν
  chatToNostr : Bool
  chatFromNostr : Bool
  defaultDiscoveryEnabled : Bool
  defaultChatEnabled : Bool

structure BridgeConfig (ν : Type) where
  core : CoreSettings ν
  owncast : OwncastSourceConfig ν

/-- `value || fallback` of a variable -/
def orValue (value : Option JsString) (fallback : JsString) : JsString :=
  orText (value.getD []) fallback

/-- `value || null` of a variable -/
def orNull (value : Option JsString) : Option JsString := value.filter (· ≠ [])

@[simp] theorem orNull_none : orNull none = none := rfl

@[simp] theorem orNull_empty : orNull (some []) = none := rfl

theorem orNull_some {text : JsString} (h : text ≠ []) : orNull (some text) = some text := by
  simp [orNull, Option.filter_some, h]

def boolFromEnv (value : Option JsString) (fallback : Bool) : Bool :=
  match orNull value with
  | none => fallback
  | some text => text = js "true" || text = js "1"

/-- The items of a comma-separated list, if there are any. -/
def listFromEnv (value : Option JsString) : Option (List JsString) :=
  match orNull value with
  | none => none
  | some text =>
    let items := ((split (js ",") text).map trim).filter (· ≠ [])
    if items = [] then none else some items

section Numbers

variable {ν : Type}

/-- `number` is `Number(text)` where that is finite and positive; it has no value elsewhere. -/
def intFromEnv (number : JsString → Option ν) (value : Option JsString) (fallback : ν) : ν :=
  (value.bind number).getD fallback

variable [NatCast ν]

/-- Settings that must be there -/
def requiredEnv : List JsString := [js "BRIDGE_KEY_SECRET", js "DATABASE_URL", js "LOCAL_RELAY_URL"]

def missingEnv (env : Env) : List JsString :=
  requiredEnv.filter fun name => (env name).getD [] = []

/-- Resolve the configuration, or name what is missing. -/
def loadConfig (number : JsString → Option ν) (env : Env) : Except JsString (BridgeConfig ν) :=
  let missing := missingEnv env
  if missing ≠ [] then .error (js "Missing required env: " ++ join (js ", ") missing)
  else
    let localRelayUrl := (env (js "LOCAL_RELAY_URL")).getD []
    let int (name : String) (fallback : Nat) : ν := intFromEnv number (env (js name)) fallback
    .ok {
      core := {
        bridgeName := (env (js "BRIDGE_NAME")).getD (js "Livelier")
        bridgeNsec := env (js "BRIDGE_NSEC")
        localRelayUrl := localRelayUrl
        eventRelayUrl := orValue (env (js "EVENT_RELAY_URL")) localRelayUrl
        chatRelayUrl := orValue (env (js "CHAT_RELAY_URL")) localRelayUrl
        bridgeKeySecret := (env (js "BRIDGE_KEY_SECRET")).getD []
        databaseUrl := (env (js "DATABASE_URL")).getD []
        chatExpirationSeconds := int "CHAT_EXPIRATION_SECONDS" (3 * 60 * 60)
        demandUrl := orNull (env (js "DEMAND_URL"))
        demandAuthToken := orNull (env (js "DEMAND_AUTH_TOKEN"))
        demandPollIntervalMs := int "DEMAND_POLL_INTERVAL_MS" 10000
        networkProfilePublishEnabled :=
          boolFromEnv (env (js "NETWORK_PROFILE_PUBLISH_ENABLED")) false
        networkChatReadEnabled := boolFromEnv (env (js "NETWORK_CHAT_READ_ENABLED")) false
        networkProfileWriteRelays :=
          (listFromEnv (env (js "NETWORK_PROFILE_WRITE_RELAYS"))).getD NETWORK_PROFILE_WRITE_RELAYS
        networkChatReadRelays :=
          (listFromEnv (env (js "NETWORK_CHAT_READ_RELAYS"))).getD NETWORK_CHAT_READ_RELAYS }
      owncast := {
        enabled := boolFromEnv (env (js "OWNCAST_ENABLED")) true
        discoveryEnabled := boolFromEnv (env (js "OWNCAST_DISCOVERY_ENABLED")) true
        directoryUrl :=
          (env (js "OWNCAST_DIRECTORY_URL")).getD (js "https://owncast.directory/api/home")
        pollIntervalMs := int "OWNCAST_POLL_INTERVAL_MS" 60000
        republishIntervalMs := int "OWNCAST_REPUBLISH_INTERVAL_MS" (15 * 60000)
        snapshotIntervalMs := int "OWNCAST_SNAPSHOT_INTERVAL_MS" (60 * 60000)
        hlsTimeoutMs := int "OWNCAST_HLS_TIMEOUT_MS" 10000
        maxConsecutiveFailures := int "OWNCAST_MAX_CONSECUTIVE_FAILURES" 3
        chatToNostr := boolFromEnv (env (js "OWNCAST_CHAT_TO_NOSTR")) false
        chatFromNostr := boolFromEnv (env (js "OWNCAST_CHAT_FROM_NOSTR")) false
        defaultDiscoveryEnabled := boolFromEnv (env (js "OWNCAST_DEFAULT_DISCOVERY_ENABLED")) true
        defaultChatEnabled := boolFromEnv (env (js "OWNCAST_DEFAULT_CHAT_ENABLED")) false } }

end Numbers

end LivelierBridge
