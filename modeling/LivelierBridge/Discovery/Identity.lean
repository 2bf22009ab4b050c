import LivelierBridge.Js.Stringify
import LivelierBridge.Js.Text

namespace LivelierBridge.Discovery

open Js

/-- What `new URL(text)` gives. -/
structure UrlParts where
  protocol : JsString
  host : JsString
  pathname : JsString

/-- The library code under the bridge's identities. -/
structure Runtime where
  /-- `new URL(text)`; no result where it throws. -/
  parseUrl : JsString → Option UrlParts
  /-- SHA-256 of the text, in hex. -/
  sha256Hex : JsString → JsString
  /-- The public key to HMAC-SHA256 of a secret and a message. -/
  derivedPubkey : JsString → JsString → JsString
  /-- `Date.parse(text)`; no result for NaN. -/
  parseDate : JsString → Option Int

/-- `path.replace(/\/+$/, '')` -/
def stripTrailingSlashes (path : JsString) : JsString :=
  (path.reverse.dropWhile (· = 47)).reverse

/-- One spelling for the spellings of a URL; it throws on a text that is no URL. -/
def normalizeInstanceUrl (R : Runtime) (rawUrl : JsString) : Option JsString :=
  (R.parseUrl rawUrl).map fun u =>
    toLowerCase u.protocol ++ js "//" ++ toLowerCase u.host ++ stripTrailingSlashes u.pathname

/-- The public key of an instance's derived signer. -/
def instanceSigner (R : Runtime) (instanceUrl secret sourceKey : JsString) : Option JsString :=
  (normalizeInstanceUrl R instanceUrl).map fun url =>
    R.derivedPubkey secret (sourceKey ++ js ":" ++ url)

/-- The d-tag of an instance. -/
def dTagFor (R : Runtime) (instanceUrl dTagPrefix : JsString) : Option JsString :=
  (normalizeInstanceUrl R instanceUrl).map fun url =>
    dTagPrefix ++ js "-" ++ (R.sha256Hex url).take 16

/-- The short hash that gates the republishing of a profile. -/
def profileHash (R : Runtime) (content : JsString) : JsString := (R.sha256Hex content).take 16

structure BridgedProfileInput where
  name : JsString
  description : JsString
  picture : JsString
  website : JsString
  sourceName : JsString
  deriving DecidableEq

/-- The kind-0 content of a bridged instance. -/
def buildBridgedProfileContent (input : BridgedProfileInput) : JsString :=
  let attribution := js "Bridged from " ++ input.sourceName ++ js " by https://livelier.live"
  let about :=
    if input.description.isEmpty then attribution
    else input.description ++ js "\n\n" ++ attribution
  jsonObject [(js "name", quote input.name), (js "display_name", quote input.name),
    (js "about", quote about), (js "picture", quote input.picture),
    (js "website", quote input.website), (js "bot", js "true")]

end LivelierBridge.Discovery
