import LivelierBridge.Js.String

namespace LivelierBridge.Nostr

open Js

/-- A Nostr event as it arrives from a relay. -/
structure Event where
  id : JsString
  pubkey : JsString
  created_at : Int
  kind : Int
  tags : List (List JsString)
  content : JsString
  sig : JsString
  deriving DecidableEq

/-- `tags.find(t => t[0] === name)?.[1]` -/
def tagValue (tags : List (List JsString)) (name : JsString) : Option JsString :=
  (tags.find? fun t => t[0]? = some name).bind fun t => t[1]?

end LivelierBridge.Nostr
