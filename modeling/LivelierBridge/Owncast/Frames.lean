import LivelierBridge.Js.Json
import LivelierBridge.Js.Stringify
import LivelierBridge.Owncast.Html

namespace LivelierBridge.Owncast

open Framework Js

variable {ν : Type} [JsNumber ν]

/-- The JSON values of a raw frame; a line that is not JSON is ignored. -/
def parseOwncastFrames (data : JsString) : List (Json ν) :=
  (split (js "\n") data).filterMap fun line =>
    let trimmed := trim line
    if trimmed.isEmpty then none else jsonParse trimmed

/-- A listener of one instance, as a frame finds it. -/
structure Listener (ν : Type) where
  instanceUrl : JsString
  /-- The id that the listener registered, absent before. -/
  ownUserId : Option (Json ν)
  /-- The ids that the sender pool registered for the instance. -/
  owncastUserIds : List (Json ν)
  resolveUrl : ResolveUrl

/-- What the adapter hands on to the core. -/
inductive SourceEvent (ν : Type) where
  | message (userId displayName : Json ν) (text : JsString) (emojis : List SourceEmoji)
  | join (userId displayName : Json ν)

namespace Listener

variable (L : Listener ν)

/-- An id of the sender pool: its messages came from Nostr. -/
def isPooled (userId : Json ν) : Bool := L.owncastUserIds.any (·.same userId)

def isOwn (userId : Json ν) : Bool := L.ownUserId.any (·.same userId)

/-- The adapter's `chat` callback. -/
def onChat (userId displayName : Json ν) (body : JsString) :
    Except Thrown (Option (SourceEvent ν)) :=
  if L.isPooled userId then .ok none
  else (owncastHtmlToText body).map fun text =>
    if text.isEmpty then none
    else some (.message userId displayName text
      (extractOwncastEmojis L.resolveUrl body L.instanceUrl))

/-- The adapter's `join` callback. -/
def onJoin (userId displayName : Json ν) : Option (SourceEvent ν) :=
  if L.isPooled userId then none else some (.join userId displayName)

/-- `msg.user`, read as an object -/
def userId (user : Option (Json ν)) : Json ν := orElse (optionalProp user (js "id")) []

def displayName (user : Option (Json ν)) : Json ν :=
  orElse (optionalProp user (js "displayName")) (js "unknown")

/-- A property that is exactly this string. -/
def isText (v : Option (Json ν)) (s : String) : Bool := v.any (·.same (.str (js s)))

/-- The frames that concern somebody else. -/
def isForeign (user : Option (Json ν)) : Bool := (userId user).truthy && !L.isOwn (userId user)

/-- Handle one parsed message of a frame. -/
def handleMessage (msg : Json ν) : Except Thrown (Option (SourceEvent ν)) :=
  (msg.prop (js "user")).bind fun user =>
    if !L.isForeign user then .ok none
    else (msg.prop (js "type")).bind fun type =>
      if isText type "USER_JOINED" then .ok (L.onJoin (userId user) (displayName user))
      else if !isText type "CHAT" then .ok none
      else (msg.prop (js "body")).bind fun body =>
        (orElse body []).toStr.bind (L.onChat (userId user) (displayName user))

/-- Handle the messages in order; an error leaves the rest of the frame unhandled. -/
def handleMessages : List (Json ν) → List (SourceEvent ν) × Option Thrown
  | [] => ([], none)
  | msg :: msgs =>
    match L.handleMessage msg with
    | .error e => ([], some e)
    | .ok event =>
      let rest := handleMessages msgs
      (event.toList ++ rest.1, rest.2)

def handleFrame (data : JsString) : List (SourceEvent ν) × Option Thrown :=
  L.handleMessages (parseOwncastFrames data)

/-- What one message gives by itself; nothing when it is malformed. -/
def events (msg : Json ν) : List (SourceEvent ν) :=
  match L.handleMessage msg with
  | .error _ => []
  | .ok event => event.toList

/-- The frame is handled to its end and every message of it is emitted. -/
def FrameLaw (data : JsString) : Prop :=
  L.handleFrame data = ((parseOwncastFrames data).flatMap L.events, none)

/-- The user of a message that has one. -/
def memberOf (msg : Json ν) (key : String) : Option (Json ν) := optionalProp (some msg) (js key)

/-- A chat message of somebody other than the listener. -/
def IsChat (msg : Json ν) : Prop :=
  L.isForeign (memberOf msg "user") = true ∧ isText (memberOf msg "type") "CHAT" = true

/-- The line is not `null`; the body of a chat message converts to a string and, unless the
sender pool wrote it, asks for no code point beyond the last one. -/
def Harmless (msg : Json ν) : Prop :=
  msg ≠ .null ∧
    (L.IsChat msg → (orElse (memberOf msg "body") []).stringifiable = true ∧
      (L.isPooled (userId (memberOf msg "user")) = false →
        ∀ body, (orElse (memberOf msg "body") []).toStr = .ok body → RefsInRange body))

omit [JsNumber ν] in
theorem prop_of_ne_null {msg : Json ν} (h : msg ≠ .null) (key : String) :
    msg.prop (js key) = .ok (memberOf msg key) := by
  cases msg with
  | null => exact absurd rfl h
  | bool b | num n | str s | arr elems | obj members => rfl

theorem returns_onChat (userId displayName : Json ν) (body : JsString) :
    Returns (L.onChat userId displayName body) ↔
      (L.isPooled userId = false → RefsInRange body) := by
  cases h : L.isPooled userId with
  | true => simp [onChat, h, returns_ok]
  | false => simp [onChat, h, returns_map, returns_owncastHtmlToText]

theorem not_isText_of_isText {v : Option (Json ν)} (h : isText v "USER_JOINED" = true) :
    isText v "CHAT" = false := by
  cases v with
  | none => cases h
  | some v =>
    cases v with
    | str s =>
      obtain rfl : s = js "USER_JOINED" := by simpa [isText, Json.same] using h
      have hne : js "USER_JOINED" ≠ js "CHAT" := by decide
      simp [isText, Json.same, hne]
    | null | bool b | num n | arr elems | obj members => cases h

/-- One message is handled without an error exactly when it is harmless. -/
theorem returns_handleMessage (msg : Json ν) :
    Returns (L.handleMessage msg) ↔ L.Harmless msg := by
  by_cases hnull : msg = .null
  · subst hnull
    exact iff_of_false (not_returns_error _) fun h => h.1 rfl
  have hp := prop_of_ne_null hnull
  simp only [handleMessage, hp, Except.bind, Harmless, IsChat, ne_eq, hnull, not_false_eq_true,
    true_and]
  cases hf : L.isForeign (memberOf msg "user") with
  | false => simp [returns_ok]
  | true =>
    cases hj : isText (memberOf msg "type") "USER_JOINED" with
    | true => simp [not_isText_of_isText hj, returns_ok]
    | false =>
      cases hc : isText (memberOf msg "type") "CHAT" with
      | false => simp [returns_ok]
      | true =>
        -- only a chat message has its body converted and decoded
        have hb := returns_toStr (orElse (memberOf msg "body") [])
        have hr := returns_bind (orElse (memberOf msg "body") []).toStr
          (L.onChat (userId (memberOf msg "user")) (displayName (memberOf msg "user")))
        simp only [returns_onChat] at hr
        simp only [Bool.not_true, Bool.false_eq_true, if_false, ← hb, and_self, true_imp_iff]
        refine hr.trans ⟨?_, ?_⟩
        · rintro ⟨body, hbody, h⟩
          refine ⟨⟨body, hbody⟩, fun hpool body' hbody' => ?_⟩
          obtain rfl : body = body' := Except.ok.inj (hbody.symm.trans hbody')
          exact h hpool
        · rintro ⟨⟨body, hbody⟩, h⟩
          exact ⟨body, hbody, fun hpool => h hpool body hbody⟩

/-- The frame law holds of a list of messages exactly when each is handled without an error. -/
theorem handleMessages_eq_iff (msgs : List (Json ν)) :
    L.handleMessages msgs = (msgs.flatMap L.events, none) ↔
      ∀ msg ∈ msgs, Returns (L.handleMessage msg) := by
  induction msgs with
  | nil => simp [handleMessages]
  | cons msg msgs ih =>
    simp only [handleMessages, List.flatMap_cons, events, List.forall_mem_cons, ← ih]
    cases h : L.handleMessage msg with
    | error e => simp [not_returns_error]
    | ok event => simp [returns_ok, Prod.ext_iff]

/-- A frame is handled to its end, with every well-formed message of it emitted, exactly when
none of its lines is harmful. -/
theorem harmless_iff_frameLaw (data : JsString) :
    L.FrameLaw data ↔ ∀ msg ∈ parseOwncastFrames data, L.Harmless msg := by
  simp only [FrameLaw, handleFrame, handleMessages_eq_iff, returns_handleMessage]

end Listener

/-- Integers as the numbers of a run on concrete input. -/
instance integers : JsNumber Int where
  parse s := if s.head? = some 45 then -(digitsValue s.tail : Int) else digitsValue s
  print := intToString 10
  isZero n := n = 0
  same m n := m = n

def demoListener : Listener Int := ⟨js "https://oc.example", none, [], fun _ _ => none⟩

/-- A chat message behind a line that is only `null`. -/
def demoFrame : JsString :=
  js "null\n\x7b\"type\":\"CHAT\",\"user\":\x7b\"id\":\"u\"\x7d,\"body\":\"hi\"\x7d"

theorem frameLaw_fails_null_line : ¬ demoListener.FrameLaw demoFrame := by
  intro h
  have hthrown : (demoListener.handleFrame demoFrame).2 = some .typeError := by decide +kernel
  cases hthrown.symm.trans (congrArg Prod.snd h)

end LivelierBridge.Owncast
