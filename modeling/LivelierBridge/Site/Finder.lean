import LivelierBridge.Discovery.Channel
import LivelierBridge.Discovery.KeyMessages
import LivelierBridge.Nostr.QueryAnswers

namespace LivelierBridge.Site

open Framework Js Nostr Discovery

/-- The two lower-case hex digits of a byte -/
def hexByte (b : UInt8) : JsString := [hexDigit (b.toNat / 16), hexDigit (b.toNat % 16)]

/-- The platform of the page, next to the runtime of the bridge; both have the same URLs and the same
hash. -/
structure Browser (R : Runtime) where
  /-- `new URL(text).hostname` -/
  hostname : JsString → JsString
  /-- `new URL(text).toString()` -/
  href : JsString → JsString
  /-- SHA-256 of the UTF-8 of a text. -/
  digest : JsString → List UInt8
  href_parses : ∀ text u, R.parseUrl text = some u → R.parseUrl (href text) = some u
  digest_hex : ∀ text, R.sha256Hex text = (digest text).flatMap hexByte

/-- `text.padStart(n, fill)` for a fill of one unit -/
def padStart (n : Nat) (fill : UInt16) (text : JsString) : JsString :=
  List.replicate (n - text.length) fill ++ text

def isLetter (u : UInt16) : Bool := (97 ≤ u && u ≤ 122) || (65 ≤ u && u ≤ 90)

/-- `/^[a-z]+:\/\//i` -/
def schemeRe : Regex UInt16 := .chain [.start, .many1 isLetter, Owncast.text "://"]

/-- The address that is read from what was typed. -/
def withScheme (trimmed : JsString) : JsString :=
  if (schemeRe.firstMatch trimmed).isSome then trimmed else js "https://" ++ trimmed

/-- What a query tells the page; `reached` when some relay has answered. -/
structure ReadResult where
  events : List Event
  reached : Bool

def fetchEvents (s : QueryRun) : ReadResult := ⟨s.events, 0 < s.eoseCount⟩

/-- `events.sort((a, b) => b.created_at - a.created_at)` -/
def newestFirst (events : List Event) : List Event :=
  events.insertionSort fun a b => b.created_at ≤ a.created_at

/-- The newest event under a d-tag, as a channel. -/
def fetchChannelByDTag (result : ReadResult) : Option Channel :=
  (newestFirst result.events).head?.map toChannel

/-- What the finder shows. -/
inductive FinderNote where
  /-- "That doesn't look like a web address" -/
  | notAnAddress
  /-- "Something went wrong asking the relay." -/
  | failed
  /-- "The relay could not be reached from your browser just now" -/
  | unknown (dTag : JsString)
  /-- "Nothing published for" -/
  | nothing (hostname dTag : JsString)
  | card (channel : Channel)

namespace Browser

variable {R : Runtime} (B : Browser R)

/-- Accept what a streamer would paste. -/
def coerceInstanceUrl (raw : JsString) : Option JsString :=
  let trimmed := trim raw
  if trimmed = [] then none
  else
    match R.parseUrl (withScheme trimmed) with
    | none => none
    | some _ =>
      if 46 ∈ B.hostname (withScheme trimmed) then some (B.href (withScheme trimmed)) else none

/-- The d-tag of an instance, recomputed in the browser. -/
def dTagFor (instanceUrl dTagPrefix : JsString) : Option JsString :=
  (normalizeInstanceUrl R instanceUrl).map fun normalized =>
    let hex := (B.digest normalized).flatMap fun b => padStart 2 48 (intToString 16 b.toNat)
    dTagPrefix ++ js "-" ++ hex.take 16

/-- What the finder shows for what was typed; `ask` is the answer for a d-tag, none where it
throws. -/
def lookup (dTagPrefix raw : JsString) (ask : JsString → Option ReadResult) : FinderNote :=
  match B.coerceInstanceUrl raw with
  | none => .notAnAddress
  | some url =>
    match B.dTagFor url dTagPrefix with
    | none => .failed
    | some dTag =>
      match ask dTag with
      | none => .failed
      | some result =>
        if !result.reached then .unknown dTag
        else
          match fetchChannelByDTag result with
          | none => .nothing (B.hostname url) dTag
          | some channel => .card channel

end Browser

/-! ### The d-tag -/

section DTag

variable {R : Runtime} {B : Browser R} {raw url : JsString}

theorem padStart_hex (b : UInt8) : padStart 2 48 (intToString 16 b.toNat) = hexByte b := by
  have hall : ∀ n : Fin 256, padStart 2 48 (intToString 16 (n.val : Int)) =
      [hexDigit (n.val / 16), hexDigit (n.val % 16)] := by
    decide +kernel
  exact hall ⟨b.toNat, b.toNat_lt⟩

/-- The page and the bridge have one d-tag for an instance. -/
theorem Browser.dTagFor_eq (B : Browser R) (url dTagPrefix : JsString) :
    B.dTagFor url dTagPrefix = Discovery.dTagFor R url dTagPrefix := by
  unfold Browser.dTagFor Discovery.dTagFor
  simp only [padStart_hex, B.digest_hex]

theorem coerceInstanceUrl_eq_some (h : B.coerceInstanceUrl raw = some url) :
    url = B.href (withScheme (trim raw)) ∧ (R.parseUrl url).isSome = true ∧
      normalizeInstanceUrl R url = normalizeInstanceUrl R (withScheme (trim raw)) := by
  unfold Browser.coerceInstanceUrl at h
  dsimp only at h
  split at h
  · cases h
  split at h
  · cases h
  rename_i u hu
  split at h
  · obtain rfl := Option.some.inj h
    have hparse := B.href_parses _ u hu
    refine ⟨rfl, by rw [hparse]; rfl, ?_⟩
    rw [normalizeInstanceUrl, normalizeInstanceUrl, hparse, hu]
  · cases h

/-- A coerced address has a d-tag: the one that the bridge gives to what was typed. -/
theorem dTag_of_coerced (h : B.coerceInstanceUrl raw = some url) (dTagPrefix : JsString) :
    ∃ dTag, B.dTagFor url dTagPrefix = some dTag ∧
      Discovery.dTagFor R (withScheme (trim raw)) dTagPrefix = some dTag := by
  obtain ⟨-, hparse, hnormal⟩ := coerceInstanceUrl_eq_some h
  obtain ⟨u, hu⟩ := Option.isSome_iff_exists.mp hparse
  have hdTag : ∃ dTag, Discovery.dTagFor R url dTagPrefix = some dTag := by
    simp [Discovery.dTagFor, normalizeInstanceUrl, hu]
  obtain ⟨dTag, hdTag⟩ := hdTag
  refine ⟨dTag, (B.dTagFor_eq url dTagPrefix).trans hdTag, ?_⟩
  rw [Discovery.dTagFor, ← hnormal]
  exact hdTag

end DTag

end LivelierBridge.Site
