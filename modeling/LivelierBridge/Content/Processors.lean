import LivelierBridge.Content.Pipeline
import LivelierBridge.Js.Stringify
import LivelierBridge.Nostr.Event

namespace LivelierBridge.Content

open Framework Js Nostr

/-- What `nip19.decode` returns, as far as it is read. -/
inductive Decoded where
  | npub (pubkey : JsString)
  | nprofile (pubkey : JsString)
  | other

/-- The answer of `getProfile`: the lookup fails, or there is no profile, or it has this name. -/
inductive Lookup (ν : Type) where
  | failed
  | missing
  | named (name : Json ν)

/-- What the processors call: bech32 decoding, profile lookups that may answer differently each
time, and the Unicode classes L, N and M. -/
structure Services (ν σ : Type) where
  decode : JsString → Option Decoded
  getProfile : JsString → σ → Lookup ν × σ
  isLetter : JsString → Bool

/-- `abridgeBech32Id` with its defaults. -/
def abridgeBech32Id (id : JsString) : JsString :=
  if id.isEmpty then id
  else
    let cleaned := if (js "nostr:").isPrefixOf id then id.drop 6 else id
    if cleaned.length ≤ 8 + 4 + 3 then cleaned
    else cleaned.take 8 ++ js "..." ++ cleaned.drop (cleaned.length - 4)

section Patterns

def isIdUnit (u : UInt16) : Bool := (97 ≤ u && u ≤ 122) || isDigit u

def isShortcodeUnit (u : UInt16) : Bool := isWord u || u = 45

/-- `/:([a-zA-Z0-9_-]+):/g` -/
def EMOJI_SHORTCODE_REGEX : Regex UInt16 :=
  .chain [.unit (· = 58), .group (.many1 isShortcodeUnit), .unit (· = 58)]

/-- `(nostr:)?(` and the kind of reference, then its characters `)` -/
def referenceRe (kind : String) (tail : List (Regex UInt16)) : Regex UInt16 :=
  .chain [.opt (.group (.literal (js "nostr:"))), .group (.chain (.literal (js kind) :: tail))]

/-- `/(nostr:)?(npub1[a-z0-9]{58})/g` -/
def NPUB_REGEX : Regex UInt16 := referenceRe "npub1" (List.replicate 58 (.unit isIdUnit))

/-- `/(nostr:)?(nprofile1[a-z0-9]+)/g` -/
def NPROFILE_REGEX : Regex UInt16 := referenceRe "nprofile1" [.many1 isIdUnit]

/-- `/(nostr:)?(note1[a-z0-9]{58,59})/g` -/
def NOTE_REGEX : Regex UInt16 :=
  referenceRe "note1" (List.replicate 58 (.unit isIdUnit) ++ [.opt (.unit isIdUnit)])

/-- `/(nostr:)?(nevent1[a-z0-9]+)/g` -/
def NEVENT_REGEX : Regex UInt16 := referenceRe "nevent1" [.many1 isIdUnit]

/-- `/(nostr:)?(naddr1[a-z0-9]+)/g` -/
def NADDR_REGEX : Regex UInt16 := referenceRe "naddr1" [.many1 isIdUnit]

/-- The characters of a text: surrogate pairs, and the units that are no part of one. -/
def characters : JsString → List JsString
  | [] => []
  | [u] => [[u]]
  | u :: v :: us =>
    if isLead u && isTrail v then [u, v] :: characters us else [u] :: characters (v :: us)

/-- The class of a URL's characters: `\w\p{L}\p{N}\p{M}` and the signs, of which `.` to `/` is a
range. -/
def isUrlCharacter (isLetter : JsString → Bool) (c : JsString) : Bool :=
  isLetter c || c.length = 1 && c.all fun u => isWord u || u ∈ js "&./?=#-@%+_,:!~*"

/-- `/(https?:\/\/[…]+)/gu`, over characters. -/
def URL_REGEX (isLetter : JsString → Bool) : Regex JsString :=
  .group (.chain [.literal (characters (js "http")), .opt (.literal (characters (js "s"))),
    .literal (characters (js "://")), .many1 (isUrlCharacter isLetter)])

/-- A piece over characters as pieces over units. -/
def pieceUnits : Regex.Piece JsString → List (Regex.Piece UInt16)
  | .lit c => c.map .lit
  | .hit m => [.hit ⟨m.text.flatten, m.captured.map List.flatten⟩]

def urlPieces (isLetter : JsString → Bool) (s : JsString) : List (Regex.Piece UInt16) :=
  ((URL_REGEX isLetter).pieces (characters s)).flatMap pieceUnits

end Patterns

section Processors

variable {ν σ : Type}

/-- A match that the processor leaves as it is. -/
def declined (matchText : JsString) : ProcessorResult ν := ⟨.str matchText, none⟩

/-- `/^[a-zA-Z0-9_-]+$/.test(shortcode)` -/
def isShortcode (shortcode : JsString) : Bool := !shortcode.isEmpty && shortcode.all isShortcodeUnit

/-- The emoji definitions of an event's tags; of two for one shortcode the later counts. -/
def extractEmojiDefinitions (event : Event) : OrderedMap JsString JsString :=
  event.tags.foldl (fun emojiMap tag =>
    match tag with
    | name :: shortcode :: imageUrl :: _ =>
      if name = js "emoji" && isShortcode shortcode && !(trim imageUrl).isEmpty then
        emojiMap.set shortcode (trim imageUrl)
      else emojiMap
    | [] | [_] | [_, _] => emojiMap) .empty

def emojiProcessor (event : Event) : ContentProcessor ν σ where
  id := js "emoji"
  priority := 5
  pattern := EMOJI_SHORTCODE_REGEX.pieces
  process m _ _ w :=
    let shortcode := m.captured.getD []
    match ((extractEmojiDefinitions event).get? shortcode).filter (· ≠ []) with
    | none => (declined m.text, w)
    | some imageUrl =>
      (⟨.str m.text, some (.obj [(js "type", .str (js "emoji")), (js "originalText", .str m.text),
        (js "shortcode", .str shortcode), (js "imageUrl", .str imageUrl),
        (js "altText", .str shortcode)])⟩, w)

/-- The metadata of a mention. -/
def mention (matchText pubkey : JsString) (name : Json ν) : Json ν :=
  .obj [(js "type", .str (js "mention")), (js "originalText", .str matchText),
    (js "pubkey", .str pubkey), (js "name", name)]

variable [JsNumber ν] (lib : Services ν σ)

/-- The name to display, with an `@` before it unless there is one; no result where the name
cannot be converted. -/
def displayText (hasAtSymbol : Bool) (name : Json ν) : Option (Json ν) :=
  if hasAtSymbol then some name
  else
    match name.toStr with
    | .ok s => some (.str (js "@" ++ s))
    | .error _ => none

/-- The mention of a pubkey, by its profile's name or by its abridged reference. -/
def processMention (ref pubkey matchText : JsString) (offset : Nat) (fullContent : JsString)
    (w : σ) : ProcessorResult ν × σ :=
  let hasAtSymbol := 0 < offset && fullContent[offset - 1]? = some 64
  let abridged : Json ν := .str (abridgeBech32Id ref)
  let fallback : ProcessorResult ν := ⟨abridged, some (mention matchText pubkey abridged)⟩
  let (answer, w') := lib.getProfile pubkey w
  match answer with
  | .failed | .missing => (fallback, w')
  | .named name =>
    if name.truthy then
      match displayText hasAtSymbol name with
      | none => (fallback, w')
      | some displayed => (⟨displayed, some (mention matchText pubkey name)⟩, w')
    else (fallback, w')

def npubProcessor : ContentProcessor ν σ where
  id := js "npub"
  priority := 5
  pattern := NPUB_REGEX.pieces
  process m offset fullContent w :=
    let npub := m.captured.getD []
    match lib.decode npub with
    | some (.npub pubkey) => processMention lib npub pubkey m.text offset fullContent w
    | none | some (.nprofile _) | some .other => (declined m.text, w)

def nprofileProcessor : ContentProcessor ν σ where
  id := js "nprofile"
  priority := 0
  pattern := NPROFILE_REGEX.pieces
  process m offset fullContent w :=
    let nprofile := m.captured.getD []
    match lib.decode nprofile with
    | some (.nprofile pubkey) => processMention lib nprofile pubkey m.text offset fullContent w
    | none | some (.npub _) | some .other => (declined m.text, w)

/-- The metadata of a link. -/
def link (matchText url : JsString) : Json ν :=
  .obj [(js "type", .str (js "url")), (js "originalText", .str matchText), (js "url", .str url)]

def urlProcessor : ContentProcessor ν σ where
  id := js "url"
  priority := 10
  pattern := urlPieces lib.isLetter
  process m _ _ w := (⟨.str m.text, some (link m.text m.text)⟩, w)

/-- A processor that links an event reference to njump.me. -/
def njumpProcessor (id : String) (re : Regex UInt16) : ContentProcessor ν σ where
  id := js id
  priority := 0
  pattern := re.pieces
  process m _ _ w :=
    let ref := m.captured.getD []
    (⟨.str (abridgeBech32Id ref), some (link m.text (js "https://njump.me/" ++ ref))⟩, w)

def noteProcessor : ContentProcessor ν σ := njumpProcessor "note" NOTE_REGEX

def neventProcessor : ContentProcessor ν σ := njumpProcessor "nevent" NEVENT_REGEX

def naddrProcessor : ContentProcessor ν σ := njumpProcessor "naddr" NADDR_REGEX

/-- The processors of a message's content, in the order they are asked for. -/
def displayProcessors (event : Event) : List (ContentProcessor ν σ) :=
  [emojiProcessor event, npubProcessor lib, nprofileProcessor lib, urlProcessor lib, noteProcessor,
    neventProcessor, naddrProcessor]

/-- `processMessageForDisplay`, for a message that is neither a zap receipt nor a reaction. -/
def processMessageForDisplay (event : Event) (w : σ) :
    Except Thrown (ProcessedContent ν) × σ :=
  let content := trim event.content
  if content.isEmpty then (.ok ⟨[], []⟩, w) else processContent (displayProcessors lib event) content w

end Processors

end LivelierBridge.Content
