import LivelierBridge.Framework.OrderedMap
import LivelierBridge.Framework.Regex
import LivelierBridge.Js.Text

namespace LivelierBridge.Owncast

open Framework Js

/-- A literal text in a pattern. -/
def text (s : String) : Regex UInt16 := .chain ((js s).map fun u => .unit (· = u))

/-- A literal in lower case that matches either case. -/
def textI (s : String) : Regex UInt16 :=
  .chain ((js s).map fun u => .unit fun v => v = u || (97 ≤ u && u ≤ 122 && v = u - 32))

/-- Every unit but one, as often as possible. -/
def manyBut (c : Char) : Regex UInt16 := .many (· != UInt16.ofNat c.toNat)

def many1But (c : Char) : Regex UInt16 := .many1 (· != UInt16.ofNat c.toNat)

/-- `/<br\s*\/?>/gi` -/
def brRe : Regex UInt16 := .chain [textI "<br", .many isSpace, .opt (text "/"), text ">"]

/-- `/<\/p>\s*<p[^>]*>/gi` -/
def paragraphRe : Regex UInt16 :=
  .chain [textI "</p>", .many isSpace, textI "<p", manyBut '>', text ">"]

/-- `/<img[^>]*alt="([^"]*)"[^>]*>/gi` -/
def imgAltRe : Regex UInt16 :=
  .chain [textI "<img", manyBut '>', textI "alt=\"", .group (manyBut '"'), text "\"",
    manyBut '>', text ">"]

/-- `/<[^>]+>/g` -/
def tagRe : Regex UInt16 := .chain [text "<", many1But '>', text ">"]

/-- `/&#(\d+);/g` -/
def numericRe : Regex UInt16 := .chain [text "&#", .group (.many1 isDigit), text ";"]

/-- `/<img\b[^>]*>/gi` -/
def imgRe : Regex UInt16 := .chain [textI "<img", .boundary isWord, manyBut '>', text ">"]

/-- `/\salt="([^"]*)"/i` and `/\ssrc="([^"]*)"/i` -/
def attrRe (name : String) : Regex UInt16 :=
  .chain [.unit isSpace, textI name, text "=\"", .group (manyBut '"'), text "\""]

/-- `/^:([a-zA-Z0-9_-]+):$/` -/
def shortcodeRe : Regex UInt16 :=
  .chain [.start, text ":", .group (.many1 fun u => isWord u || u = 45), text ":", .stop]

/-- `NAMED_ENTITIES`, in their order. -/
def NAMED_ENTITIES : List (JsString × JsString) :=
  [(js "&amp;", js "&"), (js "&lt;", js "<"), (js "&gt;", js ">"), (js "&quot;", js "\""),
    (js "&#39;", js "'"), (js "&apos;", js "'"), (js "&nbsp;", js " ")]

/-- The text without its tags: breaks become newlines, images their alternative texts. -/
def stripTags (html : JsString) : JsString :=
  let broken := brRe.replace (fun _ => js "\n") html
  let parted := paragraphRe.replace (fun _ => js "\n") broken
  let imaged := imgAltRe.replace (fun m => m.captured.getD []) parted
  tagRe.replace (fun _ => []) imaged

def decodeNamed (s : JsString) : JsString :=
  NAMED_ENTITIES.foldl (fun s e => join e.2 (split e.1 s)) s

/-- The code point that a numeric character reference asks for. -/
def referenced (m : Regex.Match UInt16) : Nat := digitsValue (m.captured.getD [])

def decodeNumeric (s : JsString) : Except Thrown JsString :=
  numericRe.replaceM (fun m => fromCodePoint (referenced m)) s

/-- Strip tags and decode common entities. -/
def owncastHtmlToText (html : JsString) : Except Thrown JsString :=
  (decodeNumeric (decodeNamed (stripTags html))).map trim

/-- Every numeric character reference, as it stands once the named entities are decoded, asks
for a code point that exists. -/
def RefsInRange (html : JsString) : Prop :=
  ∀ m ∈ numericRe.hits (decodeNamed (stripTags html)), referenced m ≤ 0x10FFFF

instance (html : JsString) : Decidable (RefsInRange html) :=
  inferInstanceAs (Decidable (∀ m ∈ _, _))

theorem returns_fromCodePoint (n : Nat) : Returns (fromCodePoint n) ↔ n ≤ 0x10FFFF := by
  by_cases h : n ≤ 0x10FFFF
  · simp [fromCodePoint, h, returns_ok]
  · simp [fromCodePoint, h, not_returns_error]

theorem returns_owncastHtmlToText (html : JsString) :
    Returns (owncastHtmlToText html) ↔ RefsInRange html := by
  simp only [owncastHtmlToText, decodeNumeric, returns_map, Regex.returns_replaceM,
    returns_fromCodePoint, RefsInRange]

example : owncastHtmlToText (js "<p>hi <img src=\"/x.png\" alt=\":wave:\"> &amp; bye &lt;3</p>")
    = .ok (js "hi :wave: & bye <3") := by decide +kernel

structure ResolvedUrl where
  protocol : JsString
  href : JsString
  deriving DecidableEq

/-- `new URL(src, base)`; no result where it throws. -/
abbrev ResolveUrl := JsString → JsString → Option ResolvedUrl

structure SourceEmoji where
  shortcode : JsString
  imageUrl : JsString
  deriving DecidableEq

/-- The value of an attribute, empty where it is missing. -/
def attr (name : String) (img : JsString) : JsString :=
  (((attrRe name).firstMatch img).bind Regex.Match.captured).getD []

/-- Look at one image tag. -/
def seeImg (resolveUrl : ResolveUrl) (instanceUrl : JsString) (seen : OrderedMap JsString JsString)
    (img : JsString) : OrderedMap JsString JsString :=
  let alt := attr "alt" img
  let src := attr "src" img
  let shortcode := ((shortcodeRe.firstMatch alt).bind Regex.Match.captured).getD []
  if shortcode.isEmpty || src.isEmpty || seen.has shortcode then seen
  else
    match resolveUrl src instanceUrl with
    | none => seen
    | some url =>
      if url.protocol ≠ js "http:" ∧ url.protocol ≠ js "https:" then seen
      else seen.set shortcode url.href

/-- The custom emoji of a chat body, resolved against the instance. -/
def extractOwncastEmojis (resolveUrl : ResolveUrl) (html instanceUrl : JsString) :
    List SourceEmoji :=
  let imgs := (imgRe.hits html).map Regex.Match.text
  let seen := imgs.foldl (seeImg resolveUrl instanceUrl) OrderedMap.empty
  seen.entries.map fun e => ⟨e.1, e.2⟩

end LivelierBridge.Owncast
