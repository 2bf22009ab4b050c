import Mathlib.Data.List.Sort
import LivelierBridge.Framework.RegexSearch
import LivelierBridge.Js.Json

namespace LivelierBridge.Content

open Framework Js

/-- A token of processed content; only a token that a processor has made carries metadata. -/
structure ContentToken (ν : Type) where
  type : JsString
  value : Json ν
  metadata : Option (Json ν)

structure ProcessorResult (ν : Type) where
  result : Json ν
  metadata : Option (Json ν)

/-- An in-content processor. Its pattern cuts a text at the matches of a global search; its
`process` gets the match, the offset, the whole text, and the world that its lookups ask. -/
structure ContentProcessor (ν σ : Type) where
  id : JsString
  priority : Nat
  pattern : JsString → List (Regex.Piece UInt16)
  process : Regex.Match UInt16 → Nat → JsString → σ → ProcessorResult ν × σ

structure ProcessedContent (ν : Type) where
  text : JsString
  tokens : List (ContentToken ν)

section Pipeline

variable {ν σ : Type}

def textToken (s : JsString) : ContentToken ν := ⟨js "text", .str s, none⟩

/-- The text of a text token, which is always a string. -/
def ContentToken.text? (token : ContentToken ν) : Option JsString :=
  match token.value with
  | .str s => if token.type = js "text" then some s else none
  | .null | .bool _ | .num _ | .arr _ | .obj _ => none

/-- `result.metadata.type || 'unknown'` -/
def typeOf (metadata : Json ν) : JsString :=
  match optionalProp (some metadata) (js "type") with
  | some (.str s) => orText s (js "unknown")
  | none | some .null | some (.bool _) | some (.num _) | some (.arr _) | some (.obj _) =>
    js "unknown"

/-- The token of a processed match. -/
def resultToken (r : ProcessorResult ν) : ContentToken ν :=
  match r.metadata with
  | some metadata => ⟨typeOf metadata, r.result, some metadata⟩
  | none => ⟨js "text", r.result, none⟩

/-- The text between two matches, if there is any. -/
def between (s : JsString) : List (ContentToken ν) := if s.isEmpty then [] else [textToken s]

variable (P : ContentProcessor ν σ)

/-- The match loop, from an offset on: `before` is the text since the last match, backwards. -/
def matchLoop (full : JsString) :
    List (Regex.Piece UInt16) → Nat → JsString → σ → List (ContentToken ν) × σ
  | [], _, before, w => (between before.reverse, w)
  | .lit x :: ps, offset, before, w => matchLoop full ps (offset + 1) (x :: before) w
  | .hit m :: ps, offset, before, w =>
    let (r, w') := P.process m offset full w
    let (rest, w'') := matchLoop full ps (offset + m.text.length) [] w'
    (between before.reverse ++ resultToken r :: rest, w'')

/-- Split one token at the processor's matches. -/
def processToken (token : ContentToken ν) (w : σ) : List (ContentToken ν) × σ :=
  match token.text? with
  | none => ([token], w)
  | some s =>
    let pieces := P.pattern s
    if (pieces.filterMap Regex.Piece.hit?).isEmpty then ([token], w)
    else matchLoop P s pieces 0 [] w

/-- One processor over all tokens. -/
def processTokens : List (ContentToken ν) → σ → List (ContentToken ν) × σ
  | [], w => ([], w)
  | token :: tokens, w =>
    let (out, w') := processToken P token w
    let (rest, w'') := processTokens tokens w'
    (out ++ rest, w'')

variable {P} (Ps : List (ContentProcessor ν σ))

/-- The processors one after the other. -/
def runProcessors :
    List (ContentProcessor ν σ) → List (ContentToken ν) → σ → List (ContentToken ν) × σ
  | [], tokens, w => (tokens, w)
  | P :: Ps, tokens, w =>
    let (tokens', w') := processTokens P tokens w
    runProcessors Ps tokens' w'

/-- Higher priority first; the sort is stable. -/
def byPriority : List (ContentProcessor ν σ) := Ps.insertionSort fun P Q => Q.priority ≤ P.priority

def processContent [JsNumber ν] (content : JsString) (w : σ) :
    Except Thrown (ProcessedContent ν) × σ :=
  let (tokens, w') := runProcessors (byPriority Ps) [textToken content] w
  ((elementStrs (tokens.map ContentToken.value)).map fun values => ⟨values.flatten, tokens⟩, w')

end Pipeline

end LivelierBridge.Content
