import LivelierBridge.Framework.OrderedMap
import LivelierBridge.Framework.Regex
import LivelierBridge.Js.Text

namespace LivelierBridge.Js

open Framework

/-- What the runtime does with the numbers that JSON can write. -/
class JsNumber (ν : Type) where
  /-- The number that a JSON number text denotes. -/
  parse : JsString → ν
  /-- `String(n)` -/
  print : ν → JsString
  /-- `n === 0` -/
  isZero : ν → Bool
  /-- `m === n` -/
  same : ν → ν → Bool

/-- A parsed JSON value; an object's members stand under distinct keys. -/
inductive Json (ν : Type) where
  | null
  | bool (b : Bool)
  | num (n : ν)
  | str (s : JsString)
  | arr (elems : List (Json ν))
  | obj (members : List (JsString × Json ν))

inductive Token where
  | open (brace : Bool)
  | close (brace : Bool)
  | comma
  | colon
  | null
  | bool (b : Bool)
  | num (text : JsString)
  | str (s : JsString)
  deriving DecidableEq

/-- What the scanner is inside of; texts are held backwards. -/
inductive Lexing where
  | idle
  | string (acc : JsString)
  | escape (acc : JsString)
  | unicode (acc : JsString) (left value : Nat)
  | number (acc : JsString)
  | word (acc : JsString)
  deriving DecidableEq

def isJsonSpace (u : UInt16) : Bool := u = 0x20 || u = 9 || u = 10 || u = 13

/-- A unit that can stand in a number once it has begun. -/
def isNumberUnit (u : UInt16) : Bool := isDigit u || u = 43 || u = 45 || u = 46 || u = 69 || u = 101

def isLower (u : UInt16) : Bool := 97 ≤ u && u ≤ 122

def hexValue (u : UInt16) : Option Nat :=
  if isDigit u then some (u.toNat - 48)
  else if 65 ≤ u && u ≤ 70 then some (u.toNat - 55)
  else if 97 ≤ u && u ≤ 102 then some (u.toNat - 87)
  else none

def unitIs (u : UInt16) : Regex UInt16 := .unit (· = u)

/-- The JSON number grammar. -/
def numberRe : Regex UInt16 :=
  .chain [.start, .opt (unitIs 45),
    .alt (unitIs 48) (.seq (.unit fun u => isDigit u && u != 48) (.many isDigit)),
    .opt (.seq (unitIs 46) (.many1 isDigit)),
    .opt (.chain [.unit fun u => u = 69 || u = 101, .opt (.unit fun u => u = 43 || u = 45),
      .many1 isDigit]),
    .stop]

/-- The token of a number text. -/
def numberToken (text : JsString) : Option Token :=
  (numberRe.matchAt none text).map fun _ => .num text

/-- The token of a bare word. -/
def wordToken (text : JsString) : Option Token :=
  if text = js "null" then some .null
  else if text = js "true" then some (.bool true)
  else if text = js "false" then some (.bool false)
  else none

/-- Read one unit between tokens. -/
def lexIdle (toks : List Token) (u : UInt16) : Option (Lexing × List Token) :=
  if isJsonSpace u then some (.idle, toks)
  else if u = 0x7B then some (.idle, .open true :: toks)
  else if u = 0x7D then some (.idle, .close true :: toks)
  else if u = 0x5B then some (.idle, .open false :: toks)
  else if u = 0x5D then some (.idle, .close false :: toks)
  else if u = 0x2C then some (.idle, .comma :: toks)
  else if u = 0x3A then some (.idle, .colon :: toks)
  else if u = 0x22 then some (.string [], toks)
  else if isDigit u || u = 45 then some (.number [u], toks)
  else if isLower u then some (.word [u], toks)
  else none

/-- The unit that a one-letter escape stands for. -/
def escaped (u : UInt16) : Option UInt16 :=
  if u = 0x22 || u = 0x5C || u = 0x2F then some u
  else if u = 98 then some 8
  else if u = 102 then some 12
  else if u = 110 then some 10
  else if u = 114 then some 13
  else if u = 116 then some 9
  else none

def lexStep : Lexing × List Token → UInt16 → Option (Lexing × List Token)
  | (.idle, toks), u => lexIdle toks u
  | (.string acc, toks), u =>
    if u = 0x22 then some (.idle, .str acc.reverse :: toks)
    else if u = 0x5C then some (.escape acc, toks)
    else if u < 0x20 then none
    else some (.string (u :: acc), toks)
  | (.escape acc, toks), u =>
    if u = 117 then some (.unicode acc 3 0, toks)
    else (escaped u).map fun v => (.string (v :: acc), toks)
  | (.unicode acc left value, toks), u =>
    (hexValue u).map fun d =>
      match left with
      | 0 => (.string (UInt16.ofNat (16 * value + d) :: acc), toks)
      | n + 1 => (.unicode acc n (16 * value + d), toks)
  | (.number acc, toks), u =>
    if isNumberUnit u then some (.number (u :: acc), toks)
    else (numberToken acc.reverse).bind fun t => lexIdle (t :: toks) u
  | (.word acc, toks), u =>
    if isLower u then some (.word (u :: acc), toks)
    else (wordToken acc.reverse).bind fun t => lexIdle (t :: toks) u

/-- The tokens of a whole text. -/
def lex (s : JsString) : Option (List Token) :=
  (s.foldlM lexStep (.idle, [])).bind fun
    | (.idle, toks) => some toks.reverse
    | (.number acc, toks) => (numberToken acc.reverse).map fun t => (t :: toks).reverse
    | (.word acc, toks) => (wordToken acc.reverse).map fun t => (t :: toks).reverse
    | _ => none

variable {ν : Type}

/-- A container whose next value is being read, with what it holds so far. -/
inductive Frame (ν : Type) where
  | arr (elems : List (Json ν))
  | obj (members : List (JsString × Json ν)) (key : JsString)

/-- What the parser waits for, inside the containers around it. -/
inductive Parsing (ν : Type) where
  | value (around : List (Frame ν))
  | element (around : List (Frame ν))
  | key (members : List (JsString × Json ν)) (first : Bool) (around : List (Frame ν))
  | colon (members : List (JsString × Json ν)) (key : JsString) (around : List (Frame ν))
  | nextElement (elems : List (Json ν)) (around : List (Frame ν))
  | nextMember (members : List (JsString × Json ν)) (around : List (Frame ν))
  | done (v : Json ν)

/-- A value has been read. -/
def deliver (v : Json ν) : List (Frame ν) → Parsing ν
  | [] => .done v
  | .arr elems :: around => .nextElement (elems ++ [v]) around
  | .obj members key :: around => .nextMember (OrderedMap.put key v members) around

variable [JsNumber ν]

/-- The token at the beginning of a value. -/
def valueStep (around : List (Frame ν)) : Token → Option (Parsing ν)
  | .open true => some (.key [] true around)
  | .open false => some (.element around)
  | .null => some (deliver .null around)
  | .bool b => some (deliver (.bool b) around)
  | .num text => some (deliver (.num (JsNumber.parse text)) around)
  | .str s => some (deliver (.str s) around)
  | _ => none

def parseStep : Parsing ν → Token → Option (Parsing ν)
  | .value around, t => valueStep around t
  | .element around, .close false => some (deliver (.arr []) around)
  | .element around, t => valueStep (.arr [] :: around) t
  | .key members _ around, .str k => some (.colon members k around)
  | .key members true around, .close true => some (deliver (.obj members) around)
  | .colon members k around, .colon => some (.value (.obj members k :: around))
  | .nextElement elems around, .comma => some (.value (.arr elems :: around))
  | .nextElement elems around, .close false => some (deliver (.arr elems) around)
  | .nextMember members around, .comma => some (.key members false around)
  | .nextMember members around, .close true => some (deliver (.obj members) around)
  | _, _ => none

/-- `JSON.parse`; no result where it throws. -/
def jsonParse (s : JsString) : Option (Json ν) :=
  (lex s).bind fun toks =>
    (toks.foldlM parseStep (.value [])).bind fun
      | .done v => some v
      | _ => none

/-- `v.key` for a name that no prototype has; reading from `null` throws. -/
def Json.prop (v : Json ν) (key : JsString) : Except Thrown (Option (Json ν)) :=
  match v with
  | .null => .error .typeError
  | .obj members => .ok (OrderedMap.find key members)
  | _ => .ok none

/-- `v?.key` -/
def optionalProp (v : Option (Json ν)) (key : JsString) : Option (Json ν) :=
  match v with
  | some (.obj members) => OrderedMap.find key members
  | _ => none

/-- `v ?? dflt` -/
def orElse (v : Option (Json ν)) (dflt : JsString) : Json ν :=
  match v with
  | none => .str dflt
  | some .null => .str dflt
  | some v => v

def Json.truthy : Json ν → Bool
  | .null => false
  | .bool b => b
  | .num n => !JsNumber.isZero n
  | .str s => !s.isEmpty
  | .arr _ => true
  | .obj _ => true

/-- `===` between values of different parses: two objects are never the same one. -/
def Json.same : Json ν → Json ν → Bool
  | .null, .null => true
  | .bool a, .bool b => a = b
  | .num m, .num n => JsNumber.same m n
  | .str s, .str t => s = t
  | _, _ => false

/-- An own `toString` cannot be a function, and then no primitive value is found. -/
def hasOwnToString (members : List (JsString × Json ν)) : Bool :=
  (OrderedMap.find (js "toString") members).isSome

mutual

/-- `String(v)` -/
def Json.toStr : Json ν → Except Thrown JsString
  | .null => .ok (js "null")
  | .bool b => .ok (if b then js "true" else js "false")
  | .num n => .ok (JsNumber.print n)
  | .str s => .ok s
  | .arr elems => (elementStrs elems).map (join (js ","))
  | .obj members =>
    if hasOwnToString members then .error .typeError else .ok (js "[object Object]")

/-- The strings that joining an array puts together; `null` gives the empty one. -/
def elementStrs : List (Json ν) → Except Thrown (List JsString)
  | [] => .ok []
  | .null :: es => (elementStrs es).map ([] :: ·)
  | e :: es => e.toStr.bind fun s => (elementStrs es).map (s :: ·)

end

mutual

/-- No object that the conversion to a string meets has an own `toString`. -/
def Json.stringifiable : Json ν → Bool
  | .arr elems => elementsStringifiable elems
  | .obj members => !hasOwnToString members
  | _ => true

def elementsStringifiable : List (Json ν) → Bool
  | [] => true
  | e :: es => e.stringifiable && elementsStringifiable es

end

mutual

theorem returns_toStr : ∀ v : Json ν, Returns v.toStr ↔ v.stringifiable = true
  | .null => by simp [Json.toStr, Json.stringifiable, returns_ok]
  | .bool b => by simp [Json.toStr, Json.stringifiable, returns_ok]
  | .num n => by simp [Json.toStr, Json.stringifiable, returns_ok]
  | .str s => by simp [Json.toStr, Json.stringifiable, returns_ok]
  | .arr elems => by
    rw [Json.toStr, Json.stringifiable, returns_map]
    exact returns_elementStrs elems
  | .obj members => by
    cases h : hasOwnToString members with
    | true => simp [Json.toStr, Json.stringifiable, h, not_returns_error]
    | false => simp [Json.toStr, Json.stringifiable, h, returns_ok]

theorem returns_elementStrs : ∀ es : List (Json ν),
    Returns (elementStrs es) ↔ elementsStringifiable es = true
  | [] => by simp [elementStrs, elementsStringifiable, returns_ok]
  | e :: es => by
    have he := returns_toStr e
    have hes := returns_elementStrs es
    cases e with
    | null => simp [elementStrs, elementsStringifiable, returns_map, hes, Json.stringifiable]
    | bool b | num n | str s | arr elems | obj members =>
      simp only [elementStrs, elementsStringifiable, returns_bind, returns_map, Bool.and_eq_true,
        ← he, ← hes]
      exact ⟨fun ⟨s, hs, h⟩ => ⟨⟨s, hs⟩, h⟩, fun ⟨⟨s, hs⟩, h⟩ => ⟨s, hs, h⟩⟩

end

omit [JsNumber ν] in
theorem elementsStringifiable_iff (es : List (Json ν)) :
    elementsStringifiable es = true ↔ ∀ e ∈ es, e.stringifiable = true := by
  induction es with
  | nil => simp [elementsStringifiable]
  | cons e es ih => simp [elementsStringifiable, ih]

end LivelierBridge.Js
