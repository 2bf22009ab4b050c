import Mathlib.Algebra.Group.Int.Defs
import LivelierBridge.Js.String

namespace LivelierBridge.Js

def hexDigit (n : Nat) : UInt16 := UInt16.ofNat (if n < 10 then 48 + n else 87 + n)

/-- `n.toString(base)` for a natural number, by repeated division. -/
def natToString (base : Nat) : Nat → Nat → JsString
  | 0, _ => []
  | fuel + 1, n =>
    if n < base then [hexDigit n] else natToString base fuel (n / base) ++ [hexDigit (n % base)]

/-- `n.toString(base)` -/
def intToString (base : Nat) (n : Int) : JsString :=
  (if n < 0 then js "-" else []) ++ natToString base (n.natAbs + 1) n.natAbs

example : intToString 16 (-255) = js "-ff" := by decide

def isLead (u : UInt16) : Bool := 0xD800 ≤ u && u ≤ 0xDBFF
def isTrail (u : UInt16) : Bool := 0xDC00 ≤ u && u ≤ 0xDFFF

def unicodeEscape (u : UInt16) : JsString :=
  js "\\u" ++ [hexDigit (u.toNat / 4096), hexDigit (u.toNat / 256 % 16),
    hexDigit (u.toNat / 16 % 16), hexDigit (u.toNat % 16)]

/-- The escape of one code unit that is no part of a surrogate pair. -/
def quoteUnit (u : UInt16) : JsString :=
  if u = 8 then js "\\b"
  else if u = 9 then js "\\t"
  else if u = 10 then js "\\n"
  else if u = 12 then js "\\f"
  else if u = 13 then js "\\r"
  else if u = 34 then js "\\\""
  else if u = 92 then js "\\\\"
  else if u < 32 || isLead u || isTrail u then unicodeEscape u
  else [u]

/-- The escaped characters of a JSON string; surrogate pairs stay as they are. -/
def quoteUnits : JsString → JsString
  | [] => []
  | [u] => quoteUnit u
  | u :: v :: us =>
    if isLead u && isTrail v then u :: v :: quoteUnits us else quoteUnit u ++ quoteUnits (v :: us)

/-- `JSON.stringify` of a string. -/
def quote (s : JsString) : JsString := js "\"" ++ quoteUnits s ++ js "\""

def commaSep : List JsString → JsString
  | [] => []
  | [x] => x
  | x :: xs => x ++ js "," ++ commaSep xs

/-- `JSON.stringify` of an array whose elements are stringified. -/
def jsonArray (xs : List JsString) : JsString := js "[" ++ commaSep xs ++ js "]"

/-- `JSON.stringify` of an object whose members are stringified. -/
def jsonObject (members : List (JsString × JsString)) : JsString :=
  js "\x7b" ++ commaSep (members.map fun m => quote m.1 ++ js ":" ++ m.2) ++ js "\x7d"

/-- Reduction to a signed 32-bit integer. -/
def toInt32 (n : Int) : Int := (n + 2 ^ 31) % 2 ^ 32 - 2 ^ 31

end LivelierBridge.Js
