import Mathlib.Data.List.Basic

namespace LivelierBridge.Js

/-- A string as its UTF-16 code units; lone surrogates are allowed. -/
abbrev JsString := List UInt16

instance : LawfulBEq JsString := inferInstance

/-- The code units of a code point; a surrogate stands for itself. -/
def codePoint (n : Nat) : JsString :=
  if n < 0x10000 then [UInt16.ofNat n]
  else
    [UInt16.ofNat (0xD800 + (n - 0x10000) / 0x400), UInt16.ofNat (0xDC00 + (n - 0x10000) % 0x400)]

/-- A string literal of the source. -/
def js (s : String) : JsString := s.toList.flatMap fun c => codePoint c.toNat

example : js "hi 𝄞" = [104, 105, 32, 0xD834, 0xDD1E] := by decide

end LivelierBridge.Js
