import LivelierBridge.Js.String

namespace LivelierBridge.Js

/-- The errors the language itself throws. -/
inductive Thrown where
  | typeError
  | rangeError
  deriving DecidableEq

/-- `\s`, and what `trim` removes. -/
def isSpace (u : UInt16) : Bool :=
  (9 ≤ u && u ≤ 13) || u = 0x20 || u = 0xA0 || u = 0x1680 || (0x2000 ≤ u && u ≤ 0x200A) ||
    u = 0x2028 || u = 0x2029 || u = 0x202F || u = 0x205F || u = 0x3000 || u = 0xFEFF

/-- `\d` -/
def isDigit (u : UInt16) : Bool := 48 ≤ u && u ≤ 57

/-- `\w` -/
def isWord (u : UInt16) : Bool :=
  isDigit u || (65 ≤ u && u ≤ 90) || (97 ≤ u && u ≤ 122) || u = 95

def trim (s : JsString) : JsString :=
  ((s.dropWhile isSpace).reverse.dropWhile isSpace).reverse

/-- `s.toLowerCase()` of a text of ASCII characters. -/
def toLowerCase (s : JsString) : JsString := s.map fun u => if 65 ≤ u && u ≤ 90 then u + 32 else u

theorem toLowerCase_unit (u : UInt16) :
    toLowerCase [u] = [u] ∨ ∃ v, toLowerCase [u] = [v] ∧ 97 ≤ v ∧ v ≤ 122 := by
  by_cases hu : 65 ≤ u ∧ u ≤ 90
  · right
    have hlow : 65 ≤ u.toNat := UInt16.le_iff_toNat_le.mp hu.1
    have hhigh : u.toNat ≤ 90 := UInt16.le_iff_toNat_le.mp hu.2
    have hsum : (u + 32).toNat = u.toNat + 32 := by
      rw [UInt16.toNat_add, Nat.mod_eq_of_lt]
      · rfl
      · have hconst : (32 : UInt16).toNat = 32 := rfl
        omega
    refine ⟨u + 32, by simp [toLowerCase, hu], ?_, ?_⟩
    · exact UInt16.le_iff_toNat_le.mpr (by simp [hsum]; omega)
    · exact UInt16.le_iff_toNat_le.mpr (by simp [hsum]; omega)
  · left
    have hsame : (65 ≤ u && u ≤ 90) = false := by simpa using hu
    simp only [toLowerCase, List.map_cons, List.map_nil, hsame, Bool.false_eq_true, if_false]

theorem toLowerCase_cons (u : UInt16) (s : JsString) :
    toLowerCase (u :: s) = toLowerCase [u] ++ toLowerCase s := rfl

theorem toLowerCase_toLowerCase (s : JsString) : toLowerCase (toLowerCase s) = toLowerCase s := by
  induction s with
  | nil => rfl
  | cons u s ih =>
    have hunit : toLowerCase (toLowerCase [u]) = toLowerCase [u] := by
      rcases toLowerCase_unit u with hsame | ⟨v, hv, hlow, -⟩
      · rw [hsame, hsame]
      · have hsame : (65 ≤ v && v ≤ 90) = false := by
          have hnat : 97 ≤ v.toNat := UInt16.le_iff_toNat_le.mp hlow
          have hout : ¬v ≤ 90 := by
            rw [UInt16.le_iff_toNat_le]
            have hconst : (90 : UInt16).toNat = 90 := rfl
            omega
          simp [hout]
        rw [hv]
        simp only [toLowerCase, List.map_cons, List.map_nil, hsame, Bool.false_eq_true, if_false]
    have happend : toLowerCase (toLowerCase [u] ++ toLowerCase s) =
        toLowerCase (toLowerCase [u]) ++ toLowerCase (toLowerCase s) := by simp [toLowerCase]
    rw [toLowerCase_cons, happend, hunit, ih]

/-- Only letters come of letters. -/
theorem mem_of_mem_toLowerCase {u : UInt16} {s : JsString} (h : u ∈ toLowerCase s)
    (hu : ¬(97 ≤ u ∧ u ≤ 122)) : u ∈ s := by
  induction s with
  | nil => cases h
  | cons w s ih =>
    rw [toLowerCase_cons] at h
    rcases List.mem_append.mp h with hw | hrest
    · rcases toLowerCase_unit w with hsame | ⟨v, hv, hletter⟩
      · rw [hsame] at hw
        obtain rfl := List.mem_singleton.mp hw
        exact List.mem_cons_self
      · rw [hv] at hw
        obtain rfl := List.mem_singleton.mp hw
        exact absurd hletter hu
    · exact List.mem_cons_of_mem _ (ih hrest)

/-- `s || dflt` -/
def orText (s dflt : JsString) : JsString := if s.isEmpty then dflt else s

/-- Cut at the separator, passing over the rest of one just found. -/
def splitFrom (sep : JsString) : Nat → JsString → JsString → List JsString
  | _, part, [] => [part.reverse]
  | n + 1, part, _ :: us => splitFrom sep n part us
  | 0, part, u :: us =>
    if sep.isPrefixOf (u :: us) then part.reverse :: splitFrom sep (sep.length - 1) [] us
    else splitFrom sep 0 (u :: part) us

/-- `s.split(sep)` for a separator that is not empty. -/
def split (sep s : JsString) : List JsString := splitFrom sep 0 [] s

/-- `parts.join(sep)` -/
def join (sep : JsString) : List JsString → JsString
  | [] => []
  | [p] => p
  | p :: ps => p ++ sep ++ join sep ps

/-- `String.fromCodePoint` of a non-negative integer. -/
def fromCodePoint (n : Nat) : Except Thrown JsString :=
  if n ≤ 0x10FFFF then .ok (codePoint n) else .error .rangeError

/-- The number a run of decimal digits denotes. -/
def digitsValue (s : JsString) : Nat := s.foldl (fun n u => 10 * n + (u.toNat - 48)) 0

example : split (js "\n") (js "a\n\nb") = [js "a", [], js "b"] := by decide

end LivelierBridge.Js
