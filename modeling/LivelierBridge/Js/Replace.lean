import Mathlib.Data.Bool.AllAny
import LivelierBridge.Framework.RegexSearch
import LivelierBridge.Js.Text

namespace LivelierBridge.Js

open Framework

theorem splitFrom_ne_nil (sep : JsString) (n : Nat) (part s : JsString) :
    splitFrom sep n part s ≠ [] := by
  induction s generalizing n part with
  | nil => simp [splitFrom]
  | cons u us ih =>
    cases n with
    | succ n => exact ih n part
    | zero =>
      unfold splitFrom
      split_ifs
      · simp
      · exact ih 0 (u :: part)

theorem join_cons (sep p : JsString) {ps : List JsString} (h : ps ≠ []) :
    join sep (p :: ps) = p ++ sep ++ join sep ps := by
  cases ps with
  | nil => exact absurd rfl h
  | cons q qs => rfl

theorem join_splitFrom {sep : JsString} (hsep : sep ≠ []) (glue : JsString) (s : JsString)
    (n : Nat) (part : JsString) (before : Option UInt16) :
    join glue (splitFrom sep n part s) = part.reverse ++
      ((Regex.literal sep).scan n before s).flatMap (Regex.Piece.render fun _ => glue) := by
  induction s generalizing n part before with
  | nil =>
    have hnil : (Regex.literal sep).matchAt before [] = none :=
      Regex.matchAt_literal_eq_none (by simpa using hsep)
    cases n with
    | zero => simp [splitFrom, join, Regex.scan, hnil]
    | succ n => simp [splitFrom, join, Regex.scan]
  | cons u us ih =>
    cases n with
    | succ n => exact ih n part (some u)
    | zero =>
      unfold splitFrom
      split_ifs with hstart
      · obtain ⟨rest, hrest⟩ := List.isPrefixOf_iff_prefix.mp hstart
        obtain ⟨k, hk⟩ := Nat.exists_eq_succ_of_ne_zero (mt List.length_eq_zero_iff.mp hsep)
        have hmatch : (Regex.literal sep).matchAt before (u :: us) = some ⟨sep, none⟩ := by
          rw [← hrest]
          exact Regex.matchAt_literal sep rest before
        rw [join_cons _ _ (splitFrom_ne_nil sep _ _ us), ih _ [] (some u)]
        simp [Regex.scan, hmatch, hk, Regex.Piece.render]
      · have hmatch : (Regex.literal sep).matchAt before (u :: us) = none :=
          Regex.matchAt_literal_eq_none fun h => hstart (List.isPrefixOf_iff_prefix.mpr h)
        rw [ih 0 (u :: part) (some u), Regex.scan_miss hmatch]
        simp [Regex.Piece.render]

/-- `s.split(sep).join(by)` replaces the separator. -/
theorem join_split {sep : JsString} (hsep : sep ≠ []) (glue s : JsString) :
    join glue (split sep s) = (Regex.literal sep).replace (fun _ => glue) s :=
  join_splitFrom hsep glue s 0 [] none

/-- The visible ASCII characters are no spaces. -/
theorem isSpace_of_visible {u : UInt16} (hlow : 32 < u) (hhigh : u < 160) : isSpace u = false := by
  have hbelow : ∀ v : UInt16, v ≤ 32 → ¬ u ≤ v := by
    intro v hv hle
    exact absurd hlow (UInt16.not_lt.mpr (UInt16.le_trans hle hv))
  have habove : ∀ v : UInt16, 160 ≤ v → ¬ v ≤ u := by
    intro v hv hle
    exact absurd hhigh (UInt16.not_lt.mpr (UInt16.le_trans hv hle))
  have hne : ∀ v : UInt16, v ≤ 32 ∨ 160 ≤ v → u ≠ v := by
    rintro v (hv | hv) rfl
    · exact hbelow u hv UInt16.le_rfl
    · exact habove u hv UInt16.le_rfl
  simp [isSpace, hbelow, habove, hne]

/-- What is seen of a text: its units that are not spaces. -/
def isInk (u : UInt16) : Bool := !isSpace u

theorem countP_dropWhile_isSpace (s : JsString) :
    (s.dropWhile isSpace).countP isInk = s.countP isInk := by
  induction s with
  | nil => rfl
  | cons u us ih =>
    by_cases hu : isSpace u = true
    · rw [List.dropWhile_cons_of_pos hu, ih, List.countP_cons_of_neg (by simp [isInk, hu])]
    · rw [List.dropWhile_cons_of_neg hu]

theorem countP_trim (s : JsString) : (trim s).countP isInk = s.countP isInk := by
  simp only [trim, List.countP_reverse, countP_dropWhile_isSpace]

end LivelierBridge.Js
