import Mathlib.Data.List.Basic
import LivelierBridge.Framework.Returns

namespace LivelierBridge.Framework

universe u v

/-- Patterns of a backtracking matcher. `many` and `opt` are greedy, `group` captures. -/
inductive Regex (α : Type u) where
  | eps
  | unit (p : α → Bool)
  | many (p : α → Bool)
  | seq (r s : Regex α)
  | alt (r s : Regex α)
  | opt (r : Regex α)
  | group (r : Regex α)
  | start
  | stop
  | boundary (word : α → Bool)

namespace Regex

variable {α : Type u}

/-- One or more units of a class. -/
def many1 (p : α → Bool) : Regex α := .seq (.unit p) (.many p)

/-- The patterns one after the other. -/
def chain : List (Regex α) → Regex α
  | [] => .eps
  | [r] => r
  | r :: rs => .seq r (chain rs)

/-- A place in the input: the unit before it, the units after it, and the last capture. -/
structure Cursor (α : Type u) where
  before : Option α
  rest : List α
  captured : Option (List α)

/-- What stands between a place and a later one of the same input. -/
def Cursor.upTo (c d : Cursor α) : List α := c.rest.take (c.rest.length - d.rest.length)

/-- Every way to take units of the class, longest first. -/
def spans (p : α → Bool) (captured : Option (List α)) : Option α → List α → List (Cursor α)
  | before, [] => [⟨before, [], captured⟩]
  | before, x :: xs =>
    (if p x then spans p captured (some x) xs else []) ++ [⟨before, x :: xs, captured⟩]

/-- Every way the pattern matches from a place, in the order a backtracking matcher tries them. -/
def results : Regex α → Cursor α → List (Cursor α)
  | .eps, c => [c]
  | .unit p, c =>
    match c.rest with
    | [] => []
    | x :: xs => if p x then [⟨some x, xs, c.captured⟩] else []
  | .many p, c => spans p c.captured c.before c.rest
  | .seq r s, c => (r.results c).flatMap s.results
  | .alt r s, c => r.results c ++ s.results c
  | .opt r, c => r.results c ++ [c]
  | .group r, c => (r.results c).map fun d => { d with captured := some (c.upTo d) }
  | .start, c => if c.before.isNone then [c] else []
  | .stop, c => if c.rest.isEmpty then [c] else []
  | .boundary word, c =>
    if c.before.any word != c.rest.head?.any word then [c] else []

structure Match (α : Type u) where
  text : List α
  captured : Option (List α)
  deriving DecidableEq

/-- The first way the pattern matches at one place. -/
def matchAt (r : Regex α) (before : Option α) (s : List α) : Option (Match α) :=
  let c : Cursor α := ⟨before, s, none⟩
  (r.results c).head?.map fun d => ⟨c.upTo d, d.captured⟩

/-- The input cut at the matches of a global search. -/
inductive Piece (α : Type u) where
  | lit (x : α)
  | hit (m : Match α)

/-- Search on from a place, first passing over what is left of the last match. -/
def scan (r : Regex α) : Nat → Option α → List α → List (Piece α)
  | 0, before, [] => (r.matchAt before []).toList.map .hit
  | _ + 1, _, [] => []
  | n + 1, _, x :: xs => scan r n (some x) xs
  | 0, before, x :: xs =>
    match r.matchAt before (x :: xs) with
    | none => .lit x :: scan r 0 (some x) xs
    | some m =>
      match m.text.length with
      | 0 => .hit m :: .lit x :: scan r 0 (some x) xs
      | n + 1 => .hit m :: scan r n (some x) xs

def pieces (r : Regex α) (s : List α) : List (Piece α) := scan r 0 none s

def Piece.hit? : Piece α → Option (Match α)
  | .lit _ => none
  | .hit m => some m

/-- The matches of a global search. -/
def hits (r : Regex α) (s : List α) : List (Match α) := (r.pieces s).filterMap Piece.hit?

/-- The leftmost match. -/
def firstMatch (r : Regex α) (s : List α) : Option (Match α) := (r.hits s).head?

/-- Replace each match by what `f` makes of it. -/
def replace (r : Regex α) (f : Match α → List α) (s : List α) : List α :=
  (r.pieces s).flatMap fun
    | .lit x => [x]
    | .hit m => f m

variable {ε : Type v}

/-- Replace the matches one by one by a function that may fail. -/
def replacePieces (f : Match α → Except ε (List α)) :
    List (Piece α) → Except ε (List α)
  | [] => .ok []
  | .lit x :: ps => (replacePieces f ps).map (x :: ·)
  | .hit m :: ps => (f m).bind fun y => (replacePieces f ps).map (y ++ ·)

def replaceM (r : Regex α) (f : Match α → Except ε (List α)) (s : List α) :
    Except ε (List α) := replacePieces f (r.pieces s)

theorem returns_replacePieces (f : Match α → Except ε (List α)) (ps : List (Piece α)) :
    Returns (replacePieces f ps) ↔ ∀ m ∈ ps.filterMap Piece.hit?, Returns (f m) := by
  induction ps with
  | nil => simpa [replacePieces] using returns_ok _
  | cons p ps ih =>
    cases p with
    | lit x => simpa [replacePieces, Piece.hit?, returns_map] using ih
    | hit m =>
      simp only [replacePieces, returns_bind, returns_map, ih, Piece.hit?, List.filterMap_cons,
        List.forall_mem_cons]
      constructor
      · rintro ⟨y, hy, h⟩
        exact ⟨⟨y, hy⟩, h⟩
      · rintro ⟨⟨y, hy⟩, h⟩
        exact ⟨y, hy, h⟩

/-- A failing replacement fails exactly when it fails at one of the matches. -/
theorem returns_replaceM (r : Regex α) (f : Match α → Except ε (List α)) (s : List α) :
    Returns (r.replaceM f s) ↔ ∀ m ∈ r.hits s, Returns (f m) :=
  returns_replacePieces f (r.pieces s)

end Regex

end LivelierBridge.Framework
