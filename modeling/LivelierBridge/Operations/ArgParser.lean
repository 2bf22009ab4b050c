import LivelierBridge.Framework.OrderedMap
import LivelierBridge.Js.String

namespace LivelierBridge.Operations

open Framework Js

/-- What every object has from `Object.prototype` -/
def INHERITED : List JsString :=
  [js "constructor", js "toString", js "toLocaleString", js "valueOf", js "hasOwnProperty",
    js "isPrototypeOf", js "propertyIsEnumerable", js "__proto__", js "__defineGetter__",
    js "__defineSetter__", js "__lookupGetter__", js "__lookupSetter__"]

inductive FlagValue where
  | on
  | text (value : JsString)
  deriving DecidableEq

structure ParsedArgs where
  flags : OrderedMap JsString FlagValue
  positional : List JsString

def ParsedArgs.setFlag (p : ParsedArgs) (key : JsString) (v : FlagValue) : ParsedArgs :=
  { p with flags := p.flags.set key v }

def startsWith (start text : JsString) : Bool := start.isPrefixOf text

section Parser

variable (aliases : OrderedMap JsString JsString) (booleans : List JsString)

/-- The flag before it does not take this argument as its value. -/
def nextIsFlag : Option JsString → Bool
  | none => true
  | some next => next = [] || startsWith (js "--") next || aliases.has next || next ∈ INHERITED

/-- Parse the arguments; an inherited name is taken for an alias, and throws. -/
def parseArgs : List JsString → ParsedArgs → Option ParsedArgs
  | [], p => some p
  | arg :: rest, p =>
    if !aliases.has arg && arg ∈ INHERITED then none
    else
      let key := ((aliases.get? arg).filter (· ≠ [])).getD arg
      if startsWith (js "--") key then
        if key ∈ booleans then parseArgs rest (p.setFlag key .on)
        else if nextIsFlag aliases rest.head? then parseArgs rest (p.setFlag key .on)
        else
          match rest with
          | next :: rest => parseArgs rest (p.setFlag key (.text next))
          | [] => some p
      else if startsWith (js "-") key then parseArgs rest (p.setFlag key .on)
      else parseArgs rest { p with positional := p.positional ++ [arg] }

end Parser

/-! ### What is parsed -/

section Parsed

variable {booleans argv rest : List JsString} {p q : ParsedArgs} {arg key v : JsString}

/-- What the parser does with its first argument. -/
theorem parseArgs_cons (booleans rest : List JsString) (p : ParsedArgs) (arg : JsString) :
    parseArgs .empty booleans (arg :: rest) p =
      if arg ∈ INHERITED then none
      else if startsWith (js "--") arg then
        if arg ∈ booleans then parseArgs .empty booleans rest (p.setFlag arg .on)
        else if nextIsFlag .empty rest.head? then
          parseArgs .empty booleans rest (p.setFlag arg .on)
        else
          match rest with
          | next :: rest => parseArgs .empty booleans rest (p.setFlag arg (.text next))
          | [] => some p
      else if startsWith (js "-") arg then parseArgs .empty booleans rest (p.setFlag arg .on)
      else parseArgs .empty booleans rest { p with positional := p.positional ++ [arg] } := by
  have hkey : (((OrderedMap.empty : OrderedMap JsString JsString).get? arg).filter (· ≠ [])).getD arg =
      arg := rfl
  have hhas : (OrderedMap.empty : OrderedMap JsString JsString).has arg = false := rfl
  rw [parseArgs]
  simp only [hkey, hhas, Bool.not_false, Bool.true_and, decide_eq_true_eq]

/-- A flag that was not set before, a value that it takes and an operand are among the arguments. -/
structure Parsed (booleans argv : List JsString) (p q : ParsedArgs) : Prop where
  /-- The flags without a value -/
  boolean : ∀ key ∈ booleans, startsWith (js "--") key = true →
    (q.flags.get? key = some .on ↔ p.flags.get? key = some .on ∨ key ∈ argv)
  text : ∀ key v, q.flags.get? key = some (.text v) → p.flags.get? key = some (.text v) ∨ v ∈ argv
  positional : ∀ x ∈ q.positional, x ∈ p.positional ∨ x ∈ argv

theorem startsWith_of_nextIsFlag (h : nextIsFlag .empty (some arg) = false) :
    startsWith (js "--") arg = false := by
  simp only [nextIsFlag, Bool.or_eq_false_iff] at h
  exact h.1.1.2

theorem setFlag_get? (p : ParsedArgs) (k : JsString) (x : FlagValue) :
    (p.setFlag arg x).flags.get? k = if k = arg then some x else p.flags.get? k :=
  OrderedMap.get?_set _ _ _ _

/-- One argument that sets its own flag. -/
theorem Parsed.flag (h : Parsed booleans rest (p.setFlag arg .on) q) :
    Parsed booleans (arg :: rest) p q := by
  refine ⟨fun key hkey hdash => ?_, fun key v hv => ?_, fun x hx => ?_⟩
  · rw [h.boolean key hkey hdash, setFlag_get?, List.mem_cons]
    by_cases heq : key = arg <;> simp [heq]
  · rcases h.text key v hv with hp | hrest
    · rw [setFlag_get?] at hp
      split at hp
      · cases hp
      · exact .inl hp
    · exact .inr (List.mem_cons_of_mem _ hrest)
  · rcases h.positional x hx with hp | hrest
    · exact .inl hp
    · exact .inr (List.mem_cons_of_mem _ hrest)

/-- A flag that takes the argument behind it. -/
theorem Parsed.value {next : JsString} (hbool : arg ∉ booleans)
    (hnext : startsWith (js "--") next = false)
    (h : Parsed booleans rest (p.setFlag arg (.text next)) q) :
    Parsed booleans (arg :: next :: rest) p q := by
  refine ⟨fun key hkey hdash => ?_, fun key v hv => ?_, fun x hx => ?_⟩
  · have harg : key ≠ arg := fun heq => hbool (heq ▸ hkey)
    have hkeyNext : key ≠ next := by
      rintro rfl
      exact Bool.false_ne_true (hnext.symm.trans hdash)
    rw [h.boolean key hkey hdash, setFlag_get?, if_neg harg, List.mem_cons, List.mem_cons]
    simp [harg, hkeyNext]
  · rcases h.text key v hv with hp | hrest
    · rw [setFlag_get?] at hp
      split at hp
      · obtain rfl : next = v := by simpa using hp
        exact .inr (List.mem_cons_of_mem _ List.mem_cons_self)
      · exact .inl hp
    · exact .inr (List.mem_cons_of_mem _ (List.mem_cons_of_mem _ hrest))
  · rcases h.positional x hx with hp | hrest
    · exact .inl hp
    · exact .inr (List.mem_cons_of_mem _ (List.mem_cons_of_mem _ hrest))

theorem Parsed.operand (harg : startsWith (js "--") arg = false)
    (h : Parsed booleans rest { p with positional := p.positional ++ [arg] } q) :
    Parsed booleans (arg :: rest) p q := by
  refine ⟨fun key hkey hdash => ?_, fun key v hv => ?_, fun x hx => ?_⟩
  · have hne : key ≠ arg := by
      rintro rfl
      exact Bool.false_ne_true (harg.symm.trans hdash)
    rw [h.boolean key hkey hdash, List.mem_cons]
    simp [hne]
  · rcases h.text key v hv with hp | hrest
    · exact .inl hp
    · exact .inr (List.mem_cons_of_mem _ hrest)
  · rcases h.positional x hx with hp | hrest
    · rcases List.mem_append.mp hp with hold | hnew
      · exact .inl hold
      · exact .inr (List.mem_singleton.mp hnew ▸ List.mem_cons_self)
    · exact .inr (List.mem_cons_of_mem _ hrest)

/-- The induction is on the number of arguments: a flag may take two. -/
theorem parsed_of_parseArgs (n : Nat) : ∀ argv p, argv.length ≤ n →
    parseArgs .empty booleans argv p = some q → Parsed booleans argv p q := by
  induction n with
  | zero =>
    intro argv p hlen h
    obtain rfl := List.length_eq_zero_iff.mp (Nat.le_zero.mp hlen)
    obtain rfl := Option.some.inj h
    exact ⟨by simp, fun _ _ hv => .inl hv, fun _ hx => .inl hx⟩
  | succ n ih =>
    intro argv p hlen h
    cases argv with
    | nil =>
      obtain rfl := Option.some.inj h
      exact ⟨by simp, fun _ _ hv => .inl hv, fun _ hx => .inl hx⟩
    | cons arg rest =>
      have hrest : rest.length ≤ n := by simpa using hlen
      rw [parseArgs_cons] at h
      by_cases hin : arg ∈ INHERITED
      · simp [hin] at h
      rw [if_neg hin] at h
      by_cases hlong : startsWith (js "--") arg = true
      · rw [if_pos hlong] at h
        by_cases hbool : arg ∈ booleans
        · rw [if_pos hbool] at h
          exact (ih rest _ hrest h).flag
        rw [if_neg hbool] at h
        by_cases hnext : nextIsFlag .empty rest.head? = true
        · rw [if_pos hnext] at h
          exact (ih rest _ hrest h).flag
        rw [if_neg hnext] at h
        cases rest with
        | nil => exact absurd rfl hnext
        | cons next rest =>
          have hnext' := startsWith_of_nextIsFlag (Bool.not_eq_true _ ▸ hnext)
          exact (ih rest _ (by simp at hrest; omega) h).value hbool hnext'
      rw [if_neg hlong] at h
      by_cases hshort : startsWith (js "-") arg = true
      · rw [if_pos hshort] at h
        exact (ih rest _ hrest h).flag
      · rw [if_neg hshort] at h
        exact (ih rest _ hrest h).operand (Bool.not_eq_true _ ▸ hlong)

/-- A flag without a value at the end is only set: no flag takes it as its value. -/
theorem parseArgs_append {key : JsString} (hkey : key ∈ booleans)
    (hdash : startsWith (js "--") key = true) (hin : key ∉ INHERITED) (n : Nat) :
    ∀ argv p, argv.length ≤ n → parseArgs .empty booleans (argv ++ [key]) p =
      (parseArgs .empty booleans argv p).map fun q => q.setFlag key .on := by
  have hlast : ∀ p, parseArgs .empty booleans ([] ++ [key]) p =
      (parseArgs .empty booleans [] p).map fun q => q.setFlag key .on := by
    intro p
    rw [List.nil_append, parseArgs_cons, if_neg hin, if_pos hdash, if_pos hkey]
    rfl
  induction n with
  | zero =>
    intro argv p hlen
    obtain rfl := List.length_eq_zero_iff.mp (Nat.le_zero.mp hlen)
    exact hlast p
  | succ n ih =>
    intro argv p hlen
    cases argv with
    | nil => exact hlast p
    | cons arg rest =>
      have hrest : rest.length ≤ n := by simpa using hlen
      have hhead : nextIsFlag .empty (rest ++ [key]).head? = nextIsFlag .empty rest.head? := by
        cases rest with
        | nil => simp [nextIsFlag, hdash]
        | cons next rest => rfl
      rw [List.cons_append, parseArgs_cons, parseArgs_cons, hhead]
      by_cases hinherited : arg ∈ INHERITED
      · simp [hinherited]
      rw [if_neg hinherited, if_neg hinherited]
      by_cases hlong : startsWith (js "--") arg = true
      · rw [if_pos hlong, if_pos hlong]
        by_cases hbool : arg ∈ booleans
        · rw [if_pos hbool, if_pos hbool]
          exact ih rest _ hrest
        rw [if_neg hbool, if_neg hbool]
        by_cases hnext : nextIsFlag .empty rest.head? = true
        · rw [if_pos hnext, if_pos hnext]
          exact ih rest _ hrest
        rw [if_neg hnext, if_neg hnext]
        cases rest with
        | nil => exact absurd rfl hnext
        | cons next rest => exact ih rest _ (by simp at hrest; omega)
      rw [if_neg hlong, if_neg hlong]
      by_cases hshort : startsWith (js "-") arg = true
      · rw [if_pos hshort, if_pos hshort]
        exact ih rest _ hrest
      · rw [if_neg hshort, if_neg hshort]
        exact ih rest _ hrest

end Parsed

end LivelierBridge.Operations
