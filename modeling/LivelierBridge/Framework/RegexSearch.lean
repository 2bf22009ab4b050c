import Mathlib.Data.List.Forall2
import LivelierBridge.Framework.Regex

namespace LivelierBridge.Framework.Regex

universe u v w

variable {α : Type u} {β : Type w} {ε : Type v}

/-- The texts a pattern can match, whatever stands around them. -/
def Accepts : Regex α → List α → Prop
  | .eps, s => s = []
  | .unit p, s => ∃ x, s = [x] ∧ p x = true
  | .many p, s => ∀ x ∈ s, p x = true
  | .seq r r', s => ∃ a b, s = a ++ b ∧ r.Accepts a ∧ r'.Accepts b
  | .alt r r', s => r.Accepts s ∨ r'.Accepts s
  | .opt r, s => s = [] ∨ r.Accepts s
  | .group r, s => r.Accepts s
  | .start, s => s = []
  | .stop, s => s = []
  | .boundary _, s => s = []

theorem accepts_chain_cons {r : Regex α} {rs : List (Regex α)} {s : List α}
    (h : (chain (r :: rs)).Accepts s) :
    ∃ a b, s = a ++ b ∧ r.Accepts a ∧ (chain rs).Accepts b := by
  cases rs with
  | nil => exact ⟨s, [], (List.append_nil s).symm, h, rfl⟩
  | cons r' rs => exact h

/-- A pattern of units accepts the texts that have each unit in its class. -/
theorem accepts_units {ps : List (α → Bool)} {s : List α}
    (h : (chain (ps.map .unit)).Accepts s) : List.Forall₂ (fun p x => p x = true) ps s := by
  induction ps generalizing s with
  | nil =>
    obtain rfl : s = [] := h
    exact .nil
  | cons p ps ih =>
    obtain ⟨a, b, rfl, ⟨x, rfl, hx⟩, hb⟩ := accepts_chain_cons h
    exact .cons hx (ih hb)

theorem spans_sound {p : α → Bool} {captured : Option (List α)} {d : Cursor α} {before : Option α}
    {s : List α} (h : d ∈ spans p captured before s) :
    ∃ a, s = a ++ d.rest ∧ ∀ x ∈ a, p x = true := by
  induction s generalizing before with
  | nil =>
    obtain rfl : d = ⟨before, [], captured⟩ := by simpa [spans] using h
    exact ⟨[], rfl, by simp⟩
  | cons x xs ih =>
    rcases List.mem_append.mp h with htake | hstop
    · split_ifs at htake with hx
      · obtain ⟨a, hxs, ha⟩ := ih htake
        exact ⟨x :: a, by rw [hxs]; rfl, List.forall_mem_cons.mpr ⟨hx, ha⟩⟩
      · cases htake
    · obtain rfl : d = ⟨before, x :: xs, captured⟩ := by simpa using hstop
      exact ⟨[], rfl, by simp⟩

/-- What lies between a place and one the pattern leads to is a text it accepts. -/
theorem results_sound {r : Regex α} {c d : Cursor α} (h : d ∈ r.results c) :
    ∃ a, c.rest = a ++ d.rest ∧ r.Accepts a := by
  induction r generalizing c d with
  | eps =>
    obtain rfl : d = c := by simpa [results] using h
    exact ⟨[], rfl, rfl⟩
  | unit p =>
    cases hrest : c.rest with
    | nil => simp [results, hrest] at h
    | cons x xs =>
      simp only [results, hrest] at h
      split_ifs at h with hx
      · obtain rfl := List.mem_singleton.mp h
        exact ⟨[x], rfl, x, rfl, hx⟩
      · cases h
  | many p => exact spans_sound h
  | seq r r' ih ih' =>
    obtain ⟨m, hm, hd⟩ := List.mem_flatMap.mp h
    obtain ⟨a, hc, ha⟩ := ih hm
    obtain ⟨b, hmrest, hb⟩ := ih' hd
    exact ⟨a ++ b, by rw [hc, hmrest, List.append_assoc], a, b, rfl, ha, hb⟩
  | alt r r' ih ih' =>
    rcases List.mem_append.mp h with hleft | hright
    · obtain ⟨a, hc, ha⟩ := ih hleft
      exact ⟨a, hc, .inl ha⟩
    · obtain ⟨a, hc, ha⟩ := ih' hright
      exact ⟨a, hc, .inr ha⟩
  | opt r ih =>
    rcases List.mem_append.mp h with hsome | hnone
    · obtain ⟨a, hc, ha⟩ := ih hsome
      exact ⟨a, hc, .inr ha⟩
    · obtain rfl := List.mem_singleton.mp hnone
      exact ⟨[], rfl, .inl rfl⟩
  | group r ih =>
    obtain ⟨e, he, rfl⟩ := List.mem_map.mp h
    obtain ⟨a, hc, ha⟩ := ih he
    exact ⟨a, hc, ha⟩
  | start =>
    simp only [results] at h
    split_ifs at h
    · obtain rfl := List.mem_singleton.mp h
      exact ⟨[], rfl, rfl⟩
    · cases h
  | stop =>
    simp only [results] at h
    split_ifs at h
    · obtain rfl := List.mem_singleton.mp h
      exact ⟨[], rfl, rfl⟩
    · cases h
  | boundary word =>
    simp only [results] at h
    split_ifs at h
    · obtain rfl := List.mem_singleton.mp h
      exact ⟨[], rfl, rfl⟩
    · cases h

variable {r : Regex α} {before : Option α} {s rest : List α} {m : Match α}

/-- A match is the start of what is left of the input. -/
theorem matchAt_sound (h : r.matchAt before s = some m) :
    ∃ rest, s = m.text ++ rest ∧ r.Accepts m.text := by
  obtain ⟨d, hd, rfl⟩ := Option.map_eq_some_iff.mp h
  obtain ⟨a, hs, ha⟩ := results_sound (List.mem_of_head? hd)
  have htext : s.take (s.length - d.rest.length) = a := by
    have hlen : s.length - d.rest.length = a.length := by
      rw [show s = a ++ d.rest from hs, List.length_append]
      omega
    rw [hlen, show s = a ++ d.rest from hs, List.take_left]
  exact ⟨d.rest, by rw [← htext] at hs; exact hs, by rw [← htext] at ha; exact ha⟩

/-- The first place that the pattern leads to is where its match ends. -/
theorem matchAt_of_head {a : List α} {d : Cursor α}
    (h : (r.results ⟨before, a ++ d.rest, none⟩).head? = some d) :
    r.matchAt before (a ++ d.rest) = some ⟨a, d.captured⟩ := by
  simp [matchAt, h, Cursor.upTo]

/-! ### The search -/

theorem scan_miss {x : α} {xs : List α} (h : r.matchAt before (x :: xs) = none) :
    scan r 0 before (x :: xs) = .lit x :: scan r 0 (some x) xs := by
  simp [scan, h]

theorem scan_skip (s rest : List α) (before : Option α) :
    ∃ last, scan r s.length before (s ++ rest) = scan r 0 last rest := by
  induction s generalizing before with
  | nil => exact ⟨before, rfl⟩
  | cons x xs ih =>
    obtain ⟨last, hlast⟩ := ih (some x)
    exact ⟨last, by rw [← hlast]; rfl⟩

/-- The search goes on behind a match. -/
theorem scan_hit (h : r.matchAt before (m.text ++ rest) = some m) (hm : m.text ≠ []) :
    ∃ last, scan r 0 before (m.text ++ rest) = .hit m :: scan r 0 last rest := by
  obtain ⟨x, xs, htext⟩ := List.exists_cons_of_ne_nil hm
  obtain ⟨last, hlast⟩ := scan_skip (r := r) xs rest (some x)
  refine ⟨last, ?_⟩
  rw [htext, List.cons_append] at h
  rw [htext, List.cons_append, ← hlast]
  simp [scan, h, htext]

/-- The search finds nothing exactly when the pattern matches nowhere. -/
theorem scan_hits_eq_nil :
    (scan r 0 before s).filterMap Piece.hit? = [] ↔
      ∀ pre post, s = pre ++ post → r.matchAt (pre.getLast?.or before) post = none := by
  induction s generalizing before with
  | nil =>
    constructor
    · intro h pre post hs
      obtain ⟨rfl, rfl⟩ := List.append_eq_nil_iff.mp hs.symm
      cases hm : r.matchAt before [] with
      | none => exact hm
      | some m => simp [scan, hm, Piece.hit?] at h
    · intro h
      simp [scan, show r.matchAt before [] = none from h [] [] rfl]
  | cons x xs ih =>
    cases hm : r.matchAt before (x :: xs) with
    | none =>
      rw [scan_miss hm, List.filterMap_cons_none (by rfl), ih]
      constructor
      · intro h pre post hs
        cases pre with
        | nil =>
          obtain rfl : x :: xs = post := hs
          exact hm
        | cons y pre =>
          obtain ⟨rfl, hxs⟩ := List.cons.inj hs
          simpa [List.getLast?_cons] using h pre post hxs
      · intro h pre post hxs
        simpa [List.getLast?_cons] using h (x :: pre) post (by rw [hxs]; rfl)
    | some m =>
      constructor
      · intro h
        cases hlen : m.text.length with
        | zero => simp [scan, hm, hlen, Piece.hit?] at h
        | succ n => simp [scan, hm, hlen, Piece.hit?] at h
      · intro h
        have hnone := h [] (x :: xs) rfl
        simp [hm] at hnone

theorem hits_eq_nil :
    r.hits s = [] ↔ ∀ pre post, s = pre ++ post → r.matchAt pre.getLast? post = none := by
  simp [hits, pieces, scan_hits_eq_nil, -List.filterMap_eq_nil_iff]

/-- What ends in `$` leads to the end of the input. -/
theorem rest_of_stop {rs : List (Regex α)} {c d : Cursor α}
    (h : d ∈ (chain (rs ++ [.stop])).results c) : d.rest = [] := by
  induction rs generalizing c with
  | nil =>
    have hstop : d ∈ if c.rest.isEmpty then [c] else [] := h
    split_ifs at hstop with hempty
    · obtain rfl := List.mem_singleton.mp hstop
      exact List.isEmpty_iff.mp hempty
    · cases hstop
  | cons r rs ih =>
    have hseq : chain (r :: rs ++ [.stop]) = .seq r (chain (rs ++ [.stop])) := by
      cases rs <;> rfl
    rw [hseq] at h
    obtain ⟨m, -, hd⟩ := List.mem_flatMap.mp h
    exact ih hd

/-- A pattern between `^` and `$` matches whole texts only. -/
theorem accepts_of_anchored {rs : List (Regex α)}
    (h : ((chain (.start :: (rs ++ [.stop]))).firstMatch s).isSome = true) :
    (chain (rs ++ [.stop])).Accepts s := by
  have hhits : (chain (.start :: (rs ++ [.stop]))).hits s ≠ [] := by
    intro hnil
    simp [firstMatch, hnil] at h
  rw [Ne, hits_eq_nil] at hhits
  push Not at hhits
  obtain ⟨pre, post, rfl, hmatch⟩ := hhits
  obtain ⟨m, hm⟩ := Option.ne_none_iff_exists'.mp hmatch
  obtain ⟨d, hd, -⟩ := Option.map_eq_some_iff.mp hm
  have hseq : chain (.start :: (rs ++ [.stop])) = .seq .start (chain (rs ++ [.stop])) := by
    cases rs <;> rfl
  rw [hseq] at hd
  obtain ⟨c, hc, hrest⟩ := List.mem_flatMap.mp (List.mem_of_head? hd)
  have hstart : c ∈ if pre.getLast?.isNone then [⟨pre.getLast?, post, none⟩] else [] := hc
  split_ifs at hstart with hnone
  · obtain rfl := List.mem_singleton.mp hstart
    have hpre : pre = [] := by simpa using hnone
    obtain ⟨a, ha, haccepts⟩ := results_sound hrest
    rw [rest_of_stop hrest, List.append_nil] at ha
    obtain rfl : post = a := ha
    rw [hpre, List.nil_append]
    exact haccepts
  · cases hstart

/-! ### The replacement -/

def Piece.render (f : Match α → List α) : Piece α → List α
  | .lit x => [x]
  | .hit m => f m

/-- What a replacement makes of the input from a place on. -/
def renders (r : Regex α) (f : Match α → List α) (before : Option α) (s : List α) : List α :=
  (r.scan 0 before s).flatMap (Piece.render f)

theorem replace_eq_renders (r : Regex α) (f : Match α → List α) (s : List α) :
    r.replace f s = r.renders f none s := rfl

variable {f : Match α → List α}

theorem renders_nil (h : r.matchAt before [] = none) : r.renders f before [] = [] := by
  simp [renders, scan, h]

theorem renders_miss {x : α} (h : r.matchAt before (x :: s) = none) :
    r.renders f before (x :: s) = x :: r.renders f (some x) s := by
  rw [renders, scan_miss h]
  rfl

theorem renders_hit (h : r.matchAt before (m.text ++ rest) = some m) (hm : m.text ≠ []) :
    ∃ last, r.renders f before (m.text ++ rest) = f m ++ r.renders f last rest := by
  obtain ⟨last, hlast⟩ := scan_hit h hm
  refine ⟨last, ?_⟩
  rw [renders, hlast]
  rfl

/-- The replacement passes over what no match starts in. -/
theorem renders_pass (s : List α)
    (h : ∀ before, ∀ x ∈ s, ∀ xs, r.matchAt before (x :: xs) = none) (before : Option α)
    (rest : List α) : ∃ last, r.renders f before (s ++ rest) = s ++ r.renders f last rest := by
  induction s generalizing before with
  | nil => exact ⟨before, rfl⟩
  | cons x xs ih =>
    obtain ⟨hx, hxs⟩ : (∀ before ys, r.matchAt before (x :: ys) = none) ∧
        ∀ before, ∀ y ∈ xs, ∀ ys, r.matchAt before (y :: ys) = none :=
      ⟨fun before ys => h before x List.mem_cons_self ys,
        fun before y hy ys => h before y (List.mem_cons_of_mem x hy) ys⟩
    obtain ⟨last, hlast⟩ := ih hxs (some x)
    refine ⟨last, ?_⟩
    rw [List.cons_append, renders_miss (hx before _), hlast]
    rfl

/-- A text built from blocks is replaced block by block, when each block is. -/
theorem renders_flatMap {e e' : β → List α}
    (hblock : ∀ u rest before,
      ∃ last, r.renders f before (e u ++ rest) = e' u ++ r.renders f last rest)
    {out : List α} (hrest : ∀ before, r.renders f before rest = out) (us : List β)
    (before : Option α) : r.renders f before (us.flatMap e ++ rest) = us.flatMap e' ++ out := by
  induction us generalizing before with
  | nil => exact hrest before
  | cons u us ih =>
    obtain ⟨last, hlast⟩ := hblock u (us.flatMap e ++ rest) before
    rw [List.flatMap_cons, List.append_assoc, hlast, ih last, List.flatMap_cons, List.append_assoc]

/-! ### Replacements that may fail, and how long they are -/

/-- What is cut at the matches is the input. -/
theorem flatMap_text_scan (r : Regex α) (n : Nat) (before : Option α) (s : List α) :
    (r.scan n before s).flatMap (Piece.render Match.text) = s.drop n := by
  induction s generalizing n before with
  | nil =>
    cases n with
    | zero =>
      cases hm : r.matchAt before [] with
      | none => simp [scan, hm]
      | some m =>
        obtain ⟨rest, hrest, -⟩ := matchAt_sound hm
        obtain ⟨htext, -⟩ := List.append_eq_nil_iff.mp hrest.symm
        simp [scan, hm, Piece.render, htext]
    | succ n => simp [scan]
  | cons x xs ih =>
    cases n with
    | succ n => simpa [scan] using ih n (some x)
    | zero =>
      cases hm : r.matchAt before (x :: xs) with
      | none => simp [scan, hm, Piece.render, ih]
      | some m =>
        obtain ⟨rest, hrest, -⟩ := matchAt_sound hm
        cases hlen : m.text.length with
        | zero => simp [scan, hm, Piece.render, List.eq_nil_of_length_eq_zero hlen, ih]
        | succ n =>
          have hdrop : xs.drop n = rest := by
            rw [← List.drop_succ_cons (a := x), hrest, ← hlen, List.drop_left]
          have hscan : r.scan 0 before (x :: xs) = .hit m :: r.scan n (some x) xs := by
            simp [scan, hm, hlen]
          rw [hscan, List.flatMap_cons, ih, hdrop, List.drop_zero, hrest]
          rfl

theorem accepts_of_hit {n : Nat} (h : .hit m ∈ r.scan n before s) : r.Accepts m.text := by
  induction s generalizing n before with
  | nil =>
    cases n with
    | zero =>
      obtain ⟨m', hm', rfl⟩ : ∃ m', r.matchAt before [] = some m' ∧ m' = m := by
        simpa [scan] using h
      obtain ⟨-, -, haccepts⟩ := matchAt_sound hm'
      exact haccepts
    | succ n => simp [scan] at h
  | cons x xs ih =>
    cases n with
    | succ n => exact ih h
    | zero =>
      cases hm : r.matchAt before (x :: xs) with
      | none => exact ih (by simpa [scan, hm] using h)
      | some m' =>
        obtain ⟨-, -, haccepts⟩ := matchAt_sound hm
        cases hlen : m'.text.length with
        | zero =>
          rcases (by simpa [scan, hm, hlen] using h : m = m' ∨ Piece.hit m ∈ _) with rfl | hrest
          · exact haccepts
          · exact ih hrest
        | succ n =>
          rcases (by simpa [scan, hm, hlen] using h : m = m' ∨ Piece.hit m ∈ _) with rfl | hrest
          · exact haccepts
          · exact ih hrest

variable {g : Match α → Except ε (List α)} {t : List α} {p : α → Bool}

/-- Each piece that is replaced by something lighter makes the whole lighter. -/
theorem countP_replacePieces {ps : List (Piece α)} (h : replacePieces g ps = .ok t)
    (hg : ∀ m y, .hit m ∈ ps → g m = .ok y → y.countP p < m.text.countP p) :
    t.countP p + (ps.filterMap Piece.hit?).length ≤
      (ps.flatMap (Piece.render Match.text)).countP p := by
  induction ps generalizing t with
  | nil =>
    obtain rfl : [] = t := by simpa [replacePieces] using h
    simp
  | cons q ps ih =>
    have hrest : ∀ m y, .hit m ∈ ps → g m = .ok y → y.countP p < m.text.countP p :=
      fun m y hm => hg m y (List.mem_cons_of_mem q hm)
    cases q with
    | lit x =>
      cases hps : replacePieces g ps with
      | error err => simp [replacePieces, hps, Except.map] at h
      | ok u =>
        obtain rfl : x :: u = t := by simpa [replacePieces, hps, Except.map] using h
        have hle := ih hps hrest
        simp only [List.filterMap_cons_none (show (Piece.lit x).hit? = none by rfl),
          List.flatMap_cons, Piece.render, List.singleton_append, List.countP_cons]
        omega
    | hit m =>
      cases hm : g m with
      | error err => simp [replacePieces, hm, Except.bind] at h
      | ok y =>
        cases hps : replacePieces g ps with
        | error err => simp [replacePieces, hm, hps, Except.bind, Except.map] at h
        | ok u =>
          obtain rfl : y ++ u = t := by
            simpa [replacePieces, hm, hps, Except.bind, Except.map] using h
          have hlt := hg m y List.mem_cons_self hm
          have hle := ih hps hrest
          simp only [List.filterMap_cons_some (show (Piece.hit m).hit? = some m by rfl),
            List.flatMap_cons, Piece.render, List.countP_append, List.length_cons]
          omega

theorem replacePieces_of_hits_eq_nil {ps : List (Piece α)} (h : ps.filterMap Piece.hit? = []) :
    replacePieces g ps = .ok (ps.flatMap (Piece.render Match.text)) := by
  induction ps with
  | nil => rfl
  | cons q ps ih =>
    cases q with
    | lit x => simp [replacePieces, Piece.render, Except.map, ih h]
    | hit m => cases h

theorem replacePieces_ok (f : Match α → List α) (ps : List (Piece α)) :
    replacePieces (fun m => .ok (f m)) ps =
      (.ok (ps.flatMap (Piece.render f)) : Except ε (List α)) := by
  induction ps with
  | nil => rfl
  | cons q ps ih =>
    cases q with
    | lit x => simp [replacePieces, Piece.render, Except.map, ih]
    | hit m => simp [replacePieces, Piece.render, Except.bind, Except.map, ih]

theorem replaceM_of_hits_eq_nil (h : r.hits s = []) : r.replaceM g s = .ok s := by
  rw [replaceM, replacePieces_of_hits_eq_nil h, pieces, flatMap_text_scan, List.drop_zero]

/-- Where every match is replaced by something lighter, the result is lighter, or nothing matched. -/
theorem countP_replaceM (h : r.replaceM g s = .ok t)
    (hg : ∀ m y, r.Accepts m.text → g m = .ok y → y.countP p < m.text.countP p) :
    t.countP p ≤ s.countP p ∧ (s.countP p ≤ t.countP p → r.hits s = []) := by
  have hle := countP_replacePieces h fun m y hm => hg m y (accepts_of_hit hm)
  rw [pieces, flatMap_text_scan, List.drop_zero] at hle
  refine ⟨by omega, fun hback => List.length_eq_zero_iff.mp ?_⟩
  unfold hits pieces
  omega

theorem replace_of_hits_eq_nil (h : r.hits s = []) : r.replace f s = s := by
  have hok : r.replaceM (fun m => .ok (f m)) s = (.ok s : Except Unit (List α)) :=
    replaceM_of_hits_eq_nil h
  exact Except.ok.inj ((replacePieces_ok f _).symm.trans hok)

theorem countP_replace (hf : ∀ m, r.Accepts m.text → (f m).countP p < m.text.countP p) :
    (r.replace f s).countP p ≤ s.countP p ∧
      (s.countP p ≤ (r.replace f s).countP p → r.hits s = []) := by
  have hok : r.replaceM (fun m => .ok (f m)) s = (.ok (r.replace f s) : Except Unit (List α)) :=
    replacePieces_ok f _
  refine countP_replaceM hok fun m y hm hy => ?_
  obtain rfl := Except.ok.inj hy
  exact hf m hm

/-! ### Replacing a unit, and a literal -/

/-- The pattern of one text. -/
def literal [DecidableEq α] (a : List α) : Regex α := chain (a.map fun u => .unit (· = u))

variable [DecidableEq α] {a : List α}

theorem results_literal_append (a rest : List α) (before : Option α) (captured : Option (List α)) :
    ∃ last, (literal a).results ⟨before, a ++ rest, captured⟩ = [⟨last, rest, captured⟩] := by
  induction a generalizing before with
  | nil => exact ⟨before, rfl⟩
  | cons x xs ih =>
    cases xs with
    | nil => exact ⟨some x, by simp [literal, chain, results]⟩
    | cons y ys =>
      obtain ⟨last, hlast⟩ := ih (some x)
      refine ⟨last, ?_⟩
      rw [← hlast]
      simp [literal, chain, results]

theorem accepts_literal {s : List α} (h : (literal a).Accepts s) : s = a := by
  rw [literal, ← Function.comp_def, ← List.map_map] at h
  have hall := accepts_units h
  rw [List.forall₂_map_left_iff] at hall
  simp only [decide_eq_true_eq] at hall
  clear h
  induction hall with
  | nil => rfl
  | cons hx _ ih => rw [hx, ih]

/-- A literal matches where it stands. -/
theorem matchAt_literal (a rest : List α) (before : Option α) :
    (literal a).matchAt before (a ++ rest) = some ⟨a, none⟩ := by
  obtain ⟨last, hlast⟩ := results_literal_append a rest before none
  simp [matchAt, hlast, Cursor.upTo]

theorem renders_literal (ha : a ≠ []) (rest : List α) (before : Option α) :
    ∃ last, (literal a).renders f before (a ++ rest) =
      f ⟨a, none⟩ ++ (literal a).renders f last rest :=
  renders_hit (m := ⟨a, none⟩) (matchAt_literal a rest before) ha

theorem matchAt_literal_eq_none (h : ¬ a <+: s) : (literal a).matchAt before s = none := by
  cases hm : (literal a).matchAt before s with
  | none => rfl
  | some m =>
    obtain ⟨rest, hs, haccepts⟩ := matchAt_sound hm
    refine absurd ⟨rest, ?_⟩ h
    rw [hs, accepts_literal haccepts]

/-- A literal is found exactly in the texts that contain it. -/
theorem hits_literal_eq_nil : (literal a).hits s = [] ↔ ¬ a <:+: s := by
  rw [hits_eq_nil]
  constructor
  · rintro h ⟨pre, post, rfl⟩
    have hnone := h pre (a ++ post) (List.append_assoc ..)
    rw [matchAt_literal] at hnone
    cases hnone
  · rintro h pre post rfl
    refine matchAt_literal_eq_none fun hstart => h ?_
    exact hstart.isInfix.trans (List.suffix_append pre post).isInfix

/-- A unit that is replaced everywhere. -/
theorem replace_unit (x : α) (b : List α) (s : List α) :
    (literal [x]).replace (fun _ => b) s = s.flatMap fun y => if y = x then b else [y] := by
  have hnil : ∀ before, (literal [x]).matchAt before [] = none := by
    intro before
    exact matchAt_literal_eq_none (by simp)
  have hblock : ∀ y rest before, ∃ last, (literal [x]).renders (fun _ => b) before ([y] ++ rest) =
      (if y = x then b else [y]) ++ (literal [x]).renders (fun _ => b) last rest := by
    intro y rest before
    by_cases hy : y = x
    · subst hy
      rw [if_pos rfl]
      exact renders_literal (by simp) rest before
    · rw [if_neg hy]
      refine ⟨some y, renders_miss (matchAt_literal_eq_none ?_)⟩
      rintro ⟨t, ht⟩
      exact hy (List.cons.inj ht).1.symm
  have hflat := renders_flatMap hblock (fun before => renders_nil (hnil before)) s none
  simpa [replace_eq_renders] using hflat

omit [DecidableEq α] in
/-- The units of a class are replaced where they stand. -/
theorem replace_class (p : α → Bool) (g : Match α → List α) (s : List α) :
    (Regex.unit p).replace g s = s.flatMap fun x => if p x then g ⟨[x], none⟩ else [x] := by
  have hrenders : ∀ before, (Regex.unit p).renders g before s =
      s.flatMap fun x => if p x then g ⟨[x], none⟩ else [x] := by
    induction s with
    | nil =>
      intro before
      simp [renders, scan, matchAt, results]
    | cons x xs ih =>
      intro before
      rw [List.flatMap_cons, ← ih (some x)]
      by_cases h : p x = true
      · simp [renders, scan, matchAt, results, Cursor.upTo, Piece.render, h]
      · simp [renders, scan, matchAt, results, Piece.render, h]
  exact hrenders none

end LivelierBridge.Framework.Regex
