import LivelierBridge.Framework.RegexSearch

namespace LivelierBridge.Framework.Regex

universe u

variable {α : Type u}

/-- Patterns that see nothing but the units they take. -/
def Local : Regex α → Prop
  | .eps | .unit _ | .many _ => True
  | .seq r s | .alt r s => r.Local ∧ s.Local
  | .opt r | .group r => r.Local
  | .start | .stop | .boundary _ => False

theorem local_chain {rs : List (Regex α)} (h : ∀ r ∈ rs, r.Local) : (chain rs).Local := by
  induction rs with
  | nil => trivial
  | cons r rs ih =>
    obtain ⟨hr, hrs⟩ := List.forall_mem_cons.mp h
    cases rs with
    | nil => exact hr
    | cons r' rs => exact ⟨hr, ih hrs⟩

theorem local_literal [DecidableEq α] (a : List α) : (literal a).Local := by
  refine local_chain ?_
  simp [Local]

/-- The same place of a longer input, with `b` behind it. -/
def Extends (b : List α) (d c : Cursor α) : Prop := d.rest = c.rest ++ b ∧ d.captured = c.captured

/-- Whether a place lies before `b` or at its start. -/
def Cursor.holds (b : List α) (d : Cursor α) : Bool := b.length ≤ d.rest.length

/-- The input that pieces are cut from. -/
def joined (ps : List (Piece α)) : List α := ps.flatMap (Piece.render Match.text)

/-- Where the matches stand: from, and to. -/
def places : Nat → List (Piece α) → List (Nat × Nat)
  | _, [] => []
  | o, .lit _ :: ps => places (o + 1) ps
  | o, .hit m :: ps => (o, o + m.text.length) :: places (o + m.text.length) ps

/-- The match there lies on both sides of the edge. -/
def Reaches (place : Nat × Nat) (edge : Nat) : Prop := place.1 < edge ∧ edge < place.2

section Results

variable {r : Regex α} {b : List α} {c d : Cursor α}

theorem Extends.upTo {c' d' : Cursor α} (h : Extends b d c) (h' : Extends b d' c') :
    d.upTo d' = c.upTo c' := by
  have hlen : (c.rest ++ b).length - (c'.rest ++ b).length = c.rest.length - c'.rest.length := by
    simp only [List.length_append]
    omega
  rw [Cursor.upTo, Cursor.upTo, h.1, h'.1, hlen, List.take_append_of_le_length (by omega)]

theorem Extends.holds (h : Extends b d c) : d.holds b = true := by
  simp [Cursor.holds, h.1]

/-- A pattern leads only onwards. -/
theorem length_results (h : d ∈ r.results c) : d.rest.length ≤ c.rest.length := by
  obtain ⟨a, hrest, -⟩ := results_sound h
  rw [hrest, List.length_append]
  omega

theorem filter_results_of_not_holds (h : c.holds b = false) :
    (r.results c).filter (Cursor.holds b) = [] := by
  rw [List.filter_eq_nil_iff]
  intro d hd
  have hlen := length_results hd
  have hshort : ¬ b.length ≤ c.rest.length := by simpa [Cursor.holds] using h
  simp only [Cursor.holds, decide_eq_true_eq]
  omega

theorem filter_flatMap_results (l : List (Cursor α)) :
    (l.flatMap r.results).filter (Cursor.holds b) =
      (l.filter (Cursor.holds b)).flatMap fun d => (r.results d).filter (Cursor.holds b) := by
  induction l with
  | nil => rfl
  | cons d l ih =>
    rw [List.flatMap_cons, List.filter_append, ih]
    cases hd : d.holds b with
    | false => rw [filter_results_of_not_holds hd, List.filter_cons_of_neg (by simp [hd])]; rfl
    | true => rw [List.filter_cons_of_pos hd, List.flatMap_cons]

theorem spans_extends (p : α → Bool) (captured : Option (List α)) (before before' : Option α)
    (s : List α) :
    List.Forall₂ (Extends b) ((spans p captured before (s ++ b)).filter (Cursor.holds b))
      (spans p captured before' s) := by
  induction s generalizing before before' with
  | nil =>
    cases b with
    | nil => exact .cons ⟨rfl, rfl⟩ .nil
    | cons y ys =>
      have hpast : (spans p captured (some y) ys).filter (Cursor.holds (y :: ys)) = [] := by
        exact filter_results_of_not_holds (r := .many p) (c := ⟨some y, ys, captured⟩)
          (by simp [Cursor.holds])
      have hstays : Cursor.holds (y :: ys) ⟨before, y :: ys, captured⟩ = true := by
        simp [Cursor.holds]
      have hall : (spans p captured before (y :: ys)).filter (Cursor.holds (y :: ys)) =
          [⟨before, y :: ys, captured⟩] := by
        rw [spans, List.filter_append]
        split_ifs
        · rw [hpast, List.nil_append, List.filter_cons_of_pos hstays, List.filter_nil]
        · rw [List.filter_nil, List.nil_append, List.filter_cons_of_pos hstays, List.filter_nil]
      rw [List.nil_append, hall]
      exact .cons ⟨rfl, rfl⟩ .nil
  | cons x xs ih =>
    have hhere : Extends b ⟨before, (x :: xs) ++ b, captured⟩ ⟨before', x :: xs, captured⟩ :=
      ⟨rfl, rfl⟩
    rw [List.cons_append, spans, spans, List.filter_append, ← List.cons_append,
      List.filter_cons_of_pos hhere.holds, List.filter_nil]
    refine List.rel_append ?_ (.cons hhere .nil)
    split_ifs
    · exact ih _ _
    · exact .nil

/-- What a local pattern makes of an input it also makes of a longer one, and what more it makes of
that lies behind. -/
theorem results_extends (hr : r.Local) (h : Extends b d c) :
    List.Forall₂ (Extends b) ((r.results d).filter (Cursor.holds b)) (r.results c) := by
  induction r generalizing c d with
  | eps => simpa [results, h.holds] using h
  | unit p =>
    cases hc : c.rest with
    | nil =>
      have hd : d.rest = b := by simpa [hc] using h.1
      have hnone : ((Regex.unit p).results d).filter (Cursor.holds b) = [] := by
        simp only [results, hd]
        cases b with
        | nil => rfl
        | cons y ys =>
          dsimp only
          split_ifs
          · simp [Cursor.holds]
          · rfl
      rw [hnone]
      simp [results, hc]
    | cons x xs =>
      have hd : d.rest = x :: (xs ++ b) := by simpa [hc] using h.1
      simp only [results, hc, hd]
      split_ifs
      · have hnext : Extends b ⟨some x, xs ++ b, d.captured⟩ ⟨some x, xs, c.captured⟩ := ⟨rfl, h.2⟩
        rw [List.filter_cons_of_pos hnext.holds]
        exact .cons hnext .nil
      · exact .nil
  | many p =>
    have hspans := spans_extends (b := b) p c.captured d.before c.before c.rest
    simpa only [results, h.1, h.2] using hspans
  | seq r s ihr ihs =>
    simp only [results]
    rw [filter_flatMap_results]
    exact List.rel_flatMap (ihr hr.1 h) fun _ _ hnext => ihs hr.2 hnext
  | alt r s ihr ihs =>
    simp only [results]
    rw [List.filter_append]
    exact List.rel_append (ihr hr.1 h) (ihs hr.2 h)
  | opt r ih =>
    simp only [results]
    rw [List.filter_append, List.filter_cons_of_pos h.holds]
    exact List.rel_append (ih hr h) (.cons h .nil)
  | group r ih =>
    simp only [results]
    rw [List.filter_map, List.forall₂_map_left_iff, List.forall₂_map_right_iff]
    exact (ih hr h).imp fun d' c' hnext => ⟨hnext.1, congrArg some (h.upTo hnext)⟩
  | start => exact hr.elim
  | stop => exact hr.elim
  | boundary word => exact hr.elim

end Results

section Search

variable {r : Regex α} {a b s : List α} {before before' : Option α} {m : Match α}

/-- A match that ends before `b` does not depend on `b`, nor on what stands before it. -/
theorem matchAt_append (hr : r.Local) (h : r.matchAt before (a ++ b) = some m)
    (hm : m.text.length ≤ a.length) : r.matchAt before' a = some m := by
  obtain ⟨d, hd, rfl⟩ := Option.map_eq_some_iff.mp h
  have hstart : Extends b ⟨before, a ++ b, none⟩ ⟨before', a, none⟩ := ⟨rfl, rfl⟩
  have hall := results_extends hr hstart
  have hholds : d.holds b = true := by
    obtain ⟨t, hrest, -⟩ := results_sound (List.mem_of_head? hd)
    have hlen := congrArg List.length hrest
    simp only [List.length_append] at hlen
    simp only [Cursor.upTo, List.length_take, List.length_append] at hm
    simp only [Cursor.holds, decide_eq_true_eq]
    omega
  obtain ⟨l, hl⟩ := List.head?_eq_some_iff.mp hd
  rw [hl, List.filter_cons_of_pos hholds] at hall
  obtain ⟨c, l', hnext, -, hresults⟩ := List.forall₂_cons_left_iff.mp hall
  simp [matchAt, hresults, hstart.upTo hnext, hnext.2]

/-- Where the longer input has no match, the shorter has none. -/
theorem matchAt_append_none (hr : r.Local) (h : r.matchAt before (a ++ b) = none) :
    r.matchAt before' a = none := by
  have hnil : r.results ⟨before, a ++ b, none⟩ = [] := by simpa [matchAt] using h
  have hall := results_extends (b := b) (d := ⟨before, a ++ b, none⟩) (c := ⟨before', a, none⟩) hr
    ⟨rfl, rfl⟩
  rw [hnil, List.filter_nil] at hall
  simp [matchAt, List.forall₂_nil_left_iff.mp hall]

theorem matchAt_before (hr : r.Local) (before before' : Option α) (s : List α) :
    r.matchAt before s = r.matchAt before' s := by
  cases hm : r.matchAt before s with
  | none => exact (matchAt_append_none (b := []) hr (by rwa [List.append_nil])).symm
  | some m =>
    obtain ⟨rest, hs, -⟩ := matchAt_sound hm
    refine (matchAt_append (b := []) hr (by rwa [List.append_nil]) ?_).symm
    rw [hs, List.length_append]
    omega

theorem scan_before (hr : r.Local) (n : Nat) (before before' : Option α) (s : List α) :
    r.scan n before s = r.scan n before' s := by
  cases s with
  | nil =>
    cases n with
    | zero => rw [scan, scan, matchAt_before hr before before']
    | succ n => rfl
  | cons x xs =>
    cases n with
    | zero => rw [scan, scan, matchAt_before hr before before']
    | succ n => rfl

theorem matchAt_nil (hnil : ¬ r.Accepts []) (before : Option α) : r.matchAt before [] = none := by
  cases hm : r.matchAt before [] with
  | none => rfl
  | some m =>
    obtain ⟨rest, hrest, haccepts⟩ := matchAt_sound hm
    obtain ⟨htext, -⟩ := List.append_eq_nil_iff.mp hrest.symm
    exact absurd (htext ▸ haccepts) hnil

@[simp] theorem pieces_nil (hnil : ¬ r.Accepts []) : r.pieces [] = [] := by
  simp [pieces, scan, matchAt_nil hnil]

/-- The search, one unit or one match at a time. -/
theorem pieces_miss (hr : r.Local) {x : α} {xs : List α} (h : r.matchAt none (x :: xs) = none) :
    r.pieces (x :: xs) = .lit x :: r.pieces xs := by
  rw [pieces, scan_miss h, scan_before hr 0 (some x) none]
  rfl

theorem pieces_hit (hr : r.Local) (h : r.matchAt none (m.text ++ s) = some m) (hm : m.text ≠ []) :
    r.pieces (m.text ++ s) = .hit m :: r.pieces s := by
  obtain ⟨last, hlast⟩ := scan_hit h hm
  rw [pieces, hlast, scan_before hr 0 last none]
  rfl

theorem places_shift (o n : Nat) (ps : List (Piece α)) :
    places (o + n) ps = (places o ps).map fun p => (p.1 + n, p.2 + n) := by
  induction ps generalizing o with
  | nil => rfl
  | cons p ps ih =>
    cases p with
    | lit x =>
      rw [places, places, ← ih]
      congr 1
      omega
    | hit m =>
      rw [places, places, List.map_cons, ← ih]
      congr 2 <;> omega

@[simp] theorem joined_nil : joined ([] : List (Piece α)) = [] := rfl

@[simp] theorem joined_lit (x : α) (ps : List (Piece α)) : joined (.lit x :: ps) = x :: joined ps := rfl

@[simp] theorem joined_hit (m : Match α) (ps : List (Piece α)) :
    joined (.hit m :: ps) = m.text ++ joined ps := rfl

@[simp] theorem joined_append (ps qs : List (Piece α)) : joined (ps ++ qs) = joined ps ++ joined qs :=
  List.flatMap_append

theorem joined_pieces (r : Regex α) (s : List α) : joined (r.pieces s) = s :=
  flatMap_text_scan r 0 none s

theorem places_append (o : Nat) (ps qs : List (Piece α)) :
    places o (ps ++ qs) =
      places o ps ++ places (o + (joined ps).length) qs := by
  induction ps generalizing o with
  | nil => simp [places]
  | cons p ps ih =>
    cases p with
    | lit x => simp [places, ih, Nat.add_assoc, Nat.add_comm 1]
    | hit m => simp [places, ih, Nat.add_assoc]

/-- A match stands in the input, where the pieces say. -/
theorem exists_of_mem_places {o : Nat} {ps : List (Piece α)} {p : Nat × Nat} (h : p ∈ places o ps) :
    ∃ pre m post, ps = pre ++ .hit m :: post ∧
      p = (o + (joined pre).length, o + (joined pre).length + m.text.length) := by
  induction ps generalizing o with
  | nil => cases h
  | cons q ps ih =>
    cases q with
    | lit x =>
      obtain ⟨pre, m, post, rfl, rfl⟩ := ih h
      refine ⟨.lit x :: pre, m, post, rfl, ?_⟩
      simp only [joined_lit, List.length_cons]
      congr 1 <;> omega
    | hit m' =>
      rcases List.mem_cons.mp h with rfl | h
      · exact ⟨[], m', ps, rfl, by simp⟩
      · obtain ⟨pre, m, post, rfl, rfl⟩ := ih h
        refine ⟨.hit m' :: pre, m, post, rfl, ?_⟩
        simp only [joined_hit, List.length_append]
        congr 1 <;> omega

/-- A search that finds nothing across a place is a search before it and one behind it. -/
theorem pieces_append (hr : r.Local) (hnil : ¬ r.Accepts []) (a b : List α)
    (h : ∀ p ∈ places 0 (r.pieces (a ++ b)), ¬ Reaches p a.length) :
    r.pieces (a ++ b) = r.pieces a ++ r.pieces b := by
  induction hn : a.length using Nat.strongRecOn generalizing a with
  | _ n ih =>
    subst hn
    cases a with
    | nil => simp [pieces_nil hnil]
    | cons x xs =>
      cases hm : r.matchAt none (x :: xs ++ b) with
      | none =>
        have hleft : r.matchAt none (x :: xs) = none := matchAt_append_none hr hm
        rw [List.cons_append] at hm h ⊢
        rw [pieces_miss hr hm, places, places_shift] at h
        rw [pieces_miss hr hm, pieces_miss hr hleft, List.cons_append, ih xs.length (by simp) xs ?_ rfl]
        intro p hp hreach
        refine h _ (List.mem_map_of_mem hp) ?_
        simpa [Reaches] using hreach
      | some m =>
        obtain ⟨rest, hrest, haccepts⟩ := matchAt_sound hm
        have hne : m.text ≠ [] := by
          intro htext
          exact hnil (htext ▸ haccepts)
        have hpos : 0 < m.text.length := List.length_pos_iff.mpr hne
        rw [hrest] at hm h ⊢
        rw [pieces_hit hr hm hne, places, places_shift] at h
        have hends : m.text.length ≤ (x :: xs).length := by
          have hfirst := h _ List.mem_cons_self
          simp only [Reaches, Nat.zero_add, List.length_cons] at hfirst ⊢
          omega
        obtain ⟨a', ha'⟩ : m.text <+: x :: xs :=
          List.prefix_of_prefix_length_le ⟨rest, hrest.symm⟩ (List.prefix_append _ _) hends
        rw [← ha'] at hrest h ⊢
        obtain rfl : a' ++ b = rest := by simpa using hrest
        have hleft : r.matchAt none (m.text ++ a') = some m := by
          rw [← List.append_assoc] at hm
          exact matchAt_append hr hm (by simp)
        have hshorter : a'.length < (x :: xs).length := by
          rw [← ha', List.length_append]
          omega
        rw [pieces_hit hr hm hne, pieces_hit hr hleft hne, List.cons_append,
          ih a'.length hshorter a' ?_ rfl]
        intro p hp hreach
        refine h _ (List.mem_cons_of_mem _ (List.mem_map_of_mem hp)) ?_
        simp only [Reaches, List.length_append] at hreach ⊢
        omega

end Search

end LivelierBridge.Framework.Regex
