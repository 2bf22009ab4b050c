import LivelierBridge.Framework.RegexCut

namespace LivelierBridge.Framework.Regex

universe u v

variable {α : Type u} {ε : Type v} {r : Regex α} {f : Match α → List α}
  {g : Match α → Except ε (List α)} {a b s t v w : List α} {c : α}

instance (place : Nat × Nat) (edge : Nat) : Decidable (Reaches place edge) :=
  inferInstanceAs (Decidable (_ ∧ _))

/-- No match reaches over either end of the middle part. -/
def Parts (r : Regex α) (a t b : List α) : Prop :=
  ∀ p ∈ places 0 (r.pieces (a ++ t ++ b)),
    ¬Reaches p a.length ∧ ¬Reaches p (a.length + t.length)

instance (r : Regex α) (a t b : List α) : Decidable (r.Parts a t b) :=
  inferInstanceAs (Decidable (∀ p ∈ _, _))

/-- Then the three parts are searched one by one. -/
theorem pieces_parts (hr : r.Local) (hnil : ¬r.Accepts []) (h : r.Parts a t b) :
    r.pieces (a ++ t ++ b) = r.pieces a ++ r.pieces t ++ r.pieces b := by
  have hright := pieces_append hr hnil (a ++ t) b fun p hp => by
    rw [List.length_append]
    exact (h p hp).2
  rw [hright, pieces_append hr hnil a t]
  intro p hp
  refine (h p ?_).1
  rw [hright, places_append]
  exact List.mem_append_left _ hp

theorem replace_parts (hr : r.Local) (hnil : ¬r.Accepts []) (h : r.Parts a t b) :
    r.replace f (a ++ t ++ b) = r.replace f a ++ r.replace f t ++ r.replace f b := by
  simp only [replace_eq_renders, renders]
  have hpieces := pieces_parts hr hnil h
  unfold pieces at hpieces
  rw [hpieces, List.flatMap_append, List.flatMap_append]

/-! ### What a replacement keeps -/

theorem pieces_of_hits_eq_nil (h : r.hits s = []) : r.pieces s = s.map .lit := by
  have hlits : ∀ ps : List (Piece α), ps.filterMap Piece.hit? = [] → ps = (joined ps).map .lit := by
    intro ps
    induction ps with
    | nil => exact fun _ => rfl
    | cons p ps ih =>
      intro hps
      cases p with
      | lit x => rw [joined_lit, List.map_cons, ← ih hps]
      | hit m => cases hps
  have hall := hlits (r.pieces s) h
  rwa [joined_pieces] at hall

/-- A text that lacks what every match has. -/
theorem hits_eq_nil_of_lacks (hr : ∀ s, r.Accepts s → c ∈ s) (hc : c ∉ s) : r.hits s = [] := by
  apply hits_eq_nil.mpr
  rintro pre post rfl
  cases hm : r.matchAt pre.getLast? post with
  | none => rfl
  | some m =>
    obtain ⟨rest, rfl, haccepts⟩ := matchAt_sound hm
    refine absurd ?_ hc
    simp [hr m.text haccepts]

/-- A unit that no match has parts what stands before it from what stands after it. -/
theorem pieces_avoids (hr : r.Local) (hnil : ¬r.Accepts []) (hc : ∀ s, r.Accepts s → c ∉ s)
    (a b : List α) : r.pieces (a ++ c :: b) = r.pieces a ++ .lit c :: r.pieces b := by
  have hmiss : r.matchAt none (c :: b) = none := by
    cases hm : r.matchAt none (c :: b) with
    | none => rfl
    | some m =>
      obtain ⟨rest, hrest, haccepts⟩ := matchAt_sound hm
      cases htext : m.text with
      | nil => exact absurd (htext ▸ haccepts) hnil
      | cons x xs =>
        rw [htext, List.cons_append] at hrest
        refine absurd ?_ (hc m.text haccepts)
        rw [htext, (List.cons.inj hrest).1]
        exact List.mem_cons_self
  rw [pieces_append hr hnil a (c :: b), pieces_miss hr hmiss]
  intro p hp hreach
  obtain ⟨pre, m, post, hpieces, rfl⟩ := exists_of_mem_places hp
  have hhit : .hit m ∈ r.scan 0 none (a ++ c :: b) := by
    show .hit m ∈ r.pieces (a ++ c :: b)
    simp [hpieces]
  have haccepts : r.Accepts m.text := accepts_of_hit hhit
  have hjoined := joined_pieces r (a ++ c :: b)
  rw [hpieces, joined_append, joined_hit] at hjoined
  obtain ⟨hlow, hhigh⟩ := hreach
  simp only [Nat.zero_add] at hlow hhigh
  -- the unit stands within the match
  have hget : (joined pre ++ (m.text ++ joined post))[a.length]? = some c := by
    rw [hjoined]
    simp
  rw [List.getElem?_append_right (Nat.le_of_lt hlow), List.getElem?_append_left (by omega)] at hget
  exact hc m.text haccepts (List.mem_of_getElem? hget)

theorem pieces_fenced (hr : r.Local) (hnil : ¬r.Accepts []) (hc : ∀ s, r.Accepts s → c ∉ s)
    (hw : r.hits w = []) (a b : List α) :
    r.pieces (a ++ (c :: w ++ [c]) ++ b) =
      r.pieces a ++ (c :: w ++ [c]).map .lit ++ r.pieces b := by
  have hshape : a ++ (c :: w ++ [c]) ++ b = a ++ c :: (w ++ c :: b) := by simp
  rw [hshape, pieces_avoids hr hnil hc, pieces_avoids hr hnil hc, pieces_of_hits_eq_nil hw]
  simp

theorem replacePieces_append {ps qs : List (Piece α)} (h : replacePieces g (ps ++ qs) = .ok t) :
    ∃ x y, t = x ++ y ∧ replacePieces g ps = .ok x ∧ replacePieces g qs = .ok y := by
  induction ps generalizing t with
  | nil => exact ⟨[], t, rfl, rfl, h⟩
  | cons p ps ih =>
    cases p with
    | lit x =>
      cases hrest : replacePieces g (ps ++ qs) with
      | error err => simp [replacePieces, hrest, Except.map] at h
      | ok u =>
        obtain rfl : x :: u = t := by simpa [replacePieces, hrest, Except.map] using h
        obtain ⟨y, z, rfl, hy, hz⟩ := ih hrest
        exact ⟨x :: y, z, rfl, by simp [replacePieces, hy, Except.map], hz⟩
    | hit m =>
      cases hm : g m with
      | error err => simp [replacePieces, hm, Except.bind] at h
      | ok x =>
        cases hrest : replacePieces g (ps ++ qs) with
        | error err => simp [replacePieces, hm, hrest, Except.bind, Except.map] at h
        | ok u =>
          obtain rfl : x ++ u = t := by
            simpa [replacePieces, hm, hrest, Except.bind, Except.map] using h
          obtain ⟨y, z, rfl, hy, hz⟩ := ih hrest
          exact ⟨x ++ y, z, (List.append_assoc ..).symm,
            by simp [replacePieces, hm, hy, Except.bind, Except.map], hz⟩

theorem replacePieces_lits (s : List α) : replacePieces g (s.map .lit) = .ok s := by
  induction s with
  | nil => rfl
  | cons x xs ih => simp [replacePieces, ih, Except.map]

/-- A text between two units that no match has stays where nothing in it matches. -/
theorem infix_replaceM (hr : r.Local) (hnil : ¬r.Accepts []) (hc : ∀ s, r.Accepts s → c ∉ s)
    (hw : r.hits w = []) (hs : c :: w ++ [c] <:+: s) (ht : r.replaceM g s = .ok t) :
    c :: w ++ [c] <:+: t := by
  obtain ⟨a, b, rfl⟩ := hs
  rw [replaceM, pieces_fenced hr hnil hc hw] at ht
  obtain ⟨x, y, rfl, hx, -⟩ := replacePieces_append ht
  obtain ⟨x', v, rfl, -, hv⟩ := replacePieces_append hx
  rw [replacePieces_lits] at hv
  obtain rfl := Except.ok.inj hv
  exact ⟨x', y, rfl⟩

theorem infix_replace (hr : r.Local) (hnil : ¬r.Accepts []) (hc : ∀ s, r.Accepts s → c ∉ s)
    (hw : r.hits w = []) (hs : c :: w ++ [c] <:+: s) : c :: w ++ [c] <:+: r.replace f s := by
  have hok : r.replaceM (fun m => .ok (f m)) s = (.ok (r.replace f s) : Except Unit (List α)) :=
    replacePieces_ok f _
  exact infix_replaceM hr hnil hc hw hs hok

/-! ### What a match captures -/

theorem unit_sound {p : α → Bool} {e d : Cursor α} (h : d ∈ (Regex.unit p).results e) :
    ∃ x, e.rest = x :: d.rest ∧ p x = true ∧ d.captured = e.captured := by
  cases hrest : e.rest with
  | nil => simp [results, hrest] at h
  | cons x xs =>
    simp only [results, hrest] at h
    split_ifs at h with hx
    · obtain rfl := List.mem_singleton.mp h
      exact ⟨x, rfl, hx, rfl⟩
    · cases h

theorem group_sound {e d : Cursor α} (h : d ∈ (Regex.group r).results e) :
    ∃ x, e.rest = x ++ d.rest ∧ r.Accepts x ∧ d.captured = some x := by
  obtain ⟨d', hd', rfl⟩ := List.mem_map.mp h
  obtain ⟨x, hrest, haccepts⟩ := results_sound hd'
  refine ⟨x, hrest, haccepts, ?_⟩
  have hlen : e.rest.length - d'.rest.length = x.length := by
    rw [hrest, List.length_append]
    omega
  show some (e.rest.take (e.rest.length - d'.rest.length)) = some x
  rw [hlen, hrest, List.take_left]

/-- A match of a search is the match at some place of the input. -/
theorem exists_matchAt_of_hit {m : Match α} {n : Nat} {before : Option α}
    (h : .hit m ∈ r.scan n before s) :
    ∃ pre post, s = pre ++ post ∧ r.matchAt (pre.getLast?.or before) post = some m := by
  induction s generalizing n before with
  | nil =>
    cases n with
    | zero =>
      obtain ⟨m', hm', rfl⟩ : ∃ m', r.matchAt before [] = some m' ∧ m' = m := by
        simpa [scan] using h
      exact ⟨[], [], rfl, hm'⟩
    | succ n => simp [scan] at h
  | cons x xs ih =>
    have hrest : ∀ k, .hit m ∈ r.scan k (some x) xs → ∃ pre post, x :: xs = pre ++ post ∧
        r.matchAt (pre.getLast?.or before) post = some m := by
      intro k hk
      obtain ⟨pre, post, rfl, hm⟩ := ih hk
      refine ⟨x :: pre, post, rfl, ?_⟩
      simpa [List.getLast?_cons] using hm
    cases n with
    | succ n => exact hrest n h
    | zero =>
      cases hm : r.matchAt before (x :: xs) with
      | none => exact hrest 0 (by simpa [scan, hm] using h)
      | some m' =>
        have hhere : m = m' → ∃ pre post, x :: xs = pre ++ post ∧
            r.matchAt (pre.getLast?.or before) post = some m := by
          rintro rfl
          exact ⟨[], x :: xs, rfl, hm⟩
        cases hlen : m'.text.length with
        | zero =>
          rcases (by simpa [scan, hm, hlen] using h : m = m' ∨ Piece.hit m ∈ _) with heq | hin
          · exact hhere heq
          · exact hrest 0 hin
        | succ n =>
          rcases (by simpa [scan, hm, hlen] using h : m = m' ∨ Piece.hit m ∈ _) with heq | hin
          · exact hhere heq
          · exact hrest n hin

theorem exists_matchAt_of_firstMatch {m : Match α} (h : r.firstMatch s = some m) :
    ∃ pre post, s = pre ++ post ∧ r.matchAt pre.getLast? post = some m := by
  obtain ⟨p, hp, hhit⟩ := List.mem_filterMap.mp (List.mem_of_head? h)
  cases p with
  | lit x => cases hhit
  | hit m' =>
    obtain rfl := Option.some.inj hhit
    obtain ⟨pre, post, hs, hm⟩ := exists_matchAt_of_hit hp
    exact ⟨pre, post, hs, by simpa using hm⟩

end LivelierBridge.Framework.Regex
