import LivelierBridge.Js.Replace
import LivelierBridge.Owncast.Html

namespace LivelierBridge.Owncast

open Framework Js

/-! ### The source -/

def escapeText (s : JsString) : JsString :=
  let ampersands := (text "&").replace (fun _ => js "&amp;") s
  let less := (text "<").replace (fun _ => js "&lt;") ampersands
  let greater := (text ">").replace (fun _ => js "&gt;") less
  let quotes := (text "\"").replace (fun _ => js "&quot;") greater
  let apostrophes := (text "'").replace (fun _ => js "&#39;") quotes
  (text "\n").replace (fun _ => js "<br/>") apostrophes

/-- Escape untrusted text and wrap for Owncast chat display. -/
def textToOwncastHtml (s : JsString) : JsString := js "<p>" ++ escapeText s ++ js "</p>"

/-! ### Unit by unit -/

/-- What each unit of a table is written as; the others stay. -/
def escapeUnit (table : List (UInt16 × JsString)) (u : UInt16) : JsString :=
  (table.lookup u).getD [u]

/-- The units that are escaped, in the order the decoder takes their entities. -/
def ESCAPES : List (UInt16 × JsString) :=
  [(38, js "&amp;"), (60, js "&lt;"), (62, js "&gt;"), (34, js "&quot;"), (39, js "&#39;")]

/-- The escaping, with the line break. -/
def ESCAPES_BR : List (UInt16 × JsString) := (10, js "<br/>") :: ESCAPES

theorem escapeUnit_of_not_mem {table : List (UInt16 × JsString)} {u : UInt16}
    (h : u ∉ table.map Prod.fst) : escapeUnit table u = [u] := by
  have hlookup : table.lookup u = none := by
    rw [List.lookup_eq_none_iff]
    intro e he
    rw [bne_iff_ne]
    rintro rfl
    exact h (List.mem_map_of_mem he)
  rw [escapeUnit, hlookup]
  rfl

/-- The six replacements one after the other escape each unit once. -/
theorem escapeText_eq_flatMap (s : JsString) : escapeText s = s.flatMap (escapeUnit ESCAPES_BR) := by
  have hliteral : ∀ (c : UInt16) (a : String), js a = [c] → text a = Regex.literal [c] := by
    intro c a h
    rw [← h]
    rfl
  unfold escapeText
  rw [hliteral 38 "&" (by decide), hliteral 60 "<" (by decide), hliteral 62 ">" (by decide),
    hliteral 34 "\"" (by decide), hliteral 39 "'" (by decide), hliteral 10 "\n" (by decide)]
  simp only [Regex.replace_unit, List.flatMap_assoc]
  congr 1
  funext u
  by_cases hspecial : u ∈ ESCAPES_BR.map Prod.fst
  · revert u
    exact List.all_iff_forall_prop.mp (by decide)
  · obtain ⟨h10, h38, h60, h62, h34, h39⟩ :
        u ≠ 10 ∧ u ≠ 38 ∧ u ≠ 60 ∧ u ≠ 62 ∧ u ≠ 34 ∧ u ≠ 39 := by
      simpa [ESCAPES_BR, ESCAPES] using hspecial
    rw [escapeUnit_of_not_mem hspecial]
    simp [h10, h38, h60, h62, h34, h39]

/-! ### The tags -/

/-- No unit is escaped to a tag. -/
theorem lt_not_mem_escapeUnit (u : UInt16) : 60 ∉ escapeUnit ESCAPES u := by
  by_cases hspecial : u ∈ ESCAPES.map Prod.fst
  · revert u
    exact List.all_iff_forall_prop.mp (by decide)
  · rw [escapeUnit_of_not_mem hspecial]
    rintro h
    obtain rfl := List.mem_singleton.mp h
    exact hspecial (by decide)

section Tags

variable {r : Regex UInt16} {f : Regex.Match UInt16 → JsString}

/-- What the pattern accepts begins with `<` and one of the units after it. -/
def OpensWith (r : Regex UInt16) (after : UInt16 → Prop) : Prop :=
  ∀ s, r.Accepts s → ∃ u t, s = 60 :: u :: t ∧ after u

theorem OpensWith.matchAt_eq_none {after : UInt16 → Prop} (h : OpensWith r after)
    {s : JsString} (hs : ∀ u t, s = 60 :: u :: t → ¬ after u) (before : Option UInt16) :
    r.matchAt before s = none := by
  cases hm : r.matchAt before s with
  | none => rfl
  | some m =>
    obtain ⟨rest, hrest, haccepts⟩ := Regex.matchAt_sound hm
    obtain ⟨u, t, htext, hu⟩ := h _ haccepts
    exact absurd hu (hs u (t ++ rest) (by rw [hrest, htext]; rfl))

/-- An escaped unit has no tag in it. -/
theorem OpensWith.escaped {after : UInt16 → Prop} (h : OpensWith r after) (u : UInt16)
    (rest : JsString) (before : Option UInt16) :
    ∃ last, r.renders f before (escapeUnit ESCAPES u ++ rest) =
      escapeUnit ESCAPES u ++ r.renders f last rest := by
  refine Regex.renders_pass _ (fun before x hx xs => h.matchAt_eq_none ?_ before) before rest
  rintro v t heq
  obtain ⟨rfl, -⟩ := List.cons.inj heq
  exact absurd hx (lt_not_mem_escapeUnit u)

/-- A tag that the pattern does not match stays. -/
theorem OpensWith.stays {after : UInt16 → Prop} (h : OpensWith r after) (t rest : JsString)
    {before : Option UInt16} (hmiss : r.matchAt before (60 :: (t ++ rest)) = none)
    (ht : 60 ∉ t) : ∃ last, r.renders f before (60 :: t ++ rest) =
      60 :: t ++ r.renders f last rest := by
  have hpass : ∀ before, ∀ x ∈ t, ∀ xs, r.matchAt before (x :: xs) = none := by
    intro before x hx xs
    refine h.matchAt_eq_none ?_ before
    rintro v t' heq
    obtain ⟨rfl, -⟩ := List.cons.inj heq
    exact absurd hx ht
  obtain ⟨last, hlast⟩ := Regex.renders_pass (f := f) t hpass (some 60) rest
  refine ⟨last, ?_⟩
  rw [List.cons_append, Regex.renders_miss hmiss, hlast]
  rfl

theorem OpensWith.renders_nil {after : UInt16 → Prop} (h : OpensWith r after)
    (before : Option UInt16) : r.renders f before [] = [] :=
  Regex.renders_nil (h.matchAt_eq_none (by simp) before)

/-- The paragraph's own tags stay when the pattern takes no tag of their names. -/
theorem OpensWith.opening {after : UInt16 → Prop} (h : OpensWith r after) (hp : ¬ after 112)
    (rest : JsString) (before : Option UInt16) :
    ∃ last, r.renders f before (js "<p>" ++ rest) = js "<p>" ++ r.renders f last rest := by
  refine h.stays [112, 62] rest (h.matchAt_eq_none ?_ before) (by decide)
  rintro u t heq
  obtain ⟨rfl, -⟩ := List.cons.inj (List.cons.inj heq).2
  exact hp

theorem OpensWith.closing {after : UInt16 → Prop} (h : OpensWith r after)
    (hmiss : ∀ before, r.matchAt before (js "</p>") = none) (before : Option UInt16) :
    r.renders f before (js "</p>") = js "</p>" := by
  obtain ⟨last, hlast⟩ := h.stays (f := f) [47, 112, 62] [] (hmiss before) (by decide)
  rw [h.renders_nil last] at hlast
  exact hlast

/-- A pass over a paragraph of escaped units. -/
theorem replace_paragraph {e e' : UInt16 → JsString} (opening : JsString) {closing : JsString}
    (hblock : ∀ u rest before,
      ∃ last, r.renders f before (e u ++ rest) = e' u ++ r.renders f last rest)
    (hopen : ∀ rest before,
      ∃ last, r.renders f before (js "<p>" ++ rest) = opening ++ r.renders f last rest)
    (hclose : ∀ before, r.renders f before (js "</p>") = closing) (s : JsString) :
    r.replace f (js "<p>" ++ s.flatMap e ++ js "</p>") = opening ++ s.flatMap e' ++ closing := by
  obtain ⟨last, hlast⟩ := hopen (s.flatMap e ++ js "</p>") none
  rw [Regex.replace_eq_renders, List.append_assoc, hlast,
    Regex.renders_flatMap hblock hclose s last, List.append_assoc]

end Tags

theorem accepts_text {a : String} {s : JsString} (h : (text a).Accepts s) : s = js a :=
  Regex.accepts_literal h

theorem accepts_textI {a : String} {s : JsString} (h : (textI a).Accepts s) :
    List.Forall₂ (fun u v => v = u ∨ (97 ≤ u ∧ u ≤ 122) ∧ v = u - 32) (js a) s := by
  rw [textI, ← Function.comp_def, ← List.map_map] at h
  have hall := Regex.accepts_units h
  rw [List.forall₂_map_left_iff] at hall
  exact hall.imp fun u v huv => by simpa using huv

/-- A tag in either case, by the unit after its `<`. -/
theorem textI_tag {a : String} {d : UInt16} {ds s : JsString} (ha : js a = 60 :: d :: ds)
    (h : (textI a).Accepts s) :
    ∃ u t, s = 60 :: u :: t ∧ (u = d ∨ (97 ≤ d ∧ d ≤ 122) ∧ u = d - 32) := by
  have hall := accepts_textI h
  rw [ha] at hall
  obtain ⟨x, xs, hx, hxs, rfl⟩ := List.forall₂_cons_left_iff.mp hall
  obtain ⟨u, t, hu, -, rfl⟩ := List.forall₂_cons_left_iff.mp hxs
  obtain rfl : x = 60 := by
    rcases hx with rfl | ⟨⟨hle, -⟩, -⟩
    · rfl
    · exact absurd hle (by decide)
  exact ⟨u, t, rfl, hu⟩

theorem brRe_opensWith : OpensWith brRe fun u => u = 98 ∨ u = 66 := by
  intro s h
  obtain ⟨a, b, rfl, ha, -⟩ := Regex.accepts_chain_cons h
  obtain ⟨u, t, rfl, hu⟩ := textI_tag (show js "<br" = [60, 98, 114] by decide) ha
  exact ⟨u, t ++ b, rfl, hu.imp id fun hu => hu.2⟩

theorem paragraphRe_opensWith : OpensWith paragraphRe fun u => u = 47 := by
  intro s h
  obtain ⟨a, b, rfl, ha, -⟩ := Regex.accepts_chain_cons h
  obtain ⟨u, t, rfl, hu⟩ := textI_tag (show js "</p>" = [60, 47, 112, 62] by decide) ha
  refine ⟨u, t ++ b, rfl, ?_⟩
  rcases hu with rfl | ⟨⟨hle, -⟩, -⟩
  · rfl
  · exact absurd hle (by decide)

theorem imgAltRe_opensWith : OpensWith imgAltRe fun u => u = 105 ∨ u = 73 := by
  intro s h
  obtain ⟨a, b, rfl, ha, -⟩ := Regex.accepts_chain_cons h
  obtain ⟨u, t, rfl, hu⟩ := textI_tag (show js "<img" = [60, 105, 109, 103] by decide) ha
  exact ⟨u, t ++ b, rfl, hu.imp id fun hu => hu.2⟩

theorem tagRe_opensWith : OpensWith tagRe fun _ => True := by
  intro s h
  obtain ⟨a, b, rfl, ha, hb⟩ := Regex.accepts_chain_cons h
  obtain ⟨c, d, rfl, ⟨u, v, rfl, ⟨x, rfl, -⟩, -⟩, -⟩ := Regex.accepts_chain_cons hb
  obtain rfl := accepts_text ha
  exact ⟨x, v ++ d, rfl, trivial⟩

/-- The line breaks come back. -/
theorem brRe_paragraph (s : JsString) :
    brRe.replace (fun _ => js "\n") (js "<p>" ++ s.flatMap (escapeUnit ESCAPES_BR) ++ js "</p>") =
      js "<p>" ++ s.flatMap (escapeUnit ESCAPES) ++ js "</p>" := by
  have hmiss : ∀ before, brRe.matchAt before (js "</p>") = none := fun _ => rfl
  refine replace_paragraph (js "<p>") ?_ (brRe_opensWith.opening (by decide)) (brRe_opensWith.closing hmiss) s
  intro u rest before
  by_cases hu : u = 10
  · subst hu
    have hbr : brRe.matchAt before (js "<br/>" ++ rest) = some ⟨js "<br/>", none⟩ :=
      Regex.matchAt_of_head (d := ⟨some 62, rest, none⟩) rfl
    exact Regex.renders_hit (m := ⟨js "<br/>", none⟩) hbr (by decide)
  · have hsame : escapeUnit ESCAPES_BR u = escapeUnit ESCAPES u := by
      simp [escapeUnit, ESCAPES_BR, List.lookup_cons, beq_false_of_ne hu]
    rw [hsame]
    exact brRe_opensWith.escaped u rest before

/-- There is one paragraph. -/
theorem paragraphRe_paragraph (s : JsString) :
    paragraphRe.replace (fun _ => js "\n") (js "<p>" ++ s.flatMap (escapeUnit ESCAPES) ++ js "</p>") =
      js "<p>" ++ s.flatMap (escapeUnit ESCAPES) ++ js "</p>" :=
  replace_paragraph _ paragraphRe_opensWith.escaped (paragraphRe_opensWith.opening (by decide))
    (paragraphRe_opensWith.closing fun _ => rfl) s

/-- There is no image. -/
theorem imgAltRe_paragraph (s : JsString) :
    imgAltRe.replace (fun m => m.captured.getD [])
        (js "<p>" ++ s.flatMap (escapeUnit ESCAPES) ++ js "</p>") =
      js "<p>" ++ s.flatMap (escapeUnit ESCAPES) ++ js "</p>" :=
  replace_paragraph _ imgAltRe_opensWith.escaped (imgAltRe_opensWith.opening (by decide))
    (imgAltRe_opensWith.closing fun _ => rfl) s

/-- The paragraph's own tags go. -/
theorem tagRe_paragraph (s : JsString) :
    tagRe.replace (fun _ => []) (js "<p>" ++ s.flatMap (escapeUnit ESCAPES) ++ js "</p>") =
      s.flatMap (escapeUnit ESCAPES) := by
  have hopen : ∀ before rest, tagRe.matchAt before (js "<p>" ++ rest) = some ⟨js "<p>", none⟩ :=
    fun before rest => Regex.matchAt_of_head (d := ⟨some 62, rest, none⟩) rfl
  have hclose : ∀ before, tagRe.matchAt before (js "</p>" ++ []) = some ⟨js "</p>", none⟩ :=
    fun before => Regex.matchAt_of_head (d := ⟨some 62, [], none⟩) rfl
  have hend : ∀ before, tagRe.renders (fun _ => []) before (js "</p>") = [] := by
    intro before
    obtain ⟨last, hlast⟩ := Regex.renders_hit (f := fun _ => []) (m := ⟨js "</p>", none⟩)
      (hclose before) (by decide)
    rw [tagRe_opensWith.renders_nil last] at hlast
    exact hlast
  have hparagraph := replace_paragraph [] tagRe_opensWith.escaped
    (fun rest before => Regex.renders_hit (m := ⟨js "<p>", none⟩) (hopen before rest) (by decide))
    hend s
  simpa using hparagraph

/-- Without its tags, what is sent is the text with its units escaped but for the line breaks. -/
theorem stripTags_textToOwncastHtml (s : JsString) :
    stripTags (textToOwncastHtml s) = s.flatMap (escapeUnit ESCAPES) := by
  rw [textToOwncastHtml, escapeText_eq_flatMap, stripTags, brRe_paragraph, paragraphRe_paragraph,
    imgAltRe_paragraph, tagRe_paragraph]

end LivelierBridge.Owncast
