import LivelierBridge.Framework.RegexParts
import LivelierBridge.Owncast.HtmlRoundTrip

namespace LivelierBridge.Owncast

open Framework Js

/-! ### One image tag -/

/-- What an image tag adds to the emoji: its shortcode and its address. -/
def emojiOf (resolveUrl : ResolveUrl) (instanceUrl img : JsString) : Option (JsString × JsString) :=
  let src := attr "src" img
  let shortcode := ((shortcodeRe.firstMatch (attr "alt" img)).bind Regex.Match.captured).getD []
  if shortcode.isEmpty || src.isEmpty then none
  else
    match resolveUrl src instanceUrl with
    | none => none
    | some url =>
      if url.protocol ≠ js "http:" ∧ url.protocol ≠ js "https:" then none
      else some (shortcode, url.href)

/-- A shortcode as it stands in a text. -/
def coloned (shortcode : JsString) : JsString := 58 :: shortcode ++ [58]

theorem shortcodeRe_sound {alt shortcode : JsString}
    (h : (shortcodeRe.firstMatch alt).bind Regex.Match.captured = some shortcode) :
    alt = coloned shortcode ∧ ∀ u ∈ shortcode, isWord u = true ∨ u = 45 := by
  obtain ⟨m, hm, hcaptured⟩ := Option.bind_eq_some_iff.mp h
  obtain ⟨pre, post, rfl, hmatch⟩ := Regex.exists_matchAt_of_firstMatch hm
  obtain ⟨d, hd, rfl⟩ := Option.map_eq_some_iff.mp hmatch
  have hcolon : text ":" = .unit (· = 58) := by
    have hjs : js ":" = [58] := by decide
    rw [text, hjs]
    rfl
  have hshape : shortcodeRe = .seq .start (.seq (.unit (· = 58))
      (.seq (.group (.many1 fun u => isWord u || u = 45)) (.seq (.unit (· = 58)) .stop))) := by
    rw [shortcodeRe, hcolon]
    rfl
  rw [hshape] at hd
  obtain ⟨c₁, hc₁, hd₁⟩ := List.mem_flatMap.mp (List.mem_of_head? hd)
  obtain ⟨c₂, hc₂, hd₂⟩ := List.mem_flatMap.mp hd₁
  obtain ⟨c₃, hc₃, hd₃⟩ := List.mem_flatMap.mp hd₂
  obtain ⟨c₄, hc₄, hd₄⟩ := List.mem_flatMap.mp hd₃
  have hstart : c₁ ∈ if pre.getLast?.isNone then [⟨pre.getLast?, post, none⟩] else [] := hc₁
  split_ifs at hstart with hnone
  · obtain rfl := List.mem_singleton.mp hstart
    obtain rfl : pre = [] := by simpa using hnone
    obtain ⟨x, hrest, hx, -⟩ := Regex.unit_sound hc₂
    obtain ⟨code, hcode, haccepts, hgroup⟩ := Regex.group_sound hc₃
    obtain ⟨y, hlast, hy, hkeep⟩ := Regex.unit_sound hc₄
    have hstop : d ∈ if c₄.rest.isEmpty then [c₄] else [] := hd₄
    split_ifs at hstop with hempty
    · obtain rfl := List.mem_singleton.mp hstop
      obtain rfl : code = shortcode := by
        rw [hkeep, hgroup] at hcaptured
        exact Option.some.inj hcaptured
      have hnil : d.rest = [] := List.isEmpty_iff.mp hempty
      have hpost : post = x :: (code ++ y :: d.rest) := by rw [← hlast, ← hcode, ← hrest]
      obtain rfl : x = 58 := by simpa using hx
      obtain rfl : y = 58 := by simpa using hy
      refine ⟨by rw [List.nil_append, hpost, hnil]; rfl, fun u hu => ?_⟩
      obtain ⟨z, zs, rfl, ⟨z', rfl, hz⟩, hzs⟩ := haccepts
      rcases List.mem_append.mp hu with hu | hu
      · obtain rfl := List.mem_singleton.mp hu
        simpa using hz
      · simpa using hzs u hu
    · cases hstop
  · cases hstart

theorem emojiOf_sound {resolveUrl : ResolveUrl} {instanceUrl img shortcode href : JsString}
    (h : emojiOf resolveUrl instanceUrl img = some (shortcode, href)) :
    attr "alt" img = coloned shortcode ∧ (∀ u ∈ shortcode, isWord u = true ∨ u = 45) ∧
      ∃ url, resolveUrl (attr "src" img) instanceUrl = some url ∧ url.href = href ∧
        (url.protocol = js "http:" ∨ url.protocol = js "https:") := by
  unfold emojiOf at h
  dsimp only at h
  split_ifs at h with hempty
  split at h
  · cases h
  · rename_i url hurl
    split_ifs at h with hprotocol
    obtain ⟨hcode, rfl⟩ := Prod.mk.inj (Option.some.inj h)
    have hfound : (shortcodeRe.firstMatch (attr "alt" img)).bind Regex.Match.captured =
        some shortcode := by
      cases hbind : (shortcodeRe.firstMatch (attr "alt" img)).bind Regex.Match.captured with
      | none => simp [hbind] at hempty
      | some code =>
        rw [hbind] at hcode
        exact congrArg some hcode
    obtain ⟨halt, hword⟩ := shortcodeRe_sound hfound
    refine ⟨halt, hword, url, hurl, rfl, ?_⟩
    by_cases hhttp : url.protocol = js "http:"
    · exact .inl hhttp
    · exact .inr (by_contra fun hhttps => hprotocol ⟨hhttp, hhttps⟩)

/-! ### The body -/

theorem seeImg_eq (resolveUrl : ResolveUrl) (instanceUrl : JsString)
    (seen : OrderedMap JsString JsString) (img : JsString) :
    seeImg resolveUrl instanceUrl seen img =
      match emojiOf resolveUrl instanceUrl img with
      | none => seen
      | some e => if seen.has e.1 then seen else seen.set e.1 e.2 := by
  unfold seeImg emojiOf
  dsimp only
  cases hempty : ((shortcodeRe.firstMatch (attr "alt" img)).bind
      Regex.Match.captured).getD [] with
  | nil => rfl
  | cons u us =>
    cases hsrc : attr "src" img with
    | nil => simp
    | cons v vs =>
      cases resolveUrl (v :: vs) instanceUrl with
      | none => simp
      | some url =>
        by_cases hprotocol : url.protocol ≠ js "http:" ∧ url.protocol ≠ js "https:"
        · simp [hprotocol]
        · simp [hprotocol]

/-- Each emoji of a body is that of one of its image tags. -/
theorem exists_of_extracted {resolveUrl : ResolveUrl} {html instanceUrl : JsString}
    {e : SourceEmoji} (h : e ∈ extractOwncastEmojis resolveUrl html instanceUrl) :
    ∃ m ∈ imgRe.hits html,
      emojiOf resolveUrl instanceUrl m.text = some (e.shortcode, e.imageUrl) := by
  have hfold : ∀ (imgs : List JsString) (seen : OrderedMap JsString JsString)
      (x : JsString × JsString),
      x ∈ (imgs.foldl (seeImg resolveUrl instanceUrl) seen).entries →
      x ∈ seen.entries ∨ ∃ img ∈ imgs, emojiOf resolveUrl instanceUrl img = some x := by
    intro imgs
    induction imgs with
    | nil => exact fun seen x hx => .inl hx
    | cons img imgs ih =>
      intro seen x hx
      rw [List.foldl_cons] at hx
      rcases ih _ x hx with hseen | ⟨img', himg', hx'⟩
      · rw [seeImg_eq] at hseen
        split at hseen
        · exact .inl hseen
        · rename_i e' he'
          split_ifs at hseen
          · exact .inl hseen
          · have hget := ((seen.set e'.1 e'.2).get?_eq_some_iff x.1 x.2).mpr hseen
            rw [OrderedMap.get?_set] at hget
            split_ifs at hget with hkey
            · refine .inr ⟨img, List.mem_cons_self, he'.trans ?_⟩
              exact congrArg some (Prod.ext hkey.symm (Option.some.inj hget))
            · exact .inl ((seen.get?_eq_some_iff x.1 x.2).mp hget)
      · exact .inr ⟨img', List.mem_cons_of_mem img himg', hx'⟩
  obtain ⟨x, hx, rfl⟩ := List.mem_map.mp h
  rcases hfold _ _ x hx with hempty | ⟨img, himg, he⟩
  · cases hempty
  · obtain ⟨m, hm, rfl⟩ := List.mem_map.mp himg
    exact ⟨m, hm, he⟩

/-! ### The passes over a body -/

abbrev Pass := Regex UInt16 × (Regex.Match UInt16 → JsString)

/-- The passes of `stripTags`, in their order. -/
def PASSES : List Pass :=
  [(brRe, fun _ => js "\n"), (paragraphRe, fun _ => js "\n"),
    (imgAltRe, fun m => m.captured.getD []), (tagRe, fun _ => [])]

theorem stripTags_eq_foldl (html : JsString) :
    stripTags html = PASSES.foldl (fun s p => p.1.replace p.2 s) html := rfl

/-- A part of a body stands alone: no pass finds anything that reaches over one of its ends. -/
def Alone : List Pass → JsString → JsString → JsString → Prop
  | [], _, _, _ => True
  | p :: ps, a, t, b =>
    p.1.Parts a t b ∧ Alone ps (p.1.replace p.2 a) (p.1.replace p.2 t) (p.1.replace p.2 b)

instance Alone.decidable : (ps : List Pass) → (a t b : JsString) → Decidable (Alone ps a t b)
  | [], _, _, _ => inferInstanceAs (Decidable True)
  | p :: ps, a, t, b =>
    have : Decidable (Alone ps (p.1.replace p.2 a) (p.1.replace p.2 t) (p.1.replace p.2 b)) :=
      Alone.decidable ps _ _ _
    inferInstanceAs (Decidable (_ ∧ _))

theorem foldl_alone {ps : List Pass} (hps : ∀ p ∈ ps, p.1.Local ∧ ¬p.1.Accepts [])
    {a t b : JsString} (h : Alone ps a t b) :
    ps.foldl (fun s p => p.1.replace p.2 s) (a ++ t ++ b) =
      ps.foldl (fun s p => p.1.replace p.2 s) a ++ ps.foldl (fun s p => p.1.replace p.2 s) t ++
        ps.foldl (fun s p => p.1.replace p.2 s) b := by
  induction ps generalizing a t b with
  | nil => rfl
  | cons p ps ih =>
    obtain ⟨⟨hlocal, hnil⟩, hrest⟩ := List.forall_mem_cons.mp hps
    simp only [List.foldl_cons]
    rw [Regex.replace_parts hlocal hnil h.1]
    exact ih hrest h.2

theorem local_textI (a : String) : (textI a).Local := by
  refine Regex.local_chain ?_
  simp [Regex.Local]

theorem local_text (a : String) : (text a).Local := by
  refine Regex.local_chain ?_
  simp [Regex.Local]

theorem passes_local : ∀ p ∈ PASSES, p.1.Local ∧ ¬p.1.Accepts [] := by
  have hopen {r : Regex UInt16} {after : UInt16 → Prop} (h : OpensWith r after) :
      ¬r.Accepts [] := by
    intro hnil
    obtain ⟨u, t, hcons, -⟩ := h [] hnil
    cases hcons
  intro p hp
  simp only [PASSES, List.mem_cons, List.not_mem_nil, or_false] at hp
  rcases hp with rfl | rfl | rfl | rfl
  · exact ⟨⟨local_textI _, trivial, local_text _, local_text _⟩, hopen brRe_opensWith⟩
  · exact ⟨⟨local_textI _, trivial, local_textI _, trivial, local_text _⟩,
      hopen paragraphRe_opensWith⟩
  · exact ⟨⟨local_textI _, trivial, local_textI _, trivial, local_text _, trivial, local_text _⟩,
      hopen imgAltRe_opensWith⟩
  · exact ⟨⟨local_text _, ⟨trivial, trivial⟩, local_text _⟩, hopen tagRe_opensWith⟩

/-! ### A shortcode in a text -/

section Coloned

variable {shortcode s t : JsString}

/-- The entities and the numeric references have an ampersand, and no colon. -/
theorem infix_decodeEntities {es : List (JsString × JsString)}
    (hes : ∀ e ∈ es, 58 ∉ e.1 ∧ 38 ∈ e.1) (hcode : 38 ∉ shortcode)
    (h : coloned shortcode <:+: s) : coloned shortcode <:+: es.foldl decodeEntity s := by
  induction es generalizing s with
  | nil => exact h
  | cons e es ih =>
    obtain ⟨⟨hcolon, hamp⟩, hes⟩ := List.forall_mem_cons.mp hes
    apply ih hes
    refine Regex.infix_replace (Regex.local_literal e.1) ?_ ?_ ?_ h
    · intro hnil
      rw [← Regex.accepts_literal hnil] at hamp
      cases hamp
    · intro x hx
      rw [Regex.accepts_literal hx]
      exact hcolon
    · apply Regex.hits_eq_nil_of_lacks ?_ hcode
      intro x hx
      rw [Regex.accepts_literal hx]
      exact hamp

theorem numericRe_accepts {x : JsString} (h : numericRe.Accepts x) : 58 ∉ x ∧ 38 ∈ x := by
  obtain ⟨a, y, rfl, ha, hy⟩ := Regex.accepts_chain_cons h
  obtain ⟨ds, b, rfl, ⟨d, ds', rfl, ⟨u, rfl, hu⟩, hds⟩, hb⟩ := Regex.accepts_chain_cons hy
  have hopen : js "&#" = [38, 35] := by decide
  have hclose : js ";" = [59] := by decide
  have hdigit : isDigit 58 = false := by decide
  rw [accepts_text ha, accepts_text hb, hopen, hclose]
  refine ⟨fun hcolon => ?_, by simp⟩
  simp only [List.mem_append, List.mem_cons, List.not_mem_nil, or_false] at hcolon
  rcases hcolon with (h | h) | (rfl | h) | h
  · cases h
  · cases h
  · rw [hdigit] at hu
    cases hu
  · have hmem := hds 58 h
    rw [hdigit] at hmem
    cases hmem
  · cases h

theorem infix_dropWhile_isSpace (h : coloned shortcode <:+: s) :
    coloned shortcode <:+: s.dropWhile isSpace := by
  obtain ⟨a, b, rfl⟩ := h
  induction a with
  | nil =>
    have hkeep : (coloned shortcode ++ b).dropWhile isSpace = coloned shortcode ++ b :=
      List.dropWhile_cons_of_neg (by decide)
    rw [List.nil_append, hkeep]
    exact ⟨[], b, rfl⟩
  | cons u a ih =>
    by_cases hu : isSpace u = true
    · have hdrop : (u :: a ++ coloned shortcode ++ b).dropWhile isSpace =
          (a ++ coloned shortcode ++ b).dropWhile isSpace := List.dropWhile_cons_of_pos hu
      rw [hdrop]
      exact ih
    · have hkeep : (u :: a ++ coloned shortcode ++ b).dropWhile isSpace =
          u :: a ++ coloned shortcode ++ b := List.dropWhile_cons_of_neg hu
      rw [hkeep]
      exact ⟨u :: a, b, rfl⟩

theorem reverse_coloned : (coloned shortcode).reverse = coloned shortcode.reverse := by
  simp [coloned]

theorem infix_trim (h : coloned shortcode <:+: s) : coloned shortcode <:+: trim s := by
  have hleft := infix_dropWhile_isSpace h
  rw [← List.reverse_infix, reverse_coloned] at hleft
  have hright := infix_dropWhile_isSpace hleft
  rw [← List.reverse_infix, reverse_coloned, List.reverse_reverse] at hright
  exact hright

/-- A shortcode that is left of the tags is left in the text. -/
theorem infix_owncastHtmlToText {html : JsString} (hrefs : RefsInRange html)
    (hcode : 38 ∉ shortcode) (h : coloned shortcode <:+: stripTags html) :
    ∃ text, owncastHtmlToText html = .ok text ∧ coloned shortcode <:+: text := by
  obtain ⟨text, htext⟩ := (returns_owncastHtmlToText html).mpr hrefs
  refine ⟨text, htext, ?_⟩
  unfold owncastHtmlToText at htext
  cases hnumeric : decodeNumeric (decodeNamed (stripTags html)) with
  | error thrown =>
    rw [hnumeric] at htext
    cases htext
  | ok t =>
    rw [hnumeric] at htext
    obtain rfl : trim t = text := Except.ok.inj htext
    apply infix_trim
    have hnamed : coloned shortcode <:+: decodeNamed (stripTags html) := by
      rw [decodeNamed_eq_foldl]
      exact infix_decodeEntities (by decide) hcode h
    refine Regex.infix_replaceM ?_ ?_ (fun x hx => (numericRe_accepts hx).1) ?_ hnamed hnumeric
    · exact ⟨local_text _, ⟨trivial, trivial⟩, local_text _⟩
    · intro hnil
      cases (numericRe_accepts hnil).2
    · exact Regex.hits_eq_nil_of_lacks (fun x hx => (numericRe_accepts hx).2) hcode

end Coloned

/-! ### The two readings -/

/-- What stands at a place of a body. -/
def partAt (html : JsString) (place : Nat × Nat) : JsString := (html.take place.2).drop place.1

/-- Some image tag with the shortcode stands alone and is by itself read as its alternative text. -/
def ReadsAs (html shortcode : JsString) : Prop :=
  ∃ place ∈ Regex.places 0 (imgRe.pieces html),
    attr "alt" (partAt html place) = coloned shortcode ∧
      stripTags (partAt html place) = attr "alt" (partAt html place) ∧
      Alone PASSES (html.take place.1) (partAt html place) (html.drop place.2)

instance (html shortcode : JsString) : Decidable (ReadsAs html shortcode) :=
  inferInstanceAs (Decidable (∃ place ∈ _, _ ∧ _ ∧ _))

/-- For each image tag that is an emoji: the numeric references of the body exist, and one of the
tags with that shortcode is read as it. -/
def EmojisRead (resolveUrl : ResolveUrl) (html instanceUrl : JsString) : Prop :=
  ∀ m ∈ imgRe.hits html, ∀ e ∈ (emojiOf resolveUrl instanceUrl m.text).toList,
    RefsInRange html ∧ ReadsAs html e.1

instance (resolveUrl : ResolveUrl) (html instanceUrl : JsString) :
    Decidable (EmojisRead resolveUrl html instanceUrl) :=
  inferInstanceAs (Decidable (∀ m ∈ imgRe.hits html, ∀ e ∈ _, _))

/-- The address of a URL that was parsed: a web URL is written out with its scheme. -/
def Serializes (resolveUrl : ResolveUrl) : Prop :=
  ∀ src base url, resolveUrl src base = some url →
    url.protocol = js "http:" ∨ url.protocol = js "https:" → url.protocol ++ js "//" <+: url.href

/-- The emoji of a body against its text. -/
structure EmojisAgree (resolveUrl : ResolveUrl) (html instanceUrl : JsString) : Prop where
  distinct : ((extractOwncastEmojis resolveUrl html instanceUrl).map SourceEmoji.shortcode).Nodup
  absolute : ∀ e ∈ extractOwncastEmojis resolveUrl html instanceUrl,
    js "http://" <+: e.imageUrl ∨ js "https://" <+: e.imageUrl
  inText : ∀ e ∈ extractOwncastEmojis resolveUrl html instanceUrl,
    ∃ text, owncastHtmlToText html = .ok text ∧ coloned e.shortcode <:+: text

theorem split_place {html : JsString} {place : Nat × Nat}
    (h : place ∈ Regex.places 0 (imgRe.pieces html)) :
    html = html.take place.1 ++ partAt html place ++ html.drop place.2 := by
  obtain ⟨pre, m, post, -, rfl⟩ := Regex.exists_of_mem_places h
  generalize hfrom : 0 + (Regex.joined pre).length = i
  have hhead : (html.take (i + m.text.length)).take i = html.take i := by
    rw [List.take_take]
    congr 1
    omega
  show html = html.take i ++ (html.take (i + m.text.length)).drop i ++
    html.drop (i + m.text.length)
  rw [← hhead, List.take_append_drop, List.take_append_drop]

theorem ReadsAs.infix_stripTags {html shortcode : JsString} (h : ReadsAs html shortcode) :
    coloned shortcode <:+: stripTags html := by
  obtain ⟨place, hplace, halt, hread, halone⟩ := h
  have hsplit := foldl_alone passes_local halone
  rw [← split_place hplace, ← stripTags_eq_foldl, ← stripTags_eq_foldl, ← stripTags_eq_foldl,
    hread, halt] at hsplit
  rw [hsplit]
  exact ⟨_, _, rfl⟩

theorem ampersand_not_mem {shortcode : JsString} (h : ∀ u ∈ shortcode, isWord u = true ∨ u = 45) :
    38 ∉ shortcode := by
  intro hmem
  have hword : isWord 38 = false := by decide
  rcases h 38 hmem with hu | hu
  · rw [hword] at hu
    cases hu
  · cases hu

/-- Where the text pass reads each emoji's tag as the emoji pass does, the emoji are those of the
text. -/
theorem emojisRead_agree {resolveUrl : ResolveUrl} (hurl : Serializes resolveUrl)
    {html instanceUrl : JsString} (h : EmojisRead resolveUrl html instanceUrl) :
    EmojisAgree resolveUrl html instanceUrl := by
  refine ⟨?_, fun e he => ?_, fun e he => ?_⟩
  · unfold extractOwncastEmojis
    rw [List.map_map]
    exact OrderedMap.nodup _
  · obtain ⟨m, -, hemoji⟩ := exists_of_extracted he
    obtain ⟨-, -, url, hresolve, haddress, hprotocol⟩ := emojiOf_sound hemoji
    have hhref := hurl _ _ url hresolve hprotocol
    rw [haddress] at hhref
    rcases hprotocol with hhttp | hhttps
    · rw [hhttp] at hhref
      exact .inl hhref
    · rw [hhttps] at hhref
      exact .inr hhref
  · obtain ⟨m, hm, hemoji⟩ := exists_of_extracted he
    obtain ⟨-, hword, -⟩ := emojiOf_sound hemoji
    obtain ⟨hrefs, hreads⟩ := h m hm (e.shortcode, e.imageUrl) (by simp [hemoji])
    exact infix_owncastHtmlToText hrefs (ampersand_not_mem hword) hreads.infix_stripTags

/-- `new URL` on a path and an origin. -/
def demoUrl : ResolveUrl := fun src base =>
  if js "http://" <+: base ∧ js "/" <+: src then some ⟨js "http:", base ++ src⟩ else none

theorem demoUrl_serializes : Serializes demoUrl := by
  intro src base url h _
  unfold demoUrl at h
  split_ifs at h with hshape
  obtain rfl := Option.some.inj h
  exact hshape.1.trans (List.prefix_append base src)

abbrev demoInstance : JsString := js "http://oc:8080"

theorem emojisRead_agree_demo :
    EmojisAgree demoUrl (js "<p>1 &lt; 2 <img src=\"/a.png\" alt=\":a:\"><br></p>") demoInstance :=
  emojisRead_agree demoUrl_serializes (by decide +kernel)

/-- The text pass takes the last attribute whose name ends in `alt`. -/
theorem emojisAgree_fails :
    ¬EmojisAgree demoUrl (js "<p><img src=\"/a.png\" alt=\":a:\" data-alt=\"b\"></p>")
      demoInstance := by
  intro h
  obtain ⟨text, htext, hinfix⟩ := h.inText ⟨js "a", js "http://oc:8080/a.png"⟩ (by decide +kernel)
  have hread : owncastHtmlToText (js "<p><img src=\"/a.png\" alt=\":a:\" data-alt=\"b\"></p>") =
      .ok (js "b") := by decide +kernel
  obtain rfl := Except.ok.inj (hread.symm.trans htext)
  revert hinfix
  decide

end LivelierBridge.Owncast
