import LivelierBridge.Content.Pipeline
import LivelierBridge.Owncast.HtmlEscape

namespace LivelierBridge.Owncast

open Framework Js Content

/-! ### The source -/

/-- `/^https?:\/\/\S+$/i` -/
def webUrlRe : Regex UInt16 :=
  .chain [.start, textI "http", .opt (textI "s"), text "://", .many1 fun u => !isSpace u, .stop]

section Source

variable {ν : Type}

/-- A whitespace-free web URL, and nothing else. -/
def webUrl? (url : Option (Json ν)) : Option JsString :=
  match url with
  | some (.str s) => if (webUrlRe.firstMatch s).isSome then some s else none
  | none | some .null | some (.bool _) | some (.num _) | some (.arr _) | some (.obj _) => none

/-- `typeof v === 'string'` -/
def string? (v : Option (Json ν)) : Option JsString :=
  match v with
  | some (.str s) => some s
  | none | some .null | some (.bool _) | some (.num _) | some (.arr _) | some (.obj _) => none

/-- `escapeText` of a value of any type; only a string has a `replace`. -/
def escapeValue : Json ν → Except Thrown JsString
  | .str s => .ok (escapeText s)
  | .null | .bool _ | .num _ | .arr _ | .obj _ => .error .typeError

def anchor (href : JsString) (label : Json ν) : Except Thrown JsString :=
  (escapeValue label).map fun text =>
    js "<a href=\"" ++ escapeText href ++ js "\">" ++ text ++ js "</a>"

/-- One of the instance's own emoji. -/
def emojiImg (src : JsString) (alt : Json ν) : Except Thrown JsString :=
  (escapeValue alt).map fun text =>
    js "<img src=\"" ++ escapeText src ++ js "\" class=\"emoji\" alt=\"" ++ text ++
      js "\" title=\"" ++ text ++ js "\"/>"

variable (npubEncode : JsString → Option JsString) (instanceEmojiByUrl : OrderedMap JsString JsString)

/-- The HTML of one token. -/
def tokenHtml (token : ContentToken ν) : Except Thrown JsString :=
  let plain := escapeValue token.value
  if token.type = js "url" then
    match webUrl? (optionalProp token.metadata (js "url")) with
    | some url => anchor url token.value
    | none => plain
  else if token.type = js "mention" then
    match (string? (optionalProp token.metadata (js "pubkey"))).bind npubEncode with
    | some npub =>
      match anchor (js "https://njump.me/" ++ npub) token.value with
      | .ok html => .ok html
      | .error _ => plain
    | none => plain
  else if token.type = js "emoji" then
    match webUrl? (optionalProp token.metadata (js "imageUrl")) with
    | some imageUrl =>
      match (instanceEmojiByUrl.get? imageUrl).filter (· ≠ []) with
      | some localPath => emojiImg localPath token.value
      | none => anchor imageUrl token.value
    | none => plain
  else plain

/-- Render a processed-content token stream as Owncast chat HTML. -/
def tokensToOwncastHtml (tokens : List (ContentToken ν)) : Except Thrown JsString :=
  (tokens.mapM (tokenHtml npubEncode instanceEmojiByUrl)).map fun body =>
    js "<p>" ++ body.flatten ++ js "</p>"

end Source

/-! ### The grammar -/

def escaped (s : JsString) : JsString := s.flatMap (escapeUnit ESCAPES_BR)

/-- `http` or `https`, `://`, and more; no space anywhere. -/
def IsWebUrl (s : JsString) : Prop :=
  (∃ scheme rest, s = scheme ++ js "://" ++ rest ∧ rest ≠ [] ∧
      (toLowerCase scheme = js "http" ∨ toLowerCase scheme = js "https")) ∧
    ∀ u ∈ s, isSpace u = false

/-- What stands in the place of one token. -/
inductive Item where
  | text (value : JsString)
  | link (url value : JsString)
  | image (src value : JsString)

def Item.html : Item → JsString
  | .text value => escaped value
  | .link url value => js "<a href=\"" ++ escaped url ++ js "\">" ++ escaped value ++ js "</a>"
  | .image src value =>
    js "<img src=\"" ++ escaped src ++ js "\" class=\"emoji\" alt=\"" ++ escaped value ++
      js "\" title=\"" ++ escaped value ++ js "\"/>"

/-- An item of a token: its value, a web URL, an image that the instance has for its URL. -/
def ItemOf {ν : Type} (instanceEmojiByUrl : OrderedMap JsString JsString) (token : ContentToken ν) :
    Item → Prop
  | .text value => token.value = .str value
  | .link url value => token.value = .str value ∧ IsWebUrl url
  | .image src value => token.value = .str value ∧
      ∃ url, optionalProp token.metadata (js "imageUrl") = some (.str url) ∧
        instanceEmojiByUrl.get? url = some src

/-! ### The tags of a text -/

/-- Where a reader of HTML is; the tag read so far is held backwards. -/
inductive Markup where
  | text
  | tag (acc : JsString)
  | quoted (acc : JsString)

/-- Read one unit: `<` opens a tag, `>` ends it but for inside an attribute's quotes. -/
def markupStep : Markup × List JsString → UInt16 → Markup × List JsString
  | (.text, tags), u => if u = 60 then (.tag [60], tags) else (.text, tags)
  | (.tag acc, tags), u =>
    if u = 62 then (.text, tags ++ [(62 :: acc).reverse])
    else if u = 34 then (.quoted (34 :: acc), tags)
    else (.tag (u :: acc), tags)
  | (.quoted acc, tags), u =>
    if u = 34 then (.tag (34 :: acc), tags) else (.quoted (u :: acc), tags)

def readMarkup (m : Markup × List JsString) (html : JsString) : Markup × List JsString :=
  html.foldl markupStep m

/-- The line breaks of an escaped text are its tags. -/
def lineBreaks (s : JsString) : List JsString := List.replicate (s.count 10) (js "<br/>")

def Item.tags : Item → List JsString
  | .text value => lineBreaks value
  | .link url value =>
    (js "<a href=\"" ++ escaped url ++ js "\">") :: lineBreaks value ++ [js "</a>"]
  | .image src value => [(Item.image src value).html]

theorem readMarkup_append (m : Markup × List JsString) (s t : JsString) :
    readMarkup m (s ++ t) = readMarkup (readMarkup m s) t := List.foldl_append

theorem readMarkup_text {s : JsString} (h : 60 ∉ s) (tags : List JsString) :
    readMarkup (.text, tags) s = (.text, tags) := by
  induction s with
  | nil => rfl
  | cons u s ih =>
    obtain ⟨hu, hs⟩ : u ≠ 60 ∧ 60 ∉ s := by simpa [eq_comm] using h
    rw [readMarkup, List.foldl_cons, markupStep, if_neg hu]
    exact ih hs

theorem readMarkup_quoted {s : JsString} (h : 34 ∉ s) (acc : JsString) (tags : List JsString) :
    readMarkup (.quoted acc, tags) s = (.quoted (s.reverse ++ acc), tags) := by
  induction s generalizing acc with
  | nil => rfl
  | cons u s ih =>
    obtain ⟨hu, hs⟩ : u ≠ 34 ∧ 34 ∉ s := by simpa [eq_comm] using h
    rw [readMarkup, List.foldl_cons, markupStep, if_neg hu, List.reverse_cons, List.append_assoc]
    exact ih hs (u :: acc)

theorem quote_not_mem_escaped (s : JsString) : 34 ∉ escaped s := by
  have hkeys : ∀ u ∈ ESCAPES_BR.map Prod.fst, 34 ∉ escapeUnit ESCAPES_BR u :=
    List.all_iff_forall_prop.mp (by decide)
  intro h
  obtain ⟨u, -, hu⟩ := List.mem_flatMap.mp h
  by_cases hspecial : u ∈ ESCAPES_BR.map Prod.fst
  · exact hkeys u hspecial hu
  · rw [escapeUnit_of_not_mem hspecial] at hu
    obtain rfl := List.mem_singleton.mp hu
    exact hspecial (by decide)

/-- An escaped text opens no tag but its line breaks. -/
theorem readMarkup_escaped (s : JsString) (tags : List JsString) :
    readMarkup (.text, tags) (escaped s) = (.text, tags ++ lineBreaks s) := by
  induction s generalizing tags with
  | nil => simp [escaped, lineBreaks, readMarkup]
  | cons u s ih =>
    have hcons : escaped (u :: s) = escapeUnit ESCAPES_BR u ++ escaped s := rfl
    rw [hcons, readMarkup_append]
    by_cases hu : u = 10
    · subst hu
      have hbr : readMarkup (.text, tags) (escapeUnit ESCAPES_BR 10) =
          (.text, tags ++ [js "<br/>"]) := rfl
      rw [hbr, ih, lineBreaks, lineBreaks, List.count_cons_self, List.replicate_succ,
        List.append_assoc]
      rfl
    · have hsame : escapeUnit ESCAPES_BR u = escapeUnit ESCAPES u := by
        simp [escapeUnit, ESCAPES_BR, List.lookup_cons, beq_false_of_ne hu]
      rw [hsame, readMarkup_text (lt_not_mem_escapeUnit u), ih, lineBreaks, lineBreaks,
        List.count_cons_of_ne hu]

theorem readMarkup_tag {s : JsString} (hgt : 62 ∉ s) (hquote : 34 ∉ s) (acc : JsString)
    (tags : List JsString) : readMarkup (.tag acc, tags) s = (.tag (s.reverse ++ acc), tags) := by
  induction s generalizing acc with
  | nil => rfl
  | cons u s ih =>
    obtain ⟨hu, hs⟩ : u ≠ 62 ∧ 62 ∉ s := by simpa [eq_comm] using hgt
    obtain ⟨hu', hs'⟩ : u ≠ 34 ∧ 34 ∉ s := by simpa [eq_comm] using hquote
    rw [readMarkup, List.foldl_cons, markupStep, if_neg hu, if_neg hu', List.reverse_cons,
      List.append_assoc]
    exact ih hs hs' (u :: acc)

/-- An attribute of a tag: what is written in its quotes does not close them. -/
def attrText (name value : JsString) : JsString := name ++ 34 :: escaped value ++ [34]

theorem readMarkup_attribute {name : JsString} (hgt : 62 ∉ name) (hquote : 34 ∉ name)
    (value acc : JsString) (tags : List JsString) :
    readMarkup (.tag acc, tags) (attrText name value) =
      (.tag ((attrText name value).reverse ++ acc), tags) := by
  have hopen : readMarkup (.tag (name.reverse ++ acc), tags) [34] =
      (.quoted (34 :: (name.reverse ++ acc)), tags) := rfl
  have hclose : ∀ acc, readMarkup (.quoted acc, tags) [34] = (.tag (34 :: acc), tags) :=
    fun _ => rfl
  have hcut : attrText name value = name ++ [34] ++ escaped value ++ [34] := by
    simp [attrText]
  rw [hcut, readMarkup_append, readMarkup_append, readMarkup_append, readMarkup_tag hgt hquote,
    hopen, readMarkup_quoted (quote_not_mem_escaped value), hclose]
  simp

/-- The tags of an item are the ones of its form, whatever its values hold. -/
theorem readMarkup_item (item : Item) (tags : List JsString) :
    readMarkup (.text, tags) item.html = (.text, tags ++ item.tags) := by
  have hopen : ∀ tags, readMarkup (.text, tags) [60] = (.tag [60], tags) := fun _ => rfl
  have hend : ∀ acc tags, readMarkup (.tag acc, tags) [62] =
      (.text, tags ++ [(62 :: acc).reverse]) := fun _ _ => rfl
  cases item with
  | text value => exact readMarkup_escaped value tags
  | link url value =>
    have hcut : js "<a href=\"" ++ escaped url ++ js "\">" =
        [60] ++ attrText (js "a href=") url ++ [62] := by
      have hstart : js "<a href=\"" = 60 :: (js "a href=" ++ [34]) := by decide
      have hstop : js "\">" = [34, 62] := by decide
      simp [attrText, hstart, hstop]
    have hlink : readMarkup (.text, tags) (js "<a href=\"" ++ escaped url ++ js "\">") =
        (.text, tags ++ [js "<a href=\"" ++ escaped url ++ js "\">"]) := by
      rw [hcut, readMarkup_append, readMarkup_append, hopen,
        readMarkup_attribute (by decide) (by decide), hend]
      simp
    have hclose : ∀ tags, readMarkup (.text, tags) (js "</a>") = (.text, tags ++ [js "</a>"]) :=
      fun _ => rfl
    rw [Item.html, readMarkup_append, readMarkup_append, hlink, readMarkup_escaped, hclose,
      Item.tags]
    simp
  | image src value =>
    have hcut : (Item.image src value).html = [60] ++ attrText (js "img src=") src ++
        attrText (js " class=") (js "emoji") ++ attrText (js " alt=") value ++
          attrText (js " title=") value ++ [47] ++ [62] := by
      have hstart : js "<img src=\"" = 60 :: (js "img src=" ++ [34]) := by decide
      have hclass : js "\" class=\"emoji\" alt=\"" =
          34 :: (js " class=" ++ 34 :: escaped (js "emoji") ++ 34 :: (js " alt=" ++ [34])) := by
        decide
      have htitle : js "\" title=\"" = 34 :: (js " title=" ++ [34]) := by decide
      have hstop : js "\"/>" = [34, 47, 62] := by decide
      simp [Item.html, attrText, hstart, hclass, htitle, hstop]
    have hslash : ∀ acc tags, readMarkup (.tag acc, tags) [47] = (.tag (47 :: acc), tags) :=
      fun _ _ => rfl
    rw [Item.tags, hcut]
    simp only [readMarkup_append]
    rw [hopen, readMarkup_attribute (by decide) (by decide),
      readMarkup_attribute (by decide) (by decide), readMarkup_attribute (by decide) (by decide),
      readMarkup_attribute (by decide) (by decide), hslash, hend]
    simp

theorem readMarkup_items (items : List Item) (tags : List JsString) :
    readMarkup (.text, tags) (items.flatMap Item.html) = (.text, tags ++ items.flatMap Item.tags) := by
  induction items generalizing tags with
  | nil => simp [readMarkup]
  | cons item items ih =>
    rw [List.flatMap_cons, readMarkup_append, readMarkup_item, ih, List.flatMap_cons,
      List.append_assoc]

/-! ### The tokens -/

section Tokens

variable {ν : Type} {npubEncode : JsString → Option JsString}
  {instanceEmojiByUrl : OrderedMap JsString JsString}

theorem escapeText_eq_escaped (s : JsString) : escapeText s = escaped s := escapeText_eq_flatMap s

/-- A literal that matches either case, in lower case. -/
theorem toLowerCase_of_accepts {a : String} {s : JsString} (h : (textI a).Accepts s)
    (ha : ∀ u ∈ js a, toLowerCase [u] = [u] ∧ toLowerCase [u - 32] = [u]) :
    toLowerCase s = js a := by
  have hall := accepts_textI h
  clear h
  generalize js a = units at ha hall
  induction hall with
  | nil => rfl
  | @cons u v us vs huv _ ih =>
    obtain ⟨⟨hsame, hupper⟩, ha⟩ := List.forall_mem_cons.mp ha
    have hv : toLowerCase [v] = [u] := by
      rcases huv with rfl | ⟨-, rfl⟩
      · exact hsame
      · exact hupper
    have hcons : toLowerCase (v :: vs) = toLowerCase [v] ++ toLowerCase vs := rfl
    rw [hcons, hv, ih ha]
    rfl

theorem no_space_of_accepts {a : String} {s : JsString} (h : (textI a).Accepts s)
    (ha : ∀ u ∈ js a, isSpace u = false ∧ isSpace (u - 32) = false) : ∀ u ∈ s, isSpace u = false := by
  have hall := accepts_textI h
  clear h
  generalize js a = units at ha hall
  induction hall with
  | nil => simp
  | @cons u v us vs huv _ ih =>
    obtain ⟨⟨hsame, hupper⟩, ha⟩ := List.forall_mem_cons.mp ha
    refine List.forall_mem_cons.mpr ⟨?_, ih ha⟩
    rcases huv with rfl | ⟨-, rfl⟩
    · exact hsame
    · exact hupper

/-- What passes for a web URL is one. -/
theorem isWebUrl_of_test {url : JsString} (h : (webUrlRe.firstMatch url).isSome = true) :
    IsWebUrl url := by
  have haccepts : (Regex.chain ([textI "http", .opt (textI "s"), text "://",
      .many1 fun u => !isSpace u] ++ [.stop])).Accepts url := Regex.accepts_of_anchored h
  obtain ⟨http, r₁, rfl, hhttp, h₁⟩ := Regex.accepts_chain_cons haccepts
  obtain ⟨s, r₂, rfl, hs, h₂⟩ := Regex.accepts_chain_cons h₁
  obtain ⟨colon, r₃, rfl, hcolon, h₃⟩ := Regex.accepts_chain_cons h₂
  obtain ⟨rest, r₄, rfl, ⟨c, cs, rfl, ⟨u, rfl, hu⟩, hcs⟩, h₄⟩ := Regex.accepts_chain_cons h₃
  obtain rfl : r₄ = [] := h₄
  obtain rfl := accepts_text hcolon
  have hlower := toLowerCase_of_accepts hhttp (List.all_iff_forall_prop.mp (by decide))
  have hspace := no_space_of_accepts hhttp (List.all_iff_forall_prop.mp (by decide))
  have hscheme : (toLowerCase (http ++ s) = js "http" ∨ toLowerCase (http ++ s) = js "https") ∧
      ∀ u ∈ s, isSpace u = false := by
    rcases hs with rfl | hs
    · rw [List.append_nil]
      exact ⟨.inl hlower, by simp⟩
    · have hmap : toLowerCase (http ++ s) = toLowerCase http ++ toLowerCase s := List.map_append
      rw [hmap, hlower, toLowerCase_of_accepts hs (List.all_iff_forall_prop.mp (by decide))]
      exact ⟨.inr (by decide), no_space_of_accepts hs (List.all_iff_forall_prop.mp (by decide))⟩
  refine ⟨⟨http ++ s, [u] ++ cs, by simp, by simp, hscheme.1⟩, ?_⟩
  intro v hv
  have hcolonSpace : ∀ v ∈ js "://", isSpace v = false :=
    List.all_iff_forall_prop.mp (by decide)
  have hcases : v ∈ http ∨ v ∈ s ∨ v ∈ js "://" ∨ v = u ∨ v ∈ cs := by simpa using hv
  rcases hcases with hv | hv | hv | rfl | hv
  · exact hspace v hv
  · exact hscheme.2 v hv
  · exact hcolonSpace v hv
  · simpa using hu
  · simpa using hcs v hv

theorem isWebUrl_of_webUrl? {v : Option (Json ν)} {url : JsString} (h : webUrl? v = some url) :
    v = some (.str url) ∧ IsWebUrl url := by
  unfold webUrl? at h
  split at h
  · split_ifs at h with htest
    obtain rfl := Option.some.inj h
    exact ⟨rfl, isWebUrl_of_test htest⟩
  all_goals cases h

/-- A lower-case letter or a digit. -/
def isBech32Unit (u : UInt16) : Bool := (97 ≤ u && u ≤ 122) || isDigit u

theorem isSpace_of_isBech32Unit {u : UInt16} (h : isBech32Unit u = true) : isSpace u = false := by
  have hrange : (97 ≤ u ∧ u ≤ 122) ∨ (48 ≤ u ∧ u ≤ 57) := by
    simpa [isBech32Unit, isDigit] using h
  rcases hrange with ⟨hlow, hhigh⟩ | ⟨hlow, hhigh⟩
  · exact isSpace_of_visible (UInt16.lt_of_lt_of_le (by decide) hlow)
      (UInt16.lt_of_le_of_lt hhigh (by decide))
  · exact isSpace_of_visible (UInt16.lt_of_lt_of_le (by decide) hlow)
      (UInt16.lt_of_le_of_lt hhigh (by decide))

theorem isWebUrl_njump {npub : JsString} (h : ∀ u ∈ npub, isBech32Unit u = true) :
    IsWebUrl (js "https://njump.me/" ++ npub) := by
  have hhost : js "https://njump.me/" = js "https" ++ js "://" ++ js "njump.me/" := by decide
  have hspace : ∀ u ∈ js "https://njump.me/", isSpace u = false :=
    List.all_iff_forall_prop.mp (by decide)
  refine ⟨⟨js "https", js "njump.me/" ++ npub, ?_, ?_, .inr (by decide)⟩, ?_⟩
  · rw [hhost, List.append_assoc]
  · exact List.append_ne_nil_of_left_ne_nil (by decide) npub
  · intro u hu
    rcases List.mem_append.mp hu with hu | hu
    · exact hspace u hu
    · exact isSpace_of_isBech32Unit (h u hu)

theorem anchor_str (url value : JsString) :
    anchor url (.str value : Json ν) = .ok (Item.link url value).html := by
  simp [anchor, escapeValue, Except.map, Item.html, escapeText_eq_escaped]

theorem emojiImg_str (src value : JsString) :
    emojiImg src (.str value : Json ν) = .ok (Item.image src value).html := by
  simp [emojiImg, escapeValue, Except.map, Item.html, escapeText_eq_escaped]

/-- Each token with a string value becomes one item. -/
theorem itemOf_token {token : ContentToken ν} {value : JsString} (hvalue : token.value = .str value)
    (hnpub : ∀ p npub, npubEncode p = some npub → ∀ u ∈ npub, isBech32Unit u = true) :
    ∃ item, ItemOf instanceEmojiByUrl token item ∧
      tokenHtml npubEncode instanceEmojiByUrl token = .ok item.html := by
  have hplain : escapeValue token.value = .ok (Item.text value).html := by
    rw [hvalue, escapeValue, escapeText_eq_escaped]
    rfl
  have htext : ItemOf instanceEmojiByUrl token (.text value) := hvalue
  unfold tokenHtml
  by_cases hurl : token.type = js "url"
  · rw [if_pos hurl]
    cases hweb : webUrl? (optionalProp token.metadata (js "url")) with
    | none => exact ⟨.text value, htext, hplain⟩
    | some url =>
      rw [hvalue]
      exact ⟨.link url value, ⟨hvalue, (isWebUrl_of_webUrl? hweb).2⟩, anchor_str url value⟩
  rw [if_neg hurl]
  by_cases hmention : token.type = js "mention"
  · rw [if_pos hmention]
    cases hpub : (string? (optionalProp token.metadata (js "pubkey"))).bind npubEncode with
    | none => exact ⟨.text value, htext, hplain⟩
    | some npub =>
      obtain ⟨p, -, hp⟩ := Option.bind_eq_some_iff.mp hpub
      rw [hvalue]
      dsimp only
      rw [anchor_str]
      exact ⟨.link _ value, ⟨hvalue, isWebUrl_njump (hnpub p npub hp)⟩, rfl⟩
  rw [if_neg hmention]
  by_cases hemoji : token.type = js "emoji"
  · rw [if_pos hemoji]
    cases hweb : webUrl? (optionalProp token.metadata (js "imageUrl")) with
    | none => exact ⟨.text value, htext, hplain⟩
    | some url =>
      obtain ⟨hmeta, hisWeb⟩ := isWebUrl_of_webUrl? hweb
      dsimp only
      cases hlocal : (instanceEmojiByUrl.get? url).filter (· ≠ []) with
      | none =>
        rw [hvalue]
        exact ⟨.link url value, ⟨hvalue, hisWeb⟩, anchor_str url value⟩
      | some src =>
        rw [hvalue]
        exact ⟨.image src value, ⟨hvalue, url, hmeta, Option.eq_some_of_filter_eq_some hlocal⟩,
          emojiImg_str src value⟩
  · rw [if_neg hemoji]
    exact ⟨.text value, htext, hplain⟩

theorem items_of_tokens {tokens : List (ContentToken ν)}
    (hnpub : ∀ p npub, npubEncode p = some npub → ∀ u ∈ npub, isBech32Unit u = true)
    (hvalues : ∀ token ∈ tokens, ∃ value, token.value = .str value) :
    ∃ items, List.Forall₂ (ItemOf instanceEmojiByUrl) tokens items ∧
      tokens.mapM (tokenHtml npubEncode instanceEmojiByUrl) = .ok (items.map Item.html) := by
  induction tokens with
  | nil => exact ⟨[], .nil, rfl⟩
  | cons token tokens ih =>
    obtain ⟨⟨value, hvalue⟩, hvalues⟩ := List.forall_mem_cons.mp hvalues
    obtain ⟨item, hitem, hhtml⟩ := itemOf_token hvalue hnpub
    obtain ⟨items, hitems, hrest⟩ := ih hvalues
    refine ⟨item :: items, .cons hitem hitems, ?_⟩
    rw [List.mapM_cons, hhtml, hrest]
    rfl

/-- Whatever the tokens and their metadata hold, the HTML is a paragraph of one item for each token,
and its tags are the ones of the items. -/
theorem tokensToOwncastHtml_grammar (npubEncode : JsString → Option JsString)
    (hnpub : ∀ p npub, npubEncode p = some npub → ∀ u ∈ npub, isBech32Unit u = true)
    (instanceEmojiByUrl : OrderedMap JsString JsString) (tokens : List (ContentToken ν))
    (hvalues : ∀ token ∈ tokens, ∃ value, token.value = .str value) :
    ∃ items html, List.Forall₂ (ItemOf instanceEmojiByUrl) tokens items ∧
      tokensToOwncastHtml npubEncode instanceEmojiByUrl tokens = .ok html ∧
      html = js "<p>" ++ items.flatMap Item.html ++ js "</p>" ∧
      readMarkup (.text, []) html =
        (.text, js "<p>" :: items.flatMap Item.tags ++ [js "</p>"]) := by
  obtain ⟨items, hitems, hmap⟩ :=
    items_of_tokens hnpub hvalues
  have hopen : readMarkup (.text, []) (js "<p>") = (.text, [js "<p>"]) := rfl
  have hclose : ∀ tags, readMarkup (.text, tags) (js "</p>") = (.text, tags ++ [js "</p>"]) :=
    fun _ => rfl
  refine ⟨items, _, hitems, ?_, rfl, ?_⟩
  · rw [tokensToOwncastHtml, hmap]
    simp [Except.map, List.flatMap_def]
  · rw [readMarkup_append, readMarkup_append, hopen, readMarkup_items, hclose]
    rfl

/-- A script as a text, an address with another scheme, and a mention. -/
def hostileTokens : List (ContentToken Int) :=
  [⟨js "text", .str (js "<script>\"'&"), none⟩,
    ⟨js "url", .str (js "a\nb"), some (.obj [(js "url", .str (js "javascript:alert(1)"))])⟩,
    ⟨js "mention", .str (js "@bob"), some (.obj [(js "pubkey", .str (js "p1"))])⟩]

theorem tokensToOwncastHtml_grammar_hostile :
    ∃ items html, List.Forall₂ (ItemOf .empty) hostileTokens items ∧
      tokensToOwncastHtml (fun _ => some (js "npub1x")) .empty hostileTokens = .ok html ∧
      html = js "<p>" ++ items.flatMap Item.html ++ js "</p>" ∧
      readMarkup (.text, []) html =
        (.text, js "<p>" :: items.flatMap Item.tags ++ [js "</p>"]) := by
  refine tokensToOwncastHtml_grammar _ ?_ .empty hostileTokens ?_
  · rintro p npub h
    obtain rfl := Option.some.inj h
    exact List.all_iff_forall_prop.mp (by decide)
  · intro token htoken
    simp only [hostileTokens, List.mem_cons, List.not_mem_nil, or_false] at htoken
    rcases htoken with rfl | rfl | rfl
    · exact ⟨_, rfl⟩
    · exact ⟨_, rfl⟩
    · exact ⟨_, rfl⟩

end Tokens

end LivelierBridge.Owncast
