import LivelierBridge.Content.Lossless
import LivelierBridge.Nostr.ProfileRequests
import LivelierBridge.Owncast.TokensHtml

namespace LivelierBridge.Chat

open Framework Js Nostr Content Owncast

variable {ν σ : Type}

/-! ### The source -/

structure RenderedContent (ν : Type) where
  text : JsString
  tokens : Option (List (ContentToken ν))

/-- What a token shows as plain text: a link its target, and everything else its value. -/
def plainValue (token : ContentToken ν) : Json ν :=
  if token.type = js "url" then
    match string? (optionalProp token.metadata (js "url")) with
    | some url => .str url
    | none => token.value
  else token.value

variable [JsNumber ν]

def renderTokensToText (tokens : List (ContentToken ν)) : Except Thrown JsString :=
  (elementStrs (tokens.map plainValue)).map List.flatten

/-- Any error of the pipeline falls back to the raw content. -/
def processNostrContent (lib : Services ν σ) (event : Event) (w : σ) : RenderedContent ν × σ :=
  let (processed, w') := processMessageForDisplay lib event w
  match processed with
  | .error _ => (⟨event.content, none⟩, w')
  | .ok processed =>
    match renderTokensToText processed.tokens with
    | .error _ => (⟨event.content, none⟩, w')
    | .ok rendered =>
      if (trim rendered).isEmpty then (⟨event.content, none⟩, w')
      else (⟨rendered, some processed.tokens⟩, w')

/-- The relays' answer for a pubkey: the lookup fails, or there is no kind-0 event, or one with this
content. -/
abbrev Kind0s (σ : Type) := JsString → σ → Option (Option JsString) × σ

/-- `getProfile`, where the relays answer so. -/
def profileLookup (kind0s : Kind0s σ) (pubkey : JsString) (w : σ) :
    Content.Lookup ν × σ :=
  let (answer, w') := kind0s pubkey w
  match answer with
  | none => (.failed, w')
  | some none => (.missing, w')
  | some (some content) =>
    match parseKind0Content content with
    | none => (.missing, w')
    | some profile => (.named (profile : ProfileInfo ν).name, w')

/-! ### The types -/

def IsString (v : Json ν) : Prop := ∃ s, v = .str s

omit [JsNumber ν] in
theorem isString_str (s : JsString) : IsString (.str s : Json ν) := ⟨s, rfl⟩

/-- The name is a string, and the optional fields are strings or absent. -/
structure ProfileTyped (profile : ProfileInfo ν) : Prop where
  name : IsString profile.name
  picture : profile.picture = .null ∨ IsString profile.picture
  about : ∀ v ∈ profile.about, IsString v
  nip05 : ∀ v ∈ profile.nip05, IsString v
  banner : ∀ v ∈ profile.banner, IsString v
  website : ∀ v ∈ profile.website, IsString v
  lud16 : ∀ v ∈ profile.lud16, IsString v

/-- A field that counts as present holds a string. -/
def FieldSound (v : Option (Json ν)) : Prop := ∀ j ∈ v, j.truthy = true → IsString j

/-- A field of a content, whatever JSON value that is. -/
def field (c : Json ν) (key : JsString) : Option (Json ν) := optionalProp (some c) key

/-- The first of the two name fields that counts as present holds a string. -/
def NameSound (c : Json ν) : Prop :=
  FieldSound (field c (js "name")) ∧
    ((field c (js "name")).filter Json.truthy = none →
      FieldSound (field c (js "display_name")))

/-- The optional fields that a profile takes over. -/
def OPTIONAL_FIELDS : List JsString :=
  [js "picture", js "about", js "nip05", js "banner", js "website", js "lud16"]

/-- A kind-0 content that is no JSON, or one whose fields hold strings where they count. -/
def ContentSound (ν : Type) [JsNumber ν] (content : JsString) : Prop :=
  ∀ c : Json ν, jsonParse content = some c →
    NameSound c ∧ ∀ key ∈ OPTIONAL_FIELDS, FieldSound (field c key)

instance : (v : Json ν) → Decidable (IsString v)
  | .str s => isTrue (isString_str s)
  | .null | .bool _ | .num _ | .arr _ | .obj _ =>
    isFalse (by
      rintro ⟨s, h⟩
      cases h)

instance (v : Option (Json ν)) : Decidable (FieldSound v) :=
  inferInstanceAs (Decidable (∀ j ∈ v, _))

instance (c : Json ν) : Decidable (NameSound c) := inferInstanceAs (Decidable (_ ∧ (_ → _)))

instance (content : JsString) : Decidable (ContentSound ν content) :=
  inferInstanceAs (Decidable (∀ c ∈ (jsonParse content : Option (Json ν)), _))

section Kind0

variable {v : Option (Json ν)} {c : Json ν}

theorem fieldSound_iff : FieldSound v ↔ ∀ j ∈ truthyOnly v, IsString j := by
  cases v with
  | none => simp [FieldSound, truthyOnly]
  | some j => simp [FieldSound, truthyOnly, Option.filter_some]

theorem fieldSound_iff_or : FieldSound v ↔ truthyOr v .null = .null ∨ IsString (truthyOr v .null) := by
  rw [fieldSound_iff]
  unfold truthyOnly truthyOr
  cases h : v.filter Json.truthy with
  | none => simp
  | some j =>
    have htruthy : j.truthy = true := (Option.filter_eq_some_iff.mp h).2
    have hnull : j ≠ .null := by
      rintro rfl
      cases htruthy
    simp [hnull]

theorem nameSound_iff : NameSound c ↔
    IsString (truthyOr (field c (js "name"))
      (truthyOr (field c (js "display_name")) (.str (js "Guest")))) := by
  unfold NameSound
  rw [fieldSound_iff, fieldSound_iff]
  unfold truthyOnly truthyOr
  cases (field c (js "name")).filter Json.truthy with
  | some j => simp
  | none =>
    cases (field c (js "display_name")).filter Json.truthy with
    | some j => simp
    | none => simp [isString_str]

/-- The profile that a JSON value shows. -/
theorem parseKind0Content_eq {content : JsString} (h : jsonParse content = some c) (hc : c ≠ .null) :
    parseKind0Content content = some {
      name := truthyOr (field c (js "name"))
        (truthyOr (field c (js "display_name")) (.str (js "Guest")))
      picture := truthyOr (field c (js "picture")) .null
      about := truthyOnly (field c (js "about"))
      nip05 := truthyOnly (field c (js "nip05"))
      banner := truthyOnly (field c (js "banner"))
      website := truthyOnly (field c (js "website"))
      lud16 := truthyOnly (field c (js "lud16")) } := by
  have hprop (key : JsString) : (c.prop key).toOption = some (field c key) := by
    cases c <;> first | rfl | exact absurd rfl hc
  simp [parseKind0Content, h, hprop]

theorem parseKind0Content_null {content : JsString} (h : jsonParse content = some (.null : Json ν)) :
    parseKind0Content content = (none : Option (ProfileInfo ν)) := by
  simp [parseKind0Content, h, Json.prop, Except.toOption]

/-- A content's profile has the declared types exactly when the content is sound. -/
theorem profileTyped_iff (content : JsString) :
    (∀ profile : ProfileInfo ν, parseKind0Content content = some profile → ProfileTyped profile) ↔
      ContentSound ν content := by
  cases h : (jsonParse content : Option (Json ν)) with
  | none => simp [ContentSound, h, parseKind0Content]
  | some c =>
    by_cases hc : c = .null
    · subst hc
      simp [ContentSound, h, parseKind0Content_null h, NameSound, FieldSound, field,
        optionalProp]
    · have hfields : ContentSound ν content ↔
          NameSound c ∧ ∀ key ∈ OPTIONAL_FIELDS, FieldSound (field c key) := by
        simp [ContentSound, h]
      rw [hfields, parseKind0Content_eq h hc, nameSound_iff]
      simp only [OPTIONAL_FIELDS, List.forall_mem_cons]
      rw [fieldSound_iff_or]
      simp only [fieldSound_iff]
      constructor
      · intro htyped
        obtain ⟨hname, hpicture, habout, hnip05, hbanner, hwebsite, hlud16⟩ := htyped _ rfl
        exact ⟨hname, hpicture, habout, hnip05, hbanner, hwebsite, hlud16, by simp⟩
      · rintro ⟨hname, hpicture, habout, hnip05, hbanner, hwebsite, hlud16, -⟩ profile hprofile
        obtain rfl := Option.some.inj hprofile
        exact ⟨hname, hpicture, habout, hnip05, hbanner, hwebsite, hlud16⟩

end Kind0

/-! ### The HTML -/

section Html

variable (npubEncode : JsString → Option JsString) (instanceEmojiByUrl : OrderedMap JsString JsString)

omit [JsNumber ν]

theorem returns_escapeValue (v : Json ν) : Returns (escapeValue v) ↔ IsString v := by
  cases v <;> simp [escapeValue, IsString, returns_ok, not_returns_error]

theorem returns_anchor (href : JsString) (label : Json ν) :
    Returns (anchor href label) ↔ IsString label := by
  rw [anchor, returns_map, returns_escapeValue]

theorem returns_emojiImg (src : JsString) (alt : Json ν) :
    Returns (emojiImg src alt) ↔ IsString alt := by
  rw [emojiImg, returns_map, returns_escapeValue]

/-- Every way to show a token escapes its value. -/
theorem returns_tokenHtml (token : ContentToken ν) :
    Returns (tokenHtml npubEncode instanceEmojiByUrl token) ↔ IsString token.value := by
  unfold tokenHtml
  dsimp only
  split_ifs
  · split
    · exact returns_anchor ..
    · exact returns_escapeValue _
  · split
    · rename_i npub _
      split
      · rename_i html hanchor
        exact iff_of_true (returns_ok html) ((returns_anchor _ _).mp ⟨html, hanchor⟩)
      · exact returns_escapeValue _
    · exact returns_escapeValue _
  · split
    · split
      · exact returns_emojiImg ..
      · exact returns_anchor ..
    · exact returns_escapeValue _
  · exact returns_escapeValue _

theorem returns_tokensToOwncastHtml (tokens : List (ContentToken ν)) :
    Returns (tokensToOwncastHtml npubEncode instanceEmojiByUrl tokens) ↔
      ∀ token ∈ tokens, IsString token.value := by
  rw [tokensToOwncastHtml, returns_map, returns_mapM]
  simp only [returns_tokenHtml]

end Html

/-! ### The rendering of a message -/

/-- The relays answer some lookup with the content. -/
def Answers (kind0s : Kind0s σ) (content : JsString) : Prop :=
  ∃ pubkey w, (kind0s pubkey w).1 = some (some content)

def displayServices (decode : JsString → Option Decoded) (isLetter : JsString → Bool)
    (kind0s : Kind0s σ) : Services ν σ := ⟨decode, profileLookup kind0s, isLetter⟩

/-- What a delivery needs of the profiles it looks up, of its tokens and of their HTML. -/
structure RenderingSafe (lib : Services ν σ) (kind0s : Kind0s σ)
    (npubEncode : JsString → Option JsString) (event : Event) : Prop where
  typed : ∀ content, Answers kind0s content →
    ∀ profile : ProfileInfo ν, parseKind0Content content = some profile → ProfileTyped profile
  strings : ∀ w tokens, (processNostrContent lib event w).1.tokens = some tokens →
    ∀ token ∈ tokens, IsString token.value
  html : ∀ w tokens, (processNostrContent lib event w).1.tokens = some tokens →
    ∀ instanceEmojiByUrl, Returns (tokensToOwncastHtml npubEncode instanceEmojiByUrl tokens)

/-- A name that a lookup gives is the one of a parsed content. -/
theorem name_profileLookup {kind0s : Kind0s σ} {pubkey : JsString} {w : σ} {name : Json ν}
    (h : (profileLookup kind0s pubkey w).1 = .named name) :
    ∃ content profile, Answers kind0s content ∧
      parseKind0Content content = some profile ∧ profile.name = name := by
  unfold profileLookup at h
  dsimp only at h
  split at h
  · cases h
  · cases h
  · rename_i content hanswer
    split at h
    · cases h
    · rename_i profile hprofile
      cases h
      exact ⟨content, profile, ⟨pubkey, w, hanswer⟩, hprofile, rfl⟩

theorem tokens_processNostrContent {lib : Services ν σ} {event : Event} {w : σ}
    {tokens : List (ContentToken ν)} (h : (processNostrContent lib event w).1.tokens = some tokens) :
    ∃ pc, (processMessageForDisplay lib event w).1 = .ok pc ∧ pc.tokens = tokens := by
  unfold processNostrContent at h
  dsimp only at h
  split at h
  · cases h
  · rename_i pc hpc
    split at h
    · cases h
    · split_ifs at h
      exact ⟨pc, hpc, Option.some.inj h⟩

theorem isString_name {content : JsString} {profile : ProfileInfo ν}
    (h : ∀ c : Json ν, jsonParse content = some c → NameSound c)
    (hprofile : parseKind0Content content = some profile) : IsString profile.name := by
  cases hc : (jsonParse content : Option (Json ν)) with
  | none => simp [parseKind0Content, hc] at hprofile
  | some c =>
    by_cases hnull : c = .null
    · subst hnull
      rw [parseKind0Content_null hc] at hprofile
      cases hprofile
    · rw [parseKind0Content_eq hc hnull] at hprofile
      obtain rfl := Option.some.inj hprofile
      exact nameSound_iff.mp (h c hc)

section Safety

variable (decode : JsString → Option Decoded) (isLetter : JsString → Bool) (kind0s : Kind0s σ)
  (npubEncode : JsString → Option JsString) (event : Event)

/-- Names that are strings make a delivery that can be rendered. -/
theorem rendered_of_names
    (h : ∀ content, Answers kind0s content → ∀ c : Json ν, jsonParse content = some c → NameSound c)
    {w : σ} {tokens : List (ContentToken ν)}
    (ht : (processNostrContent (displayServices decode isLetter kind0s) event w).1.tokens =
      some tokens) :
    ∀ token ∈ tokens, IsString token.value := by
  obtain ⟨pc, hpc, rfl⟩ := tokens_processNostrContent ht
  refine forall_mem_processMessageForDisplay event _ isString_str ?_ hpc
  intro pubkey w name hname _
  obtain ⟨content, profile, hanswer, hprofile, rfl⟩ := name_profileLookup hname
  exact isString_name (h content hanswer) hprofile

/-- The profiles are what their type says, and everything is rendered, exactly when each kind-0
content that is looked up holds strings in the fields that count; for the rendering alone, the names
are enough. -/
theorem renderingSafe_iff :
    (RenderingSafe (displayServices decode isLetter kind0s : Services ν σ) kind0s npubEncode event ↔
      ∀ content, Answers kind0s content → ContentSound ν content) ∧
    ((∀ content, Answers kind0s content →
        ∀ c : Json ν, jsonParse content = some c → NameSound c) →
      ∀ w (tokens : List (ContentToken ν)),
        (processNostrContent (displayServices decode isLetter kind0s) event w).1.tokens =
          some tokens → ∀ instanceEmojiByUrl,
            Returns (tokensToOwncastHtml npubEncode instanceEmojiByUrl tokens)) := by
  have hhtml (h : ∀ content, Answers kind0s content →
      ∀ c : Json ν, jsonParse content = some c → NameSound c) {w : σ} {tokens : List (ContentToken ν)}
      (ht : (processNostrContent (displayServices decode isLetter kind0s) event w).1.tokens =
        some tokens) (instanceEmojiByUrl : OrderedMap JsString JsString) :
      Returns (tokensToOwncastHtml npubEncode instanceEmojiByUrl tokens) :=
    (returns_tokensToOwncastHtml ..).mpr (rendered_of_names decode isLetter kind0s event h ht)
  refine ⟨⟨?_, ?_⟩, fun h w tokens => hhtml h⟩
  · intro h content hanswer
    exact (profileTyped_iff content).mp (h.typed content hanswer)
  · intro h
    have hnames : ∀ content, Answers kind0s content →
        ∀ c : Json ν, jsonParse content = some c → NameSound c :=
      fun content hanswer c hc => (h content hanswer c hc).1
    constructor
    · exact fun content hanswer => (profileTyped_iff content).mpr (h content hanswer)
    · exact fun w tokens => rendered_of_names decode isLetter kind0s event hnames
    · exact fun w tokens => hhtml hnames

end Safety

/-! ### A name that is a number -/

def greetedNpub : JsString := js "npub10elfcs4fr0l0r8af98jlmgdh9c8tcxjvz9qkw038js35mp4dma8qzvjptg"

def greetedPubkey : JsString := js "7e7e9c42a91bfef19fa929e5fda1b72e0ebc1a4c1141673e2794234d86addf4e"

def demoDecode (id : JsString) : Option Decoded :=
  if id = greetedNpub then some (.npub greetedPubkey) else none

def demoKind0s (content : String) : Kind0s Unit := fun _ w => (some (some (js content)), w)

def greeting : Event := ⟨js "01", js "a1", 0, 1311, [], js "hi @" ++ greetedNpub, []⟩

abbrev demoServices (content : String) : Services Int Unit :=
  displayServices demoDecode (fun _ => false) (demoKind0s content)

theorem contentSound_bob : ContentSound Int (js "\x7b\"name\":\"bob\"\x7d") := by
  decide +kernel

theorem renderingSafe_iff_bob :
    (processNostrContent (demoServices "\x7b\"name\":\"bob\"\x7d") greeting ()).1.text =
        js "hi @bob" ∧
      RenderingSafe (demoServices "\x7b\"name\":\"bob\"\x7d")
        (demoKind0s "\x7b\"name\":\"bob\"\x7d") (fun _ => some greetedNpub) greeting := by
  refine ⟨by decide +kernel, (renderingSafe_iff _ _ _ _ _).1.mpr ?_⟩
  rintro content ⟨pubkey, w, hanswer⟩
  obtain rfl : js "\x7b\"name\":\"bob\"\x7d" = content :=
    Option.some.inj (Option.some.inj hanswer)
  exact contentSound_bob

/-- The name of the mention is a number, which has no `replace`. -/
theorem renderingSafe_fails_number :
    ¬ RenderingSafe (demoServices "\x7b\"name\":5\x7d") (demoKind0s "\x7b\"name\":5\x7d")
      (fun _ => some greetedNpub) greeting := by
  intro h
  have hthrows : (processNostrContent (demoServices "\x7b\"name\":5\x7d") greeting ()).1.tokens.map
      (fun tokens => (tokensToOwncastHtml (fun _ => some greetedNpub) .empty tokens).isOk) =
        some false := by
    decide +kernel
  obtain ⟨tokens, htokens, hfalse⟩ := Option.map_eq_some_iff.mp hthrows
  obtain ⟨html, hhtml⟩ := h.html () tokens htokens .empty
  simp [hhtml, Except.isOk, Except.toBool] at hfalse

end LivelierBridge.Chat
