import Mathlib.Data.List.DropRight
import LivelierBridge.Discovery.Identity

namespace LivelierBridge.Discovery

open Js

/-- The text whose HMAC is the private key of an instance. -/
def instanceMessage (R : Runtime) (instanceUrl ns : JsString) : Option JsString :=
  (normalizeInstanceUrl R instanceUrl).map fun url => ns ++ js ":" ++ url

/-- The text whose HMAC is the private key of the bridge. -/
def bridgeIdentityMessage : JsString := js "bridge-identity:self"

def UrlParts.IsHttp (u : UrlParts) : Prop := u.protocol = js "http:" ∨ u.protocol = js "https:"

/-- The paths differ in their trailing slashes at most. -/
def SamePath (path path' : JsString) : Prop :=
  ∃ p m n, path = p ++ List.replicate m 47 ∧ path' = p ++ List.replicate n 47

/-- The parsed URLs differ in the trailing slashes of the path and the case of the host at most. -/
structure UrlParts.Alike (u u' : UrlParts) : Prop where
  protocol : u.protocol = u'.protocol
  host : toLowerCase u.host = toLowerCase u'.host
  pathname : SamePath u.pathname u'.pathname

/-- An http(s) URL as it is written: scheme, host with port, path, query and fragment. -/
structure UrlText where
  scheme : JsString
  authority : JsString
  path : JsString
  query : JsString
  fragment : JsString
  http : toLowerCase scheme = js "http" ∨ toLowerCase scheme = js "https"
  authority_ne : authority ≠ []
  authority_units : ∀ u ∈ authority, 32 < u ∧ u ∉ js "/\\?#"
  path_head : path = [] ∨ path.head? = some 47
  path_units : ∀ u ∈ path, 32 < u ∧ u ∉ js "?#"
  query_head : query = [] ∨ query.head? = some 63
  query_units : 35 ∉ query
  fragment_head : fragment = [] ∨ fragment.head? = some 35

namespace UrlText

def text (t : UrlText) : JsString :=
  t.scheme ++ js "://" ++ t.authority ++ t.path ++ t.query ++ t.fragment

/-- The texts differ in the query, the fragment, the trailing slashes of the path and the case of the
host at most. -/
structure Alike (t t' : UrlText) : Prop where
  scheme : t.scheme = t'.scheme
  authority : toLowerCase t.authority = toLowerCase t'.authority
  path : SamePath t.path t'.path

end UrlText

/-- What parsing does with http(s) URLs. -/
structure ParsesHttp (parseUrl : JsString → Option UrlParts) : Prop where
  /-- The host comes in lower case. -/
  host_lower : ∀ raw u, parseUrl raw = some u → u.IsHttp → toLowerCase u.host = u.host
  /-- The host comes of the scheme and the authority in whatever case, the path of the path alone; a
  slash behind it adds one to the result, or none. -/
  parts : ∃ (hostOf : JsString → JsString → Option JsString) (pathnameOf : JsString → JsString),
    (∀ t : UrlText, parseUrl t.text =
      (hostOf t.scheme (toLowerCase t.authority)).map fun host =>
        ⟨toLowerCase t.scheme ++ js ":", host, pathnameOf t.path⟩) ∧
    ∀ path, pathnameOf (path ++ [47]) = pathnameOf path ∨
      pathnameOf (path ++ [47]) = pathnameOf path ++ [47]
  /-- Scheme, host and path read back, the path without trailing slashes. -/
  reparse : ∀ raw u, parseUrl raw = some u → u.IsHttp →
    parseUrl (u.protocol ++ js "//" ++ u.host ++ stripTrailingSlashes u.pathname) =
      some ⟨u.protocol, u.host,
        if stripTrailingSlashes u.pathname = [] then js "/" else stripTrailingSlashes u.pathname⟩

section Messages

variable {R : Runtime} {source source' url message : JsString} {u u' : UrlParts}

/-- An instance's signer is keyed by its message. -/
theorem instanceSigner_eq (R : Runtime) (url secret source : JsString) :
    instanceSigner R url secret source =
      (instanceMessage R url source).map (R.derivedPubkey secret) := by
  simp [instanceSigner, instanceMessage, Function.comp_def]

theorem stripTrailingSlashes_concat (path : JsString) :
    stripTrailingSlashes (path ++ [47]) = stripTrailingSlashes path := by
  have hslash : decide ((47 : UInt16) = 47) = true := rfl
  exact List.rdropWhile_concat_pos _ _ _ hslash

theorem stripTrailingSlashes_strip (path : JsString) :
    stripTrailingSlashes (stripTrailingSlashes path) = stripTrailingSlashes path :=
  List.rdropWhile_idempotent ..

theorem SamePath.strip {path path' : JsString} (h : SamePath path path') :
    stripTrailingSlashes path = stripTrailingSlashes path' := by
  have hslashes (p : JsString) (n : Nat) :
      stripTrailingSlashes (p ++ List.replicate n 47) = stripTrailingSlashes p := by
    induction n with
    | zero => simp
    | succ n ih => rw [List.replicate_succ', ← List.append_assoc, stripTrailingSlashes_concat, ih]
  obtain ⟨p, m, n, rfl, rfl⟩ := h
  rw [hslashes, hslashes]

/-- A text is cut where a test that all of it passes first fails. -/
theorem takeWhile_dropWhile_stop (p : UInt16 → Bool) (xs rest : JsString)
    (hxs : ∀ u ∈ xs, p u = true) (hrest : ∀ u ∈ rest.head?, p u = false) :
    (xs ++ rest).takeWhile p = xs ∧ (xs ++ rest).dropWhile p = rest := by
  rw [List.takeWhile_append_of_pos hxs, List.dropWhile_append_of_pos hxs]
  cases rest with
  | nil => simp
  | cons u us =>
    have hu : p u = false := hrest u rfl
    simp [hu]

/-- A text is cut at its first colon. -/
theorem cut_at_colon (h : (58 : UInt16) ∉ source) (rest : JsString) :
    (source ++ 58 :: rest).takeWhile (fun u => decide (u ≠ 58)) = source ∧
      (source ++ 58 :: rest).dropWhile (fun u => decide (u ≠ 58)) = 58 :: rest := by
  have hplain : ∀ u ∈ source, decide (u ≠ 58) = true := by
    intro u hu
    have hne : u ≠ 58 := fun heq => h (heq ▸ hu)
    simpa using hne
  exact takeWhile_dropWhile_stop _ source (58 :: rest) hplain (by simp)

theorem message_eq_iff (h : (58 : UInt16) ∉ source) (h' : (58 : UInt16) ∉ source')
    {normalized normalized' : JsString} :
    source ++ js ":" ++ normalized = source' ++ js ":" ++ normalized' ↔
      source = source' ∧ normalized = normalized' := by
  have hcolon (s n : JsString) : s ++ js ":" ++ n = s ++ 58 :: n := by simp [show js ":" = [58] from rfl]
  rw [hcolon, hcolon]
  constructor
  · intro heq
    have hbefore := congrArg (List.takeWhile fun u => decide (u ≠ 58)) heq
    rw [(cut_at_colon h normalized).1, (cut_at_colon h' normalized').1] at hbefore
    subst hbefore
    exact ⟨rfl, (List.cons.inj (List.append_cancel_left heq)).2⟩
  · rintro ⟨rfl, rfl⟩
    rfl

/-- A normalized URL has a slash. -/
theorem slash_mem_normalized {normalized : JsString}
    (h : normalizeInstanceUrl R url = some normalized) : (47 : UInt16) ∈ normalized := by
  obtain ⟨u, -, rfl⟩ := Option.map_eq_some_iff.mp h
  have hslashes : (47 : UInt16) ∈ js "//" := by decide
  simp [hslashes]

theorem message_ne_bridge (h : (58 : UInt16) ∉ source)
    (hmessage : instanceMessage R url source = some message) : message ≠ bridgeIdentityMessage := by
  obtain ⟨normalized, hnormalized, rfl⟩ := Option.map_eq_some_iff.mp hmessage
  intro heq
  have hself : bridgeIdentityMessage = js "bridge-identity" ++ js ":" ++ js "self" := by decide
  have hplain : (58 : UInt16) ∉ js "bridge-identity" := by decide
  rw [hself, message_eq_iff h hplain] at heq
  have hslash := slash_mem_normalized hnormalized
  rw [heq.2] at hslash
  exact absurd hslash (by decide)

theorem UrlParts.IsHttp.protocol_lower (h : u.IsHttp) : toLowerCase u.protocol = u.protocol := by
  rcases h with h | h
  · rw [h]
    decide
  · rw [h]
    decide

/-- A normalized URL is its own normal form. -/
theorem normalizeInstanceUrl_normalized (hR : ParsesHttp R.parseUrl) (hu : R.parseUrl url = some u)
    (hhttp : u.IsHttp) :
    (normalizeInstanceUrl R url).bind (normalizeInstanceUrl R) = normalizeInstanceUrl R url := by
  have hread : normalizeInstanceUrl R url =
      some (u.protocol ++ js "//" ++ u.host ++ stripTrailingSlashes u.pathname) := by
    rw [normalizeInstanceUrl, hu, Option.map_some, hhttp.protocol_lower, hR.host_lower url u hu hhttp]
  have hstrip : stripTrailingSlashes (if stripTrailingSlashes u.pathname = [] then js "/"
      else stripTrailingSlashes u.pathname) = stripTrailingSlashes u.pathname := by
    split_ifs with hempty
    · rw [hempty]
      rfl
    · exact stripTrailingSlashes_strip u.pathname
  rw [hread, Option.bind_some, normalizeInstanceUrl, hR.reparse url u hu hhttp, Option.map_some,
    hstrip, hhttp.protocol_lower, hR.host_lower url u hu hhttp]

theorem normalizeInstanceUrl_of_alike {url' : JsString} (hu : R.parseUrl url = some u)
    (hu' : R.parseUrl url' = some u') (h : u.Alike u') :
    normalizeInstanceUrl R url = normalizeInstanceUrl R url' := by
  rw [normalizeInstanceUrl, normalizeInstanceUrl, hu, hu', Option.map_some, Option.map_some,
    h.protocol, h.host, h.pathname.strip]

/-- Texts that are alike parse alike, or not at all. -/
theorem normalizeInstanceUrl_text (hR : ParsesHttp R.parseUrl) {t t' : UrlText} (h : t.Alike t') :
    normalizeInstanceUrl R t.text = normalizeInstanceUrl R t'.text := by
  obtain ⟨hostOf, pathnameOf, htext, hslash⟩ := hR.parts
  have hslashes (p : JsString) (n : Nat) :
      stripTrailingSlashes (pathnameOf (p ++ List.replicate n 47)) =
        stripTrailingSlashes (pathnameOf p) := by
    induction n with
    | zero => simp
    | succ n ih =>
      rw [List.replicate_succ', ← List.append_assoc, ← ih]
      rcases hslash (p ++ List.replicate n 47) with hsame | hone
      · rw [hsame]
      · rw [hone, stripTrailingSlashes_concat]
  obtain ⟨p, m, n, hpath, hpath'⟩ := h.path
  have hpathname : stripTrailingSlashes (pathnameOf t.path) =
      stripTrailingSlashes (pathnameOf t'.path) := by
    rw [hpath, hpath', hslashes, hslashes]
  rw [normalizeInstanceUrl, normalizeInstanceUrl, htext, htext, h.scheme, h.authority]
  cases hostOf t'.scheme (toLowerCase t'.authority) with
  | none => rfl
  | some host => simp [hpathname]

end Messages

/-- Two instances share a message only if they share the source and the normalized URL, and none has
the message of the bridge; the normal form of an http(s) URL is its own, and it is the same for URLs
that differ in query, fragment, trailing slashes of the path or case of the host only, as parsed and
as written. -/
theorem keyMessages_separate {R : Runtime} (hR : ParsesHttp R.parseUrl) :
    (∀ source source' url url' message message', (58 : UInt16) ∉ source → (58 : UInt16) ∉ source' →
      instanceMessage R url source = some message → instanceMessage R url' source' = some message' →
      (message = message' ↔
        source = source' ∧ normalizeInstanceUrl R url = normalizeInstanceUrl R url')) ∧
    (∀ source url message, (58 : UInt16) ∉ source → instanceMessage R url source = some message →
      message ≠ bridgeIdentityMessage) ∧
    (∀ url u, R.parseUrl url = some u → u.IsHttp →
      (normalizeInstanceUrl R url).bind (normalizeInstanceUrl R) = normalizeInstanceUrl R url) ∧
    (∀ url url' u u', R.parseUrl url = some u → R.parseUrl url' = some u' → u.Alike u' →
      normalizeInstanceUrl R url = normalizeInstanceUrl R url') ∧
    ∀ t t' : UrlText, t.Alike t' → normalizeInstanceUrl R t.text = normalizeInstanceUrl R t'.text := by
  refine ⟨fun source source' url url' message message' h h' hm hm' => ?_,
    fun source url message h hm => message_ne_bridge h hm,
    fun url u hu hhttp => normalizeInstanceUrl_normalized hR hu hhttp,
    fun url url' u u' hu hu' h => normalizeInstanceUrl_of_alike hu hu' h,
    fun t t' h => normalizeInstanceUrl_text hR h⟩
  obtain ⟨normalized, hnormalized, rfl⟩ := Option.map_eq_some_iff.mp hm
  obtain ⟨normalized', hnormalized', rfl⟩ := Option.map_eq_some_iff.mp hm'
  rw [message_eq_iff h h', hnormalized, hnormalized', Option.some_inj]

section Plain

/-- Parsing of plain http(s) URLs: no dot segments, no default ports, nothing to encode. -/
def plainParseUrl (raw : JsString) : Option UrlParts :=
  let scheme := toLowerCase (raw.takeWhile (· ≠ 58))
  let rest := (raw.dropWhile (· ≠ 58)).drop 3
  let path := (rest.dropWhile (· ∉ js "/?#")).takeWhile (· ∉ js "?#")
  if scheme = js "http" ∨ scheme = js "https" then
    some ⟨scheme ++ js ":", toLowerCase (rest.takeWhile (· ∉ js "/?#")),
      if path = [] then js "/" else path⟩
  else none

variable {scheme authority path tail : JsString}

theorem colon_notMem_scheme (h : toLowerCase scheme = js "http" ∨ toLowerCase scheme = js "https") :
    (58 : UInt16) ∉ scheme := by
  intro hmem
  have hlower : (58 : UInt16) ∈ toLowerCase scheme := List.mem_map.mpr ⟨58, hmem, rfl⟩
  rcases h with h | h
  · rw [h] at hlower
    exact absurd hlower (by decide)
  · rw [h] at hlower
    exact absurd hlower (by decide)

theorem plainParseUrl_parts
    (hscheme : toLowerCase scheme = js "http" ∨ toLowerCase scheme = js "https")
    (hauthority : ∀ u ∈ authority, u ∉ js "/?#") (hhead : path = [] ∨ path.head? = some 47)
    (hpath : ∀ u ∈ path, u ∉ js "?#") (htail : ∀ u ∈ tail.head?, u ∈ js "?#") :
    plainParseUrl (scheme ++ js "://" ++ authority ++ path ++ tail) =
      some ⟨toLowerCase scheme ++ js ":", toLowerCase authority,
        if path = [] then js "/" else path⟩ := by
  have hsplit : scheme ++ js "://" ++ authority ++ path ++ tail =
      scheme ++ 58 :: (js "//" ++ (authority ++ (path ++ tail))) := by
    simp [show js "://" = 58 :: js "//" from rfl]
  have hcolon := cut_at_colon (colon_notMem_scheme hscheme) (js "//" ++ (authority ++ (path ++ tail)))
  have hends : ∀ u ∈ (path ++ tail).head?, u ∈ js "/?#" := by
    intro u hu
    rcases hhead with rfl | hslash
    · have hmem : u ∈ js "?#" := htail u hu
      exact List.mem_cons_of_mem 47 hmem
    · rw [List.head?_append, hslash] at hu
      obtain rfl : 47 = u := by simpa using hu
      decide
  have hrest := takeWhile_dropWhile_stop (fun u => decide (u ∉ js "/?#")) authority (path ++ tail)
    (fun u hu => decide_eq_true (hauthority u hu))
    (fun u hu => by simpa using hends u hu)
  have hlast := takeWhile_dropWhile_stop (fun u => decide (u ∉ js "?#")) path tail
    (fun u hu => decide_eq_true (hpath u hu))
    (fun u hu => by simpa using htail u hu)
  have hdrop : (58 :: (js "//" ++ (authority ++ (path ++ tail)))).drop 3 =
      authority ++ (path ++ tail) := rfl
  unfold plainParseUrl
  simp only [hsplit, hcolon.1, hcolon.2, hdrop, hrest.1, hrest.2, hlast.1]
  rw [if_pos hscheme]

theorem plainParseUrl_eq_some {raw : JsString} {u : UrlParts} (h : plainParseUrl raw = some u) :
    ∃ scheme authority path, (toLowerCase scheme = js "http" ∨ toLowerCase scheme = js "https") ∧
      (∀ c ∈ authority, c ∉ js "/?#") ∧ (path = [] ∨ path.head? = some 47) ∧
      (∀ c ∈ path, c ∉ js "?#") ∧
      u = ⟨toLowerCase scheme ++ js ":", toLowerCase authority,
        if path = [] then js "/" else path⟩ := by
  unfold plainParseUrl at h
  dsimp only at h
  by_cases hscheme : toLowerCase (raw.takeWhile (· ≠ 58)) = js "http" ∨
      toLowerCase (raw.takeWhile (· ≠ 58)) = js "https"
  case neg =>
    rw [if_neg hscheme] at h
    cases h
  rw [if_pos hscheme] at h
  refine ⟨_, _, _, hscheme, fun c hc => ?_, ?_, fun c hc => ?_, (Option.some.inj h).symm⟩
  · have hpasses := List.mem_takeWhile_imp hc
    exact of_decide_eq_true hpasses
  · obtain ⟨rest, hrest⟩ : ∃ rest, (raw.dropWhile (· ≠ 58)).drop 3 = rest := ⟨_, rfl⟩
    rw [hrest]
    cases hpath : rest.dropWhile (· ∉ js "/?#") with
    | nil => exact .inl rfl
    | cons c cs =>
      have hstop : c ∈ js "/?#" := by
        have hhead := List.head?_dropWhile_not (fun u => decide (u ∉ js "/?#")) rest
        rw [hpath] at hhead
        simpa using hhead
      by_cases hc : c ∈ js "?#"
      · simp [hc]
      · obtain rfl : c = 47 := by
          rcases List.mem_cons.mp hstop with heq | hmem
          · exact heq
          · exact absurd hmem hc
        right
        simp [hc]
  · have hpasses := List.mem_takeWhile_imp hc
    exact of_decide_eq_true hpasses

theorem stripTrailingSlashes_start (path : JsString) : stripTrailingSlashes path <+: path :=
  List.rdropWhile_prefix ..

theorem plainParseUrl_parsesHttp : ParsesHttp plainParseUrl := by
  refine ⟨fun raw u h _ => ?_,
    ⟨fun _ authority => some authority, fun path => if path = [] then js "/" else path,
      fun t => ?_, fun path => ?_⟩, fun raw u h _ => ?_⟩
  · obtain ⟨scheme, authority, path, -, -, -, -, rfl⟩ := plainParseUrl_eq_some h
    exact toLowerCase_toLowerCase authority
  · have htail : ∀ u ∈ (t.query ++ t.fragment).head?, u ∈ js "?#" := by
      intro u hu
      rw [List.head?_append] at hu
      rcases t.query_head with hq | hq
      · rcases t.fragment_head with hf | hf
        · simp [hq, hf] at hu
        · obtain rfl : 35 = u := by simpa [hq, hf] using hu
          decide
      · obtain rfl : 63 = u := by simpa [hq] using hu
        decide
    have hauthority : ∀ u ∈ t.authority, u ∉ js "/?#" := by
      intro u hu hmem
      have hsub : js "/?#" ⊆ js "/\\?#" := by decide
      exact (t.authority_units u hu).2 (hsub hmem)
    have htext : t.text = t.scheme ++ js "://" ++ t.authority ++ t.path ++ (t.query ++ t.fragment) := by
      simp [UrlText.text]
    rw [htext, plainParseUrl_parts t.http hauthority t.path_head (fun u hu => (t.path_units u hu).2)
      htail]
    rfl
  · by_cases hempty : path = []
    · left
      rw [hempty]
      decide
    · right
      simp [hempty]
  · obtain ⟨scheme, authority, path, hscheme, hauthority, hhead, hpath, rfl⟩ := plainParseUrl_eq_some h
    have hlower : toLowerCase (toLowerCase scheme) = js "http" ∨
        toLowerCase (toLowerCase scheme) = js "https" := by
      rw [toLowerCase_toLowerCase]
      exact hscheme
    have hunits : ∀ c ∈ toLowerCase authority, c ∉ js "/?#" := by
      intro c hc hmem
      have hmark : c = 47 ∨ c = 63 ∨ c = 35 := by
        simpa [show js "/?#" = [47, 63, 35] from rfl] using hmem
      have hsmall : ¬(97 ≤ c ∧ c ≤ 122) := by
        rcases hmark with rfl | rfl | rfl
        · decide
        · decide
        · decide
      exact hauthority c (mem_of_mem_toLowerCase hc hsmall) hmem
    obtain ⟨stripped, hstripped⟩ : ∃ stripped,
        stripTrailingSlashes (if path = [] then js "/" else path) = stripped := ⟨_, rfl⟩
    have hstart : stripped <+: path := by
      rw [← hstripped]
      split_ifs with hempty
      · exact List.nil_prefix
      · exact stripTrailingSlashes_start path
    have hhead' : stripped = [] ∨ stripped.head? = some 47 := by
      obtain ⟨rest, rfl⟩ := hstart
      cases stripped with
      | nil => exact .inl rfl
      | cons c cs =>
        right
        simpa using hhead
    have hpath' : ∀ c ∈ stripped, c ∉ js "?#" := fun c hc => hpath c (hstart.subset hc)
    have hnil : ∀ c ∈ ([] : JsString).head?, c ∈ js "?#" := fun c hc => by cases hc
    have hread := plainParseUrl_parts hlower hunits hhead' hpath' hnil
    have htext : toLowerCase scheme ++ js ":" ++ js "//" ++ toLowerCase authority ++ stripped =
        toLowerCase scheme ++ js "://" ++ toLowerCase authority ++ stripped ++ [] := by
      simp [show js "://" = js ":" ++ js "//" from rfl]
    dsimp only
    rw [hstripped, htext, hread, toLowerCase_toLowerCase, toLowerCase_toLowerCase]

/-- A runtime that parses plain URLs and whose keys show their messages. -/
def plainRuntime : Runtime := ⟨plainParseUrl, id, fun _ message => message, fun _ => none⟩

/-- Two networks that bridge one instance have two messages for it. -/
theorem keyMessages_separate_networks : ∃ message message',
    instanceMessage plainRuntime (js "https://Silo.FFMUC.net/?x=1#f") (js "owncast") = some message ∧
    instanceMessage plainRuntime (js "https://silo.ffmuc.net") (js "other") = some message' ∧
    message ≠ message' := by
  have hseparate := keyMessages_separate (R := plainRuntime) plainParseUrl_parsesHttp
  refine ⟨js "owncast:https://silo.ffmuc.net", js "other:https://silo.ffmuc.net", by decide, by decide,
    fun heq => ?_⟩
  have hsame := (hseparate.1 (js "owncast") (js "other") (js "https://Silo.FFMUC.net/?x=1#f")
    (js "https://silo.ffmuc.net") _ _ (by decide) (by decide) (by decide) (by decide)).mp heq
  exact absurd hsame.1 (by decide)

end Plain

end LivelierBridge.Discovery
