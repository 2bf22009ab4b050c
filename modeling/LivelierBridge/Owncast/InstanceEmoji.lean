import LivelierBridge.Framework.Run
import LivelierBridge.Owncast.TokensHtml
import Mathlib.Data.List.Perm.Basic

namespace LivelierBridge.Owncast

open Framework Js Content

/-! ### The source -/

def EMOJI_CACHE_TTL_MS : Nat := 10 * 60 * 1000

/-- An instance's own emoji: under an absolute URL, the address that the instance lists. -/
abbrev EmojiMap := OrderedMap JsString JsString

structure CachedEmoji where
  map : EmojiMap
  /-- `at` -/
  stamp : Nat

def CachedEmoji.fresh (now : Nat) (cached : CachedEmoji) : Bool :=
  now - cached.stamp < EMOJI_CACHE_TTL_MS

section Emoji

variable {ν : Type} (resolveUrl : ResolveUrl) (instanceUrl : JsString)

/-- One entry of the list; reading from `null` throws. -/
def addEmoji (map : EmojiMap) (e : Json ν) : Except Thrown EmojiMap :=
  (e.prop (js "url")).map fun url =>
    match string? url with
    | none => map
    | some path =>
      match resolveUrl path instanceUrl with
      | some u => map.set u.href path
      | none => map

/-- What `for … of` takes from a value -/
def iterated : Json ν → Except Thrown (List (Json ν))
  | .arr elems => .ok elems
  | .str s => .ok (s.map fun u => .str [u])
  | .null | .bool _ | .num _ | .obj _ => .error .typeError

/-- The emoji of `/api/emoji` -/
def emojiMap (list : Json ν) : Except Thrown EmojiMap :=
  (iterated list).bind fun entries => entries.foldlM (addEmoji resolveUrl instanceUrl) .empty

end Emoji

/-- The arguments of `sendMessage` -/
structure EmojiMessage (ν : Type) where
  instanceUrl : JsString
  senderKey : JsString
  displayName : JsString
  text : JsString
  tokens : List (ContentToken ν)

variable {ν : Type}

def EmojiMessage.hasEmoji (m : EmojiMessage ν) : Bool := m.tokens.any fun t => t.type = js "emoji"

def EmojiMessage.html (npubEncode : JsString → Option JsString) (m : EmojiMessage ν)
    (instanceEmoji : Option EmojiMap) : Except Thrown JsString :=
  if m.tokens.isEmpty then .ok (textToOwncastHtml m.text)
  else tokensToOwncastHtml npubEncode (instanceEmoji.getD .empty) m.tokens

/-- A `sendMessage` that awaits its request, with what was cached before. -/
structure EmojiRequest (ν : Type) where
  message : EmojiMessage ν
  cached : Option EmojiMap
  since : Nat

/-- A call of `pool.send`; `since` and `failed` are for the statements: when the message was given to
the adapter, and whether its own request gave no list. -/
structure EmojiSent (ν : Type) where
  message : EmojiMessage ν
  html : JsString
  since : Nat
  failed : Bool

/-- What a request for an instance's emoji gives. -/
inductive EmojiAnswer (ν : Type) where
  | rejected
  | notOk
  | body (list : Json ν)

/-- The adapter with its messages; `listed` holds what the instances have answered, and when. -/
structure EmojiState (ν : Type) where
  now : Nat
  emojiCache : OrderedMap JsString CachedEmoji
  requests : List (EmojiRequest ν)
  sent : List (EmojiSent ν)
  listed : List (JsString × Json ν × Nat)

inductive EmojiAction (ν : Type) where
  | tick (ms : Nat)
  | sendMessage (m : EmojiMessage ν)
  /-- The request with this number is answered. -/
  | answered (n : Nat) (answer : EmojiAnswer ν)

def EmojiAction.message? : EmojiAction ν → Option (EmojiMessage ν)
  | .sendMessage m => some m
  | .tick _ | .answered _ _ => none

/-- The values of the tokens are texts. -/
def EmojiMessage.Texts (m : EmojiMessage ν) : Prop :=
  ∀ token ∈ m.tokens, ∃ value, token.value = .str value

namespace EmojiState

def init (now : Nat) : EmojiState ν := ⟨now, .empty, [], [], []⟩

variable (npubEncode : JsString → Option JsString)

/-- `pool.send` of the rendered message; where rendering throws, the call rejects. -/
def deliver (s : EmojiState ν) (m : EmojiMessage ν) (instanceEmoji : Option EmojiMap) (since : Nat)
    (failed : Bool) : EmojiState ν :=
  match m.html npubEncode instanceEmoji with
  | .ok html => { s with sent := s.sent ++ [⟨m, html, since, failed⟩] }
  | .error _ => s

variable (resolveUrl : ResolveUrl)

/-- `getInstanceEmoji` goes on behind its request. -/
def settle (s : EmojiState ν) (r : EmojiRequest ν) : EmojiAnswer ν → EmojiState ν
  | .rejected | .notOk => s.deliver npubEncode r.message r.cached r.since true
  | .body list =>
    let url := r.message.instanceUrl
    let heard := { s with listed := s.listed ++ [(url, list, s.now)] }
    match emojiMap resolveUrl url list with
    | .ok map =>
      { heard with emojiCache := s.emojiCache.set url ⟨map, s.now⟩ }.deliver npubEncode r.message
        (some map) r.since false
    | .error _ => heard.deliver npubEncode r.message r.cached r.since true

def step (s : EmojiState ν) : EmojiAction ν → Option (EmojiState ν)
  | .tick ms => some { s with now := s.now + ms }
  | .sendMessage m =>
    if m.hasEmoji then
      let cached := s.emojiCache.get? m.instanceUrl
      match cached.filter (CachedEmoji.fresh s.now) with
      | some c => some (s.deliver npubEncode m (some c.map) s.now false)
      | none => some { s with requests := s.requests ++ [⟨m, cached.map CachedEmoji.map, s.now⟩] }
    else some (s.deliver npubEncode m none s.now false)
  | .answered n answer =>
    (s.requests[n]?).map fun r =>
      { s with requests := s.requests.eraseIdx n }.settle npubEncode resolveUrl r answer

end EmojiState

/-! ### The lists -/

section Lists

variable {resolveUrl : ResolveUrl} {instanceUrl href src : JsString} {map map' : EmojiMap}

end Lists

/-! ### Runs -/

namespace EmojiState

variable {npubEncode : JsString → Option JsString} {resolveUrl : ResolveUrl} {s t : EmojiState ν}

/-- The instance has answered at `stamp` with a list that gives this map. -/
def Known (resolveUrl : ResolveUrl) (s : EmojiState ν) (instanceUrl : JsString) (map : EmojiMap)
    (stamp : Nat) : Prop :=
  ∃ list, (instanceUrl, list, stamp) ∈ s.listed ∧ emojiMap resolveUrl instanceUrl list = .ok map

/-- A sent message was rendered over a map that its own instance gave, and not too long ago, but
where the message's own request has failed. -/
def Rendered (npubEncode : JsString → Option JsString) (resolveUrl : ResolveUrl) (s : EmojiState ν)
    (p : EmojiSent ν) : Prop :=
  ∃ instanceEmoji, p.message.html npubEncode instanceEmoji = .ok p.html ∧
    ∀ map, instanceEmoji = some map → ∃ stamp,
      Known resolveUrl s p.message.instanceUrl map stamp ∧
      (p.since < stamp + EMOJI_CACHE_TTL_MS ∨ p.failed = true)

structure Inv (npubEncode : JsString → Option JsString) (resolveUrl : ResolveUrl) (s : EmojiState ν) :
    Prop where
  cached : ∀ url c, s.emojiCache.get? url = some c → Known resolveUrl s url c.map c.stamp
  requests : ∀ r ∈ s.requests, r.since ≤ s.now ∧ ∀ map, r.cached = some map →
    ∃ stamp, Known resolveUrl s r.message.instanceUrl map stamp
  sent : ∀ p ∈ s.sent, Rendered npubEncode resolveUrl s p

theorem Known.mono (hlisted : s.listed ⊆ t.listed) {url : JsString} {map : EmojiMap} {stamp : Nat}
    (h : Known resolveUrl s url map stamp) : Known resolveUrl t url map stamp := by
  obtain ⟨list, hmem, hmap⟩ := h
  exact ⟨list, hlisted hmem, hmap⟩

theorem Rendered.mono (hlisted : s.listed ⊆ t.listed) {p : EmojiSent ν}
    (h : Rendered npubEncode resolveUrl s p) : Rendered npubEncode resolveUrl t p := by
  obtain ⟨instanceEmoji, hhtml, hknown⟩ := h
  refine ⟨instanceEmoji, hhtml, fun map hmap => ?_⟩
  obtain ⟨stamp, hk, htime⟩ := hknown map hmap
  exact ⟨stamp, hk.mono hlisted, htime⟩

/-- A delivery keeps the invariant when its map is known. -/
theorem Inv.deliver (h : Inv npubEncode resolveUrl s) {m : EmojiMessage ν}
    {instanceEmoji : Option EmojiMap} {since : Nat} {failed : Bool}
    (hknown : ∀ map, instanceEmoji = some map → ∃ stamp, Known resolveUrl s m.instanceUrl map stamp ∧
      (since < stamp + EMOJI_CACHE_TTL_MS ∨ failed = true)) :
    Inv npubEncode resolveUrl (s.deliver npubEncode m instanceEmoji since failed) := by
  unfold EmojiState.deliver
  split
  · rename_i html hhtml
    refine ⟨h.cached, h.requests, fun p hp => ?_⟩
    rcases List.mem_append.mp hp with hold | hnew
    · exact h.sent p hold
    · obtain rfl := List.mem_singleton.mp hnew
      exact ⟨instanceEmoji, hhtml, hknown⟩
  · exact h

/-- What an instance has answered is known from then on. -/
theorem Inv.hear (h : Inv npubEncode resolveUrl s) (url : JsString) (list : Json ν) :
    Inv npubEncode resolveUrl { s with listed := s.listed ++ [(url, list, s.now)] } := by
  have hsub : s.listed ⊆ s.listed ++ [(url, list, s.now)] := List.subset_append_left _ _
  refine ⟨fun u c hc => (h.cached u c hc).mono hsub, fun r hr => ⟨(h.requests r hr).1, ?_⟩,
    fun p hp => (h.sent p hp).mono hsub⟩
  intro map hmap
  obtain ⟨stamp, hk⟩ := (h.requests r hr).2 map hmap
  exact ⟨stamp, hk.mono hsub⟩

theorem Inv.settle (h : Inv npubEncode resolveUrl s) {r : EmojiRequest ν} (hsince : r.since ≤ s.now)
    (hcached : ∀ map, r.cached = some map → ∃ stamp, Known resolveUrl s r.message.instanceUrl map stamp)
    (answer : EmojiAnswer ν) :
    Inv npubEncode resolveUrl (s.settle npubEncode resolveUrl r answer) := by
  have hstale : ∀ t : EmojiState ν, s.listed ⊆ t.listed → ∀ map, r.cached = some map →
      ∃ stamp, Known resolveUrl t r.message.instanceUrl map stamp ∧
        (r.since < stamp + EMOJI_CACHE_TTL_MS ∨ true = true) := by
    intro t hsub map hmap
    obtain ⟨stamp, hk⟩ := hcached map hmap
    exact ⟨stamp, hk.mono hsub, .inr rfl⟩
  cases answer with
  | rejected => exact h.deliver (hstale s (List.Subset.refl _))
  | notOk => exact h.deliver (hstale s (List.Subset.refl _))
  | body list =>
    have hheard := h.hear r.message.instanceUrl list
    have hsub : s.listed ⊆ s.listed ++ [(r.message.instanceUrl, list, s.now)] :=
      List.subset_append_left _ _
    unfold EmojiState.settle
    dsimp only
    split
    · rename_i map hmap
      have hknown : Known resolveUrl
          { s with listed := s.listed ++ [(r.message.instanceUrl, list, s.now)] }
          r.message.instanceUrl map s.now := ⟨list, by simp, hmap⟩
      have hstored : Inv npubEncode resolveUrl
          { s with
            listed := s.listed ++ [(r.message.instanceUrl, list, s.now)]
            emojiCache := s.emojiCache.set r.message.instanceUrl ⟨map, s.now⟩ } := by
        refine ⟨fun url c hc => ?_, hheard.requests, hheard.sent⟩
        dsimp only at hc
        rw [OrderedMap.get?_set] at hc
        split at hc
        · rename_i hurl
          subst hurl
          obtain rfl := Option.some.inj hc
          exact hknown
        · exact hheard.cached url c hc
      refine hstored.deliver fun map' hmap' => ?_
      obtain rfl := Option.some.inj hmap'
      refine ⟨s.now, hknown, .inl ?_⟩
      simp only [EMOJI_CACHE_TTL_MS]
      omega
    · exact hheard.deliver (hstale _ hsub)

/-- The messages that were sent or await a request -/
def messages (s : EmojiState ν) : List (EmojiMessage ν) :=
  s.sent.map EmojiSent.message ++ s.requests.map EmojiRequest.message

/-- Every message that was given to the adapter is sent or awaits its request, once. -/
def Kept (as : List (EmojiAction ν)) (s : EmojiState ν) : Prop :=
  (∀ m ∈ as.filterMap EmojiAction.message?, m.Texts) →
    s.messages.Perm (as.filterMap EmojiAction.message?)

end EmojiState

end LivelierBridge.Owncast
