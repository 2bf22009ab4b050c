import Mathlib.Algebra.Group.Nat.Defs
import LivelierBridge.Framework.Run
import LivelierBridge.Framework.OrderedMap
import LivelierBridge.Js.Text

namespace LivelierBridge.Nostr

open Framework Js

abbrev SubId := Nat
abbrev QueryId := Nat

def RELAY_COOLDOWN_BASE_MS : Nat := 60000
def RELAY_COOLDOWN_MAX_MS : Nat := 600000

/-- `reason.toLowerCase().includes('rate-limit')` -/
def isRateLimitReason (reason : JsString) : Bool :=
  (toLowerCase reason).tails.any fun rest => (js "rate-limit").isPrefixOf rest

/-- The reason with which `pool.close` ends a REQ. -/
def POOL_CLOSE_REASON : JsString := js "relay connection closed by us"

def CALLER_CLOSE_REASON : JsString := js "closed by caller"

example : isRateLimitReason POOL_CLOSE_REASON = false := by decide

structure Cooldown where
  strikes : Nat
  until' : Nat

/-- Where a standing subscription is on one relay; a retry is opened by the timer of a REQ that was
rate limited. -/
inductive LinkPhase where
  | gone
  | connecting (isRetry : Bool)
  | active (isRetry : Bool)
  | waiting (due : Nat)
  deriving DecidableEq

def LinkPhase.isActive : LinkPhase → Bool
  | .active _ => true
  | _ => false

structure RelayLink where
  phase : LinkPhase
  /-- A REQ on the relay has ended because of rate limiting. -/
  limited : Bool

/-- The locals of one `subscribe`. -/
structure StandingSub where
  relays : List JsString
  eosedCount : Nat
  closeReasons : List JsString
  callerClosed : Bool
  link : JsString → RelayLink

/-- The locals of one `queryWithStats`. -/
structure OneShot where
  connecting : List JsString
  /-- The relays whose REQ is open. -/
  asked : List JsString
  eoseCount : Nat
  completedEarly : Bool

/-- What the requests of one client share, and the requests. -/
structure PooledClient where
  relayCooldowns : OrderedMap JsString Cooldown
  sub : SubId → StandingSub
  nextSub : SubId
  query : QueryId → OneShot
  nextQuery : QueryId
  now : Nat

inductive ClientAction where
  | subscribe (urls : List JsString)
  /-- `ensureRelay` answers for a relay of a standing subscription. -/
  | connected (k : SubId) (url : JsString) (ok : Bool)
  | eose (k : SubId) (url : JsString)
  /-- The relay, or its connection, ends a standing REQ. -/
  | closed (k : SubId) (url reason : JsString)
  /-- A retry timer fires. -/
  | retry (k : SubId) (url : JsString)
  /-- The caller closes a standing subscription. -/
  | close (k : SubId)
  | queryWithStats (urls : List JsString)
  | queryConnected (q : QueryId) (url : JsString) (ok : Bool)
  | queryEose (q : QueryId) (url : JsString)
  | queryClosed (q : QueryId) (url reason : JsString)
  | queryDeadline (q : QueryId) (url : JsString)
  /-- The events of a query satisfy its `isComplete`. -/
  | queryComplete (q : QueryId)
  | tick (ms : Nat)

namespace StandingSub

def new (urls : List JsString) : StandingSub :=
  ⟨urls.eraseDups, 0, [], false,
    fun url => if url ∈ urls then ⟨.connecting false, false⟩ else ⟨.gone, false⟩⟩

variable (w : StandingSub)

def setPhase (url : JsString) (phase : LinkPhase) : StandingSub :=
  { w with link := Function.update w.link url { w.link url with phase := phase } }

def noteEose : StandingSub :=
  if w.relays.length ≤ w.eosedCount then w else { w with eosedCount := w.eosedCount + 1 }

/-- The part of `onclose` that every reason has in common. -/
def ended (url : JsString) (isRetry limited : Bool) (reason : JsString) : StandingSub :=
  { w with
    link := Function.update w.link url ⟨.gone, (w.link url).limited || limited⟩
    closeReasons := if isRetry then w.closeReasons else w.closeReasons ++ [reason] }

/-- The pool closes the connection of these relays. -/
def severed (same : JsString → Bool) : StandingSub :=
  { w with
    closeReasons := w.closeReasons ++
      (w.relays.filter fun url => same url && (w.link url).phase = .active false).map fun _ =>
        POOL_CLOSE_REASON
    link := fun url =>
      if same url && (w.link url).phase.isActive then ⟨.gone, true⟩ else w.link url }

/-- The caller closes: timers are cleared and REQs end, pending connections come to nothing. -/
def close : StandingSub :=
  { w with
    callerClosed := true
    closeReasons := w.closeReasons ++
      (w.relays.filter fun url => (w.link url).phase = .active false).map fun _ =>
        CALLER_CLOSE_REASON
    link := fun url =>
      match (w.link url).phase with
      | .connecting _ => w.link url
      | _ => { w.link url with phase := .gone } }

end StandingSub

namespace PooledClient

def init (now : Nat) : PooledClient :=
  ⟨.empty, fun _ => .new [], 0, fun _ => ⟨[], [], 0, false⟩, 0, now⟩

variable (normalizeURL : JsString → JsString) (s : PooledClient)

def setSub (k : SubId) (w : StandingSub) : PooledClient :=
  { s with sub := Function.update s.sub k w }

def setQuery (q : QueryId) (w : OneShot) : PooledClient :=
  { s with query := Function.update s.query q w }

def isRelayCoolingDown (url : JsString) : Bool :=
  match s.relayCooldowns.get? url with
  | some cooldown => s.now < cooldown.until'
  | none => false

/-- The pool has one connection for all spellings of a url. -/
def sameRelay (url url' : JsString) : Bool := normalizeURL url' = normalizeURL url

/-- `pool.close([url])` -/
def poolClose (url : JsString) : PooledClient :=
  { s with
    sub := fun k => (s.sub k).severed (sameRelay normalizeURL url)
    query := fun q =>
      { s.query q with asked := (s.query q).asked.filter fun u => !sameRelay normalizeURL url u } }

def markRelayRateLimited (url : JsString) : PooledClient :=
  if s.isRelayCoolingDown url then s
  else
    let strikes := ((s.relayCooldowns.get? url).map Cooldown.strikes).getD 0 + 1
    let duration := min (RELAY_COOLDOWN_BASE_MS * 2 ^ (strikes - 1)) RELAY_COOLDOWN_MAX_MS
    { s with
      relayCooldowns := s.relayCooldowns.set url ⟨strikes, s.now + duration⟩ }.poolClose
        normalizeURL url

def noteRelayAnswered (url : JsString) : PooledClient :=
  match s.relayCooldowns.get? url with
  | some cooldown =>
    if cooldown.until' ≤ s.now then { s with relayCooldowns := s.relayCooldowns.delete url } else s
  | none => s

/-- The retry timer of a REQ that was rate limited. -/
def armRetry (k : SubId) (url : JsString) : PooledClient :=
  if (s.sub k).callerClosed then s
  else
    let until' := ((s.relayCooldowns.get? url).map Cooldown.until').getD 0
    let delay := max (until' - s.now) RELAY_COOLDOWN_BASE_MS
    s.setSub k ((s.sub k).setPhase url (.waiting (s.now + delay)))

/-- `onclose` of a standing REQ that the relay ended. -/
def closed (k : SubId) (url : JsString) (isRetry : Bool) (reason : JsString) : PooledClient :=
  let limited := isRateLimitReason reason
  let s := s.setSub k ((s.sub k).ended url isRetry limited reason)
  if limited then (s.markRelayRateLimited normalizeURL url).armRetry k url else s

/-- One step of the client. -/
def step (s : PooledClient) : ClientAction → Option PooledClient
  | .subscribe urls => some { s.setSub s.nextSub (.new urls) with nextSub := s.nextSub + 1 }
  | .connected k url ok =>
    match ((s.sub k).link url).phase with
    | .connecting isRetry =>
      if ok then
        if (s.sub k).callerClosed then some (s.setSub k ((s.sub k).setPhase url .gone))
        else some (s.setSub k ((s.sub k).setPhase url (.active isRetry)))
      else
        let w := (s.sub k).setPhase url .gone
        some (s.setSub k (if isRetry then w else w.noteEose))
    | _ => none
  | .eose k url =>
    match ((s.sub k).link url).phase with
    | .active isRetry =>
      some (if isRetry then s.noteRelayAnswered url else s.setSub k (s.sub k).noteEose)
    | _ => none
  | .closed k url reason =>
    match ((s.sub k).link url).phase with
    | .active isRetry => some (s.closed normalizeURL k url isRetry reason)
    | _ => none
  | .retry k url =>
    match ((s.sub k).link url).phase with
    | .waiting due =>
      if due ≤ s.now then some (s.setSub k ((s.sub k).setPhase url (.connecting true))) else none
    | _ => none
  | .close k => if k < s.nextSub then some (s.setSub k (s.sub k).close) else none
  | .queryWithStats urls =>
    let relays := urls.eraseDups.filter fun url => !s.isRelayCoolingDown url
    some { s.setQuery s.nextQuery ⟨relays, [], 0, false⟩ with nextQuery := s.nextQuery + 1 }
  | .queryConnected q url ok =>
    let w := s.query q
    if url ∈ w.connecting then
      let asked := if ok && !w.completedEarly then url :: w.asked else w.asked
      some (s.setQuery q { w with connecting := w.connecting.erase url, asked := asked })
    else none
  | .queryEose q url =>
    let w := s.query q
    if url ∈ w.asked then
      some ((s.setQuery q { w with
        asked := w.asked.erase url
        eoseCount := w.eoseCount + 1 }).noteRelayAnswered url)
    else none
  | .queryClosed q url reason =>
    let w := s.query q
    if url ∈ w.asked then
      let s := s.setQuery q { w with asked := w.asked.erase url }
      some (if isRateLimitReason reason then s.markRelayRateLimited normalizeURL url else s)
    else none
  | .queryDeadline q url =>
    let w := s.query q
    if url ∈ w.asked then some (s.setQuery q { w with asked := w.asked.erase url }) else none
  | .queryComplete q =>
    some (s.setQuery q { s.query q with asked := [], completedEarly := true })
  | .tick ms => some { s with now := s.now + ms }

/-- From its first rate limit on, until the caller closes, a standing subscription has an active
REQ on the relay, a pending connection or an armed timer. -/
def HoldsRelays : Prop :=
  ∀ k url, ((s.sub k).link url).limited = true → (s.sub k).callerClosed = false →
    ((s.sub k).link url).phase ≠ .gone

/-- Closing with this reason makes the pool close the connection. -/
def severs (url reason : JsString) : Bool := isRateLimitReason reason && !s.isRelayCoolingDown url

/-- The action ends what a standing subscription has on a relay: the connection of a retry fails,
the relay ends the REQ of a retry for another reason than rate limiting, or the pool closes the
connection on behalf of another request while the REQ is active. -/
def Loses (s : PooledClient) (k : SubId) (url : JsString) : ClientAction → Prop
  | .connected k' url' ok =>
    k' = k ∧ url' = url ∧ ok = false ∧ ((s.sub k).link url).phase = .connecting true
  | .closed k' url' reason =>
    if k' = k ∧ url' = url then
      isRateLimitReason reason = false ∧ ((s.sub k).link url).phase = .active true
    else s.severs url' reason = true ∧ sameRelay normalizeURL url' url = true ∧
      ((s.sub k).link url).phase.isActive = true
  | .queryClosed _ url' reason =>
    s.severs url' reason = true ∧ sameRelay normalizeURL url' url = true ∧
      ((s.sub k).link url).phase.isActive = true
  | _ => False

instance (s : PooledClient) (k : SubId) (url : JsString) :
    ∀ a, Decidable (s.Loses normalizeURL k url a)
  | .connected _ _ _ => inferInstanceAs (Decidable (_ ∧ _ ∧ _ ∧ _))
  | .closed _ _ _ => inferInstanceAs (Decidable (ite _ _ _))
  | .queryClosed _ _ _ => inferInstanceAs (Decidable (_ ∧ _ ∧ _))
  | .subscribe _ | .eose _ _ | .retry _ _ | .close _ | .queryWithStats _ | .queryConnected _ _ _
  | .queryEose _ _ | .queryDeadline _ _ | .queryComplete _ | .tick _ =>
    inferInstanceAs (Decidable False)

/-- No subscription that its caller keeps open loses a relay by the action. -/
def KeepsRelays (s : PooledClient) (a : ClientAction) : Prop :=
  ∀ k < s.nextSub, (s.sub k).callerClosed = false →
    ∀ url ∈ (s.sub k).relays, ¬ s.Loses normalizeURL k url a

instance (s : PooledClient) (a : ClientAction) : Decidable (s.KeepsRelays normalizeURL a) :=
  inferInstanceAs (Decidable (∀ k < s.nextSub, (s.sub k).callerClosed = false →
    ∀ url ∈ (s.sub k).relays, ¬ s.Loses normalizeURL k url a))

end PooledClient

/-- What a step can do to a link of a subscription that stays open; `true` marks a loss. -/
inductive LinkMove : RelayLink → RelayLink → Bool → Prop
  | same (x : RelayLink) : LinkMove x x false
  | opened (isRetry limited : Bool) :
      LinkMove ⟨.connecting isRetry, limited⟩ ⟨.active isRetry, limited⟩ false
  | failed (isRetry limited : Bool) :
      LinkMove ⟨.connecting isRetry, limited⟩ ⟨.gone, limited⟩ isRetry
  | ended (isRetry limited : Bool) :
      LinkMove ⟨.active isRetry, limited⟩ ⟨.gone, limited⟩ isRetry
  | limited (isRetry limited : Bool) (due : Nat) :
      LinkMove ⟨.active isRetry, limited⟩ ⟨.waiting due, true⟩ false
  | severed (isRetry limited : Bool) : LinkMove ⟨.active isRetry, limited⟩ ⟨.gone, true⟩ true
  | retried (due : Nat) (limited : Bool) :
      LinkMove ⟨.waiting due, limited⟩ ⟨.connecting true, limited⟩ false

/-- Only what was rate limited is retried. -/
def RelayLink.Sound (x : RelayLink) : Prop :=
  match x.phase with
  | .gone => True
  | .connecting isRetry | .active isRetry => x.limited = isRetry
  | .waiting _ => x.limited = true

/-- A link that was rate limited is not gone. -/
def RelayLink.Held (x : RelayLink) : Prop := x.limited = true → x.phase ≠ .gone

section LinkMove

variable {x y : RelayLink} {lost : Bool}

theorem LinkMove.sound (h : LinkMove x y lost) (hx : x.Sound) : y.Sound := by
  cases h with
  | same => exact hx
  | opened isRetry limited => exact hx
  | failed => trivial
  | ended => trivial
  | limited => rfl
  | severed => trivial
  | retried due limited => exact hx

/-- A move keeps a link held unless it is a loss. -/
theorem LinkMove.held_iff (h : LinkMove x y lost) (hs : x.Sound) (hx : x.Held) :
    y.Held ↔ lost = false := by
  cases h with
  | same => exact ⟨fun _ => rfl, fun _ => hx⟩
  | opened isRetry limited => simp [RelayLink.Held]
  | failed _ limited =>
    obtain rfl : limited = lost := hs
    cases limited <;> simp [RelayLink.Held]
  | ended _ limited =>
    obtain rfl : limited = lost := hs
    cases limited <;> simp [RelayLink.Held]
  | limited isRetry limited due => simp [RelayLink.Held]
  | severed isRetry limited => simp [RelayLink.Held]
  | retried due limited => simp [RelayLink.Held]

theorem LinkMove.unlinked (h : LinkMove ⟨.gone, false⟩ x lost) :
    x = ⟨.gone, false⟩ := by
  cases h with
  | same => rfl

end LinkMove

namespace StandingSub

variable (w : StandingSub) {url url' : JsString}

theorem setPhase_self (phase : LinkPhase) :
    (w.setPhase url phase).link url = ⟨phase, (w.link url).limited⟩ := by
  simp [setPhase]

theorem setPhase_of_ne (h : url' ≠ url) (phase : LinkPhase) :
    (w.setPhase url phase).link url' = w.link url' := by
  simp [setPhase, h]

@[simp] theorem noteEose_link : w.noteEose.link = w.link := by
  unfold noteEose
  split <;> rfl

@[simp] theorem noteEose_callerClosed : w.noteEose.callerClosed = w.callerClosed := by
  unfold noteEose
  split <;> rfl

@[simp] theorem noteEose_relays : w.noteEose.relays = w.relays := by
  unfold noteEose
  split <;> rfl

theorem ended_self (isRetry limited : Bool) (reason : JsString) :
    (w.ended url isRetry limited reason).link url = ⟨.gone, (w.link url).limited || limited⟩ := by
  simp [ended]

theorem ended_of_ne (h : url' ≠ url) (isRetry limited : Bool) (reason : JsString) :
    (w.ended url isRetry limited reason).link url' = w.link url' := by
  simp [ended, h]

/-- What severing does to a link -/
theorem severed_move (same : JsString → Bool) :
    LinkMove (w.link url) ((w.severed same).link url)
      (same url && (w.link url).phase.isActive) := by
  show LinkMove _ (if same url && (w.link url).phase.isActive then ⟨.gone, true⟩ else w.link url) _
  cases hs : same url && (w.link url).phase.isActive with
  | false => exact .same _
  | true =>
    obtain ⟨-, hactive⟩ := Bool.and_eq_true_iff.mp hs
    generalize w.link url = x at hactive ⊢
    obtain ⟨phase, limited⟩ := x
    cases phase with
    | active isRetry => exact .severed isRetry limited
    | _ => cases hactive

end StandingSub

namespace PooledClient

variable {normalizeURL : JsString → JsString} {s s' : PooledClient} {k : SubId} {url : JsString}

@[simp] theorem setSub_self (w : StandingSub) : (s.setSub k w).sub k = w := by simp [setSub]

theorem setSub_of_ne {k' : SubId} (h : k' ≠ k) (w : StandingSub) :
    (s.setSub k w).sub k' = s.sub k' := by
  simp [setSub, h]

@[simp] theorem setQuery_sub (q : QueryId) (w : OneShot) : (s.setQuery q w).sub = s.sub := rfl

@[simp] theorem noteRelayAnswered_sub (url : JsString) :
    (s.noteRelayAnswered url).sub = s.sub := by
  unfold noteRelayAnswered
  split
  · split <;> rfl
  · rfl

/-- Marking a relay severs its standing REQs, unless it is cooling down already. -/
theorem markRelayRateLimited_sub (url : JsString) (k : SubId) :
    (s.markRelayRateLimited normalizeURL url).sub k =
      if s.isRelayCoolingDown url then s.sub k
      else (s.sub k).severed (sameRelay normalizeURL url) := by
  unfold markRelayRateLimited
  split <;> rfl

/-- What marking a relay does to a link -/
theorem markRelayRateLimited_move (url' : JsString) :
    LinkMove ((s.sub k).link url) (((s.markRelayRateLimited normalizeURL url').sub k).link url)
      (!s.isRelayCoolingDown url' && (sameRelay normalizeURL url' url &&
        ((s.sub k).link url).phase.isActive)) := by
  rw [markRelayRateLimited_sub]
  cases s.isRelayCoolingDown url' with
  | true => exact .same _
  | false => exact (s.sub k).severed_move _

/-- A link without an active REQ stays. -/
theorem markRelayRateLimited_idle (url' : JsString)
    (h : ((s.sub k).link url).phase.isActive = false) :
    ((s.markRelayRateLimited normalizeURL url').sub k).link url = (s.sub k).link url := by
  rw [markRelayRateLimited_sub]
  split
  · rfl
  · simp [StandingSub.severed, h]

/-- What a step can do to a standing subscription: it keeps it as it is for its caller and moves
its links, or its caller has closed it, or it starts it. -/
inductive SubMove (normalizeURL : JsString → JsString) (s : PooledClient) (a : ClientAction)
    (k : SubId) : StandingSub → StandingSub → Prop
  | kept {w w' : StandingSub} (hrelays : w'.relays = w.relays)
      (hcaller : w'.callerClosed = w.callerClosed)
      (hlink : ∀ url, ∃ lost, LinkMove (w.link url) (w'.link url) lost ∧
        (lost = true ↔ s.Loses normalizeURL k url a)) : SubMove normalizeURL s a k w w'
  | closed {w w' : StandingSub} (hrelays : w'.relays = w.relays) (hcaller : w'.callerClosed = true)
      (hlink : ∀ url, w.link url = ⟨.gone, false⟩ → w'.link url = ⟨.gone, false⟩)
      (hclose : w.callerClosed = true ∨ k < s.nextSub ∧ a = .close k) :
      SubMove normalizeURL s a k w w'
  | begun {w w' : StandingSub} (urls : List JsString) (hnew : k = s.nextSub)
      (ha : a = .subscribe urls) (hw : w' = .new urls) : SubMove normalizeURL s a k w w'

theorem SubMove.same {a : ClientAction} {w w' : StandingSub} (hrelays : w'.relays = w.relays)
    (hcaller : w'.callerClosed = w.callerClosed) (hlink : w'.link = w.link)
    (ha : ∀ url, ¬ s.Loses normalizeURL k url a) : SubMove normalizeURL s a k w w' := by
  refine .kept hrelays hcaller fun url => ⟨false, ?_, ?_⟩
  · rw [hlink]
    exact .same _
  · simp [ha url]

/-- One link moves and the others stay. -/
theorem SubMove.one {a : ClientAction} {w w' : StandingSub} (url : JsString)
    (hrelays : w'.relays = w.relays) (hcaller : w'.callerClosed = w.callerClosed) {lost : Bool}
    (hmove : LinkMove (w.link url) (w'.link url) lost)
    (hlost : lost = true ↔ s.Loses normalizeURL k url a)
    (hlink : ∀ url', url' ≠ url → w'.link url' = w.link url' ∧ ¬ s.Loses normalizeURL k url' a) :
    SubMove normalizeURL s a k w w' := by
  refine .kept hrelays hcaller fun url' => ?_
  by_cases hu : url' = url
  · subst hu
    exact ⟨lost, hmove, hlost⟩
  · obtain ⟨hsame, hnot⟩ := hlink url' hu
    refine ⟨false, ?_, by simp [hnot]⟩
    rw [hsame]
    exact .same _

section Step

variable {k' : SubId} {url' : JsString}

theorem connected_move {ok : Bool}
    (hs : s.step normalizeURL (.connected k' url' ok) = some s') :
    SubMove normalizeURL s (.connected k' url' ok) k (s.sub k) (s'.sub k) := by
  simp only [step] at hs
  split at hs
  case h_2 => cases hs
  rename_i isRetry hphase
  by_cases hk : k = k'
  · subst hk
    have hlink : (s.sub k).link url' = ⟨.connecting isRetry, ((s.sub k).link url').limited⟩ := by
      rw [← hphase]
    have hothers (w : StandingSub) (hw : w = s.sub k) (phase : LinkPhase) (url : JsString)
        (hu : url ≠ url') : (w.setPhase url' phase).link url = (s.sub k).link url ∧
          ¬ s.Loses normalizeURL k url (.connected k url' ok) := by
      subst hw
      exact ⟨StandingSub.setPhase_of_ne _ hu phase, fun h => hu h.2.1.symm⟩
    cases ok with
    | true =>
      simp only [if_true] at hs
      split at hs
      · rename_i hcaller
        obtain rfl := Option.some.inj hs
        rw [setSub_self]
        refine .closed rfl hcaller (fun url hgone => ?_) (.inl hcaller)
        by_cases hu : url = url'
        · subst hu
          rw [hgone] at hphase
          cases hphase
        · rw [StandingSub.setPhase_of_ne _ hu, hgone]
      · obtain rfl := Option.some.inj hs
        rw [setSub_self]
        have hmove : LinkMove ((s.sub k).link url')
            (((s.sub k).setPhase url' (.active isRetry)).link url') false := by
          rw [StandingSub.setPhase_self, hlink]
          exact .opened isRetry _
        exact .one url' rfl rfl hmove (by simp [Loses]) (hothers _ rfl _)
    | false =>
      simp only [Bool.false_eq_true, if_false] at hs
      obtain rfl := Option.some.inj hs
      rw [setSub_self]
      have hmove : LinkMove ((s.sub k).link url')
          (((s.sub k).setPhase url' .gone).link url') isRetry := by
        rw [StandingSub.setPhase_self, hlink]
        exact .failed isRetry _
      have hlost : isRetry = true ↔ s.Loses normalizeURL k url' (.connected k url' false) := by
        simp [Loses, hphase]
      split
      · exact .one url' rfl rfl hmove hlost (hothers _ rfl _)
      · refine .one url' (by simp; rfl) (by simp; rfl) (by simpa using hmove) hlost ?_
        intro url hu
        simpa using hothers _ rfl .gone url hu
  · have hsub : s'.sub k = s.sub k := by
      split at hs
      · split at hs <;> obtain rfl := Option.some.inj hs <;> exact setSub_of_ne hk _
      · obtain rfl := Option.some.inj hs
        exact setSub_of_ne hk _
    rw [hsub]
    exact .same rfl rfl rfl fun url h => hk h.1.symm

/-- The pool closes a connection on behalf of some request. -/
theorem mark_kept {a : ClientAction} {w' : StandingSub} {reason : JsString}
    (hreason : isRateLimitReason reason = true)
    (hw' : w' = (s.markRelayRateLimited normalizeURL url').sub k)
    (ha : ∀ url, s.Loses normalizeURL k url a ↔ s.severs url' reason = true ∧
      sameRelay normalizeURL url' url = true ∧ ((s.sub k).link url).phase.isActive = true) :
    SubMove normalizeURL s a k (s.sub k) w' := by
  subst hw'
  refine .kept ?_ ?_ fun url => ⟨_, markRelayRateLimited_move url', ?_⟩
  · rw [markRelayRateLimited_sub]
    split <;> rfl
  · rw [markRelayRateLimited_sub]
    split <;> rfl
  · rw [ha url]
    simp [severs, hreason]

/-- The own REQ of a subscription has ended, and the pool may close the connection. -/
theorem closed_own {isRetry : Bool} {reason : JsString}
    (hphase : ((s.sub k).link url').phase = .active isRetry)
    (hreason : isRateLimitReason reason = true) :
    SubMove normalizeURL s (.closed k url' reason) k (s.sub k)
      ((s.closed normalizeURL k url' isRetry reason).sub k) := by
  -- the state once the REQ is off the books
  let ended := (s.sub k).ended url' isRetry true reason
  let t := s.setSub k ended
  have ht : t.sub k = ended := setSub_self _
  have hclosed : s.closed normalizeURL k url' isRetry reason =
      (t.markRelayRateLimited normalizeURL url').armRetry k url' := by
    simp [closed, hreason, t, ended]
  have hrelays : ((t.markRelayRateLimited normalizeURL url').sub k).relays = (s.sub k).relays := by
    rw [markRelayRateLimited_sub, ht]
    split <;> rfl
  have hcaller : ((t.markRelayRateLimited normalizeURL url').sub k).callerClosed =
      (s.sub k).callerClosed := by
    rw [markRelayRateLimited_sub, ht]
    split <;> rfl
  rw [hclosed, armRetry]
  split
  · rename_i hcallerClosed
    refine .closed hrelays hcallerClosed (fun url hgone => ?_) (.inl (hcaller ▸ hcallerClosed))
    have hne : url ≠ url' := by
      rintro rfl
      rw [hgone] at hphase
      cases hphase
    have hlink : (t.sub k).link url = ⟨.gone, false⟩ := by
      rw [ht, StandingSub.ended_of_ne _ hne, hgone]
    rw [markRelayRateLimited_idle url' (by rw [hlink]; rfl), hlink]
  · rw [setSub_self]
    refine .kept hrelays hcaller fun url => ?_
    by_cases hu : url = url'
    · subst hu
      have hlink : (t.sub k).link url = ⟨.gone, true⟩ := by
        rw [ht, StandingSub.ended_self, Bool.or_true]
      refine ⟨false, ?_, by simp [Loses, hreason]⟩
      rw [StandingSub.setPhase_self, markRelayRateLimited_idle url (by rw [hlink]; rfl), hlink,
        show (s.sub k).link url = ⟨.active isRetry, ((s.sub k).link url).limited⟩ by rw [← hphase]]
      exact .limited isRetry _ _
    · -- the pool may close another spelling of the relay
      have hmove : LinkMove ((t.sub k).link url)
          (((t.markRelayRateLimited normalizeURL url').sub k).link url) _ :=
        markRelayRateLimited_move url'
      rw [ht, StandingSub.ended_of_ne _ hu] at hmove
      rw [StandingSub.setPhase_of_ne _ hu]
      refine ⟨_, hmove, ?_⟩
      have hcooling : t.isRelayCoolingDown url' = s.isRelayCoolingDown url' := rfl
      simp [Loses, severs, hreason, hcooling, Ne.symm hu]

theorem closed_move {reason : JsString}
    (hs : s.step normalizeURL (.closed k' url' reason) = some s') :
    SubMove normalizeURL s (.closed k' url' reason) k (s.sub k) (s'.sub k) := by
  simp only [step] at hs
  split at hs
  case h_2 => cases hs
  rename_i isRetry hphase
  obtain rfl := Option.some.inj hs
  cases hreason : isRateLimitReason reason with
  | false =>
    have hclosed : s.closed normalizeURL k' url' isRetry reason =
        s.setSub k' ((s.sub k').ended url' isRetry false reason) := by
      simp [closed, hreason]
    rw [hclosed]
    by_cases hk : k = k'
    · subst hk
      rw [setSub_self]
      have hmove : LinkMove ((s.sub k).link url')
          (((s.sub k).ended url' isRetry false reason).link url') isRetry := by
        rw [StandingSub.ended_self, Bool.or_false,
          show (s.sub k).link url' = ⟨.active isRetry, ((s.sub k).link url').limited⟩ by
            rw [← hphase]]
        exact .ended isRetry _
      refine .one url' rfl rfl hmove (by simp [Loses, hreason, hphase]) fun url hu => ?_
      refine ⟨StandingSub.ended_of_ne _ hu _ _ _, ?_⟩
      simp [Loses, severs, hreason, Ne.symm hu]
    · rw [setSub_of_ne hk]
      refine .same rfl rfl rfl fun url => ?_
      simp [Loses, severs, hreason, Ne.symm hk]
  | true =>
    by_cases hk : k = k'
    · subst hk
      exact closed_own hphase hreason
    · have hsub : (s.closed normalizeURL k' url' isRetry reason).sub k =
          ((s.setSub k' ((s.sub k').ended url' isRetry true reason)).markRelayRateLimited
            normalizeURL url').sub k := by
        simp only [closed, hreason, if_true, armRetry]
        split
        · rfl
        · exact setSub_of_ne hk _
      rw [hsub, markRelayRateLimited_sub, setSub_of_ne hk]
      refine mark_kept hreason (by rw [markRelayRateLimited_sub]; rfl) fun url => ?_
      simp [Loses, Ne.symm hk]

/-- One step, for each standing subscription -/
theorem step_move {a : ClientAction}
    (hs : s.step normalizeURL a = some s') (k : SubId) :
    SubMove normalizeURL s a k (s.sub k) (s'.sub k) := by
  cases a with
  | subscribe urls =>
    obtain rfl := Option.some.inj hs
    by_cases hk : k = s.nextSub
    · subst hk
      exact .begun urls rfl rfl (setSub_self _)
    · exact .same (congrArg _ (setSub_of_ne hk _)) (congrArg _ (setSub_of_ne hk _))
        (congrArg _ (setSub_of_ne hk _)) fun _ h => h
  | connected k' url' ok => exact connected_move hs
  | closed k' url' reason => exact closed_move hs
  | eose k' url' =>
    simp only [step] at hs
    split at hs
    case h_2 => cases hs
    obtain rfl := Option.some.inj hs
    split
    · exact .same (by simp) (by simp) (by simp) fun _ h => h
    · by_cases hk : k = k'
      · subst hk
        exact .same (by simp) (by simp) (by simp) fun _ h => h
      · rw [setSub_of_ne hk]
        exact .same rfl rfl rfl fun _ h => h
  | retry k' url' =>
    simp only [step] at hs
    split at hs
    case h_2 => cases hs
    rename_i due hphase
    split at hs
    case isFalse => cases hs
    obtain rfl := Option.some.inj hs
    by_cases hk : k = k'
    · subst hk
      rw [setSub_self]
      have hmove : LinkMove ((s.sub k).link url')
          (((s.sub k).setPhase url' (.connecting true)).link url') false := by
        rw [StandingSub.setPhase_self, show (s.sub k).link url' =
          ⟨.waiting due, ((s.sub k).link url').limited⟩ by rw [← hphase]]
        exact .retried due _
      exact .one url' rfl rfl hmove (by simp [Loses]) fun url hu =>
        ⟨StandingSub.setPhase_of_ne _ hu _, fun h => h⟩
    · rw [setSub_of_ne hk]
      exact .same rfl rfl rfl fun _ h => h
  | close k' =>
    simp only [step] at hs
    split at hs
    case isFalse => cases hs
    rename_i hborn
    obtain rfl := Option.some.inj hs
    by_cases hk : k = k'
    · subst hk
      rw [setSub_self]
      refine .closed rfl rfl (fun url hgone => ?_) (.inr ⟨hborn, rfl⟩)
      simp [StandingSub.close, hgone]
    · rw [setSub_of_ne hk]
      exact .same rfl rfl rfl fun _ h => h
  | queryWithStats urls =>
    obtain rfl := Option.some.inj hs
    exact .same rfl rfl rfl fun _ h => h
  | queryConnected q url' ok =>
    simp only [step] at hs
    split at hs
    case isFalse => cases hs
    obtain rfl := Option.some.inj hs
    exact .same rfl rfl rfl fun _ h => h
  | queryEose q url' =>
    simp only [step] at hs
    split at hs
    case isFalse => cases hs
    obtain rfl := Option.some.inj hs
    rw [noteRelayAnswered_sub]
    exact .same rfl rfl rfl fun _ h => h
  | queryClosed q url' reason =>
    simp only [step] at hs
    split at hs
    case isFalse => cases hs
    obtain rfl := Option.some.inj hs
    split
    · rename_i hreason
      rw [markRelayRateLimited_sub]
      exact mark_kept hreason (by rw [markRelayRateLimited_sub]; rfl) fun _ => Iff.rfl
    · rename_i hreason
      exact .same rfl rfl rfl fun url h => hreason (Bool.and_eq_true_iff.mp h.1).1
  | queryDeadline q url' =>
    simp only [step] at hs
    split at hs
    case isFalse => cases hs
    obtain rfl := Option.some.inj hs
    exact .same rfl rfl rfl fun _ h => h
  | queryComplete q =>
    obtain rfl := Option.some.inj hs
    exact .same rfl rfl rfl fun _ h => h
  | tick ms =>
    obtain rfl := Option.some.inj hs
    exact .same rfl rfl rfl fun _ h => h

end Step

@[simp] theorem markRelayRateLimited_nextSub (url : JsString) :
    (s.markRelayRateLimited normalizeURL url).nextSub = s.nextSub := by
  unfold markRelayRateLimited
  split <;> rfl

@[simp] theorem noteRelayAnswered_nextSub (url : JsString) :
    (s.noteRelayAnswered url).nextSub = s.nextSub := by
  unfold noteRelayAnswered
  split
  · split <;> rfl
  · rfl

@[simp] theorem closed_nextSub (k : SubId) (url : JsString) (isRetry : Bool) (reason : JsString) :
    (s.closed normalizeURL k url isRetry reason).nextSub = s.nextSub := by
  unfold closed armRetry
  dsimp only
  split
  · split
    · exact markRelayRateLimited_nextSub _
    · exact markRelayRateLimited_nextSub _
  · rfl

/-- Only `subscribe` starts a standing subscription. -/
theorem step_nextSub {a : ClientAction} (hs : s.step normalizeURL a = some s') :
    s'.nextSub = s.nextSub ∨ s'.nextSub = s.nextSub + 1 ∧ ∃ urls, a = .subscribe urls := by
  cases a with
  | subscribe urls =>
    obtain rfl := Option.some.inj hs
    exact .inr ⟨rfl, urls, rfl⟩
  | queryWithStats _ | queryComplete _ | tick _ =>
    obtain rfl := Option.some.inj hs
    exact .inl rfl
  | connected _ _ _ =>
    simp only [step] at hs
    split at hs
    · split at hs
      · split at hs <;> obtain rfl := Option.some.inj hs <;> exact .inl rfl
      · obtain rfl := Option.some.inj hs
        exact .inl rfl
    · cases hs
  | eose _ _ =>
    simp only [step] at hs
    split at hs
    · obtain rfl := Option.some.inj hs
      split
      · exact .inl (noteRelayAnswered_nextSub _)
      · exact .inl rfl
    · cases hs
  | closed _ _ _ =>
    simp only [step] at hs
    split at hs
    · obtain rfl := Option.some.inj hs
      exact .inl (closed_nextSub _ _ _ _)
    · cases hs
  | retry _ _ =>
    simp only [step] at hs
    split at hs
    · split at hs
      · obtain rfl := Option.some.inj hs
        exact .inl rfl
      · cases hs
    · cases hs
  | close _ | queryConnected _ _ _ | queryDeadline _ _ =>
    simp only [step] at hs
    split at hs
    · obtain rfl := Option.some.inj hs
      exact .inl rfl
    · cases hs
  | queryEose _ _ =>
    simp only [step] at hs
    split at hs
    · obtain rfl := Option.some.inj hs
      exact .inl (noteRelayAnswered_nextSub _)
    · cases hs
  | queryClosed _ _ _ =>
    simp only [step] at hs
    split at hs
    · obtain rfl := Option.some.inj hs
      split
      · exact .inl (markRelayRateLimited_nextSub _)
      · exact .inl rfl
    · cases hs

/-- Only the relays of started subscriptions have links, and only what was rate limited is
retried. -/
structure Tracked (s : PooledClient) : Prop where
  fresh : ∀ k, s.nextSub ≤ k →
    (s.sub k).callerClosed = false ∧ ∀ url, (s.sub k).link url = ⟨.gone, false⟩
  named : ∀ k url, url ∉ (s.sub k).relays → (s.sub k).link url = ⟨.gone, false⟩
  sound : ∀ k url, (s.sub k).callerClosed = false → ((s.sub k).link url).Sound

theorem tracked_init (now : Nat) : Tracked (init now) :=
  ⟨fun _ _ => ⟨rfl, fun _ => rfl⟩, fun _ _ _ => rfl, fun _ _ _ => trivial⟩

theorem step_tracked (h : s.Tracked) {a : ClientAction}
    (hs : s.step normalizeURL a = some s') : s'.Tracked := by
  refine ⟨fun k hk => ?_, fun k url hu => ?_, fun k url hopen => ?_⟩
  · have hle : s.nextSub ≤ k := by
      rcases step_nextSub hs with heq | ⟨heq, -⟩
      · exact heq ▸ hk
      · rw [heq] at hk
        exact Nat.le_of_succ_le hk
    obtain ⟨hcaller, hgone⟩ := h.fresh k hle
    cases step_move hs k with
    | kept _ hcaller' hlink =>
      refine ⟨hcaller'.trans hcaller, fun url => ?_⟩
      obtain ⟨lost, hmove, -⟩ := hlink url
      rw [hgone url] at hmove
      exact hmove.unlinked
    | closed _ _ _ hclose =>
      rcases hclose with hclose | ⟨hlt, -⟩
      · rw [hcaller] at hclose
        cases hclose
      · exact absurd hle (Nat.not_le.mpr hlt)
    | begun urls hnew ha _ =>
      subst ha
      obtain rfl := Option.some.inj hs
      exact absurd hk (Nat.not_le.mpr (hnew ▸ Nat.lt_succ_self _))
  · cases step_move hs k with
    | kept hrelays _ hlink =>
      obtain ⟨lost, hmove, -⟩ := hlink url
      rw [h.named k url (hrelays ▸ hu)] at hmove
      exact hmove.unlinked
    | closed hrelays _ hlink _ => exact hlink url (h.named k url (hrelays ▸ hu))
    | begun urls _ _ hw =>
      rw [hw] at hu ⊢
      have hnot : url ∉ urls := fun hmem => hu (List.mem_eraseDups.mpr hmem)
      simp [StandingSub.new, hnot]
  · cases step_move hs k with
    | kept _ hcaller hlink =>
      obtain ⟨lost, hmove, -⟩ := hlink url
      exact hmove.sound (h.sound k url (hcaller ▸ hopen))
    | closed _ hcaller _ _ =>
      rw [hcaller] at hopen
      cases hopen
    | begun urls _ _ hw =>
      rw [hw]
      unfold StandingSub.new
      dsimp only
      split
      · rfl
      · trivial

/-- A step keeps what is held exactly when it loses no relay. -/
theorem step_holdsRelays (h : s.Tracked) (hheld : s.HoldsRelays) {a : ClientAction}
    (hs : s.step normalizeURL a = some s') :
    s'.HoldsRelays ↔ s.KeepsRelays normalizeURL a := by
  constructor
  · intro hheld' k _ hopen url _ hloses
    cases step_move hs k with
    | kept _ hcaller hlink =>
      obtain ⟨lost, hmove, hlost⟩ := hlink url
      have hno : lost = false :=
        (hmove.held_iff (h.sound k url hopen) fun hlimited => hheld k url hlimited hopen).mp
          fun hlimited => hheld' k url hlimited (hcaller.trans hopen)
      rw [hlost.mpr hloses] at hno
      cases hno
    | closed _ _ _ hclose =>
      rcases hclose with hclose | ⟨-, rfl⟩
      · rw [hopen] at hclose
        cases hclose
      · exact hloses
    | begun urls _ ha _ =>
      subst ha
      exact hloses
  · intro hkeeps k url hlimited hopen
    cases step_move hs k with
    | kept _ hcaller hlink =>
      obtain ⟨lost, hmove, hlost⟩ := hlink url
      have hopen' : (s.sub k).callerClosed = false := hcaller ▸ hopen
      -- what is not among the relays of a started subscription has no link to lose
      have hloses : ¬ s.Loses normalizeURL k url a ∨ (s.sub k).link url = ⟨.gone, false⟩ := by
        by_cases hk : k < s.nextSub
        · by_cases hu : url ∈ (s.sub k).relays
          · exact .inl (hkeeps k hk hopen' url hu)
          · exact .inr (h.named k url hu)
        · exact .inr ((h.fresh k (Nat.le_of_not_lt hk)).2 url)
      rcases hloses with hloses | hgone
      · have hno : lost = false := by
          cases lost with
          | false => rfl
          | true => exact absurd (hlost.mp rfl) hloses
        exact (hmove.held_iff (h.sound k url hopen') fun hlimited =>
          hheld k url hlimited hopen').mpr hno hlimited
      · rw [hgone] at hmove
        rw [hmove.unlinked] at hlimited
        cases hlimited
    | closed _ hcaller _ _ =>
      rw [hcaller] at hopen
      cases hopen
    | begun urls _ _ hw =>
      rw [hw] at hlimited
      unfold StandingSub.new at hlimited
      dsimp only at hlimited
      split at hlimited <;> cases hlimited

/-- In a run, every standing subscription has something on each of its rate-limited relays in
every state exactly when no step loses a relay. -/
theorem holdsRelays_iff (normalizeURL : JsString → JsString) (now : Nat)
    {as : List ClientAction} {t : PooledClient}
    (hr : run (step normalizeURL) (init now) as = some t) :
    (∀ as₁ as₂ s, as = as₁ ++ as₂ → run (step normalizeURL) (init now) as₁ = some s →
        s.HoldsRelays) ↔
      Guarded (step normalizeURL) (KeepsRelays normalizeURL) (init now) as := by
  have hheld : (init now).HoldsRelays := by
    intro k url hlimited
    simp [init, StandingSub.new] at hlimited
  exact guarded_iff_forall_prefix (fun _ _ _ h hs => step_tracked h hs)
    (fun _ _ _ h hheld hs => step_holdsRelays h hheld hs) (tracked_init now) hheld hr

/-- A firehose is rate limited and comes back; then the relay limits it again. -/
def limitedTwice : List ClientAction :=
  [.subscribe [js "ws://r"], .connected 0 (js "ws://r") true,
    .closed 0 (js "ws://r") (js "rate-limited: slow down"), .tick 60000, .retry 0 (js "ws://r"),
    .connected 0 (js "ws://r") true, .closed 0 (js "ws://r") (js "RATE-LIMIT")]

theorem holdsRelays_iff_limitedTwice :
    ∃ t, run (step id) (init 0) limitedTwice = some t ∧
      ((t.sub 0).link (js "ws://r")).limited = true ∧ t.HoldsRelays := by
  have hrun : (run (step id) (init 0) limitedTwice).map (fun t =>
      ((t.sub 0).link (js "ws://r")).limited) = some true := by decide +kernel
  obtain ⟨t, ht, hlimited⟩ := Option.map_eq_some_iff.mp hrun
  have hg : Guarded (step id) (KeepsRelays id) (init 0) limitedTwice := by decide +kernel
  exact ⟨t, ht, hlimited,
    (holdsRelays_iff id 0 ht).mpr hg limitedTwice [] t (List.append_nil _).symm ht⟩

/-- A relay limits a query, and the pool closes its connection under a firehose. -/
def severedByQuery : List ClientAction :=
  [.subscribe [js "ws://r"], .connected 0 (js "ws://r") true, .queryWithStats [js "ws://r"],
    .queryConnected 0 (js "ws://r") true,
    .queryClosed 0 (js "ws://r") (js "rate-limited: slow down")]

/-- The firehose has lost the relay. -/
theorem holdsRelays_fails_severed :
    ¬ ∀ t, run (step id) (init 0) severedByQuery = some t → t.HoldsRelays := by
  intro h
  have hrun : (run (step id) (init 0) severedByQuery).map (fun t =>
      (((t.sub 0).link (js "ws://r")).limited, (t.sub 0).callerClosed,
        ((t.sub 0).link (js "ws://r")).phase)) = some (true, false, .gone) := by decide +kernel
  obtain ⟨t, ht, hlink⟩ := Option.map_eq_some_iff.mp hrun
  obtain ⟨hlimited, hrest⟩ := Prod.mk.inj hlink
  obtain ⟨hopen, hgone⟩ := Prod.mk.inj hrest
  exact h t ht 0 (js "ws://r") hlimited hopen hgone

end PooledClient

end LivelierBridge.Nostr
