import LivelierBridge.Nostr.RateLimits

namespace LivelierBridge.Nostr

open Framework Js

/-- A standing REQ whose EOSE the library still waits for. -/
structure EoseTimer where
  k : SubId
  url : JsString
  isRetry : Bool
  deriving DecidableEq

/-- A client with what its cooldowns depend on besides. -/
structure CooledClient where
  client : PooledClient
  /-- The relays whose cooldown has begun since the query was made. -/
  begunSince : QueryId → List JsString
  timers : List EoseTimer

inductive CooledAction where
  | client (a : ClientAction)
  /-- The timer of the library calls `oneose` of a standing REQ, without an EOSE from the relay. -/
  | syntheticEose (k : SubId) (url : JsString) (isRetry : Bool)

/-- The relay that an action finds rate limiting. -/
def ClientAction.limits : ClientAction → Option JsString
  | .closed _ url reason | .queryClosed _ url reason =>
    if isRateLimitReason reason then some url else none
  | _ => none

/-- The relay whose EOSE an action is. -/
def ClientAction.answers : ClientAction → Option JsString
  | .eose _ url | .queryEose _ url => some url
  | _ => none

def CooledAction.limits : CooledAction → Option JsString
  | .client a => a.limits
  | .syntheticEose _ _ _ => none

def CooledAction.answers : CooledAction → Option JsString
  | .client a => a.answers
  | .syntheticEose _ _ _ => none

namespace PooledClient

variable (s : PooledClient)

/-- The relay has been limiting, and its cooldown is over. -/
def hasCooled (url : JsString) : Bool :=
  match s.relayCooldowns.get? url with
  | some cooldown => cooldown.until' ≤ s.now
  | none => false

/-- The cooldown that the next rate limit of the relay begins. -/
def episode (url : JsString) : Cooldown :=
  let strikes := ((s.relayCooldowns.get? url).map Cooldown.strikes).getD 0 + 1
  ⟨strikes, s.now + min (RELAY_COOLDOWN_BASE_MS * 2 ^ (strikes - 1)) RELAY_COOLDOWN_MAX_MS⟩

/-- `oneose` of a standing REQ. -/
def oneose (k : SubId) (url : JsString) (isRetry : Bool) : PooledClient :=
  if isRetry then s.noteRelayAnswered url else s.setSub k (s.sub k).noteEose

end PooledClient

namespace CooledClient

variable (normalizeURL : JsString → JsString) (w : CooledClient)

def init (now : Nat) : CooledClient := ⟨.init now, fun _ => [], []⟩

def begunAfter : ClientAction → QueryId → List JsString
  | .queryWithStats _ => Function.update w.begunSince w.client.nextQuery []
  | .closed _ url reason | .queryClosed _ url reason =>
    if w.client.severs url reason then fun q => url :: w.begunSince q else w.begunSince
  | _ => w.begunSince

def timersAfter : ClientAction → List EoseTimer
  | .connected k url true =>
    match ((w.client.sub k).link url).phase with
    | .connecting isRetry =>
      if (w.client.sub k).callerClosed then w.timers else ⟨k, url, isRetry⟩ :: w.timers
    | _ => w.timers
  | .eose k url =>
    match ((w.client.sub k).link url).phase with
    | .active isRetry => w.timers.erase ⟨k, url, isRetry⟩
    | _ => w.timers
  | _ => w.timers

def step (w : CooledClient) : CooledAction → Option CooledClient
  | .client a =>
    (w.client.step normalizeURL a).map fun client => ⟨client, w.begunAfter a, w.timersAfter a⟩
  | .syntheticEose k url isRetry =>
    if ⟨k, url, isRetry⟩ ∈ w.timers then
      some { w with
        client := w.client.oneose k url isRetry
        timers := w.timers.erase ⟨k, url, isRetry⟩ }
    else none

/-- When a relay is connected for a query that still wants it, no cooldown that has begun since the
query was made is active; and the timer of the library does not answer for a relay that has
cooled. -/
def Kept (w : CooledClient) : CooledAction → Prop
  | .client (.queryConnected q url true) =>
    (w.client.query q).completedEarly = false → url ∈ w.begunSince q →
      w.client.isRelayCoolingDown url = false
  | .syntheticEose _ url true => w.client.hasCooled url = false
  | _ => True

end CooledClient

/-- The law of cooldowns, for one step. -/
structure Disciplined (s : PooledClient) (a : CooledAction) (s' : PooledClient) : Prop where
  /-- A query sends no REQ to a relay that is cooling down. -/
  sent : ∀ q url, (s.query q).asked.count url < (s'.query q).asked.count url →
    s.isRelayCoolingDown url = false
  /-- An active cooldown stays as it is. -/
  kept : ∀ url cooldown, s.relayCooldowns.get? url = some cooldown → s.now < cooldown.until' →
    s'.relayCooldowns.get? url = some cooldown
  /-- A rate limit outside a cooldown begins the next one. -/
  raised : ∀ url, a.limits = some url → s.isRelayCoolingDown url = false →
    s'.relayCooldowns.get? url = some (s.episode url)
  /-- Nothing else begins or changes one. -/
  begun : ∀ url cooldown, s'.relayCooldowns.get? url = some cooldown →
    s.relayCooldowns.get? url = some cooldown ∨
      a.limits = some url ∧ s.isRelayCoolingDown url = false
  /-- Strikes are cleared by an EOSE after the cooldown. -/
  cleared : ∀ url cooldown, s.relayCooldowns.get? url = some cooldown →
    s'.relayCooldowns.get? url = none → a.answers = some url ∧ cooldown.until' ≤ s.now

namespace PooledClient

variable {normalizeURL : JsString → JsString} {s s' : PooledClient} {q : QueryId} {url : JsString}

theorem isRelayCoolingDown_iff : s.isRelayCoolingDown url = true ↔
    ∃ cooldown, s.relayCooldowns.get? url = some cooldown ∧ s.now < cooldown.until' := by
  unfold isRelayCoolingDown
  cases s.relayCooldowns.get? url with
  | none => simp
  | some cooldown => simp

theorem hasCooled_iff : s.hasCooled url = true ↔
    ∃ cooldown, s.relayCooldowns.get? url = some cooldown ∧ cooldown.until' ≤ s.now := by
  unfold hasCooled
  cases s.relayCooldowns.get? url with
  | none => simp
  | some cooldown => simp

/-! ### The table -/

theorem markRelayRateLimited_table (url : JsString) :
    (s.markRelayRateLimited normalizeURL url).relayCooldowns =
      if s.isRelayCoolingDown url then s.relayCooldowns
      else s.relayCooldowns.set url (s.episode url) := by
  unfold markRelayRateLimited
  split_ifs
  · rfl
  · rfl

@[simp] theorem markRelayRateLimited_now (url : JsString) :
    (s.markRelayRateLimited normalizeURL url).now = s.now := by
  unfold markRelayRateLimited
  split_ifs
  · rfl
  · rfl

theorem noteRelayAnswered_eq (url : JsString) : s.noteRelayAnswered url =
    if s.hasCooled url then { s with relayCooldowns := s.relayCooldowns.delete url } else s := by
  unfold noteRelayAnswered hasCooled
  cases s.relayCooldowns.get? url with
  | none => simp
  | some cooldown => simp

theorem armRetry_frame (k : SubId) (url : JsString) :
    (s.armRetry k url).relayCooldowns = s.relayCooldowns ∧ (s.armRetry k url).now = s.now ∧
    (s.armRetry k url).query = s.query := by
  unfold armRetry
  split_ifs
  · exact ⟨rfl, rfl, rfl⟩
  · exact ⟨rfl, rfl, rfl⟩

/-- What a step can do to the table. -/
inductive TableMove (s : PooledClient) (limits answers : Option JsString)
    (table : OrderedMap JsString Cooldown) : Prop
  | same (hlimits : ∀ url, limits = some url → s.isRelayCoolingDown url = true)
      (htable : table = s.relayCooldowns)
  | begun (url : JsString) (hlimits : limits = some url)
      (hcooling : s.isRelayCoolingDown url = false)
      (htable : table = s.relayCooldowns.set url (s.episode url))
  | cleared (url : JsString) (hlimits : limits = none) (hanswers : answers = some url)
      (hcooled : s.hasCooled url = true) (htable : table = s.relayCooldowns.delete url)

variable {limits answers : Option JsString} {table : OrderedMap JsString Cooldown}

theorem TableMove.marked (url : JsString) :
    TableMove s (some url) answers (s.markRelayRateLimited normalizeURL url).relayCooldowns := by
  rw [markRelayRateLimited_table]
  cases hcooling : s.isRelayCoolingDown url with
  | true =>
    refine .same (fun u hu => ?_) (if_pos rfl)
    obtain rfl := Option.some.inj hu
    exact hcooling
  | false => exact .begun url rfl hcooling (if_neg Bool.false_ne_true)

theorem TableMove.answered (url : JsString) :
    TableMove s none (some url) (s.noteRelayAnswered url).relayCooldowns := by
  rw [noteRelayAnswered_eq]
  cases hcooled : s.hasCooled url with
  | true =>
    rw [if_pos rfl]
    exact .cleared url rfl rfl hcooled rfl
  | false =>
    rw [if_neg Bool.false_ne_true]
    exact .same (fun _ h => by cases h) rfl

/-- The requests play no part in it. -/
theorem TableMove.of_frame {t : PooledClient} (h : TableMove t limits answers table)
    (htable : t.relayCooldowns = s.relayCooldowns) (hnow : t.now = s.now) :
    TableMove s limits answers table := by
  have hcooling (u : JsString) : t.isRelayCoolingDown u = s.isRelayCoolingDown u := by
    simp only [isRelayCoolingDown, htable, hnow]
  have hepisode (u : JsString) : t.episode u = s.episode u := by
    simp only [episode, htable, hnow]
  have hcooled (u : JsString) : t.hasCooled u = s.hasCooled u := by
    simp only [hasCooled, htable, hnow]
  cases h with
  | same hl ht => exact .same (fun u hu => hcooling u ▸ hl u hu) (ht.trans htable)
  | begun u hl hc ht =>
    rw [htable, hepisode] at ht
    exact .begun u hl (hcooling u ▸ hc) ht
  | cleared u hl ha hc ht =>
    rw [htable] at ht
    exact .cleared u hl ha (hcooled u ▸ hc) ht

theorem TableMove.kept (h : TableMove s limits answers table) {cooldown : Cooldown}
    (hget : s.relayCooldowns.get? url = some cooldown) (hnow : s.now < cooldown.until') :
    table.get? url = some cooldown := by
  have hcool : s.isRelayCoolingDown url = true := isRelayCoolingDown_iff.mpr ⟨_, hget, hnow⟩
  cases h with
  | same _ htable => rw [htable, hget]
  | begun u _ hcooling htable =>
    have hne : url ≠ u := by
      rintro rfl
      rw [hcool] at hcooling
      cases hcooling
    rw [htable, OrderedMap.get?_set_of_ne _ hne, hget]
  | cleared u _ _ hcooled htable =>
    have hne : url ≠ u := by
      rintro rfl
      obtain ⟨cooldown', hget', hover⟩ := hasCooled_iff.mp hcooled
      obtain rfl := Option.some.inj (hget.symm.trans hget')
      omega
    rw [htable, OrderedMap.get?_delete, if_neg hne, hget]

theorem TableMove.raised (h : TableMove s limits answers table) (hlimits : limits = some url)
    (hcool : s.isRelayCoolingDown url = false) : table.get? url = some (s.episode url) := by
  cases h with
  | same hall _ =>
    rw [hall url hlimits] at hcool
    cases hcool
  | begun u hu _ htable =>
    obtain rfl := Option.some.inj (hlimits.symm.trans hu)
    rw [htable, OrderedMap.get?_set_self]
  | cleared _ hnone =>
    rw [hlimits] at hnone
    cases hnone

theorem TableMove.begins (h : TableMove s limits answers table) {cooldown : Cooldown}
    (hget : table.get? url = some cooldown) : s.relayCooldowns.get? url = some cooldown ∨
      limits = some url ∧ s.isRelayCoolingDown url = false := by
  cases h with
  | same _ htable => exact .inl (htable ▸ hget)
  | begun u hlimits hcooling htable =>
    by_cases hu : url = u
    · subst hu
      exact .inr ⟨hlimits, hcooling⟩
    · rw [htable, OrderedMap.get?_set_of_ne _ hu] at hget
      exact .inl hget
  | cleared u _ _ _ htable =>
    rw [htable, OrderedMap.get?_delete] at hget
    split_ifs at hget
    exact .inl hget

theorem TableMove.clears (h : TableMove s limits answers table) {cooldown : Cooldown}
    (hget : s.relayCooldowns.get? url = some cooldown) (hnone : table.get? url = none) :
    answers = some url ∧ cooldown.until' ≤ s.now := by
  cases h with
  | same _ htable =>
    rw [htable, hget] at hnone
    cases hnone
  | begun u _ _ htable =>
    rw [htable, OrderedMap.get?_set] at hnone
    split_ifs at hnone
    rw [hget] at hnone
    cases hnone
  | cleared u _ hanswers hcooled htable =>
    rw [htable, OrderedMap.get?_delete] at hnone
    split_ifs at hnone with hu
    · subst hu
      obtain ⟨cooldown', hget', hover⟩ := hasCooled_iff.mp hcooled
      obtain rfl := Option.some.inj (hget.symm.trans hget')
      exact ⟨hanswers, hover⟩
    · rw [hget] at hnone
      cases hnone

/-- One step, for the table and the clock -/
theorem step_table {a : ClientAction} (hs : s.step normalizeURL a = some s') :
    s.now ≤ s'.now ∧ TableMove s a.limits a.answers s'.relayCooldowns := by
  have hsame {a : ClientAction} (hnone : a.limits = none) :
      TableMove s a.limits a.answers s.relayCooldowns :=
    .same (fun u hu => by rw [hnone] at hu; cases hu) rfl
  cases a with
  | subscribe urls | queryWithStats urls | queryComplete q =>
    obtain rfl := Option.some.inj hs
    exact ⟨Nat.le_refl _, hsame rfl⟩
  | tick ms =>
    obtain rfl := Option.some.inj hs
    exact ⟨Nat.le_add_right _ _, hsame rfl⟩
  | connected k u ok =>
    simp only [step] at hs
    split at hs
    case h_2 => cases hs
    split_ifs at hs
    all_goals
      obtain rfl := Option.some.inj hs
      exact ⟨Nat.le_refl _, hsame rfl⟩
  | eose k u =>
    simp only [step] at hs
    split at hs
    case h_2 => cases hs
    obtain rfl := Option.some.inj hs
    split_ifs
    · refine ⟨?_, .answered u⟩
      rw [noteRelayAnswered_eq]
      split_ifs
      · exact Nat.le_refl _
      · exact Nat.le_refl _
    · exact ⟨Nat.le_refl _, hsame rfl⟩
  | closed k u reason =>
    simp only [step] at hs
    split at hs
    case h_2 => cases hs
    rename_i isRetry _
    obtain rfl := Option.some.inj hs
    unfold closed
    dsimp only
    split_ifs with hreason
    · obtain ⟨htable, hnow, -⟩ := armRetry_frame
        (s := (s.setSub k ((s.sub k).ended u isRetry (isRateLimitReason reason)
          reason)).markRelayRateLimited normalizeURL u) k u
      have hlimits : (ClientAction.closed k u reason).limits = some u := if_pos hreason
      rw [htable, hnow, markRelayRateLimited_now, hlimits]
      exact ⟨Nat.le_refl _, (TableMove.marked u).of_frame rfl rfl⟩
    · exact ⟨Nat.le_refl _, hsame (if_neg hreason)⟩
  | retry k u | close k | queryConnected q u ok | queryDeadline q u =>
    simp only [step] at hs
    split at hs
    all_goals try split at hs
    all_goals cases hs
    all_goals exact ⟨Nat.le_refl _, hsame rfl⟩
  | queryEose q u =>
    simp only [step] at hs
    split_ifs at hs
    obtain rfl := Option.some.inj hs
    refine ⟨?_, (TableMove.answered u).of_frame rfl rfl⟩
    rw [noteRelayAnswered_eq]
    split_ifs
    · exact Nat.le_refl _
    · exact Nat.le_refl _
  | queryClosed q u reason =>
    simp only [step] at hs
    split_ifs at hs with _ hreason
    · obtain rfl := Option.some.inj hs
      have hlimits : (ClientAction.queryClosed q u reason).limits = some u := if_pos hreason
      rw [markRelayRateLimited_now, hlimits]
      exact ⟨Nat.le_refl _, (TableMove.marked u).of_frame rfl rfl⟩
    · obtain rfl := Option.some.inj hs
      exact ⟨Nat.le_refl _, hsame (if_neg hreason)⟩

/-! ### The queries -/

/-- What a step can do to a query. -/
inductive QueryMove (s : PooledClient) (a : ClientAction) (q : QueryId) (w : OneShot) :
    OneShot → Prop
  | less {w' : OneShot} (hconnecting : w'.connecting ⊆ w.connecting)
      (hasked : ∀ url, w'.asked.count url ≤ w.asked.count url) : QueryMove s a q w w'
  | asked (url : JsString) (ha : a = .queryConnected q url true) (hmem : url ∈ w.connecting)
      (hearly : w.completedEarly = false) :
      QueryMove s a q w
        { w with connecting := w.connecting.erase url, asked := url :: w.asked }
  | made {w' : OneShot} (urls : List JsString) (ha : a = .queryWithStats urls)
      (hq : q = s.nextQuery) (hasked : w'.asked = [])
      (hconnecting : ∀ url ∈ w'.connecting, s.isRelayCoolingDown url = false) :
      QueryMove s a q w w'

theorem QueryMove.same {a : ClientAction} (w : OneShot) : QueryMove s a q w w :=
  .less (List.Subset.refl _) fun _ => Nat.le_refl _

/-- Marking a relay can only end REQs. -/
theorem QueryMove.marked {t : PooledClient} {a : ClientAction} {w : OneShot} (u : JsString)
    (hconnecting : (s.query q).connecting ⊆ w.connecting)
    (hasked : ∀ url, (s.query q).asked.count url ≤ w.asked.count url) :
    QueryMove t a q w ((s.markRelayRateLimited normalizeURL u).query q) := by
  unfold markRelayRateLimited
  split_ifs
  · exact .less hconnecting hasked
  · exact .less hconnecting fun v => Nat.le_trans (List.filter_sublist.count_le v) (hasked v)

@[simp] theorem setQuery_self (w : OneShot) : (s.setQuery q w).query q = w := by simp [setQuery]

theorem setQuery_of_ne {q' : QueryId} (h : q ≠ q') (w : OneShot) :
    (s.setQuery q' w).query q = s.query q := by
  simp [setQuery, h]

/-- One query moves and the others stay. -/
theorem QueryMove.one {a : ClientAction} {q' : QueryId} {w : OneShot}
    (h : QueryMove s a q' (s.query q') w) :
    QueryMove s a q (s.query q) ((s.setQuery q' w).query q) := by
  by_cases hq : q = q'
  · subst hq
    rw [setQuery_self]
    exact h
  · rw [setQuery_of_ne hq]
    exact .same _

/-- Nothing is asked for that was not. -/
theorem setQuery_less {q' : QueryId} {w : OneShot}
    (hconnecting : w.connecting ⊆ (s.query q').connecting)
    (hasked : ∀ url, w.asked.count url ≤ (s.query q').asked.count url) :
    ((s.setQuery q' w).query q).connecting ⊆ (s.query q).connecting ∧
    ∀ url, ((s.setQuery q' w).query q).asked.count url ≤ (s.query q).asked.count url := by
  by_cases hq : q = q'
  · subst hq
    rw [setQuery_self]
    exact ⟨hconnecting, hasked⟩
  · rw [setQuery_of_ne hq]
    exact ⟨List.Subset.refl _, fun _ => Nat.le_refl _⟩

@[simp] theorem noteRelayAnswered_query (u : JsString) :
    (s.noteRelayAnswered u).query = s.query := by
  rw [noteRelayAnswered_eq]
  split_ifs
  · rfl
  · rfl

/-- One step, for each query -/
theorem step_query {a : ClientAction} (hs : s.step normalizeURL a = some s') (q : QueryId) :
    QueryMove s a q (s.query q) (s'.query q) := by
  have herased (w : OneShot) (u : JsString) : ∀ v, (w.asked.erase u).count v ≤ w.asked.count v :=
    fun v => List.erase_sublist.count_le v
  cases a with
  | subscribe urls | tick ms =>
    obtain rfl := Option.some.inj hs
    exact .same _
  | connected k u ok =>
    simp only [step] at hs
    split at hs
    case h_2 => cases hs
    split_ifs at hs
    all_goals
      obtain rfl := Option.some.inj hs
      exact .same _
  | eose k u =>
    simp only [step] at hs
    split at hs
    case h_2 => cases hs
    obtain rfl := Option.some.inj hs
    split_ifs
    · rw [noteRelayAnswered_query]
      exact .same _
    · exact .same _
  | closed k u reason =>
    simp only [step] at hs
    split at hs
    case h_2 => cases hs
    obtain rfl := Option.some.inj hs
    unfold closed
    dsimp only
    split_ifs
    · rw [(armRetry_frame k u).2.2]
      exact .marked u (List.Subset.refl _) fun _ => Nat.le_refl _
    · exact .same _
  | retry k u | close k =>
    simp only [step] at hs
    split at hs
    all_goals try split at hs
    all_goals cases hs
    all_goals exact .same _
  | queryWithStats urls =>
    obtain rfl := Option.some.inj hs
    refine .one (.made urls rfl rfl rfl fun url hurl => ?_)
    simpa using (List.mem_filter.mp hurl).2
  | queryConnected q' u ok =>
    simp only [step] at hs
    split_ifs at hs with hmem hok
    · obtain ⟨rfl, hearly⟩ := Bool.and_eq_true_iff.mp hok
      obtain rfl := Option.some.inj hs
      exact .one (.asked u rfl hmem (by simpa using hearly))
    · obtain rfl := Option.some.inj hs
      exact .one (.less List.erase_subset fun _ => Nat.le_refl _)
  | queryEose q' u =>
    simp only [step] at hs
    split_ifs at hs
    obtain rfl := Option.some.inj hs
    rw [noteRelayAnswered_query]
    exact .one (.less (List.Subset.refl _) (herased _ u))
  | queryClosed q' u reason =>
    simp only [step] at hs
    split_ifs at hs
    · obtain rfl := Option.some.inj hs
      obtain ⟨hconnecting, hasked⟩ := @setQuery_less s q q'
        { s.query q' with asked := (s.query q').asked.erase u } (List.Subset.refl _) (herased _ u)
      exact .marked u hconnecting hasked
    · obtain rfl := Option.some.inj hs
      exact .one (.less (List.Subset.refl _) (herased _ u))
  | queryDeadline q' u =>
    simp only [step] at hs
    split_ifs at hs
    obtain rfl := Option.some.inj hs
    exact .one (.less (List.Subset.refl _) (herased _ u))
  | queryComplete q' =>
    obtain rfl := Option.some.inj hs
    exact .one (.less (List.Subset.refl _) fun _ => Nat.zero_le _)

/-- A REQ is sent by a connection alone. -/
theorem step_sent {a : ClientAction} (hs : s.step normalizeURL a = some s')
    (hlt : (s.query q).asked.count url < (s'.query q).asked.count url) :
    a = .queryConnected q url true ∧ url ∈ (s.query q).connecting ∧
      (s.query q).completedEarly = false := by
  have hmove := step_query hs q
  generalize hw' : s'.query q = w' at hmove hlt
  cases hmove with
  | less _ hasked => exact absurd hlt (Nat.not_lt.mpr (hasked url))
  | asked u ha hmem hearly =>
    by_cases hu : u = url
    · subst hu
      exact ⟨ha, hmem, hearly⟩
    · simp [hu] at hlt
  | made _ _ _ hasked =>
    rw [hasked] at hlt
    exact absurd hlt (Nat.not_lt_zero _)

theorem step_queryConnected (hs : s.step normalizeURL (.queryConnected q url true) = some s')
    (hearly : (s.query q).completedEarly = false) :
    (s.query q).asked.count url < (s'.query q).asked.count url := by
  simp only [step, hearly, Bool.not_false, Bool.and_true, if_true] at hs
  split_ifs at hs
  obtain rfl := Option.some.inj hs
  simp

end PooledClient

namespace CooledClient

open PooledClient

variable {normalizeURL : JsString → JsString} {w w' : CooledClient}

/-- A relay that a query connects to and that is cooling down has begun to since the query was
made. -/
def Since (w : CooledClient) : Prop :=
  ∀ q url, url ∈ (w.client.query q).connecting → w.client.isRelayCoolingDown url = true →
    url ∈ w.begunSince q

theorem begunAfter_of_mem {a : ClientAction} {q : QueryId} {url : JsString}
    (h : url ∈ w.begunSince q) (hq : ∀ urls, a = .queryWithStats urls → q ≠ w.client.nextQuery) :
    url ∈ w.begunAfter a q := by
  cases a with
  | queryWithStats urls =>
    have hne := hq urls rfl
    simpa [begunAfter, hne] using h
  | closed _ _ _ | queryClosed _ _ _ =>
    simp only [begunAfter]
    split_ifs
    · exact List.mem_cons_of_mem _ h
    · exact h
  | _ => exact h

theorem begunAfter_of_limits {a : ClientAction} {url : JsString} (ha : a.limits = some url)
    (hcooling : w.client.isRelayCoolingDown url = false) (q : QueryId) :
    url ∈ w.begunAfter a q := by
  cases a with
  | closed _ u reason | queryClosed _ u reason =>
    simp only [ClientAction.limits] at ha
    split_ifs at ha with hreason
    obtain rfl := Option.some.inj ha
    have hsevers : w.client.severs u reason = true := by simp [severs, hreason, hcooling]
    simp [begunAfter, hsevers]
  | _ => cases ha

/-- A cooldown that is active after a step was so before, or the step has begun it. -/
theorem coolingDown_after {s s' : PooledClient} {limits answers : Option JsString}
    {url : JsString} (hnow : s.now ≤ s'.now)
    (hmove : TableMove s limits answers s'.relayCooldowns)
    (h : s'.isRelayCoolingDown url = true) : s.isRelayCoolingDown url = true ∨
      limits = some url ∧ s.isRelayCoolingDown url = false := by
  obtain ⟨cooldown, hget, hlt⟩ := isRelayCoolingDown_iff.mp h
  refine (hmove.begins hget).imp_left fun hold => ?_
  exact isRelayCoolingDown_iff.mpr ⟨cooldown, hold, Nat.lt_of_le_of_lt hnow hlt⟩

instance (w : CooledClient) : ∀ a, Decidable (w.Kept a)
  | .client (.queryConnected _ _ true) => inferInstanceAs (Decidable (_ → _ → _))
  | .syntheticEose _ _ true => inferInstanceAs (Decidable (_ = _))
  | .syntheticEose _ _ false => inferInstanceAs (Decidable True)
  | .client (.queryConnected _ _ false) => inferInstanceAs (Decidable True)
  | .client (.subscribe _) | .client (.connected _ _ _) | .client (.eose _ _)
  | .client (.closed _ _ _) | .client (.retry _ _) | .client (.close _)
  | .client (.queryWithStats _) | .client (.queryEose _ _) | .client (.queryClosed _ _ _)
  | .client (.queryDeadline _ _) | .client (.queryComplete _) | .client (.tick _) =>
    inferInstanceAs (Decidable True)

/-- What `oneose` of a standing REQ does to the table and to the queries -/
theorem oneose_frame (s : PooledClient) (k : SubId) (url : JsString) (isRetry : Bool) :
    (s.oneose k url isRetry).query = s.query ∧ (s.oneose k url isRetry).now = s.now ∧
    (s.oneose k url isRetry).relayCooldowns =
      if isRetry && s.hasCooled url then s.relayCooldowns.delete url else s.relayCooldowns := by
  unfold oneose
  cases isRetry with
  | false => exact ⟨rfl, rfl, rfl⟩
  | true =>
    rw [if_pos rfl, noteRelayAnswered_eq, Bool.true_and]
    split_ifs
    · exact ⟨rfl, rfl, rfl⟩
    · exact ⟨rfl, rfl, rfl⟩

theorem step_since {a : CooledAction} (h : w.Since) (hs : w.step normalizeURL a = some w') :
    w'.Since := by
  intro q url hmem hcool
  cases a with
  | client a =>
    simp only [step, Option.map_eq_some_iff] at hs
    obtain ⟨c, hc, rfl⟩ := hs
    obtain ⟨hnow, htable⟩ := step_table hc
    rcases coolingDown_after hnow htable hcool with hold | ⟨hlimits, hcooling⟩
    · by_cases hmade : ∃ urls, a = .queryWithStats urls ∧ q = w.client.nextQuery
      · -- a query is made without the relays that are cooling down
        obtain ⟨urls, rfl, rfl⟩ := hmade
        obtain rfl := Option.some.inj hc
        have hcooling : url ∈ urls.eraseDups.filter fun url => !w.client.isRelayCoolingDown url := by
          simpa using hmem
        simp [hold] at hcooling
      · have hconnecting : url ∈ (w.client.query q).connecting := by
          have hmove := step_query hc q
          generalize hw' : c.query q = w' at hmove
          rw [hw'] at hmem
          cases hmove with
          | less hsub _ => exact hsub hmem
          | asked u _ _ _ => exact List.erase_subset hmem
          | made urls ha hq _ _ => exact absurd ⟨urls, ha, hq⟩ hmade
        exact begunAfter_of_mem (h q url hconnecting hold) fun urls ha hq => hmade ⟨urls, ha, hq⟩
    · exact begunAfter_of_limits hlimits hcooling q
  | syntheticEose k u isRetry =>
    simp only [step] at hs
    split_ifs at hs
    obtain rfl := Option.some.inj hs
    obtain ⟨hquery, hnow, htable⟩ := oneose_frame w.client k u isRetry
    rw [hquery] at hmem
    refine h q url hmem ?_
    obtain ⟨cooldown, hget, hlt⟩ := isRelayCoolingDown_iff.mp hcool
    rw [hnow] at hlt
    rw [htable] at hget
    refine isRelayCoolingDown_iff.mpr ⟨cooldown, ?_, hlt⟩
    split_ifs at hget
    · rw [OrderedMap.get?_delete] at hget
      split_ifs at hget
      exact hget
    · exact hget

theorem since_init (now : Nat) : (init now).Since := by
  intro q url hmem
  cases hmem

/-- A step keeps the law exactly where it is `Kept`. -/
theorem step_disciplined {a : CooledAction} (h : w.Since) (hs : w.step normalizeURL a = some w') :
    Disciplined w.client a w'.client ↔ w.Kept a := by
  cases a with
  | client a =>
    simp only [step, Option.map_eq_some_iff] at hs
    obtain ⟨c, hc, rfl⟩ := hs
    obtain ⟨-, htable⟩ := step_table hc
    constructor
    · intro hd
      cases a with
      | queryConnected q url ok =>
        cases ok with
        | false => trivial
        | true => exact fun hearly _ => hd.sent q url (step_queryConnected hc hearly)
      | _ => trivial
    · intro hkept
      refine ⟨fun q url hlt => ?_, fun _ _ => htable.kept, fun _ => htable.raised,
        fun _ _ => htable.begins, fun _ _ => htable.clears⟩
      obtain ⟨rfl, hconnecting, hearly⟩ := step_sent hc hlt
      cases hcooling : w.client.isRelayCoolingDown url with
      | false => rfl
      | true =>
        have hnot := hkept hearly (h q url hconnecting hcooling)
        rw [hcooling] at hnot
        cases hnot
  | syntheticEose k url isRetry =>
    simp only [step] at hs
    split_ifs at hs
    obtain rfl := Option.some.inj hs
    obtain ⟨hquery, -, htable⟩ := oneose_frame w.client k url isRetry
    have hsame (hcooled : (isRetry && w.client.hasCooled url) = false) :
        Disciplined w.client (.syntheticEose k url isRetry)
          (w.client.oneose k url isRetry) := by
      have hmove : TableMove w.client none none (w.client.oneose k url isRetry).relayCooldowns := by
        refine .same (fun _ hu => by cases hu) ?_
        rw [htable, hcooled]
        rfl
      refine ⟨fun q v hlt => ?_, fun _ _ => hmove.kept, fun _ => hmove.raised,
        fun _ _ => hmove.begins, fun _ _ => hmove.clears⟩
      rw [hquery] at hlt
      exact absurd hlt (Nat.lt_irrefl _)
    cases isRetry with
    | false => exact iff_of_true (hsame rfl) trivial
    | true =>
      refine ⟨fun hd => ?_, fun hcooled => hsame (by rw [Bool.true_and]; exact hcooled)⟩
      change w.client.hasCooled url = false
      cases hcooled : w.client.hasCooled url with
      | false => rfl
      | true =>
        -- the strikes are gone, and nothing has answered
        obtain ⟨cooldown, hget, -⟩ := hasCooled_iff.mp hcooled
        have hnone : (w.client.oneose k url true).relayCooldowns.get? url = none := by
          rw [htable, hcooled]
          simp [OrderedMap.get?_delete]
        obtain ⟨hanswers, -⟩ := hd.cleared url cooldown hget hnone
        cases hanswers

end CooledClient

open CooledClient

/-- In a run, every step keeps the law of cooldowns exactly when the run is `Kept`. -/
theorem disciplined_iff (normalizeURL : JsString → JsString) (now : Nat) {as : List CooledAction}
    {t : CooledClient} (hr : run (step normalizeURL) (init now) as = some t) :
    (∀ as₁ a as₂ w w', as = as₁ ++ a :: as₂ → run (step normalizeURL) (init now) as₁ = some w →
        w.step normalizeURL a = some w' → Disciplined w.client a w'.client) ↔
      Guarded (step normalizeURL) Kept (init now) as := by
  rw [guarded_iff]
  have hsince {as : List CooledAction} {w : CooledClient}
      (hw : run (step normalizeURL) (init now) as = some w) : w.Since :=
    run_invariant_all (fun _ _ _ h hs => step_since h hs) (since_init now) hw
  constructor
  · intro h as₁ a as₂ w has hw
    rw [has] at hr
    obtain ⟨m, hm, hrest⟩ := run_append_eq_some.mp hr
    obtain rfl := Option.some.inj (hw.symm.trans hm)
    obtain ⟨w', hw', -⟩ := run_cons_eq_some.mp hrest
    exact (step_disciplined (hsince hw) hw').mp (h as₁ a as₂ w w' has hw hw')
  · intro h as₁ a as₂ w w' has hw hw'
    exact (step_disciplined (hsince hw) hw').mpr (h as₁ a as₂ w has hw)

/-- A query is limited, asks again after the cooldown, and is answered. -/
def limitedThenAnswered : List CooledAction :=
  [.client (.queryWithStats [js "ws://r"]), .client (.queryConnected 0 (js "ws://r") true),
    .client (.queryClosed 0 (js "ws://r") (js "rate-limited: slow down")), .client (.tick 60000),
    .client (.queryWithStats [js "ws://r"]), .client (.queryConnected 1 (js "ws://r") true),
    .client (.queryEose 1 (js "ws://r"))]

theorem disciplined_iff_limitedThenAnswered : ∃ t,
    run (step id) (init 0) limitedThenAnswered = some t ∧
    ∀ as₁ a as₂ w w', limitedThenAnswered = as₁ ++ a :: as₂ →
      run (step id) (init 0) as₁ = some w → w.step id a = some w' →
        Disciplined w.client a w'.client := by
  have hsome : (run (step id) (init 0) limitedThenAnswered).isSome = true := by decide +kernel
  obtain ⟨t, ht⟩ := Option.isSome_iff_exists.mp hsome
  have hg : Guarded (step id) Kept (init 0) limitedThenAnswered := by decide +kernel
  exact ⟨t, ht, (disciplined_iff id 0 ht).mpr hg⟩

/-- A relay limits one query while another one still connects to it. -/
def limitedWhileConnecting : List CooledAction :=
  [.client (.queryWithStats [js "ws://r"]), .client (.queryWithStats [js "ws://r"]),
    .client (.queryConnected 1 (js "ws://r") true),
    .client (.queryClosed 1 (js "ws://r") (js "rate-limited: slow down"))]

/-- A retried firehose gets no answer from a relay that has cooled. -/
def retriedInSilence : List CooledAction :=
  [.client (.subscribe [js "ws://r"]), .client (.connected 0 (js "ws://r") true),
    .client (.closed 0 (js "ws://r") (js "rate-limited: slow down")), .client (.tick 60000),
    .client (.retry 0 (js "ws://r")), .client (.connected 0 (js "ws://r") true),
    .client (.tick 4400)]

/-- The REQ of the other query is sent during the cooldown; and the strikes of the relay that the
firehose has come back to are cleared although it has not answered. -/
theorem disciplined_fails :
    (∃ w w', run (step id) (init 0) limitedWhileConnecting = some w ∧
      w.step id (.client (.queryConnected 0 (js "ws://r") true)) = some w' ∧
      ¬ Disciplined w.client (.client (.queryConnected 0 (js "ws://r") true)) w'.client) ∧
    ∃ w w', run (step id) (init 0) retriedInSilence = some w ∧
      w.step id (.syntheticEose 0 (js "ws://r") true) = some w' ∧
      ¬ Disciplined w.client (.syntheticEose 0 (js "ws://r") true) w'.client := by
  constructor
  · have hrun : ((run (step id) (init 0) limitedWhileConnecting).bind fun w =>
        (w.step id (.client (.queryConnected 0 (js "ws://r") true))).map fun w' =>
          (w.client.isRelayCoolingDown (js "ws://r"),
            (w.client.query 0).asked.count (js "ws://r"),
            (w'.client.query 0).asked.count (js "ws://r"))) = some (true, 0, 1) := by
      decide +kernel
    obtain ⟨w, hw, hrest⟩ := Option.bind_eq_some_iff.mp hrun
    obtain ⟨w', hw', hvalue⟩ := Option.map_eq_some_iff.mp hrest
    simp only [Prod.mk.injEq] at hvalue
    refine ⟨w, w', hw, hw', fun hd => ?_⟩
    have hsent := hd.sent 0 (js "ws://r") (by omega)
    rw [hvalue.1] at hsent
    cases hsent
  · have hrun : ((run (step id) (init 0) retriedInSilence).bind fun w =>
        (w.step id (.syntheticEose 0 (js "ws://r") true)).map fun w' =>
          ((w.client.relayCooldowns.get? (js "ws://r")).isSome,
            (w'.client.relayCooldowns.get? (js "ws://r")).isNone)) = some (true, true) := by
      decide +kernel
    obtain ⟨w, hw, hrest⟩ := Option.bind_eq_some_iff.mp hrun
    obtain ⟨w', hw', hvalue⟩ := Option.map_eq_some_iff.mp hrest
    obtain ⟨hsome, hnone⟩ := Prod.mk.inj hvalue
    refine ⟨w, w', hw, hw', fun hd => ?_⟩
    obtain ⟨cooldown, hget⟩ := Option.isSome_iff_exists.mp hsome
    obtain ⟨hanswers, -⟩ := hd.cleared _ cooldown hget (Option.isNone_iff_eq_none.mp hnone)
    cases hanswers

end LivelierBridge.Nostr
