import Mathlib.Algebra.Order.BigOperators.Group.List
import Mathlib.Algebra.Order.Ring.Nat
import LivelierBridge.Nostr.QueryWithStats

namespace LivelierBridge.Nostr

open Framework Js

/-- How many outcomes the relay still waits for: its connection, and the deadline of its REQ. -/
def RelayTurn.awaited : RelayTurn → Nat
  | .connecting => 2
  | .returned => 0
  | .asking req => req.armed.toNat

/-- The actions that are bound to come: `ensureRelay` settles, and a timer fires. -/
def QueryAction.isDue : QueryAction → Bool
  | .connected _ | .failed _ | .deadline _ => true
  | .event _ _ | .eose _ | .closed _ => false

namespace QueryRun

/-- The outcomes that the query still waits for. -/
def awaited (q : StatsQuery) (s : QueryRun) : Nat := (q.relays.map fun u => (s.turn u).awaited).sum

variable {q : StatsQuery} {base : RelayReqStats} {s s' : QueryRun} {url : JsString}

/-! ### The query resolves -/

theorem Move.awaited_turn_le (h : Move q s s') (u : JsString) :
    (s'.turn u).awaited ≤ (s.turn u).awaited := by
  have hset {m : QueryRun} {v : JsString} {t : RelayTurn} (ht : t.awaited ≤ (m.turn v).awaited) :
      ((m.setTurn v t).turn u).awaited ≤ (m.turn u).awaited := by
    by_cases huv : u = v
    · subst huv
      rw [setTurn_self]
      exact ht
    · rw [setTurn_of_ne huv]
  cases h with
  | @giveUp url => exact hset (t := .returned) (Nat.zero_le _)
  | @openReq url _ ht =>
    refine hset (m := s) (v := url) (t := .asking .running) ?_
    rw [ht]
    decide
  | repeated | kept | late | complete => exact le_rfl
  | @answered url | @settled url => exact hset (t := .asking .over) (Nat.zero_le _)

theorem Moves.awaited_turn_le (h : Moves q s s') (u : JsString) :
    (s'.turn u).awaited ≤ (s.turn u).awaited := by
  induction h with
  | refl => exact le_rfl
  | tail _ hmove ih => exact (hmove.awaited_turn_le u).trans ih

theorem Moves.awaited_le (h : Moves q s s') : s'.awaited q ≤ s.awaited q :=
  List.sum_le_sum fun u _ => h.awaited_turn_le u

theorem Moves.awaited_lt (h : Moves q s s') (hr : url ∈ q.relays)
    (hlt : (s'.turn url).awaited < (s.turn url).awaited) : s'.awaited q < s.awaited q :=
  List.sum_lt_sum _ _ (fun u _ => h.awaited_turn_le u) ⟨url, hr, hlt⟩

theorem maybeCompleteEarly_awaited_le (ht : s.Tidy) (u : JsString) :
    ((s.maybeCompleteEarly q).turn u).awaited ≤ (s.turn u).awaited :=
  (maybeCompleteEarly_moves ht).awaited_turn_le u

/-- What is due brings the query closer to its end. -/
theorem step_awaited_lt {a : QueryAction} (h : Accounted q base s) (ha : a.isDue = true)
    (hs : step q s a = some s') : s'.awaited q < s.awaited q := by
  have hmoves := step_moves h.tidy hs
  have hreturned (v : JsString) : ((s.giveUp v).turn v).awaited = 0 := by
    rw [show (s.giveUp v).turn v = .returned from setTurn_self _]
    rfl
  cases a with
  | connected url =>
    simp only [step] at hs
    split_ifs at hs with hc
    obtain rfl := Option.some.inj hs
    refine hmoves.awaited_lt hc.1 ?_
    rw [hc.2]
    unfold connected
    split_ifs
    · rw [hreturned]
      decide
    · have htidy := (Move.openReq hc.1 hc.2).tidy h.tidy
      have hrunning : (s.openReq q url).turn url = .asking .running := setTurn_self _
      have hle := maybeCompleteEarly_awaited_le (q := q) htidy url
      rw [hrunning] at hle
      exact Nat.lt_of_le_of_lt hle (by decide)
  | failed url =>
    simp only [step] at hs
    split_ifs at hs with hc
    obtain rfl := Option.some.inj hs
    refine hmoves.awaited_lt hc.1 ?_
    rw [hc.2, hreturned]
    decide
  | deadline url =>
    simp only [step] at hs
    split at hs
    · rename_i req hreq
      split_ifs at hs with harmed
      obtain rfl := Option.some.inj hs
      have hrunning : req = .running := by
        rcases h.tidy url req hreq with rfl | rfl
        · rfl
        · cases harmed
      subst hrunning
      refine hmoves.awaited_lt (h.mem_relays hreq) ?_
      rw [release_running hreq, settle_turn_self, hreq]
      decide
    all_goals cases hs
  | event | eose | closed => cases ha

theorem awaited_init (q : StatsQuery) (base : RelayReqStats) :
    (init base).awaited q = 2 * q.relays.length := by
  have hconst : (q.relays.map fun u => ((init base).turn u).awaited) =
      List.replicate q.relays.length 2 := List.map_const
  rw [awaited, hconst, List.sum_replicate, Nat.nsmul_eq_mul, Nat.mul_comm]

/-- What is due can come no more often than the query waits for it. -/
theorem countP_isDue_le {as : List QueryAction} (hr : run (step q) (init base) as = some s) :
    as.countP QueryAction.isDue + s.awaited q ≤ 2 * q.relays.length := by
  let inv (as : List QueryAction) (s : QueryRun) : Prop :=
    as.countP QueryAction.isDue + s.awaited q ≤ 2 * q.relays.length
  change inv as s
  refine run_history ?_ ?_ hr
  · change _ ≤ _
    rw [awaited_init, List.countP_nil, Nat.zero_add]
  · intro as m a m' hm hle hs
    have hacc := accounted_run hm
    simp only [inv] at hle ⊢
    rw [List.countP_append, List.countP_singleton]
    split_ifs with ha
    · have hlt := step_awaited_lt hacc ha hs
      omega
    · have hmono := (step_moves hacc.tidy hs).awaited_le
      omega

/-- While a relay is undecided, something is due. -/
theorem Accounted.resolved_of_not_due (h : Accounted q base s)
    (hdone : ∀ a, a.isDue = true → step q s a = none) : s.Resolved q := by
  intro url hr
  cases hturn : s.turn url with
  | connecting =>
    have hnone := hdone (.failed url) rfl
    rw [step, if_pos ⟨hr, hturn⟩] at hnone
    cases hnone
  | returned => rfl
  | asking req =>
    rcases h.tidy url req hturn with rfl | rfl
    · have hnone := hdone (.deadline url) rfl
      simp [step, hturn, RelayReq.running] at hnone
    · rfl

/-! ### What it has done by then -/

/-- What holds of a query at any time, and of one that has resolved. -/
structure Balanced (q : StatsQuery) (base : RelayReqStats) (s : QueryRun) : Prop where
  decided_le : ∀ url, s.log.count (.decided url) ≤ 1
  eoseCount : s.eoseCount = q.relays.countP (eosedFirst s.log)
  distinct : s.events.Pairwise fun e e' => e.id ≠ e'.id
  kept : ∀ e ∈ delivered s.log, ∃ e' ∈ s.events, e'.id = e.id
  received : ∀ e ∈ s.events, e ∈ delivered s.log
  decided : s.Resolved q → ∀ url ∈ q.relays, s.log.count (.decided url) = 1
  closed : s.Resolved q → ∀ url req, s.turn url = .asking req → req.closed = true
  balanced : s.Resolved q → ∀ url,
    s.log.count (.closed url) = s.log.count (.opened url) ∧ s.stats.gauge url = base.gauge url

theorem Accounted.over_of_resolved (h : Accounted q base s) (hres : s.Resolved q) {req : RelayReq}
    (hturn : s.turn url = .asking req) : req = .over := by
  have hdecided := hres url (h.mem_relays hturn)
  rw [hturn] at hdecided
  rcases h.tidy url req hturn with rfl | rfl
  · cases hdecided
  · rfl

theorem Accounted.balanced (h : Accounted q base s) : Balanced q base s where
  decided_le url := by
    rw [h.decided url]
    exact Bool.toNat_le _
  eoseCount := h.eoseCount
  distinct := by
    rw [h.events]
    refine (pairwise_firsts byId [] (delivered s.log)).imp fun hne heq => hne ?_
    exact congrArg some heq
  kept e he := by
    obtain ⟨e', he'⟩ := exists_firstOf he (show byId e = some e.id from rfl)
    have hkey : byId e' = some e.id := key_of_firstOf he'
    refine ⟨e', ?_, Option.some.inj hkey⟩
    rw [h.events]
    exact mem_firsts.mpr ⟨e.id, List.not_mem_nil, he'⟩
  received e he := by
    rw [h.events] at he
    obtain ⟨i, -, hfirst⟩ := mem_firsts.mp he
    exact mem_of_firstOf hfirst
  decided hres url hr := by
    rw [h.decided url, hres url hr]
    rfl
  closed hres url req hturn := by
    rw [h.over_of_resolved hres hturn]
    rfl
  balanced hres url := by
    have hsame : (s.turn url).endedReqs = (s.turn url).openedReqs := by
      cases hturn : s.turn url with
      | connecting | returned => rfl
      | asking req =>
        rw [h.over_of_resolved hres hturn]
        rfl
    have hgauge := h.gauge url
    refine ⟨by rw [h.closed url, h.opened url, hsame], ?_⟩
    omega

end QueryRun

open QueryRun

/-- A query resolves once what is due has come, which is at most twice for each relay; and it keeps its
accounts on the way. -/
theorem queryWithStats_accounts (q : StatsQuery) (base : RelayReqStats) {as : List QueryAction}
    {s : QueryRun} (hr : run (step q) (init base) as = some s) :
    as.countP QueryAction.isDue + s.awaited q ≤ 2 * q.relays.length ∧
    ((∀ a, a.isDue = true → step q s a = none) → s.Resolved q) ∧
    Balanced q base s := by
  have h := accounted_run hr
  exact ⟨countP_isDue_le hr, h.resolved_of_not_due, h.balanced⟩

/-- Two relays; the first has the event and ends with an EOSE, the second repeats the event and is
silent. -/
abbrev demoRelayUrl (n : UInt16) : JsString := [n]

abbrev demoQuery : StatsQuery :=
  .ofUrls (fun _ => false) [demoRelayUrl 1, demoRelayUrl 2, demoRelayUrl 1] [] none

abbrev demoQueryEvent (n : UInt16) : Event := ⟨[n], [7], 0, 0, [], [], []⟩

abbrev demoQueryActions : List QueryAction :=
  [.connected (demoRelayUrl 1), .event (demoRelayUrl 1) (demoQueryEvent 1), .connected (demoRelayUrl 2),
    .eose (demoRelayUrl 1), .event (demoRelayUrl 2) (demoQueryEvent 1), .deadline (demoRelayUrl 2),
    .eose (demoRelayUrl 2)]

theorem queryWithStats_accounts_example : ∃ s,
    run (step demoQuery) (init ⟨.empty, .empty⟩) demoQueryActions = some s ∧ s.eoseCount = 1 ∧
    s.events = [demoQueryEvent 1] ∧ s.Resolved demoQuery ∧ Balanced demoQuery ⟨.empty, .empty⟩ s := by
  have hsome : ((run (step demoQuery) (init ⟨.empty, .empty⟩) demoQueryActions).map fun s =>
      (s.eoseCount, s.events, demoQuery.relays.all fun u => (s.turn u).isDecided)) =
      some (1, [demoQueryEvent 1], true) := by
    decide +kernel
  obtain ⟨s, hs, hvalue⟩ := Option.map_eq_some_iff.mp hsome
  simp only [Prod.mk.injEq, List.all_eq_true] at hvalue
  obtain ⟨-, -, hbalanced⟩ := queryWithStats_accounts demoQuery ⟨.empty, .empty⟩ hs
  exact ⟨s, hs, hvalue.1, hvalue.2.1, hvalue.2.2, hbalanced⟩

end LivelierBridge.Nostr
