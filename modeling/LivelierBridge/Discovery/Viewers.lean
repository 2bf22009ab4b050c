import LivelierBridge.Discovery.Calls
import LivelierBridge.Discovery.Coordinates
import LivelierBridge.Discovery.LiveEventTags

namespace LivelierBridge.Discovery

open Framework Js

variable {ν : Type}

/-- The live events that were published; a publish that threw is none. -/
def published (ps : List (Publish ν)) : List (LivePublishInput ν) :=
  ps.filterMap fun p => p.2.map fun _ => p.1

/-- The last live event published for an instance. -/
def lastPublished (url : JsString) (history : List (JsString × Call ν)) :
    Option (LivePublishInput ν) :=
  (published (publishes (Keyed.logOf url history))).getLast?

namespace Cycle

/-- What the adapter answers when the cycle polls the viewers of a url. -/
def viewersOf (c : Cycle ν) (url : JsString) : Option (Option (Option ν)) :=
  match c.listing url with
  | some e => e.2.viewers
  | none => (c.manual url).viewers

/-- The clock reading that the republishing of a url is judged by. -/
def dueAt (c : Cycle ν) (url : JsString) : Int :=
  match c.listing url with
  | some e => e.2.dueAt
  | none => (c.manual url).dueAt

theorem viewersOf_listed {c : Cycle ν} {url : JsString} {e : DiscoveredLive ν × LiveAnswers ν}
    (he : c.listing url = some e) : c.viewersOf url = e.2.viewers := by
  simp only [viewersOf, he]

theorem viewersOf_unlisted {c : Cycle ν} {url : JsString} (hn : c.listing url = none) :
    c.viewersOf url = (c.manual url).viewers := by
  simp only [viewersOf, hn]

end Cycle

/-- What happens to the stored instances with the operator at hand: a poll cycle, a row that is
added by hand (the engine's own columns have their defaults), or flags that are set. -/
inductive OperatedAction (ν : Type) where
  | cycle (payload : Option (Json ν)) (live : JsString → LiveAnswers ν)
      (answers : CycleAnswers ν)
  | addManual (url : JsString) (row : InstanceRow ν)
  | setFlags (url : JsString) (discoveryEnabled chatEnabled : Bool)

/-- A publish that throws, or a store that does not take the update behind it, is no success. -/
def Succeeds (c : Cycle ν) (s : DiscoveryState ν) : Prop :=
  (∀ e ∈ c.live, e.2.profile.Taken ∧ e.2.publish.isSome = true ∧ e.2.stored = true) ∧
    ∀ entry ∈ s.table.entries,
      ((c.manual entry.1).profile.Taken ∧ (c.manual entry.1).publish.isSome = true ∧
        (c.manual entry.1).stored = true) ∧
      (c.reconcile entry.1).publish.isSome = true ∧ (c.reconcile entry.1).stored = true

section Law

variable [DecidableEq ν]

/-- Where a cycle has polled the viewers of an instance, the last live event published for it
carries the answer; and no answer is no reason to publish. -/
structure ViewersLaw [JsNumber ν] [JsFinite ν] (E : Engine) (c : Cycle ν) (s : DiscoveryState ν) :
    Prop where
  current : ∀ url viewers,
    Call.fetchViewerCount url ∈ Keyed.logOf url (E.runCycle c s).cycleLog →
    c.viewersOf url = some (some viewers) → (∀ n ∈ viewers, JsFinite.isFinite n = true) →
    ∃ input, lastPublished url (E.runCycle c s).history = some input ∧
      tagsNamed (js "current_participants") (liveEventTags input) =
        viewers.toList.map participantsTag
  silent : ∀ url row, s.table.get? url = some row → c.viewersOf url = some none →
    ∀ p ∈ publishes (Keyed.logOf url (E.runCycle c s).cycleLog),
      p.1.status ≠ row.status ∨ E.republishDue row (c.dueAt url) = true

end Law

/-- The store has the viewer count of the last event for a live row that was published. -/
def CountKept (last : Option (LivePublishInput ν)) (row : InstanceRow ν) : Prop :=
  row.status = .live → row.lastPublishedAt ≠ none →
    last.map (·.currentParticipants) = some row.viewerCount

/-- The last of some publishes, or the one before them. -/
def lastOf (ps : List (Publish ν)) (before : Option (LivePublishInput ν)) :
    Option (LivePublishInput ν) := (published ps).getLast?.or before

@[simp] theorem lastOf_nil (before : Option (LivePublishInput ν)) : lastOf [] before = before := rfl

@[simp] theorem lastOf_said (input : LivePublishInput ν) (results : RelayResults)
    (before : Option (LivePublishInput ν)) :
    lastOf [(input, some results)] before = some input := rfl

theorem lastPublished_append (url : JsString) (history log : List (JsString × Call ν)) :
    lastPublished url (history ++ log) =
      lastOf (publishes (Keyed.logOf url log)) (lastPublished url history) := by
  unfold lastPublished lastOf published
  rw [Keyed.logOf_append, publishes_append, List.filterMap_append, List.getLast?_append]

theorem CountKept.same {last : Option (LivePublishInput ν)} {row row' : InstanceRow ν}
    (h : CountKept last row) (hs : row'.status = row.status)
    (hp : row'.lastPublishedAt = row.lastPublishedAt) (hv : row'.viewerCount = row.viewerCount) :
    CountKept last row' := by
  unfold CountKept
  rw [hs, hp, hv]
  exact h

/-- The upsert leaves the count alone, and a new row was never published. -/
theorem CountKept.upserted {last : Option (LivePublishInput ν)} {r : Option (InstanceRow ν)}
    (h : ∀ row ∈ r, CountKept last row) (input : UpsertSeenInput) (now : Int) :
    CountKept last (upsertedRow r input now) := by
  cases r with
  | none => exact fun _ hp => absurd rfl hp
  | some row => exact (h row rfl).same rfl rfl rfl

section Turn

variable [DecidableEq ν] {E : Engine} {url : JsString} {before : Option (LivePublishInput ν)}

theorem SeenTurn.countKept {inst : DiscoveredLive ν} {signer dTag : JsString}
    {row r' : InstanceRow ν} {isNew : Bool} {A : LiveAnswers ν} {w : List (Call ν)}
    (h : SeenTurn E inst signer dTag row isNew A r' w) (hp : A.publish.isSome = true)
    (hs : A.stored = true) (hkept : CountKept before row) :
    CountKept (lastOf (publishes w) before) r' := by
  cases h with
  | optedOut | unanswered => exact hkept
  | stalled _ _ _ _ ha =>
    rw [ha.probed_silent, lastOf_nil]
    exact hkept.same rfl rfl rfl
  | quiet _ _ _ hnews _ ha =>
    rw [ha.probed_silent, lastOf_nil, if_pos hs]
    simp only [Engine.hasNews, Bool.or_eq_false_iff, decide_eq_false_iff_not, not_not] at hnews
    exact hkept.same hnews.1.1.2.symm rfl rfl
  | thrown _ _ _ _ hnone =>
    rw [hnone] at hp
    cases hp
  | told _ _ _ _ _ _ ha =>
    rw [ha.probed_event, lastOf_said, if_pos hs]
    exact fun _ _ => rfl

theorem ManualTurn.countKept {row r' : InstanceRow ν} {A : ManualAnswers ν} {found : Bool}
    {w : List (Call ν)} (h : ManualTurn E url row A r' found w) (hp : A.publish.isSome = true)
    (hs : A.stored = true) (hkept : CountKept before row) :
    CountKept (lastOf (publishes w) before) r' := by
  cases h with
  | optedOut | unanswered | missed => exact hkept
  | stalled _ _ _ _ ha =>
    rw [ha.probed_silent, lastOf_nil]
    exact hkept.same rfl rfl rfl
  | quiet _ _ _ hnews _ ha =>
    rw [ha.probed_silent, lastOf_nil, if_pos hs]
    simp only [Engine.manualNews, Bool.or_eq_false_iff, decide_eq_false_iff_not] at hnews
    have hlive : row.status = .live := by
      cases hstatus : row.status with
      | live => rfl
      | ended => exact absurd hstatus hnews.1.1
    exact hkept.same hlive.symm rfl rfl
  | thrown _ _ _ _ hnone =>
    rw [hnone] at hp
    cases hp
  | told _ _ _ _ _ _ ha =>
    rw [ha.probed_event, lastOf_said, if_pos hs]
    exact fun _ _ => rfl

omit [DecidableEq ν] in
theorem ReconcileTurn.countKept {row r' : InstanceRow ν} {A : ReconcileAnswers}
    {w : List (Call ν)} (h : ReconcileTurn E url row A r' w) (hp : A.publish.isSome = true)
    (hs : A.stored = true) (hkept : CountKept before row) :
    CountKept (lastOf (publishes w) before) r' := by
  cases h with
  | optedOut | unanswered => exact hkept
  | alive | failing =>
    rw [if_pos hs]
    exact hkept.same rfl rfl rfl
  | thrown _ _ _ _ hnone =>
    rw [hnone] at hp
    cases hp
  | ended =>
    rw [if_pos hs]
    intro hlive
    cases hlive

/-- The answers for a url are successes. -/
structure SucceedsAt (c : Cycle ν) (url : JsString) (r : Option (InstanceRow ν)) : Prop where
  listed : ∀ e ∈ c.listing url,
    e.2.profile.Taken ∧ e.2.publish.isSome = true ∧ e.2.stored = true
  unlisted : r.isSome = true →
    ((c.manual url).profile.Taken ∧ (c.manual url).publish.isSome = true ∧
      (c.manual url).stored = true) ∧
    (c.reconcile url).publish.isSome = true ∧ (c.reconcile url).stored = true

omit [DecidableEq ν] in
theorem Succeeds.at {c : Cycle ν} {s : DiscoveryState ν} (h : Succeeds c s) (url : JsString) :
    SucceedsAt c url (s.table.get? url) where
  listed e he := h.1 e (Cycle.listing_mem he)
  unlisted hsome := by
    obtain ⟨row, hrow⟩ := Option.isSome_iff_exists.mp hsome
    exact h.2 (url, row) ((s.table.get?_eq_some_iff url row).mp hrow)

theorem Turn.countKept {c : Cycle ν} {r : Option (InstanceRow ν)} {r' : InstanceRow ν}
    {w : List (Call ν)} (h : Turn E c url r (some r') w) (hs : SucceedsAt c url r)
    (hkept : ∀ row ∈ r, CountKept before row) : CountKept (lastOf (publishes w) before) r' := by
  cases h with
  | passed => exact hkept r' rfl
  | listed he _ hrow h =>
    subst hrow
    obtain ⟨-, hp, hst⟩ := hs.listed _ he
    exact h.countKept hp hst (.upserted hkept _ _)
  | manual hn hrow hm h =>
    subst hrow
    obtain ⟨⟨-, hp, hst⟩, -⟩ := hs.unlisted rfl
    exact h.countKept hp hst (hkept _ rfl)
  | reconciled _ hrow _ _ h | both _ hrow _ _ _ _ _ h =>
    subst hrow
    obtain ⟨-, hp, hst⟩ := hs.unlisted rfl
    exact h.countKept hp hst (hkept _ rfl)

/-- A listed instance that is polled is published with the answer, or was so already. -/
theorem SeenTurn.current {inst : DiscoveredLive ν} {signer dTag : JsString}
    {row r' : InstanceRow ν} {isNew : Bool} {A : LiveAnswers ν} {w : List (Call ν)}
    (h : SeenTurn E inst signer dTag row isNew A r' w) (hcalled : w ≠ [])
    {liveness : Liveness} (hl : A.liveness = some liveness)
    (hlive : Engine.statusOf liveness = .live) {viewers : Option ν}
    (hv : A.viewers = some (some viewers))
    (hs : A.profile.Taken ∧ A.publish.isSome = true ∧ A.stored = true)
    (hkept : CountKept before row) :
    (lastOf (publishes w) before).map (·.currentParticipants) = some viewers := by
  have hpolled : Engine.polledOf liveness A = some viewers := by
    simp [Engine.polledOf, hlive, hv]
  cases h with
  | optedOut => exact absurd rfl hcalled
  | unanswered _ hnone =>
    rw [hl] at hnone
    cases hnone
  | stalled _ hl' hr =>
    obtain rfl := Option.some.inj (hl.symm.trans hl')
    exact absurd ⟨.inr hs.1, fun _ => by rw [hv]; rfl⟩ hr
  | quiet _ hl' _ hnews _ ha =>
    obtain rfl := Option.some.inj (hl.symm.trans hl')
    rw [ha.probed_silent, lastOf_nil]
    simp only [Engine.hasNews, Bool.or_eq_false_iff, decide_eq_false_iff_not, not_not,
      hpolled] at hnews
    obtain ⟨⟨⟨-, hstatus⟩, hdue⟩, hsame⟩ := hnews
    have hpublished : row.lastPublishedAt ≠ none := by
      intro hnever
      simp [Engine.republishDue, hnever] at hdue
    have hcount : viewers = row.viewerCount := by simpa [Engine.viewersChanged] using hsame
    rw [hcount]
    exact hkept (hstatus.trans hlive) hpublished
  | thrown _ _ _ _ hnone =>
    rw [hnone] at hs
    cases hs.2.1
  | told _ hl' _ _ _ _ ha =>
    obtain rfl := Option.some.inj (hl.symm.trans hl')
    rw [ha.probed_event, lastOf_said, hpolled]
    rfl

theorem ManualTurn.current {row r' : InstanceRow ν} {A : ManualAnswers ν} {found : Bool}
    {w : List (Call ν)} (h : ManualTurn E url row A r' found w) (hcalled : w ≠ [])
    (hl : A.liveness = some .live) (hsigner : (E.signerFor url).isSome = true)
    {viewers : Option ν} (hv : A.viewers = some (some viewers))
    (hs : A.profile.Taken ∧ A.publish.isSome = true ∧ A.stored = true)
    (hkept : CountKept before row) :
    (lastOf (publishes w) before).map (·.currentParticipants) = some viewers := by
  cases h with
  | optedOut => exact absurd rfl hcalled
  | unanswered _ hnone =>
    rw [hl] at hnone
    cases hnone
  | missed _ hl' hne => exact absurd (Option.some.inj (hl'.symm.trans hl)) hne
  | stalled _ _ hr => exact absurd ⟨hsigner, .inr hs.1, by rw [hv]; rfl⟩ hr
  | quiet _ _ _ hnews _ ha =>
    rw [ha.probed_silent, lastOf_nil]
    simp only [Engine.manualNews, Bool.or_eq_false_iff, decide_eq_false_iff_not, hv,
      Option.getD_some] at hnews
    obtain ⟨⟨hstatus, hdue⟩, hsame⟩ := hnews
    have hlive : row.status = .live := by
      cases hst : row.status with
      | live => rfl
      | ended => exact absurd hst hstatus
    have hpublished : row.lastPublishedAt ≠ none := by
      intro hnever
      simp [Engine.republishDue, hnever] at hdue
    have hcount : viewers = row.viewerCount := by simpa [Engine.viewersChanged] using hsame
    rw [hcount]
    exact hkept hlive hpublished
  | thrown _ _ _ _ hnone =>
    rw [hnone] at hs
    cases hs.2.1
  | told _ _ _ _ _ _ ha =>
    rw [ha.probed_event, lastOf_said]
    simp [Engine.manualEvent, Engine.rowEvent, hv]

omit [DecidableEq ν] in
/-- The last pass polls no viewers. -/
theorem ReconcileTurn.unpolled {row r' : InstanceRow ν} {A : ReconcileAnswers}
    {w : List (Call ν)} (h : ReconcileTurn E url row A r' w) (u : JsString) :
    Call.fetchViewerCount u ∉ w := by
  cases h with
  | optedOut | unanswered | alive | failing | thrown | ended => simp

omit [DecidableEq ν] in
/-- A listed instance is polled when its probe counts as live. -/
theorem LiveCall.polled {inst : DiscoveredLive ν} {A : LiveAnswers ν} {u : JsString}
    (h : LiveCall E inst A (.fetchViewerCount u)) :
    ∃ liveness, A.liveness = some liveness ∧ Engine.statusOf liveness = .live := by
  cases h with
  | poll hl hlive => exact ⟨_, hl, hlive⟩

/-- What is polled of the viewers in a turn is what the last event carries behind it. -/
theorem Turn.current {c : Cycle ν} {r r' : Option (InstanceRow ν)} {w : List (Call ν)}
    (h : Turn E c url r r' w) (hmem : Call.fetchViewerCount url ∈ w)
    (hcall : CycleCall E c url (.fetchViewerCount url)) {viewers : Option ν}
    (hv : c.viewersOf url = some (some viewers)) (hs : SucceedsAt c url r)
    (hkept : ∀ row ∈ r, CountKept before row) :
    (lastOf (publishes w) before).map (·.currentParticipants) = some viewers := by
  have hcalled : w ≠ [] := List.ne_nil_of_mem hmem
  cases h with
  | passed => exact absurd rfl hcalled
  | listed he _ hrow h =>
    subst hrow
    rw [Cycle.viewersOf_listed he] at hv
    cases hcall with
    | manual hn | reconciled hn => exact absurd (he.symm.trans hn) (Option.some_ne_none _)
    | listed he' hpoll =>
      obtain rfl := Option.some.inj (he.symm.trans he')
      obtain ⟨liveness, hl, hlive⟩ := hpoll.polled
      exact h.current hcalled hl hlive hv (hs.listed _ he) (.upserted hkept _ _)
  | manual hn hrow hm h =>
    subst hrow
    rw [Cycle.viewersOf_unlisted hn] at hv
    cases hcall with
    | listed he => exact absurd (he.symm.trans hn) (Option.some_ne_none _)
    | reconciled _ _ hpoll => cases hpoll
    | manual _ _ hpoll =>
      cases hpoll with
      | poll hl hsigner =>
        exact h.current hcalled hl hsigner hv (hs.unlisted rfl).1 (hkept _ rfl)
  | reconciled _ _ _ _ h => exact absurd hmem (h.unpolled url)
  | both _ _ _ _ _ _ _ h => exact absurd hmem (by simpa using h.unpolled url)

/-- A listed instance without an answer is published for other reasons. -/
theorem SeenTurn.silent {inst : DiscoveredLive ν} {signer dTag : JsString}
    {row r' : InstanceRow ν} {A : LiveAnswers ν} {w : List (Call ν)}
    (h : SeenTurn E inst signer dTag row false A r' w) (hv : A.viewers = some none) :
    ∀ p ∈ publishes w, p.1.status ≠ row.status ∨ E.republishDue row A.dueAt = true := by
  have hreason {liveness : Liveness} (hnews : E.hasNews row false liveness A = true) :
      Engine.statusOf liveness ≠ row.status ∨ E.republishDue row A.dueAt = true := by
    have hpolled : Engine.polledOf liveness A = none := by
      unfold Engine.polledOf
      split
      · rw [hv]
        rfl
      · rfl
    simp only [Engine.hasNews, hpolled, Engine.viewersChanged, Bool.false_or, Bool.or_false,
      Bool.or_eq_true, decide_eq_true_eq] at hnews
    exact hnews.imp_left Ne.symm
  intro p hp
  cases h with
  | optedOut | unanswered => cases hp
  | stalled _ _ _ _ ha | quiet _ _ _ _ _ ha =>
    rw [ha.probed_silent] at hp
    cases hp
  | thrown _ _ _ hnews _ _ ha | told _ _ _ hnews _ _ ha =>
    rw [ha.probed_event] at hp
    obtain rfl := List.mem_singleton.mp hp
    exact hreason hnews

theorem ManualTurn.silent {row r' : InstanceRow ν} {A : ManualAnswers ν} {found : Bool}
    {w : List (Call ν)} (h : ManualTurn E url row A r' found w) (hv : A.viewers = some none) :
    ∀ p ∈ publishes w, p.1.status ≠ row.status ∨ E.republishDue row A.dueAt = true := by
  intro p hp
  cases h with
  | optedOut | unanswered | missed => cases hp
  | stalled _ _ _ _ ha | quiet _ _ _ _ _ ha =>
    rw [ha.probed_silent] at hp
    cases hp
  | thrown _ _ _ hnews _ _ ha | told _ _ _ hnews _ _ ha =>
    rw [ha.probed_event] at hp
    obtain rfl := List.mem_singleton.mp hp
    simp only [Engine.manualNews, hv, Option.getD_some, Engine.viewersChanged, Bool.or_false,
      Bool.or_eq_true, decide_eq_true_eq] at hnews
    refine hnews.imp_left fun hended => ?_
    rw [hended]
    exact Status.noConfusion

omit [DecidableEq ν] in
theorem ReconcileTurn.silent {row r' : InstanceRow ν} {A : ReconcileAnswers}
    {w : List (Call ν)} (h : ReconcileTurn E url row A r' w) :
    ∀ p ∈ publishes w, p.1.status = .ended := by
  intro p hp
  cases h with
  | optedOut | unanswered | alive | failing => cases hp
  | thrown | ended =>
    obtain rfl := List.mem_singleton.mp hp
    rfl

theorem Turn.silent {c : Cycle ν} {row : InstanceRow ν} {r' : Option (InstanceRow ν)}
    {w : List (Call ν)} (h : Turn E c url (some row) r' w) (hv : c.viewersOf url = some none) :
    ∀ p ∈ publishes w, p.1.status ≠ row.status ∨ E.republishDue row (c.dueAt url) = true := by
  cases h with
  | passed => exact fun _ hp => absurd hp List.not_mem_nil
  | @listed e he _ _ _ _ _ hrow _ _ h =>
    subst hrow
    rw [Cycle.viewersOf_listed he] at hv
    have hdue : c.dueAt url = e.2.dueAt := by simp only [Cycle.dueAt, he]
    rw [hdue]
    exact h.silent hv
  | manual hn hrow hm h =>
    obtain rfl := Option.some.inj hrow
    rw [Cycle.viewersOf_unlisted hn] at hv
    have hdue : c.dueAt url = (c.manual url).dueAt := by simp only [Cycle.dueAt, hn]
    rw [hdue]
    exact h.silent hv
  | reconciled _ hrow _ hl h | both _ hrow _ hl _ _ _ h =>
    obtain rfl := Option.some.inj hrow
    intro p hp
    refine .inl fun heq => ?_
    have hended := h.silent p hp
    rw [hended, listByStatus_status hl] at heq
    cases heq

end Turn

/-- While a published row is live, the store has the viewer count of its last event. -/
def ViewersKept (s : DiscoveryState ν) : Prop :=
  ∀ url, ∀ row ∈ s.table.get? url, CountKept (lastPublished url s.history) row

section Run

variable [DecidableEq ν] {E : Engine} {s s' : DiscoveryState ν}

theorem ViewersKept.cycle {c : Cycle ν} (hn : (c.live.map fun e => e.1.url).Nodup)
    (h : ViewersKept s) (hs : Succeeds c s) : ViewersKept (E.runCycle c s) := by
  intro url r' hr'
  have hturn := runCycle_turn E hn s url
  rw [Option.mem_def.mp hr'] at hturn
  rw [E.runCycle_history, lastPublished_append, ← publishes_contacts]
  exact hturn.countKept (hs.at url) (h url)

theorem ViewersKept.law [JsNumber ν] [JsFinite ν] {c : Cycle ν}
    (hn : (c.live.map fun e => e.1.url).Nodup) (h : ViewersKept s) (hs : Succeeds c s) :
    ViewersLaw E c s := by
  constructor
  · intro url viewers hpoll hv hfinite
    have hcontact : Call.fetchViewerCount url ∈
        contacts (Keyed.logOf url (E.runCycle c s).cycleLog) := List.mem_filter.mpr ⟨hpoll, rfl⟩
    have hcurrent := (runCycle_turn E hn s url).current hcontact (runCycle_calls hn s hpoll) hv
      (hs.at url) (h url)
    rw [publishes_contacts] at hcurrent
    obtain ⟨input, hlast, hcount⟩ := Option.map_eq_some_iff.mp hcurrent
    refine ⟨input, ?_, ?_⟩
    · rw [E.runCycle_history, lastPublished_append]
      exact hlast
    · rw [liveEventTags_participants, hcount]
      congr 1
      exact List.filter_eq_self.mpr fun n hn => hfinite n (Option.mem_toList.mp hn)
  · intro url row hrow hv
    have hturn := runCycle_turn E hn s url
    rw [hrow] at hturn
    rw [← publishes_contacts]
    exact hturn.silent hv

variable [JsNumber ν]

namespace Engine

/-- One step of the stored instances with the operator at hand. -/
def operatedStep (E : Engine) (s : DiscoveryState ν) :
    OperatedAction ν → Option (DiscoveryState ν)
  | .cycle payload live answers => E.discoveryStep s (.cycle payload live answers)
  | .addManual url row =>
    E.discoveryStep s (.addManual url { row with lastPublishedAt := none, viewerCount := none })
  | .setFlags url discoveryEnabled chatEnabled =>
    (s.table.get? url).map fun row =>
      let flagged := { row with discoveryEnabled := discoveryEnabled, chatEnabled := chatEnabled }
      { s with table := s.table.set url flagged }

end Engine

/-- In each cycle the publishes and the store calls succeed. -/
def SucceedsStep (E : Engine) (s : DiscoveryState ν) : OperatedAction ν → Prop
  | .cycle payload live answers => Succeeds (E.cycleOn payload live answers) s
  | .addManual _ _ | .setFlags _ _ _ => True

omit [DecidableEq ν] [JsNumber ν] in
theorem ViewersKept.set (h : ViewersKept s) {url : JsString} {row : InstanceRow ν}
    (hrow : CountKept (lastPublished url s.history) row) :
    ViewersKept { s with table := s.table.set url row } := by
  intro url' row' hrow'
  simp only [OrderedMap.get?_set, Option.mem_def] at hrow'
  split at hrow'
  · rename_i heq
    subst heq
    obtain rfl := Option.some.inj hrow'
    exact hrow
  · exact h url' row' hrow'

theorem step_viewersKept {a : OperatedAction ν} (h : ViewersKept s) (hg : SucceedsStep E s a)
    (hs : E.operatedStep s a = some s') : ViewersKept s' := by
  cases a with
  | cycle payload live answers =>
    obtain rfl := Option.some.inj hs
    exact h.cycle (cycleOn_nodup E payload live answers) hg
  | addManual url row =>
    simp only [Engine.operatedStep, Engine.discoveryStep] at hs
    split at hs
    · cases hs
    · obtain rfl := Option.some.inj hs
      exact h.set fun _ hp => absurd rfl hp
  | setFlags url discoveryEnabled chatEnabled =>
    obtain ⟨row, hrow, rfl⟩ := Option.map_eq_some_iff.mp hs
    exact h.set ((h url row hrow).same rfl rfl rfl)

omit [DecidableEq ν] [JsNumber ν] in
theorem init_viewersKept : ViewersKept (DiscoveryState.init : DiscoveryState ν) :=
  fun _ _ h => absurd h (Option.not_mem_none _)

/-- In every run whose publishes and store calls succeed, the published viewer counts are the
ones polled last. -/
theorem viewers_current [JsFinite ν] (E : Engine) {as : List (OperatedAction ν)}
    (hg : Guarded E.operatedStep (SucceedsStep E) .init as) :
    ∀ as₁ payload live answers as₂ s, as = as₁ ++ .cycle payload live answers :: as₂ →
      run E.operatedStep .init as₁ = some s →
      ViewersLaw E (E.cycleOn payload live answers) s := by
  intro as₁ payload live answers as₂ s has hs
  have hcycle := guarded_iff.mp hg as₁ _ as₂ s has hs
  subst has
  have hkept := run_invariant (fun _ _ _ => step_viewersKept) init_viewersKept hg.append_left hs
  exact hkept.law (cycleOn_nodup E payload live answers) hcycle

end Run

instance (c : Cycle ν) (s : DiscoveryState ν) : Decidable (Succeeds c s) :=
  inferInstanceAs (Decidable ((∀ _ ∈ c.live, _ ∧ _ ∧ _) ∧ ∀ _ ∈ s.table.entries, _ ∧ _ ∧ _))

instance [DecidableEq ν] [JsNumber ν] (E : Engine) (s : DiscoveryState ν) :
    ∀ a, Decidable (SucceedsStep E s a)
  | .cycle payload live answers =>
    inferInstanceAs (Decidable (Succeeds (E.cycleOn payload live answers) s))
  | .addManual _ _ | .setFlags _ _ _ => inferInstanceAs (Decidable True)

/-- The stream is listed, and its viewers are polled with this answer. -/
def viewersCycle (viewers : Option Int) : OperatedAction Int :=
  .cycle (some (demoPayload "https://a.example"))
    (fun url => { demoLive url with viewers := some (some viewers) }) demoAnswers

/-- The instance is opted out for a while between two polls. -/
def viewersRun : List (OperatedAction Int) :=
  [viewersCycle (some 4), .setFlags (js "https://a.example") false true, viewersCycle (some 7),
    .setFlags (js "https://a.example") true true, viewersCycle none]

theorem viewers_current_hidden :
    ∃ s, run demoEngine.operatedStep .init (viewersRun.take 4) = some s ∧
      ViewersLaw demoEngine (demoEngine.cycleOn (some (demoPayload "https://a.example"))
        (fun url => { demoLive url with viewers := some (some none) }) demoAnswers) s := by
  have hrun : (run demoEngine.operatedStep .init (viewersRun.take 4)).isSome = true := by
    decide +kernel
  obtain ⟨s, hs⟩ := Option.isSome_iff_exists.mp hrun
  have hg : Guarded demoEngine.operatedStep (SucceedsStep demoEngine) .init viewersRun := by
    decide +kernel
  exact ⟨s, hs, viewers_current demoEngine hg (viewersRun.take 4) _ _ _ [] s rfl hs⟩

end LivelierBridge.Discovery
