import LivelierBridge.Discovery.Calls
import LivelierBridge.Discovery.Coordinates
import LivelierBridge.Discovery.LiveEventTags

namespace LivelierBridge.Discovery

open Framework Js

variable {ν : Type}

/-- The columns that say whose channel a row is. -/
structure HostIdentity where
  source : JsString
  pubkey : JsString
  dTag : JsString
  deriving DecidableEq

def InstanceRow.identity (row : InstanceRow ν) : HostIdentity := ⟨row.source, row.pubkey, row.dTag⟩

/-- The identity that an engine's upsert gives a url under its secret and source. -/
def Engine.identityOf (E : Engine) (url : JsString) : Option HostIdentity :=
  match E.signerFor url, dTagFor E.runtime url E.dTagPrefix with
  | some pubkey, some dTag => some ⟨E.sourceKey, pubkey, dTag⟩
  | _, _ => none

/-- What happens to a database that several engine runs share: a poll cycle of one of them, with
its own memory of the last snapshot, or a row that is added by hand under the identity that an
engine derives. -/
inductive SharedAction (ν : Type) where
  | cycle (E : Engine) (lastSnapshotAt : Option Int) (c : Cycle ν)
  | addManual (E : Engine) (url : JsString) (row : InstanceRow ν)

/-- The action upserts the url under the identity, or adds it so. -/
def SharedAction.Offers (url : JsString) (id : HostIdentity) : SharedAction ν → Prop
  | .cycle E _ c =>
    (∃ e ∈ c.live, e.1.url = url ∧ e.2.upsert.isSome = true) ∧ E.identityOf url = some id
  | .addManual E url' _ => url' = url ∧ E.identityOf url = some id

/-- A shared database, with the actions on it so far. -/
structure SharedDb (ν : Type) where
  db : DiscoveryState ν
  past : List (SharedAction ν)

namespace SharedDb

def init : SharedDb ν := ⟨⟨.empty, [], none, [], []⟩, []⟩

/-- The database as a cycle of an engine with this memory finds it. -/
def before (s : SharedDb ν) (lastSnapshotAt : Option Int) : DiscoveryState ν :=
  { s.db with lastSnapshotAt := lastSnapshotAt }

/-- A row added by hand, under the identity that is derived for its url. -/
def addedRow (row : InstanceRow ν) (id : HostIdentity) : InstanceRow ν :=
  { row with source := id.source, origin := js "manual", pubkey := id.pubkey, dTag := id.dTag }

/-- One step of the shared database; a live set lists each url once. -/
def step [DecidableEq ν] (s : SharedDb ν) : SharedAction ν → Option (SharedDb ν)
  | .cycle E lastSnapshotAt c =>
    if (c.live.map fun e => e.1.url).Nodup then
      some ⟨E.runCycle c (s.before lastSnapshotAt), s.past ++ [.cycle E lastSnapshotAt c]⟩
    else none
  | .addManual E url row =>
    match E.identityOf url with
    | none => none
    | some id =>
      if s.db.table.has url then none
      else
        let table := s.db.table.set url (addedRow row id)
        some ⟨{ s.db with table := table }, s.past ++ [.addManual E url row]⟩

end SharedDb

/-- In a cycle each profile is signed by the key that the engine derives for the url, and each
live event names that key as its host. -/
def HostLaw [DecidableEq ν] [JsNumber ν] [JsFinite ν] (E : Engine) (c : Cycle ν)
    (s : DiscoveryState ν) : Prop :=
  ∀ url,
    (∀ signer profile relayUrls results, Call.publishProfile signer profile relayUrls results ∈
      Keyed.logOf url (E.runCycle c s).cycleLog → E.signerFor url = some signer) ∧
    ∀ p ∈ publishes (Keyed.logOf url (E.runCycle c s).cycleLog),
      E.signerFor url = some p.1.hostPubkey ∧
        tagsNamed (js "p") (liveEventTags p.1) = [textTag [js "p", p.1.hostPubkey, js "", js "host"]]

/-- Each row has the identity under which some upsert or insertion offered it. -/
def Stemmed (s : SharedDb ν) : Prop :=
  ∀ url, ∀ row ∈ s.db.table.get? url, ∃ a ∈ s.past, a.Offers url row.identity

/-- The host tags resolve to the profiles in every cycle, and the identity columns of the rows
stay in step. -/
def HostsResolve [DecidableEq ν] [JsNumber ν] [JsFinite ν] (as : List (SharedAction ν)) : Prop :=
  (∀ as₁ E lastSnapshotAt c as₂ s s', as = as₁ ++ .cycle E lastSnapshotAt c :: as₂ →
    run SharedDb.step .init as₁ = some s → s.step (.cycle E lastSnapshotAt c) = some s' →
    HostLaw E c (s.before lastSnapshotAt)) ∧
  ∀ as₁ as₂ s, as = as₁ ++ as₂ → run SharedDb.step .init as₁ = some s → Stemmed s

/-- A probe has answered, and not that the stream is live. -/
def ProbedAway (answer : Option Liveness) : Prop := answer = some .ended ∨ answer = some .error

namespace Engine

/-- A row that the cycle does not list is due to be published from the store: a manual one that
is found live with something to say, or a live one whose failed probes have reached the limit. -/
def DueFromStore [DecidableEq ν] (E : Engine) (c : Cycle ν) (url : JsString)
    (row : InstanceRow ν) : Prop :=
  row.source = E.sourceKey ∧ row.discoveryEnabled = true ∧
    ((listManual E.sourceKey row = true ∧ (c.manual url).liveness = some .live ∧
        E.ReachesManual url row (c.manual url) ∧ E.manualNews row (c.manual url) = true) ∨
      (row.status = .live ∧
        (listManual E.sourceKey row = true → ProbedAway (c.manual url).liveness) ∧
        ProbedAway (c.reconcile url).liveness ∧
        E.maxConsecutiveFailures ≤ row.consecutiveFailures + 1))

/-- A stored row keeps its identity in the cycle: where the cycle lists it, its key is the one
that the engine derives, or its source and d-tag are; where it is due to be published from the
store, its key is. -/
def KeepsKey [DecidableEq ν] (E : Engine) (c : Cycle ν) (url : JsString) (row : InstanceRow ν) :
    Prop :=
  match c.listing url with
  | some e => e.2.upsert.isSome = true → ∀ id ∈ E.identityOf url,
      row.pubkey = id.pubkey ∨ (row.source = id.source ∧ row.dTag = id.dTag)
  | none => E.DueFromStore c url row → E.signerFor url = some row.pubkey

end Engine

/-- In each cycle the stored rows keep their keys. -/
def KeysKept [DecidableEq ν] (s : SharedDb ν) : SharedAction ν → Prop
  | .cycle E _ c => ∀ entry ∈ s.db.table.entries, E.KeepsKey c entry.1 entry.2
  | .addManual _ _ _ => True

section Identity

variable [DecidableEq ν] {E : Engine}

theorem SeenTurn.identity {inst : DiscoveredLive ν} {signer dTag : JsString}
    {row r' : InstanceRow ν} {isNew : Bool} {A : LiveAnswers ν} {w : List (Call ν)}
    (h : SeenTurn E inst signer dTag row isNew A r' w) : r'.identity = row.identity := by
  cases h with
  | optedOut | unanswered | stalled | thrown => rfl
  | quiet | told =>
    split
    · rfl
    · rfl

theorem ManualTurn.identity {url : JsString} {row r' : InstanceRow ν} {A : ManualAnswers ν}
    {found : Bool} {w : List (Call ν)} (h : ManualTurn E url row A r' found w) :
    r'.identity = row.identity := by
  cases h with
  | optedOut | unanswered | missed | stalled | thrown => rfl
  | quiet | told =>
    split
    · rfl
    · rfl

omit [DecidableEq ν] in
theorem ReconcileTurn.identity {url : JsString} {row r' : InstanceRow ν} {A : ReconcileAnswers}
    {w : List (Call ν)} (h : ReconcileTurn E url row A r' w) : r'.identity = row.identity := by
  cases h with
  | optedOut | unanswered | thrown => rfl
  | alive | failing | ended =>
    split
    · rfl
    · rfl

/-- The upsert gives a new row the identity that the engine derives; a stored one keeps its
key. -/
def upsertedIdentity (r : Option (InstanceRow ν)) (id : HostIdentity) : HostIdentity :=
  match r with
  | none => id
  | some row => { id with pubkey := row.pubkey }

/-- What processing a listed instance does to its identity: nothing, or what the upsert does. -/
theorem processLive_identity (E : Engine) (inst : DiscoveredLive ν) (A : LiveAnswers ν)
    (t : Slot ν) :
    (E.processLive inst A t).state.row = t.row ∨ ∃ id r', E.identityOf inst.url = some id ∧
      A.upsert.isSome = true ∧ (E.processLive inst A t).state.row = some r' ∧
      r'.identity = upsertedIdentity t.row id := by
  unfold Engine.processLive Engine.identityOf
  cases E.signerFor inst.url with
  | none => exact .inl rfl
  | some signer =>
    cases dTagFor E.runtime inst.url E.dTagPrefix with
    | none => exact .inl rfl
    | some dTag =>
      cases hup : A.upsert with
      | none => exact .inl rfl
      | some now =>
        rw [Faulty.await_some_bind, Faulty.await_some_bind, upsertSeen_bind]
        obtain ⟨r', hstate, hturn⟩ := processSeen_turn E inst signer dTag
          (upsertedRow t.row (E.seenInput inst signer dTag) now) t.row.isNone A t.inLiveUrls
        refine .inr ⟨_, r', rfl, rfl, congrArg Slot.row hstate, ?_⟩
        rw [hturn.identity]
        cases t.row <;> rfl

/-- What a cycle does to the identity of a row: nothing, or what the upsert of its listing
does. -/
def Reidentified (E : Engine) (c : Cycle ν) (url : JsString) (r r' : Option (InstanceRow ν)) :
    Prop :=
  r'.map InstanceRow.identity = r.map InstanceRow.identity ∨
    ∃ e id, c.listing url = some e ∧ E.identityOf url = some id ∧ e.2.upsert.isSome = true ∧
      r'.map InstanceRow.identity = some (upsertedIdentity r id)

variable {c : Cycle ν} {url : JsString}

theorem livePass_identity (hn : (c.live.map fun e => e.1.url).Nodup) (w : Work ν) :
    Reidentified E c url (w.slot url).row
      ((Keyed.runJobs (c.live.map E.liveJob) w).state.slot url).row := by
  have hkeys : ((c.live.map E.liveJob).map Prod.fst).Nodup := by
    simpa [List.map_map, Function.comp_def, Engine.liveJob] using hn
  have hran := Keyed.runJobs_ran hkeys w url
  change Keyed.Ran _ _ (w.slot url) (Work.slot _ url) _ at hran
  generalize Work.slot (Keyed.runJobs (c.live.map E.liveJob) w).state url = t' at hran ⊢
  generalize Keyed.logOf url (Keyed.runJobs (c.live.map E.liveJob) w).log = log at hran
  cases hran with
  | skipped => exact .inl rfl
  | ran m hm =>
    obtain ⟨e, he, heq⟩ := List.mem_map.mp hm
    obtain ⟨rfl, rfl⟩ := Prod.mk.inj heq
    show Reidentified E c e.1.url (w.slot e.1.url).row
      (E.processLive e.1 e.2 { w.slot e.1.url with inLiveUrls := true }).state.row
    rcases processLive_identity E e.1 e.2 { w.slot e.1.url with inLiveUrls := true } with hs |
      ⟨id, r', hid, hup, hs, hr'⟩
    · exact .inl (by rw [hs])
    · exact .inr ⟨e, id, Cycle.listing_of_mem hn he, hid, hup, by rw [hs, Option.map_some, hr']⟩

theorem manualPass_identity (w : Work ν) :
    ((E.processManualRows c w).state.slot url).row.map InstanceRow.identity =
      (w.slot url).row.map InstanceRow.identity := by
  unfold Engine.processManualRows
  rcases forRows_ran c.listManual (listManual E.sourceKey)
    (fun e => E.processManualRow e.1 e.2 (c.manual e.1)) w url with ⟨hs, -⟩ | ⟨row, hrow, -, hs, -⟩
  · rw [hs]
  · rw [hs]
    have hslot : w.slot url = ⟨some row, w.liveUrls url⟩ := by rw [← hrow]; rfl
    rw [hslot]
    cases w.liveUrls url with
    | true => rfl
    | false =>
      obtain ⟨r', found, hstate, hturn⟩ := processManualRow_turn E url row (c.manual url)
      rw [hstate, Option.map_some, hturn.identity, Option.map_some]

omit [DecidableEq ν] in
theorem reconcilePass_identity (w : Work ν) :
    ((E.reconcileDisappeared c w).state.slot url).row.map InstanceRow.identity =
      (w.slot url).row.map InstanceRow.identity := by
  unfold Engine.reconcileDisappeared
  rcases forRows_ran c.listByStatus (listByStatus .live E.sourceKey)
    (fun e => E.reconcileRow e.1 e.2 (c.reconcile e.1)) w url with ⟨hs, -⟩ | ⟨row, hrow, -, hs, -⟩
  · rw [hs]
  · rw [hs]
    have hslot : w.slot url = ⟨some row, w.liveUrls url⟩ := by rw [← hrow]; rfl
    rw [hslot]
    cases w.liveUrls url with
    | true => rfl
    | false =>
      obtain ⟨r', hstate, hturn⟩ := reconcileRow_turn E url row (c.reconcile url)
      rw [hstate, Option.map_some, hturn.identity, Option.map_some]

theorem runCycle_identity (hn : (c.live.map fun e => e.1.url).Nodup) (s : DiscoveryState ν) :
    Reidentified E c url (s.table.get? url) ((E.runCycle c s).table.get? url) := by
  rcases E.runCycle_cases c s with ⟨-, hrun⟩ | ⟨fetched, hf, htable, -, -⟩
  · rw [hrun]
    exact .inl rfl
  have hlive : c.live = fetched.live := by simp [Cycle.live, hf]
  rw [htable, ← hlive]
  let w : Work ν := ⟨s.table, fun _ => false⟩
  have hfirst : Reidentified E c url (s.table.get? url)
      ((Keyed.runJobs (c.live.map E.liveJob) w).state.slot url).row := livePass_identity hn w
  show Reidentified E c url _ ((E.passes c c.live w).state.slot url).row
  unfold Engine.passes
  apply Faulty.bind_rule (P := fun o : Outcome (Work ν) (JsString × Call ν) Unit =>
    Reidentified E c url (s.table.get? url) (o.state.slot url).row)
  · exact fun _ => hfirst
  intro _ _
  apply Faulty.bind_rule (P := fun o : Outcome (Work ν) (JsString × Call ν) Unit =>
    Reidentified E c url (s.table.get? url) (o.state.slot url).row)
  · intro _
    unfold Reidentified
    rw [manualPass_identity]
    exact hfirst
  · intro _ _
    unfold Reidentified
    rw [reconcilePass_identity, manualPass_identity]
    exact hfirst

omit [DecidableEq ν] in
theorem probedAway_of_ne {answer : Option Liveness} {liveness : Liveness}
    (h : answer = some liveness) (hne : liveness ≠ .live) : ProbedAway answer := by
  cases liveness with
  | live => exact absurd rfl hne
  | ended => exact .inl h
  | error => exact .inr h

omit [DecidableEq ν] in
theorem ReconcileTurn.publishes_due {row r' : InstanceRow ν} {A : ReconcileAnswers}
    {w : List (Call ν)} (h : ReconcileTurn E url row A r' w) {p : Publish ν}
    (hp : p ∈ publishes w) : row.discoveryEnabled = true ∧ ProbedAway A.liveness ∧
      E.maxConsecutiveFailures ≤ row.consecutiveFailures + 1 ∧ p.1.hostPubkey = row.pubkey := by
  cases h with
  | optedOut | unanswered | alive | failing => cases hp
  | thrown hon hl hne hmax | ended hon hl hne hmax =>
    obtain rfl := List.mem_singleton.mp hp
    exact ⟨hon, probedAway_of_ne hl hne, hmax, rfl⟩

/-- What is published for an unlisted url is its stored row, which is due. -/
theorem Turn.dueFromStore {r r' : Option (InstanceRow ν)} {w : List (Call ν)}
    (h : Turn E c url r r' w) (hn : c.listing url = none) {p : Publish ν} (hp : p ∈ publishes w) :
    ∃ row, r = some row ∧ E.DueFromStore c url row ∧ p.1.hostPubkey = row.pubkey := by
  cases h with
  | passed => cases hp
  | listed he => exact absurd (he.symm.trans hn) (Option.some_ne_none _)
  | @manual _ row hrow hm _ _ _ h =>
    have hsource : row.source = E.sourceKey := by
      simp only [listManual, decide_eq_true_eq] at hm
      exact hm.1
    cases h with
    | optedOut | unanswered | missed => cases hp
    | stalled _ _ _ _ ha | quiet _ _ _ _ _ ha =>
      rw [ha.probed_silent] at hp
      cases hp
    | thrown hon hl hr hnews _ _ ha | told hon hl hr hnews _ _ ha =>
      rw [ha.probed_event] at hp
      obtain rfl := List.mem_singleton.mp hp
      exact ⟨row, hrow, ⟨hsource, hon, .inl ⟨hm, hl, hr, hnews⟩⟩, rfl⟩
  | @reconciled _ row hrow hm hl _ _ h =>
    obtain ⟨hon, hanswer, hmax, hhost⟩ := h.publishes_due hp
    simp only [listByStatus, decide_eq_true_eq] at hl
    refine ⟨row, hrow, ⟨hl.2, hon, .inr ⟨hl.1, fun hmanual => ?_, hanswer, hmax⟩⟩, hhost⟩
    rw [hm] at hmanual
    cases hmanual
  | @both _ row hrow hm hl _ _ hmissed hne _ w h =>
    obtain ⟨hon, hanswer, hmax, hhost⟩ := h.publishes_due (p := p) hp
    simp only [listByStatus, decide_eq_true_eq] at hl
    exact ⟨row, hrow, ⟨hl.2, hon, .inr ⟨hl.1, fun _ => probedAway_of_ne hmissed hne, hanswer, hmax⟩⟩,
      hhost⟩

omit [DecidableEq ν] in
theorem liveEventTags_host [JsNumber ν] [JsFinite ν] (input : LivePublishInput ν) :
    tagsNamed (js "p") (liveEventTags input) =
      [textTag [js "p", input.hostPubkey, js "", js "host"]] := by
  unfold liveEventTags buildLiveEventTags
  simp only [tagsNamed_append]
  rw [tagsNamed_map _ false, tagsNamed_map _ false, tagsNamed_map _ false, tagsNamed_map _ false]
  · rfl
  all_goals exact fun _ => rfl

/-- When the stored rows keep their keys, the host tags of the cycle resolve. -/
theorem cycle_hostLaw [JsNumber ν] [JsFinite ν] (hn : (c.live.map fun e => e.1.url).Nodup)
    {s : DiscoveryState ν} (h : ∀ entry ∈ s.table.entries, E.KeepsKey c entry.1 entry.2) :
    HostLaw E c s := by
  refine fun url => ⟨fun signer profile relayUrls results hx => ?_, fun p hp => ⟨?_, ?_⟩⟩
  · cases runCycle_calls hn s hx with
    | listed he hcall =>
      have hurl := Cycle.listing_url he
      cases hcall with
      | profile hs => exact hurl ▸ hs
    | manual _ _ hcall =>
      cases hcall with
      | profile hs => exact hs
    | reconciled _ _ hcall => cases hcall
  · obtain ⟨input, results⟩ := p
    obtain ⟨x, hx, hpub⟩ := List.mem_filterMap.mp hp
    cases hl : c.listing url with
    | some e =>
      obtain rfl : x = .publishLiveEvent input results := by
        cases x <;> cases hpub
        rfl
      cases runCycle_calls hn s hx with
      | listed he hcall =>
        have hurl := Cycle.listing_url he
        cases hcall with
        | event hs => exact hurl ▸ hs
      | manual hnone | reconciled hnone => exact absurd (hl.symm.trans hnone) (Option.some_ne_none _)
    | none =>
      rw [← publishes_contacts] at hp
      obtain ⟨row, hrow, hdue, hhost⟩ := (runCycle_turn E hn s url).dueFromStore hl hp
      have hkeeps := h (url, row) ((s.table.get?_eq_some_iff url row).mp hrow)
      simp only [Engine.KeepsKey, hl] at hkeeps
      rw [hhost]
      exact hkeeps hdue
  · exact liveEventTags_host p.1

end Identity

section Run

variable [DecidableEq ν] {s s' : SharedDb ν}

omit [DecidableEq ν] in
theorem init_stemmed : Stemmed (SharedDb.init : SharedDb ν) :=
  fun _ _ h => absurd h (Option.not_mem_none _)

omit [DecidableEq ν] in
/-- An earlier offer stays one. -/
theorem Stemmed.offered (h : Stemmed s) {url : JsString} {row : InstanceRow ν}
    (hrow : s.db.table.get? url = some row) (a : SharedAction ν) :
    ∃ a' ∈ s.past ++ [a], a'.Offers url row.identity := by
  obtain ⟨a', ha', hoffers⟩ := h url row hrow
  exact ⟨a', List.mem_append_left _ ha', hoffers⟩

theorem Stemmed.cycle {E : Engine} {c : Cycle ν} (last : Option Int) (h : Stemmed s)
    (hg : KeysKept s (.cycle E last c)) (hn : (c.live.map fun e => e.1.url).Nodup) :
    Stemmed ⟨E.runCycle c (s.before last), s.past ++ [.cycle E last c]⟩ := by
  intro url r' hr'
  have hid : Reidentified E c url ((s.before last).table.get? url)
      ((E.runCycle c (s.before last)).table.get? url) := runCycle_identity hn (s.before last)
  rw [show (E.runCycle c (s.before last)).table.get? url = some r' from hr'] at hid
  change (some r').map InstanceRow.identity = (s.db.table.get? url).map InstanceRow.identity ∨
    _ at hid
  rcases hid with hsame | ⟨e, id, he, hoffer, hup, hid⟩
  · obtain ⟨row, hrow, heq⟩ := Option.map_eq_some_iff.mp hsame.symm
    rw [← heq]
    exact h.offered hrow _
  · have hid' : r'.identity = upsertedIdentity (s.db.table.get? url) id := Option.some.inj hid
    have hnow : (SharedAction.cycle E last c).Offers url id :=
      ⟨⟨e, Cycle.listing_mem he, Cycle.listing_url he, hup⟩, hoffer⟩
    rw [hid']
    cases hrow : s.db.table.get? url with
    | none => exact ⟨_, List.mem_concat_self, hnow⟩
    | some row =>
      have hkeeps := hg (url, row) ((s.db.table.get?_eq_some_iff url row).mp hrow)
      simp only [Engine.KeepsKey, he] at hkeeps
      rcases hkeeps hup id hoffer with hkey | ⟨hsource, hdTag⟩
      · refine ⟨_, List.mem_concat_self, ?_⟩
        show SharedAction.Offers url { id with pubkey := row.pubkey } _
        rw [hkey]
        exact hnow
      · have hkept : upsertedIdentity (some row) id = row.identity := by
          simp [upsertedIdentity, InstanceRow.identity, hsource, hdTag]
        rw [hkept]
        exact h.offered hrow _

theorem step_stemmed {a : SharedAction ν} (h : Stemmed s) (hg : KeysKept s a)
    (hs : SharedDb.step s a = some s') : Stemmed s' := by
  cases a with
  | cycle E last c =>
    simp only [SharedDb.step] at hs
    split at hs
    · rename_i hn
      obtain rfl := Option.some.inj hs
      exact h.cycle last hg hn
    · cases hs
  | addManual E url row =>
    simp only [SharedDb.step] at hs
    split at hs
    · cases hs
    · rename_i id hid
      split at hs
      · cases hs
      · obtain rfl := Option.some.inj hs
        intro url' row' hrow'
        simp only [OrderedMap.get?_set, Option.mem_def] at hrow'
        split at hrow'
        · rename_i heq
          subst heq
          obtain rfl := Option.some.inj hrow'
          exact ⟨_, List.mem_concat_self, rfl, hid⟩
        · exact h.offered hrow' _

/-- In every run of engines on one database in which the stored rows keep their keys, the host
tags resolve to the profiles and the identity columns stay in step. -/
theorem keysKept_hostsResolve [JsNumber ν] [JsFinite ν] {as : List (SharedAction ν)}
    (hg : Guarded SharedDb.step KeysKept .init as) : HostsResolve as := by
  constructor
  · intro as₁ E last c as₂ s s' has hs hstep
    have hn : (c.live.map fun e => e.1.url).Nodup := by
      by_contra hn
      simp [SharedDb.step, hn] at hstep
    exact cycle_hostLaw hn (guarded_iff.mp hg as₁ _ as₂ s has hs)
  · intro as₁ as₂ s has hs
    subst has
    exact run_invariant (fun _ _ _ => step_stemmed) init_stemmed hg.append_left hs

end Run

instance (answer : Option Liveness) : Decidable (ProbedAway answer) :=
  inferInstanceAs (Decidable (_ ∨ _))

section Decidable

variable [DecidableEq ν]

instance (E : Engine) (c : Cycle ν) (url : JsString) (row : InstanceRow ν) :
    Decidable (E.DueFromStore c url row) :=
  inferInstanceAs (Decidable (_ ∧ _ ∧ ((_ ∧ _ ∧ E.ReachesManual url row (c.manual url) ∧ _) ∨
    (_ ∧ (_ → ProbedAway _) ∧ ProbedAway _ ∧ _))))

instance (E : Engine) (c : Cycle ν) (url : JsString) (row : InstanceRow ν) :
    Decidable (E.KeepsKey c url row) :=
  show Decidable (match c.listing url with
    | some e => e.2.upsert.isSome = true → ∀ id ∈ E.identityOf url,
        row.pubkey = id.pubkey ∨ (row.source = id.source ∧ row.dTag = id.dTag)
    | none => E.DueFromStore c url row → E.signerFor url = some row.pubkey) from
  match c.listing url with
  | some _ => inferInstanceAs (Decidable (_ → ∀ id ∈ E.identityOf url, _ ∨ (_ ∧ _)))
  | none => inferInstanceAs (Decidable (E.DueFromStore c url row → _))

instance (s : SharedDb ν) : ∀ a, Decidable (KeysKept s a)
  | .cycle _ _ _ => inferInstanceAs (Decidable (∀ entry ∈ s.db.table.entries, _))
  | .addManual _ _ _ => inferInstanceAs (Decidable True)

omit [DecidableEq ν] in
instance (url : JsString) (id : HostIdentity) :
    ∀ a : SharedAction ν, Decidable (a.Offers url id)
  | .cycle _ _ c => inferInstanceAs (Decidable ((∃ e ∈ c.live, _ ∧ _) ∧ _))
  | .addManual _ _ _ => inferInstanceAs (Decidable (_ ∧ _))

end Decidable

/-- An engine whose keys show their secret, and that tears a row down at the first failed
probe. -/
def keyedEngine (secret : String) : Engine :=
  { demoEngine with
    runtime :=
      { demoRuntime with derivedPubkey := fun secret message => secret ++ js "/" ++ message }
    bridgeKeySecret := js secret
    maxConsecutiveFailures := 1 }

/-- The engine of another source that sees the same urls. -/
def otherEngine : Engine :=
  { keyedEngine "secret" with sourceKey := js "other", dTagPrefix := js "ot" }

/-- The engine lists the stream. -/
def listedBy (E : Engine) : SharedAction Int :=
  .cycle E none (E.cycleOn (some (demoPayload "https://a.example")) demoLive demoAnswers)

/-- The engine does not list the stream any more, and its probe answers that it has ended. -/
def endedBy (E : Engine) : SharedAction Int :=
  .cycle E none (E.cycleOn emptyPayload demoLive
    { demoAnswers with reconcile := fun _ => ⟨some .ended, accepted, 0, true⟩ })

theorem keysKept_hostsResolve_restarted :
    HostsResolve [listedBy (keyedEngine "secret"), listedBy (keyedEngine "secret"),
      endedBy (keyedEngine "secret")] :=
  keysKept_hostsResolve (by decide +kernel)

/-- Behind a rotation of the secret the terminal event names the old key; and where two sources
see one url, the row has the key of one and the source and d-tag of the other. -/
theorem hostsResolve_fails :
    ¬HostsResolve [listedBy (keyedEngine "old"), endedBy (keyedEngine "new")] ∧
      ¬HostsResolve [listedBy (keyedEngine "secret"), listedBy otherEngine] := by
  let url := js "https://a.example"
  constructor
  · intro h
    have hrun : (run SharedDb.step .init [listedBy (keyedEngine "old")]).map
        (fun s : SharedDb Int => (s.step (endedBy (keyedEngine "new"))).map fun s' : SharedDb Int =>
          decide (∃ p ∈ publishes (Keyed.logOf url s'.db.cycleLog),
            (keyedEngine "new").signerFor url ≠ some p.1.hostPubkey)) = some (some true) := by
      decide +kernel
    obtain ⟨s, hs, hp⟩ := Option.map_eq_some_iff.mp hrun
    obtain ⟨s', hs', hp⟩ := Option.map_eq_some_iff.mp hp
    obtain ⟨p, hmem, hne⟩ := of_decide_eq_true hp
    obtain rfl := Option.some.inj hs'
    exact hne ((h.1 [listedBy (keyedEngine "old")] _ _ _ [] s _ rfl hs rfl url).2 p hmem).1
  · intro h
    have hrun : (run SharedDb.step .init [listedBy (keyedEngine "secret"),
        listedBy otherEngine]).map (fun s => decide (∃ row ∈ s.db.table.get? url,
          ∀ a ∈ s.past, ¬a.Offers url row.identity)) = some true := by
      decide +kernel
    obtain ⟨s, hs, hp⟩ := Option.map_eq_some_iff.mp hrun
    obtain ⟨row, hrow, hnone⟩ := of_decide_eq_true hp
    obtain ⟨a, ha, hoffers⟩ := h.2 _ [] s (List.append_nil _).symm hs url row hrow
    exact hnone a ha hoffers

end LivelierBridge.Discovery
