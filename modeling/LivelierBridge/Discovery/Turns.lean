import LivelierBridge.Discovery.Effects

namespace LivelierBridge.Discovery

open Framework Js

variable {ν : Type}

@[simp] def Call.isContact : Call ν → Bool
  | .count _ => false
  | .checkLiveness _ | .fetchViewerCount _ | .publishProfile _ _ _ _ | .publishRelayList _ _ _ _ _
  | .publishLiveEvent _ _ => true

/-- The calls that reach the outside; the others only count. -/
def contacts (w : List (Call ν)) : List (Call ν) := w.filter Call.isContact

@[simp] def Call.isProbe : Call ν → Bool
  | .checkLiveness _ => true
  | .fetchViewerCount _ | .publishProfile _ _ _ _ | .publishRelayList _ _ _ _ _
  | .publishLiveEvent _ _ | .count _ => false

/-- How often the stream was probed. -/
def probeCount (w : List (Call ν)) : Nat := w.countP Call.isProbe

/-- Calls that neither probe the stream nor publish its live event. -/
def Aside (w : List (Call ν)) : Prop := ∀ x ∈ w, x.isProbe = false ∧ x.publish? = none

@[simp] theorem contacts_nil : contacts ([] : List (Call ν)) = [] := rfl

@[simp] theorem contacts_append (w w' : List (Call ν)) :
    contacts (w ++ w') = contacts w ++ contacts w' := List.filter_append ..

@[simp] theorem contacts_cons (x : Call ν) (w : List (Call ν)) :
    contacts (x :: w) = if x.isContact then x :: contacts w else contacts w := List.filter_cons

theorem contacts_of_contact {x : Call ν} (h : x.isContact = true) (w : List (Call ν)) :
    contacts (x :: w) = x :: contacts w := List.filter_cons_of_pos h

theorem publishes_contacts (w : List (Call ν)) : publishes (contacts w) = publishes w := by
  unfold publishes contacts
  rw [List.filterMap_filter]
  congr
  funext x
  cases x with
  | count | checkLiveness | fetchViewerCount | publishProfile | publishRelayList
  | publishLiveEvent => rfl

theorem probeCount_contacts (w : List (Call ν)) : probeCount (contacts w) = probeCount w := by
  unfold probeCount contacts
  rw [List.countP_filter]
  congr
  funext x
  cases x with
  | count | checkLiveness | fetchViewerCount | publishProfile | publishRelayList
  | publishLiveEvent => rfl

theorem Aside.no_event {w : List (Call ν)} (h : Aside w) : publishes w = [] :=
  List.filterMap_eq_nil_iff.mpr fun x hx => (h x hx).2

theorem Aside.no_probe {w : List (Call ν)} (h : Aside w) : probeCount w = 0 := by
  apply List.countP_eq_zero.mpr
  intro x hx
  rw [(h x hx).1]
  exact Bool.false_ne_true

theorem aside_nil : Aside ([] : List (Call ν)) := fun _ h => absurd h List.not_mem_nil

theorem Aside.cons {w : List (Call ν)} (h : Aside w) {x : Call ν} (hx : x.isProbe = false)
    (hp : x.publish? = none) : Aside (x :: w) :=
  List.forall_mem_cons.mpr ⟨⟨hx, hp⟩, h⟩

theorem Aside.append {w w' : List (Call ν)} (h : Aside w) (h' : Aside w') : Aside (w ++ w') :=
  List.forall_mem_append.mpr ⟨h, h'⟩

theorem Aside.probed_silent {w : List (Call ν)} (h : Aside w) (streamUrl : JsString) :
    publishes (.checkLiveness streamUrl :: w) = [] := h.no_event

theorem Aside.probed_event {w : List (Call ν)} (h : Aside w) (streamUrl : JsString)
    (input : LivePublishInput ν) (results : Option RelayResults) :
    publishes (.checkLiveness streamUrl :: (w ++ [.publishLiveEvent input results])) =
      [(input, results)] := by
  show publishes (w ++ _) = _
  rw [publishes_append, h.no_event]
  rfl

/-- The profile publishes come back, and the store takes the new hash. -/
def ProfileAnswers.Taken (A : ProfileAnswers) : Prop :=
  A.profile.isSome = true ∧ A.relayList.isSome = true ∧ A.stored = true

instance (A : ProfileAnswers) : Decidable A.Taken := inferInstanceAs (Decidable (_ ∧ _ ∧ _))

namespace Engine

variable (E : Engine)

/-- The profile that a listed instance is presented with. -/
def seenProfile (inst : DiscoveredLive ν) : BridgedProfileInput :=
  ⟨orText inst.name inst.url, inst.description, inst.picture, inst.url, E.sourceName⟩

/-- The profile that a stored row is presented with. -/
def rowProfile (url : JsString) (row : InstanceRow ν) : BridgedProfileInput :=
  ⟨orText row.name url, row.description, row.image, url, E.sourceName⟩

/-- The profile is published already, or its publishes do not throw. -/
def ProfileStands (profile : BridgedProfileInput) (row : InstanceRow ν) (A : ProfileAnswers) :
    Prop :=
  row.profileHash = some (profileHash E.runtime (buildBridgedProfileContent profile)) ∨ A.Taken

instance (profile : BridgedProfileInput) (row : InstanceRow ν) (A : ProfileAnswers) :
    Decidable (E.ProfileStands profile row A) := inferInstanceAs (Decidable (_ ∨ _))

end Engine

/-- The count of a publish that no relay accepted. -/
def rejected (results : RelayResults) : List (Call ν) :=
  if anyRelayAccepted results then [] else [.count .relayWriteFailures]

@[simp] theorem contacts_rejected (results : RelayResults) :
    contacts (rejected results : List (Call ν)) = [] := by
  unfold rejected
  split
  · rfl
  · rfl

theorem countRejected_apply (results : RelayResults) (t : Slot ν) :
    countRejected results t = ⟨some (), t, rejected results⟩ := by
  unfold countRejected rejected
  split
  · rfl
  · rfl

@[simp] theorem countRejected_bind {α : Type} (results : RelayResults) (f : Unit → Local ν α)
    (t : Slot ν) :
    (countRejected results >>= f) t =
      ⟨(f () t).value, (f () t).state, rejected results ++ (f () t).log⟩ := by
  have hrun := countRejected_apply results t
  rw [Faulty.bind_of_some (a := ()) (by rw [hrun]), hrun]

@[simp] theorem count_bind {α : Type} (metric : Metric) (f : Unit → Local ν α) (t : Slot ν) :
    (count metric >>= f) t =
      ⟨(f () t).value, (f () t).state, .count metric :: (f () t).log⟩ := rfl

theorem update_apply (stored : Bool) (fields : InstanceRow ν → InstanceRow ν)
    (r : InstanceRow ν) (flag : Bool) :
    update stored fields ⟨some r, flag⟩ =
      ⟨if stored then some () else none, ⟨some (if stored then fields r else r), flag⟩, []⟩ := by
  cases stored with
  | false => rfl
  | true => rfl

def InstanceRow.withHash (row : InstanceRow ν) (hash : Option JsString) : InstanceRow ν :=
  { row with profileHash := hash }

/-- Publishing the profile changes its hash and nothing else of the row. -/
theorem maybePublishProfile_spec (E : Engine) (signer name description picture website : JsString)
    (row r : InstanceRow ν) (A : ProfileAnswers) (flag : Bool) :
    let o := E.maybePublishProfile signer name description picture website row A ⟨some r, flag⟩
    (∃ hash, o.state = ⟨some (r.withHash hash), flag⟩) ∧ Aside (contacts o.log) ∧
      (o.value = some () ↔
        E.ProfileStands ⟨name, description, picture, website, E.sourceName⟩ row A) := by
  dsimp only
  unfold Engine.maybePublishProfile
  split
  · rename_i hhash
    exact ⟨⟨r.profileHash, rfl⟩, aside_nil, iff_of_true rfl (.inl hhash)⟩
  · rename_i hhash
    have hdue {P : Prop} (h : A.Taken → P) :
        E.ProfileStands ⟨name, description, picture, website, E.sourceName⟩ row A → P :=
      fun hs => hs.elim (fun heq => absurd heq hhash) h
    cases hp : A.profile with
    | none =>
      refine ⟨⟨r.profileHash, rfl⟩, aside_nil.cons rfl rfl, iff_of_false (by simp) ?_⟩
      exact hdue fun h => by simp [ProfileAnswers.Taken, hp] at h
    | some results =>
      cases hl : A.relayList with
      | none =>
        refine ⟨⟨r.profileHash, by simp [InstanceRow.withHash]⟩, ?_, iff_of_false (by simp) ?_⟩
        · simp [Aside, Call.publish?]
        · exact hdue fun h => by simp [ProfileAnswers.Taken, hl] at h
      | some listed =>
        cases hs : A.stored with
        | false =>
          refine ⟨⟨r.profileHash, by simp [update_apply, InstanceRow.withHash]⟩, ?_, iff_of_false ?_ ?_⟩
          · simp [update_apply, Aside, Call.publish?]
          · simp [update_apply]
          · exact hdue fun h => by simp [ProfileAnswers.Taken, hs] at h
        | true =>
          refine ⟨⟨_, by simp [update_apply]; rfl⟩, ?_, iff_of_true ?_ (.inr ?_)⟩
          · simp [update_apply, Aside, Call.publish?]
          · simp [update_apply]
          · simp [ProfileAnswers.Taken, hp, hl, hs]

namespace Engine

variable (E : Engine)

/-- Nothing throws between the answer of the probe and the live event of a listed instance. -/
def ReachesEvent (inst : DiscoveredLive ν) (row : InstanceRow ν) (liveness : Liveness)
    (A : LiveAnswers ν) : Prop :=
  E.ProfileStands (E.seenProfile inst) row A.profile ∧
    (statusOf liveness = .live → A.viewers.isSome = true)

/-- Nothing throws between the answer of the probe and the live event of a manual row. -/
def ReachesManual (url : JsString) (row : InstanceRow ν) (A : ManualAnswers ν) : Prop :=
  (E.signerFor url).isSome = true ∧ E.ProfileStands (E.rowProfile url row) row A.profile ∧
    A.viewers.isSome = true

instance (inst : DiscoveredLive ν) (row : InstanceRow ν) (liveness : Liveness)
    (A : LiveAnswers ν) : Decidable (E.ReachesEvent inst row liveness A) :=
  inferInstanceAs (Decidable (_ ∧ (_ → _)))

instance (url : JsString) (row : InstanceRow ν) (A : ManualAnswers ν) :
    Decidable (E.ReachesManual url row A) := inferInstanceAs (Decidable (_ ∧ _ ∧ _))

/-- What is polled of the viewers of a listed instance. -/
def polledOf (liveness : Liveness) (A : LiveAnswers ν) : Option (Option ν) :=
  if statusOf liveness = .live then A.viewers.getD none else none

variable [DecidableEq ν]

/-- There is something to say of a listed instance. -/
def hasNews (row : InstanceRow ν) (isNew : Bool) (liveness : Liveness) (A : LiveAnswers ν) :
    Bool :=
  isNew || row.status ≠ statusOf liveness || E.republishDue row A.dueAt ||
    viewersChanged (polledOf liveness A) row

end Engine

/-- The row as a listed instance leaves it, when nothing is published. -/
def notedRow (row : InstanceRow ν) (liveness : Liveness) : InstanceRow ν :=
  { row with
    status := Engine.statusOf liveness
    lastLiveness := some liveness
    consecutiveFailures := Engine.failuresAfter liveness row }

/-- The row behind the live event of a listed instance. -/
def toldRow (row : InstanceRow ν) (liveness : Liveness) (A : LiveAnswers ν) : InstanceRow ν :=
  { notedRow row liveness with
    lastPublishedAt := some A.publishedAt
    viewerCount := (Engine.polledOf liveness A).getD row.viewerCount }

/-- What the processing of a listed instance does to its row, and the calls it makes. -/
inductive SeenTurn [DecidableEq ν] (E : Engine) (inst : DiscoveredLive ν)
    (signer dTag : JsString) (row : InstanceRow ν) (isNew : Bool) (A : LiveAnswers ν) :
    InstanceRow ν → List (Call ν) → Prop
  | optedOut (h : row.discoveryEnabled = false) :
      SeenTurn E inst signer dTag row isNew A row []
  | unanswered (h : row.discoveryEnabled = true) (hl : A.liveness = none) :
      SeenTurn E inst signer dTag row isNew A row [.checkLiveness inst.streamUrl]
  | stalled (h : row.discoveryEnabled = true) {liveness : Liveness}
      (hl : A.liveness = some liveness) (hr : ¬E.ReachesEvent inst row liveness A)
      (hash : Option JsString) {aside : List (Call ν)} (ha : Aside aside) :
      SeenTurn E inst signer dTag row isNew A (row.withHash hash)
        (.checkLiveness inst.streamUrl :: aside)
  | quiet (h : row.discoveryEnabled = true) {liveness : Liveness}
      (hl : A.liveness = some liveness) (hr : E.ReachesEvent inst row liveness A)
      (hnews : E.hasNews row isNew liveness A = false) (hash : Option JsString)
      {aside : List (Call ν)} (ha : Aside aside) :
      SeenTurn E inst signer dTag row isNew A
        (if A.stored then notedRow (row.withHash hash) liveness
          else row.withHash hash)
        (.checkLiveness inst.streamUrl :: aside)
  | thrown (h : row.discoveryEnabled = true) {liveness : Liveness}
      (hl : A.liveness = some liveness) (hr : E.ReachesEvent inst row liveness A)
      (hnews : E.hasNews row isNew liveness A = true) (hp : A.publish = none)
      (hash : Option JsString) {aside : List (Call ν)} (ha : Aside aside) :
      SeenTurn E inst signer dTag row isNew A (row.withHash hash)
        (.checkLiveness inst.streamUrl :: (aside ++ [.publishLiveEvent
          (E.discoveredEvent inst signer dTag row (Engine.statusOf liveness)
            (Engine.polledOf liveness A)) none]))
  | told (h : row.discoveryEnabled = true) {liveness : Liveness}
      (hl : A.liveness = some liveness) (hr : E.ReachesEvent inst row liveness A)
      (hnews : E.hasNews row isNew liveness A = true) {results : RelayResults}
      (hp : A.publish = some results)
      (hash : Option JsString) {aside : List (Call ν)} (ha : Aside aside) :
      SeenTurn E inst signer dTag row isNew A
        (if A.stored then toldRow (row.withHash hash) liveness A
          else row.withHash hash)
        (.checkLiveness inst.streamUrl :: (aside ++ [.publishLiveEvent
          (E.discoveredEvent inst signer dTag row (Engine.statusOf liveness)
            (Engine.polledOf liveness A)) (some results)]))

@[simp] theorem publishLiveEvent_none_bind {α : Type} (input : LivePublishInput ν)
    (f : RelayResults → Local ν α) (t : Slot ν) :
    (publishLiveEvent input none >>= f) t = ⟨none, t, [.publishLiveEvent input none]⟩ := rfl

@[simp] theorem publishLiveEvent_some_bind {α : Type} (input : LivePublishInput ν)
    (results : RelayResults) (f : RelayResults → Local ν α) (t : Slot ν) :
    (publishLiveEvent input (some results) >>= f) t =
      ⟨(f results t).value, (f results t).state,
        .publishLiveEvent input (some results) :: (f results t).log⟩ := rfl

section Seen

variable [DecidableEq ν] (E : Engine)

/-- The end of the processing of a listed instance, once its viewers are polled. -/
theorem publishLive_turn {inst : DiscoveredLive ν} (signer dTag : JsString) {row : InstanceRow ν}
    (isNew : Bool) {liveness : Liveness} {A : LiveAnswers ν} (h : row.discoveryEnabled = true)
    (hl : A.liveness = some liveness) (hr : E.ReachesEvent inst row liveness A)
    (hash : Option JsString) (flag : Bool) {aside : List (Call ν)} (ha : Aside aside) :
    let o := E.publishLive inst signer dTag row isNew liveness (Engine.polledOf liveness A) A
      ⟨some (row.withHash hash), flag⟩
    ∃ r', o.state = ⟨some r', flag⟩ ∧ SeenTurn E inst signer dTag row isNew A r'
      (.checkLiveness inst.streamUrl :: (aside ++ contacts o.log)) := by
  dsimp only
  unfold Engine.publishLive
  split
  · rename_i hif
    have hnews : E.hasNews row isNew liveness A = true := hif
    cases hp : A.publish with
    | none => exact ⟨_, rfl, .thrown h hl hr hnews hp hash ha⟩
    | some results =>
      rw [publishLiveEvent_some_bind, count_bind, countRejected_bind, update_apply]
      refine ⟨_, rfl, ?_⟩
      have hw : contacts (.publishLiveEvent (E.discoveredEvent inst signer dTag row
          (Engine.statusOf liveness) (Engine.polledOf liveness A)) (some results) ::
            .count .published30311 :: (rejected results ++ [])) =
          [.publishLiveEvent (E.discoveredEvent inst signer dTag row (Engine.statusOf liveness)
            (Engine.polledOf liveness A)) (some results)] := by simp
      rw [hw]
      exact .told h hl hr hnews hp hash ha
  · rename_i hif
    have hnews : E.hasNews row isNew liveness A = false := Bool.eq_false_iff.mpr hif
    rw [update_apply, contacts_nil, List.append_nil]
    exact ⟨_, rfl, .quiet h hl hr hnews hash ha⟩

/-- The processing of a listed instance from the answer of its probe on. -/
theorem answered_turn {inst : DiscoveredLive ν} {signer dTag : JsString} {row : InstanceRow ν}
    {isNew : Bool} {liveness : Liveness} {A : LiveAnswers ν} (h : row.discoveryEnabled = true)
    (hl : A.liveness = some liveness) (flag : Bool) :
    let m : Local ν Unit := do
      E.maybePublishProfile signer (orText inst.name inst.url) inst.description
        inst.picture inst.url row A.profile
      let polled ← Engine.pollViewers (Engine.statusOf liveness) inst.url A.viewers
      E.publishLive inst signer dTag row isNew liveness polled A
    let o := m ⟨some row, flag⟩
    ∃ r', o.state = ⟨some r', flag⟩ ∧ SeenTurn E inst signer dTag row isNew A r'
      (.checkLiveness inst.streamUrl :: contacts o.log) := by
  dsimp only
  obtain ⟨⟨hash, hstate⟩, haside, hvalue⟩ := maybePublishProfile_spec E signer
    (orText inst.name inst.url) inst.description inst.picture inst.url row row A.profile flag
  apply Faulty.bind_rule (P := fun o : Outcome (Slot ν) (Call ν) Unit =>
    ∃ r', o.state = ⟨some r', flag⟩ ∧ SeenTurn E inst signer dTag row isNew A r'
      (.checkLiveness inst.streamUrl :: contacts o.log))
  · intro hthrow
    refine ⟨_, hstate, .stalled h hl (fun hr => ?_) hash haside⟩
    rw [hvalue.mpr hr.1] at hthrow
    cases hthrow
  · intro _ hgo
    rw [hstate]
    have hstands := hvalue.mp hgo
    cases hs : Engine.statusOf liveness with
    | ended =>
      -- its viewers are not polled
      have hpolled : Engine.polledOf liveness A = none := by simp [Engine.polledOf, hs]
      have hr : E.ReachesEvent inst row liveness A := ⟨hstands, fun hlive => by simp [hs] at hlive⟩
      have hturn := publishLive_turn E signer dTag isNew h hl hr
        hash flag haside
      rw [hpolled] at hturn
      simpa [Engine.pollViewers] using hturn
    | live =>
      cases hv : A.viewers with
      | none =>
        refine ⟨_, rfl, ?_⟩
        show SeenTurn E inst signer dTag row isNew A (row.withHash hash)
          (.checkLiveness inst.streamUrl :: contacts (_ ++ [.fetchViewerCount inst.url]))
        rw [contacts_append, contacts_of_contact rfl, contacts_nil]
        refine .stalled h hl (fun hr => ?_) hash (haside.append (aside_nil.cons rfl rfl))
        have hsome := hr.2 hs
        rw [hv] at hsome
        cases hsome
      | some polled =>
        have hpolled : Engine.polledOf liveness A = polled := by simp [Engine.polledOf, hs, hv]
        have hr : E.ReachesEvent inst row liveness A := ⟨hstands, fun _ => by rw [hv]; rfl⟩
        have hturn := publishLive_turn E signer dTag isNew h hl hr
          hash flag (haside.append (aside_nil.cons (x := .fetchViewerCount inst.url) rfl rfl))
        rw [hpolled] at hturn
        obtain ⟨r', hstate', hturn⟩ := hturn
        refine ⟨r', hstate', ?_⟩
        rw [List.append_assoc] at hturn
        show SeenTurn E inst signer dTag row isNew A r'
          (.checkLiveness inst.streamUrl :: contacts (_ ++ .fetchViewerCount inst.url :: _))
        rw [contacts_append, contacts_of_contact rfl]
        exact hturn

/-- The processing of a listed instance whose row is stored. -/
theorem processSeen_turn (inst : DiscoveredLive ν) (signer dTag : JsString) (row : InstanceRow ν)
    (isNew : Bool) (A : LiveAnswers ν) (flag : Bool) :
    let o := E.processSeen inst signer dTag row isNew A ⟨some row, flag⟩
    ∃ r', o.state = ⟨some r', flag⟩ ∧
      SeenTurn E inst signer dTag row isNew A r' (contacts o.log) := by
  dsimp only
  unfold Engine.processSeen
  have hnew (f : Unit → Local ν Unit) (t : Slot ν) : ∃ w, contacts w = [] ∧
      (Engine.countNew isNew >>= f) t = ⟨(f () t).value, (f () t).state, w ++ (f () t).log⟩ := by
    cases isNew with
    | false => exact ⟨[], rfl, rfl⟩
    | true => exact ⟨[.count .newInstances], rfl, rfl⟩
  obtain ⟨w, hw, hrun⟩ := hnew _ ⟨some row, flag⟩
  rw [hrun, contacts_append, hw, List.nil_append]
  split
  · rename_i hoff
    exact ⟨row, rfl, .optedOut (by simpa using hoff)⟩
  · rename_i hon
    have h : row.discoveryEnabled = true := by simpa using hon
    cases hl : A.liveness with
    | none => exact ⟨row, rfl, .unanswered h hl⟩
    | some liveness =>
      rw [checkLiveness_bind, count_bind]
      exact answered_turn E h hl flag

end Seen

namespace Engine

variable (E : Engine)

/-- The start that a manual row found live is published with: the time of the cycle for a row
that has none or had ended. -/
def manualStart (row : InstanceRow ν) (A : ManualAnswers ν) : Int :=
  let wasEnded : Bool := row.status = .ended
  match row.startsAt with
  | none => A.startsAt / 1000
  | some t => if wasEnded then A.startsAt / 1000 else t / 1000

variable [DecidableEq ν]

/-- There is something to say of a manual row that was found live. -/
def manualNews (row : InstanceRow ν) (A : ManualAnswers ν) : Bool :=
  row.status = .ended || E.republishDue row A.dueAt || viewersChanged (A.viewers.getD none) row

/-- The live event of a manual row that was found live. -/
def manualEvent (url : JsString) (row : InstanceRow ν) (A : ManualAnswers ν) :
    LivePublishInput ν :=
  E.rowEvent url row (manualStart row A) .live ((A.viewers.getD none).getD row.viewerCount)

end Engine

/-- The row of a manual instance that was found live, when nothing is published. -/
def aliveRow (row : InstanceRow ν) : InstanceRow ν :=
  { row with status := .live, lastLiveness := some .live, consecutiveFailures := 0 }

/-- The row behind the live event of a manual instance. -/
def restartedRow (row : InstanceRow ν) (A : ManualAnswers ν) : InstanceRow ν :=
  { aliveRow row with
    startsAt := some (Engine.manualStart row A * 1000)
    lastPublishedAt := some A.publishedAt
    viewerCount := (A.viewers.getD none).getD row.viewerCount }

/-- What the manual pass does to a row that no pass has found live so far, whether it finds it
live, and the calls it makes. -/
inductive ManualTurn [DecidableEq ν] (E : Engine) (url : JsString) (row : InstanceRow ν)
    (A : ManualAnswers ν) : InstanceRow ν → Bool → List (Call ν) → Prop
  | optedOut (h : row.discoveryEnabled = false) : ManualTurn E url row A row false []
  | unanswered (h : row.discoveryEnabled = true) (hl : A.liveness = none) :
      ManualTurn E url row A row false [.checkLiveness row.hlsUrl]
  | missed (h : row.discoveryEnabled = true) {liveness : Liveness}
      (hl : A.liveness = some liveness) (hne : liveness ≠ .live) :
      ManualTurn E url row A row false [.checkLiveness row.hlsUrl]
  | stalled (h : row.discoveryEnabled = true) (hl : A.liveness = some .live)
      (hr : ¬E.ReachesManual url row A) (hash : Option JsString) {aside : List (Call ν)}
      (ha : Aside aside) :
      ManualTurn E url row A (row.withHash hash) true (.checkLiveness row.hlsUrl :: aside)
  | quiet (h : row.discoveryEnabled = true) (hl : A.liveness = some .live)
      (hr : E.ReachesManual url row A) (hnews : E.manualNews row A = false)
      (hash : Option JsString) {aside : List (Call ν)} (ha : Aside aside) :
      ManualTurn E url row A
        (if A.stored then aliveRow (row.withHash hash) else row.withHash hash) true
        (.checkLiveness row.hlsUrl :: aside)
  | thrown (h : row.discoveryEnabled = true) (hl : A.liveness = some .live)
      (hr : E.ReachesManual url row A) (hnews : E.manualNews row A = true)
      (hp : A.publish = none) (hash : Option JsString) {aside : List (Call ν)}
      (ha : Aside aside) :
      ManualTurn E url row A (row.withHash hash) true
        (.checkLiveness row.hlsUrl ::
          (aside ++ [.publishLiveEvent (E.manualEvent url row A) none]))
  | told (h : row.discoveryEnabled = true) (hl : A.liveness = some .live)
      (hr : E.ReachesManual url row A) (hnews : E.manualNews row A = true)
      {results : RelayResults} (hp : A.publish = some results) (hash : Option JsString)
      {aside : List (Call ν)} (ha : Aside aside) :
      ManualTurn E url row A
        (if A.stored then restartedRow (row.withHash hash) A else row.withHash hash) true
        (.checkLiveness row.hlsUrl ::
          (aside ++ [.publishLiveEvent (E.manualEvent url row A) (some results)]))

section Manual

variable [DecidableEq ν] (E : Engine)

/-- The end of the processing of a manual row that was found live. -/
theorem publishManual_turn {url : JsString} {row : InstanceRow ν} {A : ManualAnswers ν}
    (h : row.discoveryEnabled = true) (hl : A.liveness = some .live)
    (hr : E.ReachesManual url row A) {polled : Option (Option ν)}
    (hpolled : A.viewers.getD none = polled) (hash : Option JsString)
    {aside : List (Call ν)} (ha : Aside aside) :
    let o := E.publishManual url row polled A ⟨some (row.withHash hash), true⟩
    ∃ r', o.state = ⟨some r', true⟩ ∧ ManualTurn E url row A r' true
      (.checkLiveness row.hlsUrl :: (aside ++ contacts o.log)) := by
  subst hpolled
  dsimp only
  unfold Engine.publishManual
  have hif : E.manualNews row A = !(!decide (row.status = .ended) &&
      !E.republishDue row A.dueAt && !Engine.viewersChanged (A.viewers.getD none) row) := by
    simp [Engine.manualNews, Bool.not_and]
  split
  · rename_i hquiet
    have hnews : E.manualNews row A = false := by
      rw [hif, Bool.not_eq_false']
      exact hquiet
    rw [update_apply, contacts_nil, List.append_nil]
    exact ⟨_, rfl, .quiet h hl hr hnews hash ha⟩
  · rename_i hloud
    have hnews : E.manualNews row A = true := by
      rw [hif, Bool.not_eq_true']
      exact Bool.eq_false_iff.mpr hloud
    cases hp : A.publish with
    | none => exact ⟨_, rfl, .thrown h hl hr hnews hp hash ha⟩
    | some results =>
      rw [publishLiveEvent_some_bind, count_bind, countRejected_bind, update_apply]
      refine ⟨_, rfl, ?_⟩
      show ManualTurn E url row A _ true (.checkLiveness row.hlsUrl :: (aside ++ contacts
        (.publishLiveEvent (E.manualEvent url row A) (some results) ::
          .count .published30311 :: (rejected results ++ []))))
      have hw : contacts (.publishLiveEvent (E.manualEvent url row A) (some results) ::
            .count .published30311 :: (rejected results ++ [])) =
          [.publishLiveEvent (E.manualEvent url row A) (some results)] := by simp
      rw [hw]
      exact .told h hl hr hnews hp hash ha

/-- The processing of a manual row that was found live. -/
theorem processLiveManual_turn (url : JsString) {row : InstanceRow ν} {A : ManualAnswers ν}
    (h : row.discoveryEnabled = true) (hl : A.liveness = some .live) :
    let o := E.processLiveManual url row A ⟨some row, true⟩
    ∃ r', o.state = ⟨some r', true⟩ ∧ ManualTurn E url row A r' true
      (.checkLiveness row.hlsUrl :: contacts o.log) := by
  dsimp only
  unfold Engine.processLiveManual
  cases hsigner : E.signerFor url with
  | none =>
    refine ⟨row, rfl, .stalled h hl (fun hr => ?_) row.profileHash aside_nil⟩
    have hsome := hr.1
    rw [hsigner] at hsome
    cases hsome
  | some signer =>
    rw [Faulty.await_some_bind]
    obtain ⟨⟨hash, hstate⟩, haside, hvalue⟩ := maybePublishProfile_spec E signer
      (orText row.name url) row.description row.image url row row A.profile true
    apply Faulty.bind_rule (P := fun o : Outcome (Slot ν) (Call ν) Unit =>
      ∃ r', o.state = ⟨some r', true⟩ ∧ ManualTurn E url row A r' true
        (.checkLiveness row.hlsUrl :: contacts o.log))
    · intro hthrow
      refine ⟨_, hstate, .stalled h hl (fun hr => ?_) hash haside⟩
      rw [hvalue.mpr hr.2.1] at hthrow
      cases hthrow
    · intro _ hgo
      rw [hstate]
      cases hv : A.viewers with
      | none =>
        refine ⟨_, rfl, ?_⟩
        show ManualTurn E url row A (row.withHash hash) true
          (.checkLiveness row.hlsUrl :: contacts (_ ++ [.fetchViewerCount url]))
        rw [contacts_append, contacts_of_contact rfl, contacts_nil]
        refine .stalled h hl (fun hr => ?_) hash (haside.append (aside_nil.cons rfl rfl))
        have hsome := hr.2.2
        rw [hv] at hsome
        cases hsome
      | some polled =>
        have hr : E.ReachesManual url row A :=
          ⟨by rw [hsigner]; rfl, hvalue.mp hgo, by rw [hv]; rfl⟩
        have hpolled : A.viewers.getD none = polled := by
          rw [hv]
          rfl
        obtain ⟨r', hstate', hturn⟩ := publishManual_turn E h hl hr hpolled hash
          (haside.append (aside_nil.cons (x := .fetchViewerCount url) rfl rfl))
        refine ⟨r', hstate', ?_⟩
        rw [List.append_assoc] at hturn
        show ManualTurn E url row A r' true
          (.checkLiveness row.hlsUrl :: contacts (_ ++ .fetchViewerCount url :: _))
        rw [contacts_append, contacts_of_contact rfl]
        exact hturn

/-- The manual pass over a row that no pass has found live so far. -/
theorem processManualRow_turn (url : JsString) (row : InstanceRow ν) (A : ManualAnswers ν) :
    let o := E.processManualRow url row A ⟨some row, false⟩
    ∃ r' found, o.state = ⟨some r', found⟩ ∧
      ManualTurn E url row A r' found (contacts o.log) := by
  dsimp only
  unfold Engine.processManualRow
  rw [Faulty.get_bind, if_neg Bool.false_ne_true]
  split
  · rename_i hoff
    exact ⟨row, false, rfl, .optedOut (by simpa using hoff)⟩
  · rename_i hon
    have h : row.discoveryEnabled = true := by simpa using hon
    cases hl : A.liveness with
    | none => exact ⟨row, false, rfl, .unanswered h hl⟩
    | some liveness =>
      rw [checkLiveness_bind]
      split
      · rename_i hne
        exact ⟨row, false, rfl, .missed h hl hne⟩
      · rename_i hlive
        obtain rfl : liveness = .live := Classical.not_not.mp hlive
        obtain ⟨r', hstate, hturn⟩ := processLiveManual_turn E url h hl
        exact ⟨r', true, hstate, hturn⟩

/-- When the manual pass goes on behind a row, its probe has not thrown. -/
theorem processManualRow_returned {url : JsString} {row : InstanceRow ν} {A : ManualAnswers ν}
    (h : row.discoveryEnabled = true)
    (hv : (E.processManualRow url row A ⟨some row, false⟩).value = some ()) :
    A.liveness ≠ none := by
  intro hl
  unfold Engine.processManualRow at hv
  rw [Faulty.get_bind, if_neg Bool.false_ne_true, if_neg (by simp [h]), hl] at hv
  cases hv

end Manual

namespace Engine

/-- The terminal event of a row that dropped out of the live set. -/
def endedEvent (E : Engine) (url : JsString) (row : InstanceRow ν) : LivePublishInput ν :=
  E.rowEvent url row (row.startsAt.getD row.firstSeenAt / 1000) .ended none

end Engine

/-- The row behind its terminal event. -/
def endedRow (row : InstanceRow ν) (liveness : Liveness) (A : ReconcileAnswers) : InstanceRow ν :=
  { row with
    status := .ended
    lastLiveness := some liveness
    consecutiveFailures := row.consecutiveFailures + 1
    lastPublishedAt := some A.publishedAt }

/-- What the last pass does to a row that no pass has found live, and the calls it makes. -/
inductive ReconcileTurn (E : Engine) (url : JsString) (row : InstanceRow ν)
    (A : ReconcileAnswers) : InstanceRow ν → List (Call ν) → Prop
  | optedOut (h : row.discoveryEnabled = false) : ReconcileTurn E url row A row []
  | unanswered (h : row.discoveryEnabled = true) (hl : A.liveness = none) :
      ReconcileTurn E url row A row [.checkLiveness row.hlsUrl]
  | alive (h : row.discoveryEnabled = true) (hl : A.liveness = some .live) :
      ReconcileTurn E url row A
        (if A.stored then { row with consecutiveFailures := 0, lastLiveness := some .live } else row)
        [.checkLiveness row.hlsUrl]
  | failing (h : row.discoveryEnabled = true) {liveness : Liveness}
      (hl : A.liveness = some liveness) (hne : liveness ≠ .live)
      (hn : row.consecutiveFailures + 1 < E.maxConsecutiveFailures) :
      ReconcileTurn E url row A
        (if A.stored then
          { row with
            consecutiveFailures := row.consecutiveFailures + 1
            lastLiveness := some liveness }
        else row)
        [.checkLiveness row.hlsUrl]
  | thrown (h : row.discoveryEnabled = true) {liveness : Liveness}
      (hl : A.liveness = some liveness) (hne : liveness ≠ .live)
      (hn : E.maxConsecutiveFailures ≤ row.consecutiveFailures + 1) (hp : A.publish = none) :
      ReconcileTurn E url row A row
        [.checkLiveness row.hlsUrl, .publishLiveEvent (E.endedEvent url row) none]
  | ended (h : row.discoveryEnabled = true) {liveness : Liveness}
      (hl : A.liveness = some liveness) (hne : liveness ≠ .live)
      (hn : E.maxConsecutiveFailures ≤ row.consecutiveFailures + 1) {results : RelayResults}
      (hp : A.publish = some results) :
      ReconcileTurn E url row A (if A.stored then endedRow row liveness A else row)
        [.checkLiveness row.hlsUrl, .publishLiveEvent (E.endedEvent url row) (some results)]

/-- The last pass over a row that no pass has found live. -/
theorem reconcileRow_turn (E : Engine) (url : JsString) (row : InstanceRow ν)
    (A : ReconcileAnswers) :
    let o := E.reconcileRow url row A ⟨some row, false⟩
    ∃ r', o.state = ⟨some r', false⟩ ∧ ReconcileTurn E url row A r' (contacts o.log) := by
  dsimp only
  unfold Engine.reconcileRow
  rw [Faulty.get_bind, if_neg Bool.false_ne_true]
  split
  · rename_i hoff
    exact ⟨row, rfl, .optedOut (by simpa using hoff)⟩
  · rename_i hon
    have h : row.discoveryEnabled = true := by simpa using hon
    cases hl : A.liveness with
    | none => exact ⟨row, rfl, .unanswered h hl⟩
    | some liveness =>
      rw [checkLiveness_bind]
      split
      · rename_i hlive
        subst hlive
        rw [update_apply]
        exact ⟨_, rfl, .alive h hl⟩
      · rename_i hne
        split
        · rename_i hn
          rw [update_apply]
          exact ⟨_, rfl, .failing h hl hne hn⟩
        · rename_i hn
          have hmax := Nat.not_lt.mp hn
          unfold Engine.publishEnded
          cases hp : A.publish with
          | none => exact ⟨row, rfl, .thrown h hl hne hmax hp⟩
          | some results =>
            rw [publishLiveEvent_some_bind, countRejected_bind, count_bind, update_apply]
            refine ⟨_, rfl, ?_⟩
            have hw : contacts (.checkLiveness row.hlsUrl ::
                .publishLiveEvent (E.endedEvent url row) (some results) ::
                  (rejected results ++ [.count .endedThisCycle])) =
                [.checkLiveness row.hlsUrl,
                  .publishLiveEvent (E.endedEvent url row) (some results)] := by simp
            show ReconcileTurn E url row A _ (contacts (.checkLiveness row.hlsUrl ::
              .publishLiveEvent (E.endedEvent url row) (some results) ::
                (rejected results ++ [.count .endedThisCycle])))
            rw [hw]
            exact .ended h hl hne hmax hp

end LivelierBridge.Discovery
