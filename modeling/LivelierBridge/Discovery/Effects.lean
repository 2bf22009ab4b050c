import LivelierBridge.Discovery.Cycle

namespace LivelierBridge.Discovery

open Framework Js

variable {ν : Type}

/-- A live-event publish with its outcome. -/
abbrev Publish (ν : Type) := LivePublishInput ν × Option RelayResults

def Call.publish? : Call ν → Option (Publish ν)
  | .publishLiveEvent input results => some (input, results)
  | _ => none

def publishes (w : List (Call ν)) : List (Publish ν) := w.filterMap Call.publish?

@[simp] theorem publishes_nil : publishes ([] : List (Call ν)) = [] := rfl

@[simp] theorem publishes_append (w w' : List (Call ν)) :
    publishes (w ++ w') = publishes w ++ publishes w' := List.filterMap_append

/-- What the relays can be told from a row: its source and d-tag, its status, and what was last
published. A missing row counts as one with the column defaults. -/
structure Told (ν : Type) where
  coordinate : Option (JsString × JsString)
  status : Status
  lastPublishedAt : Option Int
  viewerCount : Option ν
  deriving DecidableEq

def toldOf : Option (InstanceRow ν) → Told ν
  | none => ⟨none, .live, none, none⟩
  | some row => ⟨some (row.source, row.dTag), row.status, row.lastPublishedAt, row.viewerCount⟩

/-- What the processing of one instance does to what the relays can be told: nothing, a publish
that threw or was not stored, or a publish that was stored. -/
inductive Effect (source : JsString) (answer : Option RelayResults) (stored : Bool) (v : Told ν) :
    Told ν → List (Publish ν) → Prop
  | quiet : Effect source answer stored v v []
  | stalled (input : LivePublishInput ν) (hc : v.coordinate = some (source, input.dTag))
      (hs : answer = none ∨ stored = false) : Effect source answer stored v v [(input, answer)]
  | told (input : LivePublishInput ν) (results : RelayResults) (t : Int) (viewers : Option ν)
      (hc : v.coordinate = some (source, input.dTag)) (ha : answer = some results) :
      Effect source answer stored v ⟨v.coordinate, input.status, some t, viewers⟩
        [(input, some results)]

namespace Effect

variable {source : JsString} {answer : Option RelayResults} {stored : Bool} {v v' : Told ν}
  {published : List (Publish ν)}

theorem coordinate_eq (h : Effect source answer stored v v' published) :
    v'.coordinate = v.coordinate := by
  cases h with
  | quiet => rfl
  | stalled => rfl
  | told => rfl

theorem length_le_one (h : Effect source answer stored v v' published) : published.length ≤ 1 := by
  cases h with
  | quiet => exact Nat.zero_le 1
  | stalled => exact Nat.le_refl 1
  | told => exact Nat.le_refl 1

theorem coordinate_of_mem (h : Effect source answer stored v v' published) {p : Publish ν}
    (hp : p ∈ published) : v.coordinate = some (source, p.1.dTag) := by
  cases h with
  | quiet => cases hp
  | stalled input hc hs =>
    obtain rfl := List.mem_singleton.mp hp
    exact hc
  | told input results t viewers hc ha =>
    obtain rfl := List.mem_singleton.mp hp
    exact hc

end Effect

/-- A computation that tells the relays nothing and leaves what they can be told. -/
def Quiet {α : Type} (m : Local ν α) : Prop :=
  ∀ t, toldOf (m t).state.row = toldOf t.row ∧ (m t).state.inLiveUrls = t.inLiveUrls ∧
    publishes (m t).log = []

section Quiet

variable {α β : Type}

theorem quiet_pure (a : α) : Quiet (pure a : Local ν α) := fun _ => ⟨rfl, rfl, rfl⟩

theorem quiet_await (x : Option α) : Quiet (Faulty.await x : Local ν α) := fun _ => ⟨rfl, rfl, rfl⟩

theorem Quiet.bind {m : Local ν α} {f : α → Local ν β} (hm : Quiet m) (hf : ∀ a, Quiet (f a)) :
    Quiet (m >>= f) := by
  intro t
  obtain ⟨hm₁, hm₂, hm₃⟩ := hm t
  refine Faulty.bind_rule (P := fun o : Outcome (Slot ν) (Call ν) β => toldOf o.state.row = toldOf t.row ∧
    o.state.inLiveUrls = t.inLiveUrls ∧ publishes o.log = []) (fun _ => ⟨hm₁, hm₂, hm₃⟩) ?_
  intro a _
  obtain ⟨hf₁, hf₂, hf₃⟩ := hf a (m t).state
  exact ⟨hf₁.trans hm₁, hf₂.trans hm₂, by simp [hm₃, hf₃]⟩

theorem quiet_tell {c : Call ν} (h : c.publish? = none) : Quiet (Faulty.tell c : Local ν Unit) :=
  fun _ => ⟨rfl, rfl, by simp [publishes, h]⟩

theorem quiet_count (metric : Metric) : Quiet (count metric : Local ν Unit) := quiet_tell rfl

theorem quiet_countRejected (results : RelayResults) : Quiet (countRejected results : Local ν Unit) := by
  unfold countRejected
  split
  · exact quiet_pure ()
  · exact quiet_count _

theorem quiet_checkLiveness (streamUrl : JsString) (answer : Option Liveness) :
    Quiet (checkLiveness streamUrl answer : Local ν Liveness) :=
  (quiet_tell rfl).bind fun _ => quiet_await answer

theorem quiet_fetchViewerCount (url : JsString) (answer : Option (Option (Option ν))) :
    Quiet (fetchViewerCount url answer) :=
  (quiet_tell rfl).bind fun _ => quiet_await answer

theorem quiet_countNew (isNew : Bool) : Quiet (Engine.countNew isNew : Local ν Unit) := by
  unfold Engine.countNew
  split
  · exact quiet_count _
  · exact quiet_pure ()

theorem quiet_pollViewers (status : Status) (url : JsString)
    (answer : Option (Option (Option ν))) : Quiet (Engine.pollViewers status url answer) := by
  unfold Engine.pollViewers
  split
  · exact quiet_fetchViewerCount _ _
  · exact quiet_pure none

/-- Storing fields that the relays are not told of. -/
theorem quiet_update (stored : Bool) {fields : InstanceRow ν → InstanceRow ν}
    (h : ∀ row, toldOf (some (fields row)) = toldOf (some row)) : Quiet (update stored fields) := by
  intro t
  cases stored with
  | false => exact ⟨rfl, rfl, rfl⟩
  | true =>
    obtain ⟨row, flag⟩ := t
    cases row with
    | none => exact ⟨rfl, rfl, rfl⟩
    | some row => exact ⟨h row, rfl, rfl⟩

theorem quiet_maybePublishProfile (E : Engine) (signer name description picture website : JsString)
    (row : InstanceRow ν) (A : ProfileAnswers) :
    Quiet (E.maybePublishProfile signer name description picture website row A) := by
  unfold Engine.maybePublishProfile
  dsimp only
  split
  · exact quiet_pure ()
  · refine (quiet_tell rfl).bind fun _ => (quiet_await _).bind fun result => ?_
    refine (quiet_count _).bind fun _ => (quiet_countRejected result).bind fun _ => ?_
    refine (quiet_tell rfl).bind fun _ => (quiet_await _).bind fun listed => ?_
    exact (quiet_countRejected listed).bind fun _ => quiet_update _ fun row => rfl

end Quiet

/-- From a slot that shows `v`, the computation has such an effect, and it leaves the flag. -/
def HasEffect {α : Type} (source : JsString) (answer : Option RelayResults) (stored : Bool)
    (m : Local ν α) (t : Slot ν) : Prop :=
  Effect source answer stored (toldOf t.row) (toldOf (m t).state.row) (publishes (m t).log) ∧
    (m t).state.inLiveUrls = t.inLiveUrls

section HasEffect

variable {α β : Type} {source : JsString} {answer : Option RelayResults} {stored : Bool}

theorem Quiet.hasEffect {m : Local ν α} (h : Quiet m) (t : Slot ν) :
    HasEffect source answer stored m t := by
  obtain ⟨h₁, h₂, h₃⟩ := h t
  refine ⟨?_, h₂⟩
  rw [h₁, h₃]
  exact .quiet

/-- What follows a quiet part gives the effect of the whole. -/
theorem Quiet.bind_hasEffect {m : Local ν α} {f : α → Local ν β} {t : Slot ν} (hm : Quiet m)
    (hf : ∀ a t', toldOf t'.row = toldOf t.row → HasEffect source answer stored (f a) t') :
    HasEffect source answer stored (m >>= f) t := by
  obtain ⟨hm₁, hm₂, hm₃⟩ := hm t
  refine Faulty.bind_rule (P := fun o : Outcome (Slot ν) (Call ν) β => Effect source answer stored
    (toldOf t.row) (toldOf o.state.row) (publishes o.log) ∧ o.state.inLiveUrls = t.inLiveUrls) ?_ ?_
  · intro _
    exact hm.hasEffect t
  · intro a _
    obtain ⟨he, hl⟩ := hf a (m t).state hm₁
    rw [hm₁] at he
    refine ⟨?_, hl.trans hm₂⟩
    simpa [hm₃] using he

/-- Storing in one row what the relays were told of it before. -/
theorem update_hasEffect {fields : InstanceRow ν → InstanceRow ν} {t : Slot ν}
    {row : InstanceRow ν} (hrow : t.row = some row)
    (h : toldOf (some (fields row)) = toldOf (some row)) :
    HasEffect source answer stored (update stored fields) t := by
  obtain ⟨r, flag⟩ := t
  obtain rfl : r = some row := hrow
  cases stored with
  | false => exact ⟨.quiet, rfl⟩
  | true =>
    refine ⟨?_, rfl⟩
    change Effect _ _ _ (toldOf (some row)) (toldOf (some (fields row))) []
    rw [h]
    exact .quiet

/-- Counting: nothing is told, nothing changes, nothing throws. -/
def Tally (m : Local ν Unit) : Prop :=
  ∀ t, (m t).value = some () ∧ (m t).state = t ∧ publishes (m t).log = []

theorem tally_count (metric : Metric) : Tally (count metric : Local ν Unit) :=
  fun _ => ⟨rfl, rfl, rfl⟩

theorem tally_countRejected (results : RelayResults) :
    Tally (countRejected results : Local ν Unit) := by
  intro t
  unfold countRejected
  split
  · exact ⟨rfl, rfl, rfl⟩
  · exact tally_count _ t

/-- What comes behind a publish: the row is left alone when the store refuses, else it takes
the published status and the time of the publish. -/
def Records (stored : Bool) (status : Status) (m : Local ν Unit) (t : Slot ν) : Prop :=
  publishes (m t).log = [] ∧ (m t).state.inLiveUrls = t.inLiveUrls ∧
    ((stored = false ∧ toldOf (m t).state.row = toldOf t.row) ∨
      ∃ now viewers, toldOf (m t).state.row =
        ⟨(toldOf t.row).coordinate, status, some now, viewers⟩)

theorem Tally.bind_records {m : Local ν Unit} {f : Unit → Local ν Unit} {t : Slot ν}
    {status : Status} (hm : Tally m) (hf : Records stored status (f ()) t) :
    Records stored status (m >>= f) t := by
  obtain ⟨hv, hs, hw⟩ := hm t
  rw [Records, Faulty.bind_of_some hv, hs]
  simpa [Records, hw] using hf

theorem update_records {fields : InstanceRow ν → InstanceRow ν} {t : Slot ν} {status : Status}
    {row : InstanceRow ν} (hrow : t.row = some row)
    (hfields : ∀ r, ∃ now viewers, toldOf (some (fields r)) =
      ⟨(toldOf (some r)).coordinate, status, some now, viewers⟩) :
    Records stored status (update stored fields) t := by
  obtain ⟨r, flag⟩ := t
  obtain rfl : r = some row := hrow
  cases stored with
  | false => exact ⟨rfl, rfl, .inl ⟨rfl, rfl⟩⟩
  | true => exact ⟨rfl, rfl, .inr (hfields row)⟩

/-- A publish and what records it. -/
theorem publish_hasEffect {input : LivePublishInput ν} {f : RelayResults → Local ν Unit}
    {t : Slot ν} (hc : (toldOf t.row).coordinate = some (source, input.dTag))
    (hf : ∀ results, Records stored input.status (f results) t) :
    HasEffect source answer stored (publishLiveEvent input answer >>= f) t := by
  cases answer with
  | none => exact ⟨.stalled input hc (.inl rfl), rfl⟩
  | some results =>
    have hrun : (publishLiveEvent input (some results) >>= f) t = ⟨(f results t).value,
        (f results t).state, .publishLiveEvent input (some results) :: (f results t).log⟩ := rfl
    obtain ⟨hw, hflag, hrow⟩ := hf results
    have hpub : publishes (.publishLiveEvent input (some results) :: (f results t).log) =
        [(input, some results)] := by
      simpa [publishes, Call.publish?] using hw
    rw [HasEffect, hrun]
    refine ⟨?_, hflag⟩
    rw [hpub]
    rcases hrow with ⟨hs, hrow⟩ | ⟨now, viewers, hrow⟩
    · rw [hrow]
      exact .stalled input hc (.inr hs)
    · rw [hrow]
      exact .told input results now viewers hc rfl

end HasEffect

section Passes

variable (E : Engine)

theorem coordinate_eq_some {r : Option (InstanceRow ν)} {source dTag : JsString} :
    (toldOf r).coordinate = some (source, dTag) ↔
      ∃ row, r = some row ∧ row.source = source ∧ row.dTag = dTag := by
  cases r with
  | none => simp [toldOf]
  | some row => simp [toldOf]

theorem row_of_coordinate {r : Option (InstanceRow ν)} {source dTag : JsString}
    (h : (toldOf r).coordinate = some (source, dTag)) : ∃ row, r = some row := by
  cases r with
  | none => cases h
  | some row => exact ⟨row, rfl⟩

theorem publishEnded_hasEffect {url : JsString} {row : InstanceRow ν} {liveness : Liveness}
    {A : ReconcileAnswers} {t : Slot ν} (ht : toldOf t.row = toldOf (some row))
    (hsource : row.source = E.sourceKey) :
    HasEffect E.sourceKey A.publish A.stored (E.publishEnded url row liveness A) t := by
  have hc : (toldOf t.row).coordinate = some (E.sourceKey, row.dTag) := by
    rw [ht, ← hsource]
    rfl
  obtain ⟨r, hr⟩ := row_of_coordinate hc
  unfold Engine.publishEnded
  dsimp only
  refine publish_hasEffect ?_ fun results => ?_
  · exact hc
  refine (tally_countRejected results).bind_records ((tally_count _).bind_records ?_)
  exact update_records hr fun r => ⟨_, _, rfl⟩

/-- The last pass leaves alone what was found live, and never changes what is found live. -/
theorem reconcileRow_effect (url : JsString) {row : InstanceRow ν} (A : ReconcileAnswers)
    {t : Slot ν} (hrow : t.row = some row) (hsource : row.source = E.sourceKey) :
    let o := E.reconcileRow url row A t
    Effect E.sourceKey A.publish A.stored (toldOf t.row) (toldOf o.state.row) (publishes o.log) ∧
      (t.inLiveUrls = true → o.state = t ∧ publishes o.log = []) := by
  have htold : toldOf t.row = toldOf (some row) := by rw [hrow]
  dsimp only
  unfold Engine.reconcileRow
  rw [Faulty.get_bind]
  cases hflag : t.inLiveUrls with
  | true => exact ⟨.quiet, fun _ => ⟨rfl, rfl⟩⟩
  | false =>
    rw [if_neg Bool.false_ne_true]
    refine ⟨?_, fun h => absurd h Bool.false_ne_true⟩
    split
    · exact .quiet
    · refine ((quiet_checkLiveness _ _).bind_hasEffect fun liveness t' ht' => ?_ :
        HasEffect E.sourceKey A.publish A.stored _ t).1
      split
      · refine (quiet_update _ ?_).hasEffect t'
        exact fun r => rfl
      · split
        · refine (quiet_update _ ?_).hasEffect t'
          exact fun r => rfl
        · exact publishEnded_hasEffect E (ht'.trans htold) hsource

/-- The upsert keeps the status, and what was published, of the row. -/
theorem toldOf_upsertedRow (r : Option (InstanceRow ν)) (input : UpsertSeenInput) (now : Int) :
    toldOf (some (upsertedRow r input now)) =
      { toldOf r with coordinate := some (input.source, input.dTag) } := by
  cases r with
  | none => rfl
  | some row => rfl

theorem upsertSeen_bind {β : Type} (input : UpsertSeenInput) (now : Int)
    (f : InstanceRow ν × Bool → Local ν β) (t : Slot ν) :
    (upsertSeen input (some now) >>= f) t =
      f (upsertedRow t.row input now, t.row.isNone)
        { t with row := some (upsertedRow t.row input now) } := rfl

theorem checkLiveness_bind {β : Type} (streamUrl : JsString) (liveness : Liveness)
    (f : Liveness → Local ν β) (t : Slot ν) :
    (checkLiveness streamUrl (some liveness) >>= f) t =
      ⟨(f liveness t).value, (f liveness t).state, .checkLiveness streamUrl :: (f liveness t).log⟩ :=
  rfl

variable [DecidableEq ν]

theorem publishLive_hasEffect {inst : DiscoveredLive ν} {hostPubkey dTag : JsString}
    {row : InstanceRow ν} {isNew : Bool} {liveness : Liveness} {polled : Option (Option ν)}
    {A : LiveAnswers ν} {t : Slot ν}
    (hc : (toldOf t.row).coordinate = some (E.sourceKey, dTag))
    (hs : (toldOf t.row).status = row.status) :
    HasEffect E.sourceKey A.publish A.stored
      (E.publishLive inst hostPubkey dTag row isNew liveness polled A) t := by
  obtain ⟨r, hr⟩ := row_of_coordinate hc
  unfold Engine.publishLive
  dsimp only
  split
  · refine publish_hasEffect ?_ fun results => ?_
    · exact hc
    refine (tally_count _).bind_records ((tally_countRejected results).bind_records ?_)
    exact update_records hr fun r => ⟨_, _, rfl⟩
  · -- nothing to say: the status that is stored is the one that the row has
    rename_i hquiet
    have hstatus : row.status = Engine.statusOf liveness := by
      by_contra hne
      exact hquiet (by simp [hne])
    have hr' : r.status = row.status := by simpa [hr, toldOf] using hs
    refine update_hasEffect hr ?_
    simp [toldOf, ← hstatus, hr']

theorem publishManual_hasEffect {url : JsString} {row : InstanceRow ν}
    {polled : Option (Option ν)} {A : ManualAnswers ν} {t : Slot ν}
    (ht : toldOf t.row = toldOf (some row)) (hsource : row.source = E.sourceKey) :
    HasEffect E.sourceKey A.publish A.stored (E.publishManual url row polled A) t := by
  have hc : (toldOf t.row).coordinate = some (E.sourceKey, row.dTag) := by
    rw [ht, ← hsource]
    rfl
  obtain ⟨r, hr⟩ := row_of_coordinate hc
  unfold Engine.publishManual
  dsimp only
  split
  · -- it was live already, and there is nothing to say
    rename_i hquiet
    have hstatus : row.status = .live := by
      cases hs : row.status with
      | live => rfl
      | ended => simp [hs] at hquiet
    have hr' : r.status = row.status := by
      simpa [hr, toldOf] using congrArg Told.status ht
    refine update_hasEffect hr ?_
    simp [toldOf, hr', hstatus]
  · refine publish_hasEffect ?_ fun results => ?_
    · exact hc
    refine (tally_count _).bind_records ((tally_countRejected results).bind_records ?_)
    exact update_records hr fun r => ⟨_, _, rfl⟩

theorem processSeen_hasEffect {inst : DiscoveredLive ν} {signer dTag : JsString}
    {row : InstanceRow ν} {isNew : Bool} {A : LiveAnswers ν} {t : Slot ν}
    (hc : (toldOf t.row).coordinate = some (E.sourceKey, dTag))
    (hs : (toldOf t.row).status = row.status) :
    HasEffect E.sourceKey A.publish A.stored (E.processSeen inst signer dTag row isNew A) t := by
  unfold Engine.processSeen
  refine (quiet_countNew isNew).bind_hasEffect fun _ t₁ h₁ => ?_
  split
  · exact (quiet_count _).hasEffect t₁
  · refine (quiet_checkLiveness _ _).bind_hasEffect fun liveness t₂ h₂ => ?_
    refine (quiet_count _).bind_hasEffect fun _ t₃ h₃ => ?_
    refine (quiet_maybePublishProfile E _ _ _ _ _ _ _).bind_hasEffect fun _ t₄ h₄ => ?_
    refine (quiet_pollViewers _ _ _).bind_hasEffect fun polled t₅ h₅ => ?_
    have ht : toldOf t₅.row = toldOf t.row := h₅.trans (h₄.trans (h₃.trans (h₂.trans h₁)))
    exact publishLive_hasEffect E (by rw [ht]; exact hc) (by rw [ht]; exact hs)

/-- The effect of processing a listed instance starts from the row as it was, or from the row
under the coordinate of the listed url. -/
theorem processLive_effect (inst : DiscoveredLive ν) (A : LiveAnswers ν) (t : Slot ν) :
    ∃ v, (v = toldOf t.row ∨ ∃ dTag, dTagFor E.runtime inst.url E.dTagPrefix = some dTag ∧
        v = { toldOf t.row with coordinate := some (E.sourceKey, dTag) }) ∧
      Effect E.sourceKey A.publish A.stored v (toldOf (E.processLive inst A t).state.row)
        (publishes (E.processLive inst A t).log) ∧
      (E.processLive inst A t).state.inLiveUrls = t.inLiveUrls := by
  unfold Engine.processLive
  cases E.signerFor inst.url with
  | none => exact ⟨_, .inl rfl, .quiet, rfl⟩
  | some signer =>
    cases hd : dTagFor E.runtime inst.url E.dTagPrefix with
    | none => exact ⟨_, .inl rfl, .quiet, rfl⟩
    | some dTag =>
      cases A.upsert with
      | none => exact ⟨_, .inl rfl, .quiet, rfl⟩
      | some now =>
        let t' : Slot ν := { t with row := some (upsertedRow t.row (E.seenInput inst signer dTag) now) }
        have htold : toldOf t'.row = { toldOf t.row with coordinate := some (E.sourceKey, dTag) } :=
          toldOf_upsertedRow ..
        refine ⟨_, .inr ⟨dTag, rfl, rfl⟩, ?_⟩
        rw [Faulty.await_some_bind, Faulty.await_some_bind, upsertSeen_bind, ← htold]
        exact processSeen_hasEffect E (t := t') (by rw [htold]) rfl

theorem processLiveManual_hasEffect {url : JsString} {row : InstanceRow ν} (A : ManualAnswers ν)
    {t : Slot ν} (hrow : t.row = some row) (hsource : row.source = E.sourceKey) :
    HasEffect E.sourceKey A.publish A.stored (E.processLiveManual url row A) t := by
  unfold Engine.processLiveManual
  refine (quiet_await _).bind_hasEffect fun signer t₁ h₁ => ?_
  refine (quiet_maybePublishProfile E _ _ _ _ _ _ _).bind_hasEffect fun _ t₂ h₂ => ?_
  refine (quiet_fetchViewerCount _ _).bind_hasEffect fun polled t₃ h₃ => ?_
  exact publishManual_hasEffect E ((h₃.trans (h₂.trans h₁)).trans (by rw [hrow])) hsource

/-- The manual pass leaves alone what is already found live, and what it publishes it has found
live. -/
theorem processManualRow_effect (url : JsString) {row : InstanceRow ν} (A : ManualAnswers ν)
    {t : Slot ν} (hrow : t.row = some row) (hsource : row.source = E.sourceKey) :
    let o := E.processManualRow url row A t
    Effect E.sourceKey A.publish A.stored (toldOf t.row) (toldOf o.state.row) (publishes o.log) ∧
      (t.inLiveUrls = true → o.state = t ∧ publishes o.log = []) ∧
      (o.state.inLiveUrls = false → toldOf o.state.row = toldOf t.row ∧ publishes o.log = []) := by
  dsimp only
  unfold Engine.processManualRow
  rw [Faulty.get_bind]
  cases hflag : t.inLiveUrls with
  | true => exact ⟨.quiet, fun _ => ⟨rfl, rfl⟩, fun _ => ⟨rfl, rfl⟩⟩
  | false =>
    rw [if_neg Bool.false_ne_true]
    have hno {P : Prop} : false = true → P := fun h => absurd h Bool.false_ne_true
    split
    · exact ⟨.quiet, hno, fun _ => ⟨rfl, rfl⟩⟩
    · cases A.liveness with
      | none => exact ⟨.quiet, hno, fun _ => ⟨rfl, rfl⟩⟩
      | some liveness =>
        rw [checkLiveness_bind]
        split
        · exact ⟨.quiet, hno, fun _ => ⟨rfl, rfl⟩⟩
        · -- the flag is set before anything is published
          have h : HasEffect E.sourceKey A.publish A.stored (E.processLiveManual url row A)
              { t with inLiveUrls := true } := processLiveManual_hasEffect E A hrow hsource
          refine ⟨h.1, hno, fun hf => ?_⟩
          exact absurd (h.2.symm.trans hf) (fun h => Bool.noConfusion h)

end Passes

section Cycle

variable (E : Engine) [DecidableEq ν]

/-- What a cycle does to one instance, in one of its three passes. A listed instance begins with
what its stored row says, or with that under the coordinate of the listed url. -/
inductive CycleEffect (c : Cycle ν) (live : List (DiscoveredLive ν × LiveAnswers ν))
    (url : JsString) (v₀ v' : Told ν) (published : List (Publish ν)) : Prop
  | listed (e : DiscoveredLive ν × LiveAnswers ν) (v : Told ν) (he : e ∈ live) (hu : e.1.url = url)
      (hv : v = v₀ ∨ ∃ dTag, dTagFor E.runtime url E.dTagPrefix = some dTag ∧
        v = { v₀ with coordinate := some (E.sourceKey, dTag) })
      (h : Effect E.sourceKey e.2.publish e.2.stored v v' published)
  | manual (h : Effect E.sourceKey (c.manual url).publish (c.manual url).stored v₀ v' published)
  | disappeared
      (h : Effect E.sourceKey (c.reconcile url).publish (c.reconcile url).stored v₀ v' published)

omit [DecidableEq ν] in
theorem cycleEffect_quiet (c : Cycle ν) (live : List (DiscoveredLive ν × LiveAnswers ν))
    (url : JsString) (v : Told ν) : CycleEffect E c live url v v [] := .manual .quiet

omit [DecidableEq ν] in
/-- The effect of a cycle on an instance, without which pass and which answers gave it. -/
theorem CycleEffect.effect {c : Cycle ν} {live : List (DiscoveredLive ν × LiveAnswers ν)}
    {url : JsString} {v₀ v' : Told ν} {published : List (Publish ν)}
    (h : CycleEffect E c live url v₀ v' published) :
    ∃ v answer stored, Effect E.sourceKey answer stored v v' published ∧
      (v = v₀ ∨ ∃ e ∈ live, e.1.url = url ∧ ∃ dTag, dTagFor E.runtime url E.dTagPrefix = some dTag ∧
        v = { v₀ with coordinate := some (E.sourceKey, dTag) }) := by
  cases h with
  | listed e v he hu hv h => exact ⟨v, _, _, h, hv.imp_right fun hd => ⟨e, he, hu, hd⟩⟩
  | manual h => exact ⟨v₀, _, _, h, .inl rfl⟩
  | disappeared h => exact ⟨v₀, _, _, h, .inl rfl⟩

/-- Between two passes an instance is untouched, or it is found live and its effect is done. -/
def Midway (c : Cycle ν) (live : List (DiscoveredLive ν × LiveAnswers ν)) (url : JsString)
    (v₀ : Told ν) (t : Slot ν) (published : List (Publish ν)) : Prop :=
  (toldOf t.row = v₀ ∧ published = []) ∨
    (t.inLiveUrls = true ∧ CycleEffect E c live url v₀ (toldOf t.row) published)

omit [DecidableEq ν] in
theorem Midway.cycleEffect {c : Cycle ν} {live : List (DiscoveredLive ν × LiveAnswers ν)}
    {url : JsString} {v₀ : Told ν} {t : Slot ν} {published : List (Publish ν)}
    (h : Midway E c live url v₀ t published) :
    CycleEffect E c live url v₀ (toldOf t.row) published := by
  rcases h with ⟨h, rfl⟩ | ⟨-, h⟩
  · rw [h]
    exact cycleEffect_quiet E c live url v₀
  · exact h

theorem livePass_midway {c : Cycle ν} {live : List (DiscoveredLive ν × LiveAnswers ν)}
    (hn : (live.map fun e => e.1.url).Nodup) (w : Work ν) (url : JsString) :
    let o := Keyed.runJobs (live.map E.liveJob) w
    Midway E c live url (toldOf (w.slot url).row) (o.state.slot url)
      (publishes (Keyed.logOf url o.log)) := by
  have hkeys : ((live.map E.liveJob).map Prod.fst).Nodup := by
    simpa [List.map_map, Function.comp_def, Engine.liveJob] using hn
  have hran := Keyed.runJobs_ran hkeys w url
  dsimp only
  change Keyed.Ran _ _ (w.slot url) (Work.slot _ url) _ at hran
  revert hran
  generalize (Keyed.runJobs (live.map E.liveJob) w).state.slot url = t'
  generalize Keyed.logOf url (Keyed.runJobs (live.map E.liveJob) w).log = log
  intro hran
  cases hran with
  | skipped => exact .inl ⟨rfl, rfl⟩
  | ran m hm =>
    obtain ⟨e, he, hjob⟩ := List.mem_map.mp hm
    obtain ⟨rfl, rfl⟩ := Prod.mk.inj hjob
    obtain ⟨v, hv, heffect, hflag⟩ :=
      processLive_effect E e.1 e.2 { w.slot e.1.url with inLiveUrls := true }
    exact .inr ⟨hflag, .listed e v he rfl hv heffect⟩

omit [DecidableEq ν] in
/-- A pass over the rows that a query lists does to one instance nothing, or the job of its
row. -/
theorem forRows_ran (answer : Option (JsString → Nat)) (p : InstanceRow ν → Bool)
    (job : JsString × InstanceRow ν → Local ν Unit) (w : Work ν) (url : JsString) :
    let o := Engine.forRows answer p job w
    (o.state.slot url = w.slot url ∧ Keyed.logOf url o.log = []) ∨
      ∃ row, w.table.get? url = some row ∧ p row = true ∧
        o.state.slot url = (job (url, row) (w.slot url)).state ∧
        Keyed.logOf url o.log = (job (url, row) (w.slot url)).log := by
  cases answer with
  | none => exact .inl ⟨rfl, rfl⟩
  | some order =>
    have hkeys : ((((w.table.select order p).map fun e => (e.1, job e))).map Prod.fst).Nodup := by
      simpa [List.map_map, Function.comp_def] using w.table.select_nodup order p
    have hran := Keyed.runJobs_ran hkeys w url
    dsimp only
    rw [Engine.forRows, Faulty.await_some_bind, Faulty.get_bind]
    change Keyed.Ran _ _ (w.slot url) (Work.slot _ url) _ at hran
    generalize (Keyed.runJobs ((w.table.select order p).map fun e => (e.1, job e)) w).state.slot url
      = t' at hran ⊢
    generalize Keyed.logOf url
      (Keyed.runJobs ((w.table.select order p).map fun e => (e.1, job e)) w).log = log at hran ⊢
    cases hran with
    | skipped => exact .inl ⟨rfl, rfl⟩
    | ran m hm =>
      obtain ⟨⟨url', row⟩, he, hjob⟩ := List.mem_map.mp hm
      obtain ⟨rfl, rfl⟩ := Prod.mk.inj hjob
      obtain ⟨hrow, hp⟩ := InstanceTable.mem_select.mp he
      exact .inr ⟨row, hrow, hp, rfl, rfl⟩

theorem manualPass_midway {c : Cycle ν} {live : List (DiscoveredLive ν × LiveAnswers ν)}
    {url : JsString} {v₀ : Told ν} {w : Work ν} {published : List (Publish ν)}
    (h : Midway E c live url v₀ (w.slot url) published) :
    let o := E.processManualRows c w
    Midway E c live url v₀ (o.state.slot url)
      (published ++ publishes (Keyed.logOf url o.log)) := by
  dsimp only
  unfold Engine.processManualRows
  rcases forRows_ran c.listManual (listManual E.sourceKey)
    (fun e => E.processManualRow e.1 e.2 (c.manual e.1)) w url with ⟨hs, hw⟩ | ⟨row, hrow, hp, hs, hw⟩
  · simpa [hs, hw] using h
  · have hsource : row.source = E.sourceKey := by
      simp only [listManual, decide_eq_true_eq] at hp
      exact hp.1
    obtain ⟨heffect, hlive, hnot⟩ :=
      processManualRow_effect E url (c.manual url) (t := w.slot url) hrow hsource
    rw [hs, hw]
    rcases h with ⟨htold, rfl⟩ | ⟨hflag, hdone⟩
    · rw [htold] at heffect
      cases hafter : (E.processManualRow url row (c.manual url) (w.slot url)).state.inLiveUrls with
      | true => exact .inr ⟨hafter, .manual heffect⟩
      | false =>
        obtain ⟨htold', hpub⟩ := hnot hafter
        exact .inl ⟨htold'.trans htold, by rw [hpub]; rfl⟩
    · -- found live by the pass before
      obtain ⟨hstate, hpub⟩ := hlive hflag
      rw [hstate, hpub, List.append_nil]
      exact .inr ⟨hflag, hdone⟩

omit [DecidableEq ν] in
theorem reconcilePass_cycleEffect {c : Cycle ν} {live : List (DiscoveredLive ν × LiveAnswers ν)}
    {url : JsString} {v₀ : Told ν} {w : Work ν} {published : List (Publish ν)}
    (h : Midway E c live url v₀ (w.slot url) published) :
    let o := E.reconcileDisappeared c w
    CycleEffect E c live url v₀ (toldOf (o.state.slot url).row)
      (published ++ publishes (Keyed.logOf url o.log)) := by
  dsimp only
  unfold Engine.reconcileDisappeared
  rcases forRows_ran c.listByStatus (listByStatus .live E.sourceKey)
    (fun e => E.reconcileRow e.1 e.2 (c.reconcile e.1)) w url with ⟨hs, hw⟩ | ⟨row, hrow, hp, hs, hw⟩
  · simpa [hs, hw] using h.cycleEffect E
  · have hsource : row.source = E.sourceKey := by
      simp only [listByStatus, decide_eq_true_eq] at hp
      exact hp.2
    obtain ⟨heffect, hlive⟩ := reconcileRow_effect E url (c.reconcile url) (t := w.slot url) hrow hsource
    rw [hs, hw]
    rcases h with ⟨htold, rfl⟩ | ⟨hflag, hdone⟩
    · rw [htold] at heffect
      exact .disappeared heffect
    · obtain ⟨hstate, hpub⟩ := hlive hflag
      rw [hstate, hpub, List.append_nil]
      exact hdone

/-- Whatever a cycle does, each instance has at most one effect on what the relays are told. -/
theorem passes_cycleEffect {c : Cycle ν} {live : List (DiscoveredLive ν × LiveAnswers ν)}
    (hn : (live.map fun e => e.1.url).Nodup) (w : Work ν) (url : JsString) :
    let o := E.passes c live w
    CycleEffect E c live url (toldOf (w.slot url).row) (toldOf (o.state.slot url).row)
      (publishes (Keyed.logOf url o.log)) := by
  have hmid := livePass_midway E (c := c) hn w url
  dsimp only at hmid ⊢
  refine Faulty.bind_rule (P := fun o : Outcome (Work ν) (JsString × Call ν) Unit =>
    CycleEffect E c live url (toldOf (w.slot url).row) (toldOf (o.state.slot url).row)
      (publishes (Keyed.logOf url o.log))) (fun _ => hmid.cycleEffect E) fun _ _ => ?_
  have hmid' := manualPass_midway E hmid
  simp only [Keyed.logOf_append, publishes_append]
  refine Faulty.bind_rule (P := fun o : Outcome (Work ν) (JsString × Call ν) Unit =>
    CycleEffect E c live url (toldOf (w.slot url).row) (toldOf (o.state.slot url).row)
      (publishes (Keyed.logOf url (Keyed.runJobs (live.map E.liveJob) w).log) ++
        publishes (Keyed.logOf url o.log))) (fun _ => hmid'.cycleEffect E) fun _ _ => ?_
  have hlast := reconcilePass_cycleEffect E hmid'
  simpa [Keyed.logOf_append, publishes_append, List.append_assoc] using hlast

/-- The effect of a whole cycle on one instance. -/
theorem runCycle_cycleEffect {c : Cycle ν} (hn : (c.live.map fun e => e.1.url).Nodup)
    (s : DiscoveryState ν) (url : JsString) :
    CycleEffect E c c.live url (toldOf (s.table.get? url))
      (toldOf ((E.runCycle c s).table.get? url))
      (publishes (Keyed.logOf url (E.runCycle c s).cycleLog)) := by
  rcases E.runCycle_cases c s with ⟨hf, hrun⟩ | ⟨fetched, hf, ht, -, hlog⟩
  · rw [hrun]
    exact cycleEffect_quiet E c c.live url _
  · have hlive : c.live = fetched.live := by simp [Cycle.live, hf]
    rw [hlive] at hn ⊢
    rw [ht, hlog]
    exact passes_cycleEffect E hn ⟨s.table, fun _ => false⟩ url

end Cycle

end LivelierBridge.Discovery
