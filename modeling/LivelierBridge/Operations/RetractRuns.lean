import LivelierBridge.Operations.Retract

namespace LivelierBridge.Operations

open Framework Js Nostr Discovery

variable {ν : Type} {E : Engine} {R : Runtime} {nsecPubkey : JsString → Option JsString} {env : Env}

section Cycle

variable [DecidableEq ν] {c : Discovery.Cycle ν} {s : DiscoveryState ν}

end Cycle

/-- The row says that nothing of the instance is published. -/
structure Retracted (row : InstanceRow ν) : Prop where
  lastPublishedAt : row.lastPublishedAt = none
  profileHash : row.profileHash = none
  status : row.status = .ended

/-- What the script signs for an instance, with the relays that it asks -/
def script (E : Engine) (key dTag : JsString) : List (ScriptEvent × List JsString) :=
  [(deletion E.bridgePubkey dTag, [E.eventRelayUrl]), (blankProfile key, E.profileWriteRelays),
    (blankRelayList key, E.profileWriteRelays)]

namespace Retraction

/-- What the script has sent, with the relays that it asked -/
def addressed (r : Retraction ν) : List (ScriptEvent × List JsString) :=
  r.sent.map fun e => (e.1, e.2.map Prod.fst)

/-- What the script has sent fits its stage. -/
def Told (E : Engine) (r : Retraction ν) : Prop :=
  match r.stage with
  | .deleting bridge => bridge = E.bridgePubkey ∧ r.addressed = []
  | .blanking key =>
    E.signerFor r.url = some key ∧ r.addressed = (script E key r.row.dTag).take 1
  | .unlisting key =>
    E.signerFor r.url = some key ∧ r.addressed = (script E key r.row.dTag).take 2
  | .marking | .done => r.accepted = true ∧
    ∃ key, E.signerFor r.url = some key ∧ r.addressed = script E key r.row.dTag
  | .failed => True

/-- The worker has left the instance alone since the script read its row. -/
structure Closed (db : DiscoveryState ν) (r : Retraction ν) : Prop where
  row : ∃ row, db.table.get? r.url = some row ∧ row.discoveryEnabled = false ∧
    (r.stage = .done → Retracted row)
  calls : ∀ e ∈ db.history.drop r.since,
    e.2.instance? ≠ some r.url ∧ (e.1 = r.url → e.2.isContact = false)

structure Sound (E : Engine) (db : DiscoveryState ν) (r : Retraction ν) : Prop where
  source : r.row.source = E.sourceKey
  dTag : dTagFor E.runtime r.url E.dTagPrefix = some r.row.dTag
  relays : r.relays = ⟨E.eventRelayUrl, E.profileWriteRelays⟩
  since : r.since ≤ db.history.length
  told : r.Told E
  closed : r.reopened = false → r.Closed db

/-- A row is changed; an instance that is off stays off unless the script reopens. -/
theorem Sound.setRow {r r' : Retraction ν} {s : OperatedDb ν} (h : r.Sound E s.db) (url : JsString)
    (f : InstanceRow ν → InstanceRow ν) (hsame : r' = { r with reopened := r'.reopened })
    (hopen : r'.reopened = false → r.reopened = false ∧ (r.url = url → ∀ row,
      row.discoveryEnabled = false → (f row).discoveryEnabled = false))
    (hmark : ∀ row, Retracted row → Retracted (f row)) : r'.Sound E (s.setRow url f).db := by
  rw [hsame]
  have hhistory : (s.setRow url f).db.history = s.db.history := by
    unfold OperatedDb.setRow
    split <;> rfl
  refine ⟨h.source, h.dTag, h.relays, hhistory ▸ h.since, h.told, fun hclosed => ?_⟩
  obtain ⟨hwas, hoff⟩ := hopen hclosed
  obtain ⟨⟨row, hget, hrow, hdone⟩, hcalls⟩ := h.closed hwas
  refine ⟨?_, hhistory ▸ hcalls⟩
  unfold OperatedDb.setRow
  split
  · rename_i row₀ hget₀
    by_cases hurl : r.url = url
    · obtain rfl : row₀ = row := Option.some.inj (hget₀.symm.trans (hurl ▸ hget))
      refine ⟨f row₀, ?_, hoff hurl row₀ hrow, fun hstage => hmark row₀ (hdone hstage)⟩
      show (s.db.table.set url (f row₀)).get? r.url = _
      rw [hurl]
      exact OrderedMap.get?_set_self _ _ _
    · refine ⟨row, ?_, hrow, hdone⟩
      show (s.db.table.set url (f row₀)).get? r.url = _
      rw [OrderedMap.get?_set_of_ne _ hurl]
      exact hget
  · exact ⟨row, hget, hrow, hdone⟩

/-- A retracted row that is listed, probed or missed stays retracted. -/
theorem Sound.run {r : Retraction ν} {db db' : DiscoveryState ν} (h : r.Sound E db)
    (hlaw : OptOutLaw db db') : r.Sound E db' := by
  obtain ⟨log, hlog, hsilent⟩ := hlaw.calls
  refine ⟨h.source, h.dTag, h.relays, ?_, h.told, fun hopen => ?_⟩
  · rw [hlog, List.length_append]
    exact Nat.le_add_right_of_le h.since
  · obtain ⟨⟨row, hget, hoff, hdone⟩, hcalls⟩ := h.closed hopen
    obtain ⟨row', hget', hsettings, halone⟩ := hlaw.rows r.url row hget
    have hleft := halone hoff
    refine ⟨⟨row', hget', hsettings.discoveryEnabled.trans hoff, fun hstage => ?_⟩, ?_⟩
    · have hretracted := hdone hstage
      exact ⟨hleft.lastPublishedAt.trans hretracted.lastPublishedAt,
        hleft.profileHash.trans hretracted.profileHash, hleft.status.trans hretracted.status⟩
    · intro e he
      rw [hlog, List.drop_append_of_le_length h.since] at he
      rcases List.mem_append.mp he with he | he
      · exact hcalls e he
      · exact hsilent r.url row hget hoff e he

end Retraction

theorem setRow_history {s : OperatedDb ν} (url : JsString) (f : InstanceRow ν → InstanceRow ν) :
    (s.setRow url f).db.history = s.db.history := by
  unfold OperatedDb.setRow
  split <;> rfl

section Step

variable [DecidableEq ν] [JsNumber ν] {s s' : OperatedDb ν}

end Step

section Run

variable [DecidableEq ν] [JsNumber ν] {μ : Type} [NatCast μ] {number : JsString → Option μ}
  {config : BridgeConfig μ} {seconds : Nat} {source : Engine}

end Run

def demoUrl : JsString := js "https://a.example"

end LivelierBridge.Operations
