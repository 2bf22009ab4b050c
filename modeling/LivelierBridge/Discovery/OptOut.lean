import LivelierBridge.Discovery.Coordinates
import LivelierBridge.Discovery.Calls

namespace LivelierBridge.Discovery

open Framework Js

variable {ν : Type}

/-- The instance that a call names, if it does: an event by its website or its proxy tag. -/
def Call.instance? : Call ν → Option JsString
  | .fetchViewerCount instanceUrl => some instanceUrl
  | .publishProfile _ profile _ _ => some profile.website
  | .publishLiveEvent input _ => some input.proxyUrl
  | .checkLiveness _ | .publishRelayList _ _ _ _ _ | .count _ => none

/-- The settings of a row that only the operator changes. -/
structure InstanceRow.SameSettings (row row' : InstanceRow ν) : Prop where
  discoveryEnabled : row'.discoveryEnabled = row.discoveryEnabled
  chatEnabled : row'.chatEnabled = row.chatEnabled

/-- What the engine has found of an instance and published for it. -/
structure InstanceRow.LeftAlone (row row' : InstanceRow ν) : Prop where
  status : row'.status = row.status
  consecutiveFailures : row'.consecutiveFailures = row.consecutiveFailures
  lastPublishedAt : row'.lastPublishedAt = row.lastPublishedAt
  profileHash : row'.profileHash = row.profileHash
  viewerCount : row'.viewerCount = row.viewerCount

theorem InstanceRow.SameSettings.refl (row : InstanceRow ν) : row.SameSettings row := ⟨rfl, rfl⟩

theorem InstanceRow.SameSettings.trans {row row' row'' : InstanceRow ν}
    (h : row.SameSettings row') (h' : row'.SameSettings row'') : row.SameSettings row'' :=
  ⟨h'.discoveryEnabled.trans h.discoveryEnabled, h'.chatEnabled.trans h.chatEnabled⟩

theorem InstanceRow.LeftAlone.refl (row : InstanceRow ν) : row.LeftAlone row :=
  ⟨rfl, rfl, rfl, rfl, rfl⟩

theorem InstanceRow.LeftAlone.trans {row row' row'' : InstanceRow ν} (h : row.LeftAlone row')
    (h' : row'.LeftAlone row'') : row.LeftAlone row'' :=
  ⟨h'.status.trans h.status, h'.consecutiveFailures.trans h.consecutiveFailures,
    h'.lastPublishedAt.trans h.lastPublishedAt, h'.profileHash.trans h.profileHash,
    h'.viewerCount.trans h.viewerCount⟩

section Turn

variable [DecidableEq ν] {E : Engine} {url : JsString}

end Turn

/-- What a run from `s` to `t` does to the rows there were: none is deleted and none has its
settings changed; an opted-out one is left alone, the adapter is not called for it, and no event
is published for it or names it. -/
structure OptOutLaw (s t : DiscoveryState ν) : Prop where
  rows : ∀ url row, s.table.get? url = some row → ∃ row', t.table.get? url = some row' ∧
    row.SameSettings row' ∧ (row.discoveryEnabled = false → row.LeftAlone row')
  calls : ∃ log, t.history = s.history ++ log ∧ ∀ url row, s.table.get? url = some row →
    row.discoveryEnabled = false → ∀ e ∈ log,
      e.2.instance? ≠ some url ∧ (e.1 = url → e.2.isContact = false)

theorem OptOutLaw.refl (s : DiscoveryState ν) : OptOutLaw s s where
  rows _ row h := ⟨row, h, .refl row, fun _ => .refl row⟩
  calls := ⟨[], (List.append_nil _).symm, fun _ _ _ _ _ h => absurd h List.not_mem_nil⟩

theorem OptOutLaw.trans {s t u : DiscoveryState ν} (h : OptOutLaw s t) (h' : OptOutLaw t u) :
    OptOutLaw s u := by
  constructor
  · intro url row hrow
    obtain ⟨row', hrow', hsame, halone⟩ := h.rows url row hrow
    obtain ⟨row'', hrow'', hsame', halone'⟩ := h'.rows url row' hrow'
    refine ⟨row'', hrow'', hsame.trans hsame', fun hoff => (halone hoff).trans (halone' ?_)⟩
    rw [hsame.discoveryEnabled, hoff]
  · obtain ⟨log, hlog, hcalls⟩ := h.calls
    obtain ⟨log', hlog', hcalls'⟩ := h'.calls
    refine ⟨log ++ log', by rw [hlog', hlog, List.append_assoc], ?_⟩
    intro url row hrow hoff e he
    rcases List.mem_append.mp he with he | he
    · exact hcalls url row hrow hoff e he
    · obtain ⟨row', hrow', hsame, -⟩ := h.rows url row hrow
      exact hcalls' url row' hrow' (hsame.discoveryEnabled.trans hoff) e he

section Step

variable [DecidableEq ν] {E : Engine}

end Step

end LivelierBridge.Discovery
