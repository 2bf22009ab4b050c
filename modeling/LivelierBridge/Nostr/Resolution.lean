import LivelierBridge.Nostr.TierOutcomes

namespace LivelierBridge.Nostr

open Framework Js ReplaceableEventLoader

/-- A tier has all that it was asked for: every key resolves. -/
def makeCompletionPredicate (keys : List JsString) (events : List Event) : Bool :=
  keys.all fun key => (resolveRequest key events).isSome

/-- The received events that a request asks for. An addressable request without a `d` asks for those
without a `d`, and where there are none, for any. -/
def asked (ρ : ReplaceableEventRequest) (events : List Event) : List Event :=
  let received := events.filter fun e => e.kind = ρ.kind && e.pubkey = ρ.pubkey
  if isAddressableKind ρ.kind then
    match ρ.d with
    | some d => received.filter fun e => tagValue e.tags (js "d") = some d
    | none =>
      let unnamed := received.filter fun e => (tagValue e.tags (js "d")).getD [] = []
      if unnamed = [] then received else unnamed
  else received

section Asked

variable {ρ : ReplaceableEventRequest} {e : Event} {events : List Event} {keys : List JsString}

theorem own_received (h : e ∈ asked ρ events) : e ∈ events.filter (own ρ) := by
  unfold asked at h
  dsimp only at h
  split at h
  · split at h
    · exact List.mem_of_mem_filter h
    · split_ifs at h
      · exact h
      · exact List.mem_of_mem_filter h
  · exact h

theorem d_of_asked {d : JsString} (h : e ∈ asked ρ events) (haddr : isAddressableKind ρ.kind = true)
    (hd : ρ.d = some d) : tagValue e.tags (js "d") = some d := by
  unfold asked at h
  simp only [haddr, hd, if_true] at h
  simpa using (List.mem_filter.mp h).2

theorem dOf_eq_none_iff (haddr : isAddressableKind e.kind = true) :
    dOf e = none ↔ (tagValue e.tags (js "d")).getD [] = [] := by
  unfold dOf
  rw [if_pos haddr]
  cases tagValue e.tags (js "d") with
  | none => simp
  | some d => simp [Option.filter]

theorem dOf_eq_some_iff {d : JsString} (hd : d ≠ []) (haddr : isAddressableKind e.kind = true) :
    dOf e = some d ↔ tagValue e.tags (js "d") = some d := by
  unfold dOf
  rw [if_pos haddr, Option.filter_eq_some_iff]
  constructor
  · exact fun h => h.1
  · exact fun h => ⟨h, by simpa using hd⟩

/-- The foremost of a request's own events is the newest that it asks for. -/
theorem foremost_eq_newest_asked (hρ : Plain ρ) (hd : ρ.d ≠ none → isAddressableKind ρ.kind = true) :
    foremost ρ (events.filter (own ρ)) = newest (asked ρ events) := by
  have hkind : ∀ e ∈ events.filter (own ρ), e.kind = ρ.kind :=
    fun e he => (own_iff.mp (List.mem_filter.mp he).2).1
  have hcongr {p q : Event → Bool}
      (h : ∀ e, isAddressableKind e.kind = isAddressableKind ρ.kind → p e = q e) :
      (events.filter (own ρ)).filter p = (events.filter (own ρ)).filter q :=
    List.filter_congr fun e he => h e (by rw [hkind e he])
  cases haddr : isAddressableKind ρ.kind with
  | false =>
    rw [haddr] at hcongr
    have hnone : ρ.d = none := by
      by_contra hsome
      rw [hd hsome] at haddr
      cases haddr
    have hall : ((events.filter (own ρ)).filter fun e => dOf e = none) =
        (events.filter (own ρ)).filter fun _ => true :=
      hcongr fun e he => by simp [dOf, he]
    rw [foremost_named (by simp [takesAny, haddr]), hnone, hall, List.filter_true]
    simp only [asked, haddr]
    rfl
  | true =>
    rw [haddr] at hcongr
    cases hρd : ρ.d with
    | some d =>
      have hne : d ≠ [] := fun h => hρ.d (by rw [hρd, h])
      have hexact : ((events.filter (own ρ)).filter fun e => dOf e = some d) =
          (events.filter (own ρ)).filter fun e => tagValue e.tags (js "d") = some d :=
        hcongr fun e he => by simp only [dOf_eq_some_iff hne he]
      rw [foremost_named (by simp [takesAny, hρd]), hρd, hexact]
      simp only [asked, haddr, hρd, if_true]
      rfl
    | none =>
      have hexact : ((events.filter (own ρ)).filter fun e => dOf e = none) =
          (events.filter (own ρ)).filter fun e => (tagValue e.tags (js "d")).getD [] = [] :=
        hcongr fun e he => by simp only [dOf_eq_none_iff he]
      have hasked : asked ρ events =
          if ((events.filter (own ρ)).filter fun e => (tagValue e.tags (js "d")).getD [] = []) = [] then
            events.filter (own ρ)
          else (events.filter (own ρ)).filter fun e => (tagValue e.tags (js "d")).getD [] = [] := by
        simp only [asked, haddr, hρd, if_true]
        rfl
      have hany : takesAny ρ = true := by simp [takesAny, haddr, hρd]
      unfold foremost
      rw [hρd, hexact, hasked]
      cases hx : newest ((events.filter (own ρ)).filter
          fun e => (tagValue e.tags (js "d")).getD [] = []) with
      | none => rw [if_pos (newest_eq_none_iff.mp hx), if_pos hany]
      | some x =>
        have hne : ((events.filter (own ρ)).filter
            fun e => (tagValue e.tags (js "d")).getD [] = []) ≠ [] := by
          intro hempty
          rw [newest_eq_none_iff.mpr hempty] at hx
          cases hx
        rw [if_neg hne, hx]

/-- More events leave no key unresolved that was not. -/
theorem makeCompletionPredicate_append (later : List Event)
    (h : makeCompletionPredicate keys events = true) :
    makeCompletionPredicate keys (events ++ later) = true := by
  unfold makeCompletionPredicate at h ⊢
  rw [List.all_eq_true] at h ⊢
  intro key hkey
  obtain ⟨e, he⟩ := Option.isSome_iff_exists.mp (h key hkey)
  obtain ⟨x, hx, -⟩ := resolveRequest_append he later
  rw [hx]
  rfl

end Asked

/-- What the requests of a batch resolve to is the newest of what they ask for, by the received events
and by the predicate that ends their query alike. `parseKey (toKey r)` is the request as the batch reads
it back from its key, which for a pubkey is the request itself, an empty `d` being none. -/
theorem resolution_agrees (requests : List ReplaceableEventRequest) (events : List Event)
    (hd : ∀ r ∈ requests, (parseKey (toKey r)).d ≠ none → isAddressableKind r.kind = true)
    (hevents : ∀ e ∈ events, (58 : UInt16) ∉ e.pubkey) :
    (∀ r ∈ requests, (58 : UInt16) ∉ r.pubkey →
      parseKey (toKey r) = { r with d := r.d.filter fun d => d ≠ [] }) ∧
    (∀ r ∈ requests, ∀ e, resolveRequest (toKey r) events = some e →
      (e ∈ events ∧ e.kind = r.kind ∧ e.pubkey = (parseKey (toKey r)).pubkey ∧
        ∀ d, (parseKey (toKey r)).d = some d → tagValue e.tags (js "d") = some d) ∧
      e ∈ asked (parseKey (toKey r)) events ∧
      ∀ x ∈ asked (parseKey (toKey r)) events, x.created_at ≤ e.created_at) ∧
    (∀ r ∈ requests, resolveRequest (toKey r) events = none → asked (parseKey (toKey r)) events = []) ∧
    ∀ received later, events = received ++ later →
      (makeCompletionPredicate (requests.map toKey) received = true ↔
        ∀ r ∈ requests, ∃ e, resolveRequest (toKey r) received = some e) ∧
      (makeCompletionPredicate (requests.map toKey) received = true →
        makeCompletionPredicate (requests.map toKey) events = true) := by
  have hresolve : ∀ r ∈ requests, resolveRequest (toKey r) events =
      newest (asked (parseKey (toKey r)) events) := by
    intro r hr
    obtain ⟨hplain, hkey⟩ := parseKey_plain r
    have hsame := resolveRequest_eq hplain hevents
    rw [hkey] at hsame
    rw [hsame]
    refine foremost_eq_newest_asked hplain fun hsome => ?_
    rw [parseKey_kind]
    exact hd r hr hsome
  refine ⟨fun r _ hpubkey => parseKey_toKey hpubkey, fun r hr e he => ?_, fun r hr hnone => ?_,
    fun received later hevents => ⟨?_, ?_⟩⟩
  · rw [hresolve r hr] at he
    have hasked := newest_mem he
    obtain ⟨hmem, hown⟩ := List.mem_filter.mp (own_received hasked)
    obtain ⟨hkind, hpubkey⟩ := own_iff.mp hown
    rw [parseKey_kind] at hkind
    refine ⟨⟨hmem, hkind, hpubkey, fun d hsome => ?_⟩, hasked, le_newest he⟩
    refine d_of_asked hasked ?_ hsome
    rw [parseKey_kind]
    exact hd r hr (by simp [hsome])
  · rw [hresolve r hr] at hnone
    exact newest_eq_none_iff.mp hnone
  · simp [makeCompletionPredicate, Option.isSome_iff_exists]
  · rw [hevents]
    exact makeCompletionPredicate_append later

theorem resolution_agrees_emoji :
    asked (parseKey (toKey ⟨js "bb", 30030, some (js "cats")⟩)) [demoEmojiSet] = [] := by
  have hagree := resolution_agrees demoEmojiRequests [demoEmojiSet] (by decide +kernel) (by decide +kernel)
  exact hagree.2.2.1 _ (by simp) (by decide +kernel)

end LivelierBridge.Nostr
