import LivelierBridge.Nostr.QueryAccounting

namespace LivelierBridge.Nostr

open Framework Js

namespace QueryRun

/-- The predicate of the query holds of these events. -/
def Satisfied (q : StatsQuery) (events : List Event) : Prop :=
  ∃ isComplete, q.isComplete = some isComplete ∧ isComplete events = true

/-- The query is over: it has resolved, no REQ is open, and none is opened any more. -/
structure Ended (q : StatsQuery) (s : QueryRun) : Prop where
  resolved : s.Resolved q
  closed : ∀ url req, s.turn url = .asking req → req.closed = true
  quiet : ∀ as t, run (step q) s as = some t →
    ∀ url, t.log.count (.opened url) = s.log.count (.opened url)

/-- The events received so far do not satisfy the query, or it is over. -/
def Prompt (q : StatsQuery) (s : QueryRun) : Prop := Satisfied q s.events → Ended q s

/-- An event that satisfies the query arrives when every relay is connected, or has failed to. -/
def NoneConnecting (q : StatsQuery) (s : QueryRun) : QueryAction → Prop
  | .event _ event =>
    event.id ∉ s.knownIds → Satisfied q (s.events ++ [event]) →
      ∀ url ∈ q.relays, s.turn url ≠ .connecting
  | .connected _ | .failed _ | .eose _ | .closed _ | .deadline _ => True

/-- Every REQ that runs has its early closer, and none runs after the early completion. -/
structure Closable (s : QueryRun) : Prop where
  closers : ∀ url, s.turn url = .asking .running → url ∈ s.earlyClosers
  quiet : s.completedEarly = true → ∀ url, s.turn url ≠ .asking .running

variable {q : StatsQuery} {base : RelayReqStats} {s s' : QueryRun} {url : JsString}

/-! ### Relays whose outcome is decided -/

theorem Move.turn_of_decided (h : Move q s s') (hd : (s.turn url).isDecided = true) :
    s'.turn url = s.turn url := by
  have hset {m : QueryRun} {v : JsString} {t : RelayTurn}
      (hv : (m.turn v).isDecided = false) (hm : m.turn url = s.turn url) :
      (m.setTurn v t).turn url = s.turn url := by
    have hne : url ≠ v := by
      rintro rfl
      rw [hm, hd] at hv
      cases hv
    rw [setTurn_of_ne hne, hm]
  cases h with
  | @giveUp v _ ht => exact hset (m := s) (v := v) (by rw [ht]; rfl) rfl
  | @openReq v _ ht => exact hset (m := s) (v := v) (by rw [ht]; rfl) rfl
  | repeated | kept | late | complete => rfl
  | @answered v ht => exact hset (m := s) (v := v) (by rw [ht]; rfl) rfl
  | @settled v ht => exact hset (m := s) (v := v) (by rw [ht]; rfl) rfl

theorem Moves.turn_of_decided (h : Moves q s s') (hd : (s.turn url).isDecided = true) :
    s'.turn url = s.turn url := by
  induction h with
  | refl => rfl
  | tail _ hmove ih =>
    rw [← ih] at hd ⊢
    exact hmove.turn_of_decided hd

theorem Moves.resolved (h : Moves q s s') (hres : s.Resolved q) : s'.Resolved q := by
  intro u hu
  rw [h.turn_of_decided (hres u hu)]
  exact hres u hu

/-- A query that has resolved is over. -/
theorem Accounted.ended_iff (h : Accounted q base s) : Ended q s ↔ s.Resolved q := by
  refine ⟨Ended.resolved, fun hres => ⟨hres, h.balanced.closed hres, ?_⟩⟩
  intro as t hr url
  obtain ⟨ht, hturn⟩ : Accounted q base t ∧ ∀ u ∈ q.relays, t.turn u = s.turn u := by
    let inv (t : QueryRun) : Prop := Accounted q base t ∧ ∀ u ∈ q.relays, t.turn u = s.turn u
    have hstart : inv s := ⟨h, fun _ _ => rfl⟩
    change inv t
    refine run_invariant_all ?_ hstart hr
    rintro m a m' ⟨hm, hsame⟩ hs
    have hmoves := step_moves hm.tidy hs
    refine ⟨hm.moves hmoves, fun u hu => ?_⟩
    rw [hmoves.turn_of_decided (by rw [hsame u hu]; exact hres u hu), hsame u hu]
  rw [ht.opened, h.opened]
  by_cases hu : url ∈ q.relays
  · rw [hturn url hu]
  · have hconnecting {m : QueryRun} (hm : Accounted q base m) : m.turn url = .connecting := by
      by_contra hne
      exact hu (hm.known url hne)
    rw [hconnecting ht, hconnecting h]

/-! ### Early completion -/

theorem release_turn (ht : s.Tidy) (v : JsString) : (s.release v).turn url =
    if url = v ∧ s.turn url = .asking .running then .asking .over else s.turn url := by
  by_cases hv : s.turn v = .asking .running
  · rw [release_running hv]
    by_cases heq : url = v
    · subst heq
      rw [settle_turn_self, if_pos ⟨rfl, hv⟩]
    · rw [settle_turn_of_ne heq, if_neg fun h => heq h.1]
  · rw [release_idle hv ht, if_neg]
    rintro ⟨rfl, h⟩
    exact hv h

theorem release_frame (ht : s.Tidy) (v : JsString) : (s.release v).events = s.events ∧
    (s.release v).completedEarly = s.completedEarly ∧
    (s.release v).earlyClosers = s.earlyClosers := by
  by_cases hv : s.turn v = .asking .running
  · rw [release_running hv]
    exact ⟨rfl, rfl, rfl⟩
  · rw [release_idle hv ht]
    exact ⟨rfl, rfl, rfl⟩

theorem release_tidy (ht : s.Tidy) (v : JsString) (q : StatsQuery) : (s.release v).Tidy :=
  (release_moves (q := q) ht v).tidy ht

theorem foldl_release_turn (q : StatsQuery) (ht : s.Tidy) (closers : List JsString) :
    (closers.foldl release s).turn url =
      if url ∈ closers ∧ s.turn url = .asking .running then .asking .over else s.turn url := by
  induction closers generalizing s with
  | nil => simp
  | cons v closers ih =>
    rw [List.foldl_cons, ih (release_tidy ht v q), release_turn ht v]
    by_cases hrun : s.turn url = .asking .running
    · by_cases heq : url = v
      · have hover : RelayTurn.asking .over ≠ .asking .running := by decide
        simp [heq, heq ▸ hrun, hover]
      · simp [heq, hrun]
    · simp [hrun]

theorem foldl_release_frame (q : StatsQuery) (ht : s.Tidy) (closers : List JsString) :
    (closers.foldl release s).events = s.events ∧
    (closers.foldl release s).completedEarly = s.completedEarly ∧
    (closers.foldl release s).earlyClosers = s.earlyClosers := by
  induction closers generalizing s with
  | nil => exact ⟨rfl, rfl, rfl⟩
  | cons v closers ih =>
    obtain ⟨hevents, hearly, hclosers⟩ := ih (release_tidy ht v q)
    obtain ⟨hevents', hearly', hclosers'⟩ := release_frame ht v
    exact ⟨hevents.trans hevents', hearly.trans hearly', hclosers.trans hclosers'⟩

theorem maybeCompleteEarly_events (ht : s.Tidy) : (s.maybeCompleteEarly q).events = s.events := by
  unfold maybeCompleteEarly
  split_ifs
  · rfl
  · split
    · rfl
    · split_ifs
      · exact (foldl_release_frame (s := { s with completedEarly := true }) q ht _).1
      · rfl

/-- The relays that still connect are the same after the predicate was asked. -/
theorem maybeCompleteEarly_connecting (ht : s.Tidy) :
    (s.maybeCompleteEarly q).turn url = .connecting ↔ s.turn url = .connecting := by
  have hrelease : (s.earlyClosers.foldl release { s with completedEarly := true }).turn url =
      .connecting ↔ s.turn url = .connecting := by
    rw [foldl_release_turn (s := { s with completedEarly := true }) q ht]
    split_ifs with h
    · simp [show s.turn url = .asking .running from h.2]
    · exact Iff.rfl
  unfold maybeCompleteEarly
  split_ifs
  · exact Iff.rfl
  · split
    · exact Iff.rfl
    · split_ifs
      · exact hrelease
      · exact Iff.rfl

theorem Closable.maybeCompleteEarly (h : s.Closable) (ht : s.Tidy) :
    (s.maybeCompleteEarly q).Closable := by
  unfold QueryRun.maybeCompleteEarly
  split_ifs
  · exact h
  · split
    · exact h
    · split_ifs
      · have hnone (u : JsString) :
            (s.earlyClosers.foldl release { s with completedEarly := true }).turn u ≠
              .asking .running := by
          rw [foldl_release_turn (s := { s with completedEarly := true }) q ht]
          split_ifs with hrun
          · decide
          · exact fun hu => hrun ⟨h.closers u hu, hu⟩
        exact ⟨fun u hu => absurd hu (hnone u), fun _ => hnone⟩
      · exact h

/-- Where the predicate holds, asking it leaves no REQ running. -/
theorem Closable.none_running (h : s.Closable) (ht : s.Tidy) (hsat : Satisfied q s.events) :
    (s.maybeCompleteEarly q).turn url ≠ .asking .running := by
  obtain ⟨isComplete, hq, hcomplete⟩ := hsat
  have hclosable := h.maybeCompleteEarly (q := q) ht
  refine hclosable.quiet ?_ url
  unfold QueryRun.maybeCompleteEarly
  split_ifs with hearly
  · exact hearly
  · rw [hq]
    simp only [hcomplete, if_true]
    exact (foldl_release_frame (s := { s with completedEarly := true }) q ht _).2.1

theorem Closable.setTurn (h : s.Closable) {t : RelayTurn} (hturn : t ≠ .asking .running)
    (url : JsString) : (s.setTurn url t).Closable := by
  have hold {u : JsString} (hu : (s.setTurn url t).turn u = .asking .running) :
      s.turn u = .asking .running := by
    by_cases heq : u = url
    · subst heq
      rw [setTurn_self] at hu
      exact absurd hu hturn
    · rwa [setTurn_of_ne heq] at hu
  exact ⟨fun u hu => h.closers u (hold hu), fun hearly u hu => h.quiet hearly u (hold hu)⟩

theorem Closable.settle (h : s.Closable) (url : JsString) : (s.settle url).Closable := by
  have hset := h.setTurn (t := .asking .over) (by decide) url
  exact ⟨hset.closers, hset.quiet⟩

theorem Closable.giveUp (h : s.Closable) (url : JsString) : (s.giveUp url).Closable := by
  have hset := h.setTurn (t := .returned) (by decide) url
  exact ⟨hset.closers, hset.quiet⟩

theorem Closable.release (h : s.Closable) (ht : s.Tidy) (url : JsString) :
    (s.release url).Closable := by
  by_cases hrun : s.turn url = .asking .running
  · rw [release_running hrun]
    exact h.settle url
  · rw [release_idle hrun ht]
    exact h

theorem Closable.openReq (h : s.Closable) (hearly : s.completedEarly = false) (q : StatsQuery)
    (url : JsString) : (s.openReq q url).Closable := by
  constructor
  · intro u hu
    by_cases heq : u = url
    · subst heq
      exact List.mem_append_right _ List.mem_cons_self
    · have hold : s.turn u = .asking .running := by
        rw [← setTurn_of_ne heq]
        exact hu
      exact List.mem_append_left _ (h.closers u hold)
  · intro hcontra
    rw [show (s.openReq q url).completedEarly = s.completedEarly from rfl, hearly] at hcontra
    cases hcontra

/-- The REQs that run can always be closed early. -/
theorem step_closable {a : QueryAction} (h : s.Closable) (hacc : Accounted q base s)
    (hs : step q s a = some s') : s'.Closable := by
  have ht := hacc.tidy
  cases a with
  | connected url =>
    simp only [step] at hs
    split_ifs at hs with hc
    obtain rfl := Option.some.inj hs
    unfold connected
    split_ifs with hearly
    · exact h.giveUp url
    · exact (h.openReq (by simpa using hearly) q url).maybeCompleteEarly
        ((Move.openReq hc.1 hc.2).tidy ht)
  | failed url =>
    simp only [step] at hs
    split_ifs at hs
    obtain rfl := Option.some.inj hs
    exact h.giveUp url
  | event url event =>
    simp only [step] at hs
    split at hs
    · obtain rfl := Option.some.inj hs
      unfold onevent
      dsimp only
      split_ifs
      · exact ⟨h.closers, h.quiet⟩
      · have hkeep : ((s.note [.event url event]).keep event).Closable := ⟨h.closers, h.quiet⟩
        exact hkeep.maybeCompleteEarly ht
    all_goals cases hs
  | eose url =>
    simp only [step] at hs
    split at hs
    · obtain rfl := Option.some.inj hs
      unfold oneose
      dsimp only
      split_ifs
      · have hnote : (s.note [.eose url]).Closable := ⟨h.closers, h.quiet⟩
        exact hnote.release ht url
      · have hnote : Closable { s.note [.eose url] with eoseCount := s.eoseCount + 1 } :=
          ⟨h.closers, h.quiet⟩
        exact hnote.release ht url
    all_goals cases hs
  | closed url =>
    obtain ⟨-, rfl⟩ := step_closed ht hs
    exact h.settle url
  | deadline url =>
    simp only [step] at hs
    split at hs
    · split_ifs at hs
      obtain rfl := Option.some.inj hs
      exact h.release ht url
    all_goals cases hs

/-! ### When the query is over in time -/

/-- Only an event that is new changes what the query has received. -/
theorem step_events {a : QueryAction} (hacc : Accounted q base s) (hs : step q s a = some s') :
    s'.events = s.events ∨
      ∃ url event, a = .event url event ∧ event.id ∉ s.knownIds ∧
        s' = ((s.note [.event url event]).keep event).maybeCompleteEarly q := by
  have ht := hacc.tidy
  cases a with
  | connected url =>
    simp only [step] at hs
    split_ifs at hs with hc
    obtain rfl := Option.some.inj hs
    left
    unfold connected
    split_ifs
    · rfl
    · exact maybeCompleteEarly_events ((Move.openReq hc.1 hc.2).tidy ht)
  | failed url =>
    simp only [step] at hs
    split_ifs at hs
    obtain rfl := Option.some.inj hs
    exact .inl rfl
  | event url event =>
    simp only [step] at hs
    split at hs
    · obtain rfl := Option.some.inj hs
      unfold onevent
      dsimp only
      split_ifs with he
      · exact .inl rfl
      · exact .inr ⟨url, event, rfl, he, rfl⟩
    all_goals cases hs
  | eose url =>
    simp only [step] at hs
    split at hs
    · obtain rfl := Option.some.inj hs
      left
      unfold oneose
      dsimp only
      split_ifs
      · exact (release_frame (s := s.note [.eose url]) ht url).1
      · exact (release_frame (s := { s.note [.eose url] with eoseCount := s.eoseCount + 1 })
          ht url).1
    all_goals cases hs
  | closed url =>
    obtain ⟨-, rfl⟩ := step_closed ht hs
    exact .inl rfl
  | deadline url =>
    simp only [step] at hs
    split at hs
    · split_ifs at hs
      obtain rfl := Option.some.inj hs
      exact .inl (release_frame ht url).1
    all_goals cases hs

theorem prompt_iff (h : Accounted q base s) :
    Prompt q s ↔ (Satisfied q s.events → s.Resolved q) :=
  imp_congr_right fun _ => h.ended_iff

/-- Where a new event satisfies the query, it resolves when no relay still connects. -/
theorem Closable.resolved_iff (h : s.Closable) (ht : s.Tidy) (hsat : Satisfied q s.events) :
    (s.maybeCompleteEarly q).Resolved q ↔ ∀ u ∈ q.relays, s.turn u ≠ .connecting := by
  have htidy : (s.maybeCompleteEarly q).Tidy := (maybeCompleteEarly_moves ht).tidy ht
  refine forall₂_congr fun u _ => ?_
  rw [Ne, ← maybeCompleteEarly_connecting (q := q) ht]
  have hrunning : (s.maybeCompleteEarly q).turn u ≠ .asking .running := h.none_running ht hsat
  cases hturn : (s.maybeCompleteEarly q).turn u with
  | connecting | returned => simp [RelayTurn.isDecided]
  | asking req =>
    rcases htidy u req hturn with rfl | rfl
    · exact absurd hturn hrunning
    · simp [RelayTurn.isDecided, RelayReq.over]

theorem step_prompt {a : QueryAction} (h : s.Closable) (hacc : Accounted q base s)
    (hp : Prompt q s) (hs : step q s a = some s') : Prompt q s' ↔ NoneConnecting q s a := by
  have hmoves := step_moves hacc.tidy hs
  rw [prompt_iff (hacc.moves hmoves)]
  rcases step_events hacc hs with hevents | ⟨url, event, rfl, hid, rfl⟩
  · have hleft : Satisfied q s'.events → s'.Resolved q := by
      rw [hevents]
      exact fun hsat => hmoves.resolved (hp hsat).resolved
    refine iff_of_true hleft ?_
    cases a with
    | event url event =>
      intro hid hsat
      -- the event is not new, since it would have been received
      have hnew : s'.events = s.events ++ [event] := by
        simp only [step] at hs
        split at hs
        · obtain rfl := Option.some.inj hs
          unfold onevent
          dsimp only
          rw [if_neg (by exact hid)]
          exact maybeCompleteEarly_events (s := (s.note [.event url event]).keep event) hacc.tidy
        all_goals cases hs
      have hcontra := congrArg List.length (hevents.symm.trans hnew)
      simp at hcontra
    | connected | failed | eose | closed | deadline => trivial
  · have hclosable : ((s.note [.event url event]).keep event).Closable := ⟨h.closers, h.quiet⟩
    have htidy : ((s.note [.event url event]).keep event).Tidy := hacc.tidy
    have hreceived : ((s.note [.event url event]).keep event).events = s.events ++ [event] := rfl
    rw [maybeCompleteEarly_events htidy, hreceived]
    constructor
    · intro hres _ hsat
      exact (hclosable.resolved_iff htidy (by exact hsat)).mp (hres hsat)
    · intro hnone hsat
      exact (hclosable.resolved_iff htidy (by exact hsat)).mpr (hnone hid hsat)

theorem prompt_init (q : StatsQuery) (base : RelayReqStats) :
    Prompt q (init base) ↔ (Satisfied q [] → q.relays = []) := by
  rw [prompt_iff (accounted_init q base)]
  refine imp_congr_right fun _ => ?_
  rw [List.eq_nil_iff_forall_not_mem]
  refine forall_congr' fun u => imp_congr_right fun _ => ?_
  simp [init, RelayTurn.isDecided]

end QueryRun

open QueryRun

/-- A query is over as soon as the events received satisfy it, all along a run, exactly when the event
that does so arrives while no relay still connects. -/
theorem earlyCompletion_prompt_iff (q : StatsQuery) (base : RelayReqStats)
    {as : List QueryAction} {s : QueryRun} (hr : run (step q) (init base) as = some s) :
    (∀ as₁ as₂ m, as = as₁ ++ as₂ → run (step q) (init base) as₁ = some m → Prompt q m) ↔
      (Satisfied q [] → q.relays = []) ∧ Guarded (step q) (NoneConnecting q) (init base) as := by
  let inv (m : QueryRun) : Prop := Accounted q base m ∧ m.Closable
  have hinit : inv (init base) := by
    refine ⟨accounted_init q base, ?_, ?_⟩
    · intro url h
      cases h
    · intro h
      cases h
  have hinv : ∀ m a m', inv m → step q m a = some m' → inv m' := fun m a m' h hs =>
    ⟨h.1.moves (step_moves h.1.tidy hs), step_closable h.2 h.1 hs⟩
  have hstep : ∀ m a m', inv m → Prompt q m → step q m a = some m' →
      (Prompt q m' ↔ NoneConnecting q m a) := fun m a m' h hp hs => step_prompt h.2 h.1 hp hs
  have hexact (hp : Prompt q (init base)) := guarded_iff_forall_prefix hinv hstep hinit hp hr
  rw [← prompt_init q base]
  constructor
  · intro h
    have hp := h [] as _ rfl rfl
    exact ⟨hp, (hexact hp).mp h⟩
  · rintro ⟨hp, hg⟩
    exact (hexact hp).mpr hg

/-- Two relays, and any event is enough. -/
abbrev demoAnyEvent : StatsQuery :=
  .ofUrls (fun _ => false) [demoRelayUrl 1, demoRelayUrl 2] [] (some fun events => !events.isEmpty)

/-- The first relay delivers while the other one is still connecting. -/
abbrev demoConnecting : List QueryAction :=
  [.connected (demoRelayUrl 1), .event (demoRelayUrl 1) (demoQueryEvent 1)]

theorem earlyCompletion_prompt_iff_example : ∃ s,
    run (step demoAnyEvent) (init ⟨.empty, .empty⟩) demoConnecting = some s ∧
    ((∀ as₁ as₂ m, demoConnecting = as₁ ++ as₂ →
        run (step demoAnyEvent) (init ⟨.empty, .empty⟩) as₁ = some m → Prompt demoAnyEvent m) ↔
      (Satisfied demoAnyEvent [] → demoAnyEvent.relays = []) ∧
        Guarded (step demoAnyEvent) (NoneConnecting demoAnyEvent) (init ⟨.empty, .empty⟩)
          demoConnecting) := by
  have hsome : (run (step demoAnyEvent) (init ⟨.empty, .empty⟩) demoConnecting).isSome = true := by
    decide +kernel
  obtain ⟨s, hs⟩ := Option.isSome_iff_exists.mp hsome
  exact ⟨s, hs, earlyCompletion_prompt_iff demoAnyEvent ⟨.empty, .empty⟩ hs⟩

/-- A query that is satisfied waits for the connection of a relay. -/
theorem earlyCompletion_waits_for_connection : ¬∀ (q : StatsQuery) (base : RelayReqStats)
    (as : List QueryAction) (s : QueryRun), run (step q) (init base) as = some s → Prompt q s := by
  intro h
  have hsome : ((run (step demoAnyEvent) (init ⟨.empty, .empty⟩) demoConnecting).map fun s =>
      (s.events, s.turn (demoRelayUrl 2))) = some ([demoQueryEvent 1], .connecting) := by
    decide +kernel
  obtain ⟨s, hs, hvalue⟩ := Option.map_eq_some_iff.mp hsome
  obtain ⟨hevents, hturn⟩ := Prod.mk.inj hvalue
  have hsat : Satisfied demoAnyEvent s.events := ⟨_, rfl, by rw [hevents]; decide⟩
  have hdecided := (h _ _ _ _ hs hsat).resolved (demoRelayUrl 2) (by decide)
  rw [hturn] at hdecided
  cases hdecided

end LivelierBridge.Nostr
