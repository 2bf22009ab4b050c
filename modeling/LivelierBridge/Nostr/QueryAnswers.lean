import LivelierBridge.Nostr.QueryAccounting

namespace LivelierBridge.Nostr

open Framework Js

/-- The mark is of something that a relay sent. -/
def QueryMark.isSent : QueryMark → Bool
  | .event _ _ | .eose _ => true
  | .opened _ | .closed _ | .decided _ => false

/-- What a relay sends in an action -/
def QueryAction.sends : QueryAction → List QueryMark
  | .event url e => [.event url e]
  | .eose url => [.eose url]
  | .connected _ | .failed _ | .closed _ | .deadline _ => []

namespace QueryRun

variable {q : StatsQuery} {base : RelayReqStats} {s s' : QueryRun} {url : JsString}

/-- What the relays have sent, in order -/
def sent (s : QueryRun) : List QueryMark := s.log.filter QueryMark.isSent

section Sent

@[simp] theorem sent_setTurn (turn : RelayTurn) : (s.setTurn url turn).sent = s.sent := rfl

@[simp] theorem sent_note (marks : List QueryMark) :
    (s.note marks).sent = s.sent ++ marks.filter QueryMark.isSent :=
  List.filter_append ..

@[simp] theorem sent_giveUp : (s.giveUp url).sent = s.sent := by
  simp [giveUp, QueryMark.isSent]

@[simp] theorem sent_finish : (s.finish url).sent = s.sent := by
  unfold finish
  cases s.turn url with
  | connecting | returned => rfl
  | asking req =>
    by_cases h : req.settled = true
    · simp [h]
    · simp only [if_neg h, sent_note]
      exact List.append_nil _

@[simp] theorem sent_closeSub : (s.closeSub url).sent = s.sent := by
  unfold closeSub
  cases s.turn url with
  | connecting | returned => rfl
  | asking req =>
    by_cases h : req.closed = true
    · simp [h]
    · simp [if_neg h]

@[simp] theorem sent_release : (s.release url).sent = s.sent := by
  simp [release]

theorem sent_foldl_release (closers : List JsString) :
    (closers.foldl release s).sent = s.sent := by
  induction closers generalizing s with
  | nil => rfl
  | cons url closers ih => simp [ih]

@[simp] theorem sent_maybeCompleteEarly : (s.maybeCompleteEarly q).sent = s.sent := by
  unfold maybeCompleteEarly
  split
  · rfl
  split
  · rfl
  split
  · exact sent_foldl_release _
  · rfl

@[simp] theorem sent_keep (event : Event) : (s.keep event).sent = s.sent := rfl

@[simp] theorem sent_connected : (s.connected q url).sent = s.sent := by
  unfold connected
  split
  · simp
  · have hopen : (s.openReq q url).sent = s.sent := by
      unfold openReq
      rw [sent_note]
      exact List.append_nil _
    simp [hopen]

@[simp] theorem sent_onevent (event : Event) :
    (s.onevent q url event).sent = s.sent ++ [.event url event] := by
  unfold onevent
  dsimp only
  split <;> simp [QueryMark.isSent]

@[simp] theorem sent_oneose (req : RelayReq) : (s.oneose url req).sent = s.sent ++ [.eose url] := by
  have hnote : (s.note [.eose url]).sent = s.sent ++ [.eose url] := by simp [QueryMark.isSent]
  unfold oneose
  rw [sent_release, ← hnote]
  split <;> rfl

/-- A step notes what the relay sends in it. -/
theorem step_sent {a : QueryAction} (hs : step q s a = some s') : s'.sent = s.sent ++ a.sends := by
  cases a with
  | connected url | failed url =>
    simp only [step] at hs
    split at hs
    · obtain rfl := Option.some.inj hs
      simp [QueryAction.sends]
    · cases hs
  | event url event =>
    simp only [step] at hs
    split at hs
    · obtain rfl := Option.some.inj hs
      simp [QueryAction.sends]
    all_goals cases hs
  | eose url =>
    simp only [step] at hs
    split at hs
    · obtain rfl := Option.some.inj hs
      simp [QueryAction.sends]
    all_goals cases hs
  | closed url =>
    simp only [step] at hs
    split at hs
    · split at hs
      · cases hs
      · obtain rfl := Option.some.inj hs
        simp [QueryAction.sends]
    all_goals cases hs
  | deadline url =>
    simp only [step] at hs
    split at hs
    · split at hs
      · obtain rfl := Option.some.inj hs
        simp [QueryAction.sends]
      · cases hs
    all_goals cases hs

theorem run_sent {as : List QueryAction} (hr : run (step q) (init base) as = some s) :
    s.sent = as.flatMap QueryAction.sends := by
  induction as using List.reverseRecOn generalizing s with
  | nil =>
    obtain rfl := Option.some.inj hr
    rfl
  | append_singleton as a ih =>
    obtain ⟨t, ht, hlast⟩ := run_append_eq_some.mp hr
    obtain ⟨t', hs, hend⟩ := run_cons_eq_some.mp hlast
    obtain rfl := Option.some.inj hend
    rw [step_sent hs, ih ht]
    simp

end Sent

/-- Only relays of the query take part in it. -/
theorem Move.relays (h : Move q s s') (ha : Accounted q base s)
    (hl : ∀ m ∈ s.log, m.relay ∈ q.relays) : ∀ m ∈ s'.log, m.relay ∈ q.relays := by
  have hnote {u : JsString} {marks : List QueryMark} (hr : u ∈ q.relays)
      (hm : ∀ m ∈ marks, m.relay = u) : ∀ m ∈ s.log ++ marks, m.relay ∈ q.relays := by
    intro m h
    rcases List.mem_append.mp h with h | h
    · exact hl m h
    · rw [hm m h]
      exact hr
  cases h with
  | giveUp hr | openReq hr => exact hnote hr (by simp [QueryMark.relay])
  | repeated ht | kept ht | late ht => exact hnote (ha.mem_relays ht) (by simp [QueryMark.relay])
  | settled ht => exact hnote (ha.mem_relays ht) (by simp [QueryMark.relay])
  | @answered u ht =>
    have hmarks : ∀ m ∈ [QueryMark.eose u, .closed u, .decided u], m.relay = u := by
      simp [QueryMark.relay]
    have hlog := hnote (ha.mem_relays ht) hmarks
    intro m hm
    apply hlog m
    simpa [settle, note, setTurn] using hm
  | complete => exact hl

theorem run_relays {as : List QueryAction} (hr : run (step q) (init base) as = some s) :
    ∀ m ∈ s.log, m.relay ∈ q.relays := by
  have hmoves {t t' : QueryRun} (h : Moves q t t') (ha : Accounted q base t)
      (hl : ∀ m ∈ t.log, m.relay ∈ q.relays) :
      Accounted q base t' ∧ ∀ m ∈ t'.log, m.relay ∈ q.relays := by
    induction h with
    | refl => exact ⟨ha, hl⟩
    | tail _ hm ih => exact ⟨ih.1.move hm, hm.relays ih.1 ih.2⟩
  have hinit : Accounted q base (init base) ∧ ∀ m ∈ (init base).log, m.relay ∈ q.relays :=
    ⟨accounted_init q base, fun _ hm => absurd hm List.not_mem_nil⟩
  have hstep : ∀ t a t', (Accounted q base t ∧ ∀ m ∈ t.log, m.relay ∈ q.relays) →
      step q t a = some t' → Accounted q base t' ∧ ∀ m ∈ t'.log, m.relay ∈ q.relays :=
    fun t a t' ht hs => hmoves (step_moves ht.1.tidy hs) ht.1 ht.2
  exact (run_invariant_all hstep hinit hr).2

/-! ### What it returns -/

/-- A relay that is asked sends events that it holds, and all of them before its EOSE. -/
structure Answers (holds : JsString → List Event) (as : List QueryAction) : Prop where
  sound : ∀ url event, .event url event ∈ as → event ∈ holds url
  complete : ∀ before after url, as = before ++ .eose url :: after →
    ∀ event ∈ holds url, .event url event ∈ before

variable {as : List QueryAction} {m : QueryMark}

/-- What is noted of a relay, it has sent. -/
theorem mem_log_iff (hr : run (step q) (init base) as = some s) (hm : m.isSent = true) :
    m ∈ s.log ↔ ∃ a ∈ as, m ∈ a.sends := by
  have hsent : m ∈ s.sent ↔ m ∈ s.log := by simp [sent, hm]
  rw [← hsent, run_sent hr, List.mem_flatMap]

theorem event_mem_log_iff {event : Event} (hr : run (step q) (init base) as = some s) :
    .event url event ∈ s.log ↔ .event url event ∈ as := by
  rw [mem_log_iff hr rfl]
  constructor
  · rintro ⟨a, ha, hm⟩
    cases a <;> simp [QueryAction.sends] at hm
    obtain ⟨rfl, rfl⟩ := hm
    exact ha
  · exact fun h => ⟨_, h, List.mem_singleton_self _⟩

theorem eose_mem_of_log (hr : run (step q) (init base) as = some s) (h : .eose url ∈ s.log) :
    .eose url ∈ as := by
  obtain ⟨a, ha, hm⟩ := (mem_log_iff hr rfl).mp h
  cases a <;> simp [QueryAction.sends] at hm
  exact hm ▸ ha

theorem mem_delivered {log : List QueryMark} {event : Event} :
    event ∈ delivered log ↔ ∃ url, .event url event ∈ log := by
  simp only [delivered, List.mem_filterMap]
  constructor
  · rintro ⟨m, hm, heq⟩
    cases m <;> simp at heq
    exact ⟨_, heq ▸ hm⟩
  · rintro ⟨url, h⟩
    exact ⟨_, h, rfl⟩

/-- A query returns what its relays hold, and all that one of them holds when an EOSE is counted. -/
theorem returned_held {holds : JsString → List Event}
    (hr : run (step q) (init base) as = some s) (h : Answers holds as) :
    (∀ event ∈ s.events, ∃ url ∈ q.relays, event ∈ holds url) ∧
    (0 < s.eoseCount → ∃ url ∈ q.relays, ∀ event ∈ holds url, ∃ e ∈ s.events, e.id = event.id) := by
  have hbalanced := (accounted_run hr).balanced
  refine ⟨fun event he => ?_, fun hcount => ?_⟩
  · obtain ⟨url, hlog⟩ := mem_delivered.mp (hbalanced.received event he)
    exact ⟨url, run_relays hr _ hlog, h.sound url event ((event_mem_log_iff hr).mp hlog)⟩
  · rw [hbalanced.eoseCount, List.countP_pos_iff] at hcount
    obtain ⟨url, hurl, hfirst⟩ := hcount
    have hlog : .eose url ∈ s.log := (List.takeWhile_sublist _).mem (of_decide_eq_true hfirst)
    obtain ⟨before, after, has⟩ := List.append_of_mem (eose_mem_of_log hr hlog)
    refine ⟨url, hurl, fun event he => ?_⟩
    have hmem : .event url event ∈ as := by
      rw [has]
      exact List.mem_append_left _ (h.complete before after url has event he)
    exact hbalanced.kept event (mem_delivered.mpr ⟨url, (event_mem_log_iff hr).mpr hmem⟩)

end QueryRun

end LivelierBridge.Nostr
