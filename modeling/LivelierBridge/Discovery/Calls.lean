import LivelierBridge.Discovery.Passes

namespace LivelierBridge.Discovery

open Framework Js

variable {ν : Type}

/-- The calls that are made for a listed instance. -/
inductive LiveCall (E : Engine) (inst : DiscoveredLive ν) (A : LiveAnswers ν) : Call ν → Prop
  | count (metric : Metric) : LiveCall E inst A (.count metric)
  | probe : LiveCall E inst A (.checkLiveness inst.streamUrl)
  | profile {signer : JsString} (hs : E.signerFor inst.url = some signer) :
      LiveCall E inst A (.publishProfile signer (E.seenProfile inst) E.profileWriteRelays
        A.profile.profile)
  | relayList {signer : JsString} (hs : E.signerFor inst.url = some signer) :
      LiveCall E inst A (.publishRelayList signer E.eventRelayUrl E.chatRelayUrl
        E.profileWriteRelays A.profile.relayList)
  | poll {liveness : Liveness} (hl : A.liveness = some liveness)
      (hlive : Engine.statusOf liveness = .live) : LiveCall E inst A (.fetchViewerCount inst.url)
  | event {signer : JsString} (hs : E.signerFor inst.url = some signer) (dTag : JsString)
      (row : InstanceRow ν) (status : Status) (polled : Option (Option ν)) :
      LiveCall E inst A (.publishLiveEvent (E.discoveredEvent inst signer dTag row status polled)
        A.publish)

/-- The calls that the manual pass makes for a row. -/
inductive ManualCall (E : Engine) (url : JsString) (row : InstanceRow ν) (A : ManualAnswers ν) :
    Call ν → Prop
  | count (metric : Metric) : ManualCall E url row A (.count metric)
  | probe : ManualCall E url row A (.checkLiveness row.hlsUrl)
  | profile {signer : JsString} (hs : E.signerFor url = some signer) :
      ManualCall E url row A (.publishProfile signer (E.rowProfile url row) E.profileWriteRelays
        A.profile.profile)
  | relayList {signer : JsString} (hs : E.signerFor url = some signer) :
      ManualCall E url row A (.publishRelayList signer E.eventRelayUrl E.chatRelayUrl
        E.profileWriteRelays A.profile.relayList)
  | poll (hl : A.liveness = some .live) (hs : (E.signerFor url).isSome = true) :
      ManualCall E url row A (.fetchViewerCount url)
  | event (starts : Int) (participants : Option ν) :
      ManualCall E url row A (.publishLiveEvent (E.rowEvent url row starts .live participants)
        A.publish)

/-- The calls that the last pass makes for a row. -/
inductive ReconcileCall (E : Engine) (url : JsString) (row : InstanceRow ν)
    (A : ReconcileAnswers) : Call ν → Prop
  | count (metric : Metric) : ReconcileCall E url row A (.count metric)
  | probe : ReconcileCall E url row A (.checkLiveness row.hlsUrl)
  | event (starts : Int) :
      ReconcileCall E url row A (.publishLiveEvent (E.rowEvent url row starts .ended none)
        A.publish)

/-- The calls that a cycle makes for a url, each by the pass that it falls to. -/
inductive CycleCall (E : Engine) (c : Cycle ν) (url : JsString) : Call ν → Prop
  | listed {e : DiscoveredLive ν × LiveAnswers ν} (he : c.listing url = some e) {x : Call ν}
      (h : LiveCall E e.1 e.2 x) : CycleCall E c url x
  | manual (hn : c.listing url = none) (row : InstanceRow ν) {x : Call ν}
      (h : ManualCall E url row (c.manual url) x) : CycleCall E c url x
  | reconciled (hn : c.listing url = none) (row : InstanceRow ν) {x : Call ν}
      (h : ReconcileCall E url row (c.reconcile url) x) : CycleCall E c url x

section Jobs

variable {P : Call ν → Prop} {E : Engine}

theorem logs_update (stored : Bool) (fields : InstanceRow ν → InstanceRow ν) :
    Faulty.Logs P (update stored fields) :=
  (Faulty.logs_await _).bind fun _ => Faulty.logs_modify _

theorem logs_countRejected (hcount : ∀ metric, P (.count metric)) (results : RelayResults) :
    Faulty.Logs P (countRejected results : Local ν Unit) :=
  (Faulty.logs_pure ()).ite (Faulty.logs_tell (hcount _))

/-- A call whose answer is awaited. -/
theorem logs_call {α : Type} {x : Call ν} (h : P x) {answer : Option α} {f : α → Local ν Unit}
    (hf : ∀ a, answer = some a → Faulty.Logs P (f a)) :
    Faulty.Logs P ((do Faulty.tell x; Faulty.await answer : Local ν α) >>= f) := by
  have htell : Faulty.Logs P (do Faulty.tell x; Faulty.await answer : Local ν α) :=
    (Faulty.logs_tell h).bind fun _ => Faulty.logs_await _
  cases answer with
  | none => exact fun t w hw => htell t w hw
  | some a =>
    intro t w hw
    rcases List.mem_cons.mp hw with rfl | hw
    · exact h
    · exact hf a rfl t w hw

theorem logs_maybePublishProfile (hcount : ∀ metric, P (.count metric))
    {signer name description picture website : JsString} {A : ProfileAnswers}
    (hprofile : P (.publishProfile signer ⟨name, description, picture, website, E.sourceName⟩
      E.profileWriteRelays A.profile))
    (hlist : P (.publishRelayList signer E.eventRelayUrl E.chatRelayUrl E.profileWriteRelays
      A.relayList)) (row : InstanceRow ν) :
    Faulty.Logs P
      (E.maybePublishProfile signer name description picture website row A) := by
  unfold Engine.maybePublishProfile
  refine (Faulty.logs_pure ()).ite ((Faulty.logs_tell hprofile).bind fun _ => ?_)
  refine (Faulty.logs_await _).bind fun result => (Faulty.logs_tell (hcount _)).bind fun _ => ?_
  refine (logs_countRejected hcount result).bind fun _ => (Faulty.logs_tell hlist).bind fun _ => ?_
  refine (Faulty.logs_await _).bind fun listed => ?_
  exact (logs_countRejected hcount listed).bind fun _ => logs_update _ _

/-- A live event and what records it -/
theorem logs_event {input : LivePublishInput ν} {answer : Option RelayResults}
    (h : P (.publishLiveEvent input answer)) {f : RelayResults → Local ν Unit}
    (hf : ∀ results, Faulty.Logs P (f results)) :
    Faulty.Logs P (publishLiveEvent input answer >>= f) :=
  logs_call h fun results _ => hf results

variable [DecidableEq ν]

theorem processLive_calls (E : Engine) (inst : DiscoveredLive ν) (A : LiveAnswers ν) :
    Faulty.Logs (LiveCall E inst A) (E.processLive inst A) := by
  unfold Engine.processLive
  refine Faulty.Logs.await_bind fun signer hs => Faulty.Logs.await_bind fun dTag _ => ?_
  refine Faulty.Logs.bind ?_ fun seen => ?_
  · refine (Faulty.logs_await _).bind fun now => Faulty.logs_get.bind fun slot => ?_
    exact (Faulty.logs_modify _).bind fun _ => Faulty.logs_pure _
  unfold Engine.processSeen
  refine Faulty.Logs.bind (Faulty.Logs.ite (Faulty.logs_tell (.count _)) (Faulty.logs_pure ()))
    fun _ => ?_
  refine Faulty.Logs.ite (Faulty.logs_tell (.count _)) ?_
  refine logs_call .probe fun liveness hl => (Faulty.logs_tell (.count _)).bind fun _ => ?_
  refine (logs_maybePublishProfile .count (.profile hs) (.relayList hs) _).bind fun _ => ?_
  refine Faulty.Logs.bind ?_ fun polled => ?_
  · unfold Engine.pollViewers
    split
    · rename_i hlive
      exact (Faulty.logs_tell (.poll hl hlive)).bind fun _ => Faulty.logs_await _
    · exact Faulty.logs_pure _
  unfold Engine.publishLive
  refine Faulty.Logs.ite (logs_event (.event hs dTag _ _ _) fun results => ?_) (logs_update _ _)
  refine (Faulty.logs_tell (.count _)).bind fun _ => ?_
  exact (logs_countRejected .count results).bind fun _ => logs_update _ _

theorem processManualRow_calls (E : Engine) (url : JsString) (row : InstanceRow ν)
    (A : ManualAnswers ν) :
    Faulty.Logs (ManualCall E url row A) (E.processManualRow url row A) := by
  unfold Engine.processManualRow
  refine Faulty.logs_get.bind fun slot => ?_
  refine Faulty.Logs.ite (Faulty.logs_pure ()) (Faulty.Logs.ite (Faulty.logs_tell (.count _)) ?_)
  refine logs_call .probe fun liveness hl => ?_
  split
  · exact Faulty.logs_pure ()
  rename_i hlive
  obtain rfl : liveness = .live := Classical.not_not.mp hlive
  refine (Faulty.logs_tell (.count _)).bind fun _ => (Faulty.logs_modify _).bind fun _ => ?_
  unfold Engine.processLiveManual
  refine Faulty.Logs.await_bind fun signer hs => ?_
  refine (logs_maybePublishProfile .count (.profile hs) (.relayList hs) _).bind fun _ => ?_
  refine logs_call (.poll hl (by rw [hs]; rfl)) fun polled _ => ?_
  unfold Engine.publishManual
  refine Faulty.Logs.ite (logs_update _ _) (logs_event (.event _ _) fun results => ?_)
  refine (Faulty.logs_tell (.count _)).bind fun _ => ?_
  exact (logs_countRejected .count results).bind fun _ => logs_update _ _

omit [DecidableEq ν] in
theorem reconcileRow_calls (E : Engine) (url : JsString) (row : InstanceRow ν)
    (A : ReconcileAnswers) :
    Faulty.Logs (ReconcileCall E url row A) (E.reconcileRow url row A) := by
  unfold Engine.reconcileRow
  refine Faulty.logs_get.bind fun slot => ?_
  refine Faulty.Logs.ite (Faulty.logs_pure ()) (Faulty.Logs.ite (Faulty.logs_pure ()) ?_)
  refine logs_call .probe fun liveness _ => ?_
  refine Faulty.Logs.ite (logs_update _ _) (Faulty.Logs.ite (logs_update _ _) ?_)
  unfold Engine.publishEnded
  refine logs_event (.event _) fun results => ?_
  refine (logs_countRejected .count results).bind fun _ => ?_
  exact (Faulty.logs_tell (.count _)).bind fun _ => logs_update _ _

end Jobs

section Cycle

variable [DecidableEq ν] {E : Engine} {c : Cycle ν} {url : JsString}

omit [DecidableEq ν] in
/-- What the jobs of a pass over stored rows call -/
theorem forRows_calls {answer : Option (JsString → Nat)} {p : InstanceRow ν → Bool}
    {job : JsString × InstanceRow ν → Local ν Unit} {P : JsString → InstanceRow ν → Call ν → Prop}
    (h : ∀ url row, Faulty.Logs (P url row) (job (url, row))) {w : Work ν} {x : Call ν}
    (hx : x ∈ Keyed.logOf url (Engine.forRows answer p job w).log) : ∃ row, P url row x := by
  rcases forRows_ran answer p job w url with ⟨-, hlog⟩ | ⟨row, -, -, -, hlog⟩
  · rw [hlog] at hx
    cases hx
  · rw [hlog] at hx
    exact ⟨row, h url row _ x hx⟩

/-- What the first pass calls for a url is what it calls for its listing. -/
theorem livePass_calls (hn : (c.live.map fun e => e.1.url).Nodup) {w : Work ν} {x : Call ν}
    (hx : x ∈ Keyed.logOf url (Keyed.runJobs (c.live.map E.liveJob) w).log) :
    CycleCall E c url x := by
  have hlogs : Faulty.Logs (fun entry => CycleCall E c entry.1 entry.2)
      (Keyed.runJobs (c.live.map E.liveJob) : Engine.CycleM ν Unit) := by
    apply Keyed.logs_runJobs
    intro job hjob
    obtain ⟨e, he, rfl⟩ := List.mem_map.mp hjob
    intro t x hx
    exact .listed (Cycle.listing_of_mem hn he) (processLive_calls E e.1 e.2 _ x hx)
  exact hlogs w _ (Keyed.mem_of_mem_logOf hx)

theorem manualPass_calls {w : Work ν}
    (h : c.listing url = none ∨ (w.slot url).inLiveUrls = true) {x : Call ν}
    (hx : x ∈ Keyed.logOf url (E.processManualRows c w).log) : CycleCall E c url x := by
  rcases h with hn | hfound
  · obtain ⟨row, hcall⟩ := forRows_calls (P := fun url row => ManualCall E url row (c.manual url))
      (fun url row => processManualRow_calls E url row (c.manual url)) hx
    exact .manual hn row hcall
  · rw [(manualPass_idle E hfound).2] at hx
    cases hx

omit [DecidableEq ν] in
theorem reconcilePass_calls {w : Work ν}
    (h : c.listing url = none ∨ (w.slot url).inLiveUrls = true) {x : Call ν}
    (hx : x ∈ Keyed.logOf url (E.reconcileDisappeared c w).log) : CycleCall E c url x := by
  rcases h with hn | hfound
  · obtain ⟨row, hcall⟩ := forRows_calls
      (P := fun url row => ReconcileCall E url row (c.reconcile url))
      (fun url row => reconcileRow_calls E url row (c.reconcile url)) hx
    exact .reconciled hn row hcall
  · rw [(reconcilePass_idle E hfound).2] at hx
    cases hx

/-- Each call of a cycle is one that the pass makes to which its url falls. -/
theorem passes_calls (hn : (c.live.map fun e => e.1.url).Nodup) {w : Work ν}
    (hslot : (w.slot url).inLiveUrls = false) {x : Call ν}
    (hx : x ∈ Keyed.logOf url (E.passes c c.live w).log) : CycleCall E c url x := by
  have hw : w.slot url = ⟨(w.slot url).row, false⟩ := by rw [← hslot]
  have hthen := (livePass_turn E hn hw).2
  unfold Engine.passes at hx
  revert hx
  apply Faulty.bind_rule (P := fun o : Outcome (Work ν) (JsString × Call ν) Unit =>
    x ∈ Keyed.logOf url o.log → CycleCall E c url x)
  · intro _ hx
    exact livePass_calls hn hx
  intro _ hv hx
  have hfound : c.listing url = none ∨ (Work.slot _ url).inLiveUrls = true :=
    (hthen hv).imp_left And.left
  rw [Keyed.logOf_append] at hx
  rcases List.mem_append.mp hx with hx | hx
  · exact livePass_calls hn hx
  revert hx
  apply Faulty.bind_rule (P := fun o : Outcome (Work ν) (JsString × Call ν) Unit =>
    x ∈ Keyed.logOf url o.log → CycleCall E c url x)
  · intro _ hx
    exact manualPass_calls hfound hx
  intro _ _ hx
  rw [Keyed.logOf_append] at hx
  rcases List.mem_append.mp hx with hx | hx
  · exact manualPass_calls hfound hx
  · refine reconcilePass_calls (hfound.imp_right fun hf => ?_) hx
    rw [(manualPass_idle E (c := c) hf).1]
    exact hf

theorem runCycle_calls (hn : (c.live.map fun e => e.1.url).Nodup) (s : DiscoveryState ν)
    {x : Call ν} (hx : x ∈ Keyed.logOf url (E.runCycle c s).cycleLog) : CycleCall E c url x := by
  rcases E.runCycle_cases c s with ⟨-, hrun⟩ | ⟨fetched, hf, -, -, hlog⟩
  · rw [hrun] at hx
    cases hx
  · have hlive : c.live = fetched.live := by simp [Cycle.live, hf]
    rw [hlog, ← hlive] at hx
    exact passes_calls hn rfl hx

end Cycle

end LivelierBridge.Discovery
