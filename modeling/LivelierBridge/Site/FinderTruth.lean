import LivelierBridge.Discovery.HostKeys
import LivelierBridge.Operations.RetractRuns
import LivelierBridge.Site.Finder

namespace LivelierBridge.Site

open Framework Js Nostr Discovery Operations

variable {ν : Type}

/-! ### What the worker publishes -/

/-- Each row has the identity that the engine gives its url. -/
def Identified (E : Engine) (table : InstanceTable ν) : Prop :=
  ∀ url row, table.get? url = some row → E.identityOf url = some row.identity

/-- A live event names the instance that it is published for. -/
def NamesHost (E : Engine) (url : JsString) : Call ν → Prop
  | .publishLiveEvent input _ =>
    E.signerFor url = some input.hostPubkey ∧ input.proxyUrl = url ∧
      Discovery.dTagFor E.runtime url E.dTagPrefix = some input.dTag
  | .publishProfile _ _ _ _ | .publishRelayList _ _ _ _ _ | .checkLiveness _ | .fetchViewerCount _
  | .count _ => True

structure Hosted (E : Engine) (s : OperatedDb ν) : Prop where
  rows : Identified E s.db.table
  calls : ∀ e ∈ s.db.history, NamesHost E e.1 e.2

section Hosted

variable {E : Engine} {url : JsString} {row : InstanceRow ν}

theorem identityOf_eq_some {id : HostIdentity} (h : E.identityOf url = some id) :
    id.source = E.sourceKey ∧ E.signerFor url = some id.pubkey ∧
      Discovery.dTagFor E.runtime url E.dTagPrefix = some id.dTag := by
  unfold Engine.identityOf at h
  split at h
  · rename_i pubkey dTag hsigner htag
    obtain rfl := Option.some.inj h
    exact ⟨rfl, hsigner, htag⟩
  · cases h

theorem setRow_identified {s : OperatedDb ν} (h : Identified E s.db.table) (url : JsString)
    {f : InstanceRow ν → InstanceRow ν} (hf : ∀ row, (f row).identity = row.identity) :
    Identified E (s.setRow url f).db.table := by
  unfold OperatedDb.setRow
  split
  · rename_i row hrow
    intro url' row' hrow'
    have hget : (s.db.table.set url (f row)).get? url' = some row' := hrow'
    rw [OrderedMap.get?_set] at hget
    split at hget
    · rename_i hurl
      obtain rfl := Option.some.inj hget
      rw [hf, hurl]
      exact h url row hrow
    · exact h url' row' hget
  · exact h

variable [DecidableEq ν] [JsNumber ν] {c : Discovery.Cycle ν}

omit [JsNumber ν] in
theorem runCycle_identified (hn : (c.live.map fun e => e.1.url).Nodup) {s : DiscoveryState ν}
    (h : Identified E s.table) : Identified E (E.runCycle c s).table := by
  intro url row hrow
  have hsame : Reidentified E c url (s.table.get? url) ((E.runCycle c s).table.get? url) :=
    runCycle_identity hn s
  rw [hrow] at hsame
  rcases hsame with heq | ⟨e, id, -, hid, -, heq⟩
  · obtain ⟨row₀, hrow₀, hidentity⟩ := Option.map_eq_some_iff.mp heq.symm
    rw [← hidentity]
    exact h url row₀ hrow₀
  · have hidentity : row.identity = upsertedIdentity (s.table.get? url) id := Option.some.inj heq
    rw [hidentity, hid]
    cases hrow₀ : s.table.get? url with
    | none => rfl
    | some row₀ =>
      have hid₀ := h url row₀ hrow₀
      have hpubkey : row₀.pubkey = id.pubkey :=
        congrArg HostIdentity.pubkey (Option.some.inj (hid₀.symm.trans hid))
      simp [upsertedIdentity, hpubkey]

omit [JsNumber ν] in
/-- A stored row keeps its identity in any cycle. -/
theorem Identified.keepsKey {table : InstanceTable ν} (h : Identified E table) :
    ∀ entry ∈ table.entries, E.KeepsKey c entry.1 entry.2 := by
  intro entry hentry
  have hid := h entry.1 entry.2 ((table.get?_eq_some_iff entry.1 entry.2).mpr hentry)
  unfold Engine.KeepsKey
  split
  · intro _ id hid'
    exact .inl (congrArg HostIdentity.pubkey (Option.some.inj (hid.symm.trans hid')))
  · exact fun _ => (identityOf_eq_some hid).2.1

theorem runCycle_namesHost [JsFinite ν] (hn : (c.live.map fun e => e.1.url).Nodup)
    {s : DiscoveryState ν} (h : Identified E s.table) :
    ∀ e ∈ (E.runCycle c s).cycleLog, NamesHost E e.1 e.2 := by
  intro e he
  have hmem := Keyed.mem_logOf he
  have hcall := runCycle_calls hn s hmem
  generalize hx : e.2 = x at hcall hmem ⊢
  cases x with
  | publishLiveEvent input results =>
    have hpub : (input, results) ∈ publishes (Keyed.logOf e.1 (E.runCycle c s).cycleLog) :=
      List.mem_filterMap.mpr ⟨_, hmem, rfl⟩
    obtain ⟨row, hrow, -, htag⟩ := runCycle_publish hn he (p := (input, results)) (by rw [hx]; rfl)
    obtain ⟨-, -, hdTag⟩ := identityOf_eq_some (runCycle_identified hn h e.1 row hrow)
    refine ⟨((cycle_hostLaw hn h.keepsKey e.1).2 _ hpub).1, ?_, htag ▸ hdTag⟩
    cases hcall with
    | listed hlisted h =>
      cases h with
      | event => exact Cycle.listing_url hlisted
    | manual _ _ h | reconciled _ _ h =>
      cases h with
      | event => rfl
  | publishProfile | publishRelayList | checkLiveness | fetchViewerCount | count => trivial

variable {R : Runtime} {nsecPubkey : JsString → Option JsString} {env : Env}

theorem step_hosted [JsFinite ν] {s s' : OperatedDb ν} {a : OperatorAction ν} (h : Hosted E s)
    (hs : s.step R nsecPubkey env E a = some s') : Hosted E s' := by
  have hkept {s' : OperatedDb ν} (htable : Identified E s'.db.table)
      (hhistory : s'.db.history = s.db.history) : Hosted E s' := ⟨htable, hhistory ▸ h.calls⟩
  cases a with
  | cycle payload live answers =>
    obtain rfl := Option.some.inj hs
    have hn := cycleOn_nodup E payload live answers
    refine ⟨runCycle_identified hn h.rows, fun e he => ?_⟩
    rw [E.runCycle_history] at he
    rcases List.mem_append.mp he with he | he
    · exact h.calls e he
    · exact runCycle_namesHost hn h.rows e he
  | addManual url row =>
    simp only [OperatedDb.step] at hs
    split at hs
    · cases hs
    rename_i id hid
    split at hs
    · cases hs
    obtain rfl := Option.some.inj hs
    refine hkept (fun url' row' hget => ?_) rfl
    simp only [OrderedMap.get?_set] at hget
    split at hget
    · rename_i hurl
      obtain rfl := Option.some.inj hget
      rw [hurl, hid]
      rfl
    · exact h.rows url' row' hget
  | setDiscovery url enabled =>
    obtain rfl := Option.some.inj hs
    exact hkept (setRow_identified h.rows url fun _ => rfl) (setRow_history (s := s) url _)
  | setChat url enabled =>
    obtain rfl := Option.some.inj hs
    exact hkept (setRow_identified h.rows url fun _ => rfl) (setRow_history (s := s) url _)
  | retract url =>
    obtain rfl := Option.some.inj hs
    have hdb : (s.retract R nsecPubkey env url).db = s.db := by
      unfold OperatedDb.retract
      split
      · split <;> rfl
      · rfl
    exact ⟨hdb ▸ h.rows, hdb ▸ h.calls⟩
  | answered n accepts =>
    simp only [OperatedDb.step] at hs
    split at hs
    · cases hs
    obtain ⟨r', -, rfl⟩ := Option.map_eq_some_iff.mp hs
    exact hkept h.rows rfl
  | marked n ok =>
    simp only [OperatedDb.step] at hs
    split at hs
    · cases hs
    split at hs
    · split at hs
      · obtain rfl := Option.some.inj hs
        exact hkept (setRow_identified h.rows _ fun _ => rfl) (setRow_history (s := s) _ _)
      · obtain rfl := Option.some.inj hs
        exact hkept h.rows rfl
    · cases hs

theorem run_hosted [JsFinite ν] {as : List (OperatorAction ν)} {t : OperatedDb ν}
    (hr : run (OperatedDb.step R nsecPubkey env E) .init as = some t) : Hosted E t := by
  have hinit : Hosted E (OperatedDb.init : OperatedDb ν) :=
    ⟨fun _ _ h => (by cases h), fun _ h => absurd h List.not_mem_nil⟩
  exact run_invariant_all (fun _ _ _ h hs => step_hosted h hs) hinit hr

end Hosted

/-! ### What the event relay holds -/

/-- What the event relay has accepted: a live event of an instance, or the deletion of one -/
inductive RelayWrite (ν : Type) where
  | event (url : JsString) (input : LivePublishInput ν)
  | deletion (dTag : JsString)

/-- The live event under a d-tag after one more write -/
def RelayWrite.after (dTag : JsString) (held : Option (JsString × LivePublishInput ν)) :
    RelayWrite ν → Option (JsString × LivePublishInput ν)
  | .event url input => if input.dTag = dTag then some (url, input) else held
  | .deletion deleted => if deleted = dTag then none else held

/-- The live event that the relay holds under a d-tag: the last one that nothing deleted since. -/
def heldUnder (dTag : JsString) (writes : List (RelayWrite ν)) :
    Option (JsString × LivePublishInput ν) :=
  writes.foldl (RelayWrite.after dTag) none

def RelayWrite.event? : RelayWrite ν → Option (JsString × LivePublishInput ν)
  | .event url input => some (url, input)
  | .deletion _ => none

/-- A live event that the event relay has accepted from the worker -/
def acceptedEvent (e : JsString × Call ν) : Option (JsString × LivePublishInput ν) :=
  match e.2 with
  | .publishLiveEvent input (some results) =>
    if anyRelayAccepted results then some (e.1, input) else none
  | _ => none

/-- The relay has accepted the worker's live events up to some moment, in order. -/
def Received (history : List (JsString × Call ν)) (writes : List (RelayWrite ν)) : Prop :=
  writes.filterMap RelayWrite.event? <+: history.filterMap acceptedEvent

theorem heldUnder_mem {dTag : JsString} {writes : List (RelayWrite ν)}
    {held : JsString × LivePublishInput ν} (h : heldUnder dTag writes = some held) :
    held ∈ writes.filterMap RelayWrite.event? ∧ held.2.dTag = dTag := by
  induction writes using List.reverseRecOn with
  | nil => cases h
  | append_singleton writes write ih =>
    have hlast : heldUnder dTag (writes ++ [write]) = write.after dTag (heldUnder dTag writes) :=
      List.foldl_concat ..
    rw [hlast] at h
    rw [List.filterMap_append]
    cases write with
    | event url input =>
      simp only [RelayWrite.after] at h
      split at h
      · rename_i htag
        obtain rfl := Option.some.inj h
        exact ⟨List.mem_append_right _ (List.mem_singleton_self _), htag⟩
      · exact ⟨List.mem_append_left _ (ih h).1, (ih h).2⟩
    | deletion deleted =>
      simp only [RelayWrite.after] at h
      split at h
      · cases h
      · exact ⟨List.mem_append_left _ (ih h).1, (ih h).2⟩

theorem acceptedEvent_eq_some {e : JsString × Call ν} {held : JsString × LivePublishInput ν}
    (h : acceptedEvent e = some held) :
    held.1 = e.1 ∧ ∃ results, e.2 = .publishLiveEvent held.2 (some results) := by
  unfold acceptedEvent at h
  split at h
  · rename_i input results hcall
    split at h
    · obtain rfl := Option.some.inj h
      exact ⟨rfl, results, hcall⟩
    · cases h
  · cases h

/-- What the relay holds names its instance. -/
theorem held_namesHost {E : Engine} {s : OperatedDb ν} (hs : Hosted E s) {dTag : JsString}
    {writes : List (RelayWrite ν)} (hw : Received s.db.history writes)
    {held : JsString × LivePublishInput ν} (h : heldUnder dTag writes = some held) :
    held.2.dTag = dTag ∧ E.signerFor held.1 = some held.2.hostPubkey ∧ held.2.proxyUrl = held.1 ∧
      Discovery.dTagFor E.runtime held.1 E.dTagPrefix = some dTag := by
  obtain ⟨hmem, htag⟩ := heldUnder_mem h
  obtain ⟨e, he, haccepted⟩ := List.mem_filterMap.mp (hw.subset hmem)
  obtain ⟨hurl, results, hcall⟩ := acceptedEvent_eq_some haccepted
  have hnames := hs.calls e he
  rw [hcall, ← hurl] at hnames
  obtain ⟨hsigner, hproxy, hdTag⟩ := hnames
  exact ⟨htag, hsigner, hproxy, htag ▸ hdTag⟩

/-! ### What the finder shows -/

variable [JsNumber ν] [JsFinite ν]

/-- The events under a d-tag, as the relay has them: the one that is held, as it was signed. -/
def Holds (clientTag : List JsString) (held : Option (JsString × LivePublishInput ν))
    (events : List Event) : Prop :=
  match held with
  | none => events = []
  | some (_, input) => ∃ event, events = [event] ∧
    event.tags.map textTag = liveEventTags input ++ [textTag clientTag]

/-- What is shown is true of the address that was typed: unknown when no EOSE came, nothing when the
relay holds nothing under its d-tag, and else the live event that the relay holds under it, for the
instance that it was published for. -/
def Truthful (E : Engine) (B : Browser E.runtime) (raw : JsString) (writes : List (RelayWrite ν))
    (answer : JsString → QueryRun) : FinderNote → Prop
  | .notAnAddress => B.coerceInstanceUrl raw = none
  | .failed => False
  | .unknown dTag =>
    Discovery.dTagFor E.runtime (withScheme (trim raw)) E.dTagPrefix = some dTag ∧
      (answer dTag).eoseCount = 0
  | .nothing _ dTag =>
    Discovery.dTagFor E.runtime (withScheme (trim raw)) E.dTagPrefix = some dTag ∧
      0 < (answer dTag).eoseCount ∧ heldUnder dTag writes = none
  | .card channel =>
    Discovery.dTagFor E.runtime (withScheme (trim raw)) E.dTagPrefix = some channel.dTag ∧
      ∃ url input, heldUnder channel.dTag writes = some (url, input) ∧
        Discovery.dTagFor E.runtime url E.dTagPrefix = some channel.dTag ∧
        channel.proxyUrl = some url ∧ channel.hostPubkey = E.signerFor url ∧
        channel.title = input.metadata.title ∧
        channel.status = statusText input.status.toLiveEventStatus

section Lookup

variable {clientTag : List JsString} {held : Option (JsString × LivePublishInput ν)}

/-- The channel that is read from what the relay holds -/
theorem toChannel_held {input : LivePublishInput ν} {event : Event}
    (hclient : clientTag[0]? = some (js "client"))
    (htags : event.tags.map textTag = liveEventTags input ++ [textTag clientTag]) :
    (toChannel event).dTag = input.dTag ∧ (toChannel event).proxyUrl = some input.proxyUrl ∧
      (toChannel event).hostPubkey = some input.hostPubkey ∧
      (toChannel event).title = input.metadata.title ∧
      (toChannel event).status = statusText input.status.toLiveEventStatus := by
  obtain ⟨topics, -, hchannel⟩ := toChannel_built _ event clientTag hclient htags
  rw [hchannel]
  exact ⟨rfl, rfl, rfl, rfl, rfl⟩

/-- What the newest event is read as, when a query returned one event at most -/
theorem fetchChannelByDTag_of_events {s : QueryRun} {event : Event}
    (honly : ∀ e ∈ s.events, e = event) (hsome : s.events ≠ []) :
    fetchChannelByDTag (fetchEvents s) = some (toChannel event) := by
  have hperm := List.perm_insertionSort (fun a b : Event => b.created_at ≤ a.created_at) s.events
  cases hsorted : newestFirst s.events with
  | nil =>
    rw [newestFirst] at hsorted
    rw [hsorted] at hperm
    exact absurd hperm.nil_eq.symm hsome
  | cons e es =>
    have hmem : e ∈ newestFirst s.events := hsorted ▸ List.mem_cons_self
    have he : e = event := honly e (hperm.mem_iff.mp hmem)
    simp [fetchChannelByDTag, fetchEvents, hsorted, he]

/-- A query of the relay alone returns what it holds, if an EOSE came. -/
theorem events_of_answer {cooling : JsString → Bool} {relayUrl summary : JsString}
    {base : RelayReqStats} {qs : List QueryAction} {s : QueryRun}
    {holds : JsString → List Event}
    (hq : run (QueryRun.step (.ofUrls cooling [relayUrl] summary none)) (QueryRun.init base) qs =
      some s) (hanswers : QueryRun.Answers holds qs) :
    (∀ event ∈ s.events, event ∈ holds relayUrl) ∧
      (0 < s.eoseCount → ∀ event ∈ holds relayUrl, ∃ e ∈ s.events, e.id = event.id) := by
  have hrelays : ∀ url ∈ (StatsQuery.ofUrls cooling [relayUrl] summary none).relays,
      url = relayUrl := by
    intro url hurl
    simpa [StatsQuery.ofUrls] using (List.mem_filter.mp hurl).1
  obtain ⟨hsound, hcomplete⟩ := QueryRun.returned_held hq hanswers
  refine ⟨fun event he => ?_, fun hcount => ?_⟩
  · obtain ⟨url, hurl, hmem⟩ := hsound event he
    exact hrelays url hurl ▸ hmem
  · obtain ⟨url, hurl, hall⟩ := hcomplete hcount
    exact hrelays url hurl ▸ hall

variable {E : Engine} {B : Browser E.runtime} {raw url : JsString}

/-- The finder's answer for an address, when its query has one -/
theorem lookup_coerced (hurl : B.coerceInstanceUrl raw = some url) {dTag dTagPrefix : JsString}
    (hdTag : B.dTagFor url dTagPrefix = some dTag) (answer : JsString → QueryRun) :
    B.lookup dTagPrefix raw (fun dTag => some (fetchEvents (answer dTag))) =
      if (answer dTag).eoseCount = 0 then .unknown dTag
      else
        match fetchChannelByDTag (fetchEvents (answer dTag)) with
        | none => .nothing (B.hostname url) dTag
        | some channel => .card channel := by
  unfold Browser.lookup
  simp only [hurl, hdTag]
  by_cases h : (answer dTag).eoseCount = 0
  · simp [fetchEvents, h]
  · have hreached : (fetchEvents (answer dTag)).reached = true :=
      decide_eq_true (Nat.pos_of_ne_zero h)
    rw [hreached, if_neg h]
    exact if_neg Bool.false_ne_true

end Lookup

section Run

variable [DecidableEq ν] {R : Runtime} {nsecPubkey : JsString → Option JsString} {env : Env}
  {E : Engine} {B : Browser E.runtime}

/-- Whatever the finder shows is true: in any run of the worker and the operator's scripts, for any
moment up to which the event relay has received the worker's live events, with any deletions between
them, and for any text that is typed. -/
theorem lookup_truthful {as : List (OperatorAction ν)} {t : OperatedDb ν}
    (hr : run (OperatedDb.step R nsecPubkey env E) .init as = some t)
    {writes : List (RelayWrite ν)} (hw : Received t.db.history writes)
    {clientTag : List JsString} (hclient : clientTag[0]? = some (js "client"))
    {holds : JsString → JsString → List Event}
    (hholds : ∀ dTag, Holds clientTag (heldUnder dTag writes) (holds dTag E.eventRelayUrl))
    {cooling : JsString → Bool} {summary : JsString → JsString} {base : RelayReqStats}
    {answer : JsString → QueryRun}
    (hanswer : ∀ dTag, ∃ qs, QueryRun.Answers (holds dTag) qs ∧
      run (QueryRun.step (.ofUrls cooling [E.eventRelayUrl] (summary dTag) none))
        (QueryRun.init base) qs = some (answer dTag))
    (raw : JsString) :
    Truthful E B raw writes answer
      (B.lookup E.dTagPrefix raw fun dTag => some (fetchEvents (answer dTag))) := by
  have hhosted := run_hosted hr
  cases hurl : B.coerceInstanceUrl raw with
  | none =>
    have hnote : B.lookup E.dTagPrefix raw (fun dTag => some (fetchEvents (answer dTag))) =
        .notAnAddress := by simp [Browser.lookup, hurl]
    rw [hnote]
    exact hurl
  | some url =>
    obtain ⟨dTag, hdTag, htyped⟩ := dTag_of_coerced hurl E.dTagPrefix
    rw [lookup_coerced hurl hdTag]
    split
    · rename_i hzero
      exact ⟨htyped, hzero⟩
    rename_i hcount
    have hreached : 0 < (answer dTag).eoseCount := by omega
    obtain ⟨qs, hanswers, hq⟩ := hanswer dTag
    obtain ⟨hsound, hcomplete⟩ := events_of_answer hq hanswers
    have hheld := hholds dTag
    cases hwrites : heldUnder dTag writes with
    | none =>
      rw [hwrites] at hheld
      have hnone : (answer dTag).events = [] := by
        apply List.eq_nil_iff_forall_not_mem.mpr
        intro event he
        have hmem := hsound event he
        rw [hheld] at hmem
        exact List.not_mem_nil hmem
      have hchannel : fetchChannelByDTag (fetchEvents (answer dTag)) = none := by
        simp [fetchChannelByDTag, fetchEvents, newestFirst, hnone]
      rw [hchannel]
      exact ⟨htyped, hreached, hwrites⟩
    | some held =>
      rw [hwrites] at hheld
      obtain ⟨event, hone, htags⟩ := hheld
      obtain ⟨htag, hsigner, hproxy, hdTag'⟩ := held_namesHost hhosted hw hwrites
      have honly : ∀ e ∈ (answer dTag).events, e = event := by
        intro e he
        have hmem := hsound e he
        rw [hone] at hmem
        exact List.mem_singleton.mp hmem
      have hsome : (answer dTag).events ≠ [] := by
        obtain ⟨e, he, -⟩ := hcomplete hreached event (hone ▸ List.mem_singleton_self event)
        exact List.ne_nil_of_mem he
      rw [fetchChannelByDTag_of_events honly hsome]
      obtain ⟨htagged, hproxied, hhost, htitle, hstatus⟩ := toChannel_held hclient htags
      have hchannel : (toChannel event).dTag = dTag := htagged.trans htag
      refine ⟨hchannel ▸ htyped, held.1, held.2, hchannel ▸ hwrites, hchannel ▸ hdTag', ?_, ?_, ?_, ?_⟩
      · rw [hproxied, hproxy]
      · rw [hhost, hsigner]
      · exact htitle
      · exact hstatus

end Run

/-- The texts of a live event, when the tags of its stream are texts -/
theorem liveEventTags_texts {input : LivePublishInput ν} {topics : List JsString}
    (h : input.metadata.tags = topics.map .str) :
    ∃ texts : List (List JsString), liveEventTags input = texts.map textTag := by
  unfold liveEventTags
  exact ⟨_, buildLiveEventTags_texts h⟩

/-- The SHA-256 of one normalized URL -/
def demoDigest (text : JsString) : List UInt8 :=
  if text = js "https://a.example" then
    [0x38, 0x61, 0x2c, 0x96, 0x5a, 0x9c, 0x4c, 0x35, 0xd7, 0x13, 0x43, 0x99, 0x19, 0x80, 0x4a, 0xd9,
      0x60, 0xeb, 0x54, 0xd0, 0xad, 0x41, 0xb4, 0x36, 0x2f, 0xfd, 0x85, 0x34, 0x3d, 0x4b, 0xbb, 0x4f]
  else []

def hashedRuntime : Runtime :=
  { demoRuntime with sha256Hex := fun text => (demoDigest text).flatMap hexByte }

def hashedEngine : Engine := { demoEngine with runtime := hashedRuntime }

def demoBrowser : Browser hashedRuntime where
  hostname _ := js "a.example"
  href _ := js "https://a.example/"
  digest := demoDigest
  href_parses text u h := by
    have hu : u = ⟨js "https:", js "a.example", js "/"⟩ := by
      simp only [hashedRuntime, demoRuntime] at h
      split at h
      · exact (Option.some.inj h).symm
      · cases h
    rw [hu]
    rfl
  digest_hex _ := rfl

/-- A listed stream is looked up by its bare host name. -/
theorem lookup_truthful_typed : ∃ (answer : JsString → QueryRun) (channel : Channel),
    demoBrowser.lookup (js "oc") (js " a.example/") (fun dTag => some (fetchEvents (answer dTag))) =
      .card channel ∧ channel.proxyUrl = some (js "https://a.example") := by
  have hrun : (run (OperatedDb.step hashedRuntime (fun _ => none) BridgeConfig.demoEnv hashedEngine)
      .init [.cycle (some (demoPayload "https://a.example")) demoLive demoAnswers]).map
      (fun t => (t.db.history.filterMap acceptedEvent).map fun held =>
        (held.1, held.2.dTag, held.2.metadata.tags.length)) =
      some [(demoUrl, js "oc-38612c965a9c4c35", 0)] := by decide +kernel
  obtain ⟨t, ht, haccepted⟩ := Option.map_eq_some_iff.mp hrun
  obtain ⟨⟨url, input⟩, hone, hheld⟩ := List.map_eq_singleton_iff.mp haccepted
  obtain ⟨rfl, hdTag, htags⟩ : url = demoUrl ∧ input.dTag = js "oc-38612c965a9c4c35" ∧
      input.metadata.tags = [] := by
    simpa [Prod.ext_iff] using hheld
  let writes : List (RelayWrite Int) := [.event demoUrl input]
  have hw : Received t.db.history writes := by
    rw [Received, hone]
    exact List.prefix_refl _
  have hunder (dTag : JsString) : heldUnder dTag writes =
      if input.dTag = dTag then some (demoUrl, input) else none := rfl
  have htopics : input.metadata.tags = ([] : List JsString).map .str := htags
  obtain ⟨texts, htexts⟩ := liveEventTags_texts htopics
  let event : Event := ⟨js "e1", input.signer, 0, 30311, texts ++ [[js "client", js "Livelier"]],
    [], []⟩
  let relayUrl : JsString := hashedEngine.eventRelayUrl
  let holds (dTag _ : JsString) : List Event := if input.dTag = dTag then [event] else []
  have hholds (dTag : JsString) : Holds [js "client", js "Livelier"] (heldUnder dTag writes)
      (holds dTag relayUrl) := by
    rw [hunder]
    by_cases h : input.dTag = dTag
    · simp only [Holds, holds, if_pos h]
      refine ⟨event, rfl, ?_⟩
      rw [htexts, List.map_append]
      rfl
    · simp only [Holds, holds, if_neg h]
  have hasked (dTag : JsString) : ∃ s : QueryRun, 0 < s.eoseCount ∧
      ∃ qs, QueryRun.Answers (holds dTag) qs ∧
      run (QueryRun.step (.ofUrls (fun _ => false) [relayUrl] [] none))
        (QueryRun.init ⟨.empty, .empty⟩) qs = some s := by
    by_cases h : input.dTag = dTag
    · refine ⟨_, ?_, [.connected relayUrl, .event relayUrl event, .eose relayUrl], ⟨?_, ?_⟩, rfl⟩
      · exact Nat.zero_lt_one
      · simp [holds, h]
      · intro before after url has
        rcases before with _ | ⟨x, _ | ⟨y, _ | ⟨z, zs⟩⟩⟩ <;> simp at has
        obtain ⟨rfl, rfl, rfl, -⟩ := has
        simp [holds, h]
    · refine ⟨_, ?_, [.connected relayUrl, .eose relayUrl], ⟨?_, ?_⟩, rfl⟩
      · exact Nat.zero_lt_one
      · simp
      · simp [holds, h]
  choose answer hreached hanswer using hasked
  have htruth := lookup_truthful (B := demoBrowser) ht hw rfl hholds hanswer (js " a.example/")
  have hurl : demoBrowser.coerceInstanceUrl (js " a.example/") = some (js "https://a.example/") := by
    decide +kernel
  have htyped : Discovery.dTagFor hashedRuntime (withScheme (trim (js " a.example/"))) (js "oc") =
      some (js "oc-38612c965a9c4c35") := by decide +kernel
  generalize hnote : demoBrowser.lookup (js "oc") (js " a.example/")
    (fun dTag => some (fetchEvents (answer dTag))) = note
  change Truthful hashedEngine demoBrowser (js " a.example/") writes answer
    (demoBrowser.lookup (js "oc") (js " a.example/") _) at htruth
  rw [hnote] at htruth
  cases note with
  | notAnAddress => exact absurd (hurl.symm.trans htruth) (Option.some_ne_none _)
  | failed => exact htruth.elim
  | unknown dTag => exact absurd htruth.2 (Nat.ne_of_gt (hreached dTag))
  | nothing host dTag =>
    have hsame : js "oc-38612c965a9c4c35" = dTag := Option.some.inj (htyped.symm.trans htruth.1)
    have hnone := htruth.2.2
    rw [hunder, if_pos (hdTag.trans hsame)] at hnone
    cases hnone
  | card channel =>
    obtain ⟨-, url, input', hheld, -, hproxy, -⟩ := htruth
    rw [hunder] at hheld
    split at hheld
    · obtain rfl : demoUrl = url := congrArg Prod.fst (Option.some.inj hheld)
      exact ⟨answer, channel, hnote, hproxy⟩
    · cases hheld

end LivelierBridge.Site
