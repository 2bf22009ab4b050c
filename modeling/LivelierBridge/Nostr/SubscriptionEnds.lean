import LivelierBridge.Framework.FirstSeen
import LivelierBridge.Nostr.RateLimits

namespace LivelierBridge.Nostr

open Framework Js

/-- A first REQ that is being opened or is open -/
def LinkPhase.isFirst : LinkPhase → Bool
  | .connecting isRetry | .active isRetry => !isRetry
  | _ => false

namespace StandingSub

/-- The relays whose first REQ is being opened or is open -/
def firsts (w : StandingSub) : Nat := w.relays.countP fun url => (w.link url).phase.isFirst

/-- The relays that have ended the first REQ or still can. -/
def owed (w : StandingSub) : Nat := w.closeReasons.length + w.firsts

/-- The end of a first REQ has made `closedCount >= startedCount`, so that `onclose` was called. -/
def CloseReported (w : StandingSub) : Prop :=
  w.closeReasons ≠ [] ∧ w.relays.length ≤ w.closeReasons.length

/-- There is something on the relays of the subscription only. -/
structure Linked (w : StandingSub) : Prop where
  nodup : w.relays.Nodup
  unlinked : ∀ url, url ∉ w.relays → (w.link url).phase = .gone

/-- The subscription owes as many ends as before. -/
structure Owes (w w' : StandingSub) : Prop where
  relays : w'.relays = w.relays
  callerClosed : w'.callerClosed = w.callerClosed
  linked : w.Linked → w'.Linked
  owed : w.Linked → w'.owed = w.owed

theorem Owes.refl (w : StandingSub) : Owes w w := ⟨rfl, rfl, id, fun _ => rfl⟩

theorem Owes.trans {w w' w'' : StandingSub} (h : Owes w w') (h' : Owes w' w'') : Owes w w'' :=
  ⟨h'.relays.trans h.relays, h'.callerClosed.trans h.callerClosed,
    fun hl => h'.linked (h.linked hl), fun hl => (h'.owed (h.linked hl)).trans (h.owed hl)⟩

section Count

variable {α : Type} [DecidableEq α] {p q : α → Bool} {a : α} {l : List α}

omit [DecidableEq α] in
theorem countP_congr_of_mem (h : ∀ b ∈ l, q b = p b) : l.countP q = l.countP p :=
  List.countP_congr fun b hb => by rw [h b hb]

/-- Counting with another verdict on one element -/
theorem countP_of_update (hn : l.Nodup) (ha : a ∈ l) (h : ∀ b ∈ l, b ≠ a → q b = p b) :
    l.countP q + (if p a then 1 else 0) = l.countP p + (if q a then 1 else 0) := by
  induction l with
  | nil => cases ha
  | cons b l ih =>
    obtain ⟨hb, hn⟩ := List.nodup_cons.mp hn
    rw [List.countP_cons, List.countP_cons]
    by_cases hab : b = a
    · subst hab
      have hrest : l.countP q = l.countP p :=
        countP_congr_of_mem fun c hc => h c (List.mem_cons_of_mem _ hc) (ne_of_mem_of_not_mem hc hb)
      omega
    · have hmem : a ∈ l := (List.mem_cons.mp ha).resolve_left (Ne.symm hab)
      have hrest := ih hn hmem fun c hc => h c (List.mem_cons_of_mem _ hc)
      rw [h b List.mem_cons_self hab]
      omega

omit [DecidableEq α] in
theorem countP_split (h : ∀ b, q b = true → p b = true) :
    l.countP p = l.countP q + l.countP fun b => p b && !q b := by
  induction l with
  | nil => rfl
  | cons b l ih =>
    rw [List.countP_cons, List.countP_cons, List.countP_cons, ih]
    cases hq : q b with
    | true => simp [h b hq]; omega
    | false => cases p b <;> simp; omega

end Count

variable (w : StandingSub) {url : JsString}

theorem linked_new (urls : List JsString) : (StandingSub.new urls).Linked := by
  refine ⟨nodup_eraseDups urls, fun url hurl => ?_⟩
  have hnot : url ∉ urls := by simpa [StandingSub.new] using hurl
  simp [StandingSub.new, hnot]

theorem owed_new (urls : List JsString) :
    (StandingSub.new urls).owed = (StandingSub.new urls).relays.length := by
  have hall : ∀ url ∈ (StandingSub.new urls).relays,
      ((StandingSub.new urls).link url).phase.isFirst = true := by
    intro url hurl
    have hmem : url ∈ urls := by simpa [StandingSub.new] using hurl
    simp [StandingSub.new, hmem, LinkPhase.isFirst]
  have hcount := List.countP_eq_length.mpr hall
  simpa [owed, firsts, StandingSub.new] using hcount

theorem mem_relays_of_linked {w : StandingSub} (h : w.Linked) (hphase : (w.link url).phase ≠ .gone) :
    url ∈ w.relays := by
  by_contra hnot
  exact hphase (h.unlinked url hnot)

theorem owes_noteEose : Owes w w.noteEose := by
  unfold noteEose
  split
  · exact .refl w
  · exact ⟨rfl, rfl, fun h => ⟨h.nodup, h.unlinked⟩, fun _ => rfl⟩

/-- What the count of first REQs becomes when one link changes -/
theorem firsts_update {w w' : StandingSub} (h : w.Linked) (hurl : url ∈ w.relays)
    (hrelays : w'.relays = w.relays) (hothers : ∀ url', url' ≠ url → w'.link url' = w.link url') :
    w'.firsts + (if (w.link url).phase.isFirst then 1 else 0) =
      w.firsts + (if (w'.link url).phase.isFirst then 1 else 0) := by
  unfold firsts
  rw [hrelays]
  apply countP_of_update h.nodup hurl
  intro url' _ hne
  rw [hothers url' hne]

theorem linked_update {w w' : StandingSub} (h : w.Linked) (hurl : url ∈ w.relays)
    (hrelays : w'.relays = w.relays) (hothers : ∀ url', url' ≠ url → w'.link url' = w.link url') :
    w'.Linked := by
  refine ⟨hrelays ▸ h.nodup, fun url' hurl' => ?_⟩
  rw [hrelays] at hurl'
  rw [hothers url' fun he => hurl' (he ▸ hurl)]
  exact h.unlinked url' hurl'

/-- A link that moves on -/
theorem owes_setPhase {phase : LinkPhase} (hurl : w.Linked → url ∈ w.relays)
    (hfirst : phase.isFirst = (w.link url).phase.isFirst) : Owes w (w.setPhase url phase) := by
  have hothers : ∀ url', url' ≠ url → (w.setPhase url phase).link url' = w.link url' :=
    fun url' hne => setPhase_of_ne w hne phase
  refine ⟨rfl, rfl, fun h => linked_update h (hurl h) rfl hothers, fun h => ?_⟩
  have hcount := firsts_update h (hurl h) (rfl : (w.setPhase url phase).relays = w.relays) hothers
  rw [setPhase_self, hfirst] at hcount
  have hreasons : (w.setPhase url phase).closeReasons = w.closeReasons := rfl
  simp only [owed, hreasons]
  omega

/-- A REQ that ends is reported unless it was a retry. -/
theorem owes_ended {isRetry : Bool} (hphase : (w.link url).phase = .active isRetry)
    (limited : Bool) (reason : JsString) : Owes w (w.ended url isRetry limited reason) := by
  have hothers : ∀ url', url' ≠ url →
      (w.ended url isRetry limited reason).link url' = w.link url' :=
    fun url' hne => ended_of_ne w hne isRetry limited reason
  have hurl : w.Linked → url ∈ w.relays := fun h =>
    mem_relays_of_linked h (by rw [hphase]; exact LinkPhase.noConfusion)
  refine ⟨rfl, rfl, fun h => linked_update h (hurl h) rfl hothers, fun h => ?_⟩
  have hcount := firsts_update h (hurl h)
    (rfl : (w.ended url isRetry limited reason).relays = w.relays) hothers
  rw [ended_self, hphase] at hcount
  cases isRetry with
  | true =>
    have hreasons : (w.ended url true limited reason).closeReasons = w.closeReasons := rfl
    simp only [owed, hreasons]
    simpa [LinkPhase.isFirst] using hcount
  | false =>
    have hreasons : (w.ended url false limited reason).closeReasons = w.closeReasons ++ [reason] := rfl
    simp only [owed, hreasons, List.length_append, List.length_singleton]
    simp only [LinkPhase.isFirst, Bool.not_false, if_true, Bool.false_eq_true, if_false] at hcount
    omega

/-- Ending some first REQs, each with a reason -/
theorem owed_of_ends {w w' : StandingSub} (ends : JsString → Bool) (hrelays : w'.relays = w.relays)
    (hends : ∀ url, ends url = true → (w.link url).phase.isFirst = true)
    (hfirst : ∀ url, (w'.link url).phase.isFirst = ((w.link url).phase.isFirst && !ends url))
    (hreasons : w'.closeReasons.length = w.closeReasons.length + w.relays.countP ends) :
    w'.owed = w.owed := by
  have hsplit := countP_split (l := w.relays) hends
  unfold owed firsts
  rw [hreasons, hrelays, hsplit, countP_congr_of_mem fun url _ => hfirst url]
  omega

/-- The first REQs that a closed connection ends are reported. -/
theorem owes_severed (same : JsString → Bool) : Owes w (w.severed same) := by
  refine ⟨rfl, rfl, fun h => ⟨h.nodup, fun url hurl => ?_⟩, fun _ => ?_⟩
  · show (if same url && (w.link url).phase.isActive then (⟨.gone, true⟩ : RelayLink)
      else w.link url).phase = _
    split
    · rfl
    · exact h.unlinked url hurl
  · refine owed_of_ends (fun url => same url && (w.link url).phase = .active false) ?_ ?_ ?_ ?_
    · rfl
    · intro url h
      simp only [Bool.and_eq_true, decide_eq_true_eq] at h
      rw [h.2]
      rfl
    · intro url
      show (if same url && (w.link url).phase.isActive then (⟨.gone, true⟩ : RelayLink)
        else w.link url).phase.isFirst = _
      cases same url with
      | false => simp
      | true =>
        cases hphase : (w.link url).phase with
        | active isRetry => cases isRetry <;> simp [LinkPhase.isFirst, LinkPhase.isActive]
        | _ => simp [LinkPhase.isActive, hphase]
    · simp [severed, List.countP_eq_length_filter]

/-- The first REQs that the caller ends are reported. -/
theorem owed_close : (w.Linked → w.close.Linked) ∧ w.close.owed = w.owed := by
  constructor
  · intro h
    refine ⟨h.nodup, fun url hurl => ?_⟩
    have hgone := h.unlinked url hurl
    simp [close, hgone]
  · refine owed_of_ends (fun url => (w.link url).phase = .active false) ?_ ?_ ?_ ?_
    · rfl
    · intro url h
      rw [of_decide_eq_true h]
      rfl
    · intro url
      cases hphase : (w.link url).phase with
      | connecting isRetry => simp [close, hphase]
      | active isRetry => cases isRetry <;> simp [close, hphase, LinkPhase.isFirst]
      | _ => simp [close, hphase, LinkPhase.isFirst]
    · simp [close, List.countP_eq_length_filter]

theorem firsts_eq_zero_iff {w : StandingSub} (h : w.Linked) :
    w.firsts = 0 ↔ ∀ url, (w.link url).phase.isFirst = false := by
  unfold firsts
  rw [List.countP_eq_zero]
  constructor
  · intro hnone url
    by_cases hurl : url ∈ w.relays
    · simpa using hnone url hurl
    · rw [h.unlinked url hurl]
      rfl
  · intro hnone url _
    simp [hnone url]

end StandingSub

namespace PooledClient

open StandingSub

variable {normalizeURL : JsString → JsString} {s s' : PooledClient} {k : SubId}

/-- The connection for the first REQ of the subscription on some relay fails. -/
def FirstFails (s : PooledClient) (k : SubId) : ClientAction → Prop
  | .connected k' url ok =>
    k' = k ∧ ok = false ∧ ((s.sub k).link url).phase = .connecting false
  | _ => False

instance (s : PooledClient) (k : SubId) : ∀ a, Decidable (s.FirstFails k a)
  | .connected _ _ _ => inferInstanceAs (Decidable (_ ∧ _ ∧ _))
  | .subscribe _ | .eose _ _ | .closed _ _ _ | .retry _ _ | .close _ | .queryWithStats _
  | .queryConnected _ _ _ | .queryEose _ _ | .queryClosed _ _ _ | .queryDeadline _ _
  | .queryComplete _ | .tick _ =>
    inferInstanceAs (Decidable False)

/-- What a step does to the ends that a subscription owes: it keeps them, the caller has closed it, a
first connection fails, or it starts the subscription. -/
inductive OwedMove (s : PooledClient) (a : ClientAction) (k : SubId) : StandingSub → StandingSub → Prop
  | owes {w w' : StandingSub} (h : Owes w w') (ha : ¬ s.FirstFails k a) : OwedMove s a k w w'
  | fails {w w' : StandingSub} (hrelays : w'.relays = w.relays)
      (hlinked : w.Linked → w'.Linked) (howed : w.Linked → w'.owed + 1 = w.owed)
      (ha : s.FirstFails k a) : OwedMove s a k w w'
  | closed {w w' : StandingSub} (hrelays : w'.relays = w.relays) (hcaller : w'.callerClosed = true)
      (hlinked : w.Linked → w'.Linked) (howed : w.Linked → w'.owed ≤ w.owed)
      (ha : ¬ s.FirstFails k a) : OwedMove s a k w w'
  | begun {w w' : StandingSub} (urls : List JsString) (hnew : k = s.nextSub) (hw : w' = .new urls)
      (ha : ¬ s.FirstFails k a) : OwedMove s a k w w'

theorem owes_mark (url : JsString) :
    Owes (s.sub k) ((s.markRelayRateLimited normalizeURL url).sub k) := by
  rw [markRelayRateLimited_sub]
  split
  · exact .refl _
  · exact owes_severed _ _

/-- A subscription whose links are gone stays so when a relay is marked. -/
theorem markRelayRateLimited_gone {url : JsString} (url' : JsString)
    (h : ((s.sub k).link url).phase = .gone) :
    (((s.markRelayRateLimited normalizeURL url').sub k).link url).phase = .gone := by
  rw [markRelayRateLimited_idle url' (by rw [h]; rfl)]
  exact h

theorem armRetry_of_ne {k' : SubId} {url : JsString} (hk : k ≠ k') :
    (s.armRetry k' url).sub k = s.sub k := by
  unfold armRetry
  split
  · rfl
  · exact setSub_of_ne hk _

/-- A relay that is gone waits for its retry. -/
theorem owes_armRetry {url : JsString} (hurl : url ∈ (s.sub k).relays)
    (hgone : ((s.sub k).link url).phase = .gone) :
    Owes (s.sub k) ((s.armRetry k url).sub k) := by
  unfold armRetry
  split
  · exact .refl _
  · rw [setSub_self]
    apply owes_setPhase _ fun _ => hurl
    rw [hgone]
    rfl

theorem owes_closed {k' : SubId} {url reason : JsString} {isRetry : Bool}
    (hphase : ((s.sub k').link url).phase = .active isRetry) (hlinked : (s.sub k').Linked) :
    Owes (s.sub k) ((s.closed normalizeURL k' url isRetry reason).sub k) := by
  have hurl : url ∈ (s.sub k').relays :=
    mem_relays_of_linked hlinked (by rw [hphase]; exact LinkPhase.noConfusion)
  generalize hlimited : isRateLimitReason reason = limited
  let s₁ := s.setSub k' ((s.sub k').ended url isRetry limited reason)
  have hclosed : s.closed normalizeURL k' url isRetry reason =
      if limited then (s₁.markRelayRateLimited normalizeURL url).armRetry k' url else s₁ := by
    simp only [closed, hlimited, s₁]
  have hended : Owes (s.sub k) (s₁.sub k) := by
    by_cases hk : k = k'
    · subst hk
      simp only [s₁, setSub_self]
      exact owes_ended _ hphase limited reason
    · simp only [s₁, setSub_of_ne hk]
      exact .refl _
  rw [hclosed]
  split
  · have hmarked : Owes (s.sub k) ((s₁.markRelayRateLimited normalizeURL url).sub k) :=
      hended.trans (owes_mark url)
    by_cases hk : k = k'
    · subst hk
      apply hmarked.trans
      apply owes_armRetry
      · rw [hmarked.relays]
        exact hurl
      · apply markRelayRateLimited_gone
        simp only [s₁, setSub_self, ended_self]
    · rw [armRetry_of_ne hk]
      exact hmarked
  · exact hended

theorem owed_connected {k' : SubId} {url : JsString} {ok : Bool} (hl : (s.sub k').Linked)
    (hs : s.step normalizeURL (.connected k' url ok) = some s') :
    OwedMove s (.connected k' url ok) k (s.sub k) (s'.sub k) := by
  simp only [step] at hs
  split at hs
  case h_2 => cases hs
  rename_i isRetry hphase
  have hurl : url ∈ (s.sub k').relays :=
    mem_relays_of_linked hl (by rw [hphase]; exact LinkPhase.noConfusion)
  have hset : ∀ phase, phase.isFirst = (!isRetry) → Owes (s.sub k') ((s.sub k').setPhase url phase) := by
    intro phase hfirst
    apply owes_setPhase _ fun _ => hurl
    rw [hfirst, hphase]
    rfl
  have hlose : isRetry = false → ((s.sub k').setPhase url .gone).owed + 1 = (s.sub k').owed := by
    intro hfirst
    have hcount := firsts_update hl hurl (rfl : ((s.sub k').setPhase url .gone).relays = _)
      fun url' hne => setPhase_of_ne _ hne _
    rw [setPhase_self, hphase, hfirst] at hcount
    simp only [LinkPhase.isFirst, Bool.not_false, if_true, Bool.false_eq_true, if_false] at hcount
    have hreasons : ((s.sub k').setPhase url .gone).closeReasons = (s.sub k').closeReasons := rfl
    simp only [owed, hreasons]
    omega
  have hlinked : ((s.sub k').setPhase url .gone).Linked :=
    linked_update hl hurl rfl fun url' hne => setPhase_of_ne _ hne _
  by_cases hk : k = k'
  · subst hk
    cases ok with
    | true =>
      have hno : ¬ s.FirstFails k (.connected k url true) := by simp [FirstFails]
      simp only [if_true] at hs
      split at hs
      · rename_i hcaller
        obtain rfl := Option.some.inj hs
        rw [setSub_self]
        refine .closed rfl hcaller (fun _ => hlinked) (fun _ => ?_) hno
        cases isRetry with
        | false => exact Nat.le_of_succ_le (Nat.le_of_eq (hlose rfl))
        | true => exact Nat.le_of_eq ((hset .gone rfl).owed hl)
      · obtain rfl := Option.some.inj hs
        rw [setSub_self]
        exact .owes (hset _ rfl) hno
    | false =>
      simp only [Bool.false_eq_true, if_false] at hs
      obtain rfl := Option.some.inj hs
      rw [setSub_self]
      cases isRetry with
      | true => exact .owes (hset .gone rfl) (by simp [FirstFails, hphase])
      | false =>
        have hnote := owes_noteEose ((s.sub k).setPhase url .gone)
        refine .fails hnote.relays (fun _ => hnote.linked hlinked) (fun _ => ?_)
          ⟨rfl, rfl, hphase⟩
        have howed := hnote.owed hlinked
        have hlost := hlose rfl
        simp only [Bool.false_eq_true, if_false]
        omega
  · have hno : ¬ s.FirstFails k (.connected k' url ok) := fun h => hk h.1.symm
    have hsub : s'.sub k = s.sub k := by
      split at hs
      · split at hs <;> obtain rfl := Option.some.inj hs <;> exact setSub_of_ne hk _
      · obtain rfl := Option.some.inj hs
        exact setSub_of_ne hk _
    rw [hsub]
    exact .owes (.refl _) hno

/-- One step, for each subscription -/
theorem step_owed {a : ClientAction} (hl : ∀ k, (s.sub k).Linked)
    (hs : s.step normalizeURL a = some s') : OwedMove s a k (s.sub k) (s'.sub k) := by
  cases a with
  | connected k' url ok => exact owed_connected (hl k') hs
  | subscribe urls =>
    obtain rfl := Option.some.inj hs
    by_cases hk : k = s.nextSub
    · subst hk
      exact .begun urls rfl (setSub_self _) id
    · have hsub : (s.setSub s.nextSub (.new urls)).sub k = s.sub k := setSub_of_ne hk _
      exact .owes (by show Owes _ ((s.setSub s.nextSub (.new urls)).sub k); rw [hsub]; exact .refl _) id
  | eose k' url =>
    simp only [step] at hs
    split at hs
    case h_2 => cases hs
    obtain rfl := Option.some.inj hs
    refine .owes ?_ id
    split
    · rw [noteRelayAnswered_sub]
      exact .refl _
    · by_cases hk : k = k'
      · subst hk
        rw [setSub_self]
        exact owes_noteEose _
      · rw [setSub_of_ne hk]
        exact .refl _
  | closed k' url reason =>
    simp only [step] at hs
    split at hs
    case h_2 => cases hs
    rename_i hphase
    obtain rfl := Option.some.inj hs
    exact .owes (owes_closed hphase (hl k')) id
  | retry k' url =>
    simp only [step] at hs
    split at hs
    case h_2 => cases hs
    rename_i hphase
    split at hs
    case isFalse => cases hs
    obtain rfl := Option.some.inj hs
    refine .owes ?_ id
    by_cases hk : k = k'
    · subst hk
      rw [setSub_self]
      apply owes_setPhase
      · exact fun h => mem_relays_of_linked h (by rw [hphase]; exact LinkPhase.noConfusion)
      · rw [hphase]
        rfl
    · rw [setSub_of_ne hk]
      exact .refl _
  | close k' =>
    simp only [step] at hs
    split at hs
    case isFalse => cases hs
    obtain rfl := Option.some.inj hs
    by_cases hk : k = k'
    · subst hk
      rw [setSub_self]
      obtain ⟨hlinked, howed⟩ := owed_close (s.sub k)
      exact .closed rfl rfl hlinked (fun _ => Nat.le_of_eq howed) id
    · rw [setSub_of_ne hk]
      exact .owes (.refl _) id
  | queryWithStats urls =>
    obtain rfl := Option.some.inj hs
    exact .owes (.refl _) id
  | queryConnected q url ok =>
    simp only [step] at hs
    split at hs
    case isFalse => cases hs
    obtain rfl := Option.some.inj hs
    exact .owes (.refl _) id
  | queryEose q url =>
    simp only [step] at hs
    split at hs
    case isFalse => cases hs
    obtain rfl := Option.some.inj hs
    rw [noteRelayAnswered_sub]
    exact .owes (.refl _) id
  | queryClosed q url reason =>
    simp only [step] at hs
    split at hs
    case isFalse => cases hs
    obtain rfl := Option.some.inj hs
    refine .owes ?_ id
    split
    · exact owes_mark (s := s.setQuery q _) url
    · exact .refl _
  | queryDeadline q url =>
    simp only [step] at hs
    split at hs
    case isFalse => cases hs
    obtain rfl := Option.some.inj hs
    exact .owes (.refl _) id
  | queryComplete q =>
    obtain rfl := Option.some.inj hs
    exact .owes (.refl _) id
  | tick ms =>
    obtain rfl := Option.some.inj hs
    exact .owes (.refl _) id

/-- The ends that a subscription owes, against the first connections that failed -/
structure EndsKept (normalizeURL : JsString → JsString) (now : Nat) (k : SubId)
    (as : List ClientAction) (s : PooledClient) : Prop where
  tracked : s.Tracked
  linked : ∀ k, (s.sub k).Linked
  unstarted : s.nextSub ≤ k →
    Guarded (step normalizeURL) (fun s a => ¬ s.FirstFails k a) (init now) as
  bound : (s.sub k).owed ≤ (s.sub k).relays.length
  exact : (s.sub k).callerClosed = false →
    (Guarded (step normalizeURL) (fun s a => ¬ s.FirstFails k a) (init now) as ↔
      (s.sub k).owed = (s.sub k).relays.length)

theorem OwedMove.linked {a : ClientAction} {w w' : StandingSub} (h : OwedMove s a k w w')
    (hl : w.Linked) : w'.Linked := by
  cases h with
  | owes h _ => exact h.linked hl
  | fails _ hlinked _ _ => exact hlinked hl
  | closed _ _ hlinked _ _ => exact hlinked hl
  | begun urls _ hw _ => exact hw ▸ linked_new urls

theorem endsKept_init (normalizeURL : JsString → JsString) (now : Nat) (k : SubId) :
    EndsKept normalizeURL now k [] (init now) :=
  ⟨tracked_init now, fun _ => linked_new [], fun _ => trivial, Nat.le_of_eq (owed_new []),
    fun _ => ⟨fun _ => owed_new [], fun _ => trivial⟩⟩

theorem step_endsKept {now : Nat} {as : List ClientAction} {a : ClientAction}
    (hr : run (step normalizeURL) (init now) as = some s) (h : EndsKept normalizeURL now k as s)
    (hs : s.step normalizeURL a = some s') : EndsKept normalizeURL now k (as ++ [a]) s' := by
  have hmove : ∀ k, OwedMove s a k (s.sub k) (s'.sub k) := fun k => step_owed h.linked hs
  have hle : s'.nextSub ≤ k → s.nextSub ≤ k := by
    intro hk
    rcases step_nextSub hs with heq | ⟨heq, -⟩
    · exact heq ▸ hk
    · rw [heq] at hk
      exact Nat.le_of_succ_le hk
  have hconcat := guarded_concat (g := fun s a => ¬ s.FirstFails k a) (a := a) hr
  have htracked : s'.Tracked := step_tracked h.tracked hs
  have hlinked : ∀ k, (s'.sub k).Linked := fun k => (hmove k).linked (h.linked k)
  cases hmove k with
  | owes howes ha =>
    have howed := howes.owed (h.linked k)
    refine ⟨htracked, hlinked, fun hk => ?_, ?_, fun hopen => ?_⟩
    · exact hconcat.mpr ⟨h.unstarted (hle hk), ha⟩
    · rw [howed, howes.relays]
      exact h.bound
    · rw [howed, howes.relays, ← h.exact (howes.callerClosed ▸ hopen)]
      exact hconcat.trans (and_iff_left ha)
  | fails hrelays _ howed ha =>
    have hlost := howed (h.linked k)
    have hbound := h.bound
    have hno : ¬ Guarded (step normalizeURL) (fun s a => ¬ s.FirstFails k a) (init now)
        (as ++ [a]) := fun hg => (hconcat.mp hg).2 ha
    refine ⟨htracked, hlinked, fun hk => ?_, ?_, fun _ => iff_of_false hno ?_⟩
    · -- a subscription that has not started has no connection
      have hgone := (h.tracked.fresh k (hle hk)).2
      cases a with
      | connected k' url ok =>
        have hphase := ha.2.2
        rw [hgone url] at hphase
        cases hphase
      | _ => exact ha.elim
    · rw [hrelays]
      omega
    · rw [hrelays]
      omega
  | closed hrelays hcaller _ howed ha =>
    refine ⟨htracked, hlinked, fun hk => ?_, ?_, fun hopen => ?_⟩
    · exact hconcat.mpr ⟨h.unstarted (hle hk), ha⟩
    · rw [hrelays]
      exact Nat.le_trans (howed (h.linked k)) h.bound
    · rw [hcaller] at hopen
      cases hopen
  | begun urls hnew hw ha =>
    have hg := hconcat.mpr ⟨h.unstarted (Nat.le_of_eq hnew.symm), ha⟩
    have howed : (s'.sub k).owed = (s'.sub k).relays.length := hw ▸ owed_new urls
    exact ⟨htracked, hlinked, fun _ => hg, Nat.le_of_eq howed, fun _ => iff_of_true hg howed⟩

/-- In a run, `onclose` has told the caller that a subscription it keeps open has ended exactly when
the subscription has relays, no first connection to one of them ever failed and every first REQ has
ended; and no end is reported twice. -/
theorem closeReported_iff (normalizeURL : JsString → JsString) (now : Nat) (k : SubId)
    {as : List ClientAction} {t : PooledClient}
    (hr : run (step normalizeURL) (init now) as = some t)
    (hopen : (t.sub k).callerClosed = false) :
    (t.sub k).closeReasons.length ≤ (t.sub k).relays.length ∧
      ((t.sub k).CloseReported ↔ (t.sub k).relays ≠ [] ∧
        Guarded (step normalizeURL) (fun s a => ¬ s.FirstFails k a) (init now) as ∧
        ∀ url, ((t.sub k).link url).phase.isFirst = false) := by
  have hkept : EndsKept normalizeURL now k as t :=
    run_history (endsKept_init normalizeURL now k)
      (fun _ _ _ _ hr h hs => step_endsKept hr h hs) hr
  have hbound := hkept.bound
  have howed : (t.sub k).owed = (t.sub k).closeReasons.length + (t.sub k).firsts := rfl
  have hfirsts := firsts_eq_zero_iff (hkept.linked k)
  refine ⟨by omega, ?_⟩
  rw [hkept.exact hopen, ← hfirsts, CloseReported, ← List.length_pos_iff, ← List.length_pos_iff]
  omega

/-- A firehose on two relays, both of which end their REQ -/
def bothEnd : List ClientAction :=
  [.subscribe [js "ws://r", js "ws://q", js "ws://r"], .connected 0 (js "ws://r") true,
    .connected 0 (js "ws://q") true, .eose 0 (js "ws://r"),
    .closed 0 (js "ws://r") (js "rate-limited: slow down"),
    .closed 0 (js "ws://q") (js "error: shutting down")]

theorem closeReported_iff_bothEnd : ∃ t, run (step id) (init 0) bothEnd = some t ∧
    (t.sub 0).callerClosed = false ∧ (t.sub 0).CloseReported := by
  have hrun : (run (step id) (init 0) bothEnd).map (fun t =>
      ((t.sub 0).callerClosed, (t.sub 0).relays, (t.sub 0).firsts)) =
      some (false, [js "ws://r", js "ws://q"], 0) := by decide +kernel
  obtain ⟨t, ht, hsub⟩ := Option.map_eq_some_iff.mp hrun
  obtain ⟨hopen, hrest⟩ := Prod.mk.inj hsub
  obtain ⟨hrelays, hfirsts⟩ := Prod.mk.inj hrest
  have hg : Guarded (step id) (fun s a => ¬ s.FirstFails 0 a) (init 0) bothEnd := by
    decide +kernel
  have hkept : EndsKept id 0 0 bothEnd t :=
    run_history (endsKept_init id 0 0) (fun _ _ _ _ hr h hs => step_endsKept hr h hs) ht
  have hended := (firsts_eq_zero_iff (hkept.linked 0)).mp hfirsts
  refine ⟨t, ht, hopen, (closeReported_iff id 0 0 ht hopen).2.mpr ⟨?_, hg, hended⟩⟩
  rw [hrelays]
  exact List.cons_ne_nil _ _

end PooledClient

end LivelierBridge.Nostr
