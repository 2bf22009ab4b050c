import LivelierBridge.Nostr.ProfileMissCache

namespace LivelierBridge.Nostr

open Framework Js

namespace Misses

/-- The miss of a pubkey, up to expiry. -/
def live (m : Misses) (now : Nat) (pubkey : JsString) : Option Nat :=
  (m.get? pubkey).filter (withinTTL now)

def SameLive (m m' : Misses) (now : Nat) : Prop := ∀ pubkey, live m now pubkey = live m' now pubkey

section Live

variable {m m' m'' : Misses} {now now' : Nat} {p : JsString} {t : Nat}

theorem live_eq_some :
    live m now p = some t ↔ m.get? p = some t ∧ withinTTL now t = true := by
  simp [live, Option.filter_eq_some_iff]

theorem withinTTL_iff (h : t ≤ now) : withinTTL now t = true ↔ now < t + PROFILE_MISS_TTL_MS := by
  simp only [withinTTL, decide_eq_true_eq]
  omega

theorem withinTTL_earlier (hle : now ≤ now') (h : withinTTL now' t = true) :
    withinTTL now t = true := by
  simp only [withinTTL, decide_eq_true_eq] at h ⊢
  omega

theorem SameLive.trans (h : SameLive m m' now) (h' : SameLive m' m'' now) : SameLive m m'' now :=
  fun pubkey => (h pubkey).trans (h' pubkey)

/-- Time only takes from what is live. -/
theorem live_later (hle : now ≤ now') :
    live m now' p = (live m now p).filter (withinTTL now') := by
  unfold live
  cases m.get? p with
  | none => rfl
  | some t =>
    by_cases hlater : withinTTL now' t = true
    · simp [Option.filter, hlater, withinTTL_earlier hle hlater]
    · by_cases hnow : withinTTL now t = true <;> simp [Option.filter, hlater, hnow]

theorem SameLive.later (h : SameLive m m' now) (hle : now ≤ now') : SameLive m m' now' := by
  intro pubkey
  rw [live_later hle, live_later hle, h pubkey]

theorem SameLive.set (h : SameLive m m' now) (p : JsString) (t : Nat) :
    SameLive (m.set p t) (m'.set p t) now := by
  intro q
  unfold live
  rw [OrderedMap.get?_set, OrderedMap.get?_set]
  split
  · rfl
  · exact h q

theorem live_delete (q : JsString) :
    live (m.delete p) now q = if q = p then none else live m now q := by
  unfold live
  rw [OrderedMap.get?_delete]
  split
  · rfl
  · rfl

theorem SameLive.delete (h : SameLive m m' now) (p : JsString) :
    SameLive (m.delete p) (m'.delete p) now := by
  intro q
  rw [live_delete, live_delete, h q]

/-- Deleting what is not live -/
theorem sameLive_delete (h : live m now p = none) : SameLive (m.delete p) m now := by
  intro q
  rw [live_delete]
  split
  · rename_i hq
    rw [hq, h]
  · rfl

/-- What survives a hydration is what is live, then and later. -/
theorem sameLive_overlay {called : Nat} (hle : called ≤ now) (hpos : ∀ p t, m.get? p = some t → 0 < t) :
    SameLive ((OrderedMap.empty : Misses).overlay (survives called) m) m now := by
  intro q
  unfold live
  rw [OrderedMap.get?_overlay]
  cases hq : m.get? q with
  | none => rfl
  | some t =>
    have ht : t ≠ 0 := Nat.ne_of_gt (hpos q t hq)
    by_cases hlater : withinTTL now t = true
    · simp [Option.filter, survives, ht, hlater, withinTTL_earlier hle hlater]
    · by_cases hnow : withinTTL called t = true <;> simp [Option.filter, survives, ht, hlater, hnow]

end Live

/-- Every miss was recorded. -/
def Genuine (recorded : List (JsString × Nat)) (m : Misses) : Prop :=
  ∀ p t, m.get? p = some t → (p, t) ∈ recorded

section Genuine

variable {recorded : List (JsString × Nat)} {m : Misses}

theorem Genuine.more (h : Genuine recorded m) (more : List (JsString × Nat)) :
    Genuine (recorded ++ more) m :=
  fun p t hget => List.mem_append_left _ (h p t hget)

theorem Genuine.delete (h : Genuine recorded m) (p : JsString) : Genuine recorded (m.delete p) := by
  intro q t hget
  rw [OrderedMap.get?_delete] at hget
  split at hget
  · cases hget
  · exact h q t hget

theorem Genuine.set (h : Genuine recorded m) (p : JsString) (t : Nat) :
    Genuine (recorded ++ [(p, t)]) (m.set p t) := by
  intro q u hget
  rw [OrderedMap.get?_set] at hget
  split at hget
  · rename_i hq
    rw [hq, ← Option.some.inj hget]
    simp
  · exact List.mem_append_left _ (h q u hget)

theorem Genuine.overlay {other : Misses} (h : Genuine recorded m) (ho : Genuine recorded other)
    (keep : Nat → Bool) : Genuine recorded (m.overlay keep other) := by
  intro q t hget
  rw [OrderedMap.get?_overlay] at hget
  rcases Option.or_eq_some_iff.mp hget with hother | ⟨-, hold⟩
  · exact ho q t (Option.filter_eq_some_iff.mp hother).1
  · exact h q t hold

end Genuine

end Misses

namespace ProfileMissCache

variable {s s' : ProfileMissCache}

/-- What is in memory, on file and under way was recorded, at a time that has passed. -/
structure Grounded (s : ProfileMissCache) : Prop where
  memory : Misses.Genuine s.recorded s.misses
  stored : ∀ m ∈ s.storage.stored, Misses.Genuine s.recorded m
  waiting : ∀ v ∈ s.storage.waiting, ∀ m ∈ v, Misses.Genuine s.recorded m
  found : ∀ called m, s.hydration = .reading called (some (some m)) → Misses.Genuine s.recorded m
  past : ∀ e ∈ s.recorded, e.2 ≤ s.now
  alive : ∀ called alive, s.hydration = .finished called alive →
    ∀ p ∈ alive, ∃ t, (p, t) ∈ s.recorded ∧ called < t + PROFILE_MISS_TTL_MS

theorem grounded_init (now : Nat) : Grounded (init now) := by
  refine ⟨?_, ?_, ?_, ?_, ?_, ?_⟩ <;> simp [init, session, Misses.Genuine]

/-- Steps that record nothing and put only recorded misses in memory -/
theorem Grounded.frame (h : s.Grounded) (hrecorded : s'.recorded = s.recorded)
    (hmemory : Misses.Genuine s.recorded s'.misses) (hstorage : s'.storage = s.storage)
    (hhydration : s'.hydration = s.hydration) (hnow : s.now ≤ s'.now) : s'.Grounded := by
  refine ⟨?_, ?_, ?_, ?_, ?_, ?_⟩
  · rw [hrecorded]
    exact hmemory
  · rw [hrecorded, hstorage]
    exact h.stored
  · rw [hrecorded, hstorage]
    exact h.waiting
  · rw [hrecorded, hhydration]
    exact h.found
  · rw [hrecorded]
    exact fun e he => Nat.le_trans (h.past e he) hnow
  · rw [hrecorded, hhydration]
    exact h.alive

theorem Grounded.recordMiss (h : s.Grounded) (pubkey : JsString) : (s.recordMiss pubkey).Grounded := by
  refine ⟨h.memory.set pubkey s.now, fun m hm => (h.stored m hm).more _,
    fun v hv m hm => (h.waiting v hv m hm).more _, fun called m hf => (h.found called m hf).more _,
    ?_, ?_⟩
  · intro e he
    rcases List.mem_append.mp he with hold | hnew
    · exact h.past e hold
    · rw [List.mem_singleton.mp hnew]
      exact Nat.le_refl _
  · intro called alive hf p hp
    obtain ⟨t, ht, hlt⟩ := h.alive called alive hf p hp
    exact ⟨t, List.mem_append_left _ ht, hlt⟩

theorem Grounded.clearMiss (h : s.Grounded) (pubkey : JsString) : (s.clearMiss pubkey).Grounded := by
  unfold ProfileMissCache.clearMiss
  simp only
  split
  · exact h.frame rfl (h.memory.delete pubkey) rfl rfl (Nat.le_refl _)
  · exact h.frame rfl h.memory rfl rfl (Nat.le_refl _)

theorem Grounded.hasMiss (h : s.Grounded) (pubkey : JsString) : (s.hasMiss pubkey).2.Grounded := by
  unfold ProfileMissCache.hasMiss
  split
  · exact h
  · split
    · exact h
    · exact h.frame rfl (h.memory.delete pubkey) rfl rfl (Nat.le_refl _)

/-- A pubkey that the hydration returns -/
theorem mem_alive {called : Nat} {found : Misses} {p : JsString} :
    p ∈ alive called found ↔ ∃ t, found.get? p = some t ∧ survives called t = true := by
  simp only [alive, List.mem_map, List.mem_filter, Prod.exists, exists_and_right, exists_eq_right]
  exact exists_congr fun t => by rw [OrderedMap.get?_eq_some_iff]

theorem Grounded.hydrate (h : s.Grounded) {called : Nat} {found : Option Misses}
    (hfound : ∀ m ∈ found, Misses.Genuine s.recorded m) : (s.hydrate called found).Grounded := by
  cases found with
  | none => exact ⟨h.memory, h.stored, h.waiting, by simp [ProfileMissCache.hydrate], h.past,
      by simp [ProfileMissCache.hydrate]⟩
  | some parsed =>
    have hgenuine := hfound parsed rfl
    have hoverlay := h.memory.overlay hgenuine (survives called)
    have halive : ∀ p ∈ ProfileMissCache.alive called parsed, ∃ t, (p, t) ∈ s.recorded ∧
        called < t + PROFILE_MISS_TTL_MS := by
      intro p hp
      obtain ⟨t, hget, hsurvives⟩ := mem_alive.mp hp
      refine ⟨t, hgenuine p t hget, ?_⟩
      simp only [survives, withinTTL, Bool.and_eq_true, decide_eq_true_eq] at hsurvives
      omega
    unfold ProfileMissCache.hydrate
    simp only
    split <;>
      exact ⟨hoverlay, h.stored, h.waiting, by simp [scheduleSave], h.past,
        by simpa [scheduleSave] using halive⟩

/-- The file and the writes under way, when a write takes effect, completes or fails -/
theorem Grounded.setStorage (h : s.Grounded) {storage : StorageCell (Option Misses)}
    (hstored : storage.stored = s.storage.stored ∨ storage.stored ∈ s.storage.waiting)
    (hwaiting : storage.waiting ⊆ s.storage.waiting) : Grounded { s with storage := storage } := by
  refine ⟨h.memory, ?_, fun v hv => h.waiting v (hwaiting hv), h.found, h.past, h.alive⟩
  intro m hm
  rcases hstored with hsame | hnew
  · exact h.stored m (hsame ▸ hm)
  · exact h.waiting _ hnew m hm

theorem step_grounded {a : MissAction} (h : s.Grounded) (hs : s.step a = some s') : s'.Grounded := by
  cases a with
  | recordMiss pubkey =>
    obtain rfl := Option.some.inj hs
    exact h.recordMiss pubkey
  | clearMiss pubkey =>
    obtain rfl := Option.some.inj hs
    exact h.clearMiss pubkey
  | hasMiss pubkey =>
    obtain rfl := Option.some.inj hs
    exact h.hasMiss pubkey
  | tick ms =>
    obtain rfl := Option.some.inj hs
    exact h.frame rfl h.memory rfl rfl (Nat.le_add_right _ _)
  | restart =>
    obtain rfl := Option.some.inj hs
    exact ⟨by simp [session, Misses.Genuine], h.stored, by simp [session], by simp [session], h.past,
      by simp [session]⟩
  | hydrateAvailable isAvailable =>
    simp only [step] at hs
    split at hs
    · obtain rfl := Option.some.inj hs
      cases isAvailable with
      | true => exact ⟨h.memory, h.stored, h.waiting, by simp, h.past, by simp⟩
      | false => exact ⟨h.memory, h.stored, h.waiting, by simp, h.past, by simp⟩
    · cases hs
  | hydrateRead =>
    simp only [step] at hs
    split at hs
    · obtain rfl := Option.some.inj hs
      refine ⟨h.memory, h.stored, h.waiting, ?_, h.past, by simp⟩
      intro called m hm
      simp only [MissHydration.reading.injEq, Option.some.injEq] at hm
      exact h.stored m hm.2
    · cases hs
  | hydrateFails =>
    simp only [step] at hs
    split at hs
    · obtain rfl := Option.some.inj hs
      exact ⟨h.memory, h.stored, h.waiting, by simp, h.past, by simp⟩
    · cases hs
  | hydrated =>
    simp only [step] at hs
    split at hs
    · rename_i called found hreading
      obtain rfl := Option.some.inj hs
      apply h.hydrate
      intro m hm
      rw [Option.mem_def.mp hm] at hreading
      exact h.found called m hreading
    · cases hs
  | timer =>
    simp only [step] at hs
    split at hs
    · split at hs
      · obtain rfl := Option.some.inj hs
        exact h.frame rfl h.memory rfl rfl (Nat.le_refl _)
      · cases hs
    · cases hs
  | saveAvailable isAvailable =>
    simp only [step] at hs
    split at hs
    · cases hs
    · obtain rfl := Option.some.inj hs
      cases isAvailable with
      | false => exact h.frame rfl h.memory rfl rfl (Nat.le_refl _)
      | true =>
        refine ⟨h.memory, h.stored, ?_, h.found, h.past, h.alive⟩
        intro v hv m hm
        rcases List.mem_append.mp hv with hold | hnew
        · exact h.waiting v hold m hm
        · obtain rfl : v = some s.misses := List.mem_singleton.mp hnew
          obtain rfl : s.misses = m := by simpa using hm
          exact h.memory
  | takesEffect i =>
    obtain ⟨storage, heffect, rfl⟩ := Option.map_eq_some_iff.mp hs
    obtain ⟨hstored, hwaiting⟩ := StorageCell.effect_from heffect
    exact h.setStorage (.inr hstored) hwaiting
  | completes =>
    obtain ⟨storage, hcomplete, rfl⟩ := Option.map_eq_some_iff.mp hs
    obtain ⟨hstored, hwaiting⟩ := StorageCell.complete_eq hcomplete
    exact h.setStorage (.inl hstored) (by rw [hwaiting]; exact List.Subset.refl _)
  | rejects i =>
    obtain ⟨storage, hreject, rfl⟩ := Option.map_eq_some_iff.mp hs
    obtain ⟨hstored, hwaiting⟩ := StorageCell.reject_from hreject
    exact h.setStorage (.inl hstored) hwaiting

/-- Whatever the file system does and however often the process restarts, a miss that a session
takes up from the file or answers with was recorded less than the TTL before. -/
theorem misses_are_genuine {now : Nat} {as : List MissAction}
    (hr : run step (init now) as = some s) :
    (∀ called alive, s.hydration = .finished called alive → ∀ p ∈ alive,
      ∃ t, (p, t) ∈ s.recorded ∧ called < t + PROFILE_MISS_TTL_MS) ∧
    ∀ p, (s.hasMiss p).1 = true →
      ∃ t, (p, t) ∈ s.recorded ∧ t ≤ s.now ∧ s.now < t + PROFILE_MISS_TTL_MS := by
  have h : s.Grounded :=
    run_invariant_all (fun _ _ _ hi hs => step_grounded hi hs) (grounded_init now) hr
  refine ⟨h.alive, fun p hp => ?_⟩
  unfold hasMiss at hp
  split at hp
  · cases hp
  · rename_i t hget
    split at hp
    · rename_i hwithin
      have hmem := h.memory p t hget
      have hpast := h.past _ hmem
      exact ⟨t, hmem, hpast, (Misses.withinTTL_iff hpast).mp hwithin⟩
    · cases hp

/-- A miss is recorded and saved, and the next session takes it up. -/
def twoSessions : List MissAction :=
  [.hydrateAvailable true, .hydrateRead, .hydrated, .recordMiss (js "a"), .tick 500, .timer,
    .saveAvailable true, .takesEffect 0, .completes, .restart, .hydrateAvailable true, .hydrateRead,
    .hydrated]

theorem misses_are_genuine_twoSessions :
    ∃ s, run step (init 1) twoSessions = some s ∧
      (∀ called alive, s.hydration = .finished called alive → ∀ p ∈ alive,
        ∃ t, (p, t) ∈ s.recorded ∧ called < t + PROFILE_MISS_TTL_MS) ∧
      ∀ p, (s.hasMiss p).1 = true →
        ∃ t, (p, t) ∈ s.recorded ∧ t ≤ s.now ∧ s.now < t + PROFILE_MISS_TTL_MS := by
  have hrun : (run step (init 1) twoSessions).isSome = true := by decide +kernel
  obtain ⟨s, hs⟩ := Option.isSome_iff_exists.mp hrun
  exact ⟨s, hs, misses_are_genuine hs⟩

def hydrated (s : ProfileMissCache) : Bool :=
  match s.hydration with
  | .finished _ _ => true
  | _ => false

/-- Nothing is pending. -/
def settled (s : ProfileMissCache) : Bool :=
  s.hydrated && s.saveDebounceTimer.isNone && s.saves = 0 && s.storage.waiting.isEmpty &&
    s.storage.finishing = 0

/-- Storage answers and keeps the order of the writes, nothing is recorded or cleared before the
session has hydrated, and the process ends with nothing pending. -/
def Orderly (s : ProfileMissCache) : MissAction → Prop
  | .recordMiss _ | .clearMiss _ => s.hydrated = true
  | .hydrateAvailable isAvailable | .saveAvailable isAvailable => isAvailable = true
  | .hydrateFails | .rejects _ => False
  | .takesEffect i => i = 0
  | .restart => s.settled = true
  | .hydrateRead | .hydrated | .hasMiss _ | .timer | .completes | .tick _ => True

instance (s : ProfileMissCache) : ∀ a, Decidable (s.Orderly a)
  | .recordMiss _ | .clearMiss _ => inferInstanceAs (Decidable (s.hydrated = true))
  | .hydrateAvailable isAvailable | .saveAvailable isAvailable =>
    inferInstanceAs (Decidable (isAvailable = true))
  | .hydrateFails | .rejects _ => inferInstanceAs (Decidable False)
  | .takesEffect i => inferInstanceAs (Decidable (i = 0))
  | .restart => inferInstanceAs (Decidable (s.settled = true))
  | .hydrateRead | .hydrated | .hasMiss _ | .timer | .completes | .tick _ =>
    inferInstanceAs (Decidable True)

/-- The file, once the writes called so far have taken effect. -/
def file (s : ProfileMissCache) : Misses := s.storage.final.getD .empty

/-- A session before it has hydrated: the file agrees with the ledger. -/
structure Beginning (s : ProfileMissCache) (called : Nat) : Prop where
  began : called ≤ s.now
  memory : s.misses = .empty
  timer : s.saveDebounceTimer = none
  saves : s.saves = 0
  idle : s.storage.Idle
  file : Misses.SameLive (s.storage.stored.getD .empty) s.ledger called

/-- A session that has hydrated: memory agrees with the ledger, and so does the file unless a save is
to come. -/
structure Going (s : ProfileMissCache) : Prop where
  memory : Misses.SameLive s.misses s.ledger s.now
  saved : s.saveDebounceTimer.isSome = true ∨ 0 < s.saves ∨ Misses.SameLive s.file s.ledger s.now

def PhaseOk (s : ProfileMissCache) : Prop :=
  match s.hydration with
  | .asking called | .reading called none => s.Beginning called
  | .reading called (some found) => s.Beginning called ∧ found = s.storage.stored
  | .finished _ _ => s.Going

/-- The cache keeps to the ledger of all sessions. -/
structure KeepsLedger (s : ProfileMissCache) : Prop where
  grounded : s.Grounded
  positive : ∀ e ∈ s.recorded, 0 < e.2
  started : 0 < s.now
  phase : s.PhaseOk

/-- Steps that leave the hydration where it is -/
theorem PhaseOk.frame (h : s.PhaseOk) (hhydration : s'.hydration = s.hydration)
    (hbeginning : ∀ called, s.Beginning called →
      s'.Beginning called ∧ s'.storage.stored = s.storage.stored)
    (hgoing : s.Going → s'.Going) : s'.PhaseOk := by
  unfold PhaseOk at h ⊢
  rw [hhydration]
  cases hs : s.hydration with
  | asking called =>
    rw [hs] at h
    exact (hbeginning called h).1
  | reading called found =>
    rw [hs] at h
    cases found with
    | none => exact (hbeginning called h).1
    | some found =>
      obtain ⟨hbegin, hfound⟩ := h
      obtain ⟨hbegin', hstored⟩ := hbeginning called hbegin
      exact ⟨hbegin', hfound.trans hstored.symm⟩
  | finished called alive =>
    rw [hs] at h
    exact hgoing h

theorem keepsLedger_init {now : Nat} (hnow : 0 < now) : KeepsLedger (init now) :=
  ⟨grounded_init now, by simp [init, session], hnow,
    ⟨Nat.le_refl _, rfl, rfl, rfl, ⟨rfl, rfl⟩, fun _ => rfl⟩⟩

theorem KeepsLedger.going (h : s.KeepsLedger) (hs : s.hydrated = true) : s.Going := by
  have hphase := h.phase
  unfold hydrated at hs
  unfold PhaseOk at hphase
  split at hs
  · rename_i called alive hf
    rw [hf] at hphase
    exact hphase
  · cases hs

theorem KeepsLedger.of_going (hgrounded : s.Grounded) (hpositive : ∀ e ∈ s.recorded, 0 < e.2)
    (hnow : 0 < s.now) (hs : s.hydrated = true) (hgoing : s.Going) : s.KeepsLedger := by
  refine ⟨hgrounded, hpositive, hnow, ?_⟩
  unfold hydrated at hs
  unfold PhaseOk
  split at hs
  · rename_i called alive hf
    rw [hf]
    exact hgoing
  · cases hs

theorem Going.recordMiss (h : s.Going) (pubkey : JsString) : (s.recordMiss pubkey).Going :=
  ⟨h.memory.set pubkey s.now, .inl rfl⟩

theorem Going.clearMiss (h : s.Going) (pubkey : JsString) : (s.clearMiss pubkey).Going := by
  unfold ProfileMissCache.clearMiss
  simp only
  split
  · exact ⟨h.memory.delete pubkey, .inl rfl⟩
  · rename_i hhas
    have hnone : s.misses.get? pubkey = none := by
      simpa [OrderedMap.has, Option.isSome_iff_ne_none] using hhas
    have hledger : Misses.live s.ledger s.now pubkey = none := by
      rw [← h.memory pubkey, Misses.live, hnone]
      rfl
    have hsame : Misses.SameLive s.ledger (s.ledger.delete pubkey) s.now :=
      fun q => (Misses.sameLive_delete hledger q).symm
    exact ⟨h.memory.trans hsame, h.saved.imp_right fun hs => hs.imp_right fun hf => hf.trans hsame⟩

theorem Going.hasMiss (h : s.Going) (pubkey : JsString) : (s.hasMiss pubkey).2.Going := by
  unfold ProfileMissCache.hasMiss
  split
  · exact h
  · rename_i missedAt hget
    split
    · exact h
    · rename_i hexpired
      have hnone : Misses.live s.misses s.now pubkey = none := by
        simp [Misses.live, hget, Option.filter, hexpired]
      exact ⟨(Misses.sameLive_delete hnone).trans h.memory, .inl rfl⟩

theorem Going.tick (h : s.Going) (ms : Nat) : Going { s with now := s.now + ms } :=
  ⟨h.memory.later (Nat.le_add_right _ _),
    h.saved.imp_right fun hs => hs.imp_right fun hf => hf.later (Nat.le_add_right _ _)⟩

/-- A write that takes effect or completes leaves what the file is going to be. -/
theorem Going.setStorage (h : s.Going) {storage : StorageCell (Option Misses)}
    (hfinal : storage.final = s.storage.final) : Going { s with storage := storage } := by
  refine ⟨h.memory, h.saved.imp_right fun hs => hs.imp_right fun hf => ?_⟩
  simpa [file, hfinal] using hf

theorem Beginning.frame {called : Nat} (h : s.Beginning called) (hmisses : s'.misses = s.misses)
    (htimer : s'.saveDebounceTimer = s.saveDebounceTimer) (hsaves : s'.saves = s.saves)
    (hstorage : s'.storage = s.storage) (hledger : s'.ledger = s.ledger) (hnow : s.now ≤ s'.now) :
    s'.Beginning called := by
  refine ⟨Nat.le_trans h.began hnow, hmisses.trans h.memory, htimer.trans h.timer,
    hsaves.trans h.saves, ?_, ?_⟩
  · rw [hstorage]
    exact h.idle
  · rw [hstorage, hledger]
    exact h.file

/-- What a hydration takes up is what the ledger holds. -/
theorem Beginning.hydrate {called : Nat} (h : s.Beginning called) (hgrounded : s.Grounded)
    (hpositive : ∀ e ∈ s.recorded, 0 < e.2) :
    (s.hydrate called s.storage.stored).Going ∧
      (s.hydrate called s.storage.stored).hydrated = true := by
  have hfile := h.file
  have hfinal : s.file = s.storage.stored.getD .empty := by
    rw [ProfileMissCache.file, StorageCell.final_idle h.idle]
  cases hstored : s.storage.stored with
  | none =>
    rw [hstored] at hfile hfinal
    refine ⟨⟨?_, .inr (.inr ?_)⟩, rfl⟩
    · have hmemory : (s.hydrate called none).misses = .empty := h.memory
      rw [hmemory]
      exact hfile.later h.began
    · have hsame : (s.hydrate called none).file = s.file := rfl
      rw [hsame, hfinal]
      exact hfile.later h.began
  | some parsed =>
    rw [hstored] at hfile hfinal
    have hpos : ∀ p t, parsed.get? p = some t → 0 < t := fun p t hget =>
      hpositive (p, t) (hgrounded.stored parsed (by rw [hstored]; rfl) p t hget)
    have hmemory : Misses.SameLive (s.misses.overlay (survives called) parsed) s.ledger s.now := by
      rw [h.memory]
      exact (Misses.sameLive_overlay h.began hpos).trans (hfile.later h.began)
    have hsaved : Misses.SameLive s.file s.ledger s.now := by
      rw [hfinal]
      exact hfile.later h.began
    unfold ProfileMissCache.hydrate
    simp only
    split
    · exact ⟨⟨hmemory, .inl rfl⟩, rfl⟩
    · exact ⟨⟨hmemory, .inr (.inr hsaved)⟩, rfl⟩

theorem settled_iff : s.settled = true ↔
    s.hydrated = true ∧ s.saveDebounceTimer = none ∧ s.saves = 0 ∧ s.storage.Idle := by
  simp only [settled, Bool.and_eq_true, Option.isNone_iff_eq_none, decide_eq_true_eq,
    List.isEmpty_iff, StorageCell.Idle, and_assoc]

/-- The next session begins with a file that agrees with the ledger. -/
theorem KeepsLedger.restart (h : s.KeepsLedger) (hs : s.settled = true) :
    (session s.now s.storage.stored s.recorded s.ledger).Beginning s.now := by
  obtain ⟨hhydrated, htimer, hsaves, hidle⟩ := settled_iff.mp hs
  refine ⟨Nat.le_refl _, rfl, rfl, rfl, ⟨rfl, rfl⟩, ?_⟩
  rcases (h.going hhydrated).saved with harmed | hsaving | hfile
  · rw [htimer] at harmed
    cases harmed
  · omega
  · rwa [file, StorageCell.final_idle hidle] at hfile

theorem step_positive {a : MissAction} (h : ∀ e ∈ s.recorded, 0 < e.2) (hnow : 0 < s.now)
    (hs : s.step a = some s') : (∀ e ∈ s'.recorded, 0 < e.2) ∧ 0 < s'.now := by
  cases a with
  | recordMiss pubkey =>
    obtain rfl := Option.some.inj hs
    refine ⟨fun e he => ?_, hnow⟩
    rcases List.mem_append.mp he with hold | hnew
    · exact h e hold
    · rw [List.mem_singleton.mp hnew]
      exact hnow
  | tick ms =>
    obtain rfl := Option.some.inj hs
    exact ⟨h, Nat.lt_of_lt_of_le hnow (Nat.le_add_right _ _)⟩
  | clearMiss pubkey =>
    obtain rfl := Option.some.inj hs
    unfold ProfileMissCache.clearMiss
    simp only
    split <;> exact ⟨h, hnow⟩
  | hasMiss pubkey =>
    obtain rfl := Option.some.inj hs
    unfold ProfileMissCache.hasMiss
    split
    · exact ⟨h, hnow⟩
    · split <;> exact ⟨h, hnow⟩
  | hydrated =>
    simp only [step] at hs
    split at hs
    · obtain rfl := Option.some.inj hs
      unfold hydrate
      split
      · exact ⟨h, hnow⟩
      · simp only
        split <;> exact ⟨h, hnow⟩
    · cases hs
  | takesEffect | completes | rejects =>
    obtain ⟨storage, -, rfl⟩ := Option.map_eq_some_iff.mp hs
    exact ⟨h, hnow⟩
  | restart =>
    obtain rfl := Option.some.inj hs
    exact ⟨h, hnow⟩
  | hydrateAvailable | hydrateRead | hydrateFails =>
    simp only [step] at hs
    split at hs
    · obtain rfl := Option.some.inj hs
      exact ⟨h, hnow⟩
    · cases hs
  | timer =>
    simp only [step] at hs
    split at hs
    · split at hs
      · obtain rfl := Option.some.inj hs
        exact ⟨h, hnow⟩
      · cases hs
    · cases hs
  | saveAvailable isAvailable =>
    simp only [step] at hs
    split at hs
    · cases hs
    · obtain rfl := Option.some.inj hs
      exact ⟨h, hnow⟩

/-- One step of an orderly run. -/
theorem step_keepsLedger {a : MissAction} (h : s.KeepsLedger) (ha : s.Orderly a)
    (hs : s.step a = some s') : s'.KeepsLedger := by
  have hgrounded := step_grounded h.grounded hs
  obtain ⟨hpositive, hnow⟩ := step_positive h.positive h.started hs
  have hphase := h.phase
  cases a with
  | recordMiss pubkey =>
    obtain rfl := Option.some.inj hs
    exact .of_going hgrounded hpositive hnow ha ((h.going ha).recordMiss pubkey)
  | clearMiss pubkey =>
    obtain rfl := Option.some.inj hs
    refine .of_going hgrounded hpositive hnow ?_ ((h.going ha).clearMiss pubkey)
    unfold ProfileMissCache.clearMiss
    simp only
    split
    · exact ha
    · exact ha
  | hydrateFails => exact absurd ha id
  | rejects i => exact absurd ha id
  | restart =>
    obtain rfl := Option.some.inj hs
    exact ⟨hgrounded, hpositive, hnow, h.restart ha⟩
  | hydrateAvailable isAvailable =>
    obtain rfl : isAvailable = true := ha
    simp only [step] at hs
    split at hs
    · rename_i called hasking
      obtain rfl := Option.some.inj hs
      have hbegin : s.Beginning called := by simpa [PhaseOk, hasking] using hphase
      exact ⟨hgrounded, hpositive, hnow, hbegin.frame rfl rfl rfl rfl rfl (Nat.le_refl _)⟩
    · cases hs
  | hydrateRead =>
    simp only [step] at hs
    split at hs
    · rename_i called hreading
      obtain rfl := Option.some.inj hs
      have hbegin : s.Beginning called := by simpa [PhaseOk, hreading] using hphase
      exact ⟨hgrounded, hpositive, hnow, hbegin.frame rfl rfl rfl rfl rfl (Nat.le_refl _), rfl⟩
    · cases hs
  | hydrated =>
    simp only [step] at hs
    split at hs
    · rename_i called found hreading
      obtain rfl := Option.some.inj hs
      obtain ⟨hbegin, rfl⟩ : s.Beginning called ∧ found = s.storage.stored := by
        simpa [PhaseOk, hreading] using hphase
      obtain ⟨hgoing, hdone⟩ := hbegin.hydrate h.grounded h.positive
      exact .of_going hgrounded hpositive hnow hdone hgoing
    · cases hs
  | hasMiss pubkey =>
    obtain rfl := Option.some.inj hs
    refine ⟨hgrounded, hpositive, hnow, hphase.frame ?_ ?_ fun hgoing => hgoing.hasMiss pubkey⟩
    · unfold ProfileMissCache.hasMiss
      split
      · rfl
      · split <;> rfl
    · intro called hbegin
      have hsame : (s.hasMiss pubkey).2 = s := by simp [ProfileMissCache.hasMiss, hbegin.memory]
      rw [hsame]
      exact ⟨hbegin, rfl⟩
  | timer =>
    simp only [step] at hs
    split at hs
    · rename_i due harmed
      split at hs
      · obtain rfl := Option.some.inj hs
        refine ⟨hgrounded, hpositive, hnow, hphase.frame rfl ?_ fun hgoing => ?_⟩
        · intro called hbegin
          rw [hbegin.timer] at harmed
          cases harmed
        · exact ⟨hgoing.memory, .inr (.inl (Nat.succ_pos _))⟩
      · cases hs
    · cases hs
  | saveAvailable isAvailable =>
    obtain rfl : isAvailable = true := ha
    simp only [step] at hs
    split at hs
    · cases hs
    · rename_i hsaves
      obtain rfl := Option.some.inj hs
      refine ⟨hgrounded, hpositive, hnow, hphase.frame rfl ?_ fun hgoing => ?_⟩
      · intro called hbegin
        exact absurd hbegin.saves hsaves
      · refine ⟨hgoing.memory, .inr (.inr ?_)⟩
        simpa [file, save] using hgoing.memory
  | takesEffect i =>
    obtain rfl : i = 0 := ha
    obtain ⟨storage, heffect, rfl⟩ := Option.map_eq_some_iff.mp hs
    refine ⟨hgrounded, hpositive, hnow, hphase.frame rfl ?_ fun hgoing => ?_⟩
    · intro called hbegin
      have hwaiting := (StorageCell.effect_first heffect).1
      rw [hbegin.idle.1] at hwaiting
      cases hwaiting
    · exact hgoing.setStorage (StorageCell.final_effect heffect)
  | completes =>
    obtain ⟨storage, hcomplete, rfl⟩ := Option.map_eq_some_iff.mp hs
    refine ⟨hgrounded, hpositive, hnow, hphase.frame rfl ?_ fun hgoing => ?_⟩
    · intro called hbegin
      simp [StorageCell.complete, hbegin.idle.2] at hcomplete
    · exact hgoing.setStorage (StorageCell.final_complete hcomplete)
  | tick ms =>
    obtain rfl := Option.some.inj hs
    refine ⟨hgrounded, hpositive, hnow, hphase.frame rfl ?_ fun hgoing => hgoing.tick ms⟩
    intro called hbegin
    exact ⟨hbegin.frame rfl rfl rfl rfl rfl (Nat.le_add_right _ _), rfl⟩

theorem hydrate_returns (called : Nat) (found : Option Misses) :
    (s.hydrate called found).hydration = .finished called (alive called (found.getD .empty)) := by
  cases found with
  | none => rfl
  | some parsed =>
    unfold hydrate
    simp only
    split <;> rfl

/-- A session takes up what the ledger holds unexpired. -/
theorem Beginning.mem_alive {called : Nat} (h : s.Beginning called) (hgrounded : s.Grounded)
    (hpositive : ∀ e ∈ s.recorded, 0 < e.2) (p : JsString) :
    p ∈ alive called (s.storage.stored.getD .empty) ↔
      ∃ t, s.ledger.get? p = some t ∧ called - t < PROFILE_MISS_TTL_MS := by
  have hpos : ∀ t, (s.storage.stored.getD .empty).get? p = some t → t ≠ 0 := by
    intro t hget
    cases hstored : s.storage.stored with
    | none =>
      rw [hstored] at hget
      cases hget
    | some parsed =>
      rw [hstored] at hget
      exact Nat.ne_of_gt (hpositive (p, t) (hgrounded.stored parsed (by rw [hstored]; rfl) p t hget))
  have hlive : p ∈ alive called (s.storage.stored.getD .empty) ↔
      ∃ t, Misses.live (s.storage.stored.getD .empty) called p = some t := by
    rw [ProfileMissCache.mem_alive]
    apply exists_congr
    intro t
    rw [Misses.live_eq_some]
    apply and_congr_right
    intro hget
    simp [survives, hpos t hget]
  rw [hlive, h.file p]
  exact exists_congr fun t => by simp [Misses.live_eq_some, withinTTL]

/-- Over any number of sessions the cache answers from one ledger: a pubkey has a miss exactly when
its last miss was not cleared and has not expired, and a session takes up exactly these. -/
theorem missCache_refines_ledger {now : Nat} (hnow : 0 < now) {as : List MissAction}
    (hg : Guarded step Orderly (init now) as) (hr : run step (init now) as = some s) :
    (s.hydrated = true → ∀ p, (s.hasMiss p).1 = true ↔
      ∃ t, s.ledger.get? p = some t ∧ s.now - t < PROFILE_MISS_TTL_MS) ∧
    ∀ s', s.step .hydrated = some s' → ∃ called alive, s'.hydration = .finished called alive ∧
      ∀ p, p ∈ alive ↔ ∃ t, s.ledger.get? p = some t ∧ called - t < PROFILE_MISS_TTL_MS := by
  have h : s.KeepsLedger :=
    run_invariant (fun _ _ _ hi ha hs => step_keepsLedger hi ha hs) (keepsLedger_init hnow) hg hr
  constructor
  · intro hdone p
    have hmemory := (h.going hdone).memory p
    have hlive : (s.hasMiss p).1 = true ↔ ∃ t, Misses.live s.misses s.now p = some t := by
      unfold hasMiss Misses.live
      cases s.misses.get? p with
      | none => simp
      | some t => by_cases hwithin : withinTTL s.now t = true <;> simp [Option.filter, hwithin]
    rw [hlive, hmemory]
    exact exists_congr fun t => by simp [Misses.live_eq_some, withinTTL]
  · intro s' hs
    simp only [step] at hs
    split at hs
    · rename_i called found hreading
      obtain rfl := Option.some.inj hs
      obtain ⟨hbegin, rfl⟩ : s.Beginning called ∧ found = s.storage.stored := by
        simpa [PhaseOk, hreading] using h.phase
      exact ⟨called, _, hydrate_returns called _, hbegin.mem_alive h.grounded h.positive⟩
    · cases hs

theorem missCache_refines_ledger_twoSessions :
    ∃ s, run step (init 1) twoSessions = some s ∧ s.hydration = .finished 501 [js "a"] ∧
      (s.hydrated = true → ∀ p, (s.hasMiss p).1 = true ↔
        ∃ t, s.ledger.get? p = some t ∧ s.now - t < PROFILE_MISS_TTL_MS) ∧
      ∀ s', s.step .hydrated = some s' → ∃ called alive, s'.hydration = .finished called alive ∧
        ∀ p, p ∈ alive ↔ ∃ t, s.ledger.get? p = some t ∧ called - t < PROFILE_MISS_TTL_MS := by
  have hrun : (run step (init 1) twoSessions).map ProfileMissCache.hydration =
      some (.finished 501 [js "a"]) :=
    rfl
  obtain ⟨s, hs, hhydration⟩ := Option.map_eq_some_iff.mp hrun
  exact ⟨s, hs, hhydration,
    missCache_refines_ledger Nat.zero_lt_one (by decide +kernel) hs⟩

end ProfileMissCache

end LivelierBridge.Nostr
