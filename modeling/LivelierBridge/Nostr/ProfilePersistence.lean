import LivelierBridge.Framework.Run
import LivelierBridge.Framework.StorageCell
import LivelierBridge.Nostr.ProfileCache

namespace LivelierBridge.Nostr

open Framework Js

/-- What a file of profiles holds. -/
abbrev Profiles (ν : Type) := OrderedMap JsString (CachedProfile ν)

/-- The test of the load: a profile without a time counts as expired. -/
def CachedProfile.fresh {ν : Type} (profile : CachedProfile ν) (now : Nat) : Bool :=
  profile.timestamp ≠ 0 && now - profile.timestamp < ProfileCache.CACHE_TTL

/-- The profile without its access metadata. -/
def CachedProfile.record {ν : Type} (profile : CachedProfile ν) : CachedProfile ν :=
  { profile with lastAccessed := 0, accessCount := 0 }

namespace Profiles

variable {ν : Type}

/-- What the profiles hold for a pubkey, up to expiry and access metadata. -/
def live (m : Profiles ν) (now : Nat) (pubkey : JsString) : Option (CachedProfile ν) :=
  ((m.get? pubkey).filter fun profile => profile.fresh now).map CachedProfile.record

def SameLive (m m' : Profiles ν) (now : Nat) : Prop :=
  ∀ pubkey, live m now pubkey = live m' now pubkey

def noneFresh (m : Profiles ν) (now : Nat) : Bool := m.entries.all fun e => !e.2.fresh now

section Live

variable {m m' m'' : Profiles ν} {now now' : Nat} {p q : JsString}

theorem SameLive.refl (m : Profiles ν) (now : Nat) : SameLive m m now := fun _ => rfl

theorem SameLive.symm (h : SameLive m m' now) : SameLive m' m now := fun pubkey => (h pubkey).symm

theorem SameLive.trans (h : SameLive m m' now) (h' : SameLive m' m'' now) : SameLive m m'' now :=
  fun pubkey => (h pubkey).trans (h' pubkey)

@[simp] theorem live_empty : live (.empty : Profiles ν) now p = none := rfl

theorem live_eq_none :
    live m now p = none ↔ ∀ profile, m.get? p = some profile → profile.fresh now = false := by
  unfold live
  cases m.get? p with
  | none => simp
  | some profile => simp

theorem live_of_noneFresh (h : noneFresh m now = true) : live m now p = none := by
  apply live_eq_none.mpr
  intro profile hget
  have hmem := (OrderedMap.get?_eq_some_iff m p profile).mp hget
  simpa using List.all_eq_true.mp h (p, profile) hmem

/-- Time only takes from what is live. -/
theorem live_later (hle : now ≤ now') :
    live m now' p = (live m now p).filter fun profile => profile.fresh now' := by
  unfold live
  cases m.get? p with
  | none => rfl
  | some profile =>
    have hrecord : profile.record.fresh now' = profile.fresh now' := rfl
    by_cases hlater : profile.fresh now' = true
    · have hnow : profile.fresh now = true := by
        simp only [CachedProfile.fresh, Bool.and_eq_true, decide_eq_true_eq] at hlater ⊢
        exact ⟨hlater.1, by omega⟩
      simp [Option.filter, hlater, hnow, hrecord]
    · by_cases hnow : profile.fresh now = true
      · simp [Option.filter, hlater, hnow, hrecord]
      · simp [Option.filter, hlater, hnow]

theorem SameLive.later (h : SameLive m m' now) (hle : now ≤ now') : SameLive m m' now' := by
  intro pubkey
  rw [live_later hle, live_later hle, h pubkey]

theorem live_none_later (h : live m now p = none) (hle : now ≤ now') : live m now' p = none := by
  rw [live_later hle, h]
  rfl

end Live

end Profiles

namespace ProfileCache

variable {ν : Type}

/-- The load puts what has not expired over what is there. -/
def populate (c : ProfileCache ν) (profiles : Profiles ν) (now : Nat) : ProfileCache ν :=
  ⟨profiles.entries.foldl (fun m e => if e.2.fresh now then m.set e.1 e.2 else m) c.cache⟩

section Populate

variable {c : ProfileCache ν} {profiles : Profiles ν} {now : Nat} {p : JsString}

theorem get?_populate : (c.populate profiles now).cache.get? p =
    ((profiles.get? p).filter fun profile => profile.fresh now).or (c.cache.get? p) := by
  obtain ⟨es, hnodup⟩ := profiles
  obtain ⟨m⟩ := c
  unfold populate
  simp only [OrderedMap.get?]
  induction es generalizing m with
  | nil => simp [OrderedMap.find]
  | cons e es ih =>
    obtain ⟨k, profile⟩ := e
    obtain ⟨hk, hrest⟩ := List.nodup_cons.mp hnodup
    simp only [List.foldl_cons]
    rw [ih hrest]
    by_cases hp : k = p
    · subst hp
      rw [OrderedMap.find_eq_none hk]
      by_cases hfresh : profile.fresh now = true
      · have hset := OrderedMap.get?_set_self m k profile
        simp only [OrderedMap.find, if_true, hfresh, Option.filter]
        exact hset
      · simp [OrderedMap.find, Option.filter, hfresh]
    · have hset := OrderedMap.get?_set_of_ne m (Ne.symm hp) profile
      simp only [OrderedMap.find, if_neg hp]
      congr 1
      split_ifs
      · exact hset
      · rfl

/-- The load leaves alone what it has no live profile for. -/
theorem populate_keeps (h : Profiles.live profiles now p = none) :
    (c.populate profiles now).cache.get? p = c.cache.get? p := by
  rw [get?_populate]
  cases hget : profiles.get? p with
  | none => rfl
  | some profile =>
    have hfresh := Profiles.live_eq_none.mp h profile hget
    simp [Option.filter, hfresh]

theorem populate_empty (h : c.cache = .empty) :
    Profiles.SameLive (c.populate profiles now).cache profiles now := by
  intro pubkey
  unfold Profiles.live
  rw [get?_populate, h]
  cases profiles.get? pubkey with
  | none => rfl
  | some profile => by_cases hfresh : profile.fresh now = true <;> simp [Option.filter, hfresh]

theorem not_fresh_of_expired {profile : CachedProfile ν} (h : expired profile now = true) :
    profile.fresh now = false := by
  simp only [expired, Bool.and_eq_true, decide_eq_true_eq] at h
  simp only [CachedProfile.fresh, Bool.and_eq_false_iff, decide_eq_false_iff_not]
  right
  omega

theorem sameLive_remove {profile : CachedProfile ν} (hget : c.cache.get? p = some profile)
    (h : expired profile now = true) : Profiles.SameLive (c.remove p).cache c.cache now := by
  intro q
  unfold Profiles.live
  rw [remove, OrderedMap.get?_delete]
  by_cases hq : q = p
  · rw [if_pos hq, hq, hget]
    simp [Option.filter, not_fresh_of_expired h]
  · rw [if_neg hq]

theorem sameLive_hasProfile (c : ProfileCache ν) (p : JsString) (now : Nat) :
    Profiles.SameLive (c.hasProfile p now).2.cache c.cache now := by
  unfold hasProfile
  split
  · exact .refl _ now
  · rename_i profile hget
    split_ifs with hexpired
    · exact sameLive_remove hget hexpired
    · exact .refl _ now

/-- A read changes access metadata only. -/
theorem sameLive_getProfile (c : ProfileCache ν) (p : JsString) (now : Nat) :
    Profiles.SameLive (c.getProfile p now).2.cache c.cache now := by
  unfold getProfile
  split
  · exact .refl _ now
  · rename_i profile hget
    split_ifs with hexpired
    · exact sameLive_remove hget hexpired
    · intro q
      unfold Profiles.live
      rw [OrderedMap.get?_set]
      by_cases hq : q = p
      · rw [if_pos hq, hq, hget]
        by_cases hfresh : profile.fresh now = true
        · have hread : CachedProfile.fresh { profile with
              lastAccessed := now, accessCount := profile.accessCount + 1 } now = true := hfresh
          simp [Option.filter, hfresh, hread, CachedProfile.record]
        · have hread : CachedProfile.fresh { profile with
              lastAccessed := now, accessCount := profile.accessCount + 1 } now = false :=
            Bool.eq_false_of_not_eq_true hfresh
          simp [Option.filter, hfresh, hread]
      · rw [if_neg hq]

end Populate

end ProfileCache

inductive CacheLoad (ν : Type) where
  | asking
  /-- `getItem` was called; what it found, once the read has taken effect. -/
  | reading (found : Option (Option (Profiles ν)))
  | finished

/-- The service with its file. -/
structure ProfileCacheService (ν : Type) where
  cache : ProfileCache ν
  load : CacheLoad ν
  /-- When the debounced save is due. -/
  saveDebounceTimer : Option Nat
  /-- The saves that wait for `isAvailable`. -/
  saves : Nat
  storage : StorageCell (Option (Profiles ν))
  now : Nat
  /-- The pubkeys that were stored or removed, and whether the cache was cleared; no code reads
  either. -/
  touched : List JsString
  cleared : Bool

inductive CacheAction (ν : Type) where
  | storeProfile (pubkey : JsString) (profile : CachedProfile ν)
  | removeProfile (pubkey : JsString)
  | clear
  | hasProfile (pubkey : JsString)
  | getProfile (pubkey : JsString)
  | loadAvailable (isAvailable : Bool)
  | loadRead
  | loadFails
  | loaded
  | timer
  | saveAvailable (isAvailable : Bool)
  /-- The call at this place among those without effect takes effect. -/
  | takesEffect (i : Nat)
  | completes
  | rejects (i : Nat)
  | tick (ms : Nat)

namespace ProfileCacheService

variable {ν : Type}

def SAVE_DEBOUNCE_MS : Nat := 500

/-- A new service on the file that an earlier session left. -/
def init (now : Nat) (stored : Option (Profiles ν)) : ProfileCacheService ν :=
  ⟨⟨.empty⟩, .asking, none, 0, ⟨stored, [], 0⟩, now, [], false⟩

def initialized (s : ProfileCacheService ν) : Bool :=
  match s.load with
  | .finished => true
  | _ => false

def storeProfile (s : ProfileCacheService ν) (pubkey : JsString) (profile : CachedProfile ν) :
    ProfileCacheService ν :=
  { s with
    cache := s.cache.storeProfile pubkey profile s.now
    saveDebounceTimer := some (s.now + SAVE_DEBOUNCE_MS)
    touched := pubkey :: s.touched }

def removeProfile (s : ProfileCacheService ν) (pubkey : JsString) : ProfileCacheService ν :=
  let s := { s with touched := pubkey :: s.touched }
  if s.initialized && s.cache.cache.has pubkey then
    { s with cache := s.cache.remove pubkey, saves := s.saves + 1 }
  else s

/-- Neither the debounce timer nor a save under way is told. -/
def clear (s : ProfileCacheService ν) : ProfileCacheService ν :=
  { s with cache := ⟨.empty⟩, storage := s.storage.call none, cleared := true }

def hasProfile (s : ProfileCacheService ν) (pubkey : JsString) : ProfileCacheService ν :=
  if s.initialized then { s with cache := (s.cache.hasProfile pubkey s.now).2 } else s

def getProfile (s : ProfileCacheService ν) (pubkey : JsString) : ProfileCacheService ν :=
  if s.initialized then { s with cache := (s.cache.getProfile pubkey s.now).2 } else s

/-- The rest of a save: the map as it is now goes out. -/
def saveToStorage (s : ProfileCacheService ν) (isAvailable : Bool) : ProfileCacheService ν :=
  { s with
    saves := s.saves - 1
    storage := if isAvailable then s.storage.call (some s.cache.cache) else s.storage }

def step (s : ProfileCacheService ν) : CacheAction ν → Option (ProfileCacheService ν)
  | .storeProfile pubkey profile => some (s.storeProfile pubkey profile)
  | .removeProfile pubkey => some (s.removeProfile pubkey)
  | .clear => some s.clear
  | .hasProfile pubkey => some (s.hasProfile pubkey)
  | .getProfile pubkey => some (s.getProfile pubkey)
  | .loadAvailable isAvailable =>
    match s.load with
    | .asking => some { s with load := if isAvailable then .reading none else .finished }
    | _ => none
  | .loadRead =>
    match s.load with
    | .reading none => some { s with load := .reading (some s.storage.stored) }
    | _ => none
  | .loadFails =>
    match s.load with
    | .reading _ => some { s with load := .finished }
    | _ => none
  | .loaded =>
    match s.load with
    | .reading (some found) =>
      some { s with cache := s.cache.populate (found.getD .empty) s.now, load := .finished }
    | _ => none
  | .timer =>
    match s.saveDebounceTimer with
    | some due =>
      if due ≤ s.now then some { s with saveDebounceTimer := none, saves := s.saves + 1 } else none
    | none => none
  | .saveAvailable isAvailable => if s.saves = 0 then none else some (s.saveToStorage isAvailable)
  | .takesEffect i => (s.storage.effect i).map fun storage => { s with storage }
  | .completes => s.storage.complete.map fun storage => { s with storage }
  | .rejects i => (s.storage.reject i).map fun storage => { s with storage }
  | .tick ms => some { s with now := s.now + ms }

/-- The profiles on file. -/
def file (s : ProfileCacheService ν) : Profiles ν := s.storage.stored.getD .empty

/-- Nothing is pending. -/
def Settled (s : ProfileCacheService ν) : Prop :=
  s.initialized = true ∧ s.saveDebounceTimer = none ∧ s.saves = 0 ∧ s.storage.Idle

/-- File and memory hold the same, up to expired entries and access metadata. -/
def Agrees (s : ProfileCacheService ν) : Prop := Profiles.SameLive s.cache.cache s.file s.now

/-- What was stored, removed or cleared is as it was. -/
def Undisturbed (s s' : ProfileCacheService ν) : Prop :=
  ∀ pubkey, pubkey ∈ s.touched ∨ s.cleared = true →
    s'.cache.cache.get? pubkey = s.cache.cache.get? pubkey

/-- A step that ends the initial load undoes nothing, and the file is up to date once nothing is
pending. -/
structure Lossless (s : ProfileCacheService ν) : Prop where
  undisturbed : ∀ a s', s.initialized = false → s.step a = some s' → s'.initialized = true →
    s.Undisturbed s'
  persisted : s.Settled → s.Agrees

/-- What is asked of a step: before the load has ended no write is called, and what is stored,
removed or cleared is not on file; the storage does not fail, and takes the calls in order. -/
def InOrder (s : ProfileCacheService ν) : CacheAction ν → Prop
  | .storeProfile pubkey _ | .removeProfile pubkey =>
    s.initialized = true ∨ (Profiles.live s.file s.now pubkey).isNone = true
  | .clear => s.initialized = true ∨ Profiles.noneFresh s.file s.now = true
  | .loadAvailable isAvailable => isAvailable = true
  | .loadFails => False
  | .saveAvailable isAvailable => s.initialized = true ∧ isAvailable = true
  | .takesEffect i => i = 0
  | .rejects _ => False
  | .hasProfile _ | .getProfile _ | .loadRead | .loaded | .timer | .completes | .tick _ => True

instance (s : ProfileCacheService ν) : (a : CacheAction ν) → Decidable (s.InOrder a)
  | .storeProfile pubkey _ | .removeProfile pubkey =>
    inferInstanceAs (Decidable
      (s.initialized = true ∨ (Profiles.live s.file s.now pubkey).isNone = true))
  | .clear =>
    inferInstanceAs (Decidable (s.initialized = true ∨ Profiles.noneFresh s.file s.now = true))
  | .loadAvailable isAvailable => inferInstanceAs (Decidable (isAvailable = true))
  | .loadFails | .rejects _ => inferInstanceAs (Decidable False)
  | .saveAvailable isAvailable =>
    inferInstanceAs (Decidable (s.initialized = true ∧ isAvailable = true))
  | .takesEffect i => inferInstanceAs (Decidable (i = 0))
  | .hasProfile _ | .getProfile _ | .loadRead | .loaded | .timer | .completes | .tick _ =>
    inferInstanceAs (Decidable True)

/-- While the load is under way only deletions wait, and what the session touched is not on file. -/
structure Loading (s : ProfileCacheService ν) : Prop where
  touched : ∀ pubkey ∈ s.touched, Profiles.live s.file s.now pubkey = none
  cleared : s.cleared = true → ∀ pubkey, Profiles.live s.file s.now pubkey = none
  waiting : ∀ v ∈ s.storage.waiting, v = none ∧ s.cleared = true
  found : ∀ v, s.load = .reading (some v) → Profiles.SameLive (v.getD .empty) s.file s.now
  quiet : s.saveDebounceTimer = none → s.saves = 0 → s.cache.cache = .empty

/-- Unless a save is to come, the calls so far leave on file what the memory holds. -/
def Kept (s : ProfileCacheService ν) : Prop :=
  s.saveDebounceTimer = none → s.saves = 0 →
    Profiles.SameLive s.cache.cache (s.storage.final.getD .empty) s.now

structure Inv (s : ProfileCacheService ν) : Prop where
  loading : s.initialized = false → s.Loading
  kept : s.initialized = true → s.Kept

theorem init_inv (now : Nat) (stored : Option (Profiles ν)) : (init now stored).Inv := by
  refine ⟨fun _ => ⟨by simp [init], by simp [init], by simp [init], ?_, fun _ _ => rfl⟩, ?_⟩
  · intro v hv
    cases hv
  · intro h
    cases h

section Steps

variable {s s' : ProfileCacheService ν} {pubkey : JsString} {profile : CachedProfile ν}

/-- A deletion that waits deletes nothing live. -/
theorem Loading.final (h : s.Loading) :
    Profiles.SameLive s.file (s.storage.final.getD .empty) s.now := by
  cases hlast : s.storage.waiting.getLast? with
  | none =>
    rw [StorageCell.final, hlast]
    exact .refl _ _
  | some v =>
    obtain ⟨rfl, hcleared⟩ := h.waiting v (List.mem_of_getLast? hlast)
    rw [StorageCell.final, hlast]
    intro pubkey
    rw [h.cleared hcleared pubkey]
    rfl

/-- Before the load has ended, only what is not on file may be stored or removed. -/
theorem not_on_file (hload : s.initialized = false)
    (hg : s.initialized = true ∨ (Profiles.live s.file s.now pubkey).isNone = true) :
    Profiles.live s.file s.now pubkey = none := by
  have hnone := hg.resolve_left (by simp [hload])
  exact Option.isNone_iff_eq_none.mp hnone

theorem Loading.touch (h : s.Loading) (hnew : Profiles.live s.file s.now pubkey = none) :
    Loading { s with touched := pubkey :: s.touched } := by
  refine ⟨fun q hq => ?_, h.cleared, h.waiting, h.found, h.quiet⟩
  rcases List.mem_cons.mp hq with rfl | hq
  · exact hnew
  · exact h.touched q hq

theorem Inv.storeProfile (h : s.Inv)
    (hg : s.initialized = true ∨ (Profiles.live s.file s.now pubkey).isNone = true) :
    (s.storeProfile pubkey profile).Inv := by
  refine ⟨fun hload => ?_, fun _ ht => (by cases ht)⟩
  obtain ⟨ht, hc, hw, hf, -⟩ := (h.loading hload).touch (not_on_file hload hg)
  exact ⟨ht, hc, hw, hf, fun htimer => by cases htimer⟩

theorem Inv.removeProfile (h : s.Inv)
    (hg : s.initialized = true ∨ (Profiles.live s.file s.now pubkey).isNone = true) :
    (s.removeProfile pubkey).Inv := by
  have htouched : Inv { s with touched := pubkey :: s.touched } :=
    ⟨fun hload => (h.loading hload).touch (not_on_file hload hg), h.kept⟩
  unfold ProfileCacheService.removeProfile
  dsimp only
  split_ifs with hhas
  · obtain ⟨hinit, -⟩ := Bool.and_eq_true_iff.mp hhas
    refine ⟨fun hload => ?_, fun _ _ hsaves => absurd hsaves (Nat.succ_ne_zero _)⟩
    exact absurd (hinit.symm.trans hload) (by simp)
  · exact htouched

theorem Inv.clear (h : s.Inv) (hg : s.initialized = true ∨ Profiles.noneFresh s.file s.now = true) :
    s.clear.Inv := by
  refine ⟨fun hload => ?_, fun _ _ _ => ?_⟩
  · have hnone : ∀ pubkey, Profiles.live s.file s.now pubkey = none := by
      rcases hg with hinit | hfile
      · exact absurd (hinit.symm.trans hload) (by simp)
      · exact fun pubkey => Profiles.live_of_noneFresh hfile
    obtain ⟨ht, -, hw, hf, -⟩ := h.loading hload
    refine ⟨ht, fun _ => hnone, fun v hv => ?_, hf, fun _ _ => rfl⟩
    rcases List.mem_append.mp hv with hv | hv
    · exact ⟨(hw v hv).1, rfl⟩
    · exact ⟨List.mem_singleton.mp hv, rfl⟩
  · rw [ProfileCacheService.clear, StorageCell.final_call]
    exact .refl _ _

/-- A read, once the load has ended. -/
theorem Inv.read (h : s.Inv) (hinit : s.initialized = true) {cache : ProfileCache ν}
    (hread : Profiles.SameLive cache.cache s.cache.cache s.now) : Inv { s with cache } := by
  refine ⟨fun hload => absurd (hinit.symm.trans hload) (by simp), fun _ ht hsaves => ?_⟩
  exact hread.trans (h.kept hinit ht hsaves)

theorem Inv.loadAvailable (h : s.Inv) (hload : s.load = .asking) :
    Inv { s with load := .reading none } := by
  have hinit : s.initialized = false := by rw [initialized, hload]
  obtain ⟨ht, hc, hw, -, hq⟩ := h.loading hinit
  refine ⟨fun _ => ⟨ht, hc, hw, fun v hv => ?_, hq⟩, fun hinit' => ?_⟩
  · cases hv
  · cases hinit'

theorem Inv.loadRead (h : s.Inv) (hload : s.load = .reading none) :
    Inv { s with load := .reading (some s.storage.stored) } := by
  have hinit : s.initialized = false := by rw [initialized, hload]
  obtain ⟨ht, hc, hw, -, hq⟩ := h.loading hinit
  refine ⟨fun _ => ⟨ht, hc, hw, fun v hv => ?_, hq⟩, fun hinit' => ?_⟩
  · cases hv
    exact .refl _ _
  · cases hinit'

theorem Inv.loaded (h : s.Inv) {found : Option (Profiles ν)}
    (hload : s.load = .reading (some found)) :
    Inv { s with cache := s.cache.populate (found.getD .empty) s.now, load := .finished } := by
  have hinit : s.initialized = false := by rw [initialized, hload]
  have hloading := h.loading hinit
  refine ⟨fun hinit' => (by cases hinit'), fun _ ht hsaves => ?_⟩
  -- with no save to come nothing was stored before
  have hfilled : Profiles.SameLive (s.cache.populate (found.getD .empty) s.now).cache
      (found.getD .empty) s.now := ProfileCache.populate_empty (hloading.quiet ht hsaves)
  exact hfilled.trans ((hloading.found found hload).trans hloading.final)

theorem Inv.timer (h : s.Inv) : Inv { s with saveDebounceTimer := none, saves := s.saves + 1 } := by
  refine ⟨fun hload => ?_, fun _ _ hsaves => absurd hsaves (Nat.succ_ne_zero _)⟩
  obtain ⟨ht, hc, hw, hf, -⟩ := h.loading hload
  exact ⟨ht, hc, hw, hf, fun _ hsaves => absurd hsaves (Nat.succ_ne_zero _)⟩

theorem Inv.saveToStorage (hinit : s.initialized = true) : (s.saveToStorage true).Inv := by
  refine ⟨fun hload => absurd (hinit.symm.trans hload) (by simp), fun _ _ _ => ?_⟩
  rw [ProfileCacheService.saveToStorage, if_pos rfl, StorageCell.final_call]
  exact .refl _ _

theorem Inv.takesEffect (h : s.Inv) {storage : StorageCell (Option (Profiles ν))}
    (hs : s.storage.effect 0 = some storage) : Inv { s with storage } := by
  refine ⟨fun hload => ?_, fun hinit ht hsaves => ?_⟩
  · obtain ⟨ht, hc, hw, hf, hq⟩ := h.loading hload
    obtain ⟨hwaiting, -⟩ := StorageCell.effect_first hs
    obtain ⟨hstored, hcleared⟩ := hw storage.stored (hwaiting ▸ List.mem_cons_self)
    -- a deletion: the file had nothing live, and now has nothing
    have hempty : storage.stored.getD .empty = .empty := by rw [hstored, Option.getD_none]
    have hnone (pubkey : JsString) :
        Profiles.live (storage.stored.getD .empty) s.now pubkey = none := by
      rw [hempty, Profiles.live_empty]
    refine ⟨fun pubkey _ => hnone pubkey, fun _ pubkey => hnone pubkey, fun v hv => ?_,
      fun v hv pubkey => ?_, hq⟩
    · exact hw v (hwaiting ▸ List.mem_cons_of_mem _ hv)
    · exact (hf v hv pubkey).trans ((hc hcleared pubkey).trans (hnone pubkey).symm)
  · rw [StorageCell.final_effect hs]
    exact h.kept hinit ht hsaves

theorem Inv.completes (h : s.Inv) {storage : StorageCell (Option (Profiles ν))}
    (hs : s.storage.complete = some storage) : Inv { s with storage } := by
  obtain ⟨hstored, hwaiting⟩ := StorageCell.complete_eq hs
  refine ⟨fun hload => ?_, fun hinit ht hsaves => ?_⟩
  · obtain ⟨ht, hc, hw, hf, hq⟩ := h.loading hload
    have hfile : file { s with storage } = s.file := by simp only [file, hstored]
    refine ⟨?_, ?_, ?_, ?_, hq⟩
    · rw [hfile]
      exact ht
    · rw [hfile]
      exact hc
    · rw [hwaiting]
      exact hw
    · rw [hfile]
      exact hf
  · rw [StorageCell.final_complete hs]
    exact h.kept hinit ht hsaves

theorem Inv.tick (h : s.Inv) (ms : Nat) : Inv { s with now := s.now + ms } := by
  have hle : s.now ≤ s.now + ms := Nat.le_add_right _ _
  refine ⟨fun hload => ?_, fun hinit ht hsaves => (h.kept hinit ht hsaves).later hle⟩
  obtain ⟨ht, hc, hw, hf, hq⟩ := h.loading hload
  refine ⟨fun pubkey hp => ?_, fun hcleared pubkey => ?_, hw, fun v hv => (hf v hv).later hle, hq⟩
  · exact Profiles.live_none_later (ht pubkey hp) hle
  · exact Profiles.live_none_later (hc hcleared pubkey) hle

theorem step_inv {a : CacheAction ν} (h : s.Inv) (hg : s.InOrder a) (hs : s.step a = some s') :
    s'.Inv := by
  cases a with
  | storeProfile pubkey profile =>
    obtain rfl := Option.some.inj hs
    exact h.storeProfile hg
  | removeProfile pubkey =>
    obtain rfl := Option.some.inj hs
    exact h.removeProfile hg
  | clear =>
    obtain rfl := Option.some.inj hs
    exact h.clear hg
  | hasProfile pubkey =>
    obtain rfl := Option.some.inj hs
    unfold ProfileCacheService.hasProfile
    split_ifs with hinit
    · exact h.read hinit (s.cache.sameLive_hasProfile pubkey s.now)
    · exact h
  | getProfile pubkey =>
    obtain rfl := Option.some.inj hs
    unfold ProfileCacheService.getProfile
    split_ifs with hinit
    · exact h.read hinit (s.cache.sameLive_getProfile pubkey s.now)
    · exact h
  | loadAvailable isAvailable =>
    obtain rfl : isAvailable = true := hg
    simp only [step] at hs
    split at hs
    · rename_i hload
      obtain rfl := Option.some.inj hs
      exact h.loadAvailable hload
    · cases hs
  | loadRead =>
    simp only [step] at hs
    split at hs
    · rename_i hload
      obtain rfl := Option.some.inj hs
      exact h.loadRead hload
    · cases hs
  | loadFails => exact hg.elim
  | loaded =>
    simp only [step] at hs
    split at hs
    · rename_i found hload
      obtain rfl := Option.some.inj hs
      exact h.loaded hload
    · cases hs
  | timer =>
    simp only [step] at hs
    split at hs
    · split_ifs at hs
      obtain rfl := Option.some.inj hs
      exact h.timer
    · cases hs
  | saveAvailable isAvailable =>
    obtain ⟨hinit, rfl⟩ := hg
    simp only [step] at hs
    split_ifs at hs
    obtain rfl := Option.some.inj hs
    exact Inv.saveToStorage hinit
  | takesEffect i =>
    obtain rfl : i = 0 := hg
    obtain ⟨storage, heffect, rfl⟩ := Option.map_eq_some_iff.mp hs
    exact h.takesEffect heffect
  | completes =>
    obtain ⟨storage, hcomplete, rfl⟩ := Option.map_eq_some_iff.mp hs
    exact h.completes hcomplete
  | rejects i => exact hg.elim
  | tick ms =>
    obtain rfl := Option.some.inj hs
    exact h.tick ms

/-- What a step that ends the load does: it fills the cache, or fails to read. -/
theorem load_ends {a : CacheAction ν} (hload : s.initialized = false) (hs : s.step a = some s')
    (hinit : s'.initialized = true) : s'.cache = s.cache ∨
      ∃ found, s.load = .reading (some found) ∧
        s'.cache = s.cache.populate (found.getD .empty) s.now := by
  have hsame (hload' : s'.initialized = s.initialized) : False := by
    rw [hload, hinit] at hload'
    cases hload'
  cases a with
  | storeProfile pubkey profile =>
    obtain rfl := Option.some.inj hs
    exact (hsame rfl).elim
  | removeProfile pubkey =>
    obtain rfl := Option.some.inj hs
    left
    have hload' : initialized { s with touched := pubkey :: s.touched } = false := hload
    simp only [removeProfile, hload', Bool.false_and, Bool.false_eq_true, if_false]
  | clear =>
    obtain rfl := Option.some.inj hs
    exact (hsame rfl).elim
  | hasProfile pubkey =>
    obtain rfl := Option.some.inj hs
    left
    simp only [hasProfile, hload, Bool.false_eq_true, if_false]
  | getProfile pubkey =>
    obtain rfl := Option.some.inj hs
    left
    simp only [getProfile, hload, Bool.false_eq_true, if_false]
  | loadAvailable isAvailable =>
    simp only [step] at hs
    split at hs
    · obtain rfl := Option.some.inj hs
      exact .inl rfl
    · cases hs
  | loadRead =>
    simp only [step] at hs
    split at hs
    · obtain rfl := Option.some.inj hs
      exact .inl rfl
    · cases hs
  | loadFails =>
    simp only [step] at hs
    split at hs
    · obtain rfl := Option.some.inj hs
      exact .inl rfl
    · cases hs
  | loaded =>
    simp only [step] at hs
    split at hs
    · rename_i found hreading
      obtain rfl := Option.some.inj hs
      exact .inr ⟨found, hreading, rfl⟩
    · cases hs
  | timer =>
    simp only [step] at hs
    split at hs
    · split_ifs at hs
      obtain rfl := Option.some.inj hs
      exact .inl rfl
    · cases hs
  | saveAvailable isAvailable =>
    simp only [step] at hs
    split_ifs at hs
    obtain rfl := Option.some.inj hs
    exact .inl rfl
  | takesEffect i =>
    obtain ⟨storage, -, rfl⟩ := Option.map_eq_some_iff.mp hs
    exact .inl rfl
  | completes =>
    obtain ⟨storage, -, rfl⟩ := Option.map_eq_some_iff.mp hs
    exact .inl rfl
  | rejects i =>
    obtain ⟨storage, -, rfl⟩ := Option.map_eq_some_iff.mp hs
    exact .inl rfl
  | tick ms =>
    obtain rfl := Option.some.inj hs
    exact .inl rfl

theorem Inv.undisturbed (h : s.Inv) {a : CacheAction ν} (hload : s.initialized = false)
    (hs : s.step a = some s') (hinit : s'.initialized = true) : s.Undisturbed s' := by
  intro pubkey htouched
  rcases load_ends hload hs hinit with hcache | ⟨found, hreading, hcache⟩
  · rw [hcache]
  · have hloading := h.loading hload
    have hfile : Profiles.live s.file s.now pubkey = none := by
      rcases htouched with hmem | hcleared
      · exact hloading.touched pubkey hmem
      · exact hloading.cleared hcleared pubkey
    rw [hcache]
    exact ProfileCache.populate_keeps ((hloading.found found hreading pubkey).trans hfile)

theorem Inv.persisted (h : s.Inv) (hs : s.Settled) : s.Agrees := by
  obtain ⟨hinit, htimer, hsaves, hidle⟩ := hs
  have hkept := h.kept hinit htimer hsaves
  rwa [StorageCell.final_idle hidle] at hkept

end Steps

/-- Where nothing that is on file is stored, removed or cleared before the load has ended, no write
is called before that, and the storage takes the calls in order without failing, the load undoes
nothing and the file ends up like the memory. -/
theorem inOrder_lossless (now : Nat) (stored : Option (Profiles ν)) {as : List (CacheAction ν)}
    {t : ProfileCacheService ν} (hg : Guarded step InOrder (init now stored) as)
    (hr : run step (init now stored) as = some t) : t.Lossless := by
  have hinv : t.Inv := run_invariant (fun _ _ _ h hg hs => step_inv h hg hs)
    (init_inv now stored) hg hr
  exact ⟨fun _ _ => hinv.undisturbed, hinv.persisted⟩

/-- A profile named after its time. -/
abbrev demoProfile (timestamp : Nat) : CachedProfile Int :=
  ⟨⟨.num timestamp, .null, none, none, none, none, none⟩, timestamp, 0, 0, 0, 0⟩

abbrev demoFile : Option (Profiles Int) := some (OrderedMap.empty.set (js "a") (demoProfile 1000))

/-- A store while the load is under way, a removal beside the debounced save, and both writes. -/
abbrev inOrderDemo : List (CacheAction Int) :=
  [.loadAvailable true, .loadRead, .storeProfile (js "b") (demoProfile 1001), .loaded, .tick 500,
    .timer, .saveAvailable true, .removeProfile (js "a"), .saveAvailable true, .takesEffect 0,
    .takesEffect 0, .completes, .completes]

theorem inOrder_lossless_demo :
    ∃ t, run step (init 1002 demoFile) inOrderDemo = some t ∧ t.file.keys = [js "b"] ∧ t.Lossless :=
  have hg : Guarded step InOrder (init 1002 demoFile) inOrderDemo := by decide +kernel
  ⟨_, rfl, by decide +kernel, inOrder_lossless 1002 demoFile hg rfl⟩

/-- The load, reading before and filling in after a store, puts the old profile back. -/
abbrev storedBeforeLoad : List (CacheAction Int) :=
  [.loadAvailable true, .loadRead, .storeProfile (js "a") (demoProfile 1001)]

/-- The write of the removal overtakes that of the debounced save, which brings the profile back. -/
abbrev overtaken : List (CacheAction Int) :=
  [.loadAvailable true, .loadRead, .loaded, .storeProfile (js "b") (demoProfile 1001), .tick 500,
    .timer, .saveAvailable true, .removeProfile (js "a"), .saveAvailable true, .takesEffect 1,
    .takesEffect 0, .completes, .completes]

theorem lossless_fails :
    (∃ t, run step (init 1002 demoFile) storedBeforeLoad = some t ∧ ¬t.Lossless) ∧
      ∃ t, run step (init 1002 demoFile) overtaken = some t ∧ t.Settled ∧ ¬t.Agrees := by
  refine ⟨⟨_, rfl, fun h => ?_⟩, ⟨_, rfl, ?_, fun h => ?_⟩⟩
  · have hkeeps := h.undisturbed .loaded _ rfl rfl rfl (js "a") (.inl (by decide))
    have htime := congrArg (Option.map CachedProfile.timestamp) hkeeps
    revert htime
    decide +kernel
  · exact ⟨rfl, rfl, rfl, rfl, rfl⟩
  · have htime := congrArg (Option.map CachedProfile.timestamp) (h (js "a"))
    revert htime
    decide +kernel

end ProfileCacheService

end LivelierBridge.Nostr
