import Mathlib.Data.List.Sort
import LivelierBridge.Nostr.ProfileRequests

namespace LivelierBridge.Nostr

open Framework Js

/-- A profile with the times of its reading. -/
structure CachedProfile (ν : Type) where
  info : ProfileInfo ν
  timestamp : Nat
  lastUpdated : Nat
  lastAccessed : Nat
  accessCount : Nat
  /-- The `created_at` of the event that the profile was parsed from; no code reads it. -/
  created_at : Int

/-- The session's profile cache, once it has been loaded from storage. -/
structure ProfileCache (ν : Type) where
  cache : OrderedMap JsString (CachedProfile ν)

namespace ProfileCache

variable {ν : Type}

def CACHE_TTL : Nat := 30 * 24 * 60 * 60 * 1000

def MAX_CACHE_SIZE : Nat := 500

def expired (profile : CachedProfile ν) (now : Nat) : Bool :=
  profile.timestamp ≠ 0 && CACHE_TTL < now - profile.timestamp

/-- `lastAccessed || timestamp || 0` -/
def accessTime (profile : CachedProfile ν) : Nat :=
  if profile.lastAccessed ≠ 0 then profile.lastAccessed else profile.timestamp

def remove (c : ProfileCache ν) (pubkey : JsString) : ProfileCache ν := ⟨c.cache.delete pubkey⟩

/-- Over the limit, the profiles that were accessed longest ago go. -/
def enforceCacheLimit (c : ProfileCache ν) : ProfileCache ν :=
  if c.cache.size ≤ MAX_CACHE_SIZE then c
  else
    let profiles := c.cache.entries.mergeSort fun a b => accessTime a.2 ≤ accessTime b.2
    ((profiles.take (profiles.length - MAX_CACHE_SIZE)).map Prod.fst).foldl remove c

def hasProfile (c : ProfileCache ν) (pubkey : JsString) (now : Nat) : Bool × ProfileCache ν :=
  match c.cache.get? pubkey with
  | none => (false, c)
  | some profile => if expired profile now then (false, c.remove pubkey) else (true, c)

/-- A read counts as an access. -/
def getProfile (c : ProfileCache ν) (pubkey : JsString) (now : Nat) :
    Option (CachedProfile ν) × ProfileCache ν :=
  match c.cache.get? pubkey with
  | none => (none, c)
  | some profile =>
    if expired profile now then (none, c.remove pubkey)
    else
      let profile := { profile with lastAccessed := now, accessCount := profile.accessCount + 1 }
      (some profile, ⟨c.cache.set pubkey profile⟩)

/-- `cache.hasProfile(pubkey) ? cache.getProfile(pubkey) : null` -/
def read (c : ProfileCache ν) (pubkey : JsString) (now : Nat) :
    Option (CachedProfile ν) × ProfileCache ν :=
  let asked := c.hasProfile pubkey now
  if asked.1 then asked.2.getProfile pubkey now else (none, asked.2)

def storeProfile (c : ProfileCache ν) (pubkey : JsString) (profile : CachedProfile ν) (now : Nat) :
    ProfileCache ν :=
  let updatedProfile :=
    { profile with
      timestamp := if profile.timestamp ≠ 0 then profile.timestamp else now
      lastUpdated := now
      lastAccessed := now
      accessCount := 1 }
  enforceCacheLimit ⟨c.cache.set pubkey updatedProfile⟩

/-- How old the event is whose profile the cache shows for a pubkey. -/
def shows (c : ProfileCache ν) (pubkey : JsString) : Option Int :=
  (c.cache.get? pubkey).map CachedProfile.created_at

/-- What the later cache shows, the earlier one showed. -/
def Fades (c d : ProfileCache ν) : Prop := ∀ pubkey t, d.shows pubkey = some t → c.shows pubkey = some t

section Shows

variable {c d e : ProfileCache ν} {p q : JsString} {profile : CachedProfile ν} {now : Nat} {t : Int}

theorem Fades.refl (c : ProfileCache ν) : c.Fades c := fun _ _ h => h

theorem Fades.trans (h : c.Fades d) (h' : d.Fades e) : c.Fades e :=
  fun pubkey t he => h pubkey t (h' pubkey t he)

theorem shows_remove : (c.remove p).shows q = if q = p then none else c.shows q := by
  unfold shows remove
  rw [OrderedMap.get?_delete]
  split_ifs
  · rfl
  · rfl

theorem fades_remove (c : ProfileCache ν) (p : JsString) : c.Fades (c.remove p) := by
  intro q t h
  rw [shows_remove] at h
  split_ifs at h
  exact h

theorem fades_removes (ps : List JsString) (c : ProfileCache ν) : c.Fades (ps.foldl remove c) := by
  induction ps generalizing c with
  | nil => exact .refl c
  | cons p ps ih => exact (fades_remove c p).trans (ih (c.remove p))

theorem fades_enforceCacheLimit (c : ProfileCache ν) : c.Fades c.enforceCacheLimit := by
  unfold enforceCacheLimit
  split_ifs
  · exact .refl c
  · exact fades_removes _ c

theorem shows_set : (ProfileCache.mk (c.cache.set p profile)).shows q =
    if q = p then some profile.created_at else c.shows q := by
  unfold shows
  rw [OrderedMap.get?_set]
  split_ifs
  · rfl
  · rfl

theorem fades_hasProfile (c : ProfileCache ν) (p : JsString) (now : Nat) :
    c.Fades (c.hasProfile p now).2 := by
  unfold hasProfile
  split
  · exact .refl c
  · split_ifs
    · exact fades_remove c p
    · exact .refl c

theorem fades_getProfile (c : ProfileCache ν) (p : JsString) (now : Nat) :
    c.Fades (c.getProfile p now).2 := by
  unfold getProfile
  split
  · exact .refl c
  · rename_i profile hget
    split_ifs
    · exact fades_remove c p
    · intro q t h
      rw [shows_set] at h
      split_ifs at h with hq
      · rw [hq, shows, hget]
        exact h
      · exact h

/-- What a read returns is what the cache showed. -/
theorem getProfile_shows (h : (c.getProfile p now).1 = some profile) :
    c.shows p = some profile.created_at := by
  unfold getProfile at h
  split at h
  · cases h
  · rename_i cached hget
    split_ifs at h
    cases h
    rw [shows, hget]
    rfl

theorem fades_read (c : ProfileCache ν) (p : JsString) (now : Nat) : c.Fades (c.read p now).2 := by
  have hasked := fades_hasProfile c p now
  simp only [read]
  split_ifs
  · exact hasked.trans (fades_getProfile _ p now)
  · exact hasked

theorem read_shows (h : (c.read p now).1 = some profile) : c.shows p = some profile.created_at := by
  simp only [read] at h
  split_ifs at h
  exact fades_hasProfile c p now p _ (getProfile_shows h)

/-- After a store the cache shows the stored profile, and of the others at most what it showed. -/
theorem shows_storeProfile (h : (c.storeProfile p profile now).shows q = some t) :
    q = p ∧ t = profile.created_at ∨ q ≠ p ∧ c.shows q = some t := by
  have hset := fades_enforceCacheLimit _ q t h
  rw [shows_set] at hset
  by_cases hq : q = p
  · rw [if_pos hq] at hset
    exact .inl ⟨hq, (Option.some.inj hset).symm⟩
  · rw [if_neg hq] at hset
    exact .inr ⟨hq, hset⟩

end Shows

section Has

variable {c d : ProfileCache ν} {p q : JsString} {now : Nat}

/-- Both caches answer `hasProfile` alike. -/
def SameHas (c d : ProfileCache ν) (now : Nat) : Prop :=
  ∀ pubkey, (d.hasProfile pubkey now).1 = (c.hasProfile pubkey now).1

theorem SameHas.refl (c : ProfileCache ν) : c.SameHas c now := fun _ => rfl

theorem SameHas.trans {e : ProfileCache ν} (h : c.SameHas d now) (h' : d.SameHas e now) :
    c.SameHas e now :=
  fun pubkey => (h' pubkey).trans (h pubkey)

theorem hasProfile_eq : (c.hasProfile p now).1 = (c.cache.get? p).any fun profile => !expired profile now := by
  unfold hasProfile
  split
  · rename_i hget
    simp [hget]
  · rename_i profile hget
    split_ifs with hexpired
    · simp [hget, hexpired]
    · simp [hget, hexpired]

/-- An expired profile that is dropped was not there to the reads before, either. -/
theorem sameHas_remove (h : (c.hasProfile p now).1 = false) : c.SameHas (c.remove p) now := by
  intro q
  rw [hasProfile_eq, remove, OrderedMap.get?_delete]
  by_cases hq : q = p
  · rw [if_pos hq, hq, h]
    rfl
  · rw [if_neg hq, hasProfile_eq]

theorem sameHas_hasProfile (c : ProfileCache ν) (p : JsString) (now : Nat) :
    c.SameHas (c.hasProfile p now).2 now := by
  cases hget : c.cache.get? p with
  | none =>
    simp only [hasProfile, hget]
    exact .refl c
  | some profile =>
    by_cases hexpired : expired profile now = true
    · have hhas : (c.hasProfile p now).1 = false := by simp [hasProfile_eq, hget, hexpired]
      simp only [hasProfile, hget, hexpired, if_true]
      exact sameHas_remove hhas
    · simp only [hasProfile, hget, hexpired]
      exact .refl c

theorem sameHas_getProfile (h : (c.hasProfile p now).1 = true) :
    c.SameHas (c.getProfile p now).2 now ∧ ((c.getProfile p now).1).isSome = true := by
  rw [hasProfile_eq] at h
  obtain ⟨profile, hget, hexpired⟩ := (Option.any_eq_true _ _).mp h
  have hlive : expired profile now = false := by simpa using hexpired
  simp only [getProfile, hget, hlive, Bool.false_eq_true, if_false]
  refine ⟨fun q => ?_, rfl⟩
  rw [hasProfile_eq, hasProfile_eq, OrderedMap.get?_set]
  by_cases hq : q = p
  · rw [if_pos hq, hq, hget]
    simp [expired]
  · rw [if_neg hq]

theorem sameHas_read (c : ProfileCache ν) (p : JsString) (now : Nat) :
    c.SameHas (c.read p now).2 now := by
  have hasked := sameHas_hasProfile c p now
  simp only [read]
  split_ifs with hhas
  · have hthere : ((c.hasProfile p now).2.hasProfile p now).1 = true := (hasked p).trans hhas
    exact hasked.trans (sameHas_getProfile hthere).1
  · exact hasked

theorem read_isSome (c : ProfileCache ν) (p : JsString) (now : Nat) :
    (c.read p now).1.isSome = (c.hasProfile p now).1 := by
  have hasked := sameHas_hasProfile c p now p
  simp only [read]
  split_ifs with hhas
  · rw [hhas]
    exact (sameHas_getProfile (hasked.trans hhas)).2
  · simpa using hhas

/-- What is taken from the cache is not there, and the rest stays. -/
theorem hasProfile_remove :
    ((c.remove p).hasProfile q now).1 = if q = p then false else (c.hasProfile q now).1 := by
  rw [hasProfile_eq, hasProfile_eq, remove, OrderedMap.get?_delete]
  split_ifs
  · rfl
  · rfl

end Has

section Infos

variable {c d e : ProfileCache ν} {p q : JsString} {profile e' : CachedProfile ν} {now : Nat}

/-- What the later cache has of a pubkey, the earlier one had, perhaps with other times. -/
def KeepsInfo (c d : ProfileCache ν) : Prop :=
  ∀ pubkey profile, d.cache.get? pubkey = some profile →
    ∃ old, c.cache.get? pubkey = some old ∧ old.info = profile.info

theorem KeepsInfo.refl (c : ProfileCache ν) : c.KeepsInfo c := fun _ profile h => ⟨profile, h, rfl⟩

theorem KeepsInfo.trans (h : c.KeepsInfo d) (h' : d.KeepsInfo e) : c.KeepsInfo e := by
  intro pubkey profile he
  obtain ⟨mid, hmid, hinfo⟩ := h' pubkey profile he
  obtain ⟨old, hold, hinfo'⟩ := h pubkey mid hmid
  exact ⟨old, hold, hinfo'.trans hinfo⟩

theorem keepsInfo_remove (c : ProfileCache ν) (p : JsString) : c.KeepsInfo (c.remove p) := by
  intro q profile h
  rw [remove, OrderedMap.get?_delete] at h
  split_ifs at h
  exact ⟨profile, h, rfl⟩

theorem keepsInfo_hasProfile (c : ProfileCache ν) (p : JsString) (now : Nat) :
    c.KeepsInfo (c.hasProfile p now).2 := by
  unfold hasProfile
  split
  · exact .refl c
  · split_ifs
    · exact keepsInfo_remove c p
    · exact .refl c

theorem keepsInfo_getProfile (c : ProfileCache ν) (p : JsString) (now : Nat) :
    c.KeepsInfo (c.getProfile p now).2 := by
  unfold getProfile
  split
  · exact .refl c
  · rename_i cached hget
    split_ifs
    · exact keepsInfo_remove c p
    · intro q profile h
      rw [OrderedMap.get?_set] at h
      split_ifs at h with hq
      · obtain rfl := Option.some.inj h
        exact ⟨cached, hq ▸ hget, rfl⟩
      · exact ⟨profile, h, rfl⟩

theorem keepsInfo_read (c : ProfileCache ν) (p : JsString) (now : Nat) :
    c.KeepsInfo (c.read p now).2 := by
  have hasked := keepsInfo_hasProfile c p now
  simp only [read]
  split_ifs
  · exact hasked.trans (keepsInfo_getProfile _ p now)
  · exact hasked

/-- What a read returns is what the cache has, with the time of the reading. -/
theorem read_info (h : (c.read p now).1 = some profile) :
    ∃ old, c.cache.get? p = some old ∧ old.info = profile.info := by
  simp only [read] at h
  split_ifs at h
  unfold getProfile at h
  split at h
  · cases h
  · rename_i cached hget
    split_ifs at h
    obtain rfl := Option.some.inj h
    exact keepsInfo_hasProfile c p now p cached hget

theorem read_fst : (c.read p now).1 = (c.cache.get? p).bind fun cached =>
    if expired cached now then none
    else some { cached with lastAccessed := now, accessCount := cached.accessCount + 1 } := by
  cases hget : c.cache.get? p with
  | none => simp [read, hasProfile, hget]
  | some cached =>
    cases hexpired : expired cached now with
    | true => simp [read, hasProfile, hget, hexpired]
    | false => simp [read, hasProfile, getProfile, hget, hexpired]

/-- A read is about the pubkey alone. -/
theorem get?_read_of_ne (h : q ≠ p) : (c.read p now).2.cache.get? q = c.cache.get? q := by
  have hremove : (c.remove p).cache.get? q = c.cache.get? q := by
    rw [remove, OrderedMap.get?_delete, if_neg h]
  cases hget : c.cache.get? p with
  | none => simp [read, hasProfile, hget]
  | some cached =>
    cases hexpired : expired cached now with
    | true => simp [read, hasProfile, hget, hexpired, hremove]
    | false => simp [read, hasProfile, getProfile, hget, hexpired, OrderedMap.get?_set_of_ne _ h]

/-- Below the limit a store takes nothing else from the cache. -/
theorem storeProfile_room (h : c.cache.size < MAX_CACHE_SIZE) :
    c.storeProfile p profile now = ⟨c.cache.set p
      { profile with
        timestamp := if profile.timestamp ≠ 0 then profile.timestamp else now
        lastUpdated := now
        lastAccessed := now
        accessCount := 1 }⟩ := by
  have hle : ∀ v, (c.cache.set p v).size ≤ MAX_CACHE_SIZE := by
    intro v
    have hset := OrderedMap.size_set_le c.cache p v
    omega
  simp only [storeProfile, enforceCacheLimit, hle, if_true]

theorem hasProfile_store (h : c.cache.size < MAX_CACHE_SIZE) :
    ((c.storeProfile p profile now).hasProfile q now).1 =
      if q = p then !expired profile now else (c.hasProfile q now).1 := by
  rw [storeProfile_room h, hasProfile_eq, hasProfile_eq, OrderedMap.get?_set]
  by_cases hq : q = p
  · rw [if_pos hq, if_pos hq]
    by_cases htime : profile.timestamp = 0
    · simp [expired, htime]
    · simp [expired, htime]
  · rw [if_neg hq, if_neg hq]

theorem get?_store (h : c.cache.size < MAX_CACHE_SIZE)
    (hget : (c.storeProfile p profile now).cache.get? q = some e') :
    q = p ∧ e'.info = profile.info ∨ q ≠ p ∧ c.cache.get? q = some e' := by
  rw [storeProfile_room h, OrderedMap.get?_set] at hget
  by_cases hq : q = p
  · rw [if_pos hq] at hget
    obtain rfl := Option.some.inj hget
    exact .inl ⟨hq, rfl⟩
  · rw [if_neg hq] at hget
    exact .inr ⟨hq, hget⟩

theorem size_store (h : c.cache.size < MAX_CACHE_SIZE) :
    (c.storeProfile p profile now).cache.size ≤ c.cache.size + 1 := by
  rw [storeProfile_room h]
  exact OrderedMap.size_set_le ..

end Infos

section Gains

variable {c d e : ProfileCache ν} {p : JsString} {profile : CachedProfile ν} {now : Nat}
variable {new : JsString → ProfileInfo ν → Prop}

/-- Reads, and stores of what is `new`, have made `d` of `c`: nothing is lost. -/
structure Gains (c d : ProfileCache ν) (now : Nat) (new : JsString → ProfileInfo ν → Prop) : Prop where
  source : ∀ p profile, d.cache.get? p = some profile →
    new p profile.info ∨ ∃ old, c.cache.get? p = some old ∧ old.info = profile.info
  keeps : ∀ p, (c.hasProfile p now).1 = true → (d.hasProfile p now).1 = true

theorem Gains.refl (c : ProfileCache ν) : c.Gains c now new :=
  ⟨fun _ profile h => .inr ⟨profile, h, rfl⟩, fun _ h => h⟩

theorem Gains.trans (h : c.Gains d now new) (h' : d.Gains e now new) : c.Gains e now new := by
  refine ⟨fun p profile hget => ?_, fun p hhas => h'.keeps p (h.keeps p hhas)⟩
  rcases h'.source p profile hget with hnew | ⟨mid, hmid, hinfo⟩
  · exact .inl hnew
  · rcases h.source p mid hmid with hnew | ⟨old, hold, hinfo'⟩
    · exact .inl (hinfo ▸ hnew)
    · exact .inr ⟨old, hold, hinfo'.trans hinfo⟩

theorem gains_of_sameHas (hsame : c.SameHas d now) (hkeeps : c.KeepsInfo d) : c.Gains d now new :=
  ⟨fun p profile hget => .inr (hkeeps p profile hget), fun p hhas => (hsame p).trans hhas⟩

theorem gains_read (c : ProfileCache ν) (p : JsString) (now : Nat) :
    c.Gains (c.read p now).2 now new :=
  gains_of_sameHas (sameHas_read c p now) (keepsInfo_read c p now)

theorem gains_hasProfile (c : ProfileCache ν) (p : JsString) (now : Nat) :
    c.Gains (c.hasProfile p now).2 now new :=
  gains_of_sameHas (sameHas_hasProfile c p now) (keepsInfo_hasProfile c p now)

/-- Below the limit a store of a profile that has not expired only gains it. -/
theorem gains_store (hroom : c.cache.size < MAX_CACHE_SIZE) (hlive : expired profile now = false)
    (hnew : new p profile.info) : c.Gains (c.storeProfile p profile now) now new := by
  refine ⟨fun q stored hget => ?_, fun q hhas => ?_⟩
  · rcases get?_store hroom hget with ⟨rfl, hinfo⟩ | ⟨-, hold⟩
    · exact .inl (hinfo ▸ hnew)
    · exact .inr ⟨stored, hold, rfl⟩
  · rw [hasProfile_store hroom]
    split_ifs
    · simp [hlive]
    · exact hhas

theorem hasProfile_store_self (hroom : c.cache.size < MAX_CACHE_SIZE)
    (hlive : expired profile now = false) :
    ((c.storeProfile p profile now).hasProfile p now).1 = true := by
  rw [hasProfile_store hroom, if_pos rfl, hlive]
  rfl

end Gains

end ProfileCache

end LivelierBridge.Nostr
