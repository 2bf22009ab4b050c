import LivelierBridge.Nostr.BatchLoader

namespace LivelierBridge.Nostr

open Framework

universe u v

/-- A call on the LRU cache under the loaders, with the clock it reads. -/
inductive CacheCall (κ : Type u) (ν : Type v) where
  | get (key : κ) (now : Nat)
  | set (key : κ) (value : ν) (now : Nat)
  | delete (key : κ)
  | clear

namespace CacheCall

variable {κ : Type u} {ν : Type v} [DecidableEq κ]

def apply (c : LruCache κ ν) : CacheCall κ ν → LruCache κ ν
  | .get key now => (c.get key now).2
  | .set key value now => c.set key value now
  | .delete key => c.delete key
  | .clear => c.clear

/-- The cache after the calls. -/
def cacheOf (capacity : Nat) (calls : List (CacheCall κ ν)) : LruCache κ ν :=
  calls.foldl apply (.init capacity)

/-- The value that the call sets for the key. -/
def setsFor (k : κ) : CacheCall κ ν → Option ν
  | .set key value _ => if key = k then some value else none
  | .get _ _ | .delete _ | .clear => none

/-- The time at which the call uses the key. -/
def usesAt (k : κ) : CacheCall κ ν → Option Nat
  | .get key now | .set key _ now => if key = k then some now else none
  | .delete _ | .clear => none

/-- The call asks for the key to go. -/
def removes (k : κ) : CacheCall κ ν → Bool
  | .delete key => key = k
  | .clear => true
  | .get _ _ | .set _ _ _ => false

/-- The key goes without the call asking for it. -/
def Evicts (c : LruCache κ ν) (call : CacheCall κ ν) (k : κ) : Prop :=
  c.has k = true ∧ (call.apply c).has k = false ∧ call.removes k = false

/-- The time of the last `get` or `set` of the key. -/
def lastUse (k : κ) (calls : List (CacheCall κ ν)) : Option Nat :=
  (calls.filterMap (usesAt k)).getLast?

/-- The value is the last one set for the key, which has not been deleted, cleared or evicted since. -/
def LastSet (capacity : Nat) (k : κ) (v : ν) (calls : List (CacheCall κ ν)) : Prop :=
  ∃ earlier now since, calls = earlier ++ .set k v now :: since ∧
    ∀ before call after, since = before ++ call :: after →
      call.setsFor k = none ∧ call.removes k = false ∧
        ¬Evicts (cacheOf capacity (earlier ++ .set k v now :: before)) call k

section Calls

variable {capacity : Nat} {c : LruCache κ ν} {call : CacheCall κ ν} {calls : List (CacheCall κ ν)}
variable {k : κ} {v : ν}

theorem cacheOf_concat (capacity : Nat) (calls : List (CacheCall κ ν)) (call : CacheCall κ ν) :
    cacheOf capacity (calls ++ [call]) = call.apply (cacheOf capacity calls) := by
  simp [cacheOf]

theorem lastUse_concat (k : κ) (calls : List (CacheCall κ ν)) (call : CacheCall κ ν) :
    lastUse k (calls ++ [call]) = (call.usesAt k).or (lastUse k calls) := by
  cases huse : call.usesAt k with
  | none => simp [lastUse, huse]
  | some now => simp [lastUse, huse]

theorem has_of_get? (h : c.cache.get? k = some v) : c.has k = true := by
  simp [LruCache.has, OrderedMap.has, h]

theorem setsFor_eq_some {value : ν} (h : call.setsFor k = some value) :
    ∃ now, call = .set k value now := by
  cases call with
  | get _ _ | delete _ | clear => cases h
  | set key x now =>
    simp only [setsFor] at h
    split_ifs at h with hk
    obtain rfl := Option.some.inj h
    subst hk
    exact ⟨now, rfl⟩

theorem get?_of_setsFor {value : ν} (h : call.setsFor k = some value) :
    (call.apply c).cache.get? k = some value := by
  obtain ⟨now, rfl⟩ := setsFor_eq_some h
  exact LruCache.get?_set_self

theorem get?_of_removes (h : call.removes k = true) : (call.apply c).cache.get? k = none := by
  cases call with
  | get _ _ | set _ _ _ => cases h
  | delete key =>
    have hk : key = k := by simpa [removes] using h
    simp [apply, LruCache.get?_delete, hk]
  | clear => rfl

/-- Only a `set` of the key gives it a value. -/
theorem get?_of_apply (hset : call.setsFor k = none)
    (h : (call.apply c).cache.get? k = some v) : c.cache.get? k = some v := by
  cases call with
  | get key now => simpa [apply] using h
  | set key value now =>
    have hk : k ≠ key := by
      intro heq
      simp [setsFor, heq] at hset
    exact LruCache.get?_set_of_ne hk h
  | delete key =>
    simp only [apply, LruCache.get?_delete] at h
    split_ifs at h
    exact h
  | clear => cases h

/-- What the key holds after a call that does not set it. -/
theorem get?_apply_of_unset (hset : call.setsFor k = none) :
    (call.apply c).cache.get? k = some v ↔
      c.cache.get? k = some v ∧ call.removes k = false ∧ ¬Evicts c call k := by
  constructor
  · intro h
    have hremoves : call.removes k = false := by
      by_contra htrue
      rw [get?_of_removes (by simpa using htrue)] at h
      cases h
    have hevicts : ¬Evicts c call k := by
      intro hevicts
      have hhas := has_of_get? h
      rw [hevicts.2.1] at hhas
      cases hhas
    exact ⟨get?_of_apply hset h, hremoves, hevicts⟩
  · rintro ⟨h, hremoves, hevicts⟩
    have hstays : (call.apply c).has k = true := by
      by_contra hgone
      exact hevicts ⟨has_of_get? h, by simpa using hgone, hremoves⟩
    obtain ⟨x, hx⟩ := Option.isSome_iff_exists.mp hstays
    have hsame := get?_of_apply hset hx
    rw [h] at hsame
    rw [hx, ← hsame]

theorem lastSet_nil {capacity : Nat} : ¬LastSet capacity k v [] := by
  rintro ⟨earlier, now, since, hcalls, -⟩
  simp at hcalls

/-- A call that sets the key settles its last value. -/
theorem lastSet_concat_of_setsFor {value : ν} (h : call.setsFor k = some value) :
    LastSet capacity k v (calls ++ [call]) ↔ value = v := by
  constructor
  · rintro ⟨earlier, now, since, hcalls, hsince⟩
    rcases List.eq_nil_or_concat' since with rfl | ⟨before, last, rfl⟩
    · have hlast := (List.append_inj' hcalls rfl).2
      obtain rfl := (List.cons.inj hlast).1
      simpa [setsFor] using h.symm
    · have hlast := (List.append_inj' (by simpa using hcalls : calls ++ [call] =
        (earlier ++ .set k v now :: before) ++ [last]) rfl).2
      obtain rfl := (List.cons.inj hlast).1
      rw [(hsince before call [] rfl).1] at h
      cases h
  · rintro rfl
    obtain ⟨now, rfl⟩ := setsFor_eq_some h
    refine ⟨calls, now, [], rfl, fun before call after hsince => ?_⟩
    simp at hsince

/-- Any other call keeps it, unless the key goes. -/
theorem lastSet_concat_of_unset (h : call.setsFor k = none) :
    LastSet capacity k v (calls ++ [call]) ↔
      LastSet capacity k v calls ∧ call.removes k = false ∧
        ¬Evicts (cacheOf capacity calls) call k := by
  constructor
  · rintro ⟨earlier, now, since, hcalls, hsince⟩
    rcases List.eq_nil_or_concat' since with rfl | ⟨before, last, rfl⟩
    · have hlast := (List.append_inj' hcalls rfl).2
      obtain rfl := (List.cons.inj hlast).1
      simp [setsFor] at h
    · obtain ⟨hinit, hlast⟩ := List.append_inj' (by simpa using hcalls : calls ++ [call] =
        (earlier ++ .set k v now :: before) ++ [last]) rfl
      obtain rfl := (List.cons.inj hlast).1
      subst hinit
      refine ⟨⟨earlier, now, before, rfl, fun b c after hb => ?_⟩, (hsince before call [] rfl).2⟩
      exact hsince b c (after ++ [call]) (by simp [hb])
  · rintro ⟨⟨earlier, now, since, rfl, hsince⟩, hremoves, hevicts⟩
    refine ⟨earlier, now, since ++ [call], by simp, fun before c after hb => ?_⟩
    rcases List.eq_nil_or_concat' after with rfl | ⟨rest, last, rfl⟩
    · obtain ⟨rfl, hlast⟩ := List.append_inj' hb rfl
      obtain rfl := (List.cons.inj hlast).1
      exact ⟨h, hremoves, hevicts⟩
    · obtain ⟨hinit, -⟩ := List.append_inj' (by simpa using hb : since ++ [call] =
        (before ++ c :: rest) ++ [last]) rfl
      exact hsince before c rest hinit

/-- A read gives the last value set, unless the key has gone since. -/
theorem get?_cacheOf (capacity : Nat) (calls : List (CacheCall κ ν)) (k : κ) (v : ν) :
    (cacheOf capacity calls).cache.get? k = some v ↔ LastSet capacity k v calls := by
  induction calls using List.reverseRecOn with
  | nil =>
    constructor
    · intro h
      cases h
    · exact fun h => absurd h lastSet_nil
  | append_singleton calls call ih =>
    rw [cacheOf_concat]
    cases hset : call.setsFor k with
    | some value =>
      rw [get?_of_setsFor hset, lastSet_concat_of_setsFor hset]
      exact Option.some_inj
    | none => rw [get?_apply_of_unset hset, lastSet_concat_of_unset hset, ih]

/-- The time of a key's last use after a call: that of the call, or the one before. -/
theorem get?_keyUsage_apply (hpos : 0 < c.capacity) (h : c.InStep) {time : Nat}
    (hused : (call.apply c).keyUsage.get? k = some time) :
    (call.usesAt k).or (c.keyUsage.get? k) = some time := by
  have hstore (c' : LruCache κ ν) (key : κ) (value : ν) (now : Nat)
      (hget : (c'.store key value now).keyUsage.get? k = some time) :
      (usesAt k (.set key value now)).or (c'.keyUsage.get? k) = some time := by
    simp only [LruCache.store, OrderedMap.get?_set] at hget
    by_cases hk : k = key
    · simpa [usesAt, hk] using hget
    · simpa [usesAt, hk, Ne.symm hk] using hget
  cases call with
  | get key now =>
    simp only [apply, LruCache.get] at hused
    split_ifs at hused with hhas
    · rw [OrderedMap.get?_set] at hused
      by_cases hk : k = key
      · simpa [usesAt, hk] using hused
      · simpa [usesAt, hk, Ne.symm hk] using hused
    · have hk : key ≠ k := by
        rintro rfl
        have hheld : c.keyUsage.has key = true := by simp [OrderedMap.has, hused]
        rw [h.has_keyUsage] at hheld
        exact hhas hheld
      simpa [usesAt, hk] using hused
  | set key value now =>
    rcases LruCache.set_cases hpos h key value now with ⟨-, hset⟩ | ⟨used, -, -, -, hset⟩
    · rw [apply, hset] at hused
      exact hstore c key value now hused
    · rw [apply, hset] at hused
      have hget := hstore _ key value now hused
      cases huse : usesAt k (.set key value now : CacheCall κ ν) with
      | some at' => simpa [huse] using hget
      | none =>
        simp only [huse, Option.none_or, LruCache.delete, OrderedMap.get?_delete] at hget
        split_ifs at hget
        simpa using hget
  | delete key =>
    simp only [apply, LruCache.delete, OrderedMap.get?_delete] at hused
    split_ifs at hused
    simpa [usesAt] using hused
  | clear => cases hused

/-- The maps are in step, and each recorded time is that of the last `get` or `set`. -/
structure Tracks (capacity : Nat) (calls : List (CacheCall κ ν)) (c : LruCache κ ν) : Prop where
  inStep : c.InStep
  capacity : c.capacity = capacity
  used : ∀ k time, c.keyUsage.get? k = some time → lastUse k calls = some time

theorem apply_inStep (hpos : 0 < c.capacity) (h : c.InStep) : (call.apply c).InStep := by
  cases call with
  | get key now => exact h.get
  | set key value now => exact h.set hpos
  | delete key => exact h.delete
  | clear => exact c.clear_inStep

theorem apply_capacity (call : CacheCall κ ν) (c : LruCache κ ν) :
    (call.apply c).capacity = c.capacity := by
  cases call with
  | get key now => exact LruCache.get_capacity
  | set key value now => exact LruCache.set_capacity
  | delete key => rfl
  | clear => rfl

theorem cacheOf_tracks (hpos : 1 ≤ capacity) (calls : List (CacheCall κ ν)) :
    Tracks capacity calls (cacheOf capacity calls) := by
  induction calls using List.reverseRecOn with
  | nil =>
    refine ⟨LruCache.init_inStep capacity, rfl, fun k time h => ?_⟩
    cases h
  | append_singleton calls call ih =>
    rw [cacheOf_concat]
    have hroom : 0 < (cacheOf capacity calls).capacity := by
      rw [ih.capacity]
      exact hpos
    refine ⟨apply_inStep hroom ih.inStep, (apply_capacity call _).trans ih.capacity, ?_⟩
    intro k time hused
    have hlast := get?_keyUsage_apply hroom ih.inStep hused
    rw [lastUse_concat]
    cases huse : call.usesAt k with
    | some now => simpa [huse] using hlast
    | none =>
      rw [huse, Option.none_or] at hlast
      rw [Option.none_or]
      exact ih.used k time hlast

/-- A key goes unasked only when `set` brings a new key to a full cache, and none was used longer
ago. -/
theorem evicts_cases (hpos : 0 < c.capacity) (h : c.InStep) (hevicts : Evicts c call k) :
    (∃ key value now, call = .set key value now ∧ c.has key = false ∧
      c.cache.size = c.capacity) ∧
    ∃ time, c.keyUsage.get? k = some time ∧ ∀ other, c.has other = true →
      ∃ time', c.keyUsage.get? other = some time' ∧ time ≤ time' := by
  obtain ⟨hhas, hgone, hremoves⟩ := hevicts
  cases call with
  | get key now =>
    simp only [apply, LruCache.has, LruCache.get_snd_cache] at hgone hhas
    rw [hhas] at hgone
    cases hgone
  | set key value now =>
    rw [apply] at hgone
    have hstored (c' : LruCache κ ν) (hheld : c'.has k = true) :
        (c'.store key value now).has k = true := by
      simp only [LruCache.has, LruCache.store, OrderedMap.has, OrderedMap.get?_set] at hheld ⊢
      split_ifs
      · rfl
      · exact hheld
    rcases LruCache.set_cases hpos h key value now with ⟨-, hset⟩ | ⟨used, hlru, hnew, hfull, hset⟩
    · rw [hset, hstored c hhas] at hgone
      cases hgone
    · obtain ⟨hmem, holdest⟩ := LruCache.lruKey_spec hlru
      have hvictim : k = used.1 := by
        by_contra hne
        have hheld : (c.delete used.1).has k = true := by
          simpa [LruCache.has, LruCache.delete, OrderedMap.has, OrderedMap.get?_delete, hne] using hhas
        rw [hset, hstored _ hheld] at hgone
        cases hgone
      refine ⟨⟨key, value, now, rfl, hnew, hfull⟩, used.2, ?_, fun other hother => ?_⟩
      · rw [hvictim]
        exact (c.keyUsage.get?_eq_some_iff used.1 used.2).mpr hmem
      · rw [← h.has_keyUsage] at hother
        obtain ⟨time', htime⟩ := Option.isSome_iff_exists.mp hother
        exact ⟨time', htime, holdest _ ((c.keyUsage.get?_eq_some_iff other time').mp htime)⟩
  | delete key =>
    have hne : k ≠ key := by
      intro heq
      simp [removes, heq] at hremoves
    simp only [apply, LruCache.has, LruCache.delete, OrderedMap.has, OrderedMap.get?_delete,
      if_neg hne] at hgone hhas
    rw [hhas] at hgone
    cases hgone
  | clear => cases hremoves

end Calls

/-- After any calls on a cache of capacity one at least, its two maps have the same keys, no more of
them than fit; a read gives the last value set for the key unless the key was deleted, cleared or
evicted since; and the next call evicts a key only if it sets a new one in a full cache, and no key
there was last used earlier. -/
theorem lruCache_sound {capacity : Nat} (hpos : 1 ≤ capacity) (calls : List (CacheCall κ ν)) :
    (cacheOf capacity calls).keyUsage.keys = (cacheOf capacity calls).cache.keys ∧
    (cacheOf capacity calls).cache.size ≤ capacity ∧
    (∀ k now v, ((cacheOf capacity calls).get k now).1 = some v ↔ LastSet capacity k v calls) ∧
    ∀ call k, Evicts (cacheOf capacity calls) call k →
      (∃ key value now, call = .set key value now ∧ (cacheOf capacity calls).has key = false ∧
        (cacheOf capacity calls).cache.size = capacity) ∧
      ∃ time, lastUse k calls = some time ∧ ∀ other, (cacheOf capacity calls).has other = true →
        ∃ time', lastUse other calls = some time' ∧ time ≤ time' := by
  have htracks := cacheOf_tracks hpos calls
  have hcapacity : 0 < (cacheOf capacity calls).capacity := by
    rw [htracks.capacity]
    exact hpos
  refine ⟨htracks.inStep.keys, ?_, fun k now v => ?_, fun call k hevicts => ?_⟩
  · have hsize := htracks.inStep.size
    rwa [htracks.capacity] at hsize
  · rw [LruCache.get_fst]
    exact get?_cacheOf capacity calls k v
  · obtain ⟨⟨key, value, now, hcall, hnew, hfull⟩, time, hused, holdest⟩ :=
      evicts_cases hcapacity htracks.inStep hevicts
    rw [htracks.capacity] at hfull
    refine ⟨⟨key, value, now, hcall, hnew, hfull⟩, time, htracks.used k time hused, ?_⟩
    intro other hother
    obtain ⟨time', hother', hle⟩ := holdest other hother
    exact ⟨time', htracks.used other time' hother', hle⟩

/-- Of two keys the one that was used longer ago goes when a third comes. -/
theorem lruCache_sound_third :
    LastSet 2 1 10 [.set 1 10 0, .set 2 20 1, .get 1 2, .set 3 30 3] ∧
      ¬LastSet 2 2 20 [.set 1 10 0, .set 2 20 1, .get 1 2, .set 3 30 3] := by
  have hsound := lruCache_sound (by decide : 1 ≤ 2)
    ([.set 1 10 0, .set 2 20 1, .get 1 2, .set 3 30 3] : List (CacheCall Nat Nat))
  constructor
  · exact (hsound.2.2.1 1 4 10).mp (by decide)
  · exact fun hlast => absurd ((hsound.2.2.1 2 4 20).mpr hlast) (by decide)

end CacheCall

namespace BatchLoader

open CacheCall

variable {κ : Type u} {ν : Type v} [DecidableEq κ] {batchSize : Nat} {s t : BatchLoader κ ν}

omit [DecidableEq κ] in
theorem openBatch_cache (batchSize : Nat) (s : BatchLoader κ ν) :
    (s.openBatch batchSize).1.cache = s.cache := by
  unfold openBatch
  cases s.pendingBatch with
  | none => rfl
  | some b =>
    dsimp only
    split_ifs
    · rfl
    · rfl

theorem load_cache (batchSize : Nat) (s : BatchLoader κ ν) (key : κ) :
    (s.load batchSize key).cache = (s.cache.get key s.now).2 := by
  unfold load
  dsimp only
  split
  · rfl
  · split
    · rfl
    · exact openBatch_cache batchSize _

/-- Caching the values of a batch is a sequence of calls. -/
theorem cacheValues_calls (now : Nat) (entries : List (κ × Option ν)) (c : LruCache κ ν) :
    ∃ calls : List (CacheCall κ ν), entries.foldl (cacheValue now) c = calls.foldl apply c := by
  induction entries generalizing c with
  | nil => exact ⟨[], rfl⟩
  | cons entry entries ih =>
    obtain ⟨calls, hcalls⟩ := ih (cacheValue now c entry)
    obtain ⟨key, value⟩ := entry
    cases value with
    | none => exact ⟨calls, hcalls⟩
    | some value => exact ⟨.set key value now :: calls, hcalls⟩

theorem step_calls {a : Action κ ν} (hs : s.step batchSize a = some t) :
    ∃ calls : List (CacheCall κ ν), t.cache = calls.foldl apply s.cache := by
  cases a with
  | load key =>
    obtain rfl := Option.some.inj hs
    exact ⟨[.get key s.now], load_cache batchSize s key⟩
  | timer b =>
    obtain ⟨batch, -, hs⟩ := Option.bind_eq_some_iff.mp hs
    split at hs
    · obtain rfl := Option.some.inj hs
      exact ⟨[], rfl⟩
    · cases hs
  | settle b answer =>
    obtain ⟨batch, -, hs⟩ := Option.bind_eq_some_iff.mp hs
    split at hs
    · split_ifs at hs
      obtain rfl := Option.some.inj hs
      exact cacheValues_calls s.now _ s.cache
    · cases hs
  | delivered entry =>
    obtain ⟨batch, -, hs⟩ := Option.bind_eq_some_iff.mp hs
    split at hs
    · split_ifs at hs
      obtain rfl := Option.some.inj hs
      exact ⟨[], rfl⟩
    · cases hs
  | clock now =>
    obtain rfl := Option.some.inj hs
    exact ⟨[], rfl⟩

/-- In every run of a loader its cache is one that calls have made, so `lruCache_sound` holds of it. -/
theorem run_cacheOf {capacity : Nat} {as : List (Action κ ν)}
    (hrun : run (step batchSize) (init (.init capacity)) as = some s) :
    ∃ calls : List (CacheCall κ ν), s.cache = cacheOf capacity calls := by
  have hstep : ∀ (s : BatchLoader κ ν) (a : Action κ ν) (t : BatchLoader κ ν),
      (∃ calls : List (CacheCall κ ν), s.cache = cacheOf capacity calls) →
      s.step batchSize a = some t → ∃ calls : List (CacheCall κ ν), t.cache = cacheOf capacity calls := by
    rintro s a t ⟨calls, hcalls⟩ hs
    obtain ⟨more, hmore⟩ := step_calls hs
    refine ⟨calls ++ more, ?_⟩
    rw [hmore, hcalls, cacheOf, cacheOf, List.foldl_append]
  exact run_invariant_all hstep ⟨[], rfl⟩ hrun

end BatchLoader

end LivelierBridge.Nostr
