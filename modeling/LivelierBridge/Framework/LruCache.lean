import LivelierBridge.Framework.OrderedMap
import Mathlib.Data.List.MinMax

namespace LivelierBridge.Framework

universe u v

/-- A map of bounded size that gives up the key that was used longest ago. -/
structure LruCache (κ : Type u) (ν : Type v) where
  capacity : Nat
  cache : OrderedMap κ ν
  /-- The time of each key's last use. -/
  keyUsage : OrderedMap κ Nat

namespace LruCache

variable {κ : Type u} {ν : Type v}

def init (capacity : Nat) : LruCache κ ν := ⟨capacity, .empty, .empty⟩

/-- The first of the keys whose last use is the earliest. -/
def lruKey (c : LruCache κ ν) : Option (κ × Nat) :=
  c.keyUsage.entries.foldl
    (fun lru used =>
      match lru with
      | none => some used
      | some oldest => if used.2 < oldest.2 then some used else some oldest)
    none

variable [DecidableEq κ]

def has (c : LruCache κ ν) (k : κ) : Bool := c.cache.has k

/-- A read is a use. -/
def get (c : LruCache κ ν) (k : κ) (now : Nat) : Option ν × LruCache κ ν :=
  if c.has k then (c.cache.get? k, { c with keyUsage := c.keyUsage.set k now }) else (none, c)

def delete (c : LruCache κ ν) (k : κ) : LruCache κ ν :=
  { c with cache := c.cache.delete k, keyUsage := c.keyUsage.delete k }

def clear (c : LruCache κ ν) : LruCache κ ν := { c with cache := .empty, keyUsage := .empty }

def evictLRU (c : LruCache κ ν) : LruCache κ ν :=
  if c.cache.size = 0 then c
  else
    match c.lruKey with
    | none => c
    | some (k, _) => c.delete k

def set (c : LruCache κ ν) (k : κ) (v : ν) (now : Nat) : LruCache κ ν :=
  let c := if c.capacity ≤ c.cache.size ∧ c.has k = false then c.evictLRU else c
  { c with cache := c.cache.set k v, keyUsage := c.keyUsage.set k now }

section Lookup

variable {c : LruCache κ ν} {k k' : κ} {v x : ν} {now : Nat}

@[simp] theorem get_fst : (c.get k now).1 = c.cache.get? k := by
  unfold get has OrderedMap.has
  split_ifs with h
  · rfl
  · exact (Option.not_isSome_iff_eq_none.mp h).symm

@[simp] theorem get_snd_cache : (c.get k now).2.cache = c.cache := by
  unfold get
  split_ifs
  · rfl
  · rfl

theorem get?_delete : (c.delete k).cache.get? k' = if k' = k then none else c.cache.get? k' :=
  OrderedMap.get?_delete ..

/-- An eviction keeps what it does not drop. -/
theorem get?_evictLRU (h : c.evictLRU.cache.get? k = some x) : c.cache.get? k = some x := by
  unfold evictLRU at h
  split_ifs at h
  · exact h
  · split at h
    · exact h
    · rw [get?_delete] at h
      split_ifs at h
      exact h

@[simp] theorem get?_set_self : (c.set k v now).cache.get? k = some v :=
  OrderedMap.get?_set_self ..

@[simp] theorem get_capacity : (c.get k now).2.capacity = c.capacity := by
  unfold get
  split_ifs
  · rfl
  · rfl

theorem evictLRU_capacity : c.evictLRU.capacity = c.capacity := by
  unfold evictLRU
  split_ifs
  · rfl
  · split
    · rfl
    · rfl

@[simp] theorem set_capacity : (c.set k v now).capacity = c.capacity := by
  unfold set
  dsimp only
  split_ifs
  · exact evictLRU_capacity
  · rfl

/-- Another key holds what it held, unless it was evicted. -/
theorem get?_set_of_ne (hk : k' ≠ k) (h : (c.set k v now).cache.get? k' = some x) :
    c.cache.get? k' = some x := by
  have hset : (c.set k v now).cache.get? k' =
      (if c.capacity ≤ c.cache.size ∧ c.has k = false then c.evictLRU else c).cache.get? k' :=
    OrderedMap.get?_set_of_ne _ hk v
  rw [hset] at h
  split_ifs at h
  · exact get?_evictLRU h
  · exact h

end Lookup

section Eviction

variable {c : LruCache κ ν} {k : κ} {v : ν} {now : Nat} {used : κ × Nat}

omit [DecidableEq κ] in
theorem lruKey_eq_argmin : c.lruKey = c.keyUsage.entries.argmin Prod.snd := by
  unfold lruKey List.argmin
  congr 1
  funext lru e
  cases lru with
  | none => rfl
  | some oldest => rfl

omit [DecidableEq κ] in
/-- The evicted key is one whose last use nothing in the cache precedes. -/
theorem lruKey_spec (h : c.lruKey = some used) :
    used ∈ c.keyUsage.entries ∧ ∀ e ∈ c.keyUsage.entries, used.2 ≤ e.2 := by
  rw [lruKey_eq_argmin] at h
  have hmem : used ∈ c.keyUsage.entries := List.argmin_mem h
  have hle : ∀ e ∈ c.keyUsage.entries, used.2 ≤ e.2 := fun e he => List.le_of_mem_argmin he h
  exact ⟨hmem, hle⟩

/-- The two maps have the same keys in the same order, and no more of them than fit. -/
structure InStep (c : LruCache κ ν) : Prop where
  keys : c.keyUsage.keys = c.cache.keys
  size : c.cache.size ≤ c.capacity

omit [DecidableEq κ] in
theorem init_inStep (capacity : Nat) : (init capacity : LruCache κ ν).InStep :=
  ⟨rfl, Nat.zero_le _⟩

theorem InStep.has_keyUsage (h : c.InStep) (k : κ) : c.keyUsage.has k = c.has k := by
  have hiff : c.keyUsage.has k = true ↔ c.has k = true := by
    rw [has, OrderedMap.has_iff, OrderedMap.has_iff, h.keys]
  exact Bool.eq_iff_iff.mpr hiff

/-- The write of `set`, once there is room. -/
def store (c : LruCache κ ν) (k : κ) (v : ν) (now : Nat) : LruCache κ ν :=
  { c with cache := c.cache.set k v, keyUsage := c.keyUsage.set k now }

theorem InStep.get (h : c.InStep) : (c.get k now).2.InStep := by
  unfold LruCache.get
  split_ifs with hk
  · have hused : k ∈ c.keyUsage.keys := by
      rw [← OrderedMap.has_iff, h.has_keyUsage]
      exact hk
    refine ⟨?_, h.size⟩
    rw [OrderedMap.keys_set, if_pos hused]
    exact h.keys
  · exact h

theorem InStep.delete (h : c.InStep) : (c.delete k).InStep := by
  constructor
  · simp [LruCache.delete, OrderedMap.keys_delete, h.keys]
  · have hle : (c.cache.delete k).size ≤ c.cache.size := List.length_filter_le _ _
    exact Nat.le_trans hle h.size

omit [DecidableEq κ] in
theorem clear_inStep (c : LruCache κ ν) : c.clear.InStep := ⟨rfl, Nat.zero_le _⟩

theorem InStep.store (h : c.InStep) (hroom : c.has k = true ∨ c.cache.size < c.capacity) :
    (c.store k v now).InStep := by
  constructor
  · simp [LruCache.store, OrderedMap.keys_set, h.keys]
  · have hsize : (c.cache.set k v).keys.length = (c.cache.set k v).size := by
      simp [OrderedMap.keys, OrderedMap.size]
    have hold : c.cache.keys.length = c.cache.size := by simp [OrderedMap.keys, OrderedMap.size]
    have hle := h.size
    change (c.cache.set k v).size ≤ c.capacity
    rw [← hsize, OrderedMap.keys_set]
    rcases hroom with hk | hlt
    · rw [if_pos ((c.cache.has_iff k).mp hk)]
      omega
    · split_ifs
      · omega
      · rw [List.length_append, List.length_singleton]
        omega

/-- `set` evicts when a new key finds the cache full, and then exactly one key. -/
theorem set_cases (hpos : 0 < c.capacity) (h : c.InStep) (k : κ) (v : ν) (now : Nat) :
    ((c.has k = true ∨ c.cache.size < c.capacity) ∧ c.set k v now = c.store k v now) ∨
      ∃ used, c.lruKey = some used ∧ c.has k = false ∧ c.cache.size = c.capacity ∧
        c.set k v now = (c.delete used.1).store k v now := by
  have hset : c.set k v now =
      (if c.capacity ≤ c.cache.size ∧ c.has k = false then c.evictLRU else c).store k v now := rfl
  have hle := h.size
  rw [hset]
  split_ifs with hfull
  · obtain ⟨hsize, hnew⟩ := hfull
    have hpresent : c.cache.size ≠ 0 := by omega
    have hused : c.keyUsage.entries ≠ [] := by
      intro hempty
      have hkeys := congrArg List.length h.keys
      simp only [OrderedMap.keys, hempty, List.map_nil, List.length_nil, List.length_map] at hkeys
      exact hpresent hkeys.symm
    obtain ⟨used, hlru⟩ : ∃ used, c.lruKey = some used := by
      rw [lruKey_eq_argmin, ← Option.isSome_iff_exists, Option.isSome_iff_ne_none, Ne,
        List.argmin_eq_none]
      exact hused
    refine .inr ⟨used, hlru, hnew, by omega, ?_⟩
    simp [evictLRU, hpresent, hlru]
  · refine .inl ⟨?_, rfl⟩
    by_cases hk : c.has k = true
    · exact .inl hk
    · have hlt : ¬c.capacity ≤ c.cache.size := fun hge => hfull ⟨hge, by simpa using hk⟩
      exact .inr (by omega)

theorem InStep.set (hpos : 0 < c.capacity) (h : c.InStep) : (c.set k v now).InStep := by
  rcases set_cases hpos h k v now with ⟨hroom, hset⟩ | ⟨used, hlru, -, hfull, hset⟩
  · rw [hset]
    exact h.store hroom
  · have hused : c.has used.1 = true := by
      have hmem := (c.keyUsage.get?_eq_some_iff used.1 used.2).mpr (lruKey_spec hlru).1
      rw [← h.has_keyUsage, OrderedMap.has, hmem]
      rfl
    have hroom := c.cache.size_delete_of_has hused
    rw [hset]
    refine h.delete.store (.inr ?_)
    change (c.cache.delete used.1).size < c.capacity
    omega

end Eviction

example : (((((init 2 : LruCache Nat Nat).set 1 10 0).set 2 20 1).get 1 2).2.set 3 30 3).cache.keys =
    [1, 3] := by decide

end LruCache

end LivelierBridge.Framework
