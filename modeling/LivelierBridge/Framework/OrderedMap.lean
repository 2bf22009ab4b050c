import Mathlib.Data.List.Basic
import Mathlib.Data.List.Nodup

namespace LivelierBridge.Framework

universe u v

/-- A finite map that iterates in insertion order: writing a present key keeps its place,
a deleted key that is written again goes to the end. -/
structure OrderedMap (κ : Type u) (ν : Type v) where
  entries : List (κ × ν)
  nodup : (entries.map Prod.fst).Nodup

namespace OrderedMap

variable {κ : Type u} {ν : Type v}

def empty : OrderedMap κ ν := ⟨[], List.nodup_nil⟩

instance : Inhabited (OrderedMap κ ν) := ⟨empty⟩

theorem ext_entries {m m' : OrderedMap κ ν} (h : m.entries = m'.entries) : m = m' := by
  cases m
  cases m'
  cases h
  rfl

def keys (m : OrderedMap κ ν) : List κ := m.entries.map Prod.fst

def values (m : OrderedMap κ ν) : List ν := m.entries.map Prod.snd

def size (m : OrderedMap κ ν) : Nat := m.entries.length

/-- Keep the entries that satisfy `p`, in order. -/
def filter (m : OrderedMap κ ν) (p : κ × ν → Bool) : OrderedMap κ ν :=
  ⟨m.entries.filter p, m.nodup.sublist (List.filter_sublist.map _)⟩

/-- Delete the oldest entries while there are at least `cap`. -/
def dropOldest (cap : Nat) : List (κ × ν) → List (κ × ν)
  | [] => []
  | e :: es => if cap ≤ (e :: es).length then dropOldest cap es else e :: es

theorem dropOldest_suffix (cap : Nat) (es : List (κ × ν)) : dropOldest cap es <:+ es := by
  induction es with
  | nil => exact List.suffix_rfl
  | cons e es ih =>
    rw [dropOldest]
    split_ifs
    · exact ih.trans (List.suffix_cons e es)
    · exact List.suffix_rfl

def shrink (m : OrderedMap κ ν) (cap : Nat) : OrderedMap κ ν :=
  ⟨dropOldest cap m.entries, m.nodup.sublist ((dropOldest_suffix cap m.entries).sublist.map _)⟩

def dropFirst (m : OrderedMap κ ν) : OrderedMap κ ν :=
  ⟨m.entries.tail, m.nodup.sublist ((List.tail_sublist m.entries).map _)⟩

/-- An entry with fewer than `cap-1` younger ones is not dropped. -/
theorem dropOldest_keeps (cap : Nat) (pre : List (κ × ν)) (e : κ × ν) (post : List (κ × ν))
    (h : post.length + 1 < cap) :
    ∃ pre', dropOldest cap (pre ++ e :: post) = pre' ++ e :: post := by
  induction pre with
  | nil =>
    refine ⟨[], ?_⟩
    rw [List.nil_append, dropOldest, if_neg (by simpa using h)]
  | cons a pre ih =>
    rw [List.cons_append, dropOldest]
    split_ifs
    · exact ih
    · exact ⟨a :: pre, rfl⟩

variable [DecidableEq κ]

def find (k : κ) : List (κ × ν) → Option ν
  | [] => none
  | (k', v) :: es => if k' = k then some v else find k es

def get? (m : OrderedMap κ ν) (k : κ) : Option ν := find k m.entries

def has (m : OrderedMap κ ν) (k : κ) : Bool := (m.get? k).isSome

/-- Overwrite `k` where it stands, or append it. -/
def put (k : κ) (v : ν) : List (κ × ν) → List (κ × ν)
  | [] => [(k, v)]
  | (k', v') :: es => if k' = k then (k, v) :: es else (k', v') :: put k v es

theorem mem_put_keys (k : κ) (v : ν) (es : List (κ × ν)) (x : κ) :
    x ∈ (put k v es).map Prod.fst ↔ x = k ∨ x ∈ es.map Prod.fst := by
  induction es with
  | nil => simp [put]
  | cons e es ih =>
    obtain ⟨k', v'⟩ := e
    by_cases h : k' = k
    · subst h; simp [put]
    · simp only [put, if_neg h, List.map_cons, List.mem_cons, ih]
      tauto

theorem put_nodup (k : κ) (v : ν) (es : List (κ × ν)) (h : (es.map Prod.fst).Nodup) :
    ((put k v es).map Prod.fst).Nodup := by
  induction es with
  | nil => simp [put]
  | cons e es ih =>
    obtain ⟨k', v'⟩ := e
    simp only [List.map_cons, List.nodup_cons] at h
    by_cases hk : k' = k
    · subst hk; simpa [put] using h
    · simp only [put, if_neg hk, List.map_cons, List.nodup_cons]
      refine ⟨?_, ih h.2⟩
      rw [mem_put_keys]
      rintro (he | he)
      · exact hk he
      · exact h.1 he

def set (m : OrderedMap κ ν) (k : κ) (v : ν) : OrderedMap κ ν :=
  ⟨put k v m.entries, put_nodup k v m.entries m.nodup⟩

def delete (m : OrderedMap κ ν) (k : κ) : OrderedMap κ ν := m.filter fun e => e.1 ≠ k

theorem find_put_self (k : κ) (v : ν) (es : List (κ × ν)) : find k (put k v es) = some v := by
  induction es with
  | nil => simp [put, find]
  | cons e es ih =>
    obtain ⟨k', v'⟩ := e
    by_cases h : k' = k
    · simp [put, find, h]
    · simp [put, find, h, ih]

theorem find_put_of_ne {k k' : κ} (h : k' ≠ k) (v : ν) (es : List (κ × ν)) :
    find k' (put k v es) = find k' es := by
  induction es with
  | nil => simp [put, find, Ne.symm h]
  | cons e es ih =>
    obtain ⟨k'', v'⟩ := e
    by_cases hk : k'' = k
    · subst hk; simp [put, find, Ne.symm h]
    · by_cases hk' : k'' = k'
      · subst hk'; simp [put, find, h]
      · simp [put, find, hk, hk', ih]

theorem find_filter_ne (k k' : κ) (es : List (κ × ν)) :
    find k' (es.filter fun e => e.1 ≠ k) = if k' = k then none else find k' es := by
  induction es with
  | nil => simp [find]
  | cons e es ih =>
    obtain ⟨k'', v'⟩ := e
    by_cases hk : k'' = k
    · subst hk
      by_cases hk' : k' = k''
      · simp [hk'] at ih ⊢; exact ih
      · simpa [hk', find, Ne.symm hk'] using ih
    · by_cases hk' : k'' = k'
      · subst hk'; simp [find, hk]
      · simp only [List.filter_cons, hk, ne_eq, not_false_eq_true, decide_true, if_true, find,
          if_neg hk', ih]

@[simp] theorem get?_empty (k : κ) : (empty : OrderedMap κ ν).get? k = none := rfl

@[simp] theorem get?_set_self (m : OrderedMap κ ν) (k : κ) (v : ν) :
    (m.set k v).get? k = some v := find_put_self k v m.entries

theorem get?_set_of_ne (m : OrderedMap κ ν) {k k' : κ} (h : k' ≠ k) (v : ν) :
    (m.set k v).get? k' = m.get? k' := find_put_of_ne h v m.entries

theorem get?_set (m : OrderedMap κ ν) (k k' : κ) (v : ν) :
    (m.set k v).get? k' = if k' = k then some v else m.get? k' := by
  by_cases h : k' = k
  · subst h; simp
  · simp [get?_set_of_ne m h, h]

theorem get?_delete (m : OrderedMap κ ν) (k k' : κ) :
    (m.delete k).get? k' = if k' = k then none else m.get? k' := by
  simpa [delete, get?, filter] using find_filter_ne k k' m.entries

theorem mem_of_find {k : κ} {v : ν} {es : List (κ × ν)} (h : find k es = some v) :
    (k, v) ∈ es := by
  induction es with
  | nil => simp [find] at h
  | cons e es ih =>
    obtain ⟨k', v'⟩ := e
    by_cases hk : k' = k
    · subst hk
      obtain rfl : v' = v := by simpa [find] using h
      exact List.mem_cons_self
    · exact List.mem_cons_of_mem _ (ih (by simpa [find, hk] using h))

theorem find_of_mem {k : κ} {v : ν} {es : List (κ × ν)} (hn : (es.map Prod.fst).Nodup)
    (h : (k, v) ∈ es) : find k es = some v := by
  induction es with
  | nil => simp at h
  | cons e es ih =>
    obtain ⟨k', v'⟩ := e
    simp only [List.map_cons, List.nodup_cons] at hn
    rcases List.mem_cons.mp h with he | he
    · obtain ⟨rfl, rfl⟩ := Prod.mk.inj he
      simp [find]
    · have hk : k' ≠ k := by
        rintro rfl
        exact hn.1 (List.mem_map.mpr ⟨_, he, rfl⟩)
      simpa [find, hk] using ih hn.2 he

theorem get?_eq_some_iff (m : OrderedMap κ ν) (k : κ) (v : ν) :
    m.get? k = some v ↔ (k, v) ∈ m.entries :=
  ⟨mem_of_find, find_of_mem m.nodup⟩

theorem find_eq_none {k : κ} {es : List (κ × ν)} (h : k ∉ es.map Prod.fst) : find k es = none := by
  cases hf : find k es with
  | none => rfl
  | some v => exact absurd (List.mem_map.mpr ⟨_, mem_of_find hf, rfl⟩) h

/-- A key has one entry at most. -/
theorem filter_key (m : OrderedMap κ ν) (k : κ) :
    m.entries.filter (fun e => e.1 = k) = (m.get? k).toList.map (Prod.mk k) := by
  obtain ⟨es, hn⟩ := m
  simp only [get?]
  induction es with
  | nil => rfl
  | cons e es ih =>
    obtain ⟨k', v⟩ := e
    obtain ⟨hk', hn⟩ := List.nodup_cons.mp hn
    by_cases hk : k' = k
    · subst hk
      have hrest := ih hn
      rw [find_eq_none hk'] at hrest
      simpa [find] using hrest
    · simpa [find, hk] using ih hn

theorem get?_eq_none_iff (m : OrderedMap κ ν) (k : κ) : m.get? k = none ↔ k ∉ m.keys := by
  constructor
  · intro h hk
    obtain ⟨⟨k', v⟩, hm, rfl⟩ := List.mem_map.mp hk
    simp [(m.get?_eq_some_iff k' v).mpr hm] at h
  · intro h
    cases hg : m.get? k with
    | none => rfl
    | some v => exact absurd (List.mem_map.mpr ⟨_, (m.get?_eq_some_iff k v).mp hg, rfl⟩) h

theorem has_iff (m : OrderedMap κ ν) (k : κ) : m.has k = true ↔ k ∈ m.keys := by
  rw [has, Option.isSome_iff_ne_none, Ne, get?_eq_none_iff, not_not]

theorem put_of_notMem {k : κ} {es : List (κ × ν)} (h : k ∉ es.map Prod.fst) (v : ν) :
    put k v es = es ++ [(k, v)] := by
  induction es with
  | nil => rfl
  | cons e es ih =>
    obtain ⟨k', v'⟩ := e
    simp only [List.map_cons, List.mem_cons, not_or] at h
    simp [put, Ne.symm h.1, ih h.2]

theorem entries_set_of_notMem (m : OrderedMap κ ν) {k : κ} (h : k ∉ m.keys) (v : ν) :
    (m.set k v).entries = m.entries ++ [(k, v)] := put_of_notMem h v

theorem keys_set (m : OrderedMap κ ν) (k : κ) (v : ν) :
    (m.set k v).keys = if k ∈ m.keys then m.keys else m.keys ++ [k] := by
  obtain ⟨es, hn⟩ := m
  change (put k v es).map Prod.fst =
    if k ∈ es.map Prod.fst then es.map Prod.fst else es.map Prod.fst ++ [k]
  clear hn
  induction es with
  | nil => simp [put]
  | cons e es ih =>
    obtain ⟨k', v'⟩ := e
    by_cases hk : k' = k
    · simp [put, hk]
    · have hne : k ≠ k' := Ne.symm hk
      rw [put, if_neg hk, List.map_cons, List.map_cons, ih]
      by_cases hmem : k ∈ es.map Prod.fst
      · rw [if_pos hmem, if_pos (List.mem_cons_of_mem _ hmem)]
      · rw [if_neg hmem, if_neg (List.not_mem_cons_of_ne_of_not_mem hne hmem)]
        rfl

theorem keys_delete (m : OrderedMap κ ν) (k : κ) : (m.delete k).keys = m.keys.filter (· ≠ k) := by
  change (m.entries.filter _).map Prod.fst = (m.entries.map Prod.fst).filter _
  rw [List.filter_map]
  rfl

/-- Deleting a key that is there makes room for one. -/
theorem size_delete_of_has (m : OrderedMap κ ν) {k : κ} (h : m.has k = true) :
    (m.delete k).size + 1 = m.size := by
  have hmem : k ∈ m.keys := (m.has_iff k).mp h
  have herase : (m.delete k).keys = m.keys.erase k := by
    have hfilter : m.keys.erase k = m.keys.filter (· != k) := List.Nodup.erase_eq_filter m.nodup k
    rw [keys_delete, hfilter]
    refine List.filter_congr fun x _ => ?_
    by_cases hx : x = k
    · simp [hx]
    · simp [hx]
  have hlen : (m.delete k).keys.length + 1 = m.keys.length := by
    rw [herase, List.length_erase_of_mem hmem]
    have hpos := List.length_pos_of_mem hmem
    omega
  simpa [keys, size] using hlen

theorem filter_put_of_ne {k u : κ} (h : k ≠ u) (v : ν) (es : List (κ × ν)) :
    (put k v es).filter (fun e => e.1 ≠ u) = put k v (es.filter fun e => e.1 ≠ u) := by
  induction es with
  | nil => simp [put, h]
  | cons e es ih =>
    obtain ⟨a, b⟩ := e
    by_cases ha : a = k
    · subst ha; simp [put, h]
    · by_cases hu : a = u
      · subst hu; simpa [put, ha] using ih
      · simpa [put, ha, hu] using ih

theorem filter_put_self (k : κ) (v : ν) (es : List (κ × ν)) :
    (put k v es).filter (fun e => e.1 ≠ k) = es.filter fun e => e.1 ≠ k := by
  induction es with
  | nil => simp [put]
  | cons e es ih =>
    obtain ⟨a, b⟩ := e
    by_cases ha : a = k
    · subst ha; simp [put]
    · simpa [put, ha] using ih

theorem delete_set_of_ne (m : OrderedMap κ ν) {k u : κ} (h : k ≠ u) (v : ν) :
    (m.set k v).delete u = (m.delete u).set k v :=
  ext_entries (filter_put_of_ne h v m.entries)

theorem delete_set_self (m : OrderedMap κ ν) (k : κ) (v : ν) :
    (m.set k v).delete k = m.delete k := ext_entries (filter_put_self k v m.entries)

theorem delete_comm (m : OrderedMap κ ν) (k u : κ) :
    (m.delete k).delete u = (m.delete u).delete k :=
  ext_entries (by simp [delete, filter, Bool.and_comm])

theorem delete_delete_self (m : OrderedMap κ ν) (k : κ) : (m.delete k).delete k = m.delete k :=
  ext_entries (by simp [delete, filter])

/-- Writing another key keeps an entry's place and puts at most one entry behind it. -/
theorem put_keeps {k k' : κ} (hk : k ≠ k') (v v' : ν) (pre post : List (κ × ν)) :
    ∃ pre' post', put k' v' (pre ++ (k, v) :: post) = pre' ++ (k, v) :: post' ∧
      post'.length ≤ post.length + 1 := by
  have len (es : List (κ × ν)) : (put k' v' es).length ≤ es.length + 1 := by
    induction es with
    | nil => simp [put]
    | cons e es ih =>
      obtain ⟨a, b⟩ := e
      by_cases ha : a = k' <;> simp [put, ha, ih]
  induction pre with
  | nil => exact ⟨[], put k' v' post, by simp [put, hk], len post⟩
  | cons e pre ih =>
    obtain ⟨a, b⟩ := e
    by_cases ha : a = k'
    · exact ⟨(k', v') :: pre, post, by simp [put, ha], Nat.le_succ _⟩
    · obtain ⟨pre', post', he, hl⟩ := ih
      exact ⟨(a, b) :: pre', post', by simp [put, ha, he], hl⟩

/-- Build a map by writing the pairs in order. -/
def ofList (es : List (κ × ν)) : OrderedMap κ ν := es.foldl (fun m e => m.set e.1 e.2) empty

theorem size_set_le (m : OrderedMap κ ν) (k : κ) (v : ν) : (m.set k v).size ≤ m.size + 1 := by
  have h : ∀ es : List (κ × ν), (put k v es).length ≤ es.length + 1 := by
    intro es
    induction es with
    | nil => exact Nat.le_refl _
    | cons e es ih =>
      simp only [put]
      split_ifs
      · simp
      · simp only [List.length_cons]
        omega
  exact h m.entries

theorem mem_keys_ofList {es : List (κ × ν)} {k : κ} : k ∈ (ofList es).keys ↔ k ∈ es.map Prod.fst := by
  suffices h : ∀ m : OrderedMap κ ν, k ∈ (es.foldl (fun m e => m.set e.1 e.2) m).keys ↔
      k ∈ m.keys ∨ k ∈ es.map Prod.fst by
    rw [ofList, h]
    simp [keys, empty]
  induction es with
  | nil => simp
  | cons e es ih =>
    intro m
    rw [List.foldl_cons, ih, List.map_cons, List.mem_cons]
    have hset : k ∈ (m.set e.1 e.2).keys ↔ k = e.1 ∨ k ∈ m.keys := mem_put_keys e.1 e.2 m.entries k
    rw [hset]
    tauto

theorem size_ofList_le (es : List (κ × ν)) : (ofList es).size ≤ es.length := by
  suffices h : ∀ m : OrderedMap κ ν, (es.foldl (fun m e => m.set e.1 e.2) m).size ≤ m.size + es.length by
    have hempty := h empty
    rwa [show (empty : OrderedMap κ ν).size = 0 from rfl, Nat.zero_add] at hempty
  induction es with
  | nil => exact fun m => Nat.le_refl _
  | cons e es ih =>
    intro m
    have hrest := ih (m.set e.1 e.2)
    have hset := size_set_le m e.1 e.2
    simp only [List.foldl_cons, List.length_cons]
    omega

theorem mem_of_get?_ofList {es : List (κ × ν)} {k : κ} {v : ν} (h : (ofList es).get? k = some v) :
    (k, v) ∈ es := by
  suffices hfold : ∀ m : OrderedMap κ ν, (es.foldl (fun m e => m.set e.1 e.2) m).get? k = some v →
      m.get? k = some v ∨ (k, v) ∈ es by
    exact (hfold empty h).resolve_left fun hempty => by cases hempty
  clear h
  induction es with
  | nil => exact fun m h => .inl h
  | cons e es ih =>
    intro m h
    rcases ih (m.set e.1 e.2) h with hset | hlater
    · rw [get?_set] at hset
      split_ifs at hset with hk
      · subst hk
        obtain rfl := Option.some.inj hset
        exact .inr List.mem_cons_self
      · exact .inl hset
    · exact .inr (List.mem_cons_of_mem _ hlater)

/-- A pass over distinct keys that changes only the entry of each key. -/
theorem get?_foldl {f : OrderedMap κ ν → κ → OrderedMap κ ν} {g : Option ν → Option ν}
    (hf : ∀ m k k', (f m k).get? k' = if k' = k then g (m.get? k') else m.get? k')
    {ks : List κ} (hn : ks.Nodup) (m : OrderedMap κ ν) (k : κ) :
    (k ∈ ks → (ks.foldl f m).get? k = g (m.get? k)) ∧
      (k ∉ ks → (ks.foldl f m).get? k = m.get? k) := by
  induction ks generalizing m with
  | nil => simp
  | cons k' ks ih =>
    obtain ⟨hk', hn⟩ := List.nodup_cons.mp hn
    obtain ⟨hin, hout⟩ := ih hn (f m k')
    rw [List.foldl_cons]
    constructor
    · intro hmem
      rcases List.mem_cons.mp hmem with rfl | hrest
      · rw [hout hk', hf, if_pos rfl]
      · rw [hin hrest, hf, if_neg (ne_of_mem_of_not_mem hrest hk')]
    · intro hnot
      obtain ⟨hne, hnot⟩ := not_or.mp (mt List.mem_cons.mpr hnot)
      rw [hout hnot, hf, if_neg hne]

/-- Write the entries of another map that `keep` lets through. -/
def overlay (m : OrderedMap κ ν) (keep : ν → Bool) (other : OrderedMap κ ν) : OrderedMap κ ν :=
  other.entries.foldl (fun m e => if keep e.2 then m.set e.1 e.2 else m) m

theorem get?_overlay (m : OrderedMap κ ν) (keep : ν → Bool) (other : OrderedMap κ ν) (k : κ) :
    (m.overlay keep other).get? k = ((other.get? k).filter keep).or (m.get? k) := by
  obtain ⟨es, hn⟩ := other
  unfold overlay
  simp only [get?]
  induction es generalizing m with
  | nil => simp [find]
  | cons e es ih =>
    obtain ⟨k', v⟩ := e
    obtain ⟨hk', hrest⟩ := List.nodup_cons.mp hn
    simp only [List.foldl_cons]
    rw [ih _ hrest]
    by_cases hk : k' = k
    · subst hk
      rw [find_eq_none hk']
      by_cases hv : keep v = true
      · have hset := get?_set_self m k' v
        simp only [find, if_true, hv, Option.filter]
        exact hset
      · simp [find, Option.filter, hv]
    · have hset := get?_set_of_ne m (Ne.symm hk) v
      simp only [find, if_neg hk]
      congr 1
      split_ifs
      · exact hset
      · rfl

end OrderedMap

end LivelierBridge.Framework
