import LivelierBridge.Framework.OrderedMap
import LivelierBridge.Js.String

namespace LivelierBridge.Chat

open Framework Js

def DEFAULT_TTL_MS : Nat := 60000
def MAX_ENTRIES : Nat := 500

/-- Short-lived content fingerprints with the time each was added. -/
structure FingerprintCache where
  ttlMs : Nat
  entries : OrderedMap JsString Nat

namespace FingerprintCache

def new : FingerprintCache := ⟨DEFAULT_TTL_MS, .empty⟩

def key (displayName content : JsString) : JsString := displayName ++ js ":" ++ content

/-- Whether the fingerprint was seen within the TTL; an expired one is forgotten. -/
def has (c : FingerprintCache) (now : Nat) (key : JsString) : Bool × FingerprintCache :=
  match c.entries.get? key with
  | none => (false, c)
  | some at' =>
    if now - at' > c.ttlMs then (false, { c with entries := c.entries.delete key }) else (true, c)

def prune (c : FingerprintCache) (now : Nat) : FingerprintCache :=
  { c with entries := (c.entries.filter fun e => now - e.2 ≤ c.ttlMs).shrink MAX_ENTRIES }

def add (c : FingerprintCache) (now : Nat) (key : JsString) : FingerprintCache :=
  { c.prune now with entries := (c.prune now).entries.set key now }

/-- The entry `(k, t)` is present with at most `n` younger entries. -/
def Holds (c : FingerprintCache) (k : JsString) (t n : Nat) : Prop :=
  ∃ pre post, c.entries.entries = pre ++ (k, t) :: post ∧ post.length ≤ n

theorem Holds.mono {c : FingerprintCache} {k : JsString} {t n m : Nat} (h : c.Holds k t n)
    (hnm : n ≤ m) : c.Holds k t m := by
  obtain ⟨pre, post, he, hl⟩ := h
  exact ⟨pre, post, he, Nat.le_trans hl hnm⟩

theorem Holds.get? {c : FingerprintCache} {k : JsString} {t n : Nat} (h : c.Holds k t n) :
    c.entries.get? k = some t := by
  obtain ⟨pre, post, he, -⟩ := h
  exact (OrderedMap.get?_eq_some_iff _ _ _).mpr (by simp [he])

theorem has_ttlMs (c : FingerprintCache) (now : Nat) (k : JsString) :
    (c.has now k).2.ttlMs = c.ttlMs := by
  unfold has
  split
  · rfl
  · split_ifs <;> rfl

/-- A held fingerprint is recognised until its TTL has passed. -/
theorem Holds.has {c : FingerprintCache} {k : JsString} {t n now : Nat} (h : c.Holds k t n)
    (ht : now ≤ t + c.ttlMs) : c.has now k = (true, c) := by
  have hle : ¬now - t > c.ttlMs := by omega
  simp [FingerprintCache.has, h.get?, hle]

theorem filter_keeps {p : JsString × Nat → Bool} {es pre post : List (JsString × Nat)}
    {e : JsString × Nat} (he : es = pre ++ e :: post) (hp : p e = true) :
    ∃ pre' post', es.filter p = pre' ++ e :: post' ∧ post'.length ≤ post.length :=
  ⟨pre.filter p, post.filter p, by simp [he, hp], List.length_filter_le _ _⟩

/-- Asking for a fingerprint forgets at most an expired one. -/
theorem Holds.afterHas {c : FingerprintCache} {k : JsString} {t n now : Nat}
    (h : c.Holds k t n) (ht : now ≤ t + c.ttlMs) (k' : JsString) :
    (c.has now k').2.Holds k t n := by
  by_cases hk : k' = k
  · subst hk
    rw [h.has ht]
    exact h
  · unfold FingerprintCache.has
    split
    · exact h
    · split_ifs
      · obtain ⟨pre, post, he, hl⟩ := h
        obtain ⟨pre', post', he', hl'⟩ :=
          filter_keeps (p := fun e => decide (e.1 ≠ k')) he (by simpa using Ne.symm hk)
        exact ⟨pre', post', he', Nat.le_trans hl' hl⟩
      · exact h

/-- An unexpired fingerprint survives the addition of another one as long as fewer than
`MAX_ENTRIES` were added since. -/
theorem Holds.add {c : FingerprintCache} {k k' : JsString} {t n now : Nat}
    (h : c.Holds k t n) (ht : now ≤ t + c.ttlMs) (hk : k ≠ k') (hn : n + 1 < MAX_ENTRIES) :
    (c.add now k').Holds k t (n + 1) := by
  obtain ⟨pre, post, he, hl⟩ := h
  have hfresh : decide (now - t ≤ c.ttlMs) = true := by simpa using by omega
  obtain ⟨pre₁, post₁, he₁, hl₁⟩ :=
    filter_keeps (p := fun e => decide (now - e.2 ≤ c.ttlMs)) he hfresh
  obtain ⟨pre₂, he₂⟩ := OrderedMap.dropOldest_keeps MAX_ENTRIES pre₁ (k, t) post₁ (by omega)
  obtain ⟨pre₃, post₃, he₃, hl₃⟩ := OrderedMap.put_keeps hk t now pre₂ post₁
  refine ⟨pre₃, post₃, ?_, by omega⟩
  have hent : (c.add now k').entries.entries = OrderedMap.put k' now
      (OrderedMap.dropOldest MAX_ENTRIES
        (c.entries.entries.filter fun e => decide (now - e.2 ≤ c.ttlMs))) := rfl
  rw [hent, he₁, he₂, he₃]

/-- A freshly added fingerprint is the youngest entry. -/
theorem holds_add_self (c : FingerprintCache) (now : Nat) (k : JsString)
    (hk : c.entries.get? k = none) : (c.add now k).Holds k now 0 := by
  have hnot : k ∉ (c.prune now).entries.keys := by
    intro hm
    obtain ⟨e, he, rfl⟩ := List.mem_map.mp hm
    have hc : e ∈ c.entries.entries :=
      (List.mem_filter.mp ((OrderedMap.dropOldest_suffix _ _).subset he)).1
    exact (OrderedMap.get?_eq_none_iff _ _).mp hk (List.mem_map.mpr ⟨e, hc, rfl⟩)
  exact ⟨_, [], OrderedMap.entries_set_of_notMem _ hnot now, Nat.le_refl _⟩

/-- A fingerprint that was not recognised is absent afterwards. -/
theorem get?_of_has_false {c : FingerprintCache} {now : Nat} {k : JsString}
    (h : (c.has now k).1 = false) : (c.has now k).2.entries.get? k = none := by
  unfold has at h ⊢
  split at h
  case _ hg => simpa using hg
  case _ t hg =>
    split_ifs at h ⊢
    simp [OrderedMap.get?_delete]

end FingerprintCache

end LivelierBridge.Chat
