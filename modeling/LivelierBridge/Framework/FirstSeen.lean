import Mathlib.Data.List.Basic

namespace LivelierBridge.Framework

universe u v

variable {α : Type u} {κ : Type v} [DecidableEq κ] (key : α → Option κ)

/-- The elements whose key no earlier one has, and that is not in `seen`. -/
def firsts (seen : List κ) : List α → List α
  | [] => []
  | a :: as =>
    match key a with
    | none => firsts seen as
    | some k => if k ∈ seen then firsts seen as else a :: firsts (k :: seen) as

/-- The first element of a key. -/
def firstOf (k : κ) (as : List α) : Option α := as.find? fun a => key a = some k

variable {key} {seen : List κ} {k : κ} {a : α} {as : List α}

theorem firstOf_cons_self (h : key a = some k) : firstOf key k (a :: as) = some a := by
  simp [firstOf, h]

theorem firstOf_cons_ne (h : key a ≠ some k) : firstOf key k (a :: as) = firstOf key k as := by
  simp [firstOf, h]

theorem key_of_firstOf (h : firstOf key k as = some a) : key a = some k := by
  simpa using List.find?_some h

theorem firsts_cons_none (h : key a = none) : firsts key seen (a :: as) = firsts key seen as := by
  simp [firsts, h]

theorem firsts_cons_seen (h : key a = some k) (hk : k ∈ seen) :
    firsts key seen (a :: as) = firsts key seen as := by
  simp [firsts, h, hk]

theorem firsts_cons_new (h : key a = some k) (hk : k ∉ seen) :
    firsts key seen (a :: as) = a :: firsts key (k :: seen) as := by
  simp [firsts, h, hk]

/-- The first elements are the first of some key. -/
theorem mem_firsts : a ∈ firsts key seen as ↔ ∃ k ∉ seen, firstOf key k as = some a := by
  induction as generalizing seen with
  | nil => simp [firsts, firstOf]
  | cons b as ih =>
    cases hb : key b with
    | none =>
      rw [firsts_cons_none hb, ih]
      have hsame : ∀ k, firstOf key k (b :: as) = firstOf key k as :=
        fun k => firstOf_cons_ne (by simp [hb])
      simp only [hsame]
    | some k =>
      have hother : ∀ k', k' ≠ k → firstOf key k' (b :: as) = firstOf key k' as := by
        intro k' hne
        exact firstOf_cons_ne (by simpa [hb] using hne.symm)
      by_cases hk : k ∈ seen
      · rw [firsts_cons_seen hb hk, ih]
        constructor
        · rintro ⟨k', hk', h⟩
          exact ⟨k', hk', (hother k' fun heq => hk' (heq ▸ hk)).trans h⟩
        · rintro ⟨k', hk', h⟩
          exact ⟨k', hk', (hother k' fun heq => hk' (heq ▸ hk)).symm.trans h⟩
      · rw [firsts_cons_new hb hk, List.mem_cons, ih]
        constructor
        · rintro (rfl | ⟨k', hk', h⟩)
          · exact ⟨k, hk, firstOf_cons_self hb⟩
          · obtain ⟨hne, hseen⟩ : k' ≠ k ∧ k' ∉ seen := by simpa using hk'
            exact ⟨k', hseen, (hother k' hne).trans h⟩
        · rintro ⟨k', hk', h⟩
          by_cases hne : k' = k
          · subst hne
            rw [firstOf_cons_self hb] at h
            exact .inl (Option.some.inj h).symm
          · exact .inr ⟨k', by simp [hne, hk'], (hother k' hne).symm.trans h⟩

theorem exists_firstOf (ha : a ∈ as) (hk : key a = some k) : ∃ b, firstOf key k as = some b := by
  refine Option.isSome_iff_exists.mp ?_
  rw [firstOf, List.find?_isSome]
  exact ⟨a, ha, by simpa using hk⟩

theorem mem_of_firstOf (h : firstOf key k as = some a) : a ∈ as := List.mem_of_find?_eq_some h

/-- No two first elements share a key. -/
theorem pairwise_firsts (key : α → Option κ) (seen : List κ) (as : List α) :
    (firsts key seen as).Pairwise (fun a b => key a ≠ key b) := by
  induction as generalizing seen with
  | nil => exact .nil
  | cons a as ih =>
    cases ha : key a with
    | none =>
      rw [firsts_cons_none ha]
      exact ih seen
    | some k =>
      by_cases hk : k ∈ seen
      · rw [firsts_cons_seen ha hk]
        exact ih seen
      · rw [firsts_cons_new ha hk]
        refine List.pairwise_cons.mpr ⟨fun b hb => ?_, ih (k :: seen)⟩
        obtain ⟨k', hk', hfirst⟩ := mem_firsts.mp hb
        rw [ha, key_of_firstOf hfirst]
        rintro heq
        obtain rfl := Option.some.inj heq
        exact hk' List.mem_cons_self

theorem firstOf_filter_cons_ne {p : α → Bool} (h : key a ≠ some k) :
    firstOf key k ((a :: as).filter p) = firstOf key k (as.filter p) := by
  by_cases hp : p a = true
  · rw [List.filter_cons_of_pos hp, firstOf_cons_ne h]
  · rw [List.filter_cons_of_neg hp]

/-- Leaving out the elements outside `p` keeps the first elements in `p` and `q`, when a key whose
first element is left out has its next one outside `q`. -/
theorem firsts_filter {p q : α → Bool} {seen' : List κ} (hsub : seen' ⊆ seen)
    (hseen : ∀ k ∈ seen, k ∉ seen' → ∀ b, firstOf key k (as.filter p) = some b → q b = false)
    (hnew : ∀ k ∉ seen, ∀ a, firstOf key k as = some a → p a = false →
      ∀ b, firstOf key k (as.filter p) = some b → q b = false) :
    ((firsts key seen as).filter q).filter p = (firsts key seen' (as.filter p)).filter q := by
  induction as generalizing seen seen' with
  | nil => rfl
  | cons a as ih =>
    cases hkey : key a with
    | none =>
      have hne : ∀ k, key a ≠ some k := fun k => by simp [hkey]
      have hskip : firsts key seen' ((a :: as).filter p) = firsts key seen' (as.filter p) := by
        by_cases hp : p a = true
        · rw [List.filter_cons_of_pos hp, firsts_cons_none hkey]
        · rw [List.filter_cons_of_neg hp]
      rw [firsts_cons_none hkey, hskip]
      refine ih hsub (fun k hk hk' b hb => ?_) (fun k hk b hb hpb c hc => ?_)
      · exact hseen k hk hk' b ((firstOf_filter_cons_ne (hne k)).trans hb)
      · exact hnew k hk b ((firstOf_cons_ne (hne k)).trans hb) hpb c
          ((firstOf_filter_cons_ne (hne k)).trans hc)
    | some k =>
      have hne : ∀ k', k' ≠ k → key a ≠ some k' := by
        rintro k' hk' heq
        exact hk' (Option.some.inj (heq.symm.trans hkey))
      have hnew' : ∀ k' ∉ seen, k' ≠ k → ∀ b, firstOf key k' as = some b → p b = false →
          ∀ c, firstOf key k' (as.filter p) = some c → q c = false := by
        intro k' hk' hkk b hb hpb c hc
        exact hnew k' hk' b ((firstOf_cons_ne (hne k' hkk)).trans hb) hpb c
          ((firstOf_filter_cons_ne (hne k' hkk)).trans hc)
      have hseen' : ∀ k' ∈ seen, k' ∉ seen' → k' ≠ k →
          ∀ b, firstOf key k' (as.filter p) = some b → q b = false := by
        intro k' hk' hkn hkk b hb
        exact hseen k' hk' hkn b ((firstOf_filter_cons_ne (hne k' hkk)).trans hb)
      by_cases hp : p a = true
      · have hfirst : firstOf key k ((a :: as).filter p) = some a := by
          rw [List.filter_cons_of_pos hp, firstOf_cons_self hkey]
        rw [List.filter_cons_of_pos hp]
        by_cases hk : k ∈ seen
        · rw [firsts_cons_seen hkey hk]
          have hnewRest : ∀ k' ∉ seen, ∀ b, firstOf key k' as = some b → p b = false →
              ∀ c, firstOf key k' (as.filter p) = some c → q c = false :=
            fun k' hk' => hnew' k' hk' fun heq => hk' (heq ▸ hk)
          by_cases hk' : k ∈ seen'
          · rw [firsts_cons_seen hkey hk']
            exact ih hsub (fun c hc hcn => hseen' c hc hcn fun heq => hcn (heq ▸ hk')) hnewRest
          · -- it is new in the filtered list alone, and outside `q`
            rw [firsts_cons_new hkey hk', List.filter_cons_of_neg (by simp [hseen k hk hk' a hfirst])]
            refine ih (List.cons_subset.mpr ⟨hk, hsub⟩) (fun c hc hcn => ?_) hnewRest
            obtain ⟨hck, hcs⟩ : c ≠ k ∧ c ∉ seen' := by simpa using hcn
            exact hseen' c hc hcs hck
        · have hk' : k ∉ seen' := fun h => hk (hsub h)
          have hrest := @ih (k :: seen) (k :: seen') (List.cons_subset_cons k hsub)
            (fun c hc hcn => ?_) (fun c hc => ?_)
          · rw [firsts_cons_new hkey hk, firsts_cons_new hkey hk']
            by_cases hq : q a = true
            · rw [List.filter_cons_of_pos hq, List.filter_cons_of_pos hq, List.filter_cons_of_pos hp,
                hrest]
            · rw [List.filter_cons_of_neg hq, List.filter_cons_of_neg hq, hrest]
          · obtain ⟨hck, hcs⟩ : c ≠ k ∧ c ∉ seen' := by simpa using hcn
            exact hseen' c ((List.mem_cons.mp hc).resolve_left hck) hcs hck
          · obtain ⟨hck, hcs⟩ : c ≠ k ∧ c ∉ seen := by simpa using hc
            exact hnew' c hcs hck
      · have hpa : p a = false := by simpa using hp
        rw [List.filter_cons_of_neg hp] at hseen ⊢
        by_cases hk : k ∈ seen
        · rw [firsts_cons_seen hkey hk]
          exact ih hsub hseen fun c hc => hnew' c hc fun heq => hc (heq ▸ hk)
        · -- it is left out, and the next element of its key is outside `q`
          have hnext : ∀ c, firstOf key k (as.filter p) = some c → q c = false := by
            intro c hc
            refine hnew k hk a (firstOf_cons_self hkey) hpa c ?_
            rw [List.filter_cons_of_neg hp]
            exact hc
          have hrest := @ih (k :: seen) seen' (List.subset_cons_of_subset k hsub)
            (fun c hc hcn => ?_) (fun c hc => ?_)
          · rw [firsts_cons_new hkey hk]
            by_cases hq : q a = true
            · rw [List.filter_cons_of_pos hq, List.filter_cons_of_neg hp, hrest]
            · rw [List.filter_cons_of_neg hq, hrest]
          · rcases List.mem_cons.mp hc with rfl | hcs
            · exact hnext
            · exact hseen c hcs hcn
          · obtain ⟨hck, hcs⟩ : c ≠ k ∧ c ∉ seen := by simpa using hc
            exact hnew' c hcs hck

/-- One more element comes last, or not at all. -/
theorem firsts_concat (h : key a = some k) : firsts key seen (as ++ [a]) =
    firsts key seen as ++ if k ∈ seen ∨ ∃ b ∈ as, key b = some k then [] else [a] := by
  induction as generalizing seen with
  | nil =>
    by_cases hk : k ∈ seen
    · simp [firsts, h, hk]
    · simp [firsts, h, hk]
  | cons b as ih =>
    rw [List.cons_append]
    cases hb : key b with
    | none => simp [firsts_cons_none hb, ih, hb]
    | some k' =>
      have hexists : (∃ c ∈ b :: as, key c = some k) ↔ k' = k ∨ ∃ c ∈ as, key c = some k := by
        simp [hb]
      simp only [hexists]
      by_cases hk' : k' ∈ seen
      · rw [firsts_cons_seen hb hk', firsts_cons_seen hb hk', ih]
        have hsame : k ∈ seen ∨ (k' = k ∨ ∃ c ∈ as, key c = some k) ↔
            k ∈ seen ∨ ∃ c ∈ as, key c = some k := by
          constructor
          · rintro (hk | rfl | hc)
            · exact .inl hk
            · exact .inl hk'
            · exact .inr hc
          · exact Or.imp_right .inr
        simp only [hsame]
      · rw [firsts_cons_new hb hk', firsts_cons_new hb hk', ih, List.cons_append]
        have hsame : (k ∈ k' :: seen ∨ ∃ c ∈ as, key c = some k) ↔
            k ∈ seen ∨ (k' = k ∨ ∃ c ∈ as, key c = some k) := by
          rw [List.mem_cons, eq_comm (a := k)]
          tauto
        simp only [hsame]

theorem nodup_eraseDups [BEq α] [LawfulBEq α] (as : List α) : as.eraseDups.Nodup := by
  induction hn : as.length using Nat.strongRecOn generalizing as with
  | ind n ih =>
    cases as with
    | nil => exact List.nodup_nil
    | cons a as =>
      rw [List.eraseDups_cons]
      refine List.nodup_cons.mpr ⟨by simp, ih _ ?_ _ rfl⟩
      have hle := List.length_filter_le (fun b => !b == a) as
      rw [List.length_cons] at hn
      omega

end LivelierBridge.Framework
