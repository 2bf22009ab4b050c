import Mathlib.Data.List.DropRight
import LivelierBridge.Framework.Run
import LivelierBridge.Chat.Fingerprint

namespace LivelierBridge.Chat

open Framework Js

/-- A fingerprint cache in use. -/
structure FingerprintRun where
  now : Nat
  cache : FingerprintCache
  /-- The key that was just asked for and not found. -/
  missed : Option JsString
  /-- All adds, in order, with their times. -/
  added : List (JsString × Nat)

inductive FingerprintAction where
  | clock (now : Nat)
  | has (key : JsString)
  | add (key : JsString)

namespace FingerprintRun

def init (ttlMs : Nat) : FingerprintRun := ⟨0, ⟨ttlMs, .empty⟩, none, []⟩

/-- The clock does not go back, and a key is added only directly after it was not found. -/
def step (s : FingerprintRun) : FingerprintAction → Option FingerprintRun
  | .clock now => if s.now ≤ now then some { s with now := now } else none
  | .has key =>
    let (found, cache) := s.cache.has s.now key
    some { s with cache := cache, missed := if found then none else some key }
  | .add key =>
    if s.missed = some key then
      some { s with
        cache := s.cache.add s.now key
        missed := none
        added := s.added ++ [(key, s.now)] }
    else none

def isFresh (s : FingerprintRun) (entry : JsString × Nat) : Bool := s.now - entry.2 ≤ s.cache.ttlMs

/-- Entries that were added in order of their times. -/
def Ordered (entries : List (JsString × Nat)) : Prop := entries.Pairwise fun e e' => e.2 ≤ e'.2

section Recent

variable {entries added : List (JsString × Nat)} {now ttlMs cap : Nat} {key : JsString}

theorem dropOldest_of_lt {κ ν : Type} {cap : Nat} {entries : List (κ × ν)}
    (h : entries.length < cap) : OrderedMap.dropOldest cap entries = entries := by
  cases entries with
  | nil => rfl
  | cons e es => rw [OrderedMap.dropOldest, if_neg (by omega)]

theorem rtake_eq_self (h : added.length ≤ cap) : added.rtake cap = added := by
  rw [List.rtake, Nat.sub_eq_zero_of_le h, List.drop_zero]

/-- What stays of the fresh ones among the last adds when there is to be room for one more. -/
theorem dropOldest_recent (hordered : Ordered added) (p : JsString × Nat → Bool)
    (hp : ∀ e e', p e = true → e.2 ≤ e'.2 → p e' = true) (cap : Nat) :
    OrderedMap.dropOldest (cap + 1) ((added.rtake (cap + 1)).filter p) =
      (added.rtake cap).filter p := by
  have hlength : ((added.rtake cap).filter p).length < cap + 1 := by
    have hle := List.length_filter_le p (added.rtake cap)
    have hrtake : (added.rtake cap).length ≤ cap := by
      rw [List.rtake, List.length_drop]
      omega
    omega
  rcases Nat.lt_or_ge cap added.length with hlt | hle
  · obtain ⟨n, hn⟩ : ∃ n, n = added.length - (cap + 1) := ⟨_, rfl⟩
    have hdrop : added.rtake (cap + 1) = added[n] :: added.rtake cap := by
      rw [List.rtake, List.rtake, ← hn, List.drop_eq_getElem_cons (by omega)]
      congr 2
      omega
    rw [hdrop]
    cases hfirst : p added[n] with
    | false =>
      rw [List.filter_cons_of_neg (by simp [hfirst]), dropOldest_of_lt hlength]
    | true =>
      -- all that were added later are fresh, too, so the oldest makes room
      have hall : (added.rtake cap).filter p = added.rtake cap := by
        rw [List.filter_eq_self]
        intro e he
        refine hp _ e hfirst ?_
        have hpairs : Ordered (added[n] :: added.rtake cap) := by
          rw [← hdrop]
          exact hordered.sublist (List.drop_sublist _ _)
        exact (List.pairwise_cons.mp hpairs).1 e he
      have hfull : (added.rtake cap).length = cap := by
        rw [List.rtake, List.length_drop]
        omega
      rw [List.filter_cons_of_pos hfirst, OrderedMap.dropOldest, if_pos, dropOldest_of_lt hlength]
      rw [hall, List.length_cons, hfull]
  · rw [rtake_eq_self (Nat.le_trans hle (Nat.le_succ _)), rtake_eq_self hle]
    rw [rtake_eq_self hle] at hlength
    exact dropOldest_of_lt hlength

end Recent

/-- The fresh entries are the fresh ones among the last `MAX_ENTRIES` adds. -/
structure Recent (s : FingerprintRun) : Prop where
  ordered : Ordered s.added
  past : ∀ e ∈ s.added, e.2 ≤ s.now
  sublist : s.cache.entries.entries.Sublist s.added
  size : s.cache.entries.size ≤ MAX_ENTRIES
  missed : ∀ key, s.missed = some key → s.cache.entries.get? key = none
  fresh : s.cache.entries.entries.filter s.isFresh = (s.added.rtake MAX_ENTRIES).filter s.isFresh

section Steps

variable {s t : FingerprintRun} {key : JsString}

theorem recent_init (ttlMs : Nat) : (init ttlMs).Recent := by
  refine ⟨List.Pairwise.nil, ?_, List.Sublist.slnil, Nat.zero_le _, ?_, ?_⟩
  · intro e he
    cases he
  · intro key hkey
    cases hkey
  · change [].filter _ = (List.rtake [] MAX_ENTRIES).filter _
    rw [List.rtake_nil]

theorem Recent.clock {now : Nat} (h : s.Recent) (hnow : s.now ≤ now) :
    ({ s with now := now } : FingerprintRun).Recent := by
  refine ⟨h.ordered, fun e he => Nat.le_trans (h.past e he) hnow, h.sublist, h.size, h.missed, ?_⟩
  have hstays (entries : List (JsString × Nat)) :
      (entries.filter s.isFresh).filter (isFresh { s with now := now }) =
        entries.filter (isFresh { s with now := now }) := by
    rw [List.filter_filter]
    apply List.filter_congr
    intro e he
    simp only [isFresh, Bool.and_eq_left_iff_imp, decide_eq_true_eq]
    omega
  calc s.cache.entries.entries.filter (isFresh { s with now := now })
      = (s.cache.entries.entries.filter s.isFresh).filter (isFresh { s with now := now }) :=
        (hstays _).symm
    _ = (s.added.rtake MAX_ENTRIES).filter (isFresh { s with now := now }) := by
        rw [h.fresh, hstays]

/-- A lookup keeps the fresh entries. -/
theorem Recent.lookup (h : s.Recent) (key : JsString) (missed : Option JsString)
    (hmissed : ∀ k, missed = some k → k = key ∧ (s.cache.has s.now key).1 = false) :
    ({ s with cache := (s.cache.has s.now key).2, missed := missed } : FingerprintRun).Recent := by
  have hentries : (s.cache.has s.now key).2.entries.entries.Sublist s.cache.entries.entries ∧
      (s.cache.has s.now key).2.entries.entries.filter s.isFresh =
        s.cache.entries.entries.filter s.isFresh := by
    unfold FingerprintCache.has
    split
    · exact ⟨List.Sublist.refl _, rfl⟩
    · rename_i at' hat
      split_ifs with hold
      · refine ⟨List.filter_sublist, ?_⟩
        change (s.cache.entries.entries.filter _).filter s.isFresh = _
        rw [List.filter_filter]
        apply List.filter_congr
        intro e he
        simp only [Bool.and_eq_left_iff_imp, decide_eq_true_eq, isFresh]
        rintro hfresh rfl
        have hget := (OrderedMap.get?_eq_some_iff s.cache.entries e.1 e.2).mpr he
        rw [hat] at hget
        obtain rfl := Option.some.inj hget
        omega
      · exact ⟨List.Sublist.refl _, rfl⟩
  have httl := FingerprintCache.has_ttlMs s.cache s.now key
  refine ⟨h.ordered, h.past, hentries.1.trans h.sublist,
    Nat.le_trans hentries.1.length_le h.size, ?_, ?_⟩
  · intro k hk
    obtain ⟨rfl, hfalse⟩ := hmissed k hk
    exact FingerprintCache.get?_of_has_false hfalse
  · have hfresh : isFresh { s with cache := (s.cache.has s.now key).2, missed := missed } =
        s.isFresh := by
      funext e
      simp only [isFresh, httl]
    rw [hfresh]
    exact hentries.2.trans h.fresh

theorem Recent.add (h : s.Recent) (hmissed : s.missed = some key) :
    ({ s with
      cache := s.cache.add s.now key
      missed := none
      added := s.added ++ [(key, s.now)] } : FingerprintRun).Recent := by
  have hpruned : (s.cache.prune s.now).entries.entries = (s.added.rtake 499).filter s.isFresh := by
    change OrderedMap.dropOldest 500 (s.cache.entries.entries.filter s.isFresh) = _
    rw [h.fresh]
    refine dropOldest_recent h.ordered s.isFresh (fun e e' hfresh hle => ?_) 499
    simp only [isFresh, decide_eq_true_eq] at hfresh ⊢
    omega
  have hnew : key ∉ (s.cache.prune s.now).entries.keys := by
    intro hmem
    have habsent := (OrderedMap.get?_eq_none_iff _ _).mp (h.missed key hmissed)
    apply habsent
    obtain ⟨e, he, rfl⟩ := List.mem_map.mp hmem
    have hold : e ∈ s.cache.entries.entries :=
      List.mem_of_mem_filter ((OrderedMap.dropOldest_suffix _ _).subset he)
    exact List.mem_map_of_mem hold
  have hentries : (s.cache.add s.now key).entries.entries =
      (s.added.rtake 499).filter s.isFresh ++ [(key, s.now)] := by
    rw [← hpruned]
    exact OrderedMap.entries_set_of_notMem _ hnew s.now
  refine ⟨?_, ?_, ?_, ?_, ?_, ?_⟩
  · refine List.pairwise_append.mpr ⟨h.ordered, List.pairwise_singleton _ _, ?_⟩
    intro e he e' he'
    rw [List.mem_singleton.mp he']
    exact h.past e he
  · intro e he
    rcases List.mem_append.mp he with he | he
    · exact h.past e he
    · rw [List.mem_singleton.mp he]
  · rw [hentries]
    have hsublist : ((s.added.rtake 499).filter s.isFresh).Sublist s.added :=
      List.filter_sublist.trans (List.drop_sublist _ _)
    exact hsublist.append (List.Sublist.refl _)
  · have hle := List.length_filter_le s.isFresh (s.added.rtake 499)
    have hrtake : (s.added.rtake 499).length ≤ 499 := by
      rw [List.rtake, List.length_drop]
      omega
    rw [OrderedMap.size, hentries, List.length_append, List.length_singleton, MAX_ENTRIES]
    omega
  · intro k hk
    cases hk
  · have hrtake : (s.added ++ [(key, s.now)]).rtake MAX_ENTRIES =
        s.added.rtake 499 ++ [(key, s.now)] := List.rtake_concat_succ ..
    have hself : s.isFresh (key, s.now) = true := by simp [isFresh]
    have hfresh : isFresh { s with
        cache := s.cache.add s.now key
        missed := none
        added := s.added ++ [(key, s.now)] } = s.isFresh := rfl
    rw [hentries, hrtake, hfresh]
    simp [List.filter_append, List.filter_filter, hself]

theorem Recent.step {a : FingerprintAction} (h : s.Recent) (hs : s.step a = some t) : t.Recent := by
  cases a with
  | clock now =>
    simp only [FingerprintRun.step] at hs
    split_ifs at hs with hnow
    obtain rfl := Option.some.inj hs
    exact h.clock hnow
  | has key =>
    obtain rfl := Option.some.inj hs
    refine h.lookup key _ fun k hk => ?_
    split_ifs at hk with hfound
    exact ⟨(Option.some.inj hk).symm, Bool.eq_false_iff.mpr hfound⟩
  | add key =>
    simp only [FingerprintRun.step] at hs
    split_ifs at hs with hmissed
    obtain rfl := Option.some.inj hs
    exact h.add hmissed

theorem step_ttlMs {a : FingerprintAction} (hs : s.step a = some t) :
    t.cache.ttlMs = s.cache.ttlMs := by
  cases a with
  | clock now =>
    simp only [FingerprintRun.step] at hs
    split_ifs at hs
    obtain rfl := Option.some.inj hs
    rfl
  | has key =>
    obtain rfl := Option.some.inj hs
    exact FingerprintCache.has_ttlMs s.cache s.now key
  | add key =>
    simp only [FingerprintRun.step] at hs
    split_ifs at hs
    obtain rfl := Option.some.inj hs
    rfl

end Steps

section Has

variable {s : FingerprintRun} {key : JsString}

theorem has_iff_fresh : (s.cache.has s.now key).1 = true ↔
    ∃ at', (key, at') ∈ s.cache.entries.entries.filter s.isFresh := by
  simp only [List.mem_filter, ← OrderedMap.get?_eq_some_iff, isFresh, decide_eq_true_eq]
  unfold FingerprintCache.has
  cases s.cache.entries.get? key with
  | none => simp
  | some at' =>
    dsimp only
    split_ifs with hold
    · refine iff_of_false (by simp) ?_
      rintro ⟨last, hlast, hfresh⟩
      obtain rfl := Option.some.inj hlast
      omega
    · exact iff_of_true rfl ⟨at', rfl, by omega⟩

theorem mem_rtake_iff {α : Type} {l : List α} {x : α} {n : Nat} :
    x ∈ l.rtake n ↔ ∃ before after, l = before ++ x :: after ∧ after.length < n := by
  constructor
  · intro h
    obtain ⟨front, after, hsplit⟩ := List.append_of_mem h
    refine ⟨l.take (l.length - n) ++ front, after, ?_, ?_⟩
    · rw [List.append_assoc, ← hsplit, List.rtake, List.take_append_drop]
    · have hlength : (l.rtake n).length ≤ n := by
        rw [List.rtake, List.length_drop]
        omega
      rw [hsplit, List.length_append, List.length_cons] at hlength
      omega
  · rintro ⟨before, after, rfl, hlt⟩
    have hle : (before ++ x :: after).length - n ≤ before.length := by
      rw [List.length_append, List.length_cons]
      omega
    rw [List.rtake, List.drop_append_of_le_length hle]
    exact List.mem_append_right _ List.mem_cons_self

/-- The last of the adds of a key -/
theorem exists_last_add {added : List (JsString × Nat)} (h : ∃ e ∈ added, e.1 = key) :
    ∃ before last after, added = before ++ (key, last) :: after ∧ ∀ e ∈ after, e.1 ≠ key := by
  induction added using List.reverseRecOn with
  | nil =>
    obtain ⟨e, he, -⟩ := h
    cases he
  | append_singleton added e ih =>
    by_cases hlast : e.1 = key
    · subst hlast
      exact ⟨added, e.2, [], rfl, by simp⟩
    · obtain ⟨e', he', hkey⟩ := h
      have hmem : e' ∈ added := by
        rcases List.mem_append.mp he' with he' | he'
        · exact he'
        · rw [List.mem_singleton.mp he'] at hkey
          exact absurd hkey hlast
      obtain ⟨before, last, after, rfl, hafter⟩ := ih ⟨e', hmem, hkey⟩
      refine ⟨before, last, after ++ [e], by simp, fun x hx => ?_⟩
      rcases List.mem_append.mp hx with hx | hx
      · exact hafter x hx
      · rw [List.mem_singleton.mp hx]
        exact hlast

/-- Counting the adds of other keys after some add of a key is counting all adds after its last. -/
theorem recent_add_iff (h : s.Recent) :
    (∃ at', (key, at') ∈ (s.added.rtake MAX_ENTRIES).filter s.isFresh) ↔ ∃ before at' after,
      s.added = before ++ (key, at') :: after ∧ s.now - at' ≤ s.cache.ttlMs ∧
        (after.filter fun e => e.1 ≠ key).length < MAX_ENTRIES := by
  constructor
  · rintro ⟨at', hmem⟩
    obtain ⟨hmem, hfresh⟩ := List.mem_filter.mp hmem
    obtain ⟨before, after, hsplit, hlt⟩ := mem_rtake_iff.mp hmem
    exact ⟨before, at', after, hsplit, by simpa [isFresh] using hfresh,
      Nat.lt_of_le_of_lt (List.length_filter_le _ _) hlt⟩
  · rintro ⟨before, at', after, hsplit, hfresh, hlt⟩
    have hadds : ∃ e ∈ (key, at') :: after, e.1 = key := ⟨_, List.mem_cons_self, rfl⟩
    obtain ⟨front, last, rest, hrest, hother⟩ := exists_last_add hadds
    have hlater : at' ≤ last := by
      have hordered := h.ordered
      rw [hsplit] at hordered
      have hpairs := (List.pairwise_append.mp hordered).2.1
      cases front with
      | nil =>
        injection hrest with hhead _
        injection hhead with _ hsame
        omega
      | cons e front =>
        injection hrest with _ htail
        refine (List.pairwise_cons.mp hpairs).1 (key, last) ?_
        rw [htail]
        simp
    have hall : (rest.filter fun e => e.1 ≠ key) = rest := by
      rw [List.filter_eq_self]
      exact fun e he => by simpa using hother e he
    have hfew : rest.length ≤ (after.filter fun e => e.1 ≠ key).length := by
      have hsublist : ((key, last) :: rest).Sublist ((key, at') :: after) := by
        rw [hrest]
        exact List.sublist_append_right _ _
      have htail : rest.Sublist after := hsublist.tail
      rw [← hall]
      exact (htail.filter _).length_le
    refine ⟨last, List.mem_filter.mpr ⟨mem_rtake_iff.mpr ⟨before ++ front, rest, ?_, by omega⟩, ?_⟩⟩
    · rw [hsplit, hrest, List.append_assoc]
    · simp only [isFresh, decide_eq_true_eq]
      omega

end Has

/-- Whatever it is asked and told, in order: a cache is small and sorted, and it has a key exactly when
the key was added lately and few others after it. -/
theorem has_iff_recent_add (ttlMs : Nat) {as : List FingerprintAction} {s : FingerprintRun}
    (hrun : run step (init ttlMs) as = some s) :
    s.cache.entries.size ≤ MAX_ENTRIES ∧ Ordered s.cache.entries.entries ∧
      ∀ key, (s.cache.has s.now key).1 = true ↔
        ∃ before at' after, s.added = before ++ (key, at') :: after ∧ s.now - at' ≤ ttlMs ∧
          (after.filter fun e => e.1 ≠ key).length < MAX_ENTRIES := by
  have h : s.Recent := run_invariant_all (fun _ _ _ h hs => h.step hs) (recent_init ttlMs) hrun
  have httl : (fun u : FingerprintRun => u.cache.ttlMs = ttlMs) s :=
    run_invariant_all (fun _ _ _ hu hs => (step_ttlMs hs).trans hu) rfl hrun
  dsimp only at httl
  refine ⟨h.size, h.ordered.sublist h.sublist, fun key => ?_⟩
  rw [has_iff_fresh, h.fresh, recent_add_iff h, httl]

theorem has_iff_recent_add_demo : ∃ s, run step (init DEFAULT_TTL_MS)
    [.has (js "a:hi"), .add (js "a:hi"), .clock 60000] = some s ∧
      s.cache.entries.size ≤ MAX_ENTRIES := by
  obtain ⟨s, hs⟩ := Option.isSome_iff_exists.mp (show (run step (init DEFAULT_TTL_MS)
    [.has (js "a:hi"), .add (js "a:hi"), .clock 60000]).isSome = true by decide +kernel)
  exact ⟨s, hs, (has_iff_recent_add DEFAULT_TTL_MS hs).1⟩

end FingerprintRun

end LivelierBridge.Chat
