import LivelierBridge.Nostr.ReplaceableLoader

namespace LivelierBridge.Nostr

open Framework

universe u v

namespace BatchLoader

inductive Phase (ν : Type v) where
  /-- Before its timer. -/
  | collecting
  /-- `batchLoadFn` is at work on its keys. -/
  | loading
  /-- `batchLoadFn` has returned its values, or has thrown. -/
  | settled (answer : Option (List (Option ν)))

def Phase.Unsettled {ν : Type v} (phase : Phase ν) : Prop := ∀ answer, phase ≠ .settled answer

structure Batch (κ : Type u) (ν : Type v) where
  keys : List κ
  phase : Phase ν

inductive Outcome (ν : Type v) where
  | cached (value : ν)
  | joined (entry : BatchEntry)

structure Load (κ : Type u) (ν : Type v) where
  key : κ
  outcome : Outcome ν

inductive Action (κ : Type u) (ν : Type v) where
  | load (key : κ)
  | timer (b : Nat)
  | settle (b : Nat) (answer : Option (List (Option ν)))
  /-- The `finally` of the load that took a place in a batch. -/
  | delivered (entry : BatchEntry)
  | clock (now : Nat)

end BatchLoader

open BatchLoader

structure BatchLoader (κ : Type u) (ν : Type v) where
  now : Nat
  cache : LruCache κ ν
  pendingBatch : Option Nat
  inFlight : OrderedMap κ BatchEntry
  batches : List (Batch κ ν)
  /-- The calls of `batchLoadFn`: of which batch, with which keys. -/
  calls : List (Nat × List κ)
  /-- The places in batches whose `finally` has run. -/
  delivered : List BatchEntry
  loads : List (Load κ ν)

namespace BatchLoader

variable {κ : Type u} {ν : Type v}

def init (cache : LruCache κ ν) : BatchLoader κ ν := ⟨0, cache, none, .empty, [], [], [], []⟩

/-- `options.batchSize || 100` -/
def batchSizeOf (option : Option Nat) : Nat :=
  match option with
  | none | some 0 => 100
  | some size => size

/-- The values that the promise of a batch resolves to. -/
def valuesOf (keys : List κ) (answer : Option (List (Option ν))) : List (Option ν) :=
  answer.getD (keys.map fun _ => none)

section Operations

variable (batchSize : Nat) (s : BatchLoader κ ν)

def keysOf (b : Nat) : List κ := ((s.batches[b]?).map Batch.keys).getD []

/-- The batch that takes the next key: the pending one while it has room, else a new one. -/
def openBatch : BatchLoader κ ν × Nat :=
  let fresh :=
    ({ s with
      batches := s.batches ++ [⟨[], .collecting⟩]
      pendingBatch := some s.batches.length }, s.batches.length)
  match s.pendingBatch with
  | none => fresh
  | some b => if batchSize ≤ (s.keysOf b).length then fresh else (s, b)

def joinBatch (key : κ) : BatchLoader κ ν × BatchEntry :=
  let (t, b) := s.openBatch batchSize
  ({ t with batches := t.batches.modify b fun batch => { batch with keys := batch.keys ++ [key] } },
    ⟨b, (t.keysOf b).length⟩)

def setPhase (b : Nat) (phase : Phase ν) : List (Batch κ ν) :=
  s.batches.modify b fun batch => { batch with phase := phase }

/-- What a load has resolved to, once it has. -/
def resolution (load : Load κ ν) : Option (Option ν) :=
  match load.outcome with
  | .cached value => some (some value)
  | .joined entry =>
    (s.batches[entry.batch]?).bind fun batch =>
      match batch.phase with
      | .settled answer => some ((valuesOf batch.keys answer)[entry.index]?).join
      | _ => none

end Operations

section Stepping

variable [DecidableEq κ] (batchSize : Nat) (s : BatchLoader κ ν)

def load (key : κ) : BatchLoader κ ν :=
  let read := s.cache.get key s.now
  let t := { s with cache := read.2 }
  match read.1 with
  | some value => { t with loads := t.loads ++ [⟨key, .cached value⟩] }
  | none =>
    match t.inFlight.get? key with
    | some entry => { t with loads := t.loads ++ [⟨key, .joined entry⟩] }
    | none =>
      let (t, entry) := t.joinBatch batchSize key
      { t with
        inFlight := t.inFlight.set key entry
        loads := t.loads ++ [⟨key, .joined entry⟩] }

def cacheValue (now : Nat) (cache : LruCache κ ν) (entry : κ × Option ν) : LruCache κ ν :=
  match entry.2 with
  | none => cache
  | some value => cache.set entry.1 value now

def step : Action κ ν → Option (BatchLoader κ ν)
  | .load key => some (s.load batchSize key)
  | .timer b =>
    (s.batches[b]?).bind fun batch =>
      match batch.phase with
      | .collecting => some { s with
          pendingBatch := if s.pendingBatch = some b then none else s.pendingBatch
          batches := s.setPhase b .loading
          calls := s.calls ++ [(b, batch.keys)] }
      | _ => none
  | .settle b answer =>
    (s.batches[b]?).bind fun batch =>
      match batch.phase with
      | .loading =>
        if (valuesOf batch.keys answer).length = batch.keys.length then
          some { s with
            cache := (batch.keys.zip (valuesOf batch.keys answer)).foldl (cacheValue s.now) s.cache
            batches := s.setPhase b (.settled answer) }
        else none
      | _ => none
  | .delivered entry =>
    (s.batches[entry.batch]?).bind fun batch =>
      match batch.phase, batch.keys[entry.index]? with
      | .settled _, some key =>
        if entry ∈ s.delivered then none
        else some { s with
          inFlight := s.inFlight.delete key
          delivered := s.delivered ++ [entry] }
      | _, _ => none
  | .clock now => some { s with now := now }

end Stepping

section Joins

variable {batchSize : Nat} {s t : BatchLoader κ ν} {key : κ} {entry : BatchEntry}

/-- The pending batch still takes keys. -/
def Collects (s : BatchLoader κ ν) : Prop :=
  ∀ b, s.pendingBatch = some b → ∃ keys, s.batches[b]? = some ⟨keys, .collecting⟩

/-- The key has taken the next place of a batch with room, or the first of a new one. -/
structure Joins (batchSize : Nat) (s t : BatchLoader κ ν) (key : κ) (entry : BatchEntry)
    (keys : List κ) : Prop where
  room : s.batches[entry.batch]? = some ⟨keys, .collecting⟩ ∨
    s.batches[entry.batch]? = none ∧ keys = []
  length : keys.length < batchSize
  index : entry.index = keys.length
  batches : ∀ b, t.batches[b]? =
    if b = entry.batch then some ⟨keys ++ [key], .collecting⟩ else s.batches[b]?
  rest : t = { s with batches := t.batches, pendingBatch := some entry.batch }

theorem getElem?_modify_of_some {b : Nat} {batch : Batch κ ν} {f : Batch κ ν → Batch κ ν}
    {batches : List (Batch κ ν)} (h : batches[b]? = some batch) (b' : Nat) :
    (batches.modify b f)[b']? = if b' = b then some (f batch) else batches[b']? := by
  rw [List.getElem?_modify]
  by_cases hb : b' = b
  · subst hb
    simp [h]
  · simp [hb, Ne.symm hb]

theorem joinBatch_joins (hcollects : s.Collects) (hsize : 0 < batchSize) (key : κ) :
    ∃ keys, Joins batchSize s (s.joinBatch batchSize key).1 key (s.joinBatch batchSize key).2 keys := by
  have hfresh {t : BatchLoader κ ν} (ht : t = { s with
      batches := (s.batches ++ [(⟨[], .collecting⟩ : Batch κ ν)]).modify s.batches.length
        fun batch => { batch with keys := batch.keys ++ [key] }
      pendingBatch := some s.batches.length }) :
      Joins batchSize s t key ⟨s.batches.length, 0⟩ [] := by
    have hlast : (s.batches ++ [(⟨[], .collecting⟩ : Batch κ ν)])[s.batches.length]? =
        some ⟨[], .collecting⟩ := by simp
    refine ⟨.inr ⟨by simp, rfl⟩, hsize, rfl, fun b => ?_, by rw [ht]⟩
    rw [ht]
    dsimp only
    rw [getElem?_modify_of_some hlast]
    split_ifs with hb
    · rfl
    · rcases Nat.lt_or_ge b s.batches.length with hlt | hge
      · exact List.getElem?_append_left hlt
      · rw [List.getElem?_eq_none hge, List.getElem?_eq_none]
        rw [List.length_append, List.length_singleton]
        omega
  have hkeys : (s.batches ++ [(⟨[], .collecting⟩ : Batch κ ν)])[s.batches.length]? =
      some ⟨[], .collecting⟩ := by simp
  unfold joinBatch openBatch
  cases hpending : s.pendingBatch with
  | none =>
    refine ⟨[], ?_⟩
    simp only [keysOf, hkeys, Option.map_some, Option.getD_some, List.length_nil]
    exact hfresh rfl
  | some b =>
    obtain ⟨keys, hb⟩ := hcollects b hpending
    have hkeysOf : s.keysOf b = keys := by simp [keysOf, hb]
    simp only [hkeysOf]
    split_ifs with hfull
    · refine ⟨[], ?_⟩
      simp only [keysOf, hkeys, Option.map_some, Option.getD_some, List.length_nil]
      exact hfresh rfl
    · refine ⟨keys, .inl hb, Nat.lt_of_not_le hfull, by rw [hkeysOf], ?_, ?_⟩
      · exact fun b' => getElem?_modify_of_some hb b'
      · dsimp only
        rw [← hpending]

theorem getElem?_setPhase {keys : List κ} {phase : Phase ν} {b : Nat}
    (h : s.batches[b]? = some ⟨keys, phase⟩)
    (new : Phase ν) (b' : Nat) :
    (s.setPhase b new)[b']? = if b' = b then some ⟨keys, new⟩ else s.batches[b']? :=
  getElem?_modify_of_some h b'

/-- Keys are only added to a batch, and a settled batch stays as it is. -/
structure Grows (s t : BatchLoader κ ν) : Prop where
  keys : ∀ (b i : Nat) (batch : Batch κ ν) (key : κ), s.batches[b]? = some batch →
    batch.keys[i]? = some key → ∃ batch', t.batches[b]? = some batch' ∧ batch'.keys[i]? = some key
  settled : ∀ (b : Nat) (keys : List κ) (answer : Option (List (Option ν))),
    s.batches[b]? = some ⟨keys, .settled answer⟩ → t.batches[b]? = some ⟨keys, .settled answer⟩

theorem grows_of_batches (h : t.batches = s.batches) : s.Grows t := by
  constructor
  · intro b i batch key hb hkey
    exact ⟨batch, by rw [h, hb], hkey⟩
  · intro b keys answer hb
    rw [h, hb]

theorem grows_setPhase {b : Nat} {keys : List κ} {phase new : Phase ν}
    (hb : s.batches[b]? = some ⟨keys, phase⟩) (hphase : phase.Unsettled)
    (hbatches : t.batches = s.setPhase b new) : s.Grows t := by
  constructor
  · intro b' i batch key hbatch hkey
    rw [hbatches, getElem?_setPhase hb]
    split_ifs with heq
    · rw [heq, hb] at hbatch
      obtain rfl := Option.some.inj hbatch
      exact ⟨_, rfl, hkey⟩
    · exact ⟨batch, hbatch, hkey⟩
  · intro b' keys' answer hsettled
    rw [hbatches, getElem?_setPhase hb, if_neg, hsettled]
    rintro rfl
    rw [hb] at hsettled
    injection Option.some.inj hsettled with _ hphase'
    exact hphase answer hphase'

theorem mem_zip_of_index {keys : List κ} {values : List (Option ν)} {i : Nat} {key : κ}
    (hlength : values.length = keys.length) (hkey : keys[i]? = some key) :
    (key, (values[i]?).join) ∈ keys.zip values := by
  have hi : i < values.length := by
    rw [hlength]
    exact (List.getElem?_eq_some_iff.mp hkey).1
  refine List.mem_iff_getElem?.mpr ⟨i, ?_⟩
  rw [List.getElem?_zip_eq_some]
  exact ⟨hkey, by simp [List.getElem?_eq_getElem hi]⟩

end Joins

section Steps

variable [DecidableEq κ] {batchSize : Nat} {s t : BatchLoader κ ν} {key : κ} {b : Nat}
  {entry : BatchEntry}

/-- A load takes the cached value, or shares the fetch in flight, or joins a batch. -/
structure Loads (batchSize : Nat) (s t : BatchLoader κ ν) (key : κ) : Prop where
  cache : t.cache.cache = s.cache.cache
  calls : t.calls = s.calls
  delivered : t.delivered = s.delivered
  outcome : (∃ value, s.cache.cache.get? key = some value ∧ t.batches = s.batches ∧
      t.pendingBatch = s.pendingBatch ∧ t.inFlight = s.inFlight ∧
      t.loads = s.loads ++ [⟨key, .cached value⟩]) ∨
    (∃ entry, s.cache.cache.get? key = none ∧ s.inFlight.get? key = some entry ∧
      t.batches = s.batches ∧ t.pendingBatch = s.pendingBatch ∧ t.inFlight = s.inFlight ∧
      t.loads = s.loads ++ [⟨key, .joined entry⟩]) ∨
    ∃ entry keys u, s.cache.cache.get? key = none ∧ s.inFlight.get? key = none ∧
      Joins batchSize s u key entry keys ∧ t.batches = u.batches ∧ t.pendingBatch = u.pendingBatch ∧
      t.inFlight = s.inFlight.set key entry ∧ t.loads = s.loads ++ [⟨key, .joined entry⟩]

theorem load_loads (hcollects : s.Collects) (hsize : 0 < batchSize) (key : κ) :
    Loads batchSize s (s.load batchSize key) key := by
  unfold load
  simp only [LruCache.get_fst]
  cases hcached : s.cache.cache.get? key with
  | some value =>
    refine ⟨LruCache.get_snd_cache, rfl, rfl, .inl ⟨value, hcached, rfl, rfl, rfl, rfl⟩⟩
  | none =>
    cases hflight : s.inFlight.get? key with
    | some entry =>
      exact ⟨LruCache.get_snd_cache, rfl, rfl,
        .inr (.inl ⟨entry, hcached, hflight, rfl, rfl, rfl, rfl⟩)⟩
    | none =>
      have hcollects' : Collects { s with cache := (s.cache.get key s.now).2 } := hcollects
      obtain ⟨keys, h⟩ := joinBatch_joins hcollects' hsize key
      generalize joinBatch batchSize { s with cache := (s.cache.get key s.now).2 } key = joined at h ⊢
      obtain ⟨u, entry⟩ := joined
      have hrest : u = { s with
        cache := (s.cache.get key s.now).2
        batches := u.batches
        pendingBatch := some entry.batch } := h.rest
      refine ⟨?_, ?_, ?_, .inr (.inr ⟨entry, keys,
        { s with batches := u.batches, pendingBatch := some entry.batch }, hcached, hflight,
        ⟨h.room, h.length, h.index, h.batches, rfl⟩, rfl, ?_, ?_, ?_⟩)⟩
      · rw [hrest]
        exact LruCache.get_snd_cache
      · rw [hrest]
      · rw [hrest]
      · rw [hrest]
      · rw [hrest]
      · rw [hrest]

theorem timer_eq_some (h : s.step batchSize (.timer b) = some t) :
    ∃ keys, s.batches[b]? = some ⟨keys, .collecting⟩ ∧ t = { s with
      pendingBatch := if s.pendingBatch = some b then none else s.pendingBatch
      batches := s.setPhase b .loading
      calls := s.calls ++ [(b, keys)] } := by
  obtain ⟨⟨keys, phase⟩, hb, ht⟩ := Option.bind_eq_some_iff.mp h
  cases phase with
  | collecting => exact ⟨keys, hb, (Option.some.inj ht).symm⟩
  | loading => cases ht
  | settled answer => cases ht

theorem settle_eq_some {answer : Option (List (Option ν))}
    (h : s.step batchSize (.settle b answer) = some t) :
    ∃ keys, s.batches[b]? = some ⟨keys, .loading⟩ ∧ (valuesOf keys answer).length = keys.length ∧
      t = { s with
        cache := (keys.zip (valuesOf keys answer)).foldl (cacheValue s.now) s.cache
        batches := s.setPhase b (.settled answer) } := by
  obtain ⟨⟨keys, phase⟩, hb, ht⟩ := Option.bind_eq_some_iff.mp h
  cases phase with
  | collecting => cases ht
  | loading =>
    dsimp only at ht
    split_ifs at ht with haligned
    exact ⟨keys, hb, haligned, (Option.some.inj ht).symm⟩
  | settled answer => cases ht

theorem delivered_eq_some (h : s.step batchSize (.delivered entry) = some t) :
    ∃ keys answer key, s.batches[entry.batch]? = some ⟨keys, .settled answer⟩ ∧
      keys[entry.index]? = some key ∧ entry ∉ s.delivered ∧ t = { s with
        inFlight := s.inFlight.delete key
        delivered := s.delivered ++ [entry] } := by
  obtain ⟨⟨keys, phase⟩, hb, ht⟩ := Option.bind_eq_some_iff.mp h
  cases phase with
  | collecting => cases ht
  | loading => cases ht
  | settled answer =>
    cases hkey : keys[entry.index]? with
    | none =>
      simp only [hkey] at ht
      cases ht
    | some key =>
      simp only [hkey] at ht
      split_ifs at ht with hdelivered
      exact ⟨keys, answer, key, hb, hkey, hdelivered, (Option.some.inj ht).symm⟩

end Steps

section Invariant

variable [DecidableEq κ] {batchSize : Nat} {s t : BatchLoader κ ν} {key : κ} {b : Nat}
  {entry : BatchEntry}

/-- The calls of `batchLoadFn` that a batch has led to. -/
def callsOf (b : Nat) : Option (Batch κ ν) → List (Nat × List κ)
  | none | some ⟨_, .collecting⟩ => []
  | some ⟨keys, .loading⟩ | some ⟨keys, .settled _⟩ => [(b, keys)]

/-- Every place in a batch whose `finally` is still to run is its key's place in flight, and no key
has two. -/
structure Placed (batchSize : Nat) (s : BatchLoader κ ν) : Prop where
  collects : s.Collects
  bounded : ∀ (b : Nat) (batch : Batch κ ν), s.batches[b]? = some batch →
    batch.keys.length ≤ batchSize ∧ batch.keys.Nodup
  waiting : ∀ (b i : Nat) (batch : Batch κ ν) (key : κ), s.batches[b]? = some batch →
    batch.keys[i]? = some key → ⟨b, i⟩ ∉ s.delivered → s.inFlight.get? key = some ⟨b, i⟩
  delivered : ∀ entry ∈ s.delivered, ∃ keys answer,
    s.batches[entry.batch]? = some ⟨keys, .settled answer⟩
  inFlight : ∀ key entry, s.inFlight.get? key = some entry → ∃ batch,
    s.batches[entry.batch]? = some batch ∧ batch.keys[entry.index]? = some key
  calls : ∀ b, (s.calls.filter fun call => call.1 = b) = callsOf b s.batches[b]?

theorem placed_init (cache : LruCache κ ν) : (init cache).Placed batchSize := by
  refine ⟨?_, ?_, ?_, ?_, ?_, ?_⟩
  · intro b hb
    cases hb
  · intro b batch hb
    cases hb
  · intro b i batch key hb
    cases hb
  · intro entry hentry
    cases hentry
  · intro key entry hentry
    cases hentry
  · intro b
    rfl

/-- A batch that moves on keeps its keys, and their places. -/
theorem Placed.rephase {keys : List κ} {phase new : Phase ν} (h : s.Placed batchSize)
    (hb : s.batches[b]? = some ⟨keys, phase⟩) (hphase : phase.Unsettled)
    (hbatches : t.batches = s.setPhase b new) (hflight : t.inFlight = s.inFlight)
    (hdelivered : t.delivered = s.delivered) (hcollects : t.Collects)
    (hcalls : ∀ b', (t.calls.filter fun call => call.1 = b') =
      callsOf b' (if b' = b then some ⟨keys, new⟩ else s.batches[b']?)) : t.Placed batchSize := by
  have hget (b' : Nat) : t.batches[b']? = if b' = b then some ⟨keys, new⟩ else s.batches[b']? := by
    rw [hbatches, getElem?_setPhase hb]
  have hkeys {b' : Nat} {batch : Batch κ ν} (hbatch : t.batches[b']? = some batch) :
      ∃ phase', s.batches[b']? = some ⟨batch.keys, phase'⟩ := by
    rw [hget] at hbatch
    split_ifs at hbatch with heq
    · obtain rfl := Option.some.inj hbatch
      exact ⟨phase, heq ▸ hb⟩
    · exact ⟨batch.phase, hbatch⟩
  refine ⟨hcollects, ?_, ?_, ?_, ?_, ?_⟩
  · intro b' batch hbatch
    obtain ⟨phase', hold⟩ := hkeys hbatch
    have hbounded := h.bounded b' _ hold
    exact hbounded
  · intro b' i batch key hbatch hkey hnot
    obtain ⟨phase', hold⟩ := hkeys hbatch
    rw [hdelivered] at hnot
    rw [hflight]
    exact h.waiting b' i _ key hold hkey hnot
  · intro entry hentry
    rw [hdelivered] at hentry
    obtain ⟨keys', answer, hsettled⟩ := h.delivered entry hentry
    refine ⟨keys', answer, ?_⟩
    rw [hget, if_neg, hsettled]
    intro heq
    rw [heq, hb] at hsettled
    injection Option.some.inj hsettled with _ hphase'
    exact hphase answer hphase'
  · intro key entry hentry
    rw [hflight] at hentry
    obtain ⟨batch, hbatch, hkey⟩ := h.inFlight key entry hentry
    rw [hget]
    split_ifs with heq
    · rw [heq, hb] at hbatch
      obtain rfl := Option.some.inj hbatch
      exact ⟨_, rfl, hkey⟩
    · exact ⟨batch, hbatch, hkey⟩
  · intro b'
    rw [hcalls, hget]

theorem Placed.timer (h : s.Placed batchSize) (hs : s.step batchSize (.timer b) = some t) :
    t.Placed batchSize := by
  obtain ⟨keys, hb, rfl⟩ := timer_eq_some hs
  refine h.rephase hb (fun answer => by simp) rfl rfl rfl ?_ ?_
  · intro b' hpending
    dsimp only at hpending ⊢
    split_ifs at hpending with hsame
    obtain ⟨keys', hb'⟩ := h.collects b' hpending
    refine ⟨keys', ?_⟩
    rw [getElem?_setPhase hb, if_neg, hb']
    rintro rfl
    exact hsame hpending
  · intro b'
    rw [List.filter_append, h.calls]
    split_ifs with heq
    · subst heq
      simp [hb, callsOf]
    · simp [Ne.symm heq]

theorem Placed.settle {answer : Option (List (Option ν))} (h : s.Placed batchSize)
    (hs : s.step batchSize (.settle b answer) = some t) : t.Placed batchSize := by
  obtain ⟨keys, hb, -, rfl⟩ := settle_eq_some hs
  refine h.rephase hb (fun answer => by simp) rfl rfl rfl ?_ ?_
  · intro b' hpending
    obtain ⟨keys', hb'⟩ := h.collects b' hpending
    refine ⟨keys', ?_⟩
    dsimp only
    rw [getElem?_setPhase hb, if_neg, hb']
    rintro rfl
    rw [hb] at hb'
    cases hb'
  · intro b'
    rw [h.calls]
    split_ifs with heq
    · subst heq
      rw [hb]
      rfl
    · rfl

theorem Placed.deliver (h : s.Placed batchSize) (hs : s.step batchSize (.delivered entry) = some t) :
    t.Placed batchSize := by
  obtain ⟨keys, answer, key, hb, hkey, hnot, rfl⟩ := delivered_eq_some hs
  have hplace : s.inFlight.get? key = some entry := h.waiting _ _ _ _ hb hkey hnot
  refine ⟨h.collects, h.bounded, ?_, ?_, ?_, h.calls⟩
  · intro b' i batch key' hbatch hkey' hnot'
    obtain ⟨hold, hne⟩ : (⟨b', i⟩ : BatchEntry) ∉ s.delivered ∧ ⟨b', i⟩ ≠ entry := by
      simpa using hnot'
    have hplace' := h.waiting b' i batch key' hbatch hkey' hold
    rw [OrderedMap.get?_delete, if_neg, hplace']
    rintro rfl
    exact hne (Option.some.inj (hplace'.symm.trans hplace))
  · intro e he
    rcases List.mem_append.mp he with he | he
    · exact h.delivered e he
    · obtain rfl := List.mem_singleton.mp he
      exact ⟨keys, answer, hb⟩
  · intro key' e he
    rw [OrderedMap.get?_delete] at he
    split_ifs at he
    exact h.inFlight key' e he

theorem Placed.load (h : s.Placed batchSize) (hsize : 0 < batchSize) (key : κ) :
    (s.load batchSize key).Placed batchSize := by
  obtain ⟨-, hcalls, hdelivered, houtcome⟩ := load_loads h.collects hsize key
  have hsame (hbatches : (s.load batchSize key).batches = s.batches)
      (hpending : (s.load batchSize key).pendingBatch = s.pendingBatch)
      (hflight : (s.load batchSize key).inFlight = s.inFlight) :
      (s.load batchSize key).Placed batchSize := by
    obtain ⟨h1, h2, h3, h4, h5, h6⟩ := h
    refine ⟨?_, ?_, ?_, ?_, ?_, ?_⟩
    · rwa [Collects, hbatches, hpending]
    · rwa [hbatches]
    · rwa [hbatches, hflight, hdelivered]
    · rwa [hbatches, hdelivered]
    · rwa [hbatches, hflight]
    · rwa [hbatches, hcalls]
  rcases houtcome with ⟨value, -, hbatches, hpending, hflight, -⟩ |
    ⟨entry, -, -, hbatches, hpending, hflight, -⟩ |
    ⟨entry, keys, u, -, hnone, hjoins, hbatches, hpending, hflight, -⟩
  · exact hsame hbatches hpending hflight
  · exact hsame hbatches hpending hflight
  · generalize s.load batchSize key = t at *
    have hget (b : Nat) : t.batches[b]? =
        if b = entry.batch then some ⟨keys ++ [key], .collecting⟩ else s.batches[b]? := by
      rw [hbatches, hjoins.batches]
    -- a place that the key had before has been delivered, and its batch is settled
    have hplaces (b i : Nat) (batch : Batch κ ν) (hb : s.batches[b]? = some batch)
        (hkey : batch.keys[i]? = some key) : ⟨b, i⟩ ∈ s.delivered := by
      by_contra hnot
      rw [h.waiting b i batch key hb hkey hnot] at hnone
      cases hnone
    have hnew : ∀ e ∈ s.delivered, e.batch ≠ entry.batch := by
      intro e he heq
      obtain ⟨keys', answer, hsettled⟩ := h.delivered e he
      rw [heq] at hsettled
      rcases hjoins.room with hroom | ⟨hroom, -⟩
      · rw [hroom] at hsettled
        cases hsettled
      · rw [hroom] at hsettled
        cases hsettled
    have hbounded : keys.Nodup ∧ key ∉ keys := by
      rcases hjoins.room with hroom | ⟨-, rfl⟩
      · refine ⟨(h.bounded _ _ hroom).2, fun hmem => ?_⟩
        obtain ⟨i, hi⟩ := List.mem_iff_getElem?.mp hmem
        exact hnew _ (hplaces _ i _ hroom hi) rfl
      · simp
    refine ⟨?_, ?_, ?_, ?_, ?_, ?_⟩
    · intro b hb
      rw [hpending, hjoins.rest] at hb
      obtain rfl := Option.some.inj hb
      exact ⟨keys ++ [key], by rw [hget, if_pos rfl]⟩
    · intro b batch hb
      rw [hget] at hb
      split_ifs at hb
      · obtain rfl := Option.some.inj hb
        have hlength : keys.length + 1 ≤ batchSize := hjoins.length
        refine ⟨by simpa using hlength, ?_⟩
        simpa [List.nodup_append] using ⟨hbounded.1, fun a ha heq => hbounded.2 (heq ▸ ha)⟩
      · exact h.bounded b batch hb
    · intro b i batch key' hb hkey' hnot
      rw [hdelivered] at hnot
      rw [hflight]
      by_cases hplace : (⟨b, i⟩ : BatchEntry) = entry
      · subst hplace
        rw [hget, if_pos rfl] at hb
        obtain rfl := Option.some.inj hb
        have hindex := hjoins.index
        simp only at hindex hkey'
        rw [hindex, List.getElem?_append_right (Nat.le_refl _), Nat.sub_self] at hkey'
        obtain rfl := Option.some.inj hkey'
        exact OrderedMap.get?_set_self ..
      · have hold : ∃ batch, s.batches[b]? = some batch ∧ batch.keys[i]? = some key' := by
          rw [hget] at hb
          split_ifs at hb with heq
          · subst heq
            obtain rfl := Option.some.inj hb
            have hindex : i ≠ keys.length := by
              intro hi
              exact hplace (by rw [hi, ← hjoins.index])
            have hlt : i < keys.length := by
              have hbound := (List.getElem?_eq_some_iff.mp hkey').1
              simp only [List.length_append, List.length_singleton] at hbound
              omega
            rw [List.getElem?_append_left hlt] at hkey'
            rcases hjoins.room with hroom | ⟨-, rfl⟩
            · exact ⟨_, hroom, hkey'⟩
            · cases hlt
          · exact ⟨batch, hb, hkey'⟩
        obtain ⟨batch', hb', hkey''⟩ := hold
        rw [OrderedMap.get?_set_of_ne]
        · exact h.waiting b i batch' key' hb' hkey'' hnot
        · rintro rfl
          exact hnot (hplaces b i batch' hb' hkey'')
    · intro e he
      rw [hdelivered] at he
      obtain ⟨keys', answer, hsettled⟩ := h.delivered e he
      exact ⟨keys', answer, by rw [hget, if_neg (hnew e he), hsettled]⟩
    · intro key' e he
      rw [hflight] at he
      by_cases hkey' : key' = key
      · subst hkey'
        rw [OrderedMap.get?_set_self] at he
        obtain rfl := Option.some.inj he
        refine ⟨_, by rw [hget, if_pos rfl], ?_⟩
        rw [hjoins.index]
        simp
      · rw [OrderedMap.get?_set_of_ne _ hkey'] at he
        obtain ⟨batch, hbatch, hindex⟩ := h.inFlight key' e he
        rw [hget]
        split_ifs with heq
        · refine ⟨_, rfl, ?_⟩
          rcases hjoins.room with hroom | ⟨hroom, -⟩
          · rw [heq, hroom] at hbatch
            obtain rfl := Option.some.inj hbatch
            rw [List.getElem?_append_left (List.getElem?_eq_some_iff.mp hindex).1]
            exact hindex
          · rw [heq, hroom] at hbatch
            cases hbatch
        · exact ⟨batch, hbatch, hindex⟩
    · intro b
      rw [hcalls, h.calls, hget]
      split_ifs with heq
      · subst heq
        rcases hjoins.room with hroom | ⟨hroom, -⟩
        · rw [hroom]
          rfl
        · rw [hroom]
          rfl
      · rfl

/-- `batchLoadFn` has returned the value for the key. -/
def Returned (s : BatchLoader κ ν) (key : κ) (value : ν) : Prop :=
  ∃ (b : Nat) (keys : List κ) (values : List (Option ν)),
    s.batches[b]? = some ⟨keys, .settled (some values)⟩ ∧ (key, some value) ∈ keys.zip values

/-- What a key may be served with from the cache: what the cache held for it at first, and what was
returned for it. -/
def Served (initial : LruCache κ ν) (s : BatchLoader κ ν) (key : κ) (value : ν) : Prop :=
  initial.cache.get? key = some value ∨ s.Returned key value

theorem grows_load (h : s.Placed batchSize) (hsize : 0 < batchSize) (key : κ) :
    s.Grows (s.load batchSize key) := by
  rcases (load_loads h.collects hsize key).outcome with ⟨value, -, hbatches, -⟩ |
    ⟨entry, -, -, hbatches, -⟩ | ⟨entry, keys, u, -, -, hjoins, hbatches, -⟩
  · exact grows_of_batches hbatches
  · exact grows_of_batches hbatches
  · constructor
    · intro b i batch key' hb hkey'
      rw [hbatches, hjoins.batches]
      split_ifs with heq
      · refine ⟨_, rfl, ?_⟩
        rcases hjoins.room with hroom | ⟨hroom, -⟩
        · rw [heq, hroom] at hb
          obtain rfl := Option.some.inj hb
          rw [List.getElem?_append_left (List.getElem?_eq_some_iff.mp hkey').1]
          exact hkey'
        · rw [heq, hroom] at hb
          cases hb
      · exact ⟨batch, hb, hkey'⟩
    · intro b keys' answer hsettled
      rw [hbatches, hjoins.batches, if_neg, hsettled]
      rintro rfl
      rcases hjoins.room with hroom | ⟨hroom, -⟩
      · rw [hroom] at hsettled
        cases hsettled
      · rw [hroom] at hsettled
        cases hsettled

theorem Served.mono {initial : LruCache κ ν} {value : ν} (h : Served initial s key value)
    (hgrows : s.Grows t) : Served initial t key value := by
  rcases h with h | ⟨b, keys, values, hb, hmem⟩
  · exact .inl h
  · exact .inr ⟨b, keys, values, hgrows.settled b keys _ hb, hmem⟩

/-- A batch's values are written under the keys that they are for. -/
theorem get?_cacheValues {cache : LruCache κ ν} {now : Nat} {entries : List (κ × Option ν)} {value : ν}
    (h : (entries.foldl (cacheValue now) cache).cache.get? key = some value) :
    (key, some value) ∈ entries ∨ cache.cache.get? key = some value := by
  induction entries generalizing cache with
  | nil => exact .inr h
  | cons entry entries ih =>
    obtain ⟨k, v⟩ := entry
    rcases ih h with hmem | hheld
    · exact .inl (List.mem_cons_of_mem _ hmem)
    · cases v with
      | none => exact .inr hheld
      | some v =>
        have hset : (cache.set k v now).cache.get? key = some value := hheld
        by_cases hk : key = k
        · subst hk
          rw [LruCache.get?_set_self] at hset
          obtain rfl := Option.some.inj hset
          exact .inl List.mem_cons_self
        · exact .inr (LruCache.get?_set_of_ne hk hset)

/-- Every load waits at a place of its own key, or was served from the cache with a value of its key. -/
structure Sound (batchSize : Nat) (initial : LruCache κ ν) (s : BatchLoader κ ν) : Prop where
  placed : s.Placed batchSize
  aligned : ∀ (b : Nat) (keys : List κ) (answer : Option (List (Option ν))),
    s.batches[b]? = some ⟨keys, .settled answer⟩ → (valuesOf keys answer).length = keys.length
  cache : ∀ key value, s.cache.cache.get? key = some value → Served initial s key value
  joined : ∀ load ∈ s.loads, ∀ entry, load.outcome = .joined entry → ∃ batch,
    s.batches[entry.batch]? = some batch ∧ batch.keys[entry.index]? = some load.key
  cached : ∀ load ∈ s.loads, ∀ value, load.outcome = .cached value → Served initial s load.key value

section Runs

variable {initial : LruCache κ ν}

theorem sound_init (initial : LruCache κ ν) : (init initial).Sound batchSize initial := by
  refine ⟨placed_init initial, ?_, fun key value h => .inl h, ?_, ?_⟩
  · intro b keys answer hb
    cases hb
  · intro load hload
    cases hload
  · intro load hload
    cases hload

/-- What a step leaves of the places and values of the loads before it. -/
theorem Sound.frame (h : s.Sound batchSize initial) (hplaced : t.Placed batchSize)
    (hgrows : s.Grows t) (hloads : t.loads = s.loads)
    (haligned : ∀ (b : Nat) (keys : List κ) (answer : Option (List (Option ν))),
      t.batches[b]? = some ⟨keys, .settled answer⟩ → (valuesOf keys answer).length = keys.length)
    (hcache : ∀ key value, t.cache.cache.get? key = some value → Served initial t key value) :
    t.Sound batchSize initial := by
  refine ⟨hplaced, haligned, hcache, ?_, ?_⟩
  · intro load hload entry hentry
    rw [hloads] at hload
    obtain ⟨batch, hb, hkey⟩ := h.joined load hload entry hentry
    exact hgrows.keys _ _ batch _ hb hkey
  · intro load hload value hvalue
    rw [hloads] at hload
    exact (h.cached load hload value hvalue).mono hgrows

theorem Sound.load (h : s.Sound batchSize initial) (hsize : 0 < batchSize) (key : κ) :
    (s.load batchSize key).Sound batchSize initial := by
  have hplaced := h.placed.load hsize key
  have hgrows := grows_load h.placed hsize key
  obtain ⟨hcache, -, -, houtcome⟩ := load_loads h.placed.collects hsize key
  generalize s.load batchSize key = t at *
  have haligned (b : Nat) (keys : List κ) (answer : Option (List (Option ν)))
      (hb : t.batches[b]? = some ⟨keys, .settled answer⟩) :
      (valuesOf keys answer).length = keys.length := by
    rcases houtcome with ⟨value, -, hbatches, -⟩ | ⟨entry, -, -, hbatches, -⟩ |
      ⟨entry, keys', u, -, -, hjoins, hbatches, -⟩
    · exact h.aligned b keys answer (hbatches ▸ hb)
    · exact h.aligned b keys answer (hbatches ▸ hb)
    · rw [hbatches, hjoins.batches] at hb
      split_ifs at hb
      · cases hb
      · exact h.aligned b keys answer hb
  have hserved (key' : κ) (value : ν) (hget : t.cache.cache.get? key' = some value) :
      Served initial t key' value := by
    rw [hcache] at hget
    exact (h.cache key' value hget).mono hgrows
  have hbefore : ({ t with loads := s.loads } : BatchLoader κ ν).Sound batchSize initial := by
    have hplaced' : ({ t with loads := s.loads } : BatchLoader κ ν).Placed batchSize := by
      obtain ⟨h1, h2, h3, h4, h5, h6⟩ := hplaced
      exact ⟨h1, h2, h3, h4, h5, h6⟩
    exact h.frame hplaced' ⟨hgrows.keys, hgrows.settled⟩ rfl haligned hserved
  refine ⟨hplaced, haligned, hserved, ?_, ?_⟩
  · intro load hload entry hentry
    rcases houtcome with ⟨value, -, -, -, -, hloads⟩ | ⟨e, -, hflight, hbatches, -, -, hloads⟩ |
      ⟨e, keys, u, -, -, hjoins, hbatches, -, -, hloads⟩
    · rw [hloads] at hload
      rcases List.mem_append.mp hload with hload | hload
      · exact hbefore.joined load hload entry hentry
      · obtain rfl := List.mem_singleton.mp hload
        cases hentry
    · rw [hloads] at hload
      rcases List.mem_append.mp hload with hload | hload
      · exact hbefore.joined load hload entry hentry
      · obtain rfl := List.mem_singleton.mp hload
        obtain rfl : e = entry := by simpa using hentry
        rw [hbatches]
        exact h.placed.inFlight key e hflight
    · rw [hloads] at hload
      rcases List.mem_append.mp hload with hload | hload
      · exact hbefore.joined load hload entry hentry
      · obtain rfl := List.mem_singleton.mp hload
        obtain rfl : e = entry := by simpa using hentry
        refine ⟨⟨keys ++ [key], .collecting⟩, by rw [hbatches, hjoins.batches, if_pos rfl], ?_⟩
        rw [hjoins.index]
        simp
  · intro load hload value hvalue
    rcases houtcome with ⟨v, hget, -, -, -, hloads⟩ | ⟨e, -, -, -, -, -, hloads⟩ |
      ⟨e, keys, u, -, -, -, -, -, -, hloads⟩
    · rw [hloads] at hload
      rcases List.mem_append.mp hload with hload | hload
      · exact hbefore.cached load hload value hvalue
      · obtain rfl := List.mem_singleton.mp hload
        obtain rfl : v = value := by simpa using hvalue
        exact (h.cache key v hget).mono hgrows
    · rw [hloads] at hload
      rcases List.mem_append.mp hload with hload | hload
      · exact hbefore.cached load hload value hvalue
      · obtain rfl := List.mem_singleton.mp hload
        cases hvalue
    · rw [hloads] at hload
      rcases List.mem_append.mp hload with hload | hload
      · exact hbefore.cached load hload value hvalue
      · obtain rfl := List.mem_singleton.mp hload
        cases hvalue

theorem Sound.step {a : Action κ ν} (h : s.Sound batchSize initial) (hsize : 0 < batchSize)
    (hs : s.step batchSize a = some t) : t.Sound batchSize initial := by
  cases a with
  | load key =>
    cases hs
    exact h.load hsize key
  | timer b =>
    have hplaced := h.placed.timer hs
    obtain ⟨keys, hb, rfl⟩ := timer_eq_some hs
    have hgrows := grows_setPhase (t := { s with
      pendingBatch := if s.pendingBatch = some b then none else s.pendingBatch
      batches := s.setPhase b .loading
      calls := s.calls ++ [(b, keys)] }) hb (fun answer => by simp) rfl
    refine h.frame hplaced hgrows rfl ?_ fun key value hget => (h.cache key value hget).mono hgrows
    intro b' keys' answer hb'
    dsimp only at hb'
    rw [getElem?_setPhase hb] at hb'
    split_ifs at hb'
    · cases hb'
    · exact h.aligned b' keys' answer hb'
  | settle b answer =>
    have hplaced := h.placed.settle hs
    obtain ⟨keys, hb, haligned, rfl⟩ := settle_eq_some hs
    have hgrows := grows_setPhase (t := { s with
      cache := (keys.zip (valuesOf keys answer)).foldl (cacheValue s.now) s.cache
      batches := s.setPhase b (.settled answer) }) hb (fun answer => by simp) rfl
    refine h.frame hplaced hgrows rfl ?_ fun key value hget => ?_
    · intro b' keys' answer' hb'
      dsimp only at hb'
      rw [getElem?_setPhase hb] at hb'
      split_ifs at hb'
      · cases hb'
        exact haligned
      · exact h.aligned b' keys' answer' hb'
    · rcases get?_cacheValues hget with hmem | hheld
      · cases answer with
        | none =>
          have hnone : some value = (none : Option ν) := by
            have hzip := (List.of_mem_zip hmem).2
            simp only [valuesOf, Option.getD_none, List.mem_map] at hzip
            obtain ⟨_, -, heq⟩ := hzip
            exact heq.symm
          cases hnone
        | some values =>
          refine .inr ⟨b, keys, values, ?_, hmem⟩
          dsimp only
          rw [getElem?_setPhase hb, if_pos rfl]
      · exact (h.cache key value hheld).mono hgrows
  | delivered entry =>
    have hplaced := h.placed.deliver hs
    obtain ⟨keys, answer, key, hb, hkey, hnot, rfl⟩ := delivered_eq_some hs
    exact h.frame hplaced (grows_of_batches rfl) rfl h.aligned h.cache
  | clock now =>
    cases hs
    obtain ⟨h1, h2, h3, h4, h5, h6⟩ := h.placed
    exact h.frame ⟨h1, h2, h3, h4, h5, h6⟩ (grows_of_batches rfl) rfl h.aligned h.cache

end Runs

end Invariant

section Serves

variable [DecidableEq κ] {batchSize : Nat} {s t : BatchLoader κ ν} {initial : LruCache κ ν}

/-- Every load is served with its key's value, by the one batch that it joined. -/
structure Serves (batchSize : Nat) (initial : LruCache κ ν) (s : BatchLoader κ ν) : Prop where
  resolved : ∀ load ∈ s.loads, ∀ value, s.resolution load = some value →
    (∃ v, load.outcome = .cached v ∧ value = some v ∧ Served initial s load.key v) ∨
      ∃ entry keys answer, load.outcome = .joined entry ∧
        s.batches[entry.batch]? = some ⟨keys, .settled answer⟩ ∧
        match answer with
        | none => value = none
        | some values => values.length = keys.length ∧ (load.key, value) ∈ keys.zip values
  /-- What is not resolved waits for a timer, or for the answer to a call. -/
  unresolved : ∀ load ∈ s.loads, s.resolution load = none → ∃ entry keys,
    load.outcome = .joined entry ∧ ((s.step batchSize (.timer entry.batch)).isSome = true ∨
      ((entry.batch, keys) ∈ s.calls ∧ ∀ answer, (valuesOf keys answer).length = keys.length →
        (s.step batchSize (.settle entry.batch answer)).isSome = true))
  apart : ∀ (b b' : Nat) (batch batch' : Batch κ ν) (key : κ), s.batches[b]? = some batch →
    s.batches[b']? = some batch' → batch.phase.Unsettled → batch'.phase.Unsettled →
      key ∈ batch.keys → key ∈ batch'.keys → b = b'
  bounded : ∀ call ∈ s.calls, call.2.length ≤ batchSize ∧ call.2.Nodup
  covered : ∀ load ∈ s.loads, ∀ entry, load.outcome = .joined entry → ∃ keys phase,
    s.batches[entry.batch]? = some ⟨keys, phase⟩ ∧ load.key ∈ keys ∧
      (s.calls.filter fun call => call.1 = entry.batch) =
        match phase with
        | .collecting => []
        | _ => [(entry.batch, keys)]
  /-- A load of an uncached key joins a batch, and no other load does. -/
  uncached : ∀ key, ∃ outcome, (s.load batchSize key).loads = s.loads ++ [⟨key, outcome⟩] ∧
    ((∃ entry, outcome = .joined entry) ↔ s.cache.cache.get? key = none)

theorem Sound.resolved (h : s.Sound batchSize initial) {load : Load κ ν} (hload : load ∈ s.loads)
    {value : Option ν} (hvalue : s.resolution load = some value) :
    (∃ v, load.outcome = .cached v ∧ value = some v ∧ Served initial s load.key v) ∨
      ∃ entry keys answer, load.outcome = .joined entry ∧
        s.batches[entry.batch]? = some ⟨keys, .settled answer⟩ ∧
        match answer with
        | none => value = none
        | some values => values.length = keys.length ∧ (load.key, value) ∈ keys.zip values := by
  unfold resolution at hvalue
  cases houtcome : load.outcome with
  | cached v =>
    rw [houtcome] at hvalue
    exact .inl ⟨v, rfl, (Option.some.inj hvalue).symm, h.cached load hload v houtcome⟩
  | joined entry =>
    obtain ⟨⟨keys, phase⟩, hb, hkey⟩ := h.joined load hload entry houtcome
    rw [houtcome] at hvalue
    simp only [hb, Option.bind_some] at hvalue
    cases phase with
    | collecting => cases hvalue
    | loading => cases hvalue
    | settled answer =>
      obtain rfl := Option.some.inj hvalue
      refine .inr ⟨entry, keys, answer, rfl, hb, ?_⟩
      cases answer with
      | none =>
        change ((keys.map fun _ => none)[entry.index]?).join = (none : Option ν)
        rw [List.getElem?_map]
        cases keys[entry.index]? with
        | none => rfl
        | some key => rfl
      | some values =>
        have hlength := h.aligned _ _ _ hb
        exact ⟨hlength, mem_zip_of_index hlength hkey⟩

theorem Sound.unresolved (h : s.Sound batchSize initial) {load : Load κ ν} (hload : load ∈ s.loads)
    (hnone : s.resolution load = none) : ∃ entry keys, load.outcome = .joined entry ∧
      ((s.step batchSize (.timer entry.batch)).isSome = true ∨
        ((entry.batch, keys) ∈ s.calls ∧ ∀ answer, (valuesOf keys answer).length = keys.length →
          (s.step batchSize (.settle entry.batch answer)).isSome = true)) := by
  unfold resolution at hnone
  cases houtcome : load.outcome with
  | cached v =>
    rw [houtcome] at hnone
    cases hnone
  | joined entry =>
    obtain ⟨⟨keys, phase⟩, hb, -⟩ := h.joined load hload entry houtcome
    rw [houtcome] at hnone
    simp only [hb, Option.bind_some] at hnone
    refine ⟨entry, keys, rfl, ?_⟩
    cases phase with
    | collecting => exact .inl (by simp [BatchLoader.step, hb])
    | loading =>
      refine .inr ⟨?_, fun answer haligned => by simp [BatchLoader.step, hb, haligned]⟩
      have hmem : (entry.batch, keys) ∈ s.calls.filter fun call => call.1 = entry.batch := by
        rw [h.placed.calls, hb]
        exact List.mem_singleton_self _
      exact List.mem_of_mem_filter hmem
    | settled answer => cases hnone

theorem Placed.apart (h : s.Placed batchSize) {b b' : Nat} {batch batch' : Batch κ ν} {key : κ}
    (hb : s.batches[b]? = some batch) (hb' : s.batches[b']? = some batch')
    (hunsettled : batch.phase.Unsettled) (hunsettled' : batch'.phase.Unsettled)
    (hkey : key ∈ batch.keys) (hkey' : key ∈ batch'.keys) : b = b' := by
  have hplace {c i : Nat} {held : Batch κ ν} (hc : s.batches[c]? = some held)
      (hheld : held.phase.Unsettled) (hi : held.keys[i]? = some key) :
      s.inFlight.get? key = some ⟨c, i⟩ := by
    apply h.waiting c i held key hc hi
    intro hdelivered
    obtain ⟨keys, answer, hsettled⟩ := h.delivered _ hdelivered
    obtain rfl := Option.some.inj (hc.symm.trans hsettled)
    exact hheld answer rfl
  obtain ⟨i, hi⟩ := List.mem_iff_getElem?.mp hkey
  obtain ⟨i', hi'⟩ := List.mem_iff_getElem?.mp hkey'
  have hsame := (hplace hb hunsettled hi).symm.trans (hplace hb' hunsettled' hi')
  injection Option.some.inj hsame

theorem Placed.bounded_call (h : s.Placed batchSize) {call : Nat × List κ} (hcall : call ∈ s.calls) :
    call.2.length ≤ batchSize ∧ call.2.Nodup := by
  have hmem : call ∈ s.calls.filter fun c => c.1 = call.1 := List.mem_filter.mpr ⟨hcall, by simp⟩
  rw [h.calls] at hmem
  cases hb : s.batches[call.1]? with
  | none =>
    rw [hb] at hmem
    cases hmem
  | some batch =>
    obtain ⟨keys, phase⟩ := batch
    have hbounded := h.bounded _ _ hb
    rw [hb] at hmem
    cases phase with
    | collecting => cases hmem
    | loading =>
      rw [List.mem_singleton.mp hmem]
      exact hbounded
    | settled answer =>
      rw [List.mem_singleton.mp hmem]
      exact hbounded

/-- Whatever order loads, timers, settlements and deliveries come in. -/
theorem batchLoader_serves (option : Option Nat) (initial : LruCache κ ν) {as : List (Action κ ν)}
    (hrun : run (step (batchSizeOf option)) (init initial) as = some s) :
    s.Serves (batchSizeOf option) initial := by
  have hsize : 0 < batchSizeOf option := by
    unfold batchSizeOf
    split
    · omega
    · omega
    · rename_i size hne
      have hpos : size ≠ 0 := fun h => hne (by rw [h])
      omega
  have h : s.Sound (batchSizeOf option) initial :=
    run_invariant_all (fun _ _ _ h hs => h.step hsize hs) (sound_init initial) hrun
  refine ⟨fun load hload value hvalue => h.resolved hload hvalue,
    fun load hload hnone => h.unresolved hload hnone,
    fun b b' batch batch' key hb hb' hu hu' hk hk' => h.placed.apart hb hb' hu hu' hk hk',
    fun call hcall => h.placed.bounded_call hcall, fun load hload entry hentry => ?_, fun key => ?_⟩
  · obtain ⟨⟨keys, phase⟩, hb, hkey⟩ := h.joined load hload entry hentry
    refine ⟨keys, phase, hb, List.mem_of_getElem? hkey, ?_⟩
    rw [h.placed.calls, hb]
    cases phase with
    | collecting => rfl
    | loading => rfl
    | settled answer => rfl
  · rcases (load_loads h.placed.collects hsize key).outcome with ⟨value, hcached, -, -, -, hloads⟩ |
      ⟨entry, hcached, -, -, -, -, hloads⟩ | ⟨entry, keys, u, hcached, -, -, -, -, -, hloads⟩
    · exact ⟨_, hloads, by simp [hcached]⟩
    · exact ⟨_, hloads, by simp [hcached]⟩
    · exact ⟨_, hloads, by simp [hcached]⟩

/-- Batches of two: the third key starts a batch of its own, and the first is asked for twice. -/
abbrev demoLoads : List (Action Nat Nat) :=
  [.load 1, .load 2, .load 1, .load 3, .timer 0, .settle 0 (some [some 10, none]), .load 2, .timer 1,
    .delivered ⟨0, 0⟩, .settle 1 none]

theorem batchLoader_serves_demo : ∃ s,
    run (step (batchSizeOf (some 2))) (init (.init 1000)) demoLoads = some s ∧
      s.Serves 2 (.init 1000) := by
  obtain ⟨s, hs⟩ := Option.isSome_iff_exists.mp (show (run (step (batchSizeOf (some 2)))
    (init (.init 1000)) demoLoads).isSome = true by decide +kernel)
  exact ⟨s, hs, batchLoader_serves (some 2) (.init 1000) hs⟩

end Serves

end BatchLoader

end LivelierBridge.Nostr
