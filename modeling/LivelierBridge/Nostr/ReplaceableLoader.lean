import Mathlib.Logic.Function.Basic
import LivelierBridge.Framework.Run
import LivelierBridge.Framework.LruCache
import LivelierBridge.Nostr.ProfileBackoff
import LivelierBridge.Nostr.ReplaceableKeys

namespace LivelierBridge.Nostr

open Framework Js

/-- The kinds that a publication writes through to the loader. -/
def CACHEABLE_REPLACEABLE_KINDS : List Int := [0, 3, 10000, 10002, 10030, 30030, 39089]

/-- What a query of one tier brought. -/
structure QueryResult where
  events : List Event
  eoseCount : Nat

def QueryResult.concat (primary fallback : QueryResult) : QueryResult :=
  ⟨primary.events ++ fallback.events, primary.eoseCount + fallback.eoseCount⟩

inductive BatchPhase where
  /-- Before its timer. -/
  | collecting
  | primary
  /-- The first tier has answered; what it misses is asked for again. -/
  | fallback (primary : QueryResult)
  /-- `batchLoad` has returned. -/
  | loaded (values : List (Option Event))
  | settled (values : List (Option Event))

structure LoadBatch where
  keys : List JsString
  phase : BatchPhase

/-- The place of a key in a batch. -/
structure BatchEntry where
  batch : Nat
  index : Nat
  deriving DecidableEq

inductive LoadOutcome where
  | resolved (value : Option Event)
  | joined (entry : BatchEntry)

structure LoadRecord where
  key : JsString
  /-- The loader's `floor` of the key when the load started. -/
  floor : Option Int
  outcome : LoadOutcome

structure ReplaceableEventLoader where
  now : Nat
  cache : LruCache JsString Event
  pendingBatch : Option Nat
  inFlight : OrderedMap JsString BatchEntry
  batches : List LoadBatch
  missLedger : OrderedMap JsString FailedProfileFetch
  /-- The latest `created_at` that was primed for a key and since then neither cleared nor evicted. -/
  floor : JsString → Option Int
  /-- All loads, in the order of their start. -/
  loads : List LoadRecord

inductive LoaderAction where
  | load (request : ReplaceableEventRequest)
  | prime (event : Event)
  /-- All relays have answered a publication. -/
  | publishEvent (event : Event) (results : List (JsString × Bool))
  | clear (request : ReplaceableEventRequest)
  | dispatch (b : Nat)
  /-- The first tier answers, or its query throws. -/
  | primary (b : Nat) (answer : Option QueryResult)
  | fallback (b : Nat) (answer : Option QueryResult)
  | store (b : Nat)
  /-- The `finally` of a load that a batch has settled. -/
  | delivered (entry : BatchEntry)
  | clock (now : Nat)

namespace ReplaceableEventLoader

/-- `new LRUCache(1000)` -/
def init : ReplaceableEventLoader := ⟨0, .init 1000, none, .empty, [], .empty, fun _ => none, []⟩

section Operations

variable (batchSize : Nat) (hasFallback : Bool) (s : ReplaceableEventLoader)

def setBatch (b : Nat) (batch : LoadBatch) : ReplaceableEventLoader :=
  { s with batches := s.batches.set b batch }

def keysOf (b : Nat) : List JsString := ((s.batches[b]?).map LoadBatch.keys).getD []

def note (key : JsString) (outcome : LoadOutcome) : ReplaceableEventLoader :=
  { s with loads := s.loads ++ [⟨key, s.floor key, outcome⟩] }

/-- A write into the cache; the floor of an evicted key goes with it. -/
def install (key : JsString) (event : Event) : ReplaceableEventLoader :=
  let cache := s.cache.set key event s.now
  { s with cache := cache, floor := fun k => if cache.has k then s.floor k else none }

def prime (event : Event) : ReplaceableEventLoader :=
  let key := coordinateOf event
  let t := s.install key event
  { t with
    missLedger := t.missLedger.delete key
    floor := Function.update t.floor key (some ((t.floor key).elim event.created_at
      fun c => max c event.created_at)) }

/-- Some relay accepted the event, and its kind is one that the loader caches. -/
def writesThrough (event : Event) (results : List (JsString × Bool)) : Bool :=
  decide (event.kind ∈ CACHEABLE_REPLACEABLE_KINDS) && results.any Prod.snd

def publishEvent (event : Event) (results : List (JsString × Bool)) : ReplaceableEventLoader :=
  if writesThrough event results then s.prime event else s

def clear (request : ReplaceableEventRequest) : ReplaceableEventLoader :=
  let key := toKey request
  { s with
    cache := s.cache.delete key
    missLedger := s.missLedger.delete key
    floor := Function.update s.floor key none }

/-- The batch that takes the next key: the pending one while it has room, else a new one. -/
def openBatch : ReplaceableEventLoader × Nat :=
  let fresh :=
    ({ s with
      batches := s.batches ++ [⟨[], .collecting⟩]
      pendingBatch := some s.batches.length }, s.batches.length)
  match s.pendingBatch with
  | none => fresh
  | some b => if batchSize ≤ (s.keysOf b).length then fresh else (s, b)

def joinBatch (key : JsString) : ReplaceableEventLoader × BatchEntry :=
  let (t, b) := s.openBatch batchSize
  let keys := t.keysOf b
  (t.setBatch b ⟨keys ++ [key], .collecting⟩, ⟨b, keys.length⟩)

/-- `BatchLoader.load` -/
def batchLoaderLoad (key : JsString) : ReplaceableEventLoader :=
  let read := s.cache.get key s.now
  let t := { s with cache := read.2 }
  match read.1 with
  | some event => t.note key (.resolved (some event))
  | none =>
    match t.inFlight.get? key with
    | some entry => t.note key (.joined entry)
    | none =>
      let (t, entry) := t.joinBatch batchSize key
      { t with inFlight := t.inFlight.set key entry }.note key (.joined entry)

/-- A key in its miss cooldown is not looked up at all. -/
def load (request : ReplaceableEventRequest) : ReplaceableEventLoader :=
  let key := toKey request
  if (s.missLedger.get? key).any fun miss => s.now < miss.nextRetryAt then
    s.note key (.resolved none)
  else s.batchLoaderLoad batchSize key

def recordOutcome (eoseCount : Nat) (resolved : JsString → Option Event)
    (missLedger : OrderedMap JsString FailedProfileFetch) (key : JsString) :
    OrderedMap JsString FailedProfileFetch :=
  if (parseKey key).kind = 0 then missLedger
  else if (resolved key).isSome then missLedger.delete key
  else if 0 < eoseCount then recordFailedProfileFetch missLedger key s.now
  else missLedger

/-- All tiers of a batch have answered. -/
def finish (b : Nat) (keys : List JsString) (answer : QueryResult) : ReplaceableEventLoader :=
  let resolved := fun key => resolveRequest key answer.events
  { s.setBatch b ⟨keys, .loaded (keys.map resolved)⟩ with
    missLedger := keys.foldl (s.recordOutcome answer.eoseCount resolved) s.missLedger }

/-- A query threw: every key of the batch comes back undefined. -/
def fail (b : Nat) (keys : List JsString) : ReplaceableEventLoader :=
  s.setBatch b ⟨keys, .loaded (keys.map fun _ => none)⟩

/-- There is a second tier, and the first one missed a key. -/
def asksFallback (keys : List JsString) (primary : QueryResult) : Bool :=
  hasFallback && keys.any fun key => (resolveRequest key primary.events).isNone

def storeValue (entry : JsString × Option Event) : ReplaceableEventLoader :=
  match entry.2 with
  | none => s
  | some event => s.install entry.1 event

/-- The batch's keys, when it is in the phase that `p` takes something from. -/
def inPhase {α : Type} (p : BatchPhase → Option α) (b : Nat) : Option (List JsString × α) :=
  (s.batches[b]?).bind fun batch => (p batch.phase).map (Prod.mk batch.keys)

def collecting (b : Nat) : Option (List JsString × Unit) :=
  s.inPhase (fun | .collecting => some () | _ => none) b

def askingPrimary (b : Nat) : Option (List JsString × Unit) :=
  s.inPhase (fun | .primary => some () | _ => none) b

def askingFallback (b : Nat) : Option (List JsString × QueryResult) :=
  s.inPhase (fun | .fallback primary => some primary | _ => none) b

def loaded (b : Nat) : Option (List JsString × List (Option Event)) :=
  s.inPhase (fun | .loaded values => some values | _ => none) b

def settled (b : Nat) : Option (List JsString × List (Option Event)) :=
  s.inPhase (fun | .settled values => some values | _ => none) b

/-- One step of the loader. -/
def step : LoaderAction → Option ReplaceableEventLoader
  | .load request => some (s.load batchSize request)
  | .prime event => some (s.prime event)
  | .publishEvent event results => some (s.publishEvent event results)
  | .clear request => some (s.clear request)
  | .dispatch b =>
    (s.collecting b).map fun x =>
      { s.setBatch b ⟨x.1, .primary⟩ with
        pendingBatch := if s.pendingBatch = some b then none else s.pendingBatch }
  | .primary b answer =>
    (s.askingPrimary b).map fun x =>
      match answer with
      | none => s.fail b x.1
      | some primary =>
        if asksFallback hasFallback x.1 primary then s.setBatch b ⟨x.1, .fallback primary⟩
        else s.finish b x.1 primary
  | .fallback b answer =>
    (s.askingFallback b).map fun x =>
      match answer with
      | none => s.fail b x.1
      | some fallback => s.finish b x.1 (x.2.concat fallback)
  | .store b =>
    (s.loaded b).map fun x => ((x.1.zip x.2).foldl storeValue s).setBatch b ⟨x.1, .settled x.2⟩
  | .delivered entry =>
    (s.settled entry.batch).bind fun x =>
      (x.1[entry.index]?).bind fun key =>
        if s.inFlight.get? key = some entry then some { s with inFlight := s.inFlight.delete key }
        else none
  | .clock now => some { s with now := now }

/-- What a load has resolved to, once it has. -/
def resultOf (load : LoadRecord) : Option (Option Event) :=
  match load.outcome with
  | .resolved value => some value
  | .joined entry => (s.settled entry.batch).map fun x => (x.2[entry.index]?).join

/-- Every load that started after a prime resolves to an event of its coordinate that is not older
than the primed one. -/
def Fresh : Prop :=
  ∀ load ∈ s.loads, ∀ c ∈ load.floor, ∃ event, s.resultOf load = some (some event) ∧
    coordinateOf event = load.key ∧ c ≤ event.created_at

/-- No newer version of the event's coordinate has been primed. -/
def NotOlder (event : Event) : Prop := ∀ c ∈ s.floor (coordinateOf event), c ≤ event.created_at

/-- An answer makes no primed key of a batch a recorded miss. -/
def MissesNone (keys : List JsString) (answer : QueryResult) : Prop :=
  ∀ key ∈ keys, (s.floor key).isSome = true → (parseKey key).kind = 0 ∨ answer.eoseCount = 0 ∨
    (resolveRequest key answer.events).isSome = true

/-- The values that a batch writes are of their key's coordinate and not older than what was primed
for it. -/
def StoresFresh : ReplaceableEventLoader → List (JsString × Option Event) → Prop
  | _, [] => True
  | s, entry :: entries =>
    (∀ event ∈ entry.2, ∀ c ∈ s.floor entry.1, coordinateOf event = entry.1 ∧ c ≤ event.created_at) ∧
      StoresFresh (s.storeValue entry) entries

instance StoresFresh.decidable : ∀ (s : ReplaceableEventLoader)
    (entries : List (JsString × Option Event)), Decidable (s.StoresFresh entries)
  | _, [] => inferInstanceAs (Decidable True)
  | s, entry :: entries =>
    have := StoresFresh.decidable (s.storeValue entry) entries
    inferInstanceAs (Decidable (_ ∧ _))

/-- The step neither primes an older version of a primed event, nor records or stores what is older
than it. -/
def KeepsFresh : LoaderAction → Prop
  | .prime event => s.NotOlder event
  | .publishEvent event results => writesThrough event results = true → s.NotOlder event
  | .primary b answer => ∀ x ∈ s.askingPrimary b, ∀ primary ∈ answer,
      asksFallback hasFallback x.1 primary = false → s.MissesNone x.1 primary
  | .fallback b answer => ∀ x ∈ s.askingFallback b, ∀ fallback ∈ answer,
      s.MissesNone x.1 (x.2.concat fallback)
  | .store b => ∀ x ∈ s.loaded b, s.StoresFresh (x.1.zip x.2)
  | _ => True

instance (event : Event) : Decidable (s.NotOlder event) :=
  inferInstanceAs (Decidable (∀ c ∈ s.floor (coordinateOf event), c ≤ event.created_at))

instance (keys : List JsString) (answer : QueryResult) : Decidable (s.MissesNone keys answer) :=
  inferInstanceAs (Decidable (∀ key ∈ keys, (s.floor key).isSome = true → (parseKey key).kind = 0 ∨
    answer.eoseCount = 0 ∨ (resolveRequest key answer.events).isSome = true))

instance KeepsFresh.decidable : ∀ a, Decidable (s.KeepsFresh hasFallback a)
  | .prime event => inferInstanceAs (Decidable (s.NotOlder event))
  | .publishEvent event results =>
    inferInstanceAs (Decidable (writesThrough event results = true → s.NotOlder event))
  | .primary b answer => inferInstanceAs (Decidable (∀ x ∈ s.askingPrimary b, ∀ primary ∈ answer,
      asksFallback hasFallback x.1 primary = false → s.MissesNone x.1 primary))
  | .fallback b answer => inferInstanceAs (Decidable (∀ x ∈ s.askingFallback b,
      ∀ fallback ∈ answer, s.MissesNone x.1 (x.2.concat fallback)))
  | .store b =>
    inferInstanceAs (Decidable (∀ x ∈ s.loaded b, s.StoresFresh (x.1.zip x.2)))
  | .load _ | .clear _ | .dispatch _ | .delivered _ | .clock _ => inferInstanceAs (Decidable True)

end Operations

section Frame

variable {batchSize : Nat} {hasFallback : Bool} {s t : ReplaceableEventLoader} {key : JsString}
variable {event : Event}

/-- The cache holds of every primed key a version that is not older, and no miss is recorded. -/
def Held (s : ReplaceableEventLoader) : Prop :=
  ∀ key, ∀ c ∈ s.floor key, (∃ event, s.cache.cache.get? key = some event ∧
    coordinateOf event = key ∧ c ≤ event.created_at) ∧ s.missLedger.get? key = none

/-- Every load of a primed key found such a version in the cache. -/
def LoadsFresh (s : ReplaceableEventLoader) : Prop :=
  ∀ load ∈ s.loads, ∀ c ∈ load.floor, ∃ event, load.outcome = .resolved (some event) ∧
    coordinateOf event = load.key ∧ c ≤ event.created_at

theorem LoadsFresh.fresh (h : s.LoadsFresh) : s.Fresh := by
  intro load hload c hc
  obtain ⟨event, houtcome, hevent⟩ := h load hload c hc
  refine ⟨event, ?_, hevent⟩
  simp only [resultOf, houtcome]

theorem held_congr (h : s.Held) (hcache : t.cache.cache = s.cache.cache)
    (hledger : t.missLedger = s.missLedger) (hfloor : t.floor = s.floor) : t.Held := by
  intro key c hc
  rw [hcache, hledger]
  exact h key c (hfloor ▸ hc)

theorem held_init : init.Held := fun _ _ hc => nomatch hc

/-- A write keeps the cache fresh when what it writes is fresh. -/
theorem held_install (h : s.Held)
    (hfresh : ∀ c ∈ s.floor key, coordinateOf event = key ∧ c ≤ event.created_at) :
    (s.install key event).Held := by
  intro k c hc
  have hkept : (s.cache.set key event s.now).has k = true ∧ s.floor k = some c := by
    have hfloor : (if (s.cache.set key event s.now).has k then s.floor k else none) = some c := hc
    split_ifs at hfloor with hhas
    exact ⟨hhas, hfloor⟩
  obtain ⟨hhas, hold⟩ := hkept
  obtain ⟨⟨old, hget, hcoord, hle⟩, hmiss⟩ := h k c hold
  refine ⟨?_, hmiss⟩
  by_cases hk : k = key
  · subst hk
    exact ⟨event, LruCache.get?_set_self, hfresh c hold⟩
  · obtain ⟨kept, hnew⟩ := Option.isSome_iff_exists.mp hhas
    obtain rfl : kept = old := by
      have hsame := LruCache.get?_set_of_ne hk hnew
      exact Option.some.inj (hsame.symm.trans hget)
    exact ⟨kept, hnew, hcoord, hle⟩

theorem held_prime (h : s.Held) (hnew : s.NotOlder event) : (s.prime event).Held := by
  have hinstall : (s.install (coordinateOf event) event).Held :=
    held_install h fun c hc => ⟨rfl, hnew c hc⟩
  intro k c hc
  by_cases hk : k = coordinateOf event
  · subst hk
    have hfloor : c = ((s.install (coordinateOf event) event).floor (coordinateOf event)).elim
        event.created_at fun c => max c event.created_at := by
      simpa [prime] using hc.symm
    have hle : c ≤ event.created_at := by
      rw [hfloor]
      cases hold : (s.install (coordinateOf event) event).floor (coordinateOf event) with
      | none => exact Int.le_refl _
      | some old =>
        obtain ⟨kept, hget, -, hkept⟩ := (hinstall _ old hold).1
        have hself : (s.install (coordinateOf event) event).cache.cache.get? (coordinateOf event) =
            some event := LruCache.get?_set_self
        obtain rfl : event = kept := Option.some.inj (hself.symm.trans hget)
        exact Int.max_le.mpr ⟨hkept, Int.le_refl _⟩
    refine ⟨⟨event, LruCache.get?_set_self, rfl, hle⟩, ?_⟩
    simp [prime, OrderedMap.get?_delete]
  · have hc' : c ∈ (s.install (coordinateOf event) event).floor k := by
      simpa [prime, hk] using hc
    obtain ⟨hheld, hmiss⟩ := hinstall k c hc'
    refine ⟨hheld, ?_⟩
    have hother : (s.prime event).missLedger.get? k = s.missLedger.get? k := by
      simp [prime, install, OrderedMap.get?_delete, hk]
    rw [hother]
    exact hmiss

theorem held_clear (h : s.Held) (request : ReplaceableEventRequest) : (s.clear request).Held := by
  intro k c hc
  have hk : k ≠ toKey request := by
    rintro rfl
    simp [clear] at hc
  have hold : c ∈ s.floor k := by simpa [clear, hk] using hc
  obtain ⟨⟨event, hget, hevent⟩, hmiss⟩ := h k c hold
  refine ⟨⟨event, ?_, hevent⟩, ?_⟩
  · simpa [clear, LruCache.get?_delete, hk] using hget
  · simpa [clear, OrderedMap.get?_delete, hk] using hmiss

theorem held_storeValues {entries : List (JsString × Option Event)} (h : s.Held)
    (hfresh : s.StoresFresh entries) : (entries.foldl storeValue s).Held := by
  induction entries generalizing s with
  | nil => exact h
  | cons entry entries ih =>
    obtain ⟨hentry, hrest⟩ := hfresh
    refine ih ?_ hrest
    unfold storeValue
    split
    · exact h
    · rename_i event hvalue
      exact held_install h (hentry event hvalue)

theorem storeValues_loads {entries : List (JsString × Option Event)} :
    (entries.foldl storeValue s).loads = s.loads := by
  induction entries generalizing s with
  | nil => rfl
  | cons entry entries ih =>
    have hentry : (s.storeValue entry).loads = s.loads := by
      unfold storeValue
      split
      · rfl
      · rfl
    exact ih.trans hentry

/-- Recording the outcomes of a batch leaves a key without a miss that it does not miss. -/
theorem recordOutcomes_none {eoseCount : Nat} {resolved : JsString → Option Event}
    {ledger : OrderedMap JsString FailedProfileFetch} {keys : List JsString}
    (hnone : ledger.get? key = none)
    (hkey : key ∈ keys → (parseKey key).kind = 0 ∨ eoseCount = 0 ∨ (resolved key).isSome = true) :
    (keys.foldl (s.recordOutcome eoseCount resolved) ledger).get? key = none := by
  induction keys generalizing ledger with
  | nil => exact hnone
  | cons k keys ih =>
    refine ih ?_ fun hmem => hkey (List.mem_cons_of_mem _ hmem)
    unfold recordOutcome
    split_ifs with hkind hresolved heose
    · exact hnone
    · rw [OrderedMap.get?_delete, hnone, ite_self]
    · have hk : key ≠ k := by
        rintro rfl
        rcases hkey List.mem_cons_self with hzero | hzero | hsome
        · exact hkind hzero
        · omega
        · exact hresolved hsome
      rw [recordFailedProfileFetch, OrderedMap.get?_set_of_ne _ hk]
      exact hnone
    · exact hnone

theorem held_finish (h : s.Held) {b : Nat} {keys : List JsString} {answer : QueryResult}
    (hmisses : s.MissesNone keys answer) : (s.finish b keys answer).Held := by
  intro k c hc
  have hold : c ∈ s.floor k := hc
  obtain ⟨hheld, hmiss⟩ := h k c hold
  refine ⟨hheld, ?_⟩
  exact recordOutcomes_none hmiss fun hmem => hmisses k hmem (Option.isSome_iff_exists.mpr ⟨c, hold⟩)

/-- What a load that finds a primed version, or starts on a key that is not primed, adds. -/
theorem loadsFresh_note {outcome : LoadOutcome} (h : s.LoadsFresh)
    (hnew : ∀ c ∈ s.floor key, ∃ event, outcome = .resolved (some event) ∧
      coordinateOf event = key ∧ c ≤ event.created_at) : (s.note key outcome).LoadsFresh := by
  intro load hload
  rcases List.mem_append.mp hload with hold | hlast
  · exact h load hold
  · obtain rfl := List.mem_singleton.mp hlast
    exact hnew

/-- A place in a batch is no matter of the cache. -/
theorem openBatch_keeps (batchSize : Nat) (s : ReplaceableEventLoader) :
    (s.openBatch batchSize).1.cache = s.cache ∧
    (s.openBatch batchSize).1.missLedger = s.missLedger ∧
    (s.openBatch batchSize).1.floor = s.floor ∧ (s.openBatch batchSize).1.loads = s.loads := by
  simp only [openBatch]
  split
  · exact ⟨rfl, rfl, rfl, rfl⟩
  · split_ifs
    · exact ⟨rfl, rfl, rfl, rfl⟩
    · exact ⟨rfl, rfl, rfl, rfl⟩

/-- The invariant of a run whose steps keep the cache fresh. -/
structure Kept (s : ReplaceableEventLoader) : Prop where
  held : s.Held
  loads : s.LoadsFresh

/-- A step that leaves the cache, the recorded misses and the loads alone keeps the invariant. -/
theorem Kept.congr (h : s.Kept) (hcache : t.cache.cache = s.cache.cache)
    (hledger : t.missLedger = s.missLedger) (hfloor : t.floor = s.floor)
    (hloads : t.loads = s.loads) : t.Kept := by
  refine ⟨held_congr h.held hcache hledger hfloor, ?_⟩
  unfold LoadsFresh
  rw [hloads]
  exact h.loads

theorem Kept.note {outcome : LoadOutcome} (h : s.Kept)
    (hnew : ∀ c ∈ s.floor key, ∃ event, outcome = .resolved (some event) ∧
      coordinateOf event = key ∧ c ≤ event.created_at) : (s.note key outcome).Kept :=
  ⟨held_congr h.held rfl rfl rfl, loadsFresh_note h.loads hnew⟩

theorem Kept.batchLoaderLoad (h : s.Kept) : (s.batchLoaderLoad batchSize key).Kept := by
  have hread : Kept { s with cache := (s.cache.get key s.now).2 } :=
    h.congr LruCache.get_snd_cache rfl rfl rfl
  simp only [ReplaceableEventLoader.batchLoaderLoad]
  split
  · rename_i event hcached
    apply hread.note
    intro c hc
    obtain ⟨⟨held, hget, hevent⟩, -⟩ := h.held key c hc
    rw [LruCache.get_fst, hget] at hcached
    exact ⟨event, rfl, Option.some.inj hcached ▸ hevent⟩
  · rename_i hmissing
    -- a key with a floor is in the cache
    have hfree : ∀ c, c ∉ s.floor key := by
      intro c hc
      obtain ⟨⟨held, hget, -⟩, -⟩ := h.held key c hc
      rw [LruCache.get_fst, hget] at hmissing
      cases hmissing
    split
    · exact hread.note fun c hc => absurd hc (hfree c)
    · obtain ⟨hcache, hledger, hfloor, hloads⟩ :=
        openBatch_keeps batchSize { s with cache := (s.cache.get key s.now).2 }
      apply Kept.note
      · exact hread.congr (congrArg _ hcache) hledger hfloor hloads
      · intro c hc
        exact absurd (hfloor ▸ hc) (hfree c)

theorem Kept.load (h : s.Kept) (request : ReplaceableEventRequest) :
    (s.load batchSize request).Kept := by
  simp only [ReplaceableEventLoader.load]
  split_ifs with hcooling
  · apply h.note
    intro c hc
    rw [(h.held (toKey request) c hc).2] at hcooling
    cases hcooling
  · exact h.batchLoaderLoad

theorem Kept.step {a : LoaderAction} (h : s.Kept) (hguard : s.KeepsFresh hasFallback a)
    (hs : s.step batchSize hasFallback a = some t) : t.Kept := by
  cases a with
  | load request =>
    cases hs
    exact h.load request
  | prime event =>
    cases hs
    exact ⟨held_prime h.held hguard, h.loads⟩
  | publishEvent event results =>
    cases hs
    unfold ReplaceableEventLoader.publishEvent
    split_ifs with hwrites
    · exact ⟨held_prime h.held (hguard hwrites), h.loads⟩
    · exact h
  | clear request =>
    cases hs
    exact ⟨held_clear h.held request, h.loads⟩
  | dispatch b =>
    obtain ⟨x, -, rfl⟩ := Option.map_eq_some_iff.mp hs
    exact h.congr rfl rfl rfl rfl
  | primary b answer =>
    obtain ⟨x, hx, rfl⟩ := Option.map_eq_some_iff.mp hs
    cases answer with
    | none => exact h.congr rfl rfl rfl rfl
    | some primary =>
      dsimp only
      split_ifs with hasks
      · exact h.congr rfl rfl rfl rfl
      · exact ⟨held_finish h.held (hguard x hx primary rfl (by simpa using hasks)), h.loads⟩
  | fallback b answer =>
    obtain ⟨x, hx, rfl⟩ := Option.map_eq_some_iff.mp hs
    cases answer with
    | none => exact h.congr rfl rfl rfl rfl
    | some fallback => exact ⟨held_finish h.held (hguard x hx fallback rfl), h.loads⟩
  | store b =>
    obtain ⟨x, hx, rfl⟩ := Option.map_eq_some_iff.mp hs
    refine ⟨held_congr (held_storeValues h.held (hguard x hx)) rfl rfl rfl, ?_⟩
    intro load hload
    have hloads : ((x.1.zip x.2).foldl storeValue s).loads = s.loads := storeValues_loads
    exact h.loads load (hloads ▸ hload)
  | delivered entry =>
    obtain ⟨x, -, hx⟩ := Option.bind_eq_some_iff.mp hs
    obtain ⟨k, -, hk⟩ := Option.bind_eq_some_iff.mp hx
    split_ifs at hk
    cases hk
    exact h.congr rfl rfl rfl rfl
  | clock now =>
    cases hs
    exact h.congr rfl rfl rfl rfl

/-- In a run whose steps neither prime, nor store, nor record what is older than a primed event,
every load after the prime resolves at once to that event or a newer one. -/
theorem loads_fresh {as : List LoaderAction}
    (hguard : Guarded (step batchSize hasFallback) (KeepsFresh hasFallback) init as)
    (hrun : run (step batchSize hasFallback) init as = some s) : s.Fresh := by
  have hinit : init.Kept := ⟨held_init, fun _ h => absurd h List.not_mem_nil⟩
  have hkept : s.Kept := run_invariant (fun _ _ _ h hg hs => h.step hg hs) hinit hguard hrun
  exact hkept.loads.fresh

end Frame

section Runs

/-- The relay list of one user, as published at a time. -/
def relayListAt (created_at : Int) : Event := ⟨js "e", js "user", created_at, 10002, [], [], []⟩

def relayListRequest : ReplaceableEventRequest := ⟨js "user", 10002, none⟩

/-- A load, then a publication, then the batch of the load with what the relays still had, and
another load. -/
def publishedUnderway (answer : QueryResult) : List LoaderAction :=
  [.load relayListRequest, .dispatch 0, .publishEvent (relayListAt 20) [(js "wss://a", true)],
    .primary 0 (some answer), .fallback 0 (some ⟨[], 1⟩), .store 0, .delivered ⟨0, 0⟩,
    .load relayListRequest]

/-- The same with an answer of the first tier that needs no second. -/
def answeredUnderway (answer : QueryResult) : List LoaderAction :=
  [.load relayListRequest, .dispatch 0, .publishEvent (relayListAt 20) [(js "wss://a", true)],
    .primary 0 (some answer), .store 0, .delivered ⟨0, 0⟩, .load relayListRequest]

theorem loads_fresh_answered_newest : ∃ s,
    run (step 500 true) init (answeredUnderway ⟨[relayListAt 10, relayListAt 20], 1⟩) = some s ∧
      s.Fresh := by
  obtain ⟨s, hs⟩ := Option.isSome_iff_exists.mp (show (run (step 500 true) init
    (answeredUnderway ⟨[relayListAt 10, relayListAt 20], 1⟩)).isSome = true by decide +kernel)
  exact ⟨s, hs, loads_fresh (by decide +kernel) hs⟩

/-- A load that resolved to nothing, or to an event older than a primed one, is not fresh. -/
theorem not_fresh_of_stale {s : ReplaceableEventLoader} {load : LoadRecord} {c : Int}
    {value : Option Event} (hload : load ∈ s.loads) (hfloor : load.floor = some c)
    (hresult : s.resultOf load = some value) (hstale : ∀ event ∈ value, event.created_at < c) :
    ¬ s.Fresh := by
  intro hfresh
  obtain ⟨event, hevent, -, hle⟩ := hfresh load hload c hfloor
  obtain rfl : value = some event := Option.some.inj (hresult.symm.trans hevent)
  have hlt := hstale event rfl
  omega

/-- A batch that was underway when the user published overwrites the new version with the old one,
or records a miss for it. -/
theorem loads_fresh_fails_underway :
    (∃ s, run (step 500 true) init (answeredUnderway ⟨[relayListAt 10], 1⟩) = some s ∧ ¬ s.Fresh ∧
      ∃ load ∈ s.loads, load.floor = some 20 ∧
        s.resultOf load = some (some (relayListAt 10))) ∧
    ∃ s, run (step 500 true) init (publishedUnderway ⟨[], 1⟩) = some s ∧ ¬ s.Fresh ∧
      ∃ load ∈ s.loads, load.floor = some 20 ∧ s.resultOf load = some none := by
  constructor
  · have hstale : (run (step 500 true) init (answeredUnderway ⟨[relayListAt 10], 1⟩)).any
        (fun s => s.loads.any fun load =>
          load.floor = some 20 ∧ s.resultOf load = some (some (relayListAt 10))) = true := by
      decide +kernel
    obtain ⟨s, hrun, hs⟩ := (Option.any_eq_true _ _).mp hstale
    obtain ⟨load, hload, hl⟩ := List.any_eq_true.mp hs
    obtain ⟨hfloor, hresult⟩ := of_decide_eq_true hl
    refine ⟨s, hrun, not_fresh_of_stale hload hfloor hresult ?_, load, hload, hfloor, hresult⟩
    exact fun event hevent => Option.some.inj hevent ▸ by decide
  · have hmissed : (run (step 500 true) init (publishedUnderway ⟨[], 1⟩)).any
        (fun s => s.loads.any fun load =>
          load.floor = some 20 ∧ s.resultOf load = some none) = true := by
      decide +kernel
    obtain ⟨s, hrun, hs⟩ := (Option.any_eq_true _ _).mp hmissed
    obtain ⟨load, hload, hl⟩ := List.any_eq_true.mp hs
    obtain ⟨hfloor, hresult⟩ := of_decide_eq_true hl
    refine ⟨s, hrun, not_fresh_of_stale hload hfloor hresult ?_, load, hload, hfloor, hresult⟩
    exact fun event hevent => nomatch hevent

end Runs

end ReplaceableEventLoader

end LivelierBridge.Nostr
