import LivelierBridge.Framework.Run
import LivelierBridge.Framework.StorageCell
import LivelierBridge.Framework.OrderedMap
import LivelierBridge.Js.String

namespace LivelierBridge.Nostr

open Framework Js

def PROFILE_MISS_TTL_MS : Nat := 12 * 60 * 60 * 1000
def SAVE_DEBOUNCE_MS : Nat := 500

/-- The misses by pubkey, each with the time of its record. -/
abbrev Misses := OrderedMap JsString Nat

/-- `now - missedAt < PROFILE_MISS_TTL_MS` -/
def withinTTL (now missedAt : Nat) : Bool := now - missedAt < PROFILE_MISS_TTL_MS

/-- The test of the hydration: an entry without a time counts as expired. -/
def survives (now missedAt : Nat) : Bool := missedAt ≠ 0 && withinTTL now missedAt

/-- Where the hydration of a session waits; it keeps the time of its call. -/
inductive MissHydration where
  | asking (called : Nat)
  /-- `getItem` was called; what it found, once the read has taken effect. -/
  | reading (called : Nat) (found : Option (Option Misses))
  /-- The pubkeys that it returned. -/
  | finished (called : Nat) (alive : List JsString)

/-- The cache of one session with its file. -/
structure ProfileMissCache where
  misses : Misses
  hydration : MissHydration
  /-- When the debounced save is due. -/
  saveDebounceTimer : Option Nat
  /-- The saves that wait for `isAvailable`. -/
  saves : Nat
  storage : StorageCell (Option Misses)
  now : Nat
  /-- The calls of `recordMiss` of all sessions, and what the calls of all sessions amount to; no
  code reads either. -/
  recorded : List (JsString × Nat)
  ledger : Misses

inductive MissAction where
  | hydrateAvailable (isAvailable : Bool)
  | hydrateRead
  /-- The read throws, or what it found is no JSON. -/
  | hydrateFails
  | hydrated
  | recordMiss (pubkey : JsString)
  | clearMiss (pubkey : JsString)
  | hasMiss (pubkey : JsString)
  | timer
  | saveAvailable (isAvailable : Bool)
  /-- The write at this place among those without effect takes effect. -/
  | takesEffect (i : Nat)
  | completes
  | rejects (i : Nat)
  /-- The process ends and the next session begins. -/
  | restart
  | tick (ms : Nat)

namespace ProfileMissCache

variable (s : ProfileMissCache)

/-- A session that begins on a file. -/
def session (now : Nat) (stored : Option Misses) (recorded : List (JsString × Nat))
    (ledger : Misses) : ProfileMissCache :=
  ⟨.empty, .asking now, none, 0, ⟨stored, [], 0⟩, now, recorded, ledger⟩

/-- The first session of an installation. -/
def init (now : Nat) : ProfileMissCache := session now none [] .empty

def scheduleSave : ProfileMissCache := { s with saveDebounceTimer := some (s.now + SAVE_DEBOUNCE_MS) }

def recordMiss (pubkey : JsString) : ProfileMissCache :=
  scheduleSave
    { s with
      misses := s.misses.set pubkey s.now
      recorded := s.recorded ++ [(pubkey, s.now)]
      ledger := s.ledger.set pubkey s.now }

def clearMiss (pubkey : JsString) : ProfileMissCache :=
  let s := { s with ledger := s.ledger.delete pubkey }
  if s.misses.has pubkey then scheduleSave { s with misses := s.misses.delete pubkey } else s

/-- The answer and the cache afterwards: an entry that has expired is dropped. -/
def hasMiss (pubkey : JsString) : Bool × ProfileMissCache :=
  match s.misses.get? pubkey with
  | none => (false, s)
  | some missedAt =>
    if withinTTL s.now missedAt then (true, s)
    else (false, scheduleSave { s with misses := s.misses.delete pubkey })

/-- The pubkeys of the misses that survive, in order. -/
def alive (called : Nat) (found : Misses) : List JsString :=
  (found.entries.filter fun e => survives called e.2).map Prod.fst

/-- The rest of `hydrate` behind its reads. -/
def hydrate (called : Nat) (found : Option Misses) : ProfileMissCache :=
  match found with
  | none => { s with hydration := .finished called [] }
  | some parsed =>
    let alive := alive called parsed
    let s := { s with
      misses := s.misses.overlay (survives called) parsed
      hydration := .finished called alive }
    if alive.length ≠ parsed.size then s.scheduleSave else s

/-- The rest of a save: the map as it is now goes out. -/
def save (isAvailable : Bool) : ProfileMissCache :=
  { s with
    saves := s.saves - 1
    storage := if isAvailable then s.storage.call (some s.misses) else s.storage }

def step : MissAction → Option ProfileMissCache
  | .hydrateAvailable isAvailable =>
    match s.hydration with
    | .asking called =>
      some { s with
        hydration := if isAvailable then .reading called none else .finished called [] }
    | _ => none
  | .hydrateRead =>
    match s.hydration with
    | .reading called none =>
      some { s with hydration := .reading called (some s.storage.stored) }
    | _ => none
  | .hydrateFails =>
    match s.hydration with
    | .reading called _ => some { s with hydration := .finished called [] }
    | _ => none
  | .hydrated =>
    match s.hydration with
    | .reading called (some found) => some (s.hydrate called found)
    | _ => none
  | .recordMiss pubkey => some (s.recordMiss pubkey)
  | .clearMiss pubkey => some (s.clearMiss pubkey)
  | .hasMiss pubkey => some (s.hasMiss pubkey).2
  | .timer =>
    match s.saveDebounceTimer with
    | some due =>
      if due ≤ s.now then some { s with saveDebounceTimer := none, saves := s.saves + 1 } else none
    | none => none
  | .saveAvailable isAvailable => if s.saves = 0 then none else some (s.save isAvailable)
  | .takesEffect i => (s.storage.effect i).map fun storage => { s with storage }
  | .completes => s.storage.complete.map fun storage => { s with storage }
  | .rejects i => (s.storage.reject i).map fun storage => { s with storage }
  | .restart => some (session s.now s.storage.stored s.recorded s.ledger)
  | .tick ms => some { s with now := s.now + ms }

end ProfileMissCache

end LivelierBridge.Nostr
