import LivelierBridge.Js.Stringify
import LivelierBridge.Js.Text
import LivelierBridge.Nostr.ProfileRequests

namespace LivelierBridge.Nostr

open Js

/-- Replaceable per pubkey, kind and `d` tag. -/
def isAddressableKind (kind : Int) : Bool := 30000 ≤ kind && kind < 40000

structure ReplaceableEventRequest where
  pubkey : JsString
  kind : Int
  d : Option JsString

/-- A request as the text that keys the cache, the loads in flight and the recorded misses. -/
def toKey (r : ReplaceableEventRequest) : JsString :=
  intToString 10 r.kind ++ js ":" ++ r.pubkey ++ js ":" ++ r.d.getD []

/-- `Number(s)` for the text of an integer. -/
def numberOfText : JsString → Int
  | 45 :: digits => -(digitsValue digits : Int)
  | digits => digitsValue digits

/-- A `d` may itself have colons: only the first two segments are cut off. -/
def parseKey (key : JsString) : ReplaceableEventRequest :=
  let parts := split (js ":") key
  let d := join (js ":") (parts.drop 2)
  { pubkey := (parts.drop 1).headD []
    kind := numberOfText (parts.headD [])
    d := if d = [] then none else some d }

/-- The coordinate under which an event is primed and looked up. -/
def coordinateOf (event : Event) : JsString :=
  toKey ⟨event.pubkey, event.kind,
    if isAddressableKind event.kind then tagValue event.tags (js "d") else none⟩

def kindPubkey (kind : Int) (pubkey : JsString) : JsString := intToString 10 kind ++ js ":" ++ pubkey

/-- The entry of `key` in a map of the newest events under `name`. -/
def newestUnder (name : Event → JsString) (key : JsString) (events : List Event) : Option Event :=
  (events.filter fun e => name e = key).foldl newer none

/-- `buildNewestMaps` and `resolveRequest`: an addressable request without a `d` takes any. -/
def resolveRequest (key : JsString) (events : List Event) : Option Event :=
  let request := parseKey key
  match newestUnder coordinateOf key events with
  | some exact => some exact
  | none =>
    if isAddressableKind request.kind && request.d.isNone then
      newestUnder (fun e => kindPubkey e.kind e.pubkey) (kindPubkey request.kind request.pubkey)
        events
    else none

theorem newestUnder_mem {name : Event → JsString} {key : JsString} {events : List Event} {e : Event}
    (h : newestUnder name key events = some e) : e ∈ events ∧ name e = key := by
  rcases foldl_newer_mem h with hnone | hmem
  · cases hnone
  · simpa using List.mem_filter.mp hmem

/-- Only an addressable request without a `d` resolves to an event of another coordinate. -/
theorem resolveRequest_coordinate {key : JsString} {events : List Event} {e : Event}
    (h : resolveRequest key events = some e)
    (hkey : isAddressableKind (parseKey key).kind = false ∨ (parseKey key).d.isSome = true) :
    coordinateOf e = key := by
  unfold resolveRequest at h
  dsimp only at h
  split at h
  · rename_i exact' hexact
    exact Option.some.inj h ▸ (newestUnder_mem hexact).2
  · split_ifs at h with hloose
    obtain ⟨haddr, hd⟩ := Bool.and_eq_true_iff.mp hloose
    rcases hkey with hkind | hsome
    · simp [hkind] at haddr
    · simp [Option.isNone_iff_eq_none.mp hd] at hsome

section RoundTrip

theorem digitsValue_concat (s : JsString) (u : UInt16) :
    digitsValue (s ++ [u]) = 10 * digitsValue s + (u.toNat - 48) := by
  simp [digitsValue]

theorem hexDigit_toNat : ∀ n < 10, (hexDigit n).toNat = 48 + n := by decide

theorem isDigit_hexDigit : ∀ n < 10, isDigit (hexDigit n) = true := by decide

theorem digitsValue_natToString {fuel n : Nat} (h : n < fuel) :
    digitsValue (natToString 10 fuel n) = n := by
  induction fuel generalizing n with
  | zero => exact absurd h (Nat.not_lt_zero n)
  | succ fuel ih =>
    unfold natToString
    split_ifs with hn
    · have hdigit := hexDigit_toNat n hn
      simp [digitsValue, hdigit]
    · have hdigit := hexDigit_toNat (n % 10) (Nat.mod_lt n (by decide))
      rw [digitsValue_concat, ih (by omega), hdigit]
      omega

theorem natToString_digits (fuel n : Nat) : ∀ u ∈ natToString 10 fuel n, isDigit u = true := by
  induction fuel generalizing n with
  | zero => exact fun _ h => absurd h List.not_mem_nil
  | succ fuel ih =>
    intro u hu
    unfold natToString at hu
    split_ifs at hu with hn
    · exact List.mem_singleton.mp hu ▸ isDigit_hexDigit n hn
    · rcases List.mem_append.mp hu with hinit | hlast
      · exact ih (n / 10) u hinit
      · exact List.mem_singleton.mp hlast ▸ isDigit_hexDigit (n % 10) (Nat.mod_lt n (by decide))

theorem numberOfText_intToString (n : Int) : numberOfText (intToString 10 n) = n := by
  have hvalue : digitsValue (natToString 10 (n.natAbs + 1) n.natAbs) = n.natAbs :=
    digitsValue_natToString (Nat.lt_succ_self _)
  have hdigits := natToString_digits (n.natAbs + 1) n.natAbs
  obtain ⟨ds, hds⟩ : ∃ ds, natToString 10 (n.natAbs + 1) n.natAbs = ds := ⟨_, rfl⟩
  unfold intToString
  rw [hds] at hvalue hdigits ⊢
  split_ifs with hn
  · change -(digitsValue ds : Int) = n
    omega
  · have hplain : numberOfText ([] ++ ds) = digitsValue ds := by
      unfold numberOfText
      split
      · rename_i ds' hminus
        have hmem : (45 : UInt16) ∈ ds := by
          rw [List.nil_append] at hminus
          simp [hminus]
        exact absurd (hdigits 45 hmem) (by decide)
      · rfl
    rw [hplain]
    omega

theorem colon_notMem_intToString (n : Int) : (58 : UInt16) ∉ intToString 10 n := by
  intro h
  rcases List.mem_append.mp h with hsign | hdigit
  · split_ifs at hsign
    · exact absurd hsign (by decide)
    · exact absurd hsign List.not_mem_nil
  · exact absurd (natToString_digits _ _ _ hdigit) (by decide)

variable {c : UInt16} {part xs ys s : JsString}

theorem splitFrom_append (h : c ∉ xs) :
    splitFrom [c] 0 part (xs ++ c :: ys) = (part.reverse ++ xs) :: splitFrom [c] 0 [] ys := by
  induction xs generalizing part with
  | nil => simp [splitFrom]
  | cons x xs ih =>
    obtain ⟨hx, hxs⟩ := not_or.mp (List.mem_cons.not.mp h)
    simp [splitFrom, hx, ih hxs]

theorem splitFrom_ne_nil : splitFrom [c] 0 part s ≠ [] := by
  induction s generalizing part with
  | nil => simp [splitFrom]
  | cons u us ih =>
    unfold splitFrom
    split_ifs
    · exact List.cons_ne_nil _ _
    · exact ih

theorem join_cons {p sep : JsString} {ps : List JsString} (h : ps ≠ []) :
    join sep (p :: ps) = p ++ sep ++ join sep ps := by
  cases ps with
  | nil => exact absurd rfl h
  | cons q qs => rfl

/-- Joining what a split cut gives the text back. -/
theorem join_splitFrom : join [c] (splitFrom [c] 0 part s) = part.reverse ++ s := by
  induction s generalizing part with
  | nil => simp [splitFrom, join]
  | cons u us ih =>
    unfold splitFrom
    split_ifs with hu
    · obtain rfl : c = u := by simpa using hu
      have hrest : join [c] (splitFrom [c] 0 [] us) = us := by simpa using @ih []
      calc join [c] (part.reverse :: splitFrom [c] 0 [] us)
          = part.reverse ++ [c] ++ join [c] (splitFrom [c] 0 [] us) := join_cons splitFrom_ne_nil
        _ = part.reverse ++ c :: us := by simp [hrest]
    · simp [ih]

theorem toKey_eq (r : ReplaceableEventRequest) :
    toKey r = intToString 10 r.kind ++ 58 :: (r.pubkey ++ 58 :: r.d.getD []) := by
  simp [toKey, show js ":" = [58] from rfl]

/-- A key reads back as the request it was made of; an empty `d` reads back as none. -/
theorem parseKey_toKey {r : ReplaceableEventRequest} (h : (58 : UInt16) ∉ r.pubkey) :
    parseKey (toKey r) = { r with d := r.d.filter fun d => d ≠ [] } := by
  have hsplit : split (js ":") (toKey r) =
      intToString 10 r.kind :: r.pubkey :: split (js ":") (r.d.getD []) := by
    rw [toKey_eq]
    calc splitFrom [58] 0 [] (intToString 10 r.kind ++ 58 :: (r.pubkey ++ 58 :: r.d.getD []))
        = intToString 10 r.kind :: splitFrom [58] 0 [] (r.pubkey ++ 58 :: r.d.getD []) :=
          splitFrom_append (colon_notMem_intToString r.kind)
      _ = intToString 10 r.kind :: r.pubkey :: splitFrom [58] 0 [] (r.d.getD []) := by
          rw [splitFrom_append h, List.reverse_nil, List.nil_append]
  have hd : join (js ":") (split (js ":") (r.d.getD [])) = r.d.getD [] := join_splitFrom
  unfold parseKey
  simp only [hsplit, List.drop_succ_cons, List.drop_zero, List.headD_cons, hd,
    numberOfText_intToString]
  congr 1
  cases r.d with
  | none => rfl
  | some d =>
    by_cases hempty : d = []
    · simp [hempty, Option.filter]
    · simp [hempty, Option.filter]

end RoundTrip

section ProfileKeys

/-- The key of a pubkey's kind-0 event. -/
def profileKey (pubkey : JsString) : JsString := toKey ⟨pubkey, 0, none⟩

theorem profileKey_injective {p q : JsString} (h : profileKey p = profileKey q) : p = q := by
  rw [profileKey, profileKey, toKey_eq, toKey_eq] at h
  have hcut := (List.cons.inj (List.append_cancel_left h)).2
  exact List.append_cancel_right hcut

theorem parseKey_kind (r : ReplaceableEventRequest) : (parseKey (toKey r)).kind = r.kind := by
  have hsplit : split (js ":") (toKey r) =
      intToString 10 r.kind :: splitFrom [58] 0 [] (r.pubkey ++ 58 :: r.d.getD []) := by
    rw [toKey_eq]
    exact splitFrom_append (colon_notMem_intToString r.kind)
  unfold parseKey
  simp only [hsplit, List.headD_cons, numberOfText_intToString]

theorem profileKey_plain (pubkey : JsString) :
    isAddressableKind (parseKey (profileKey pubkey)).kind = false := by
  rw [profileKey, parseKey_kind]
  rfl

/-- Only the kind-0 events of a pubkey have its key for their coordinate. -/
theorem coordinate_profileKey {event : Event} {pubkey : JsString}
    (h : coordinateOf event = profileKey pubkey) : event.kind = 0 ∧ event.pubkey = pubkey := by
  have hread : (parseKey (coordinateOf event)).kind = event.kind := parseKey_kind _
  rw [h, profileKey, parseKey_kind] at hread
  have hkind : event.kind = 0 := hread.symm
  refine ⟨hkind, ?_⟩
  have hkey : coordinateOf event = profileKey event.pubkey := by
    unfold coordinateOf profileKey
    rw [hkind]
    rfl
  exact profileKey_injective (hkey.symm.trans h)

end ProfileKeys

end LivelierBridge.Nostr
