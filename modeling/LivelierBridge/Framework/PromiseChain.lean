import Mathlib.Data.List.Basic

namespace LivelierBridge.Framework

universe u v

variable {α : Type u} {β : Type v}

abbrev PromiseId := Nat

/-- A callback that `then` registered on the promise `after`; `promise` is what `then` returned,
and it settles with the callback. -/
structure Reaction (α : Type u) (β : Type v) where
  after : PromiseId
  promise : PromiseId
  job : α
  /-- Where the callback is suspended, once it was called. -/
  running : Option β

/-- A variable that holds a promise, first a resolved one, and is extended by
`x = x.then(…)`. Callbacks that settle the promise whatever happens in them. -/
structure Chain (α : Type u) (β : Type v) where
  last : PromiseId
  made : PromiseId
  settled : List PromiseId
  reactions : List (Reaction α β)

namespace Chain

/-- `Promise.resolve()` -/
def new : Chain α β := ⟨0, 1, [0], []⟩

def extend (c : Chain α β) (job : α) : Chain α β :=
  { c with
    last := c.made
    made := c.made + 1
    reactions := c.reactions ++ [⟨c.last, c.made, job, none⟩] }

def find (c : Chain α β) (p : PromiseId) : Option (Reaction α β) :=
  c.reactions.find? fun r => r.promise = p

/-- The callback may go on: it was called, or the promise before it has settled. -/
def Ready (c : Chain α β) (r : Reaction α β) : Prop := r.running = none → r.after ∈ c.settled

instance (c : Chain α β) (r : Reaction α β) : Decidable (c.Ready r) :=
  match h : r.running with
  | none => decidable_of_iff (r.after ∈ c.settled) ⟨fun hs _ => hs, fun hr => hr h⟩
  | some _ => .isTrue fun hn => by rw [h] at hn; cases hn

/-- The callback of `p` awaits something, or it has ended. -/
def goOn (c : Chain α β) (p : PromiseId) : Option β → Chain α β
  | some b => { c with
      reactions := c.reactions.map fun r => if r.promise = p then { r with running := some b } else r }
  | none => { c with
      settled := p :: c.settled
      reactions := c.reactions.filter fun r => r.promise ≠ p }

/-- The callback that was called and has not ended. -/
def active (c : Chain α β) : Option (α × β) :=
  c.reactions.head?.bind fun r => r.running.map fun b => (r.job, b)

/-- The jobs whose callback was not called yet. -/
def waiting (c : Chain α β) : List α :=
  (c.reactions.filter fun r => r.running.isNone).map Reaction.job

/-- Each reaction stands on the promise of the one before it. -/
def Follows : PromiseId → List (Reaction α β) → PromiseId → Prop
  | p, [], last => p = last
  | p, r :: rs, last => r.after = p ∧ p < r.promise ∧ Follows r.promise rs last

/-- The reactions form one chain behind the last settled promise, and at most the first was
called. -/
structure Linked (c : Chain α β) : Prop where
  chain : ∃ p ∈ c.settled, (∀ q ∈ c.settled, q ≤ p) ∧ Follows p c.reactions c.last
  fresh : c.last < c.made
  queued : ∀ r ∈ c.reactions.tail, r.running = none
  covered : ∀ p < c.made, p ∈ c.settled ∨ ∃ r ∈ c.reactions, r.promise = p

theorem linked_new : (new : Chain α β).Linked where
  chain := ⟨0, List.mem_cons_self, by simp [new], rfl⟩
  fresh := Nat.zero_lt_one
  queued := by simp [new]
  covered := by simp [new]

theorem Follows.concat {rs : List (Reaction α β)} {p last : PromiseId} (h : Follows p rs last)
    {r : Reaction α β} (hr : r.after = last) (hlt : last < r.promise) :
    Follows p (rs ++ [r]) r.promise := by
  induction rs generalizing p with
  | nil =>
    obtain rfl : p = last := h
    exact ⟨hr, hlt, rfl⟩
  | cons s rs ih => exact ⟨h.1, h.2.1, ih h.2.2⟩

theorem Follows.lt_promise {rs : List (Reaction α β)} {p last : PromiseId}
    (h : Follows p rs last) : ∀ r ∈ rs, p < r.promise ∧ r.promise ≤ last := by
  induction rs generalizing p with
  | nil => simp
  | cons s rs ih =>
    have hlast : s.promise ≤ last := by
      cases rs with
      | nil => exact Nat.le_of_eq h.2.2
      | cons s' rs =>
        have h' := ih h.2.2 s' List.mem_cons_self
        exact Nat.le_trans (Nat.le_of_lt h'.1) h'.2
    intro r hr
    rcases List.mem_cons.mp hr with rfl | hr
    · exact ⟨h.2.1, hlast⟩
    · have h' := ih h.2.2 r hr
      exact ⟨Nat.lt_trans h.2.1 h'.1, h'.2⟩

theorem Follows.last_le {rs : List (Reaction α β)} {p last : PromiseId} (h : Follows p rs last) :
    p ≤ last := by
  cases rs with
  | nil => exact Nat.le_of_eq h
  | cons r rs =>
    have hr := h.lt_promise r List.mem_cons_self
    exact Nat.le_trans (Nat.le_of_lt hr.1) hr.2

/-- Promises settle in the order they were made. -/
theorem Linked.settled_lt {c : Chain α β} (h : c.Linked) {q : PromiseId} (hq : q ∈ c.settled) :
    (∀ r ∈ c.reactions, q < r.promise) ∧ q < c.made := by
  obtain ⟨p, -, hmax, hfollows⟩ := h.chain
  refine ⟨fun r hr => Nat.lt_of_le_of_lt (hmax q hq) (hfollows.lt_promise r hr).1, ?_⟩
  exact Nat.lt_of_le_of_lt (Nat.le_trans (hmax q hq) hfollows.last_le) h.fresh

theorem Linked.pending {c : Chain α β} (h : c.Linked) {r : Reaction α β} (hr : r ∈ c.reactions) :
    r.promise ∉ c.settled := fun hs => Nat.lt_irrefl _ ((h.settled_lt hs).1 r hr)

/-- Behind the first reaction stands nothing but promises of other reactions. -/
theorem Follows.after_mem {rs : List (Reaction α β)} {p last : PromiseId} (h : Follows p rs last)
    {r : Reaction α β} (hr : r ∈ rs.tail) : ∃ s ∈ rs, s.promise = r.after := by
  induction rs generalizing p with
  | nil => cases hr
  | cons s rs ih =>
    cases rs with
    | nil => cases hr
    | cons s' rs =>
      rcases List.mem_cons.mp hr with rfl | hr
      · exact ⟨s, List.mem_cons_self, h.2.2.1.symm⟩
      · obtain ⟨t, ht, hp⟩ := ih h.2.2 hr
        exact ⟨t, List.mem_cons_of_mem _ ht, hp⟩

theorem find_eq_some {c : Chain α β} {p : PromiseId} {r : Reaction α β} (h : c.find p = some r) :
    r ∈ c.reactions ∧ r.promise = p :=
  ⟨List.mem_of_find?_eq_some h, by simpa using List.find?_some h⟩

/-- Only the first reaction can go on. -/
theorem Linked.head {c : Chain α β} (h : c.Linked) {p : PromiseId} {r : Reaction α β}
    (hr : c.find p = some r) (hready : c.Ready r) : ∃ rs, c.reactions = r :: rs := by
  obtain ⟨hmem, -⟩ := find_eq_some hr
  obtain ⟨s, rs, hs⟩ : ∃ s rs, c.reactions = s :: rs := List.exists_cons_of_ne_nil (by
    rintro hnil
    simp [hnil] at hmem)
  rw [hs] at hmem
  rcases List.mem_cons.mp hmem with rfl | htail
  · exact ⟨rs, hs⟩
  · have htail' : r ∈ c.reactions.tail := by simpa [hs] using htail
    obtain ⟨q, -, -, hfollows⟩ := h.chain
    obtain ⟨t, ht, hp⟩ := hfollows.after_mem htail'
    exact absurd (hp ▸ hready (h.queued r htail')) (h.pending ht)

/-- Two callbacks that may go on are one. -/
theorem Linked.ready_unique {c : Chain α β} (h : c.Linked) {p p' : PromiseId}
    {r r' : Reaction α β} (hr : c.find p = some r) (hready : c.Ready r)
    (hr' : c.find p' = some r') (hready' : c.Ready r') : p = p' ∧ r = r' := by
  obtain ⟨rs, hc⟩ := h.head hr hready
  obtain ⟨rs', hc'⟩ := h.head hr' hready'
  obtain ⟨rfl, -⟩ := List.cons.inj (hc.symm.trans hc')
  exact ⟨(find_eq_some hr).2.symm.trans (find_eq_some hr').2, rfl⟩

theorem Linked.extend {c : Chain α β} (h : c.Linked) (job : α) : (c.extend job).Linked := by
  obtain ⟨p, hp, hmax, hfollows⟩ := h.chain
  refine ⟨⟨p, hp, hmax, hfollows.concat rfl h.fresh⟩, Nat.lt_succ_self _, ?_, ?_⟩
  · intro r hr
    have hsub : r ∈ c.reactions.tail ∨ r = ⟨c.last, c.made, job, none⟩ := by
      cases hc : c.reactions with
      | nil => simp [Chain.extend, hc] at hr
      | cons s rs => simpa [Chain.extend, hc] using hr
    rcases hsub with hr | rfl
    · exact h.queued r hr
    · rfl
  · intro q hq
    rcases Nat.lt_succ_iff_lt_or_eq.mp hq with hq | rfl
    · refine (h.covered q hq).imp_right fun ⟨r, hr, hrq⟩ => ?_
      exact ⟨r, List.mem_append_left _ hr, hrq⟩
    · exact .inr ⟨_, List.mem_append_right _ (List.mem_singleton.mpr rfl), rfl⟩

/-- The other reactions have promises of their own. -/
theorem Linked.ne_promise {c : Chain α β} (h : c.Linked) {r : Reaction α β}
    {rs : List (Reaction α β)} (hc : c.reactions = r :: rs) : ∀ s ∈ rs, s.promise ≠ r.promise := by
  obtain ⟨p, -, -, hfollows⟩ := h.chain
  rw [hc] at hfollows
  exact fun s hs => Nat.ne_of_gt (hfollows.2.2.lt_promise s hs).1

theorem Linked.reactions_suspend {c : Chain α β} (h : c.Linked) {r : Reaction α β}
    {rs : List (Reaction α β)} (hc : c.reactions = r :: rs) (b : β) :
    (c.goOn r.promise (some b)).reactions = { r with running := some b } :: rs := by
  have hrs : rs.map (fun s => if s.promise = r.promise then { s with running := some b } else s) =
      rs := by
    conv_rhs => rw [← List.map_id rs]
    exact List.map_congr_left fun s hs => if_neg (h.ne_promise hc s hs)
  simp [goOn, hc, hrs]

theorem Linked.reactions_settle {c : Chain α β} (h : c.Linked) {r : Reaction α β}
    {rs : List (Reaction α β)} (hc : c.reactions = r :: rs) :
    (c.goOn r.promise none).reactions = rs := by
  have hrs : rs.filter (fun s => s.promise ≠ r.promise) = rs :=
    List.filter_eq_self.mpr fun s hs => by simpa using h.ne_promise hc s hs
  simp only [goOn, hc]
  rw [List.filter_cons_of_neg (by simp), hrs]

/-- A callback that may go on does, and the chain stays one. -/
theorem Linked.goOn {c : Chain α β} (h : c.Linked) {p : PromiseId} {r : Reaction α β}
    (hr : c.find p = some r) (hready : c.Ready r) (next : Option β) : (c.goOn p next).Linked := by
  obtain ⟨rs, hc⟩ := h.head hr hready
  obtain ⟨-, rfl⟩ := find_eq_some hr
  obtain ⟨q, hq, hmax, hfollows⟩ := h.chain
  have hqueued : ∀ s ∈ rs, s.running = none := by simpa [hc] using h.queued
  rw [hc] at hfollows
  cases next with
  | some b =>
    have hreactions := h.reactions_suspend hc b
    refine ⟨⟨q, hq, hmax, hreactions ▸ hfollows⟩, h.fresh, hreactions ▸ hqueued, ?_⟩
    intro x hx
    refine (h.covered x hx).imp_right fun ⟨s, hs, hsx⟩ => ?_
    rw [hreactions]
    rw [hc] at hs
    rcases List.mem_cons.mp hs with rfl | hs
    · exact ⟨_, List.mem_cons_self, hsx⟩
    · exact ⟨s, List.mem_cons_of_mem _ hs, hsx⟩
  | none =>
    have hreactions := h.reactions_settle hc
    have hlt : ∀ x ∈ r.promise :: c.settled, x ≤ r.promise := by
      intro x hx
      rcases List.mem_cons.mp hx with rfl | hx
      · exact Nat.le_refl _
      · exact Nat.le_of_lt (Nat.lt_of_le_of_lt (hmax x hx) hfollows.2.1)
    refine ⟨⟨r.promise, List.mem_cons_self, hlt, hreactions ▸ hfollows.2.2⟩, h.fresh, ?_, ?_⟩
    · rw [hreactions]
      exact fun s hs => hqueued s (List.mem_of_mem_tail hs)
    · intro x hx
      rw [hreactions]
      rcases h.covered x hx with hx | ⟨s, hs, hsx⟩
      · exact .inl (List.mem_cons_of_mem _ hx)
      · rw [hc] at hs
        rcases List.mem_cons.mp hs with rfl | hs
        · exact .inl (hsx ▸ List.mem_cons_self)
        · exact .inr ⟨s, hs, hsx⟩

/-- When a callback goes on, every promise made before its own has settled. -/
theorem Linked.settled_before {c : Chain α β} (h : c.Linked) {p : PromiseId} {r : Reaction α β}
    (hr : c.find p = some r) (hready : c.Ready r) : ∀ q < p, q ∈ c.settled := by
  obtain ⟨rs, hc⟩ := h.head hr hready
  obtain ⟨hmem, rfl⟩ := find_eq_some hr
  obtain ⟨first, -, -, hfollows⟩ := h.chain
  have hlast : r.promise < c.made :=
    Nat.lt_of_le_of_lt (hfollows.lt_promise r hmem).2 h.fresh
  intro q hq
  rcases h.covered q (Nat.lt_trans hq hlast) with hs | ⟨s, hs, rfl⟩
  · exact hs
  · rw [hc] at hs hfollows
    rcases List.mem_cons.mp hs with rfl | hs
    · exact absurd hq (Nat.lt_irrefl _)
    · exact absurd hq (Nat.lt_asymm (hfollows.2.2.lt_promise s hs).1)

theorem goOn_made (c : Chain α β) (p : PromiseId) (next : Option β) :
    (c.goOn p next).made = c.made := by
  cases next <;> rfl

theorem settled_goOn {c : Chain α β} (p : PromiseId) (next : Option β) {q : PromiseId}
    (hq : q ∈ c.settled) : q ∈ (c.goOn p next).settled := by
  cases next with
  | some b => exact hq
  | none => exact List.mem_cons_of_mem _ hq

theorem mem_goOn {c : Chain α β} {p : PromiseId} {next : Option β} {r : Reaction α β}
    (hr : r ∈ (c.goOn p next).reactions) : ∃ s ∈ c.reactions, s.promise = r.promise := by
  cases next with
  | some b =>
    obtain ⟨s, hs, rfl⟩ := List.mem_map.mp hr
    exact ⟨s, hs, by split <;> rfl⟩
  | none => exact ⟨r, List.mem_of_mem_filter hr, rfl⟩

theorem Linked.find_suspend {c : Chain α β} (h : c.Linked) {p : PromiseId} {r : Reaction α β}
    (hr : c.find p = some r) (hready : c.Ready r) (b : β) :
    (c.goOn p (some b)).find p = some { r with running := some b } := by
  obtain ⟨rs, hc⟩ := h.head hr hready
  obtain ⟨-, rfl⟩ := find_eq_some hr
  simp [find, h.reactions_suspend hc b]

theorem find_extend {c : Chain α β} {p : PromiseId} {r : Reaction α β} (hr : c.find p = some r)
    (job : α) : (c.extend job).find p = some r := by
  rw [find, extend, List.find?_append, show c.reactions.find? _ = some r from hr]
  rfl

theorem find_of_extend {c : Chain α β} {job : α} {q : PromiseId} {r : Reaction α β}
    (hr : (c.extend job).find q = some r) : c.find q = some r ∨ r.running = none := by
  rw [find, extend, List.find?_append] at hr
  cases hc : c.reactions.find? fun r => r.promise = q with
  | some r' => exact .inl (by simpa [hc, find] using hr)
  | none =>
    rw [hc, Option.none_or] at hr
    obtain rfl : r = _ := by simpa using List.mem_of_find?_eq_some hr
    exact .inr rfl

theorem find_of_goOn {c : Chain α β} {p : PromiseId} {next : Option β} {q : PromiseId}
    {r : Reaction α β} (hr : (c.goOn p next).find q = some r) :
    c.find q = some r ∨ (q = p ∧ r.running = next ∧ next ≠ none) := by
  cases next with
  | some b =>
    have hpromise (r : Reaction α β) : (if r.promise = p then { r with running := some b }
        else r).promise = r.promise := by split <;> rfl
    simp only [find, goOn, List.find?_map, Function.comp_def, hpromise] at hr
    obtain ⟨r', hr', rfl⟩ := Option.map_eq_some_iff.mp hr
    split
    · rename_i hp
      have hq : r'.promise = q := by simpa using List.find?_some hr'
      exact .inr ⟨hq.symm.trans hp, rfl, by simp⟩
    · exact .inl hr'
  | none =>
    simp only [find, goOn, List.find?_filter] at hr
    have hpq : r.promise = q ∧ r.promise ≠ p := by
      have hsome := List.find?_some hr
      simpa [and_comm] using hsome
    refine .inl ?_
    rw [find, ← hr]
    congr 1
    funext x
    by_cases hx : x.promise = q
    · simp [hx, hpq.1 ▸ hpq.2]
    · simp [hx]

theorem active_extend (c : Chain α β) (job : α) : (c.extend job).active = c.active := by
  cases hc : c.reactions <;> simp [active, extend, hc]

theorem waiting_extend (c : Chain α β) (job : α) :
    (c.extend job).waiting = c.waiting ++ [job] := by
  simp [waiting, extend]

theorem Linked.waiting_tail {c : Chain α β} (h : c.Linked) {r : Reaction α β}
    {rs : List (Reaction α β)} (hc : c.reactions = r :: rs) :
    c.waiting = (if r.running.isNone then [r.job] else []) ++ rs.map Reaction.job := by
  have hqueued : ∀ s ∈ rs, s.running = none := by simpa [hc] using h.queued
  have hrs : rs.filter (fun s => s.running.isNone) = rs :=
    List.filter_eq_self.mpr fun s hs => by simp [hqueued s hs]
  rw [waiting, hc]
  cases hr : r.running with
  | none => rw [List.filter_cons_of_pos (by simp [hr]), hrs]; rfl
  | some b => rw [List.filter_cons_of_neg (by simp [hr]), hrs]; rfl

/-- As a queue: what goes on is the active job or the first waiting one, and the jobs behind it
keep their order. -/
theorem Linked.queue {c : Chain α β} (h : c.Linked) {p : PromiseId} {r : Reaction α β}
    (hr : c.find p = some r) (hready : c.Ready r) (next : Option β) :
    ∃ rest, c.waiting = (if r.running.isNone then [r.job] else []) ++ rest ∧
      c.active = r.running.map (fun b => (r.job, b)) ∧
      (c.goOn p next).waiting = rest ∧ (c.goOn p next).active = next.map fun b => (r.job, b) := by
  obtain ⟨rs, hc⟩ := h.head hr hready
  have hnext := h.goOn hr hready next
  obtain ⟨-, rfl⟩ := find_eq_some hr
  have hqueued : ∀ s ∈ rs, s.running = none := by simpa [hc] using h.queued
  refine ⟨rs.map Reaction.job, h.waiting_tail hc, by simp [active, hc], ?_⟩
  cases next with
  | some b =>
    have hreactions := h.reactions_suspend hc b
    refine ⟨?_, by simp [active, hreactions]⟩
    rw [hnext.waiting_tail hreactions]
    rfl
  | none =>
    have hreactions := h.reactions_settle hc
    cases rs with
    | nil => simp [waiting, active, hreactions]
    | cons s rs =>
      have hs : s.running = none := hqueued s List.mem_cons_self
      refine ⟨?_, by simp [active, hreactions, hs]⟩
      rw [hnext.waiting_tail hreactions, hs]
      rfl

/-- As long as a callback has not ended, one of them may go on. -/
theorem Linked.ready {c : Chain α β} (h : c.Linked) (hc : c.reactions ≠ []) :
    ∃ p r, c.find p = some r ∧ c.Ready r := by
  obtain ⟨r, rs, hr⟩ := List.exists_cons_of_ne_nil hc
  obtain ⟨p, hp, -, hfollows⟩ := h.chain
  rw [hr] at hfollows
  exact ⟨r.promise, r, by simp [find, hr], fun _ => hfollows.1 ▸ hp⟩

end Chain

end LivelierBridge.Framework
