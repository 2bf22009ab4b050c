import LivelierBridge.Owncast.HtmlEscape

namespace LivelierBridge.Owncast

open Framework Js

/-! ### One entity -/

/-- `text.split(entity).join(ch)` -/
def decodeEntity (s : JsString) (e : JsString × JsString) : JsString :=
  (Regex.literal e.1).replace (fun _ => e.2) s

theorem decodeNamed_eq_foldl (s : JsString) : decodeNamed s = NAMED_ENTITIES.foldl decodeEntity s := by
  have hne : ∀ e ∈ NAMED_ENTITIES, e.1 ≠ [] := by decide
  unfold decodeNamed
  refine List.foldl_ext _ _ s fun t e he => ?_
  exact join_split (hne e he) e.2 t

section Entity

variable {e : JsString} {f : Regex.Match UInt16 → JsString}

/-- An ampersand, and no other in it. -/
def IsEntity (e : JsString) : Prop := e.head? = some 38 ∧ 38 ∉ e.tail

instance (e : JsString) : Decidable (IsEntity e) := inferInstanceAs (Decidable (_ ∧ _))

theorem IsEntity.eq_cons (h : IsEntity e) : ∃ k, e = 38 :: k ∧ 38 ∉ k := by
  cases e with
  | nil => cases h.1
  | cons u k =>
    obtain rfl := Option.some.inj h.1
    exact ⟨k, rfl, h.2⟩

theorem IsEntity.ne_nil (h : IsEntity e) : e ≠ [] := by
  obtain ⟨k, rfl, -⟩ := h.eq_cons
  simp

theorem IsEntity.matchAt_eq_none (h : IsEntity e) {u : UInt16} (hu : u ≠ 38) (s : JsString)
    (before : Option UInt16) : (Regex.literal e).matchAt before (u :: s) = none := by
  obtain ⟨k, rfl, -⟩ := h.eq_cons
  refine Regex.matchAt_literal_eq_none fun hstart => hu ?_
  exact (List.cons_prefix_cons.mp hstart).1.symm

theorem IsEntity.renders_nil (h : IsEntity e) (before : Option UInt16) :
    (Regex.literal e).renders f before [] = [] := by
  refine Regex.renders_nil (Regex.matchAt_literal_eq_none fun hstart => h.ne_nil ?_)
  exact List.prefix_nil.mp hstart

/-- Neither of two texts is the start of the other. -/
def Apart (a b : JsString) : Prop := ¬ a <+: b ∧ ¬ b <+: a

instance (a b : JsString) : Decidable (Apart a b) := inferInstanceAs (Decidable (_ ∧ _))

/-- Another entity is passed over. -/
theorem IsEntity.renders_other (h : IsEntity e) {e' : JsString} (h' : IsEntity e')
    (hapart : Apart e e') (rest : JsString) (before : Option UInt16) :
    ∃ last, (Regex.literal e).renders f before (e' ++ rest) =
      e' ++ (Regex.literal e).renders f last rest := by
  have hmiss : (Regex.literal e).matchAt before (e' ++ rest) = none := by
    refine Regex.matchAt_literal_eq_none fun hstart => ?_
    exact (List.prefix_or_prefix_of_prefix hstart (List.prefix_append e' rest)).elim
      hapart.1 hapart.2
  obtain ⟨k, rfl, hk⟩ := h'.eq_cons
  obtain ⟨last, hlast⟩ := Regex.renders_pass (f := f) k
    (fun before u hu s => h.matchAt_eq_none (fun heq => hk (heq ▸ hu)) s before) (some 38) rest
  refine ⟨last, ?_⟩
  rw [List.cons_append] at hmiss
  rw [List.cons_append, Regex.renders_miss hmiss, hlast]
  rfl

end Entity

/-! ### A table of entities -/

/-- The entities of a table are told apart, and no unit of theirs is itself escaped. -/
structure IsTable (table : List (UInt16 × JsString)) : Prop where
  entity : ∀ p ∈ table, IsEntity p.2
  plain : ∀ p ∈ table, ∀ u ∈ p.2.tail, u ∉ table.map Prod.fst
  apart : table.Pairwise fun p q => Apart p.2 q.2
  nodup : (table.map Prod.fst).Nodup

theorem escapeUnit_mem {table : List (UInt16 × JsString)} {u : UInt16}
    (h : u ∈ table.map Prod.fst) : (u, escapeUnit table u) ∈ table := by
  induction table with
  | nil => cases h
  | cons p table ih =>
    obtain ⟨v, e⟩ := p
    by_cases hu : u = v
    · subst hu
      simp [escapeUnit]
    · have htail : u ∈ table.map Prod.fst := by simpa [hu] using h
      have hsame : escapeUnit ((v, e) :: table) u = escapeUnit table u := by
        simp [escapeUnit, List.lookup_cons, beq_false_of_ne hu]
      rw [hsame]
      exact List.mem_cons_of_mem _ (ih htail)

section Table

variable {c : UInt16} {e : JsString} {table : List (UInt16 × JsString)}

@[simp] theorem escapeUnit_cons_self : escapeUnit ((c, e) :: table) c = e := by
  simp [escapeUnit]

theorem escapeUnit_cons_ne {u : UInt16} (hu : u ≠ c) :
    escapeUnit ((c, e) :: table) u = escapeUnit table u := by
  simp [escapeUnit, List.lookup_cons, beq_false_of_ne hu]

/-- What another unit is written as is passed over. -/
theorem IsTable.renders_kept (h : IsTable ((c, e) :: table)) {u : UInt16} (hu : u ≠ 38)
    (f : Regex.Match UInt16 → JsString) (rest : JsString) (before : Option UInt16) :
    ∃ last, (Regex.literal e).renders f before (escapeUnit table u ++ rest) =
      escapeUnit table u ++ (Regex.literal e).renders f last rest := by
  have hentity : IsEntity e := h.entity _ List.mem_cons_self
  by_cases hkey : u ∈ table.map Prod.fst
  · have hmem := escapeUnit_mem hkey
    exact hentity.renders_other (h.entity _ (List.mem_cons_of_mem _ hmem))
      ((List.pairwise_cons.mp h.apart).1 _ hmem) rest before
  · rw [escapeUnit_of_not_mem hkey]
    exact ⟨some u, Regex.renders_miss (hentity.matchAt_eq_none hu rest before)⟩

/-- The ampersands come back, and only they. -/
theorem decode_ampersand (h : IsTable ((38, e) :: table)) (s : JsString) :
    decodeEntity (s.flatMap (escapeUnit ((38, e) :: table))) (e, [38]) =
      s.flatMap (escapeUnit table) := by
  have hentity : IsEntity e := h.entity _ List.mem_cons_self
  have hblock : ∀ u rest before, ∃ last,
      (Regex.literal e).renders (fun _ => [38]) before (escapeUnit ((38, e) :: table) u ++ rest) =
        escapeUnit table u ++ (Regex.literal e).renders (fun _ => [38]) last rest := by
    intro u rest before
    by_cases hu : u = 38
    · subst hu
      have hkept : (38 : UInt16) ∉ table.map Prod.fst := (List.nodup_cons.mp h.nodup).1
      rw [escapeUnit_cons_self, escapeUnit_of_not_mem hkept]
      exact Regex.renders_literal hentity.ne_nil rest before
    · rw [escapeUnit_cons_ne hu]
      exact h.renders_kept hu _ rest before
  have hflat := Regex.renders_flatMap hblock hentity.renders_nil s none
  rw [List.append_nil, List.append_nil] at hflat
  exact hflat

theorem flatMap_escapeUnit_plain {k : JsString} (hk : ∀ u ∈ k, u ∉ table.map Prod.fst) :
    k.flatMap (escapeUnit table) = k := by
  induction k with
  | nil => rfl
  | cons u k ih =>
    obtain ⟨hu, hk⟩ := List.forall_mem_cons.mp hk
    rw [List.flatMap_cons, escapeUnit_of_not_mem hu, ih hk]
    rfl

/-- A text of units that are not escaped starts the escaped text when it starts the text. -/
theorem isPrefix_escaped_iff (hentity : ∀ p ∈ table, IsEntity p.2) {k : JsString}
    (hk : 38 ∉ k) (hplain : ∀ u ∈ k, u ∉ table.map Prod.fst) (s : JsString) :
    k <+: s.flatMap (escapeUnit table) ↔ k <+: s := by
  induction k generalizing s with
  | nil => simp
  | cons u k ih =>
    obtain ⟨hne, hk⟩ : u ≠ 38 ∧ 38 ∉ k := by
      simpa [eq_comm] using hk
    obtain ⟨hu, hplain⟩ := List.forall_mem_cons.mp hplain
    cases s with
    | nil => simp
    | cons v s =>
      by_cases hkey : v ∈ table.map Prod.fst
      · obtain ⟨k', hv, -⟩ := (hentity _ (escapeUnit_mem hkey)).eq_cons
        have huv : u ≠ v := fun heq => hu (heq ▸ hkey)
        rw [List.flatMap_cons, show escapeUnit table v = 38 :: k' from hv]
        simp [List.cons_prefix_cons, hne, huv]
      · rw [List.flatMap_cons, escapeUnit_of_not_mem hkey, List.singleton_append,
          List.cons_prefix_cons, List.cons_prefix_cons, ih hk hplain]

/-- Decoding one entity of an escaped text decodes that entity in the text, and leaves it escaped
by the entities after it. -/
theorem decode_escaped (h : IsTable ((c, e) :: table)) (hc : c ≠ 38)
    (hamp : 38 ∉ table.map Prod.fst) (s : JsString) :
    decodeEntity (s.flatMap (escapeUnit ((c, e) :: table))) (e, [c]) =
      (decodeEntity s (e, [c])).flatMap (escapeUnit table) := by
  have hentity : IsEntity e := h.entity _ List.mem_cons_self
  have hkept : c ∉ table.map Prod.fst := (List.nodup_cons.mp h.nodup).1
  have hall : ∀ (n : Nat) (s : JsString), s.length ≤ n → ∀ before last,
      (Regex.literal e).renders (fun _ => [c]) before (s.flatMap (escapeUnit ((c, e) :: table))) =
        ((Regex.literal e).renders (fun _ => [c]) last s).flatMap (escapeUnit table) := by
    intro n
    induction n with
    | zero =>
      intro s hs before last
      obtain rfl := List.length_eq_zero_iff.mp (Nat.le_zero.mp hs)
      rw [List.flatMap_nil, hentity.renders_nil, hentity.renders_nil, List.flatMap_nil]
    | succ n ih =>
      intro s hs before last
      cases s with
      | nil => rw [List.flatMap_nil, hentity.renders_nil, hentity.renders_nil, List.flatMap_nil]
      | cons u us =>
        have hus : us.length ≤ n := Nat.le_of_succ_le_succ hs
        by_cases hu : u = 38
        · subst hu
          have hplain : (38 : UInt16) ∉ ((c, e) :: table).map Prod.fst := by
            simpa [hc.symm] using hamp
          rw [List.flatMap_cons, escapeUnit_of_not_mem hplain, List.singleton_append]
          by_cases hstart : e <+: 38 :: us
          · -- the text has the entity itself, and it is decoded with the escaped ones
            obtain ⟨rest, hrest⟩ := hstart
            obtain ⟨k, rfl, hk⟩ := hentity.eq_cons
            obtain rfl : k ++ rest = us := (List.cons.inj hrest).2
            have hk' : ∀ u ∈ k, u ∉ ((c, 38 :: k) :: table).map Prod.fst :=
              h.plain _ List.mem_cons_self
            have hescaped : 38 :: (k ++ rest).flatMap (escapeUnit ((c, 38 :: k) :: table)) =
                38 :: k ++ rest.flatMap (escapeUnit ((c, 38 :: k) :: table)) := by
              rw [List.flatMap_append, flatMap_escapeUnit_plain hk']
              rfl
            have hlen : rest.length ≤ n := by
              rw [List.length_append] at hus
              omega
            obtain ⟨next, hnext⟩ := Regex.renders_literal (f := fun _ => [c]) hentity.ne_nil
              (rest.flatMap (escapeUnit ((c, 38 :: k) :: table))) before
            obtain ⟨next', hnext'⟩ := Regex.renders_literal (f := fun _ => [c]) hentity.ne_nil
              rest last
            rw [hescaped, hnext, ← hrest, hnext', List.flatMap_append, ih rest hlen next next',
              List.flatMap_singleton, escapeUnit_of_not_mem hkept]
          · have hmiss : ¬ e <+: 38 :: us.flatMap (escapeUnit ((c, e) :: table)) := by
              obtain ⟨k, rfl, hk⟩ := hentity.eq_cons
              have hplain := h.plain _ List.mem_cons_self
              rw [List.cons_prefix_cons, isPrefix_escaped_iff h.entity hk hplain]
              exact fun hboth => hstart (List.cons_prefix_cons.mpr hboth)
            rw [Regex.renders_miss (Regex.matchAt_literal_eq_none hmiss),
              Regex.renders_miss (Regex.matchAt_literal_eq_none hstart), List.flatMap_cons,
              escapeUnit_of_not_mem hamp, ih us hus (some 38) (some 38)]
            rfl
        · have hlit : (Regex.literal e).renders (fun _ => [c]) last (u :: us) =
              u :: (Regex.literal e).renders (fun _ => [c]) (some u) us :=
            Regex.renders_miss (hentity.matchAt_eq_none hu us last)
          rw [hlit, List.flatMap_cons, List.flatMap_cons]
          by_cases huc : u = c
          · subst huc
            rw [escapeUnit_cons_self, escapeUnit_of_not_mem hkept]
            obtain ⟨next, hnext⟩ := Regex.renders_literal (f := fun _ => [u]) hentity.ne_nil
              (us.flatMap (escapeUnit ((u, e) :: table))) before
            rw [hnext, ih us hus next (some u)]
          · rw [escapeUnit_cons_ne huc]
            obtain ⟨next, hnext⟩ := h.renders_kept hu (fun _ => [c])
              (us.flatMap (escapeUnit ((c, e) :: table))) before
            rw [hnext, ih us hus next (some u)]
  exact hall s.length s (Nat.le_refl _) none none

theorem IsTable.tail {p : UInt16 × JsString} (h : IsTable (p :: table)) : IsTable table where
  entity := fun q hq => h.entity q (List.mem_cons_of_mem p hq)
  plain := fun q hq u hu hkey =>
    h.plain q (List.mem_cons_of_mem p hq) u hu (List.mem_cons_of_mem p.1 hkey)
  apart := (List.pairwise_cons.mp h.apart).2
  nodup := (List.nodup_cons.mp h.nodup).2

/-- Decoding a text that a table escapes is decoding the text itself. -/
theorem decode_table (h : IsTable table) (hamp : 38 ∉ table.map Prod.fst) (s : JsString) :
    (table.map fun p => (p.2, [p.1])).foldl decodeEntity (s.flatMap (escapeUnit table)) =
      (table.map fun p => (p.2, [p.1])).foldl decodeEntity s := by
  induction table generalizing s with
  | nil => exact flatMap_escapeUnit_plain (by simp)
  | cons p table ih =>
    obtain ⟨c, e⟩ := p
    obtain ⟨hc, hamp⟩ : 38 ≠ c ∧ 38 ∉ table.map Prod.fst := by
      simpa only [List.map_cons, List.mem_cons, not_or] using hamp
    rw [List.map_cons, List.foldl_cons, List.foldl_cons, decode_escaped h hc.symm hamp,
      ih h.tail hamp]

end Table

theorem isTable_escapes : IsTable ESCAPES where
  entity := by decide
  plain := by
    have hkeys : (ESCAPES.all fun p => p.2.tail.all fun u => u ∉ ESCAPES.map Prod.fst) = true := by
      decide
    simpa only [List.all_eq_true, decide_eq_true_eq] using hkeys
  apart := by decide
  nodup := by decide

/-- The decoder's entities: those of the escaping, and two more. -/
theorem named_entities_eq : NAMED_ENTITIES =
    (ESCAPES.map fun p => (p.2, [p.1])) ++ [(js "&apos;", js "'"), (js "&nbsp;", js " ")] := by
  decide

/-- The decoder takes the escaping back, and decodes the entities of the text itself with it. -/
theorem decodeNamed_escaped (s : JsString) :
    decodeNamed (s.flatMap (escapeUnit ESCAPES)) = NAMED_ENTITIES.tail.foldl decodeEntity s := by
  have htable : IsTable ((38, js "&amp;") :: ESCAPES.tail) := isTable_escapes
  have hamp : (38 : UInt16) ∉ ESCAPES.tail.map Prod.fst := by decide
  have hescapes : ESCAPES = (38, js "&amp;") :: ESCAPES.tail := rfl
  rw [decodeNamed_eq_foldl, named_entities_eq, hescapes, List.map_cons, List.cons_append,
    List.tail_cons, List.foldl_cons, decode_ampersand htable, List.foldl_append,
    decode_table htable.tail hamp, List.foldl_append]

/-! ### The round trip -/

/-- The text has no character reference in it that the decoder would decode, `&amp;` apart. -/
def NoReference (s : JsString) : Prop :=
  (∀ e ∈ NAMED_ENTITIES.tail, ¬ e.1 <:+: s) ∧ numericRe.hits s = []

/-- Decoding named entities makes a text shorter, or it has none of them. -/
theorem countP_decodeEntities {es : List (JsString × JsString)}
    (hes : ∀ e ∈ es, e.2.countP isInk < e.1.countP isInk) (s : JsString) :
    (es.foldl decodeEntity s).countP isInk ≤ s.countP isInk ∧
      (s.countP isInk ≤ (es.foldl decodeEntity s).countP isInk → ∀ e ∈ es, ¬ e.1 <:+: s) := by
  induction es generalizing s with
  | nil => simp
  | cons e es ih =>
    obtain ⟨he, hes⟩ := List.forall_mem_cons.mp hes
    have hweigh : ∀ m : Regex.Match UInt16, (Regex.literal e.1).Accepts m.text →
        e.2.countP isInk < m.text.countP isInk := by
      intro m hm
      rw [Regex.accepts_literal hm]
      exact he
    obtain ⟨hle, hfound⟩ := Regex.countP_replace (s := s) (f := fun _ => e.2) hweigh
    obtain ⟨hrest, habsent⟩ := ih hes (decodeEntity s e)
    have hstep : (decodeEntity s e).countP isInk ≤ s.countP isInk := hle
    refine ⟨Nat.le_trans hrest hstep, fun hback => ?_⟩
    have hnone : (Regex.literal e.1).hits s = [] := hfound (Nat.le_trans hback hrest)
    have hsame : decodeEntity s e = s := Regex.replace_of_hits_eq_nil hnone
    rw [List.foldl_cons, hsame] at hback
    rw [hsame] at habsent
    exact List.forall_mem_cons.mpr ⟨Regex.hits_literal_eq_nil.mp hnone, habsent hback⟩

theorem decodeEntities_of_absent {es : List (JsString × JsString)} {s : JsString}
    (h : ∀ e ∈ es, ¬ e.1 <:+: s) : es.foldl decodeEntity s = s := by
  induction es with
  | nil => rfl
  | cons e es ih =>
    obtain ⟨he, hes⟩ := List.forall_mem_cons.mp h
    rw [List.foldl_cons, decodeEntity,
      Regex.replace_of_hits_eq_nil (Regex.hits_literal_eq_nil.mpr he), ih hes]

theorem length_codePoint_le (n : Nat) : (codePoint n).length ≤ 2 := by
  unfold codePoint
  split_ifs <;> simp

theorem isInk_of_isDigit {u : UInt16} (h : isDigit u = true) : isInk u = true := by
  obtain ⟨hlow, hhigh⟩ : 48 ≤ u ∧ u ≤ 57 := by simpa [isDigit] using h
  rw [isInk, isSpace_of_visible (UInt16.lt_of_lt_of_le (by decide) hlow)
    (UInt16.lt_of_le_of_lt hhigh (by decide))]
  rfl

/-- A numeric reference is longer than what it stands for. -/
theorem countP_fromCodePoint {m : Regex.Match UInt16} {y : JsString}
    (hm : numericRe.Accepts m.text) (hy : fromCodePoint (referenced m) = .ok y) :
    y.countP isInk < m.text.countP isInk := by
  obtain ⟨a, b, htext, ha, hb⟩ := Regex.accepts_chain_cons hm
  obtain ⟨d, c, rfl, ⟨d₁, ds, rfl, ⟨u, rfl, hu⟩, hds⟩, hc⟩ := Regex.accepts_chain_cons hb
  have hcount : y.countP isInk ≤ 2 := by
    unfold fromCodePoint at hy
    split_ifs at hy
    obtain rfl := Except.ok.inj hy
    exact Nat.le_trans List.countP_le_length (length_codePoint_le _)
  have hopen : (js "&#").countP isInk = 2 := by decide
  rw [htext, accepts_text ha, List.countP_append, hopen, List.countP_append, List.countP_append,
    List.countP_singleton, if_pos (isInk_of_isDigit hu)]
  omega

theorem countP_decodeNumeric {s t : JsString} (h : decodeNumeric s = .ok t) :
    t.countP isInk ≤ s.countP isInk ∧
      (s.countP isInk ≤ t.countP isInk → numericRe.hits s = []) :=
  Regex.countP_replaceM h fun _ _ => countP_fromCodePoint

/-- What is sent as a text comes back as it was, but for the spaces around it, exactly when no
character reference stands in it. -/
theorem owncastHtmlToText_textToOwncastHtml_iff (s : JsString) :
    owncastHtmlToText (textToOwncastHtml s) = .ok (trim s) ↔ NoReference s := by
  rw [owncastHtmlToText, stripTags_textToOwncastHtml, decodeNamed_escaped]
  constructor
  · intro h
    cases hnumeric : decodeNumeric (NAMED_ENTITIES.tail.foldl decodeEntity s) with
    | error thrown =>
      rw [hnumeric] at h
      cases h
    | ok t =>
      rw [hnumeric] at h
      have htrim : trim t = trim s := Except.ok.inj h
      have hcount : t.countP isInk = s.countP isInk := by
        rw [← countP_trim t, htrim, countP_trim]
      have hlighter : ∀ e ∈ NAMED_ENTITIES.tail, e.2.countP isInk < e.1.countP isInk := by decide
      obtain ⟨hnamed, habsent⟩ := countP_decodeEntities hlighter s
      obtain ⟨hle, hfound⟩ := countP_decodeNumeric hnumeric
      have hnone := habsent (Nat.le_trans (Nat.le_of_eq hcount.symm) hle)
      rw [decodeEntities_of_absent hnone] at hfound
      exact ⟨hnone, hfound (Nat.le_of_eq hcount.symm)⟩
  · rintro ⟨hnone, hhits⟩
    rw [decodeEntities_of_absent hnone, decodeNumeric, Regex.replaceM_of_hits_eq_nil hhits]
    rfl

/-- A text that shows an entity comes back as what the entity stands for. -/
theorem textToOwncastHtml_entity :
    owncastHtmlToText (textToOwncastHtml (js "&lt;")) ≠ .ok (trim (js "&lt;")) := by
  decide +kernel

end LivelierBridge.Owncast
