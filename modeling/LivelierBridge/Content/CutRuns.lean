import Mathlib.Data.List.Induction
import LivelierBridge.Content.Cuts

namespace LivelierBridge.Content

open Framework Framework.Regex Js

variable {ν σ : Type}

/-- Whether there is an `@` before a place of the text. -/
def atSign (offset : Nat) (full : JsString) : Bool := 0 < offset && full[offset - 1]? = some 64

/-- A processor that searches with a local pattern, and that sees of the text around a match only
whether there is an `@` before it. -/
structure Searches (Q : ContentProcessor ν σ) (re : Regex UInt16) : Prop extends Keeps Q where
  pattern : Q.pattern = re.pieces
  isLocal : re.Local
  notEmpty : ¬ re.Accepts []
  near : ∀ m offset offset' full full' w, atSign offset full = atSign offset' full' →
    Q.process m offset full w = Q.process m offset' full' w

/-- No match of the pattern starts at the edge behind an `@`. -/
def Quiet (re : Regex UInt16) (e : Nat) (content : JsString) : Prop :=
  (content.take e).getLast? = some 64 → ∀ x t, content.drop e = x ++ t → ¬ re.Accepts x

section Loop

variable {Q : ContentProcessor ν σ} {re : Regex UInt16} {m : Match UInt16} {s : JsString}

theorem atSign_append (u r : JsString) : atSign u.length (u ++ r) = (u.getLast? = some 64 : Bool) := by
  cases u using List.reverseRecOn with
  | nil => rfl
  | append_singleton u x => simp [atSign]

/-- The loop does the same behind two texts that end alike where a match follows at once. -/
theorem Searches.matchLoop_congr (hQ : Searches Q re) {ps : List (Piece UInt16)}
    (hps : ∀ m, .hit m ∈ ps → m.text ≠ []) (u u' v v' : JsString)
    (hstart : ∀ m ps', ps = .hit m :: ps' → (u.getLast? = some 64 ↔ u'.getLast? = some 64))
    (before : JsString) (w : σ) :
    matchLoop Q (u ++ (joined ps ++ v)) ps u.length before w =
      matchLoop Q (u' ++ (joined ps ++ v')) ps u'.length before w := by
  induction ps generalizing u u' before w with
  | nil => rfl
  | cons p ps ih =>
    obtain ⟨hp, hrest⟩ : (∀ m, p = .hit m → m.text ≠ []) ∧ ∀ m, .hit m ∈ ps → m.text ≠ [] :=
      ⟨fun m hm => hps m (hm ▸ List.mem_cons_self), fun m hm => hps m (List.mem_cons_of_mem p hm)⟩
    cases p with
    | lit x =>
      have hnext := ih hrest (u ++ [x]) (u' ++ [x]) (by simp) (x :: before) w
      simpa [matchLoop] using hnext
    | hit m =>
      have hcall (w : σ) : Q.process m u.length (u ++ (joined (.hit m :: ps) ++ v)) w =
          Q.process m u'.length (u' ++ (joined (.hit m :: ps) ++ v')) w := by
        apply hQ.near
        rw [atSign_append, atSign_append, decide_eq_decide]
        exact hstart m ps rfl
      obtain ⟨x, xs, hm⟩ : ∃ x xs, m.text = xs ++ [x] := by
        obtain ⟨xs, x, hx⟩ := List.eq_nil_or_concat m.text |>.resolve_left (hp m rfl)
        exact ⟨x, xs, by simpa using hx⟩
      have hnext := ih hrest (u ++ m.text) (u' ++ m.text) (by simp [hm]) []
        (Q.process m u'.length (u' ++ (joined (.hit m :: ps) ++ v')) w).2
      simp only [matchLoop, hcall]
      simp only [joined_hit, List.append_assoc, List.length_append] at hnext ⊢
      rw [hnext]

/-- What the loop carries along is put before what it makes of the rest. -/
theorem matchLoop_before (Q : ContentProcessor ν σ) (full : JsString) (ps : List (Piece UInt16))
    (offset : Nat) (a c : JsString) (w : σ) :
    cutAt a.length (matchLoop Q full ps offset (c ++ a) w).1 =
        between a.reverse ++ (matchLoop Q full ps offset c w).1 ∧
      (matchLoop Q full ps offset (c ++ a) w).2 = (matchLoop Q full ps offset c w).2 := by
  induction ps generalizing offset c w with
  | nil =>
    have hcut := cutAt_between (ν := ν) a.reverse c.reverse []
    simp only [List.length_reverse, List.append_nil] at hcut
    simpa [matchLoop] using hcut
  | cons p ps ih =>
    cases p with
    | lit x => exact ih (offset + 1) (x :: c) w
    | hit m =>
      have hcut := cutAt_between (ν := ν) a.reverse c.reverse
      simp only [List.length_reverse] at hcut
      simp [matchLoop, hcut]

/-- The loop over two parts is the loop over each, cut between them. -/
theorem matchLoop_append (hQ : Keeps Q) (full : JsString) (pa pb : List (Piece UInt16))
    (offset : Nat) (before : JsString) (w : σ) :
    cutAt (before.length + (joined pa).length) (matchLoop Q full (pa ++ pb) offset before w).1 =
        (matchLoop Q full pa offset before w).1 ++
          (matchLoop Q full pb (offset + (joined pa).length) []
            (matchLoop Q full pa offset before w).2).1 ∧
      (matchLoop Q full (pa ++ pb) offset before w).2 =
        (matchLoop Q full pb (offset + (joined pa).length) []
          (matchLoop Q full pa offset before w).2).2 := by
  induction pa generalizing offset before w with
  | nil =>
    obtain ⟨hcut, hworld⟩ := matchLoop_before Q full pb offset before [] w
    exact ⟨by simpa [matchLoop] using hcut, by simpa [matchLoop] using hworld⟩
  | cons p pa ih =>
    cases p with
    | lit x =>
      obtain ⟨hcut, hworld⟩ := ih (offset + 1) (x :: before) w
      simp only [List.length_cons, Nat.add_assoc, Nat.add_comm 1] at hcut hworld
      simp only [List.cons_append, matchLoop, joined_lit, List.length_cons]
      exact ⟨hcut, hworld⟩
    | hit m =>
      obtain ⟨hcut, hworld⟩ := ih (offset + m.text.length) [] (Q.process m offset full w).2
      have hwidth := (hQ.stands m offset full w).width
      simp only [List.length_nil, Nat.zero_add, Nat.add_assoc] at hcut hworld
      simp only [List.cons_append, matchLoop, joined_hit, List.length_append]
      refine ⟨?_, hworld⟩
      rw [cutAt_append_of_le (by simp), widths_between, List.length_reverse, Nat.add_sub_cancel_left,
        cutAt, hwidth, if_neg (by omega), Nat.add_sub_cancel_left, hcut]
      simp

theorem matchLoop_of_no_hits (Q : ContentProcessor ν σ) (full : JsString) {ps : List (Piece UInt16)}
    (h : ps.filterMap Piece.hit? = []) (offset : Nat) (before : JsString) (w : σ) :
    matchLoop Q full ps offset before w = (between (before.reverse ++ joined ps), w) := by
  induction ps generalizing offset before with
  | nil => simp [matchLoop]
  | cons p ps ih =>
    cases p with
    | lit x =>
      rw [matchLoop, ih (by simpa [Piece.hit?] using h)]
      simp
    | hit m => simp [Piece.hit?] at h

theorem processToken_of_ne_nil (hQ : Keeps Q) (hs : s ≠ []) (w : σ) :
    processToken Q (textToken s) w = matchLoop Q s (Q.pattern s) 0 [] w := by
  rw [processToken_text]
  split_ifs with hnone
  · have hcovers : joined (Q.pattern s) = s := hQ.covers s
    rw [matchLoop_of_no_hits Q s (by simpa using hnone), hcovers, List.reverse_nil, List.nil_append,
      between_of_ne_nil hs]
  · rfl

end Loop

section Step

variable {Q : ContentProcessor ν σ} {re : Regex UInt16} {tokens ts us : List (ContentToken ν)}
  {s content a b : JsString} {e o : Nat} {E : Nat → Prop}

theorem Quiet.tail {t r : JsString} (h : Quiet re e (t ++ r)) (he : t.length ≤ e) :
    Quiet re (e - t.length) r := by
  intro hsign x u hdrop
  have hbehind : ((t ++ r).take e).getLast? = some 64 := by
    rw [List.take_append, List.take_of_length_le he, List.getLast?_append_of_ne_nil, hsign]
    intro hnil
    rw [hnil] at hsign
    cases hsign
  refine h hbehind x u ?_
  rw [List.drop_append, List.drop_of_length_le he, List.nil_append, hdrop]

/-- A text cut where no match reaches across is processed as if it were not. -/
theorem Searches.processTokens_texts (hQ : Searches Q re) (ha : a ≠ []) (hb : b ≠ [])
    (hclear : ∀ p ∈ places 0 (Q.pattern (a ++ b)), ¬ Reaches p a.length)
    (hquiet : a.getLast? = some 64 → ∀ x t, b = x ++ t → ¬ re.Accepts x) (w : σ) :
    processTokens Q [textToken a, textToken b] w =
      (cutAt a.length (processToken Q (textToken (a ++ b)) w).1,
        (processToken Q (textToken (a ++ b)) w).2) := by
  rw [hQ.pattern] at hclear
  have hhits (s : JsString) (m : Match UInt16) (hm : .hit m ∈ re.pieces s) : m.text ≠ [] := by
    intro hnil
    exact hQ.notEmpty (hnil ▸ accepts_of_hit hm)
  have hleft : matchLoop Q (a ++ b) (re.pieces a) 0 [] w = matchLoop Q a (re.pieces a) 0 [] w := by
    have hcongr := hQ.matchLoop_congr (hhits a) [] [] b [] (fun _ _ _ => .rfl) [] w
    simpa [joined_pieces] using hcongr
  have hright (w : σ) : matchLoop Q (a ++ b) (re.pieces b) a.length [] w =
      matchLoop Q b (re.pieces b) 0 [] w := by
    have hcongr := hQ.matchLoop_congr (hhits b) a [] [] [] ?_ [] w
    · simpa [joined_pieces] using hcongr
    · intro m ps hps
      refine ⟨fun hsign => ?_, fun hsign => by cases hsign⟩
      have hjoined := joined_pieces re b
      rw [hps, joined_hit] at hjoined
      exact absurd (accepts_of_hit (hps ▸ List.mem_cons_self)) (hquiet hsign _ _ hjoined.symm)
  obtain ⟨hcut, hworld⟩ := matchLoop_append hQ.toKeeps (a ++ b) (re.pieces a) (re.pieces b) 0 [] w
  rw [joined_pieces, Nat.zero_add, hleft, hright] at hcut hworld
  rw [List.length_nil, Nat.zero_add] at hcut
  rw [← pieces_append hQ.isLocal hQ.notEmpty a b hclear] at hcut hworld
  simp only [processTokens, List.append_nil]
  rw [processToken_of_ne_nil hQ.toKeeps ha, processToken_of_ne_nil hQ.toKeeps hb,
    processToken_of_ne_nil hQ.toKeeps (by simp [ha]), hQ.pattern, hcut, hworld]

theorem processTokens_append (Q : ContentProcessor ν σ) (ts us : List (ContentToken ν)) (w : σ) :
    processTokens Q (ts ++ us) w =
      ((processTokens Q ts w).1 ++ (processTokens Q us (processTokens Q ts w).2).1,
        (processTokens Q us (processTokens Q ts w).2).2) := by
  induction ts generalizing w with
  | nil => rfl
  | cons token ts ih => simp [processTokens, ih]

theorem processTokens_singleton (Q : ContentProcessor ν σ) (token : ContentToken ν) (w : σ) :
    processTokens Q [token] w = processToken Q token w := by
  simp [processTokens]

/-- One processor over a stream that is cut at one place. -/
theorem Searches.processTokens_cutAt (hQ : Searches Q re) (hs : Restores tokens content)
    (hclear : ∀ p ∈ placesOf Q o tokens, ¬ Reaches p (o + e)) (hquiet : Quiet re e content) (w : σ) :
    processTokens Q (cutAt e tokens) w =
      (cutAt e (processTokens Q tokens w).1, (processTokens Q tokens w).2) := by
  induction tokens generalizing content e o w with
  | nil => rfl
  | cons token tokens ih =>
    rcases Nat.eq_zero_or_pos e with rfl | hpos
    · rw [cutAt_zero, cutAt_zero]
    obtain ⟨t, r, rfl, ht, hr⟩ := hs.uncons
    have hout : widths (processToken Q token w).1 = t.length := by
      rw [((hQ.processToken ht w).restores (by simpa using restores_nil.cons ht)).widths]
    rw [cutAt]
    split_ifs with hlt
    · rw [ht.width] at hlt
      -- the cut is inside this token, or the token is no text
      have hfirst : processTokens Q (cutToken e token) w =
          (cutAt e (processToken Q token w).1, (processToken Q token w).2) := by
        rcases ht.text_or with rfl | hnone
        · have hlen : (t.take e).length = e := by
            rw [List.length_take]
            omega
          have htexts := hQ.processTokens_texts (a := t.take e) (b := t.drop e)
            (by rw [Ne, ← List.length_eq_zero_iff]; omega)
            (by rw [Ne, List.drop_eq_nil_iff]; omega) ?_ ?_ w
          · rw [List.take_append_drop, hlen] at htexts
            rwa [cutToken_text ⟨hpos, hlt⟩]
          · rw [List.take_append_drop, hlen]
            rw [placesOf_text, ← Nat.zero_add o, places_shift] at hclear
            intro p hp hreach
            refine hclear _ (List.mem_append_left _ (List.mem_map_of_mem hp)) ?_
            simp only [Reaches] at hreach ⊢
            omega
          · intro hsign x u hdrop
            refine hquiet ?_ x (u ++ r) ?_
            · rwa [List.take_append_of_le_length (by omega)]
            · rw [List.drop_append_of_le_length (by omega), hdrop, List.append_assoc]
        · have hkeep : processToken Q token w = ([token], w) := by
            simp [Content.processToken, hnone]
          have hcut : cutAt e [token] = [token] := by
            rw [cutAt, ht.width, if_pos hlt, cutToken_of_none hnone, List.append_nil]
          rw [cutToken_of_none hnone, processTokens_singleton, hkeep, hcut]
      rw [processTokens_append, hfirst]
      simp only [processTokens]
      rw [cutAt_append_of_lt (by rw [hout]; exact hlt)]
    · rw [ht.width, Nat.not_lt] at hlt
      have hnext := ih (o := o + token.width) (e := e - token.width) hr ?_ ?_
        (processToken Q token w).2
      · simp only [processTokens]
        rw [hnext, cutAt_append_of_le (by rw [hout]; exact hlt), hout, ht.width]
      · rw [ht.width, Nat.add_assoc, Nat.add_sub_cancel' hlt]
        rw [← ht.width]
        exact fun p hp => hclear p (List.mem_append_right _ hp)
      · rw [ht.width]
        exact hquiet.tail hlt

/-- A cut that no match reaches across leaves the matches where they are. -/
theorem Searches.placesOf_cutAt (hQ : Searches Q re) (hs : Restores tokens content)
    (hclear : ∀ p ∈ placesOf Q o tokens, ¬ Reaches p (o + e)) :
    placesOf Q o (cutAt e tokens) = placesOf Q o tokens := by
  induction tokens generalizing content e o with
  | nil => rfl
  | cons token tokens ih =>
    rcases Nat.eq_zero_or_pos e with rfl | hpos
    · rw [cutAt_zero]
    obtain ⟨t, r, rfl, ht, hr⟩ := hs.uncons
    rw [cutAt]
    split_ifs with hlt
    · rw [ht.width] at hlt
      rcases ht.text_or with rfl | hnone
      · have hlen : (t.take e).length = e := by
          rw [List.length_take]
          omega
        have hsplit : Q.pattern t = Q.pattern (t.take e) ++ Q.pattern (t.drop e) := by
          have happend := pieces_append hQ.isLocal hQ.notEmpty (t.take e) (t.drop e) ?_
          · rwa [List.take_append_drop, ← hQ.pattern] at happend
          · rw [List.take_append_drop, hlen, ← hQ.pattern]
            rw [placesOf_text, ← Nat.zero_add o, places_shift] at hclear
            intro p hp hreach
            refine hclear _ (List.mem_append_left _ (List.mem_map_of_mem hp)) ?_
            simp only [Reaches] at hreach ⊢
            omega
        have hleft : (joined (Q.pattern (t.take e))).length = e := by
          rw [hQ.pattern, joined_pieces, hlen]
        have hwidth : e + (t.drop e).length = t.length := by
          rw [List.length_drop]
          omega
        rw [cutToken_text ⟨hpos, hlt⟩, List.cons_append, List.singleton_append, placesOf_text,
          placesOf_text, placesOf_text, hsplit, places_append, hleft, hlen, List.append_assoc,
          Nat.add_assoc o, hwidth]
      · rw [cutToken_of_none hnone, List.singleton_append]
    · rw [ht.width, Nat.not_lt] at hlt
      have htail := ih (o := o + token.width) (e := e - token.width) hr ?_
      · rw [placesOf, placesOf, htail]
      · rw [ht.width, Nat.add_assoc, Nat.add_sub_cancel' hlt, ← ht.width]
        exact fun p hp => hclear p (List.mem_append_right _ hp)

/-- A processor with no match across an edge does to a cut stream what it does to the whole one. -/
theorem Searches.processTokens_cutsTo (hQ : Searches Q re) (hs : Restores ts content)
    (h : CutsTo E ts us) (hclear : ∀ e, E e → ∀ p ∈ placesOf Q 0 ts, ¬ Reaches p e)
    (hquiet : ∀ e, E e → Quiet re e content) (w : σ) :
    (CutsTo E (processTokens Q ts w).1 (processTokens Q us w).1 ∧
      (processTokens Q us w).2 = (processTokens Q ts w).2) ∧
      placesOf Q 0 us = placesOf Q 0 ts := by
  induction h with
  | refl => exact ⟨⟨.refl, rfl⟩, rfl⟩
  | @cut us e h he ih =>
    obtain ⟨⟨hcut, hworld⟩, hplaces⟩ := ih
    have hus := (h.refines hs).restores hs
    have hmissed : ∀ p ∈ placesOf Q 0 us, ¬ Reaches p (0 + e) := by
      rw [hplaces, Nat.zero_add]
      exact hclear e he
    rw [hQ.processTokens_cutAt hus hmissed (hquiet e he), hQ.placesOf_cutAt hus hmissed]
    exact ⟨⟨hcut.cut he, hworld⟩, hplaces⟩

end Step

section Runs

variable {P Q : ContentProcessor ν σ} {Qs : List (ContentProcessor ν σ)}
  {tokens ts us : List (ContentToken ν)} {content s : JsString} {e o : Nat} {E : Nat → Prop}

/-- At no processor's turn a match reaches across an edge. -/
def Unbroken (E : Nat → Prop) (Qs : List (ContentProcessor ν σ)) (ts : List (ContentToken ν)) (w : σ) :
    Prop :=
  ∀ Qs₁ Q Qs₂, Qs = Qs₁ ++ Q :: Qs₂ → ∀ p ∈ placesOf Q 0 (runProcessors Qs₁ ts w).1, ∀ e, E e →
    ¬ Reaches p e

/-- Whether no match reaches across one of these edges. -/
def unbroken (edges : List Nat) : List (ContentProcessor ν σ) → List (ContentToken ν) → σ → Bool
  | [], _, _ => true
  | Q :: Qs, ts, w =>
    ((placesOf Q 0 ts).all fun p => edges.all fun e => !(p.1 < e && e < p.2)) &&
      unbroken edges Qs (processTokens Q ts w).1 (processTokens Q ts w).2

theorem unbroken_iff {edges : List Nat} {w : σ} :
    unbroken edges Qs ts w = true ↔ Unbroken (· ∈ edges) Qs ts w := by
  have hreach (p : Nat × Nat) (e : Nat) : (!(p.1 < e && e < p.2)) = true ↔ ¬ Reaches p e := by
    simp only [Reaches, Bool.not_eq_true', Bool.and_eq_false_iff, decide_eq_false_iff_not]
    omega
  induction Qs generalizing ts w with
  | nil => simp [unbroken, Unbroken]
  | cons Q Qs ih =>
    simp only [unbroken, Bool.and_eq_true, ih, List.all_eq_true, hreach]
    constructor
    · rintro ⟨hfirst, hlater⟩ Qs₁ Q' Qs₂ hsplit
      cases Qs₁ with
      | nil =>
        obtain ⟨rfl, rfl⟩ := List.cons.inj hsplit
        exact hfirst
      | cons Q₁ Qs₁ =>
        obtain ⟨rfl, rfl⟩ := List.cons.inj hsplit
        exact hlater Qs₁ Q' Qs₂ rfl
    · intro h
      refine ⟨h [] Q Qs rfl, ?_⟩
      rintro Qs₁ Q' Qs₂ rfl
      exact h (Q :: Qs₁) Q' Qs₂ rfl

/-- Processors with no match across an edge do to a cut stream what they do to the whole one. -/
theorem runProcessors_cutsTo
    (hQs : ∀ Q ∈ Qs, ∃ re, Searches Q re ∧ ∀ e, E e → Quiet re e content) (hs : Restores ts content)
    (h : CutsTo E ts us) {w : σ} (hunbroken : Unbroken E Qs ts w) :
    CutsTo E (runProcessors Qs ts w).1 (runProcessors Qs us w).1 := by
  induction Qs generalizing ts us w with
  | nil => exact h
  | cons Q Qs ih =>
    obtain ⟨⟨re, hQ, hquiet⟩, hrest⟩ := List.forall_mem_cons.mp hQs
    obtain ⟨⟨hcut, hworld⟩, -⟩ := hQ.processTokens_cutsTo hs h
      (fun e he p hp => hunbroken [] Q Qs rfl p hp e he) hquiet w
    rw [runProcessors, runProcessors]
    dsimp only
    rw [hworld]
    refine ih hrest ((hQ.processTokens hs w).restores hs) hcut ?_
    rintro Qs₁ Q' Qs₂ rfl
    exact hunbroken (Q :: Qs₁) Q' Qs₂ rfl

/-- What the processor answers to the matches of a text. -/
def answersIn (P : ContentProcessor ν σ) (full : JsString) :
    List (Piece UInt16) → Nat → σ → List (ProcessorResult ν)
  | [], _, _ => []
  | .lit _ :: ps, offset, w => answersIn P full ps (offset + 1) w
  | .hit m :: ps, offset, w =>
    (P.process m offset full w).1 ::
      answersIn P full ps (offset + m.text.length) (P.process m offset full w).2

/-- What the processor answers to the matches it finds in the tokens. -/
def answers (P : ContentProcessor ν σ) : List (ContentToken ν) → σ → List (ProcessorResult ν)
  | [], _ => []
  | token :: tokens, w =>
    (match token.text? with
    | none => []
    | some s => answersIn P s (P.pattern s) 0 w) ++ answers P tokens (processToken P token w).2

/-- The processor declines every match it finds. -/
def Declines (P : ContentProcessor ν σ) (tokens : List (ContentToken ν)) (w : σ) : Prop :=
  ∀ r ∈ answers P tokens w, r.metadata = none

/-- A processor that leaves what it declines as it is, and changes nothing else. -/
structure Leaves (P : ContentProcessor ν σ) : Prop extends Keeps P where
  declined : ∀ s m, .hit m ∈ P.pattern s → ∀ offset full w,
    (P.process m offset full w).1.metadata = none →
      P.process m offset full w = (declined m.text, w) ∧ m.text ≠ []

/-- The starts and the ends of the processor's matches. -/
def edgesOf (P : ContentProcessor ν σ) (tokens : List (ContentToken ν)) (e : Nat) : Prop :=
  ∃ p ∈ placesOf P 0 tokens, e = p.1 ∨ e = p.2

theorem edgesOf_iff : edgesOf P ts e ↔ e ∈ (placesOf P 0 ts).flatMap fun p => [p.1, p.2] := by
  simp [edgesOf]

theorem placesOf_shift (P : ContentProcessor ν σ) (o n : Nat) (tokens : List (ContentToken ν)) :
    placesOf P (o + n) tokens = (placesOf P o tokens).map fun p => (p.1 + n, p.2 + n) := by
  induction tokens generalizing o with
  | nil => rfl
  | cons token tokens ih =>
    rw [placesOf, placesOf, List.map_append, ← ih, Nat.add_right_comm]
    cases token.text? with
    | none => rfl
    | some s => simp [places_shift]

theorem bounds_of_mem_places {ps : List (Piece UInt16)} {p : Nat × Nat} (h : p ∈ places o ps) :
    o ≤ p.1 ∧ p.1 ≤ p.2 ∧ p.2 ≤ o + (joined ps).length := by
  obtain ⟨pre, m, post, rfl, rfl⟩ := exists_of_mem_places h
  simp only [joined_append, joined_hit, List.length_append]
  omega

/-- Declined matches only cut the text. -/
theorem Leaves.matchLoop_cutsTo (hP : Leaves P) (full : JsString) {ps : List (Piece UInt16)}
    (hps : ∀ m, .hit m ∈ ps → .hit m ∈ P.pattern s) (offset : Nat) (before : JsString) (w : σ)
    (h : ∀ r ∈ answersIn P full ps offset w, r.metadata = none) :
    CutsTo (fun e => ∃ p ∈ places before.length ps, e = p.1 ∨ e = p.2)
        (between (before.reverse ++ joined ps)) (matchLoop P full ps offset before w).1 ∧
      (matchLoop P full ps offset before w).2 = w := by
  induction ps generalizing offset before with
  | nil =>
    rw [matchLoop, joined_nil, List.append_nil]
    exact ⟨.refl, rfl⟩
  | cons p ps ih =>
    have hrest : ∀ m, .hit m ∈ ps → .hit m ∈ P.pattern s := fun m hm =>
      hps m (List.mem_cons_of_mem p hm)
    cases p with
    | lit x =>
      have hnext := ih hrest (offset + 1) (x :: before) h
      rw [List.reverse_cons, List.append_assoc, List.singleton_append] at hnext
      exact hnext
    | hit m =>
      obtain ⟨hfirst, hlater⟩ := List.forall_mem_cons.mp h
      obtain ⟨hcall, hne⟩ := hP.declined s m (hps m List.mem_cons_self) offset full w hfirst
      rw [hcall] at hlater
      obtain ⟨hcuts, hworld⟩ := ih hrest (offset + m.text.length) [] hlater
      simp only [matchLoop, hcall]
      refine ⟨?_, hworld⟩
      have hleft : widths (between before.reverse : List (ContentToken ν)) = before.length := by simp
      -- cut before the match, behind it, and then where the rest is cut
      have hbefore := cutAt_between (ν := ν) before.reverse (m.text ++ joined ps) []
      have hbehind := cutAt_between (ν := ν) m.text (joined ps) []
      rw [List.append_nil, List.append_nil, List.length_reverse] at hbefore
      rw [List.append_nil, List.append_nil] at hbehind
      have hshift := (hcuts.append_left (between m.text)).append_left (between before.reverse)
      have hplace : (before.length, before.length + m.text.length) ∈
          places before.length (.hit m :: ps) := List.mem_cons_self
      let E (e : Nat) : Prop := ∃ p ∈ places before.length (.hit m :: ps), e = p.1 ∨ e = p.2
      have hrefl : CutsTo (ν := ν) E (between (before.reverse ++ (m.text ++ joined ps))) _ := .refl
      have hstart := hrefl.cut ⟨_, hplace, .inl rfl⟩
      have hends := hstart.cut ⟨_, hplace, .inr rfl⟩
      rw [hbefore, cutAt_append_of_le (by omega), hleft, Nat.add_sub_cancel_left, hbehind] at hends
      refine hends.trans ?_
      rw [between_of_ne_nil hne] at hshift ⊢
      refine hshift.mono ?_
      rintro e ⟨d, ⟨d', ⟨p, hp, hd'⟩, rfl⟩, rfl⟩
      rw [widths_cons, widths_nil, width_textToken, Nat.add_zero, hleft]
      refine ⟨(p.1 + (before.length + m.text.length), p.2 + (before.length + m.text.length)), ?_, ?_⟩
      · have hmoved := places_shift 0 (before.length + m.text.length) ps
        rw [Nat.zero_add] at hmoved
        rw [places, hmoved]
        exact List.mem_cons_of_mem _ (List.mem_map_of_mem hp)
      · simp only
        omega

/-- The text of a token cut where the matches are declined. -/
theorem Leaves.processToken_cutsTo (hP : Leaves P) (s : JsString) (w : σ)
    (h : ∀ r ∈ answersIn P s (P.pattern s) 0 w, r.metadata = none) :
    CutsTo (fun e => ∃ p ∈ places 0 (P.pattern s), e = p.1 ∨ e = p.2) [textToken s]
        (processToken P (textToken s) w).1 ∧
      (processToken P (textToken s) w).2 = w := by
  by_cases hs : s = []
  · have hnone : (P.pattern s).filterMap Piece.hit? = [] := by
      have hcovers : joined (P.pattern s) = [] := (hP.covers s).trans hs
      cases hps : P.pattern s with
      | nil => rfl
      | cons p ps =>
        rw [hps] at hcovers h
        cases p with
        | lit x => cases hcovers
        | hit m =>
          obtain ⟨-, hne⟩ := hP.declined s m (hps ▸ List.mem_cons_self) 0 s w (h _ List.mem_cons_self)
          exact absurd (List.append_eq_nil_iff.mp hcovers).1 hne
    rw [processToken_text, if_pos (by rw [hnone]; rfl)]
    exact ⟨.refl, rfl⟩
  · obtain ⟨hcuts, hworld⟩ := hP.matchLoop_cutsTo s (fun _ hm => hm) 0 [] w h
    have hcovers : joined (P.pattern s) = s := hP.covers s
    rw [hcovers, List.reverse_nil, List.nil_append, between_of_ne_nil hs] at hcuts
    rw [processToken_of_ne_nil hP.toKeeps hs]
    exact ⟨hcuts, hworld⟩

/-- A processor that declines all its matches cuts the text at their edges, and does nothing else. -/
theorem Leaves.processTokens_cutsTo (hP : Leaves P) (hs : Restores tokens content) {w : σ}
    (h : Declines P tokens w) :
    CutsTo (edgesOf P tokens) tokens (processTokens P tokens w).1 ∧ (processTokens P tokens w).2 = w := by
  induction tokens generalizing content with
  | nil => exact ⟨.refl, rfl⟩
  | cons token tokens ih =>
    obtain ⟨t, r, rfl, ht, hr⟩ := hs.uncons
    obtain ⟨hhead, htail⟩ := List.forall_mem_append.mp h
    have hplaces := placesOf_shift P 0 token.width tokens
    rw [Nat.zero_add] at hplaces
    -- what the later tokens are cut at lies behind this one
    have hlater (us : List (ContentToken ν)) (hus : widths us = token.width)
        (hcuts : CutsTo (edgesOf P tokens) tokens (processTokens P tokens w).1) :
        CutsTo (edgesOf P (token :: tokens)) (us ++ tokens) (us ++ (processTokens P tokens w).1) := by
      refine (hcuts.append_left us).mono ?_
      rintro e ⟨d, ⟨p, hp, hd⟩, rfl⟩
      refine ⟨(p.1 + token.width, p.2 + token.width), ?_, ?_⟩
      · rw [placesOf, Nat.zero_add, hplaces]
        exact List.mem_append_right _ (List.mem_map_of_mem hp)
      · simp only [hus]
        omega
    rw [processTokens]
    dsimp only
    rcases ht.text_or with rfl | hnone
    · obtain ⟨hcuts, hworld⟩ := hP.processToken_cutsTo t w hhead
      rw [hworld] at htail ⊢
      obtain ⟨hrest, hworld'⟩ := ih hr htail
      have htoken := restores_text (ν := ν) t
      have hout := ((hcuts.refines htoken).restores htoken).widths
      refine ⟨?_, hworld'⟩
      refine CutsTo.trans (CutsTo.mono (hcuts.append_right htoken ?_ tokens) ?_) (hlater _ hout hrest)
      · rintro e ⟨p, hp, he⟩
        have hbounds := bounds_of_mem_places hp
        have hcovers : joined (P.pattern t) = t := hP.covers t
        rw [hcovers] at hbounds
        simp only [widths_cons, widths_nil, width_textToken]
        omega
      · rintro e ⟨p, hp, he⟩
        exact ⟨p, List.mem_append_left _ hp, he⟩
    · have hkeep : processToken P token w = ([token], w) := by
        simp [Content.processToken, hnone]
      rw [hkeep] at htail ⊢
      obtain ⟨hrest, hworld⟩ := ih hr htail
      exact ⟨hlater [token] (by simp) hrest, hworld⟩

/-- A stream can be taken apart at a place. -/
def SplitsAt (e : Nat) (tokens : List (ContentToken ν)) : Prop :=
  ∃ ts us, tokens = ts ++ us ∧ widths ts = e

theorem SplitsAt.append_left (h : SplitsAt e us) (ts : List (ContentToken ν)) :
    SplitsAt (widths ts + e) (ts ++ us) := by
  obtain ⟨a, b, rfl, rfl⟩ := h
  exact ⟨ts ++ a, b, (List.append_assoc ..).symm, widths_append ts a⟩

theorem SplitsAt.append_right (h : SplitsAt e ts) (us : List (ContentToken ν)) :
    SplitsAt e (ts ++ us) := by
  obtain ⟨a, b, rfl, rfl⟩ := h
  exact ⟨a, b ++ us, List.append_assoc .., rfl⟩

theorem Restores.split (h : Restores (ts ++ us) s) :
    ∃ a b, s = a ++ b ∧ Restores ts a ∧ Restores us b := by
  induction ts generalizing s with
  | nil => exact ⟨[], s, rfl, restores_nil, h⟩
  | cons token ts ih =>
    obtain ⟨t, r, rfl, ht, hr⟩ := h.uncons
    obtain ⟨a, b, rfl, ha, hb⟩ := ih hr
    exact ⟨t ++ a, b, (List.append_assoc ..).symm, ha.cons ht, hb⟩

/-- Later processors leave a stream taken apart where it is. -/
theorem SplitsAt.refines (h : SplitsAt e ts) (hs : Restores ts s) (hr : Refines ts us) :
    SplitsAt e us := by
  obtain ⟨a, b, rfl, rfl⟩ := h
  obtain ⟨c, d, rfl, hc, -⟩ := hr.split
  obtain ⟨t, -, -, ht, -⟩ := hs.split
  exact ⟨c, d, rfl, by rw [(hc.restores ht).widths, ht.widths]⟩

theorem matchLoop_splitsAt (hP : Keeps P) (full : JsString) {ps : List (Piece UInt16)} (offset : Nat)
    (before : JsString) (w : σ) {p : Nat × Nat} (hp : p ∈ places before.length ps) :
    SplitsAt p.1 (matchLoop P full ps offset before w).1 ∧
      SplitsAt p.2 (matchLoop P full ps offset before w).1 := by
  induction ps generalizing offset before w p with
  | nil => cases hp
  | cons q ps ih =>
    cases q with
    | lit x => exact ih (offset + 1) (x :: before) w hp
    | hit m =>
      simp only [matchLoop]
      have hwidth := (hP.stands m offset full w).width
      have hleft : widths (between before.reverse : List (ContentToken ν)) = before.length := by simp
      rcases List.mem_cons.mp hp with rfl | hp
      · refine ⟨⟨between before.reverse, _, rfl, hleft⟩,
          ⟨between before.reverse ++ [resultToken (P.process m offset full w).1], _,
            by rw [List.append_assoc, List.singleton_append], ?_⟩⟩
        rw [widths_append, hleft, widths_cons, hwidth, widths_nil, Nat.add_zero]
      · have hmoved := places_shift 0 (before.length + m.text.length) ps
        rw [Nat.zero_add] at hmoved
        rw [hmoved] at hp
        obtain ⟨d, hd, rfl⟩ := List.mem_map.mp hp
        obtain ⟨hfirst, hsecond⟩ := ih (offset + m.text.length) [] (P.process m offset full w).2 hd
        have hbehind (e : Nat) (us : List (ContentToken ν)) (he : SplitsAt e us) :
            SplitsAt (e + (before.length + m.text.length))
              (between before.reverse ++ resultToken (P.process m offset full w).1 :: us) := by
          have hsplit := (he.append_left [resultToken (P.process m offset full w).1]).append_left
            (between before.reverse)
          rw [hleft, widths_cons, hwidth, widths_nil, Nat.add_zero, ← Nat.add_assoc, Nat.add_comm] at hsplit
          exact hsplit
        exact ⟨hbehind _ _ hfirst, hbehind _ _ hsecond⟩

/-- A stream is taken apart at the edges of the matches. -/
theorem processTokens_splitsAt (hP : Keeps P) (hs : Restores tokens content) (w : σ)
    (he : edgesOf P tokens e) : SplitsAt e (processTokens P tokens w).1 := by
  induction tokens generalizing content w e with
  | nil =>
    obtain ⟨p, hp, -⟩ := he
    cases hp
  | cons token tokens ih =>
    obtain ⟨t, r, rfl, ht, hr⟩ := hs.uncons
    have htoken : Restores [token] t := by simpa using restores_nil.cons ht
    have hout := ((hP.processToken ht w).restores htoken).widths
    obtain ⟨p, hp, hedge⟩ := he
    rw [placesOf] at hp
    rw [processTokens]
    dsimp only
    rcases List.mem_append.mp hp with hp | hp
    · rcases ht.text_or with rfl | hnone
      · refine SplitsAt.append_right ?_ _
        have hhits : ¬ ((P.pattern t).filterMap Piece.hit?).isEmpty := by
          obtain ⟨pre, m, post, hpieces, -⟩ := exists_of_mem_places hp
          simp [hpieces, Piece.hit?]
        rw [processToken_text, if_neg hhits]
        obtain ⟨hfirst, hsecond⟩ := matchLoop_splitsAt hP t 0 [] w hp
        rcases hedge with rfl | rfl
        · exact hfirst
        · exact hsecond
      · simp [hnone] at hp
    · rw [placesOf_shift] at hp
      obtain ⟨d, hd, rfl⟩ := List.mem_map.mp hp
      have hlater (e : Nat) (he : edgesOf P tokens e) : SplitsAt (e + token.width)
          ((processToken P token w).1 ++ (processTokens P tokens (processToken P token w).2).1) := by
        have hsplit := (ih hr (processToken P token w).2 he).append_left (processToken P token w).1
        rwa [hout, ← ht.width, Nat.add_comm] at hsplit
      rcases hedge with rfl | rfl
      · exact hlater _ ⟨d, hd, .inl rfl⟩
      · exact hlater _ ⟨d, hd, .inr rfl⟩

theorem bounds_of_mem_markedPlaces {p : Nat × Nat} (h : p ∈ markedPlaces o tokens) :
    o ≤ p.1 ∧ p.2 ≤ o + widths tokens := by
  induction tokens generalizing o with
  | nil => cases h
  | cons token tokens ih =>
    rw [markedPlaces] at h
    rw [widths_cons]
    rcases List.mem_append.mp h with h | h
    · cases htext : token.text? with
      | none =>
        obtain rfl : p = (o, o + token.width) := by simpa [htext] using h
        simp only
        omega
      | some s => simp [htext] at h
    · have hbounds := ih h
      omega

/-- No token reaches across a place where the stream can be taken apart. -/
theorem not_reaches_of_splitsAt (h : SplitsAt e tokens) {p : Nat × Nat}
    (hp : p ∈ markedPlaces 0 tokens) : ¬ Reaches p e := by
  obtain ⟨ts, us, rfl, rfl⟩ := h
  rw [markedPlaces_append, Nat.zero_add] at hp
  rintro ⟨hbefore, hbehind⟩
  rcases List.mem_append.mp hp with hp | hp
  · have hbounds := bounds_of_mem_markedPlaces hp
    omega
  · have hbounds := bounds_of_mem_markedPlaces hp
    omega

/-- A processor that declines all its matches makes no difference where no later processor has a
match across an edge of them, and makes one where the stream without it has a token across one. -/
theorem mergeText_runProcessors (hP : Leaves P)
    (hQs : ∀ Q ∈ Qs, ∃ re, Searches Q re ∧ ∀ e, edgesOf P ts e → Quiet re e content)
    (hs : Restores ts content) {w : σ} (h : Declines P ts w) :
    (Unbroken (edgesOf P ts) Qs ts w →
      mergeText (runProcessors (P :: Qs) ts w).1 = mergeText (runProcessors Qs ts w).1) ∧
    ((∃ p ∈ markedPlaces 0 (runProcessors Qs ts w).1, ∃ e, edgesOf P ts e ∧ Reaches p e) →
      mergeText (runProcessors (P :: Qs) ts w).1 ≠ mergeText (runProcessors Qs ts w).1) := by
  obtain ⟨hcuts, hworld⟩ := hP.processTokens_cutsTo hs h
  have hkeeps : ∀ Q ∈ Qs, Keeps Q := by
    intro Q hQ
    obtain ⟨re, hre, -⟩ := hQs Q hQ
    exact hre.toKeeps
  have hwithout := (refines_runProcessors hkeeps hs w).restores hs
  have hfirst := (hP.processTokens hs w).restores hs
  rw [runProcessors]
  dsimp only
  rw [hworld]
  constructor
  · intro hunbroken
    exact (runProcessors_cutsTo hQs hs hcuts hunbroken).mergeText hwithout
  · rintro ⟨p, hp, e, he, hreach⟩ heq
    have hlater := refines_runProcessors hkeeps hfirst w
    have hsplits := (processTokens_splitsAt hP.toKeeps hs w he).refines hfirst hlater
    rw [← markedPlaces_mergeText hwithout, ← heq, markedPlaces_mergeText (hlater.restores hfirst)] at hp
    exact not_reaches_of_splitsAt hsplits hp hreach

end Runs

end LivelierBridge.Content
