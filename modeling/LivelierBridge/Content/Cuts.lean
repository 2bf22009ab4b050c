import LivelierBridge.Content.Lossless
import LivelierBridge.Framework.RegexCut

namespace LivelierBridge.Content

open Framework Js

variable {ν σ : Type}

/-- How much of the content a token stands for. -/
def ContentToken.width (token : ContentToken ν) : Nat :=
  match token.restored with
  | some (.str s) => s.length
  | none | some .null | some (.bool _) | some (.num _) | some (.arr _) | some (.obj _) => 0

def widths : List (ContentToken ν) → Nat
  | [] => 0
  | token :: tokens => token.width + widths tokens

/-- A text token put before others, merged with the first of them if that is text too. -/
def joinText (token : ContentToken ν) : List (ContentToken ν) → List (ContentToken ν)
  | [] => [token]
  | next :: tokens =>
    match token.text?, next.text? with
    | some s, some t => textToken (s ++ t) :: tokens
    | some _, none | none, some _ | none, none => token :: next :: tokens

/-- Merge adjacent text tokens. -/
def mergeText (tokens : List (ContentToken ν)) : List (ContentToken ν) := tokens.foldr joinText []

/-- Where the processor finds its matches in the tokens, counted in the content. -/
def placesOf (P : ContentProcessor ν σ) : Nat → List (ContentToken ν) → List (Nat × Nat)
  | _, [] => []
  | o, token :: tokens =>
    (match token.text? with
    | none => []
    | some s => Regex.places o (P.pattern s)) ++ placesOf P (o + token.width) tokens

/-- Where the tokens stand that are not text. -/
def markedPlaces : Nat → List (ContentToken ν) → List (Nat × Nat)
  | _, [] => []
  | o, token :: tokens =>
    (match token.text? with
    | none => [(o, o + token.width)]
    | some _ => []) ++ markedPlaces (o + token.width) tokens

/-- Cut a text token in two. -/
def cutToken (e : Nat) (token : ContentToken ν) : List (ContentToken ν) :=
  match token.text? with
  | none => [token]
  | some s => if 0 < e ∧ e < s.length then [textToken (s.take e), textToken (s.drop e)] else [token]

/-- Cut the text at a place of the content. -/
def cutAt : Nat → List (ContentToken ν) → List (ContentToken ν)
  | _, [] => []
  | e, token :: tokens =>
    if e < token.width then cutToken e token ++ tokens else token :: cutAt (e - token.width) tokens

/-- The second stream is the first one, cut at some of the edges. -/
inductive CutsTo (E : Nat → Prop) (ts : List (ContentToken ν)) : List (ContentToken ν) → Prop
  | refl : CutsTo E ts ts
  | cut {us : List (ContentToken ν)} {e : Nat} (h : CutsTo E ts us) (he : E e) :
      CutsTo E ts (cutAt e us)

section Widths

variable {token : ContentToken ν} {tokens ts us : List (ContentToken ν)} {s : JsString} {e o : Nat}

@[simp] theorem text?_textToken (s : JsString) : (textToken s : ContentToken ν).text? = some s := rfl

@[simp] theorem width_textToken (s : JsString) : (textToken s : ContentToken ν).width = s.length := rfl

theorem placesOf_text (P : ContentProcessor ν σ) (o : Nat) (s : JsString)
    (tokens : List (ContentToken ν)) : placesOf P o (textToken s :: tokens) =
      Regex.places o (P.pattern s) ++ placesOf P (o + s.length) tokens := rfl

@[simp] theorem widths_nil : widths ([] : List (ContentToken ν)) = 0 := rfl

@[simp] theorem widths_cons (token : ContentToken ν) (tokens : List (ContentToken ν)) :
    widths (token :: tokens) = token.width + widths tokens := rfl

@[simp] theorem widths_append (ts us : List (ContentToken ν)) :
    widths (ts ++ us) = widths ts + widths us := by
  induction ts with
  | nil => simp
  | cons token ts ih => simp [ih, Nat.add_assoc]

theorem Stands.width (h : Stands token s) : token.width = s.length := by
  simp [ContentToken.width, h.restored]

theorem Restores.widths (h : Restores tokens s) : widths tokens = s.length := by
  induction tokens generalizing s with
  | nil =>
    obtain ⟨texts, hall, rfl⟩ := h
    cases hall
    rfl
  | cons token tokens ih =>
    obtain ⟨t, r, rfl, ht, hr⟩ := h.uncons
    rw [widths_cons, ht.width, ih hr, List.length_append]

/-- A token is a text, or something else that stands for one. -/
theorem Stands.text_or (h : Stands token s) : token = textToken s ∨ token.text? = none := by
  cases h with
  | text => exact .inl rfl
  | special _ _ ht =>
    right
    unfold ContentToken.text?
    split
    · rw [if_neg ht]
    all_goals rfl

end Widths

section Cutting

variable {token : ContentToken ν} {tokens ts us vs : List (ContentToken ν)} {s : JsString} {e o : Nat}
  {E E' : Nat → Prop}

theorem cutToken_text (h : 0 < e ∧ e < s.length) :
    cutToken e (textToken s : ContentToken ν) = [textToken (s.take e), textToken (s.drop e)] := by
  simp [cutToken, h]

theorem cutToken_of_none (h : token.text? = none) (e : Nat) : cutToken e token = [token] := by
  simp [cutToken, h]

theorem cutAt_zero (ts : List (ContentToken ν)) : cutAt 0 ts = ts := by
  induction ts with
  | nil => rfl
  | cons token ts ih =>
    have hkeep : cutToken 0 token = [token] := by
      unfold cutToken
      split
      · rfl
      · rw [if_neg (by omega)]
    rw [cutAt, hkeep, Nat.zero_sub, ih]
    split_ifs <;> rfl

theorem cutAt_append_of_lt (h : e < widths ts) : cutAt e (ts ++ us) = cutAt e ts ++ us := by
  induction ts generalizing e with
  | nil => simp at h
  | cons token ts ih =>
    rw [List.cons_append, cutAt, cutAt]
    split_ifs with hlt
    · rw [List.append_assoc]
    · rw [ih (by simp only [widths_cons] at h; omega), List.cons_append]

theorem cutAt_append_of_le (h : widths ts ≤ e) :
    cutAt e (ts ++ us) = ts ++ cutAt (e - widths ts) us := by
  induction ts generalizing e with
  | nil => simp
  | cons token ts ih =>
    simp only [widths_cons] at h
    rw [List.cons_append, cutAt, if_neg (by omega), ih (by omega), widths_cons, Nat.sub_add_eq,
      List.cons_append]

theorem cutAt_of_le (h : widths ts ≤ e) : cutAt e ts = ts := by
  have happend : cutAt e (ts ++ []) = ts ++ cutAt (e - widths ts) [] := cutAt_append_of_le h
  rwa [List.append_nil, cutAt, List.append_nil] at happend

theorem cutAt_append_of_widths_le (h : e ≤ widths ts) :
    cutAt e (ts ++ us) = cutAt e ts ++ us := by
  rcases Nat.lt_or_eq_of_le h with hlt | rfl
  · exact cutAt_append_of_lt hlt
  · rw [cutAt_append_of_le (Nat.le_refl _), cutAt_of_le (Nat.le_refl _), Nat.sub_self, cutAt_zero]

@[simp] theorem between_nil : between ([] : JsString) = ([] : List (ContentToken ν)) := rfl

theorem between_of_ne_nil (h : s ≠ []) : (between s : List (ContentToken ν)) = [textToken s] := by
  rw [between, if_neg (by simpa using h)]

@[simp] theorem widths_between (s : JsString) : widths (between s : List (ContentToken ν)) = s.length :=
  (restores_between s).widths

/-- A cut inside a text makes two texts of it. -/
theorem cutAt_between (a c : JsString) (us : List (ContentToken ν)) :
    cutAt a.length (between (a ++ c) ++ us) = between a ++ (between c ++ us) := by
  cases a with
  | nil => simp [cutAt_zero]
  | cons x xs =>
    cases c with
    | nil =>
      have hwidth : widths (between (x :: xs) : List (ContentToken ν)) = (x :: xs).length := by simp
      rw [List.append_nil, cutAt_append_of_le (by rw [hwidth]), hwidth, Nat.sub_self, cutAt_zero,
        between_nil, List.nil_append]
    | cons y ys =>
      rw [between_of_ne_nil (by simp), between_of_ne_nil (by simp), between_of_ne_nil (by simp)]
      rw [List.singleton_append, cutAt, if_pos (by simp), cutToken_text (by simp), List.take_left,
        List.drop_left]
      rfl

theorem CutsTo.mono (h : CutsTo E ts us) (hE : ∀ e, E e → E' e) : CutsTo E' ts us := by
  induction h with
  | refl => exact .refl
  | cut _ he ih => exact ih.cut (hE _ he)

theorem CutsTo.trans (h : CutsTo E ts us) (h' : CutsTo E us vs) : CutsTo E ts vs := by
  induction h' with
  | refl => exact h
  | cut _ he ih => exact ih.cut he

/-- A cut makes a text of each side, and nothing else of a stream. -/
theorem refines_cutAt (h : Restores tokens s) (e : Nat) : Refines tokens (cutAt e tokens) := by
  induction tokens generalizing s e with
  | nil => exact .nil
  | cons token tokens ih =>
    obtain ⟨t, r, rfl, ht, hr⟩ := h.uncons
    rw [cutAt]
    split_ifs
    · rcases ht.text_or with rfl | hnone
      · rw [cutToken, text?_textToken]
        dsimp only
        split_ifs
        · have hparts := (restores_text (ν := ν) (t.take e)).append (restores_text (t.drop e))
          rw [List.take_append_drop] at hparts
          exact .cut hparts (refines_refl tokens)
        · exact refines_refl _
      · rw [cutToken_of_none hnone]
        exact refines_refl _
    · exact .keep token (ih hr _)

theorem CutsTo.refines (h : CutsTo E ts us) (hs : Restores ts s) : Refines ts us := by
  induction h with
  | refl => exact refines_refl ts
  | cut _ _ ih => exact ih.trans (refines_cutAt (ih.restores hs) _)

theorem CutsTo.append_left (h : CutsTo E us vs) (ts : List (ContentToken ν)) :
    CutsTo (fun e => ∃ d, E d ∧ e = widths ts + d) (ts ++ us) (ts ++ vs) := by
  induction h with
  | refl => exact .refl
  | @cut vs d _ hd ih =>
    have hcut := ih.cut ⟨d, hd, rfl⟩
    rwa [cutAt_append_of_le (by omega), Nat.add_sub_cancel_left] at hcut

theorem CutsTo.append_right (h : CutsTo E ts us) (hs : Restores ts s)
    (hE : ∀ e, E e → e ≤ widths ts) (vs : List (ContentToken ν)) :
    CutsTo E (ts ++ vs) (us ++ vs) := by
  induction h with
  | refl => exact .refl
  | @cut us e h he ih =>
    have hcut := ih.cut he
    have hwidths : widths us = widths ts := by
      rw [((h.refines hs).restores hs).widths, hs.widths]
    rwa [cutAt_append_of_widths_le (by rw [hwidths]; exact hE e he)] at hcut

end Cutting

section Merging

variable {token : ContentToken ν} {tokens ts us : List (ContentToken ν)} {s t : JsString} {e o : Nat}
  {E : Nat → Prop}

theorem joinText_joinText (s t : JsString) (ts : List (ContentToken ν)) :
    joinText (textToken s) (joinText (textToken t) ts) = joinText (textToken (s ++ t)) ts := by
  cases ts with
  | nil => rfl
  | cons next ts =>
    cases hnext : next.text? with
    | none => simp [joinText, hnext]
    | some u => simp [joinText, hnext]

theorem joinText_of_text?_eq_none (h : token.text? = none) (ts : List (ContentToken ν)) :
    joinText token ts = token :: ts := by
  cases ts with
  | nil => rfl
  | cons next ts => cases hnext : next.text? <;> simp [joinText, h, hnext]

theorem mergeText_cons (token : ContentToken ν) (tokens : List (ContentToken ν)) :
    mergeText (token :: tokens) = joinText token (mergeText tokens) := rfl

/-- What a cut does to a stream is undone when text is merged. -/
theorem mergeText_cutAt (h : Restores tokens s) (e : Nat) :
    mergeText (cutAt e tokens) = mergeText tokens := by
  induction tokens generalizing s e with
  | nil => rfl
  | cons token tokens ih =>
    obtain ⟨t, r, rfl, ht, hr⟩ := h.uncons
    rw [cutAt]
    split_ifs
    · rcases ht.text_or with rfl | hnone
      · rw [cutToken, text?_textToken]
        dsimp only
        split_ifs
        · rw [List.cons_append, List.singleton_append, mergeText_cons, mergeText_cons, joinText_joinText,
            List.take_append_drop, mergeText_cons]
        · rfl
      · rw [cutToken_of_none hnone]
        rfl
    · rw [mergeText_cons, mergeText_cons, ih hr]

theorem CutsTo.mergeText (h : CutsTo E ts us) (hs : Restores ts s) : mergeText us = mergeText ts := by
  induction h with
  | refl => rfl
  | cut h _ ih => rw [mergeText_cutAt ((h.refines hs).restores hs), ih]

theorem markedPlaces_append (o : Nat) (ts us : List (ContentToken ν)) :
    markedPlaces o (ts ++ us) = markedPlaces o ts ++ markedPlaces (o + widths ts) us := by
  induction ts generalizing o with
  | nil => simp [markedPlaces]
  | cons token ts ih => simp [markedPlaces, ih, Nat.add_assoc]

theorem markedPlaces_joinText (ht : Stands token t) (hs : Restores ts s) (o : Nat) :
    markedPlaces o (joinText token ts) = markedPlaces o (token :: ts) := by
  rcases ht.text_or with rfl | hnone
  · cases ts with
    | nil => rfl
    | cons next ts =>
      obtain ⟨u, r, rfl, hu, hr⟩ := hs.uncons
      rcases hu.text_or with rfl | hnext
      · simp [joinText, markedPlaces, Nat.add_assoc]
      · simp [joinText, hnext]
  · rw [joinText_of_text?_eq_none hnone]

theorem restores_joinText (ht : Stands token t) (hs : Restores ts s) :
    Restores (joinText token ts) (t ++ s) := by
  rcases ht.text_or with rfl | hnone
  · cases ts with
    | nil => exact hs.cons ht
    | cons next ts =>
      obtain ⟨u, r, rfl, hu, hr⟩ := hs.uncons
      rcases hu.text_or with rfl | hnext
      · have hjoined := hr.cons (Stands.text (ν := ν) (t ++ u))
        rwa [List.append_assoc] at hjoined
      · simpa [joinText, hnext] using hs.cons ht
  · rw [joinText_of_text?_eq_none hnone]
    exact hs.cons ht

theorem restores_mergeText (h : Restores tokens s) : Restores (mergeText tokens) s := by
  induction tokens generalizing s with
  | nil => exact h
  | cons token tokens ih =>
    obtain ⟨t, r, rfl, ht, hr⟩ := h.uncons
    exact restores_joinText ht (ih hr)

/-- Merged text leaves everything else where it is. -/
theorem markedPlaces_mergeText (h : Restores tokens s) (o : Nat) :
    markedPlaces o (mergeText tokens) = markedPlaces o tokens := by
  induction tokens generalizing s o with
  | nil => rfl
  | cons token tokens ih =>
    obtain ⟨t, r, rfl, ht, hr⟩ := h.uncons
    rw [mergeText_cons, markedPlaces_joinText ht (restores_mergeText hr), markedPlaces, markedPlaces,
      ih hr]

/-- Whether the values of tokens can be converted does not depend on how the text is cut. -/
theorem stringifiable_mergeText (h : Restores tokens s) :
    (∀ token ∈ mergeText tokens, token.value.stringifiable = true) ↔
      ∀ token ∈ tokens, token.value.stringifiable = true := by
  have htext (s : JsString) : (textToken s : ContentToken ν).value.stringifiable = true := rfl
  induction tokens generalizing s with
  | nil => rfl
  | cons token tokens ih =>
    obtain ⟨t, r, rfl, ht, hr⟩ := h.uncons
    have hmerged := restores_mergeText hr
    rw [mergeText_cons, List.forall_mem_cons]
    refine Iff.trans ?_ (and_congr_right fun _ => ih hr)
    rcases ht.text_or with rfl | hnone
    · cases hm : mergeText tokens with
      | nil => simp [joinText]
      | cons next rest =>
        rw [hm] at hmerged
        obtain ⟨u, r', rfl, hu, -⟩ := hmerged.uncons
        rcases hu.text_or with rfl | hnext
        · simp [joinText, htext]
        · simp [joinText, hnext]
    · rw [joinText_of_text?_eq_none hnone, List.forall_mem_cons]

end Merging

end LivelierBridge.Content
