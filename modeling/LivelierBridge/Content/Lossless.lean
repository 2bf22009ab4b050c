import LivelierBridge.Content.Processors
import LivelierBridge.Owncast.Frames

namespace LivelierBridge.Content

open Framework Js Nostr

variable {ν σ : Type}

/-- `metadata.originalText` of a token with metadata, and the value of one without. -/
def ContentToken.restored (token : ContentToken ν) : Option (Json ν) :=
  match token.metadata with
  | some metadata => optionalProp (some metadata) (js "originalText")
  | none => some token.value

/-- A token for a piece of the content: text, or what a processor has made of it. -/
inductive Stands : ContentToken ν → JsString → Prop
  | text (s : JsString) : Stands (textToken s) s
  | special {token : ContentToken ν} {metadata : Json ν} {s : JsString}
      (h : token.metadata = some metadata)
      (hs : optionalProp (some metadata) (js "originalText") = some (.str s))
      (ht : token.type ≠ js "text") : Stands token s

/-- The tokens stand for the text, piece by piece. -/
def Restores (tokens : List (ContentToken ν)) (s : JsString) : Prop :=
  ∃ texts, List.Forall₂ Stands tokens texts ∧ texts.flatten = s

/-- What processors may do to tokens: they cut text, and leave everything else where it is. -/
inductive Refines : List (ContentToken ν) → List (ContentToken ν) → Prop
  | nil : Refines [] []
  | keep (token : ContentToken ν) {ts ts' : List (ContentToken ν)} (h : Refines ts ts') :
      Refines (token :: ts) (token :: ts')
  | cut {s : JsString} {part ts ts' : List (ContentToken ν)} (hs : Restores part s)
      (h : Refines ts ts') : Refines (textToken s :: ts) (part ++ ts')

/-- A processor that only cuts a text, and makes of each match a token for it. -/
structure Keeps (P : ContentProcessor ν σ) : Prop where
  covers : ∀ s, (P.pattern s).flatMap (Regex.Piece.render Regex.Match.text) = s
  stands : ∀ m offset full w, Stands (resultToken (P.process m offset full w).1) m.text

section Restoring

variable {token : ContentToken ν} {tokens ts ts' us us' : List (ContentToken ν)} {s t : JsString}

theorem Stands.restored (h : Stands token s) : token.restored = some (.str s) := by
  cases h with
  | text => rfl
  | special hm hs _ => simp [ContentToken.restored, hm, hs]

theorem stands_text (h : Stands (textToken s : ContentToken ν) t) : t = s := by
  cases h with
  | text => rfl
  | special hm _ _ => cases hm

theorem restores_nil : Restores ([] : List (ContentToken ν)) [] := ⟨[], .nil, rfl⟩

theorem Restores.cons (h : Stands token t) (hs : Restores tokens s) :
    Restores (token :: tokens) (t ++ s) := by
  obtain ⟨texts, hall, rfl⟩ := hs
  exact ⟨t :: texts, .cons h hall, rfl⟩

theorem Restores.uncons (h : Restores (token :: tokens) s) :
    ∃ t r, s = t ++ r ∧ Stands token t ∧ Restores tokens r := by
  obtain ⟨texts, hall, rfl⟩ := h
  cases hall with
  | @cons _ t _ texts ht hall => exact ⟨t, texts.flatten, rfl, ht, texts, hall, rfl⟩

theorem Restores.append (h : Restores ts s) (h' : Restores us t) : Restores (ts ++ us) (s ++ t) := by
  obtain ⟨texts, hall, rfl⟩ := h
  obtain ⟨texts', hall', rfl⟩ := h'
  exact ⟨texts ++ texts', List.rel_append hall hall', List.flatten_append⟩

theorem restores_text (s : JsString) : Restores [(textToken s : ContentToken ν)] s := by
  simpa using restores_nil.cons (.text s)

theorem restores_between (s : JsString) : Restores (between s : List (ContentToken ν)) s := by
  unfold between
  cases s with
  | nil => exact restores_nil
  | cons u us => exact restores_text (u :: us)

/-- The restored texts, put together. -/
theorem Restores.restored (h : Restores tokens s) :
    ∃ texts : List JsString,
      tokens.map ContentToken.restored = texts.map (fun t => some (.str t)) ∧ texts.flatten = s := by
  obtain ⟨texts, hall, rfl⟩ := h
  refine ⟨texts, ?_, rfl⟩
  induction hall with
  | nil => rfl
  | cons h _ ih => simp [h.restored, ih]

theorem Refines.append (h : Refines ts ts') (h' : Refines us us') :
    Refines (ts ++ us) (ts' ++ us') := by
  induction h with
  | nil => exact h'
  | keep token _ ih => exact .keep token ih
  | cut hs _ ih =>
    rw [List.append_assoc]
    exact .cut hs ih

theorem refines_refl (ts : List (ContentToken ν)) : Refines ts ts := by
  induction ts with
  | nil => exact .nil
  | cons token ts ih => exact .keep token ih

/-- A refinement of two parts is a refinement of each. -/
theorem Refines.split (h : Refines (ts ++ us) ts') :
    ∃ a b, ts' = a ++ b ∧ Refines ts a ∧ Refines us b := by
  induction ts generalizing ts' with
  | nil => exact ⟨[], ts', rfl, .nil, h⟩
  | cons token ts ih =>
    cases h with
    | keep _ h =>
      obtain ⟨a, b, rfl, ha, hb⟩ := ih h
      exact ⟨token :: a, b, rfl, .keep token ha, hb⟩
    | cut hs h =>
      obtain ⟨a, b, rfl, ha, hb⟩ := ih h
      exact ⟨_ ++ a, b, (List.append_assoc ..).symm, .cut hs ha, hb⟩

theorem Refines.restores (h : Refines ts ts') (hs : Restores ts s) : Restores ts' s := by
  induction h generalizing s with
  | nil => exact hs
  | keep token _ ih =>
    obtain ⟨t, r, rfl, ht, hr⟩ := hs.uncons
    exact (ih hr).cons ht
  | cut hpart _ ih =>
    obtain ⟨t, r, rfl, ht, hr⟩ := hs.uncons
    obtain rfl := stands_text ht
    exact hpart.append (ih hr)

theorem Refines.trans (h : Refines ts ts') (h' : Refines ts' us) : Refines ts us := by
  induction h generalizing us with
  | nil => exact h'
  | keep token _ ih =>
    cases h' with
    | keep _ h' => exact .keep token (ih h')
    | cut hs h' => exact .cut hs (ih h')
  | cut hs _ ih =>
    obtain ⟨a, b, rfl, ha, hb⟩ := h'.split
    exact .cut (ha.restores hs) (ih hb)

end Restoring

section Pipeline

variable {P : ContentProcessor ν σ} {Ps : List (ContentProcessor ν σ)}
  {token : ContentToken ν} {tokens : List (ContentToken ν)} {s : JsString}

/-- What the loop has made of the matches, and the text it carries along, restore what it was
given; by induction on the pieces. -/
theorem Keeps.matchLoop (h : Keeps P) (full : JsString) (ps : List (Regex.Piece UInt16)) (offset : Nat)
    (before : JsString) (w : σ) : Restores (matchLoop P full ps offset before w).1
      (before.reverse ++ ps.flatMap (Regex.Piece.render Regex.Match.text)) := by
  induction ps generalizing offset before w with
  | nil => simpa [Content.matchLoop] using restores_between before.reverse
  | cons p ps ih =>
    cases p with
    | lit x => simpa [Content.matchLoop, Regex.Piece.render] using ih (offset + 1) (x :: before) w
    | hit m =>
      have hrest := ih (offset + m.text.length) [] (P.process m offset full w).2
      have htoken := hrest.cons (h.stands m offset full w)
      simpa [Content.matchLoop, Regex.Piece.render] using (restores_between before.reverse).append htoken

theorem processToken_text (P : ContentProcessor ν σ) (s : JsString) (w : σ) :
    processToken P (textToken s) w =
      if ((P.pattern s).filterMap Regex.Piece.hit?).isEmpty then ([textToken s], w)
      else matchLoop P s (P.pattern s) 0 [] w := by
  simp [processToken, textToken, ContentToken.text?]

theorem Keeps.processToken (h : Keeps P) (hs : Stands token s) (w : σ) :
    Refines [token] (processToken P token w).1 := by
  cases hs with
  | text =>
    have hloop := h.matchLoop s (P.pattern s) 0 [] w
    rw [h.covers, List.reverse_nil, List.nil_append] at hloop
    rw [processToken_text]
    split_ifs
    · exact refines_refl _
    · simpa using Refines.cut hloop .nil
  | special _ _ ht =>
    have hnone : token.text? = none := by
      unfold ContentToken.text?
      split
      · rw [if_neg ht]
      all_goals rfl
    simp only [Content.processToken, hnone]
    exact refines_refl _

theorem Keeps.processTokens (h : Keeps P) (hs : Restores tokens s) (w : σ) :
    Refines tokens (processTokens P tokens w).1 := by
  induction tokens generalizing s w with
  | nil => exact .nil
  | cons token tokens ih =>
    obtain ⟨t, r, rfl, ht, hr⟩ := hs.uncons
    exact (h.processToken ht w).append (ih hr _)

theorem refines_runProcessors (h : ∀ P ∈ Ps, Keeps P) (hs : Restores tokens s) (w : σ) :
    Refines tokens (runProcessors Ps tokens w).1 := by
  induction Ps generalizing tokens w with
  | nil => exact refines_refl tokens
  | cons P Ps ih =>
    obtain ⟨hP, hPs⟩ := List.forall_mem_cons.mp h
    have hfirst := hP.processTokens hs w
    exact hfirst.trans (ih hPs (hfirst.restores hs) _)

theorem runProcessors_append (Ps Qs : List (ContentProcessor ν σ)) (tokens : List (ContentToken ν))
    (w : σ) : runProcessors (Ps ++ Qs) tokens w =
      runProcessors Qs (runProcessors Ps tokens w).1 (runProcessors Ps tokens w).2 := by
  induction Ps generalizing tokens w with
  | nil => rfl
  | cons P Ps ih => exact ih _ _

theorem mem_byPriority {P : ContentProcessor ν σ} : P ∈ byPriority Ps ↔ P ∈ Ps :=
  (List.perm_insertionSort _ Ps).mem_iff

/-- A property of texts and of what the processors make of matches is one of all tokens. -/
theorem forall_mem_matchLoop {p : ContentToken ν → Prop} (htext : ∀ s, p (textToken s))
    (hP : ∀ m offset full w, p (resultToken (P.process m offset full w).1)) (full : JsString)
    (ps : List (Regex.Piece UInt16)) (offset : Nat) (before : JsString) (w : σ) :
    ∀ token ∈ (matchLoop P full ps offset before w).1, p token := by
  have hbetween (s : JsString) : ∀ token ∈ between s, p token := by
    intro token ht
    unfold between at ht
    split_ifs at ht
    · cases ht
    · rw [List.mem_singleton.mp ht]
      exact htext s
  induction ps generalizing offset before w with
  | nil => exact hbetween _
  | cons piece ps ih =>
    cases piece with
    | lit x => exact ih _ _ _
    | hit m =>
      intro token ht
      rcases List.mem_append.mp ht with ht | ht
      · exact hbetween _ token ht
      · rcases List.mem_cons.mp ht with rfl | ht
        · exact hP m offset full w
        · exact ih _ _ _ token ht

theorem forall_mem_processTokens {p : ContentToken ν → Prop} (htext : ∀ s, p (textToken s))
    (hP : ∀ m offset full w, p (resultToken (P.process m offset full w).1))
    (htokens : ∀ token ∈ tokens, p token) (w : σ) : ∀ token ∈ (processTokens P tokens w).1, p token := by
  induction tokens generalizing w with
  | nil => exact htokens
  | cons first tokens ih =>
    obtain ⟨hfirst, hrest⟩ := List.forall_mem_cons.mp htokens
    intro token ht
    rcases List.mem_append.mp ht with ht | ht
    · have hsame : ∀ token ∈ [first], p token := by simpa using hfirst
      split at ht
      · exact hsame token ht
      · dsimp only at ht
        split_ifs at ht
        · exact hsame token ht
        · exact forall_mem_matchLoop htext hP _ _ _ _ w token ht
    · exact ih hrest _ token ht

theorem forall_mem_runProcessors {p : ContentToken ν → Prop} (htext : ∀ s, p (textToken s))
    (hPs : ∀ P ∈ Ps, ∀ m offset full w, p (resultToken (P.process m offset full w).1))
    (htokens : ∀ token ∈ tokens, p token) (w : σ) :
    ∀ token ∈ (runProcessors Ps tokens w).1, p token := by
  induction Ps generalizing tokens w with
  | nil => exact htokens
  | cons P Ps ih =>
    obtain ⟨hP, hPs⟩ := List.forall_mem_cons.mp hPs
    exact ih hPs (forall_mem_processTokens htext hP htokens w) _

variable [JsNumber ν] {content : JsString} {w : σ} {pc : ProcessedContent ν}

theorem tokens_processContent (h : (processContent Ps content w).1 = .ok pc) :
    pc.tokens = (runProcessors (byPriority Ps) [textToken content] w).1 := by
  obtain ⟨values, -, rfl⟩ := map_eq_ok (x := elementStrs
    ((runProcessors (byPriority Ps) [textToken content] w).1.map ContentToken.value)) h
  rfl

/-- The tokens are joined to a text when each value can be converted. -/
theorem returns_processContent (Ps : List (ContentProcessor ν σ)) (content : JsString) (w : σ) :
    Returns (processContent Ps content w).1 ↔
      ∀ token ∈ (runProcessors (byPriority Ps) [textToken content] w).1,
        token.value.stringifiable = true := by
  unfold processContent
  dsimp only
  rw [returns_map, returns_elementStrs, elementsStringifiable_iff]
  simp

end Pipeline

section Processors

variable (event : Event)

theorem stands_declined (s : JsString) : Stands (resultToken (declined s : ProcessorResult ν)) s :=
  .text s

theorem stands_mention (result : Json ν) (matchText pubkey : JsString) (name : Json ν) :
    Stands (resultToken ⟨result, some (mention matchText pubkey name)⟩) matchText :=
  .special rfl rfl (show js "mention" ≠ js "text" by decide)

theorem stands_link (result : Json ν) (matchText url : JsString) :
    Stands (resultToken ⟨result, some (link matchText url)⟩) matchText :=
  .special rfl rfl (show js "url" ≠ js "text" by decide)

theorem flatten_characters (s : JsString) : (characters s).flatten = s := by
  fun_induction characters s with
  | case1 => rfl
  | case2 u => rfl
  | case3 u v us _ ih => simp [ih]
  | case4 u v us _ ih => simp [ih]

theorem flatMap_pieceUnits (ps : List (Regex.Piece JsString)) :
    (ps.flatMap pieceUnits).flatMap (Regex.Piece.render Regex.Match.text) =
      (ps.flatMap (Regex.Piece.render Regex.Match.text)).flatten := by
  induction ps with
  | nil => rfl
  | cons p ps ih =>
    cases p with
    | lit c =>
      have hlit : (c.map Regex.Piece.lit).flatMap (Regex.Piece.render Regex.Match.text) = c := by
        induction c with
        | nil => rfl
        | cons u us ih => simpa [Regex.Piece.render] using ih
      simp [pieceUnits, Regex.Piece.render, ih, hlit]
    | hit m => simp [pieceUnits, Regex.Piece.render, ih]

theorem covers_pieces (r : Regex UInt16) (s : JsString) :
    (r.pieces s).flatMap (Regex.Piece.render Regex.Match.text) = s :=
  Regex.flatMap_text_scan r 0 none s

theorem covers_urlPieces (isLetter : JsString → Bool) (s : JsString) :
    (urlPieces isLetter s).flatMap (Regex.Piece.render Regex.Match.text) = s := by
  rw [urlPieces, flatMap_pieceUnits, Regex.pieces, Regex.flatMap_text_scan, List.drop_zero,
    flatten_characters]

theorem keeps_emoji : Keeps (emojiProcessor event : ContentProcessor ν σ) where
  covers := covers_pieces _
  stands m offset full w := by
    simp only [emojiProcessor]
    split
    · exact stands_declined _
    · exact .special rfl rfl (show js "emoji" ≠ js "text" by decide)

theorem keeps_njump (id : String) (re : Regex UInt16) :
    Keeps (njumpProcessor id re : ContentProcessor ν σ) where
  covers := covers_pieces _
  stands _ _ _ _ := stands_link ..

variable [JsNumber ν] (lib : Services ν σ)

/-- A mention shows a string, or the profile's name itself behind an `@`. -/
theorem processMention_cases (ref pubkey matchText : JsString) (offset : Nat) (full : JsString)
    (w : σ) : ∃ displayed name,
      (processMention lib ref pubkey matchText offset full w).1 =
        ⟨displayed, some (mention matchText pubkey name)⟩ ∧
      ((∃ s, displayed = .str s) ∨
        0 < offset ∧ full[offset - 1]? = some 64 ∧ displayed = name ∧ name.truthy = true ∧
          (lib.getProfile pubkey w).1 = .named name) := by
  have hfallback : ∃ displayed name,
      (⟨.str (abridgeBech32Id ref), some (mention matchText pubkey (.str (abridgeBech32Id ref)))⟩ :
        ProcessorResult ν) = ⟨displayed, some (mention matchText pubkey name)⟩ ∧
      ((∃ s, displayed = .str s) ∨
        0 < offset ∧ full[offset - 1]? = some 64 ∧ displayed = name ∧ name.truthy = true ∧
          (lib.getProfile pubkey w).1 = .named name) := ⟨_, _, rfl, .inl ⟨_, rfl⟩⟩
  unfold processMention
  dsimp only
  split
  · exact hfallback
  · exact hfallback
  · rename_i name hname
    by_cases htruthy : name.truthy = true
    · rw [if_pos htruthy]
      unfold displayText
      by_cases hat : (0 < offset && full[offset - 1]? = some 64 : Bool) = true
      · rw [if_pos hat]
        obtain ⟨hpos, hsign⟩ : 0 < offset ∧ full[offset - 1]? = some 64 := by simpa using hat
        exact ⟨name, name, rfl, .inr ⟨hpos, hsign, rfl, htruthy, hname⟩⟩
      · rw [if_neg hat]
        cases name.toStr with
        | ok s => exact ⟨_, name, rfl, .inl ⟨_, rfl⟩⟩
        | error e => exact hfallback
    · rw [if_neg htruthy]
      exact hfallback

theorem stands_processMention (ref pubkey matchText : JsString) (offset : Nat) (full : JsString)
    (w : σ) :
    Stands (resultToken (processMention lib ref pubkey matchText offset full w).1) matchText := by
  obtain ⟨displayed, name, h, -⟩ := processMention_cases lib ref pubkey matchText offset full w
  rw [h]
  exact stands_mention ..

theorem keeps_npub : Keeps (npubProcessor lib) where
  covers := covers_pieces _
  stands m offset full w := by
    simp only [npubProcessor]
    split
    · exact stands_processMention lib ..
    all_goals exact stands_declined _

theorem keeps_nprofile : Keeps (nprofileProcessor lib) where
  covers := covers_pieces _
  stands m offset full w := by
    simp only [nprofileProcessor]
    split
    · exact stands_processMention lib ..
    all_goals exact stands_declined _

omit [JsNumber ν] in
theorem keeps_url : Keeps (urlProcessor lib) where
  covers := covers_urlPieces _
  stands m _ _ _ := stands_link (.str m.text) m.text m.text

theorem keeps_displayProcessors : ∀ P ∈ displayProcessors lib event, Keeps P := by
  simp only [displayProcessors, List.forall_mem_cons]
  exact ⟨keeps_emoji event, keeps_npub lib, keeps_nprofile lib, keeps_url lib, keeps_njump ..,
    keeps_njump .., keeps_njump .., by simp⟩

/-- What a profile is named can be converted to a string. -/
def Printable : Prop :=
  ∀ pubkey w name, (lib.getProfile pubkey w).1 = .named name → name.stringifiable = true

theorem value_processMention {p : Json ν → Prop} (hstr : ∀ s, p (.str s))
    (hname : ∀ pubkey w name, (lib.getProfile pubkey w).1 = .named name → name.truthy = true → p name)
    (ref pubkey matchText : JsString) (offset : Nat) (full : JsString) (w : σ) :
    p (resultToken (processMention lib ref pubkey matchText offset full w).1).value := by
  obtain ⟨displayed, name, hresult, hdisplayed⟩ :=
    processMention_cases lib ref pubkey matchText offset full w
  rw [hresult]
  rcases hdisplayed with ⟨s, rfl⟩ | ⟨-, -, rfl, htruthy, hanswer⟩
  · exact hstr s
  · exact hname pubkey w displayed hanswer htruthy

/-- A property of strings and of the names that the lookups give is one of all that is displayed. -/
theorem value_process {p : Json ν → Prop} (hstr : ∀ s, p (.str s))
    (hname : ∀ pubkey w name, (lib.getProfile pubkey w).1 = .named name → name.truthy = true → p name) :
    ∀ P ∈ displayProcessors lib event, ∀ m offset full w,
      p (resultToken (P.process m offset full w).1).value := by
  have hlinked (s : JsString) (metadata : Json ν) :
      p (resultToken ⟨.str s, some metadata⟩).value := hstr s
  simp only [displayProcessors, List.forall_mem_cons]
  refine ⟨?_, ?_, ?_, fun _ _ _ _ => hlinked .., fun _ _ _ _ => hlinked ..,
    fun _ _ _ _ => hlinked .., fun _ _ _ _ => hlinked .., by simp⟩
  · intro m offset full w
    simp only [emojiProcessor]
    split <;> exact hstr _
  · intro m offset full w
    simp only [npubProcessor]
    split
    · exact value_processMention lib hstr hname ..
    all_goals exact hstr _
  · intro m offset full w
    simp only [nprofileProcessor]
    split
    · exact value_processMention lib hstr hname ..
    all_goals exact hstr _

/-- The values of a message's tokens are strings and names. -/
theorem forall_mem_processMessageForDisplay {p : Json ν → Prop} (hstr : ∀ s, p (.str s))
    (hname : ∀ pubkey w name, (lib.getProfile pubkey w).1 = .named name → name.truthy = true → p name)
    {w : σ} {pc : ProcessedContent ν} (h : (processMessageForDisplay lib event w).1 = .ok pc) :
    ∀ token ∈ pc.tokens, p token.value := by
  unfold processMessageForDisplay at h
  dsimp only at h
  split_ifs at h
  · obtain rfl := Except.ok.inj h
    simp
  · rw [tokens_processContent h]
    exact forall_mem_runProcessors (p := fun token => p token.value) (fun s => hstr s)
      (fun P hP => value_process event lib hstr hname P (mem_byPriority.mp hP))
      (by simpa [textToken] using hstr _) w

/-- The tokens put the trimmed content together again, and no processor alters what an earlier one
has made; and where the names are printable there is such a result. -/
theorem processMessageForDisplay_lossless (w : σ) :
    (∀ pc, (processMessageForDisplay lib event w).1 = .ok pc →
      (∃ texts : List JsString,
        pc.tokens.map ContentToken.restored = texts.map (fun t => some (.str t)) ∧
          texts.flatten = trim event.content) ∧
      ∀ Ps Qs, trim event.content ≠ [] → byPriority (displayProcessors lib event) = Ps ++ Qs →
        Refines (runProcessors Ps [textToken (trim event.content)] w).1 pc.tokens) ∧
    (Printable lib → ∃ pc, (processMessageForDisplay lib event w).1 = .ok pc) := by
  have hkeeps : ∀ P ∈ byPriority (displayProcessors lib event), Keeps P := fun P hP =>
    keeps_displayProcessors event lib P (mem_byPriority.mp hP)
  have hstart := restores_text (ν := ν) (trim event.content)
  unfold processMessageForDisplay
  dsimp only
  split_ifs with hempty
  · have hnil : trim event.content = [] := List.isEmpty_iff.mp hempty
    refine ⟨?_, fun _ => ⟨_, rfl⟩⟩
    intro pc hpc
    obtain rfl := Except.ok.inj hpc
    exact ⟨⟨[], rfl, hnil.symm⟩, fun _ _ hne => absurd hnil hne⟩
  · constructor
    · intro pc hpc
      rw [tokens_processContent hpc]
      constructor
      · exact ((refines_runProcessors hkeeps hstart w).restores hstart).restored
      · intro Ps Qs _ hsplit
        rw [hsplit, runProcessors_append]
        rw [hsplit] at hkeeps
        obtain ⟨hPs, hQs⟩ := List.forall_mem_append.mp hkeeps
        exact refines_runProcessors hQs ((refines_runProcessors hPs hstart w).restores hstart) _
    · intro hprints
      refine (returns_processContent _ _ w).mpr ?_
      have hvalues := value_process event lib (p := fun v => v.stringifiable = true) (fun _ => rfl)
        fun pubkey w name hname _ => hprints pubkey w name hname
      exact forall_mem_runProcessors (p := fun token => token.value.stringifiable = true) (fun _ => rfl)
        (fun P hP => hvalues P (mem_byPriority.mp hP)) (by simp [textToken, Json.stringifiable]) w

def demoServices : Services Int Unit := ⟨fun _ => none, fun _ w => (.missing, w), fun _ => false⟩

def demoMessage : Event :=
  ⟨js "01", js "a1", 0, 1311, [[js "emoji", js "wave", js "https://e.x/w.png"]],
    js " :wave: and :other: at https://a.b ", []⟩

theorem processMessageForDisplay_lossless_wave :
    ∃ pc, (processMessageForDisplay demoServices demoMessage ()).1 = .ok pc ∧
      pc.tokens.map ContentToken.type = [js "emoji", js "text", js "text", js "text", js "url"] ∧
      ∃ texts : List JsString,
        pc.tokens.map ContentToken.restored = texts.map (fun t => some (.str t)) ∧
          texts.flatten = js ":wave: and :other: at https://a.b" := by
  have htypes : (processMessageForDisplay demoServices demoMessage ()).1.toOption.map
      (fun pc => pc.tokens.map ContentToken.type) =
        some [js "emoji", js "text", js "text", js "text", js "url"] := by decide +kernel
  have hprints : Printable demoServices := by
    intro pubkey w name hname
    cases hname
  obtain ⟨hlossless, hok⟩ := processMessageForDisplay_lossless demoMessage demoServices ()
  obtain ⟨pc, hpc⟩ := hok hprints
  obtain ⟨⟨texts, hmap, hflat⟩, -⟩ := hlossless pc hpc
  rw [hpc] at htypes
  have htrim : trim demoMessage.content = js ":wave: and :other: at https://a.b" := by decide +kernel
  exact ⟨pc, hpc, Option.some.inj htypes, texts, hmap, htrim ▸ hflat⟩

end Processors

end LivelierBridge.Content
