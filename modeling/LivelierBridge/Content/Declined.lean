import LivelierBridge.Content.CutRuns

namespace LivelierBridge.Content

open Framework Framework.Regex Js Nostr

variable {ν σ : Type}

section Patterns

variable {r s : Regex UInt16} {rs : List (Regex UInt16)} {x : JsString} {kind : String}
  {p : UInt16 → Bool}

theorem local_reference (kind : String) {tail : List (Regex UInt16)} (h : ∀ r ∈ tail, r.Local) :
    (referenceRe kind tail).Local := by
  have hid : (chain (literal (js kind) :: tail)).Local :=
    local_chain (List.forall_mem_cons.mpr ⟨local_literal _, h⟩)
  exact ⟨local_literal _, hid⟩

theorem accepts_chain_over (h : ∀ r ∈ rs, ∀ x, r.Accepts x → ∀ u ∈ x, p u = true)
    (hx : (chain rs).Accepts x) : ∀ u ∈ x, p u = true := by
  induction rs generalizing x with
  | nil =>
    obtain rfl : x = [] := hx
    simp
  | cons r rs ih =>
    obtain ⟨hr, hrs⟩ := List.forall_mem_cons.mp h
    obtain ⟨a, b, rfl, ha, hb⟩ := accepts_chain_cons hx
    exact List.forall_mem_append.mpr ⟨hr a ha, ih hrs hb⟩

/-- A reference is its kind behind an optional `nostr:`, and more of the units of an id. -/
theorem accepts_reference {tail : List (Regex UInt16)}
    (htail : ∀ r ∈ tail, ∀ x, r.Accepts x → ∀ u ∈ x, isIdUnit u = true)
    (h : (referenceRe kind tail).Accepts x) :
    ∃ front y, x = front ++ (js kind ++ y) ∧ front ∈ [[], js "nostr:"] ∧ ∀ u ∈ y, isIdUnit u = true := by
  obtain ⟨front, id, rfl, hfront, hid⟩ := accepts_chain_cons h
  obtain ⟨a, y, rfl, ha, hy⟩ := accepts_chain_cons (show (chain (literal (js kind) :: tail)).Accepts id from hid)
  obtain rfl := accepts_literal ha
  refine ⟨front, y, rfl, ?_, accepts_chain_over htail hy⟩
  rcases hfront with rfl | hfront
  · exact List.mem_cons_self
  · rw [accepts_literal hfront]
    simp

/-- Where a match of the first pattern starts or ends, none of the second starts behind an `@`. -/
def Shy (r s : Regex UInt16) : Prop :=
  (∀ x, r.Accepts x → x ≠ [] ∧ x.getLast? ≠ some 64) ∧
    ∀ x y t u, r.Accepts x → s.Accepts y → x ++ t ≠ y ++ u

/-- What a reference can start with. -/
def heads (kind : String) : List JsString := [js kind, js "nostr:" ++ js kind]

/-- The units of an id, one by one or many at a time. -/
def IdUnits (tail : List (Regex UInt16)) : Prop :=
  ∀ r ∈ tail, r.Local ∧ ∀ x, r.Accepts x → ∀ u ∈ x, isIdUnit u = true

theorem idUnits_units (n : Nat) : IdUnits (List.replicate n (.unit isIdUnit)) := by
  intro r hr
  rw [List.eq_of_mem_replicate hr]
  refine ⟨trivial, ?_⟩
  rintro x ⟨v, rfl, hv⟩ u hu
  rwa [List.mem_singleton.mp hu]

theorem idUnits_many1 : IdUnits [.many1 isIdUnit] := by
  intro r hr
  rw [List.mem_singleton.mp hr]
  refine ⟨⟨trivial, trivial⟩, ?_⟩
  rintro x ⟨a, b, rfl, ⟨v, rfl, hv⟩, hb⟩
  exact List.forall_mem_cons.mpr ⟨hv, hb⟩

theorem idUnits_note :
    IdUnits (List.replicate 58 (.unit isIdUnit) ++ [.opt (.unit isIdUnit)]) := by
  intro r hr
  rcases List.mem_append.mp hr with hr | hr
  · exact idUnits_units 58 r hr
  · rw [List.mem_singleton.mp hr]
    refine ⟨trivial, ?_⟩
    rintro x (rfl | ⟨v, rfl, hv⟩) u hu
    · cases hu
    · rwa [List.mem_singleton.mp hu]

variable {tail tail' : List (Regex UInt16)} {kind' : String}

theorem head_reference (htail : IdUnits tail) (h : (referenceRe kind tail).Accepts x) :
    ∃ head ∈ heads kind, head <+: x := by
  obtain ⟨front, y, rfl, hfront, -⟩ := accepts_reference (fun r hr => (htail r hr).2) h
  refine ⟨front ++ js kind, ?_, ⟨y, List.append_assoc ..⟩⟩
  rcases List.mem_cons.mp hfront with rfl | hfront
  · exact List.mem_cons_self
  · rw [List.mem_singleton.mp hfront]
    simp [heads]

theorem last_reference (htail : IdUnits tail) (hkind : (js kind).all isIdUnit = true)
    (hne : js kind ≠ []) (h : (referenceRe kind tail).Accepts x) : x ≠ [] ∧ x.getLast? ≠ some 64 := by
  obtain ⟨front, y, rfl, -, hy⟩ := accepts_reference (fun r hr => (htail r hr).2) h
  have hid : js kind ++ y ≠ [] := by simp [hne]
  refine ⟨by simp [hne], fun hlast => ?_⟩
  rw [List.getLast?_append_of_ne_nil _ hid] at hlast
  have hunit := List.forall_mem_append.mpr ⟨List.all_eq_true.mp hkind, hy⟩ 64
    (List.mem_of_getLast? hlast)
  exact absurd hunit (by decide)

/-- References of two kinds never start at one place. -/
theorem shy_references (htail : IdUnits tail) (htail' : IdUnits tail')
    (hkind : (js kind).all isIdUnit = true) (hne : js kind ≠ [])
    (h : ∀ a ∈ heads kind, ∀ b ∈ heads kind', ¬ a <+: b ∧ ¬ b <+: a) :
    Shy (referenceRe kind tail) (referenceRe kind' tail') := by
  refine ⟨fun x => last_reference htail hkind hne, ?_⟩
  intro x y t u hx hy heq
  obtain ⟨a, ha, hax⟩ := head_reference htail hx
  obtain ⟨b, hb, hby⟩ := head_reference htail' hy
  obtain ⟨hab, hba⟩ := h a ha b hb
  rcases List.prefix_or_prefix_of_prefix (hax.trans (List.prefix_append x t))
    (heq ▸ hby.trans (List.prefix_append y u)) with hle | hle
  · exact hab hle
  · exact hba hle

theorem accepts_emoji (h : EMOJI_SHORTCODE_REGEX.Accepts x) : ∃ code, x = 58 :: (code ++ [58]) := by
  obtain ⟨a, b, rfl, ⟨u, rfl, hu⟩, hb⟩ := accepts_chain_cons h
  obtain ⟨code, c, rfl, -, ⟨v, rfl, hv⟩⟩ := accepts_chain_cons hb
  obtain rfl : u = 58 := by simpa using hu
  obtain rfl : v = 58 := by simpa using hv
  exact ⟨code, rfl⟩

/-- No reference starts where a shortcode does. -/
theorem shy_emoji (htail : IdUnits tail) (h : ∀ a ∈ heads kind, a.head? ≠ some 58 ∧ a ≠ []) :
    Shy EMOJI_SHORTCODE_REGEX (referenceRe kind tail) := by
  constructor
  · intro x hx
    obtain ⟨code, rfl⟩ := accepts_emoji hx
    have hlast : (58 :: (code ++ [58])).getLast? = some (58 : UInt16) := by
      rw [← List.cons_append, List.getLast?_concat]
    exact ⟨by simp, by rw [hlast]; decide⟩
  · intro x y t u hx hy heq
    obtain ⟨code, rfl⟩ := accepts_emoji hx
    obtain ⟨a, ha, v, rfl⟩ := head_reference htail hy
    obtain ⟨hhead, hne⟩ := h a ha
    obtain ⟨w, a, rfl⟩ := List.exists_cons_of_ne_nil hne
    obtain ⟨rfl, -⟩ := List.cons.inj heq
    exact hhead rfl

end Patterns

section Passing

variable {P Q : ContentProcessor ν σ} {r re : Regex UInt16} {ts : List (ContentToken ν)}
  {content : JsString} {e o : Nat} {w : σ}

/-- The later processor searches with a local pattern, and starts at no edge behind an `@`. -/
def Passes (P Q : ContentProcessor ν σ) : Prop :=
  ∃ re, Searches Q re ∧ ∀ ts content w, Restores ts content → Declines P ts w →
    ∀ e, edgesOf P ts e → Quiet re e content

/-- A match stands in the content where the places say. -/
theorem exists_of_mem_placesOf (hP : P.pattern = r.pieces) (hs : Restores ts content)
    {p : Nat × Nat} (hp : p ∈ placesOf P 0 ts) :
    ∃ pre x post, content = pre ++ (x ++ post) ∧ r.Accepts x ∧
      p = (pre.length, pre.length + x.length) := by
  induction ts generalizing content p with
  | nil => cases hp
  | cons token ts ih =>
    obtain ⟨t, rest, rfl, ht, hr⟩ := hs.uncons
    rw [placesOf] at hp
    rcases List.mem_append.mp hp with hp | hp
    · rcases ht.text_or with rfl | hnone
      · rw [text?_textToken, hP] at hp
        obtain ⟨pre, m, post, hpieces, rfl⟩ := exists_of_mem_places hp
        have haccepts : r.Accepts m.text := accepts_of_hit (n := 0) (s := t) (by
          rw [← Regex.pieces, hpieces]
          simp)
        have htext := joined_pieces r t
        rw [hpieces, joined_append, joined_hit] at htext
        refine ⟨joined pre, m.text, joined post ++ rest, ?_, haccepts, by simp⟩
        rw [← htext]
        simp
      · simp [hnone] at hp
    · rw [placesOf_shift] at hp
      obtain ⟨d, hd, rfl⟩ := List.mem_map.mp hp
      obtain ⟨pre, x, post, rfl, hx, rfl⟩ := ih hr hd
      refine ⟨t ++ pre, x, post, (List.append_assoc ..).symm, hx, ?_⟩
      rw [ht.width, List.length_append]
      simp only [Prod.mk.injEq]
      omega

theorem passes_of_shy (hP : P.pattern = r.pieces) (hQ : Searches Q re) (h : Shy r re) : Passes P Q := by
  refine ⟨re, hQ, ?_⟩
  rintro ts content w hs - e ⟨p, hp, he⟩ hsign y t hdrop hy
  obtain ⟨pre, x, post, rfl, hx, rfl⟩ := exists_of_mem_placesOf hP hs hp
  obtain ⟨hne, hlast⟩ := h.1 x hx
  rcases he with rfl | rfl
  · rw [List.drop_left] at hdrop
    exact h.2 x y post t hx hy hdrop
  · rw [← List.length_append, ← List.append_assoc, List.take_left,
      List.getLast?_append_of_ne_nil _ hne] at hsign
    exact hlast hsign

theorem placesOf_of_declines (hP : ∀ m offset full w, (P.process m offset full w).1.metadata ≠ none)
    (h : Declines P ts w) (o : Nat) : placesOf P o ts = [] := by
  have hpieces (full : JsString) (ps : List (Piece UInt16)) (offset o : Nat) (w : σ)
      (h : ∀ r ∈ answersIn P full ps offset w, r.metadata = none) : places o ps = [] := by
    induction ps generalizing offset o with
    | nil => rfl
    | cons p ps ih =>
      cases p with
      | lit x => exact ih _ _ h
      | hit m => exact absurd (h _ List.mem_cons_self) (hP m offset full w)
  induction ts generalizing o w with
  | nil => rfl
  | cons token ts ih =>
    obtain ⟨hhead, htail⟩ := List.forall_mem_append.mp h
    rw [placesOf, ih htail, List.append_nil]
    cases htext : token.text? with
    | none => rfl
    | some s =>
      rw [htext] at hhead
      exact hpieces s _ 0 o w hhead

/-- A processor that declines nothing has no edges where it declines every match. -/
theorem passes_of_accepting (hP : ∀ m offset full w, (P.process m offset full w).1.metadata ≠ none)
    (hQ : Searches Q re) : Passes P Q := by
  refine ⟨re, hQ, ?_⟩
  rintro ts content w - hdeclines e ⟨p, hp, -⟩
  rw [placesOf_of_declines hP hdeclines] at hp
  cases hp

theorem leaves_of_accepting (hP : Keeps P)
    (h : ∀ m offset full w, (P.process m offset full w).1.metadata ≠ none) : Leaves P where
  toKeeps := hP
  declined _ m _ offset full w hnone := absurd hnone (h m offset full w)

end Passing

section Processors

variable (event : Event)

theorem pieces_notEmpty {r : Regex UInt16} (h : ¬ r.Accepts []) {s : JsString} {m : Match UInt16}
    (hm : .hit m ∈ r.pieces s) : m.text ≠ [] := by
  intro hnil
  exact h (hnil ▸ accepts_of_hit hm)

theorem notEmpty_emoji : ¬ EMOJI_SHORTCODE_REGEX.Accepts [] := by
  intro h
  obtain ⟨code, hcode⟩ := accepts_emoji h
  cases hcode

theorem notEmpty_reference {kind : String} {tail : List (Regex UInt16)} (htail : IdUnits tail)
    (hkind : js kind ≠ []) : ¬ (referenceRe kind tail).Accepts [] := by
  intro h
  obtain ⟨front, y, hx, -, -⟩ := accepts_reference (fun r hr => (htail r hr).2) h
  obtain ⟨-, hrest⟩ := List.append_eq_nil_iff.mp hx.symm
  exact hkind (List.append_eq_nil_iff.mp hrest).1

theorem searches_emoji : Searches (emojiProcessor event : ContentProcessor ν σ) EMOJI_SHORTCODE_REGEX where
  toKeeps := keeps_emoji event
  pattern := rfl
  isLocal := ⟨trivial, ⟨trivial, trivial⟩, trivial⟩
  notEmpty := notEmpty_emoji
  near _ _ _ _ _ _ _ := rfl

theorem leaves_emoji : Leaves (emojiProcessor event : ContentProcessor ν σ) where
  toKeeps := keeps_emoji event
  declined s m hm offset full w hnone := by
    refine ⟨?_, pieces_notEmpty notEmpty_emoji hm⟩
    simp only [emojiProcessor] at hnone ⊢
    split at hnone
    · rfl
    · cases hnone

theorem searches_njump (id kind : String) {tail : List (Regex UInt16)} (htail : IdUnits tail)
    (hkind : js kind ≠ []) :
    Searches (njumpProcessor id (referenceRe kind tail) : ContentProcessor ν σ) (referenceRe kind tail) where
  toKeeps := keeps_njump ..
  pattern := rfl
  isLocal := local_reference kind fun r hr => (htail r hr).1
  notEmpty := notEmpty_reference htail hkind
  near _ _ _ _ _ _ _ := rfl

variable [JsNumber ν] (lib : Services ν σ)

theorem near_processMention (ref pubkey matchText : JsString) {offset offset' : Nat}
    {full full' : JsString} (h : atSign offset full = atSign offset' full') (w : σ) :
    processMention lib ref pubkey matchText offset full w =
      processMention lib ref pubkey matchText offset' full' w := by
  unfold atSign at h
  simp only [processMention, h]

theorem metadata_processMention (ref pubkey matchText : JsString) (offset : Nat) (full : JsString)
    (w : σ) : (processMention lib ref pubkey matchText offset full w).1.metadata ≠ none := by
  obtain ⟨displayed, name, h, -⟩ := processMention_cases lib ref pubkey matchText offset full w
  rw [h]
  simp

theorem idUnits_npub : IdUnits (List.replicate 58 (.unit isIdUnit)) := idUnits_units 58

theorem searches_npub : Searches (npubProcessor lib) NPUB_REGEX where
  toKeeps := keeps_npub lib
  pattern := rfl
  isLocal := local_reference "npub1" fun r hr => (idUnits_npub r hr).1
  notEmpty := notEmpty_reference idUnits_npub (by decide)
  near m offset offset' full full' w h := by
    simp only [npubProcessor]
    split
    · exact near_processMention lib _ _ _ h w
    all_goals rfl

theorem leaves_npub : Leaves (npubProcessor lib) where
  toKeeps := keeps_npub lib
  declined s m hm offset full w hnone := by
    refine ⟨?_, pieces_notEmpty (notEmpty_reference idUnits_npub (by decide)) hm⟩
    simp only [npubProcessor] at hnone ⊢
    split at hnone
    · exact (metadata_processMention lib _ _ _ _ _ _ hnone).elim
    all_goals rfl

theorem searches_nprofile : Searches (nprofileProcessor lib) NPROFILE_REGEX where
  toKeeps := keeps_nprofile lib
  pattern := rfl
  isLocal := local_reference "nprofile1" fun r hr => (idUnits_many1 r hr).1
  notEmpty := notEmpty_reference idUnits_many1 (by decide)
  near m offset offset' full full' w h := by
    simp only [nprofileProcessor]
    split
    · exact near_processMention lib _ _ _ h w
    all_goals rfl

theorem leaves_nprofile : Leaves (nprofileProcessor lib) where
  toKeeps := keeps_nprofile lib
  declined s m hm offset full w hnone := by
    refine ⟨?_, pieces_notEmpty (notEmpty_reference idUnits_many1 (by decide)) hm⟩
    simp only [nprofileProcessor] at hnone ⊢
    split at hnone
    · exact (metadata_processMention lib _ _ _ _ _ _ hnone).elim
    all_goals rfl

end Processors

section Transparency

variable [JsNumber ν] (lib : Services ν σ) (event : Event)

theorem byPriority_displayProcessors : byPriority (displayProcessors lib event) =
    [urlProcessor lib, emojiProcessor event, npubProcessor lib, nprofileProcessor lib, noteProcessor,
      neventProcessor, naddrProcessor] := rfl

theorem leaves_displayProcessors : ∀ P ∈ byPriority (displayProcessors lib event), Leaves P := by
  have haccepts (id : String) (re : Regex UInt16) :
      Leaves (njumpProcessor id re : ContentProcessor ν σ) :=
    leaves_of_accepting (keeps_njump ..) fun _ _ _ _ => Option.some_ne_none _
  simp only [byPriority_displayProcessors, List.forall_mem_cons]
  exact ⟨leaves_of_accepting (keeps_url lib) fun _ _ _ _ => Option.some_ne_none _, leaves_emoji event,
    leaves_npub lib, leaves_nprofile lib, haccepts .., haccepts .., haccepts .., by simp⟩

/-- What a later processor searches for never starts behind an `@` where an earlier one declined. -/
theorem pairwise_passes : (byPriority (displayProcessors lib event)).Pairwise Passes := by
  have hnote : Searches (noteProcessor : ContentProcessor ν σ) NOTE_REGEX :=
    searches_njump "note" "note1" idUnits_note (by decide)
  have hnevent : Searches (neventProcessor : ContentProcessor ν σ) NEVENT_REGEX :=
    searches_njump "nevent" "nevent1" idUnits_many1 (by decide)
  have hnaddr : Searches (naddrProcessor : ContentProcessor ν σ) NADDR_REGEX :=
    searches_njump "naddr" "naddr1" idUnits_many1 (by decide)
  have hnpub := searches_npub lib
  have hnprofile := searches_nprofile lib
  have hurl : ∀ m offset full w, ((urlProcessor lib).process m offset full w).1.metadata ≠ none :=
    fun _ _ _ _ => Option.some_ne_none _
  have hnjump (id : String) (re : Regex UInt16) : ∀ m offset full w,
      ((njumpProcessor id re : ContentProcessor ν σ).process m offset full w).1.metadata ≠ none :=
    fun _ _ _ _ => Option.some_ne_none _
  simp only [byPriority_displayProcessors, List.pairwise_cons, List.forall_mem_cons]
  refine ⟨⟨?_, ?_, ?_, ?_, ?_, ?_, by simp⟩, ⟨?_, ?_, ?_, ?_, ?_, by simp⟩, ⟨?_, ?_, ?_, ?_, by simp⟩,
    ⟨?_, ?_, ?_, by simp⟩, ⟨?_, ?_, by simp⟩, ⟨?_, by simp⟩, by simp, .nil⟩
  · exact passes_of_accepting hurl (searches_emoji event)
  · exact passes_of_accepting hurl hnpub
  · exact passes_of_accepting hurl hnprofile
  · exact passes_of_accepting hurl hnote
  · exact passes_of_accepting hurl hnevent
  · exact passes_of_accepting hurl hnaddr
  · exact passes_of_shy rfl hnpub (shy_emoji idUnits_npub (by decide))
  · exact passes_of_shy rfl hnprofile (shy_emoji idUnits_many1 (by decide))
  · exact passes_of_shy rfl hnote (shy_emoji idUnits_note (by decide))
  · exact passes_of_shy rfl hnevent (shy_emoji idUnits_many1 (by decide))
  · exact passes_of_shy rfl hnaddr (shy_emoji idUnits_many1 (by decide))
  · exact passes_of_shy rfl hnprofile
      (shy_references idUnits_npub idUnits_many1 (by decide) (by decide) (by decide))
  · exact passes_of_shy rfl hnote
      (shy_references idUnits_npub idUnits_note (by decide) (by decide) (by decide))
  · exact passes_of_shy rfl hnevent
      (shy_references idUnits_npub idUnits_many1 (by decide) (by decide) (by decide))
  · exact passes_of_shy rfl hnaddr
      (shy_references idUnits_npub idUnits_many1 (by decide) (by decide) (by decide))
  · exact passes_of_shy rfl hnote
      (shy_references idUnits_many1 idUnits_note (by decide) (by decide) (by decide))
  · exact passes_of_shy rfl hnevent
      (shy_references idUnits_many1 idUnits_many1 (by decide) (by decide) (by decide))
  · exact passes_of_shy rfl hnaddr
      (shy_references idUnits_many1 idUnits_many1 (by decide) (by decide) (by decide))
  · exact passes_of_accepting (hnjump _ _) hnevent
  · exact passes_of_accepting (hnjump _ _) hnaddr
  · exact passes_of_accepting (hnjump _ _) hnaddr

/-- The tokens of the processed content, with adjacent text merged. -/
def streamOf (Ps : List (ContentProcessor ν σ)) (content : JsString) (w : σ) :
    Option (List (ContentToken ν)) :=
  (processContent Ps content w).1.toOption.map fun pc => mergeText pc.tokens

/-- The processors but for one. -/
def without (P : ContentProcessor ν σ) (Ps : List (ContentProcessor ν σ)) :
    List (ContentProcessor ν σ) := Ps.filter fun Q => Q.id ≠ P.id

theorem byPriority_without {Ps Qs : List (ContentProcessor ν σ)} {P : ContentProcessor ν σ}
    (h : byPriority (displayProcessors lib event) = Ps ++ P :: Qs) :
    byPriority (without P (displayProcessors lib event)) = Ps ++ Qs := by
  have hsorted : ∀ P ∈ byPriority (displayProcessors lib event),
      byPriority (without P (displayProcessors lib event)) =
        without P (byPriority (displayProcessors lib event)) := by
    simp only [byPriority_displayProcessors, List.forall_mem_cons]
    exact ⟨rfl, rfl, rfl, rfl, rfl, rfl, rfl, by simp⟩
  have hids : ((byPriority (displayProcessors lib event)).map ContentProcessor.id).Nodup :=
    show [js "url", js "emoji", js "npub", js "nprofile", js "note", js "nevent", js "naddr"].Nodup by
      decide
  rw [hsorted P (h ▸ by simp), h]
  rw [h, List.map_append, List.map_cons, List.nodup_append, List.nodup_cons] at hids
  obtain ⟨-, ⟨hbehind, -⟩, hbefore⟩ := hids
  have hPs : ∀ Q ∈ Ps, Q.id ≠ P.id := fun Q hQ =>
    hbefore _ (List.mem_map_of_mem hQ) _ List.mem_cons_self
  have hQs : ∀ Q ∈ Qs, Q.id ≠ P.id := by
    intro Q hQ hid
    exact hbehind (hid ▸ List.mem_map_of_mem hQ)
  unfold without
  rw [List.filter_append, List.filter_cons_of_neg (by simp),
    List.filter_eq_self.mpr fun Q hQ => decide_eq_true (hPs Q hQ),
    List.filter_eq_self.mpr fun Q hQ => decide_eq_true (hQs Q hQ)]

section Stream

variable {Ps Qs : List (ContentProcessor ν σ)} {content : JsString} {w : σ}

theorem streamOf_of_returns (h : Returns (processContent Ps content w).1) :
    streamOf Ps content w = some (mergeText (runProcessors (byPriority Ps) [textToken content] w).1) := by
  obtain ⟨pc, hpc⟩ := h
  simp [streamOf, hpc, tokens_processContent hpc, Except.toOption]

theorem streamOf_of_not_returns (h : ¬ Returns (processContent Ps content w).1) :
    streamOf Ps content w = none := by
  cases hpc : (processContent Ps content w).1 with
  | ok pc => exact absurd ⟨pc, hpc⟩ h
  | error e => simp [streamOf, hpc, Except.toOption]

/-- Two streams that merge to one are of processors that both give it, or both give none. -/
theorem streamOf_congr
    (hPs : Restores (runProcessors (byPriority Ps) [textToken content] w).1 content)
    (hQs : Restores (runProcessors (byPriority Qs) [textToken content] w).1 content)
    (h : mergeText (runProcessors (byPriority Ps) [textToken content] w).1 =
      mergeText (runProcessors (byPriority Qs) [textToken content] w).1) :
    streamOf Ps content w = streamOf Qs content w := by
  have hboth : Returns (processContent Ps content w).1 ↔ Returns (processContent Qs content w).1 := by
    rw [returns_processContent, returns_processContent]
    refine (stringifiable_mergeText hPs).symm.trans ?_
    rw [h]
    exact stringifiable_mergeText hQs
  by_cases hreturns : Returns (processContent Ps content w).1
  · rw [streamOf_of_returns hreturns, streamOf_of_returns (hboth.mp hreturns), h]
  · rw [streamOf_of_not_returns hreturns, streamOf_of_not_returns fun hQ => hreturns (hboth.mpr hQ)]

end Stream

/-- A processor that declines all its matches can be left out, unless a later one has a match across
an edge of them; it cannot where the later one makes a token of that match. -/
theorem declined_transparent {Ps Qs : List (ContentProcessor ν σ)} {P : ContentProcessor ν σ}
    (h : byPriority (displayProcessors lib event) = Ps ++ P :: Qs) (content : JsString) (w : σ)
    {ts : List (ContentToken ν)} {w' : σ} (hseen : runProcessors Ps [textToken content] w = (ts, w'))
    (hdeclines : Declines P ts w') :
    (Unbroken (edgesOf P ts) Qs ts w' → streamOf (displayProcessors lib event) content w =
      streamOf (without P (displayProcessors lib event)) content w) ∧
    ∀ pc, (processContent (without P (displayProcessors lib event)) content w).1 = .ok pc →
      (∃ p ∈ markedPlaces 0 pc.tokens, ∃ e, edgesOf P ts e ∧ Reaches p e) →
        streamOf (displayProcessors lib event) content w ≠
          streamOf (without P (displayProcessors lib event)) content w := by
  have hleaves := leaves_displayProcessors lib event
  have hpasses := pairwise_passes lib event
  have hwithout := byPriority_without lib event h
  rw [h] at hleaves hpasses
  obtain ⟨hPs, hbehind⟩ := List.forall_mem_append.mp hleaves
  obtain ⟨hP, hQs⟩ := List.forall_mem_cons.mp hbehind
  obtain ⟨-, hlater, -⟩ := List.pairwise_append.mp hpasses
  obtain ⟨hlater, -⟩ := List.pairwise_cons.mp hlater
  have hts : Restores ts content := by
    have hrefines := refines_runProcessors (fun P hP => (hPs P hP).toKeeps) (restores_text content) w
    rw [hseen] at hrefines
    exact hrefines.restores (restores_text content)
  have hquiet : ∀ Q ∈ Qs, ∃ re, Searches Q re ∧ ∀ e, edgesOf P ts e → Quiet re e content := by
    intro Q hQ
    obtain ⟨re, hre, hedges⟩ := hlater Q hQ
    exact ⟨re, hre, hedges ts content w' hts hdeclines⟩
  obtain ⟨hsame, hother⟩ := mergeText_runProcessors hP hquiet hts hdeclines
  have hall : runProcessors (byPriority (displayProcessors lib event)) [textToken content] w =
      runProcessors (P :: Qs) ts w' := by rw [h, runProcessors_append, hseen]
  have hrest : runProcessors (byPriority (without P (displayProcessors lib event)))
      [textToken content] w = runProcessors Qs ts w' := by rw [hwithout, runProcessors_append, hseen]
  have hkeeps : ∀ Q ∈ P :: Qs, Keeps Q :=
    List.forall_mem_cons.mpr ⟨hP.toKeeps, fun Q hQ => (hQs Q hQ).toKeeps⟩
  constructor
  · intro hunbroken
    apply streamOf_congr
    · rw [hall]
      exact (refines_runProcessors hkeeps hts w').restores hts
    · rw [hrest]
      exact (refines_runProcessors (List.forall_mem_cons.mp hkeeps).2 hts w').restores hts
    · rw [hall, hrest]
      exact hsame hunbroken
  · intro pc hpc hreaches heq
    rw [tokens_processContent hpc, hrest] at hreaches
    rw [streamOf_of_returns ⟨pc, hpc⟩] at heq
    by_cases hreturns : Returns (processContent (displayProcessors lib event) content w).1
    · rw [streamOf_of_returns hreturns, hall, hrest] at heq
      exact hother hreaches (Option.some.inj heq)
    · rw [streamOf_of_not_returns hreturns] at heq
      cases heq

/-- The services of a bridge that knows one key, and no profile. -/
abbrev keyServices : Services Int Unit where
  decode id :=
    if id = js "npub180cvv07tjdrrgpa0j7j7tmnyl2yr6yr7l8j4s3evf6u64th6gkwsyjh6w6" then
      some (.npub (js "3bf0c63fcb93463407af97a5e5ee64fa883d107ef9e558472c4eb9aaaefa459d"))
    else none
  getProfile _ w := (.missing, w)
  isLetter _ := false

/-- A processor that declines any shortcode but `:wave:`. -/
abbrev waveProcessor : ContentProcessor Int Unit := emojiProcessor demoMessage

/-- What the emoji processor gets of a content. -/
abbrev emojiSees (content : JsString) : List (ContentToken Int) :=
  (runProcessors [urlProcessor keyServices] [textToken content] ()).1

abbrev otherContent : JsString :=
  js ":other: nostr:npub180cvv07tjdrrgpa0j7j7tmnyl2yr6yr7l8j4s3evf6u64th6gkwsyjh6w6"

abbrev colonContent : JsString :=
  js "nostr:npub180cvv07tjdrrgpa0j7j7tmnyl2yr6yr7l8j4s3evf6u64th6gkwsyjh6w6: hi"

theorem declined_transparent_other :
    streamOf (displayProcessors keyServices demoMessage) otherContent () =
      streamOf (without waveProcessor (displayProcessors keyServices demoMessage)) otherContent () := by
  have hanswers : (answers waveProcessor (emojiSees otherContent) ()).all
      (fun r => r.metadata.isNone) = true := by decide +kernel
  have hunbroken : unbroken ((placesOf waveProcessor 0 (emojiSees otherContent)).flatMap
      fun p => [p.1, p.2]) [npubProcessor keyServices, nprofileProcessor keyServices, noteProcessor,
        neventProcessor, naddrProcessor] (emojiSees otherContent) () = true := by decide +kernel
  have hdeclines : Declines waveProcessor (emojiSees otherContent) () := by
    intro r hr
    simpa using List.all_eq_true.mp hanswers r hr
  have horder : byPriority (displayProcessors keyServices demoMessage) =
      [urlProcessor keyServices] ++ waveProcessor :: [npubProcessor keyServices,
        nprofileProcessor keyServices, noteProcessor, neventProcessor, naddrProcessor] := rfl
  refine (declined_transparent keyServices demoMessage horder otherContent () rfl hdeclines).1 ?_
  have hedges := unbroken_iff.mp hunbroken
  intro Qs₁ Q Qs₂ hsplit p hp e he
  exact hedges Qs₁ Q Qs₂ hsplit p hp e (edgesOf_iff.mp he)

/-- A declined shortcode keeps the `:` of a reference. -/
theorem declined_transparent_fails :
    Declines waveProcessor (emojiSees colonContent) () ∧
      streamOf (displayProcessors keyServices demoMessage) colonContent () ≠
        streamOf (without waveProcessor (displayProcessors keyServices demoMessage)) colonContent () := by
  have hanswers : (answers waveProcessor (emojiSees colonContent) ()).all
      (fun r => r.metadata.isNone) = true := by decide +kernel
  have hall : (streamOf (displayProcessors keyServices demoMessage) colonContent ()).map
      (List.map ContentToken.type) = some [js "text", js "mention", js "text"] := by decide +kernel
  have hrest : (streamOf (without waveProcessor (displayProcessors keyServices demoMessage))
      colonContent ()).map (List.map ContentToken.type) = some [js "mention", js "text"] := by
    decide +kernel
  constructor
  · intro r hr
    simpa using List.all_eq_true.mp hanswers r hr
  · intro heq
    rw [heq, hrest] at hall
    exact absurd hall (by decide)

end Transparency

end LivelierBridge.Content
