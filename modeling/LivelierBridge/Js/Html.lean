import LivelierBridge.Js.String

namespace LivelierBridge.Js

/-- A character of the text, or a tag: its quoted values, each with the source before it, and the
source behind the last. -/
inductive HtmlNode where
  | chr (u : UInt16)
  | tag (values : List (JsString × JsString)) (source : JsString)
  deriving DecidableEq

/-- Where a reader of HTML is; in a text or a value, a reference may be under way. -/
inductive HtmlMode where
  | text (ref : Option JsString)
  | tag (values : List (JsString × JsString)) (source : JsString)
  | value (values : List (JsString × JsString)) (source done : JsString) (ref : Option JsString)
  deriving DecidableEq

/-- The character references that are decoded. -/
def REFERENCES : List (JsString × UInt16) :=
  [(js "amp", 38), (js "lt", 60), (js "gt", 62), (js "quot", 34), (js "#39", 39), (js "#96", 96)]

/-- A unit that the name of a reference may have -/
def isReferenceUnit (u : UInt16) : Bool :=
  u = 35 || (48 ≤ u && u ≤ 57) || (65 ≤ u && u ≤ 90) || (97 ≤ u && u ≤ 122)

/-- The source of a reference that is under way -/
def pending : Option JsString → JsString
  | none => []
  | some name => 38 :: name

/-- A unit of a text or a value: the reference under way behind it, and the characters it gives. -/
def readUnit (ref : Option JsString) (u : UInt16) : Option JsString × JsString :=
  if u = 38 then (some [], pending ref)
  else
    match ref with
    | none => (none, [u])
    | some name =>
      if u = 59 then
        match REFERENCES.lookup name with
        | some v => (none, [v])
        | none => (none, pending ref ++ [u])
      else if isReferenceUnit u then (some (name ++ [u]), [])
      else (none, pending ref ++ [u])

/-- Read one unit of HTML: what is behind it, and the nodes it completes. -/
def htmlStep : HtmlMode → UInt16 → HtmlMode × List HtmlNode
  | .text ref, u =>
    if u = 60 then (.tag [] [], (pending ref).map .chr)
    else (.text (readUnit ref u).1, (readUnit ref u).2.map .chr)
  | .tag values source, u =>
    if u = 62 then (.text none, [.tag values source])
    else if u = 34 then (.value values source [] none, [])
    else (.tag values (source ++ [u]), [])
  | .value values source done ref, u =>
    if u = 34 then (.tag (values ++ [(source, done ++ pending ref)]) [], [])
    else (.value values source (done ++ (readUnit ref u).2) (readUnit ref u).1, [])

def readHtml : HtmlMode → JsString → HtmlMode × List HtmlNode
  | mode, [] => (mode, [])
  | mode, u :: us =>
    let (next, nodes) := htmlStep mode u
    let (last, rest) := readHtml next us
    (last, nodes ++ rest)

theorem readHtml_append (mode : HtmlMode) (s t : JsString) :
    readHtml mode (s ++ t) =
      ((readHtml (readHtml mode s).1 t).1, (readHtml mode s).2 ++ (readHtml (readHtml mode s).1 t).2) := by
  induction s generalizing mode with
  | nil => simp [readHtml]
  | cons u us ih => simp [readHtml, ih]

/-- The text reads as these nodes, and as nothing more. -/
def Reads (html : JsString) (nodes : List HtmlNode) : Prop :=
  readHtml (.text none) html = (.text none, nodes)

/-- Characters of a text -/
def chars (text : JsString) : List HtmlNode := text.map .chr

variable {html html' : JsString} {nodes nodes' : List HtmlNode}

theorem Reads.append (h : Reads html nodes) (h' : Reads html' nodes') :
    Reads (html ++ html') (nodes ++ nodes') := by
  unfold Reads at h h' ⊢
  rw [readHtml_append, h, h']

theorem reads_nil : Reads [] [] := rfl

theorem Reads.flatten {htmls : List JsString} {nodess : List (List HtmlNode)}
    (h : List.Forall₂ Reads htmls nodess) : Reads htmls.flatten nodess.flatten := by
  induction h with
  | nil => exact reads_nil
  | cons h _ ih => exact h.append ih

/-! ### What is written for one unit -/

/-- The text is read as one unit, in a text as in a value. -/
structure StandsFor (html : JsString) (u : UInt16) : Prop where
  text : Reads html [.chr u]
  value : ∀ values source done, readHtml (.value values source done none) html =
    (.value values source (done ++ [u]) none, [])

variable {u : UInt16} {write : UInt16 → JsString} {v : JsString}

theorem standsFor_self (hamp : u ≠ 38) (hlt : u ≠ 60) (hquot : u ≠ 34) : StandsFor [u] u where
  text := by simp [Reads, readHtml, htmlStep, readUnit, hamp, hlt]
  value values source done := by simp [readHtml, htmlStep, readUnit, hamp, hquot]

theorem isReferenceUnit_ne (h : isReferenceUnit u = true) :
    u ≠ 38 ∧ u ≠ 60 ∧ u ≠ 34 ∧ u ≠ 59 := by
  refine ⟨?_, ?_, ?_, ?_⟩
  all_goals
    rintro rfl
    exact absurd h (by decide)

theorem readUnit_reference (h : isReferenceUnit u = true) (name : JsString) :
    readUnit (some name) u = (some (name ++ [u]), []) := by
  obtain ⟨hamp, _, _, hsemi⟩ := isReferenceUnit_ne h
  simp [readUnit, hamp, hsemi, h]

/-- The units of a name are read on into the reference under way. -/
theorem readHtml_name {name : JsString} (h : ∀ u ∈ name, isReferenceUnit u = true) (read : JsString) :
    readHtml (.text (some read)) name = (.text (some (read ++ name)), []) ∧
    ∀ values source done, readHtml (.value values source done (some read)) name =
      (.value values source done (some (read ++ name)), []) := by
  induction name generalizing read with
  | nil => simp [readHtml]
  | cons u name ih =>
    obtain ⟨hu, hname⟩ := List.forall_mem_cons.mp h
    obtain ⟨_, hlt, hquot, _⟩ := isReferenceUnit_ne hu
    obtain ⟨htext, hvalue⟩ := ih hname (read ++ [u])
    refine ⟨?_, fun values source done => ?_⟩
    · simp [readHtml, htmlStep, hlt, readUnit_reference hu, htext]
    · simp [readHtml, htmlStep, hquot, readUnit_reference hu, hvalue]

theorem standsFor_reference (name : JsString) (hname : name.all isReferenceUnit = true)
    (h : REFERENCES.lookup name = some u) : StandsFor (38 :: (name ++ [59])) u where
  text := by
    have hread := (readHtml_name (List.all_eq_true.mp hname) []).1
    simp [Reads, readHtml_append, readHtml, htmlStep, readUnit, pending, hread, h]
  value values source done := by
    have hread := (readHtml_name (List.all_eq_true.mp hname) []).2 values source done
    simp [readHtml_append, readHtml, htmlStep, readUnit, pending, hread, h]

theorem reads_written (h : ∀ u ∈ v, StandsFor (write u) u) : Reads (v.flatMap write) (chars v) := by
  induction v with
  | nil => exact reads_nil
  | cons u v ih =>
    obtain ⟨hu, hv⟩ := List.forall_mem_cons.mp h
    exact hu.text.append (ih hv)

theorem readHtml_written (h : ∀ u ∈ v, StandsFor (write u) u) (values : List (JsString × JsString))
    (source done : JsString) : readHtml (.value values source done none) (v.flatMap write) =
      (.value values source (done ++ v) none, []) := by
  induction v generalizing done with
  | nil => simp [readHtml]
  | cons u v ih =>
    obtain ⟨hu, hv⟩ := List.forall_mem_cons.mp h
    rw [List.flatMap_cons, readHtml_append, hu.value, ih hv]
    simp

/-! ### Templates -/

/-- What a template's own text reads as -/
def markup (html : JsString) : List HtmlNode := (readHtml (.text none) html).2

/-- The text ends outside of tags and references. -/
def Closed (html : JsString) : Prop := (readHtml (.text none) html).1 = .text none

instance (html : JsString) : Decidable (Closed html) := inferInstanceAs (Decidable (_ = _))

/-- A literal by its characters, which evaluate faster than its bytes. -/
theorem js_ofList (l : List Char) : js (String.ofList l) = l.flatMap fun c => codePoint c.toNat := by
  simp [js]

theorem reads_markup (h : Closed html) : Reads html (markup html) := Prod.ext h rfl

/-- The mode inside of a tag that has these values already -/
def HtmlMode.behind (front : List (JsString × JsString)) : HtmlMode → HtmlMode
  | .text ref => .text ref
  | .tag values source => .tag (front ++ values) source
  | .value values source done ref => .value (front ++ values) source done ref

theorem readHtml_quiet {mode next : HtmlMode} (h : htmlStep mode u = (next, [])) (us : JsString) :
    readHtml mode (u :: us) = readHtml next us := by
  simp [readHtml, h]

/-- Inside of a tag a unit ends it, or completes nothing and does not look at the values. -/
theorem htmlStep_behind {mode : HtmlMode} (front : List (JsString × JsString))
    (hmode : ∀ ref, mode ≠ .text ref) (u : UInt16) :
    (∃ values source, mode = .tag values source ∧ u = 62) ∨
    ∃ next, (∀ ref, next ≠ .text ref) ∧ htmlStep mode u = (next, []) ∧
      htmlStep (mode.behind front) u = (next.behind front, []) := by
  cases mode with
  | text ref => exact absurd rfl (hmode ref)
  | tag values source =>
    by_cases hend : u = 62
    · exact .inl ⟨values, source, rfl, hend⟩
    · by_cases hquot : u = 34 <;> simp [htmlStep, HtmlMode.behind, hend, hquot]
  | value values source done ref =>
    by_cases hquot : u = 34 <;> simp [htmlStep, HtmlMode.behind, hquot]

/-- A tag is read on in the same way whatever values it has already. -/
theorem readHtml_behind {mode : HtmlMode} {s : JsString} {values : List (JsString × JsString)}
    {source : JsString} (front : List (JsString × JsString)) (hmode : ∀ ref, mode ≠ .text ref)
    (h : readHtml mode s = (.text none, [.tag values source])) :
    readHtml (mode.behind front) s = (.text none, [.tag (front ++ values) source]) := by
  induction s generalizing mode with
  | nil =>
    have hlast : mode = .text none := congrArg Prod.fst h
    exact absurd hlast (hmode none)
  | cons u us ih =>
    rcases htmlStep_behind front hmode u with ⟨vs, src, rfl, rfl⟩ | ⟨next, hnext, hstep, hstep'⟩
    · simp only [readHtml, htmlStep, if_true, List.singleton_append, Prod.mk.injEq, List.cons.injEq,
        HtmlNode.tag.injEq] at h
      obtain ⟨hlast, ⟨rfl, rfl⟩, hrest⟩ := h
      simp [HtmlMode.behind, readHtml, htmlStep, hlast, hrest]
    · rw [readHtml_quiet hstep] at h
      rw [readHtml_quiet hstep']
      exact ih hnext h

/-- A value that is filled into a tag -/
theorem reads_filled {before after source source' : JsString}
    {values values' : List (JsString × JsString)}
    (hbefore : readHtml (.text none) before = (.value values source [] none, nodes))
    (hv : ∀ u ∈ v, StandsFor (write u) u)
    (hafter : readHtml (.tag [] []) after = (.text none, [.tag values' source'])) :
    Reads (before ++ v.flatMap write ++ 34 :: after)
      (nodes ++ [.tag (values ++ (source, v) :: values') source']) := by
  have hclose : readHtml (.value values source v none) (34 :: after) =
      (.text none, [.tag (values ++ (source, v) :: values') source']) := by
    have hquiet : htmlStep (.value values source v none) 34 =
        (.tag (values ++ [(source, v)]) [], []) := by
      simp [htmlStep, pending]
    have hbehind := readHtml_behind (values ++ [(source, v)]) (by simp) hafter
    rw [readHtml_quiet hquiet]
    simpa only [HtmlMode.behind, List.append_nil, List.append_assoc, List.singleton_append]
      using hbehind
  unfold Reads
  rw [readHtml_append, readHtml_append, hbefore, readHtml_written hv, List.nil_append, hclose]
  simp

end LivelierBridge.Js
