import LivelierBridge.Site.Cards
import LivelierBridge.Site.FinderTruth

namespace LivelierBridge.Site

open Framework Js Nostr Discovery

/-! ### What values are written as -/

/-- What `escapeHtml` writes for a unit -/
def escapeUnit (u : UInt16) : JsString :=
  if u ∈ js "&<>\"'" then (ENTITIES.lookup u).getD [] else [u]

theorem escapeHtml_eq_flatMap (value : JsString) : escapeHtml value = value.flatMap escapeUnit := by
  rw [escapeHtml, Regex.replace_class]
  congr 1
  funext u
  simp only [decide_eq_true_eq, List.head?_cons, Option.bind_some, escapeUnit]

theorem mem_escaped {u : UInt16} (h : u ∈ js "&<>\"'") :
    u = 38 ∨ u = 60 ∨ u = 62 ∨ u = 34 ∨ u = 39 := by
  have hunits : js "&<>\"'" = [38, 60, 62, 34, 39] := by decide
  rw [hunits] at h
  simpa only [List.mem_cons, List.not_mem_nil, or_false] using h

theorem standsFor_escapeUnit (u : UInt16) : StandsFor (escapeUnit u) u := by
  by_cases h : u ∈ js "&<>\"'"
  · rcases mem_escaped h with rfl | rfl | rfl | rfl | rfl
    · exact standsFor_reference (js "amp") (by decide) (by decide)
    · exact standsFor_reference (js "lt") (by decide) (by decide)
    · exact standsFor_reference (js "gt") (by decide) (by decide)
    · exact standsFor_reference (js "quot") (by decide) (by decide)
    · exact standsFor_reference (js "#39") (by decide) (by decide)
  · have hne : ∀ v ∈ js "&<>\"'", u ≠ v := fun v hv heq => h (heq ▸ hv)
    rw [escapeUnit, if_neg h]
    exact standsFor_self (hne 38 (by decide)) (hne 60 (by decide)) (hne 34 (by decide))

theorem reads_escapeHtml (value : JsString) : Reads (escapeHtml value) (chars value) := by
  rw [escapeHtml_eq_flatMap]
  exact reads_written fun u _ => standsFor_escapeUnit u

/-- What `escapeAttr` writes for a unit -/
def escapeAttrUnit (u : UInt16) : JsString := if u = 96 then js "&#96;" else escapeUnit u

theorem escapeAttr_eq_flatMap (value : JsString) :
    escapeAttr value = value.flatMap escapeAttrUnit := by
  rw [escapeAttr, Regex.replace_class, escapeHtml_eq_flatMap, List.flatMap_assoc]
  congr 1
  funext u
  by_cases h : u ∈ js "&<>\"'"
  · rcases mem_escaped h with rfl | rfl | rfl | rfl | rfl <;> decide
  · rw [escapeAttrUnit, escapeUnit, if_neg h]
    by_cases hu : u = 96 <;> simp [hu]

theorem standsFor_escapeAttrUnit (u : UInt16) : StandsFor (escapeAttrUnit u) u := by
  unfold escapeAttrUnit
  split
  · rename_i hu
    subst hu
    exact standsFor_reference (js "#96") (by decide) (by decide)
  · exact standsFor_escapeUnit u

/-! ### Tags that do nothing -/

/-- A tag with a class and nothing else -/
def classed (element name : String) : HtmlNode :=
  .tag [(js element ++ js " class=", js name)] []

/-- The tags of the templates without an address -/
def TEMPLATE_TAGS : List HtmlNode :=
  (["h3", "/h3", "p", "/p", "strong", "/strong", "code", "/code", "/a", "/span", "/div",
    "/button"].map fun element => .tag [] (js element)) ++
  (["result-note", "result-summary", "result-url", "callout-head", "card-title", "card-host"].map
    (classed "p")) ++
  (["pill", "pill live", "pill ended", "card-live"].map (classed "span")) ++
  (["result-meta", "callout callout-server", "callout callout-chat", "chat-count", "result-actions",
    "card-thumb", "card-body"].map (classed "div")) ++
  [.tag [(js "p class=", js "chat-count-text")] (js " data-chat-text"),
    .tag [(js "span class=", js "chat-count-value")] (js " data-chat-value"),
    .tag [(js "button type=", js "button"), (js " class=", js "cmd-btn")] (js " data-json")]

/-- An address that a browser opens as a page or an image, not as a script. -/
def SafeAddress (R : Runtime) (address : JsString) : Prop :=
  ∃ u, R.parseUrl address = some u ∧ u.protocol ∈ SAFE_SCHEMES

def linkTag (href : JsString) : HtmlNode :=
  .tag [(js "a href=", href), (js " target=", js "_blank"), (js " rel=", js "noopener")] []

def njumpTag (href : JsString) : HtmlNode :=
  .tag [(js "a class=", js "cmd-btn"), (js " href=", href), (js " target=", js "_blank"),
    (js " rel=", js "noopener")] []

def imageTag (source : JsString) : HtmlNode :=
  .tag [(js "img src=", source), (js " alt=", []), (js " loading=", js "lazy"),
    (js " referrerpolicy=", js "no-referrer")] []

/-- Text, a tag of the templates, or one whose address is safe -/
inductive Harmless (R : Runtime) : HtmlNode → Prop where
  | chr (u : UInt16) : Harmless R (.chr u)
  | template {node : HtmlNode} (h : node ∈ TEMPLATE_TAGS) : Harmless R node
  | link {href : JsString} (h : SafeAddress R href) : Harmless R (linkTag href)
  | image {source : JsString} (h : SafeAddress R source) : Harmless R (imageTag source)
  | njump {code : JsString} (h : ∀ u ∈ code, isWord u = true) : Harmless R (njumpTag (NJUMP ++ code))

/-- The HTML is read to its end, and all it has is harmless. -/
def Inert (R : Runtime) (html : JsString) : Prop :=
  ∃ nodes, Reads html nodes ∧ ∀ node ∈ nodes, Harmless R node

def isChr : HtmlNode → Bool
  | .chr _ => true
  | .tag _ _ => false

/-- Text of the source that is inert by itself -/
def Plain (html : JsString) : Prop :=
  Closed html ∧ ∀ node ∈ markup html, isChr node ∨ node ∈ TEMPLATE_TAGS

instance (html : JsString) : Decidable (Plain html) := inferInstanceAs (Decidable (_ ∧ _))

theorem Plain.append {html html' : JsString} (h : Plain html) (h' : Plain html') :
    Plain (html ++ html') := by
  have hreads := (reads_markup h.1).append (reads_markup h'.1)
  have hmarkup : markup (html ++ html') = markup html ++ markup html' := congrArg Prod.snd hreads
  refine ⟨congrArg Prod.fst hreads, fun node hnode => ?_⟩
  rw [hmarkup] at hnode
  rcases List.mem_append.mp hnode with hl | hr
  · exact h.2 node hl
  · exact h'.2 node hr

theorem plain_js {l : List Char} (h : Plain (l.flatMap fun c => codePoint c.toNat)) :
    Plain (js (String.ofList l)) := by
  rw [js_ofList]
  exact h

/-- The fixed texts of the cards and the finder's notes -/
def TEMPLATES : List String :=
  ["<p class=\"result-summary\">", "</p>", "<p class=\"result-url\">", "</a>",
    "<span class=\"pill\">", "</span>", "<code>", "</code>", "your own server",
    "<p class=\"result-note\">", "<span class=\"pill\">labelled adult</span>",
    "\n    <h3>", "</h3>\n    ", "\n    ", "\n    <div class=\"result-meta\">\n      ",
    "</span>\n      ", "\n      ", "\n    </div>\n",
    "\n    <div class=\"callout callout-server\">",
    "\n      <p class=\"callout-head\">Live streaming at ",
    "</p>\n      <p><strong>Livelier never copies, re-hosts, or stores your video.</strong>",
    " It publishes the\n      above URL so that viewers know where to watch.</p>\n    </div>\n",
    "\n    <div class=\"callout callout-chat\">",
    "\n      <p class=\"callout-head\">Chat messages for this livestream</p>",
    "\n      <div class=\"chat-count\">",
    "\n        <span class=\"chat-count-value\" data-chat-value>—</span>",
    "\n        <p class=\"chat-count-text\" data-chat-text>Counting…</p>",
    "\n      </div>\n    </div>\n\n    <div class=\"result-actions\">",
    "\n      <button type=\"button\" class=\"cmd-btn\" data-json>View the raw event</button>",
    "Open it on njump ↗</a>\n    </div>",
    "That doesn't look like a web address — try something like ",
    "<code>live.example.com</code>.",
    "Something went wrong asking the relay. Try again in a moment.",
    "The relay could not be reached from your browser just now, so this is unknown ",
    "rather than\n       empty. Your channel's id would be <code>",
    "</code> — the commands further\n       down will look it up independently.",
    "Nothing published for <code>",
    "</code>. Either it isn't listed in the\n       public Owncast directory, or it hasn't ",
    "gone live since Livelier started watching.\n       Its id would be <code>",
    "</code> if it ever does.",
    "\n    <div class=\"card-thumb\">\n      ",
    "\n      <span class=\"card-live\">live</span>\n    </div>",
    "\n    <div class=\"card-body\">\n      <p class=\"card-title\">",
    "</p>\n      <p class=\"card-host\">", "</p>\n    </div>"]

-- One proof for all of the texts: each of these evaluations waits for the ones before it.
theorem plain_templates : ∀ t ∈ TEMPLATES, Plain (js t) := by
  unfold TEMPLATES
  repeat refine List.forall_mem_cons.mpr ⟨plain_js (by decide +kernel), ?_⟩
  exact List.forall_mem_nil _

/-- How the tags that hold an address begin -/
theorem readHtml_before :
    readHtml (.text none) (js "<a href=\"") = (.value [] (js "a href=") [] none, []) ∧
    readHtml (.text none) (js "<img src=\"") = (.value [] (js "img src=") [] none, []) ∧
    readHtml (.text none) (js "<a class=\"cmd-btn\" href=\"") =
      (.value [(js "a class=", js "cmd-btn")] (js " href=") [] none, []) := by
  refine ⟨?_, ?_, ?_⟩ <;> decide +kernel

/-- How they go on behind it -/
theorem readHtml_after :
    readHtml (.tag [] []) (js " target=\"_blank\" rel=\"noopener\">") =
      (.text none, [.tag [(js " target=", js "_blank"), (js " rel=", js "noopener")] []]) ∧
    readHtml (.tag [] []) (js " alt=\"\" loading=\"lazy\" referrerpolicy=\"no-referrer\">") =
      (.text none, [.tag [(js " alt=", []), (js " loading=", js "lazy"),
        (js " referrerpolicy=", js "no-referrer")] []]) := by
  refine ⟨?_, ?_⟩ <;> decide +kernel

section Parts

variable {R : Runtime} {html html' value : JsString}

theorem Inert.append (h : Inert R html) (h' : Inert R html') : Inert R (html ++ html') := by
  obtain ⟨nodes, hreads, hharmless⟩ := h
  obtain ⟨nodes', hreads', hharmless'⟩ := h'
  refine ⟨nodes ++ nodes', hreads.append hreads', fun node hnode => ?_⟩
  rcases List.mem_append.mp hnode with hl | hr
  · exact hharmless node hl
  · exact hharmless' node hr

theorem inert_nil : Inert R [] := ⟨[], reads_nil, by simp⟩

theorem inert_flatten {htmls : List JsString} (h : ∀ html ∈ htmls, Inert R html) :
    Inert R htmls.flatten := by
  induction htmls with
  | nil => exact inert_nil
  | cons html htmls ih =>
    obtain ⟨hhead, htail⟩ := List.forall_mem_cons.mp h
    exact hhead.append (ih htail)

theorem Plain.inert (h : Plain html) : Inert R html := by
  refine ⟨markup html, reads_markup h.1, fun node hnode => ?_⟩
  rcases h.2 node hnode with hchr | htag
  · cases node with
    | chr u => exact .chr u
    | tag values source => exact absurd hchr (by simp [isChr])
  · exact .template htag

theorem inert_escapeHtml : Inert R (escapeHtml value) := by
  refine ⟨chars value, reads_escapeHtml value, fun node hnode => ?_⟩
  obtain ⟨u, _, rfl⟩ := List.mem_map.mp hnode
  exact .chr u

theorem inert_link {href : JsString} (h : SafeAddress R href) :
    Inert R (js "<a href=\"" ++ escapeAttr href ++ js "\" target=\"_blank\" rel=\"noopener\">") := by
  refine ⟨[linkTag href], ?_, by simpa using Harmless.link h⟩
  rw [escapeAttr_eq_flatMap]
  exact reads_filled readHtml_before.1 (fun u _ => standsFor_escapeAttrUnit u) readHtml_after.1

theorem inert_image {source : JsString} (h : SafeAddress R source) :
    Inert R (js "<img src=\"" ++ escapeAttr source ++
      js "\" alt=\"\" loading=\"lazy\" referrerpolicy=\"no-referrer\">") := by
  refine ⟨[imageTag source], ?_, by simpa using Harmless.image h⟩
  rw [escapeAttr_eq_flatMap]
  exact reads_filled readHtml_before.2.1 (fun u _ => standsFor_escapeAttrUnit u) readHtml_after.2

/-- The njump address is written as it is. -/
theorem inert_njump {code : JsString} (h : ∀ u ∈ code, isWord u = true) :
    Inert R (js "<a class=\"cmd-btn\" href=\"" ++ (NJUMP ++ code) ++
      js "\" target=\"_blank\" rel=\"noopener\">") := by
  have hself : ∀ u ∈ NJUMP ++ code, StandsFor [u] u := by
    intro u hu
    have hunit : u ≠ 38 ∧ u ≠ 60 ∧ u ≠ 34 := by
      rcases List.mem_append.mp hu with hl | hr
      · have hall : NJUMP.all (fun u => decide (u ≠ 38 ∧ u ≠ 60 ∧ u ≠ 34)) = true := by decide
        exact of_decide_eq_true (List.all_eq_true.mp hall u hl)
      · have hword := h u hr
        refine ⟨?_, ?_, ?_⟩
        all_goals
          rintro rfl
          exact absurd hword (by decide)
    exact standsFor_self hunit.1 hunit.2.1 hunit.2.2
  have hreads := reads_filled readHtml_before.2.2 hself readHtml_after.1
  rw [List.flatMap_singleton'] at hreads
  exact ⟨[njumpTag (NJUMP ++ code)], hreads, by simpa using Harmless.njump h⟩

theorem Inert.plain (h : Inert R html) (hplain : Plain html') : Inert R (html ++ html') :=
  h.append hplain.inert

/-- A fixed text around a value of the relay -/
theorem inert_within {before after : JsString} (hbefore : Plain before) (hafter : Plain after)
    (h : Inert R html) : Inert R (before ++ html ++ after) :=
  (hbefore.inert.append h).plain hafter

end Parts

/-! ### The pieces of the cards -/

section Cards

variable {R : Runtime}

theorem safeHref_safe {value : Option JsString} {href : JsString} (h : safeHref R value = some href) :
    SafeAddress R href := by
  unfold safeHref at h
  split at h
  · simp at h
  · split at h
    · rename_i url hparse
      split at h
      · rename_i hsafe
        cases h
        exact ⟨url, hparse, hsafe⟩
      · simp at h
    · simp at h

theorem inert_summaryHtml (summary : Option JsString) : Inert R (Page.summaryHtml summary) := by
  unfold Page.summaryHtml
  split
  · exact inert_within (plain_templates _ (by simp [TEMPLATES]))
      (plain_templates _ (by simp [TEMPLATES])) inert_escapeHtml
  · exact inert_nil

theorem inert_serverHtml (serverUrl : Option JsString) : Inert R (Page.serverHtml R serverUrl) := by
  unfold Page.serverHtml
  split
  · refine inert_within (plain_templates _ (by simp [TEMPLATES])) (plain_templates _ (by simp [TEMPLATES])) ?_
    split
    · rename_i href hhref
      have hlink := inert_link (safeHref_safe hhref)
      exact (hlink.append inert_escapeHtml).plain (plain_templates _ (by simp [TEMPLATES]))
    · exact inert_escapeHtml
  · exact inert_nil

theorem inert_pillHtml (topic : JsString) : Inert R (Page.pillHtml topic) :=
  inert_within (plain_templates _ (by simp [TEMPLATES]))
      (plain_templates _ (by simp [TEMPLATES])) inert_escapeHtml

theorem inert_watchHtml (watchUrl : Option JsString) : Inert R (Page.watchHtml watchUrl) := by
  unfold Page.watchHtml
  split
  · exact inert_within (plain_templates _ (by simp [TEMPLATES]))
      (plain_templates _ (by simp [TEMPLATES])) inert_escapeHtml
  · exact Plain.inert (plain_templates _ (by simp [TEMPLATES]))

theorem inert_note {html : JsString} (h : Inert R html) : Inert R (Page.note html) :=
  inert_within (plain_templates _ (by simp [TEMPLATES])) (plain_templates _ (by simp [TEMPLATES])) h

theorem inert_statusPill (status : JsString) :
    Inert R (js "<span class=\"pill " ++ (if status = js "live" then js "live" else js "ended") ++
      js "\">") := by
  split <;> exact Plain.inert (by decide +kernel)

theorem inert_topics (topics : List JsString) :
    Inert R ((topics.take 3).map Page.pillHtml).flatten := by
  refine inert_flatten fun html hhtml => ?_
  obtain ⟨topic, _, rfl⟩ := List.mem_map.mp hhtml
  exact inert_pillHtml topic

variable {P : Page R}

/-- Both forms of the address are the fixed page with word characters behind it. -/
theorem njumpAddress_eq {event : Event} {identifier : JsString}
    (hcode : ∀ code, P.naddrEncode event identifier = some code → ∀ u ∈ code, isWord u = true)
    (hid : ∀ u ∈ event.id, isWord u = true) :
    ∃ code, P.njumpAddress event identifier = NJUMP ++ code ∧ ∀ u ∈ code, isWord u = true := by
  unfold Page.njumpAddress
  cases hencode : P.naddrEncode event identifier with
  | none => exact ⟨event.id, rfl, hid⟩
  | some code => exact ⟨code, rfl, hcode code hencode⟩

/-- What stands between the address to watch and the link to njump -/
theorem inert_callouts : Inert R
    (js "</p>\n      <p><strong>Livelier never copies, re-hosts, or stores your video.</strong>" ++
      js " It publishes the\n      above URL so that viewers know where to watch.</p>\n    </div>\n" ++
      js "\n    <div class=\"callout callout-chat\">" ++
      js "\n      <p class=\"callout-head\">Chat messages for this livestream</p>" ++
      js "\n      <div class=\"chat-count\">" ++
      js "\n        <span class=\"chat-count-value\" data-chat-value>—</span>" ++
      js "\n        <p class=\"chat-count-text\" data-chat-text>Counting…</p>" ++
      js "\n      </div>\n    </div>\n\n    <div class=\"result-actions\">" ++
      js "\n      <button type=\"button\" class=\"cmd-btn\" data-json>View the raw event</button>" ++
      js "\n      ") := by
  refine Plain.inert (.append (.append (.append (.append (.append (.append (.append (.append
    (.append ?_ ?_) ?_) ?_) ?_) ?_) ?_) ?_) ?_) ?_)
  all_goals exact plain_templates _ (by simp [TEMPLATES])

theorem inert_resultCard {channel : Channel}
    (hcode : ∀ code, P.naddrEncode channel.event channel.dTag = some code →
      ∀ u ∈ code, isWord u = true)
    (hid : ∀ u ∈ channel.event.id, isWord u = true) : Inert R (P.resultCard channel) := by
  obtain ⟨code, hnjump, hword⟩ := njumpAddress_eq hcode hid
  have hadult : Inert R
      (if channel.nsfw then js "<span class=\"pill\">labelled adult</span>" else []) := by
    split
    · exact Plain.inert (plain_templates _ (by simp [TEMPLATES]))
    · exact inert_nil
  have hlink := inert_njump (R := R) hword
  rw [← hnjump] at hlink
  have hstatus := inert_statusPill (R := R) channel.status
  have hhead : Inert R (js "\n    <h3>" ++ escapeHtml channel.title ++ js "</h3>\n    ") :=
    inert_within (plain_templates _ (by simp [TEMPLATES]))
      (plain_templates _ (by simp [TEMPLATES])) inert_escapeHtml
  have hserver : Inert R (js "\n    <h3>" ++ escapeHtml channel.title ++ js "</h3>\n    " ++
      Page.summaryHtml channel.summary ++ js "\n    ") :=
    (hhead.append (inert_summaryHtml _)).plain (plain_templates _ (by simp [TEMPLATES]))
  unfold Page.resultCard
  refine .plain (.append (.append (.append (.plain (.plain (.append (.plain (.append (.plain (.append
    (.append (.plain (.append hserver (inert_serverHtml _)) ?_) hstatus) inert_escapeHtml) ?_)
    hadult) ?_) (inert_topics _)) ?_) (.append ?_ ?_)) (inert_watchHtml _)) inert_callouts) hlink) ?_
  all_goals exact plain_templates _ (by simp [TEMPLATES])

theorem inert_finderHtml {n : FinderNote}
    (hcode : ∀ channel, n = .card channel → ∀ code,
      P.naddrEncode channel.event channel.dTag = some code → ∀ u ∈ code, isWord u = true)
    (hid : ∀ channel, n = .card channel → ∀ u ∈ channel.event.id, isWord u = true) :
    Inert R (P.finderHtml n) := by
  cases n with
  | notAnAddress =>
    refine inert_note (Plain.inert (.append ?_ ?_))
    all_goals exact plain_templates _ (by simp [TEMPLATES])
  | failed => exact inert_note (Plain.inert (plain_templates _ (by simp [TEMPLATES])))
  | unknown dTag =>
    refine inert_note (inert_within (.append ?_ ?_) ?_ inert_escapeHtml)
    all_goals exact plain_templates _ (by simp [TEMPLATES])
  | nothing hostname dTag =>
    refine inert_note (.plain (.append (inert_within ?_ (.append ?_ ?_) inert_escapeHtml)
      inert_escapeHtml) ?_)
    all_goals exact plain_templates _ (by simp [TEMPLATES])
  | card channel => exact inert_resultCard (hcode channel rfl) (hid channel rfl)

/-- A card of the grid is harmless, and where it leads is safe. -/
theorem inert_card (channel : Channel) (profiles : OrderedMap JsString ChannelProfile) :
    Inert R (P.card channel profiles).innerHTML ∧
    ∀ href, (P.card channel profiles).href = some href → SafeAddress R href := by
  refine ⟨?_, fun href hhref => ?_⟩
  · unfold Page.card
    refine .plain (.append (.plain (.append (.plain (.append (Plain.inert ?_) ?image) (.append ?_ ?_))
      inert_escapeHtml) ?_) inert_escapeHtml) ?_
    case image =>
      split
      · rename_i thumb hthumb
        exact inert_image (safeHref_safe hthumb)
      · exact inert_nil
    all_goals exact plain_templates _ (by simp [TEMPLATES])
  · unfold Page.card at hhref
    rcases Option.or_eq_some_iff.mp hhref with hproxy | ⟨_, hwebsite⟩
    · exact safeHref_safe hproxy
    · exact safeHref_safe hwebsite

/-- Whatever the relays and the reader have sent, the finder and the grid get HTML that is read to its
end, with no tags but the page's own and no addresses but safe ones. -/
theorem page_inert (P : Page R) (hcode : ∀ event identifier code,
      P.naddrEncode event identifier = some code → ∀ u ∈ code, isWord u = true)
    {n : FinderNote} (hid : ∀ channel, n = .card channel → ∀ u ∈ channel.event.id, isWord u = true)
    (channel : Channel) (profiles : OrderedMap JsString ChannelProfile) :
    Inert R (P.finderHtml n) ∧ Inert R (P.card channel profiles).innerHTML ∧
    ∀ href, (P.card channel profiles).href = some href → SafeAddress R href := by
  refine ⟨?_, inert_card channel profiles⟩
  cases n with
  | card shown => exact inert_finderHtml (fun _ _ => hcode _ _) hid
  | _ => exact inert_finderHtml (by simp) hid

/-- A hostile event: its markup is shown as text, and its address is not a link. -/
theorem page_inert_hostile :
    let page : Page hashedRuntime :=
      { demoBrowser with naddrEncode := fun _ _ => some (js "naddr1qq") }
    let hostile := toChannel ⟨js "e1", js "p1", 0, 30311,
      [[js "d", js "x"], [js "title", js "<script>alert(1)</script>"],
        [js "proxy", js "javascript:alert(1)"]], [], []⟩
    Inert hashedRuntime (page.finderHtml (.card hostile)) ∧ (page.card hostile .empty).href = none := by
  intro page hostile
  have hcode : ∀ event identifier code, page.naddrEncode event identifier = some code →
      ∀ u ∈ code, isWord u = true := by
    intro event identifier code hencode
    cases hencode
    exact List.all_eq_true.mp (by decide)
  have hid : ∀ channel, FinderNote.card hostile = .card channel →
      ∀ u ∈ channel.event.id, isWord u = true := by
    intro channel hchannel
    cases hchannel
    exact List.all_eq_true.mp (by decide)
  have hinert := page_inert page hcode hid hostile .empty
  exact ⟨hinert.1, by decide +kernel⟩

end Cards

end LivelierBridge.Site
