import LivelierBridge.Js.Html
import LivelierBridge.Js.Replace
import LivelierBridge.Site.Finder

namespace LivelierBridge.Site

open Framework Js Nostr Discovery

/-! ### The source -/

def ENTITIES : List (UInt16 × JsString) :=
  [(38, js "&amp;"), (60, js "&lt;"), (62, js "&gt;"), (34, js "&quot;"), (39, js "&#39;")]

/-- `value.replace(/[&<>"']/g, (c) => ENTITIES[c])` -/
def escapeHtml (value : JsString) : JsString :=
  (Regex.unit fun u => u ∈ js "&<>\"'").replace
    (fun m => (m.text.head?.bind fun u => ENTITIES.lookup u).getD []) value

/-- For values landing in an attribute -/
def escapeAttr (value : JsString) : JsString :=
  (Regex.unit fun u => u = 96).replace (fun _ => js "&#96;") (escapeHtml value)

def SAFE_SCHEMES : List JsString := [js "http:", js "https:"]

/-- A URL from a relay, if the page will link to it. -/
def safeHref (R : Runtime) (value : Option JsString) : Option JsString :=
  match value.filter (· ≠ []) with
  | none => none
  | some value =>
    match R.parseUrl value with
    | some u => if u.protocol ∈ SAFE_SCHEMES then some value else none
    | none => none

/-- The parts of a kind-0 profile that a card shows -/
structure ChannelProfile where
  name : Option JsString
  website : Option JsString

/-- `config.njump` -/
def NJUMP : JsString := js "https://njump.me/"

/-- The page's platform with what it calls. -/
structure Page (R : Runtime) extends Browser R where
  /-- `nip19.naddrEncode` of an event's coordinate with the event relay; none where it throws. -/
  naddrEncode : Event → JsString → Option JsString

/-- A card of the grid: where it leads, and its inner HTML. -/
structure GridCard where
  href : Option JsString
  innerHTML : JsString

namespace Page

variable {R : Runtime} (P : Page R)

def njumpAddress (event : Event) (identifier : JsString) : JsString :=
  NJUMP ++ (P.naddrEncode event identifier).getD event.id

section Parts

def summaryHtml (summary : Option JsString) : JsString :=
  match summary.filter (· ≠ []) with
  | some summary => js "<p class=\"result-summary\">" ++ escapeHtml summary ++ js "</p>"
  | none => []

/-- The server's address: a link if the page will follow it, text otherwise. -/
def serverHtml (R : Runtime) (serverUrl : Option JsString) : JsString :=
  match serverUrl.filter (· ≠ []) with
  | some url =>
    js "<p class=\"result-url\">" ++
      (match safeHref R serverUrl with
      | some href => js "<a href=\"" ++ escapeAttr href ++
          js "\" target=\"_blank\" rel=\"noopener\">" ++ escapeHtml url ++ js "</a>"
      | none => escapeHtml url) ++ js "</p>"
  | none => []

def pillHtml (topic : JsString) : JsString :=
  js "<span class=\"pill\">" ++ escapeHtml topic ++ js "</span>"

def watchHtml (watchUrl : Option JsString) : JsString :=
  match watchUrl.filter (· ≠ []) with
  | some url => js "<code>" ++ escapeHtml url ++ js "</code>"
  | none => js "your own server"

end Parts

def resultCard (channel : Channel) : JsString :=
  let statusClass := if channel.status = js "live" then js "live" else js "ended"
  js "\n    <h3>" ++ escapeHtml channel.title ++ js "</h3>\n    " ++ summaryHtml channel.summary ++
  js "\n    " ++ serverHtml R channel.proxyUrl ++ js "\n    <div class=\"result-meta\">\n      " ++
  (js "<span class=\"pill " ++ statusClass ++ js "\">") ++ escapeHtml channel.status ++
  js "</span>\n      " ++
  (if channel.nsfw then js "<span class=\"pill\">labelled adult</span>" else []) ++
  js "\n      " ++ ((channel.topics.take 3).map pillHtml).flatten ++ js "\n    </div>\n" ++
  (js "\n    <div class=\"callout callout-server\">" ++
    js "\n      <p class=\"callout-head\">Live streaming at ") ++
  watchHtml (channel.streaming.or channel.proxyUrl) ++
  (js "</p>\n      <p><strong>Livelier never copies, re-hosts, or stores your video.</strong>" ++
    js " It publishes the\n      above URL so that viewers know where to watch.</p>\n    </div>\n" ++
    js "\n    <div class=\"callout callout-chat\">" ++
    js "\n      <p class=\"callout-head\">Chat messages for this livestream</p>" ++
    js "\n      <div class=\"chat-count\">" ++
    js "\n        <span class=\"chat-count-value\" data-chat-value>—</span>" ++
    js "\n        <p class=\"chat-count-text\" data-chat-text>Counting…</p>" ++
    js "\n      </div>\n    </div>\n\n    <div class=\"result-actions\">" ++
    js "\n      <button type=\"button\" class=\"cmd-btn\" data-json>View the raw event</button>" ++
    js "\n      ") ++
  (js "<a class=\"cmd-btn\" href=\"" ++ P.njumpAddress channel.event channel.dTag ++
    js "\" target=\"_blank\" rel=\"noopener\">") ++
  js "Open it on njump ↗</a>\n    </div>"

def note (html : JsString) : JsString := js "<p class=\"result-note\">" ++ html ++ js "</p>"

/-- The inner HTML of the finder's panel for what it shows. -/
def finderHtml : FinderNote → JsString
  | .notAnAddress =>
    note (js "That doesn't look like a web address — try something like " ++
      js "<code>live.example.com</code>.")
  | .failed => note (js "Something went wrong asking the relay. Try again in a moment.")
  | .unknown dTag =>
    note ((js "The relay could not be reached from your browser just now, so this is unknown " ++
      js "rather than\n       empty. Your channel's id would be <code>") ++ escapeHtml dTag ++
      (js "</code> — the commands further\n       down will look it up independently."))
  | .nothing hostname dTag =>
    note (js "Nothing published for <code>" ++ escapeHtml hostname ++
      (js "</code>. Either it isn't listed in the\n       public Owncast directory, or it hasn't " ++
        js "gone live since Livelier started watching.\n       Its id would be <code>") ++
      escapeHtml dTag ++ js "</code> if it ever does.")
  | .card channel => P.resultCard channel

/-- One of the channels that are live, as a card of the grid. -/
def card (channel : Channel) (profiles : OrderedMap JsString ChannelProfile) : GridCard :=
  let profile := (channel.hostPubkey.filter (· ≠ [])).bind profiles.get?
  let hostname := (channel.proxyUrl.filter (· ≠ [])).bind fun url =>
    (R.parseUrl url).map fun _ => P.hostname url
  let name := profile.bind ChannelProfile.name
  let host :=
    match name.filter (fun named => named ≠ [] && trim named ≠ trim channel.title) with
    | some named => named
    | none => (hostname.or name).getD (js "a self-hosted stream")
  let thumb :=
    match safeHref R channel.image with
    | some thumb => js "<img src=\"" ++ escapeAttr thumb ++
        js "\" alt=\"\" loading=\"lazy\" referrerpolicy=\"no-referrer\">"
    | none => []
  { href := (safeHref R channel.proxyUrl).or (safeHref R (profile.bind ChannelProfile.website))
    innerHTML :=
      js "\n    <div class=\"card-thumb\">\n      " ++ thumb ++
      (js "\n      <span class=\"card-live\">live</span>\n    </div>" ++
        js "\n    <div class=\"card-body\">\n      <p class=\"card-title\">") ++
      escapeHtml channel.title ++ js "</p>\n      <p class=\"card-host\">" ++ escapeHtml host ++
      js "</p>\n    </div>" }

end Page

end LivelierBridge.Site
