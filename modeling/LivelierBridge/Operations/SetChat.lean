import LivelierBridge.Discovery.Store
import LivelierBridge.Framework.Tables
import LivelierBridge.Operations.ArgParser

namespace LivelierBridge.Operations

open Framework Js Discovery

variable {ν : Type}

/-- A group of the census -/
structure CensusRow where
  source : JsString
  total : Nat
  changing : Nat
  changingLive : Nat
  changingInert : Nat

/-- What the script has printed and done: the census, the rows it has updated, and its exit code. -/
structure ScriptRun (ν : Type) where
  code : Nat
  census : List CensusRow
  updated : Nat
  table : InstanceTable ν

/-- `$2::text IS NULL OR source = $2` -/
def inScope (source : Option JsString) (row : InstanceRow ν) : Bool :=
  match source with
  | none => true
  | some s => row.source = s

/-- `chat_enabled IS DISTINCT FROM $1` -/
def changing (enabled : Bool) (row : InstanceRow ν) : Bool := row.chatEnabled != enabled

/-- The groups by source; their order is not looked at. -/
def census (enabled : Bool) (source : Option JsString) (table : InstanceTable ν) : List CensusRow :=
  let rows := table.values.filter (inScope source)
  (rows.map InstanceRow.source).dedup.map fun s =>
    let group := rows.filter fun row => row.source = s
    { source := s
      total := group.length
      changing := group.countP (changing enabled)
      changingLive := group.countP fun row =>
        changing enabled row && row.status = .live && row.discoveryEnabled
      changingInert := group.countP fun row => changing enabled row && !row.discoveryEnabled }

def setChatFlag (enabled : Bool) (row : InstanceRow ν) : InstanceRow ν :=
  { row with chatEnabled := enabled }

def BOOLEANS : List JsString := [js "--confirm", js "--all"]

namespace ParsedArgs

variable (args : ParsedArgs)

def all : Bool := args.flags.get? (js "--all") = some .on

def confirm : Bool := args.flags.get? (js "--confirm") = some .on

/-- `typeof flags['--source'] === 'string' ? flags['--source'] : null` -/
def source : Option JsString :=
  match args.flags.get? (js "--source") with
  | some (.text source) => some source
  | some .on | none => none

def mode : Option JsString := if args.all then args.positional[0]? else args.positional[1]?

end ParsedArgs

section Script

variable (confirm enabled : Bool) (read stored : InstanceTable ν)

/-- One instance: `read` is the table at the lookup, `stored` the table at the UPDATE. -/
def setOne (url : JsString) : ScriptRun ν :=
  match read.get? url with
  | none => ⟨1, [], 0, stored⟩
  | some _ =>
    if !confirm then ⟨0, [], 0, stored⟩
    else
      match stored.get? url with
      | some row => ⟨0, [], 1, stored.set url (setChatFlag enabled row)⟩
      | none => ⟨1, [], 0, stored⟩

/-- The sweep over every row in scope -/
def setAll (source : Option JsString) : ScriptRun ν :=
  let rows := census enabled source read
  let target (row : InstanceRow ν) : Bool := changing enabled row && inScope source row
  if rows.isEmpty then ⟨if source.isSome then 1 else 0, [], 0, stored⟩
  else if (rows.map CensusRow.changing).sum = 0 then ⟨0, rows, 0, stored⟩
  else if !confirm then ⟨0, rows, 0, stored⟩
  else ⟨0, rows, stored.values.countP target, stored.updateWhere target (setChatFlag enabled)⟩

/-- The script behind its arguments -/
def setChatWith (args : ParsedArgs) : ScriptRun ν :=
  if args.all && 1 < args.positional.length then ⟨2, [], 0, stored⟩
  else if args.mode ≠ some (js "on") ∧ args.mode ≠ some (js "off") then ⟨2, [], 0, stored⟩
  else
    let enabled : Bool := args.mode = some (js "on")
    if args.all then setAll args.confirm enabled read stored args.source
    else
      match args.positional[0]?.filter (· ≠ []) with
      | none => ⟨2, [], 0, stored⟩
      | some url => setOne args.confirm enabled read stored url

/-- `set-chat.mjs` -/
def setChat (argv : List JsString) : ScriptRun ν :=
  match parseArgs .empty BOOLEANS argv ⟨.empty, []⟩ with
  | none => ⟨1, [], 0, stored⟩
  | some args => setChatWith read stored args

end Script

end LivelierBridge.Operations
