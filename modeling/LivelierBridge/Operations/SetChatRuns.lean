import LivelierBridge.Operations.Retract
import LivelierBridge.Operations.SetChat

namespace LivelierBridge.Operations

open Framework Js Nostr Discovery

/-! ### The table -/

section Table

variable {ν : Type}

/-- The rows that the sweep updates -/
def target (enabled : Bool) (source : Option JsString) (row : InstanceRow ν) : Bool :=
  changing enabled row && inScope source row

variable (table : InstanceTable ν) (enabled : Bool) (source : Option JsString)

/-- A count of the census, over all its groups -/
theorem census_sum (p : InstanceRow ν → Bool) :
    (((table.values.filter (inScope source)).map InstanceRow.source).dedup.map fun s =>
      ((table.values.filter (inScope source)).filter fun row => row.source = s).countP p).sum =
      table.values.countP fun row => p row && inScope source row := by
  rw [sum_groups InstanceRow.source p (List.nodup_dedup _), List.countP_filter]
  intro row hrow
  exact List.mem_dedup.mpr (List.mem_map_of_mem hrow)

theorem census_changing : ((census enabled source table).map CensusRow.changing).sum =
    table.values.countP (target enabled source) := by
  have hsum := census_sum table source (changing enabled)
  rw [census, List.map_map]
  exact hsum

theorem census_changingLive : ((census enabled source table).map CensusRow.changingLive).sum =
    table.values.countP fun row =>
      (changing enabled row && row.status = .live && row.discoveryEnabled) && inScope source row := by
  rw [← census_sum table source, census, List.map_map]
  rfl

/-- What is printed does not depend on the confirmation. -/
theorem setAll_census (confirm : Bool) (stored : InstanceTable ν) :
    (setAll confirm enabled table stored source).census = census enabled source table := by
  unfold setAll
  dsimp only
  split
  · rename_i hempty
    exact (List.isEmpty_iff.mp hempty).symm
  · split
    · rfl
    · split <;> rfl

/-- A confirmed sweep of the table that it has counted is the UPDATE. -/
theorem setAll_confirmed : (setAll true enabled table table source).table =
      table.updateWhere (target enabled source) (setChatFlag enabled) ∧
    (setAll true enabled table table source).updated =
      ((census enabled source table).map CensusRow.changing).sum := by
  have hnone : ((census enabled source table).map CensusRow.changing).sum = 0 →
      table.updateWhere (target enabled source) (setChatFlag enabled) = table := by
    intro hsum
    rw [census_changing, List.countP_eq_zero] at hsum
    exact OrderedMap.updateWhere_eq_self fun row hrow => Bool.not_eq_true _ ▸ hsum row hrow
  unfold setAll
  dsimp only
  split
  · rename_i hempty
    have hsum : ((census enabled source table).map CensusRow.changing).sum = 0 := by
      rw [List.isEmpty_iff.mp hempty]
      rfl
    exact ⟨(hnone hsum).symm, hsum.symm⟩
  · split
    · rename_i hsum
      exact ⟨(hnone hsum).symm, hsum.symm⟩
    · exact ⟨rfl, (census_changing table enabled source).symm⟩

theorem setAll_dry (read stored : InstanceTable ν) :
    (setAll false enabled read stored source).table = stored := by
  unfold setAll
  dsimp only
  split
  · rfl
  · split <;> rfl

end Table

/-! ### What the bridge does with it -/

section Rooms

variable {ν : Type} {table : InstanceTable ν} {enabled : Bool} {source : Option JsString}

/-- The instances that have a room, of any source -/
def rooms (table : InstanceTable ν) : List JsString :=
  (table.entries.filter fun e => listChatRooms e.2.source e.2).map Prod.fst

theorem mem_rooms {url : JsString} :
    url ∈ rooms table ↔ ∃ row, table.get? url = some row ∧ listChatRooms row.source row = true := by
  simp only [rooms, List.mem_map, List.mem_filter, OrderedMap.get?_eq_some_iff]
  constructor
  · rintro ⟨⟨u, row⟩, ⟨hmem, hroom⟩, rfl⟩
    exact ⟨row, hmem, hroom⟩
  · rintro ⟨row, hmem, hroom⟩
    exact ⟨(url, row), ⟨hmem, hroom⟩, rfl⟩

theorem length_rooms : (rooms table).length =
    table.values.countP fun row => listChatRooms row.source row := by
  rw [rooms, List.length_map, ← List.countP_eq_length_filter, OrderedMap.values, List.countP_map]
  rfl

theorem true_of_toNat_add {p q r : Bool} (h : p.toNat = q.toNat + r.toNat) (hq : q = true) :
    p = true := by
  subst hq
  cases p with
  | true => rfl
  | false =>
    simp only [Bool.toNat_false, Bool.toNat_true] at h
    omega

/-- A row as the sweep leaves it -/
def swept (enabled : Bool) (source : Option JsString) (row : InstanceRow ν) : InstanceRow ν :=
  if target enabled source row then setChatFlag enabled row else row

/-- The rows that the census counts as live and changing are those that gain or lose their room. -/
theorem room_swept (enabled : Bool) (source : Option JsString) (row : InstanceRow ν) :
    let counted := (changing enabled row && row.status = .live && row.discoveryEnabled) &&
      inScope source row
    let before := listChatRooms row.source row
    let after := listChatRooms (swept enabled source row).source (swept enabled source row)
    if enabled then after.toNat = before.toNat + counted.toNat
    else before.toNat = after.toNat + counted.toNat := by
  cases hchat : row.chatEnabled <;> cases hscope : inScope source row <;>
    cases hdiscovery : row.discoveryEnabled <;> cases hstatus : row.status <;> cases enabled <;>
    simp [swept, target, changing, setChatFlag, listChatRooms, hchat, hscope, hdiscovery, hstatus]

/-- Switching on opens as many rooms as were announced, and closes none; switching off is the
other way around. -/
theorem rooms_swept : let after := table.updateWhere (target enabled source) (setChatFlag enabled)
    let announced := ((census enabled source table).map CensusRow.changingLive).sum
    if enabled then rooms table ⊆ rooms after ∧ (rooms after).length = (rooms table).length + announced
    else rooms after ⊆ rooms table ∧ (rooms table).length = (rooms after).length + announced := by
  intro after announced
  have hafter : (rooms after).length = table.values.countP fun row =>
      listChatRooms (swept enabled source row).source (swept enabled source row) := by
    rw [length_rooms, OrderedMap.values_updateWhere, List.countP_map]
    rfl
  have hget : ∀ url, after.get? url = (table.get? url).map (swept enabled source) :=
    table.get?_updateWhere _ _
  have hannounced : announced = _ := census_changingLive table enabled source
  cases enabled with
  | true =>
    have hrow := fun row : InstanceRow ν => room_swept true source row
    simp only [if_true] at hrow ⊢
    refine ⟨fun url hurl => ?_, ?_⟩
    · obtain ⟨row, hstored, hroom⟩ := mem_rooms.mp hurl
      refine mem_rooms.mpr ⟨swept true source row, by rw [hget, hstored]; rfl, ?_⟩
      exact true_of_toNat_add (hrow row) hroom
    · rw [hafter, length_rooms, hannounced]
      exact countP_add hrow
  | false =>
    have hrow := fun row : InstanceRow ν => room_swept false source row
    simp only [Bool.false_eq_true, if_false] at hrow ⊢
    refine ⟨fun url hurl => ?_, ?_⟩
    · obtain ⟨row', hstored', hroom⟩ := mem_rooms.mp hurl
      rw [hget] at hstored'
      obtain ⟨row, hstored, rfl⟩ := Option.map_eq_some_iff.mp hstored'
      refine mem_rooms.mpr ⟨row, hstored, ?_⟩
      exact true_of_toNat_add (hrow row) hroom
    · rw [hafter, length_rooms, hannounced]
      exact countP_add hrow

end Rooms

/-! ### The program -/

section Program

variable {ν : Type} {argv : List JsString} {args : ParsedArgs} {read stored : InstanceTable ν}

def ParsedArgs.enabled (args : ParsedArgs) : Bool := args.mode = some (js "on")

/-- The rows that the arguments ask for -/
def asked (args : ParsedArgs) (url : JsString) (row : InstanceRow ν) : Bool :=
  if args.all then inScope args.source row else args.positional[0]? = some url

/-- A run leaves the table, or it is confirmed and switches the rows that were asked for. -/
theorem setChatWith_table (args : ParsedArgs) (read stored : InstanceTable ν) :
    (setChatWith read stored args).table = stored ∨
    args.confirm = true ∧ (args.all = true → args.positional.length ≤ 1) ∧
      ∀ url, (setChatWith read stored args).table.get? url = (stored.get? url).map fun row =>
        if asked args url row then setChatFlag args.enabled row else row := by
  unfold setChatWith
  split
  · exact .inl rfl
  rename_i hoperands
  have hone : args.all = true → args.positional.length ≤ 1 := by
    intro hall
    simpa [hall] using hoperands
  split
  · exact .inl rfl
  dsimp only
  split
  · rename_i hall
    cases hconfirm : args.confirm with
    | false => exact .inl (setAll_dry _ _ read stored)
    | true =>
      unfold setAll
      dsimp only
      split
      · exact .inl rfl
      split
      · exact .inl rfl
      · refine .inr ⟨rfl, hone, fun url => ?_⟩
        refine (stored.get?_updateWhere _ _ url).trans ?_
        congr 1
        funext row
        simp only [asked, hall, if_true, changing, ParsedArgs.enabled]
        by_cases hscope : inScope args.source row = true
        · by_cases hsame : row.chatEnabled = decide (args.mode = some (js "on"))
          · simp [hscope, setChatFlag, ← hsame]
          · simp [hscope, hsame]
        · simp [hscope]
  · rename_i hall
    split
    · exact .inl rfl
    · rename_i url hurl
      have hfirst : args.positional[0]? = some url := Option.eq_some_of_filter_eq_some hurl
      unfold setOne
      split
      · exact .inl rfl
      · cases hconfirm : args.confirm with
        | false => exact .inl rfl
        | true =>
          simp only [Bool.not_true, Bool.false_eq_true, if_false]
          split
          · rename_i row hrow
            refine .inr ⟨trivial, hone, fun u => ?_⟩
            rw [OrderedMap.get?_set]
            simp only [asked, hall, hfirst]
            by_cases hu : u = url
            · subst hu
              simp [hrow, ParsedArgs.enabled]
            · simp [hu, Ne.symm hu]
          · exact .inl rfl

/-- The arguments of a run, and what the parser says of them -/
theorem parsed_argv (h : parseArgs .empty BOOLEANS argv ⟨.empty, []⟩ = some args) :
    (args.confirm = true ↔ js "--confirm" ∈ argv) ∧ (args.all = true ↔ js "--all" ∈ argv) ∧
    (∀ s, args.source = some s → s ∈ argv) ∧ ∀ x ∈ args.positional, x ∈ argv := by
  have hparsed := parsed_of_parseArgs argv.length argv _ le_rfl h
  have hnone : ∀ key x, (OrderedMap.empty : OrderedMap JsString FlagValue).get? key ≠ some x :=
    fun _ _ hx => Option.some_ne_none _ hx.symm
  have hboolean : ∀ key ∈ BOOLEANS, startsWith (js "--") key = true →
      (args.flags.get? key = some .on ↔ key ∈ argv) := by
    intro key hkey hdash
    rw [hparsed.boolean key hkey hdash, or_iff_right (hnone key .on)]
  refine ⟨?_, ?_, fun s hs => ?_, fun x hx => ?_⟩
  · exact decide_eq_true_iff.trans (hboolean _ (by decide) (by decide))
  · exact decide_eq_true_iff.trans (hboolean _ (by decide) (by decide))
  · unfold ParsedArgs.source at hs
    split at hs
    · rename_i v hv
      obtain rfl := Option.some.inj hs
      exact (hparsed.text _ _ hv).resolve_left (hnone _ _)
    · cases hs
    · cases hs
  · exact (hparsed.positional x hx).resolve_left List.not_mem_nil

section Steps

variable [DecidableEq ν] [JsNumber ν] {R : Runtime} {nsecPubkey : JsString → Option JsString} {env : Env}
  {E : Engine}

end Steps

/-! ### What a dry run announces -/

section Announced

variable {table : InstanceTable ν}

/-- The arguments with `--confirm` behind them -/
def ParsedArgs.confirmed (args : ParsedArgs) : ParsedArgs := args.setFlag (js "--confirm") .on

theorem confirmed_get? (args : ParsedArgs) {key : JsString} (h : key ≠ js "--confirm") :
    args.confirmed.flags.get? key = args.flags.get? key := by
  rw [ParsedArgs.confirmed, setFlag_get?, if_neg h]

theorem confirmed_all (args : ParsedArgs) : args.confirmed.all = args.all := by
  rw [ParsedArgs.all, confirmed_get? args (by decide), ParsedArgs.all]

theorem confirmed_source (args : ParsedArgs) : args.confirmed.source = args.source := by
  rw [ParsedArgs.source, confirmed_get? args (by decide), ParsedArgs.source]

theorem confirmed_mode (args : ParsedArgs) : args.confirmed.mode = args.mode := by
  rw [ParsedArgs.mode, confirmed_all]
  rfl

theorem confirmed_confirm (args : ParsedArgs) : args.confirmed.confirm = true := by
  rw [ParsedArgs.confirm, ParsedArgs.confirmed, setFlag_get?, if_pos rfl]
  rfl

theorem setChat_confirmed (h : parseArgs .empty BOOLEANS argv ⟨.empty, []⟩ = some args)
    (read stored : InstanceTable ν) : setChat read stored (argv ++ [js "--confirm"]) =
      setChatWith read stored args.confirmed := by
  have hkey : js "--confirm" ∈ BOOLEANS := by decide
  have happend := parseArgs_append hkey (by decide) (by decide) argv.length argv ⟨.empty, []⟩ le_rfl
  rw [setChat, happend, h]
  rfl

/-- A census does not look at the confirmation. -/
theorem setChatWith_census (args : ParsedArgs) (read stored : InstanceTable ν) :
    (setChatWith read stored args.confirmed).census = (setChatWith read stored args).census := by
  unfold setChatWith
  rw [confirmed_all, confirmed_mode, confirmed_source]
  have hpositional : args.confirmed.positional = args.positional := rfl
  rw [hpositional]
  split
  · rfl
  split
  · rfl
  dsimp only
  split
  · rw [setAll_census, setAll_census]
  · split
    · rfl
    · unfold setOne
      split
      · rfl
      · split <;> split <;> first | rfl | (split <;> rfl)

/-- A sweep of a table has switched the rows that a census counts, and the rooms that there are then
are those before with, or without, as many as it announces. -/
def Announced (enabled : Bool) (table : InstanceTable ν) (census : List CensusRow)
    (done : ScriptRun ν) : Prop :=
  let announced := (census.map CensusRow.changingLive).sum
  done.updated = (census.map CensusRow.changing).sum ∧
  if enabled then
    rooms table ⊆ rooms done.table ∧ (rooms done.table).length = (rooms table).length + announced
  else rooms done.table ⊆ rooms table ∧ (rooms table).length = (rooms done.table).length + announced

theorem announced_refused (enabled : Bool) (table : InstanceTable ν) (code : Nat) :
    Announced enabled table [] ⟨code, [], 0, table⟩ := by
  refine ⟨rfl, ?_⟩
  cases enabled with
  | true => exact ⟨List.Subset.refl _, rfl⟩
  | false => exact ⟨List.Subset.refl _, rfl⟩

theorem announced_setAll (enabled : Bool) (source : Option JsString) (table : InstanceTable ν) :
    Announced enabled table (census enabled source table)
      (setAll true enabled table table source) := by
  obtain ⟨htable, hupdated⟩ := setAll_confirmed table enabled source
  refine ⟨hupdated, ?_⟩
  rw [htable]
  exact rooms_swept

theorem setChatWith_announced (hall : args.all = true) (table : InstanceTable ν) :
    Announced args.enabled table (setChatWith table table args.confirmed).census
      (setChatWith table table args.confirmed) := by
  unfold setChatWith
  rw [confirmed_all, confirmed_mode, confirmed_source, confirmed_confirm]
  split
  · exact announced_refused _ table 2
  split
  · exact announced_refused _ table 2
  · dsimp only
    rw [setAll_census]
    exact announced_setAll args.enabled args.source table

/-- A second confirmed run with the same arguments changes nothing more. -/
theorem setChatWith_again (args : ParsedArgs) (table : InstanceTable ν) (url : JsString) :
    let done := setChatWith table table args
    (setChatWith done.table done.table args).table.get? url = done.table.get? url := by
  intro done
  rcases setChatWith_table args done.table done.table with hsame | ⟨-, -, hagain⟩
  · rw [hsame]
  rcases setChatWith_table args table table with hsame | ⟨-, -, hget⟩
  · change done.table = table at hsame
    rw [hsame]
    exact congrArg (fun t : InstanceTable ν => t.get? url) hsame
  · have hdone : done.table.get? url = _ := hget url
    rw [hagain, hdone, Option.map_map]
    congr 1
    funext row
    simp only [Function.comp]
    by_cases hask : asked args url row = true
    · have hask' : asked args url (setChatFlag args.enabled row) = true := hask
      rw [if_pos hask, if_pos hask']
      rfl
    · rw [if_neg hask, if_neg hask]

/-- A dry run changes nothing. Run again with `--confirm` behind the same arguments on the same
table, the program prints the same census and does what that announced, and once more it changes
nothing. -/
theorem setChat_announced (hdry : js "--confirm" ∉ argv) (table : InstanceTable ν) :
    let dry := setChat table table argv
    let done := setChat table table (argv ++ [js "--confirm"])
    dry.table = table ∧ done.census = dry.census ∧
    (∀ url, (setChat done.table done.table (argv ++ [js "--confirm"])).table.get? url =
      done.table.get? url) ∧
    ∀ args, parseArgs .empty BOOLEANS argv ⟨.empty, []⟩ = some args → args.all = true →
      Announced args.enabled table dry.census done := by
  intro dry done
  cases hparse : parseArgs .empty BOOLEANS argv ⟨.empty, []⟩ with
  | none =>
    have hkey : js "--confirm" ∈ BOOLEANS := by decide
    have happend := parseArgs_append hkey (by decide) (by decide) argv.length argv ⟨.empty, []⟩ le_rfl
    have hdone : ∀ t : InstanceTable ν, setChat t t (argv ++ [js "--confirm"]) = ⟨1, [], 0, t⟩ := by
      intro t
      rw [setChat, happend, hparse]
      rfl
    have hdryRun : dry = ⟨1, [], 0, table⟩ := by
      simp only [dry, setChat, hparse]
    refine ⟨by rw [hdryRun], by simp only [done, hdone, hdryRun], fun url => ?_, fun args h => ?_⟩
    · rw [hdone]
    · cases h
  | some args =>
    have hdryRun : dry = setChatWith table table args := by simp only [dry, setChat, hparse]
    have hdone : done = setChatWith table table args.confirmed := setChat_confirmed hparse table table
    refine ⟨?_, ?_, fun url => ?_, fun args' hargs hall => ?_⟩
    · rw [hdryRun]
      refine (setChatWith_table args table table).resolve_right fun h => hdry ?_
      exact (parsed_argv hparse).1.mp h.1
    · rw [hdone, hdryRun, setChatWith_census]
    · rw [setChat_confirmed hparse, hdone]
      exact setChatWith_again args.confirmed table url
    · obtain rfl := Option.some.inj hargs
      rw [hdone, hdryRun, ← setChatWith_census]
      exact setChatWith_announced hall table

/-- One live instance without chat: the dry run announces its room, and the confirmed run opens it. -/
theorem setChat_announced_opens :
    let table : InstanceTable Int :=
      OrderedMap.empty.set (js "https://a.example") { demoRow with chatEnabled := false }
    let done := setChat table table [js "--all", js "on", js "--confirm"]
    rooms table = [] ∧ (rooms done.table).length = 1 := by
  intro table done
  have hparsed : (parseArgs .empty BOOLEANS [js "--all", js "on"] ⟨.empty, []⟩).map
      (fun args => (args.all, args.enabled)) = some (true, true) := by decide +kernel
  obtain ⟨args, hargs, hflags⟩ := Option.map_eq_some_iff.mp hparsed
  obtain ⟨hall, henabled⟩ := Prod.mk.inj hflags
  have hdry : js "--confirm" ∉ [js "--all", js "on"] := by decide
  have hannounced := (setChat_announced hdry table).2.2.2 args hargs hall
  rw [henabled] at hannounced
  have hrooms : rooms table = [] := by decide +kernel
  have hone : ((setChat table table [js "--all", js "on"]).census.map CensusRow.changingLive).sum =
      1 := by
    decide +kernel
  have hlength := hannounced.2.2
  rw [hrooms, hone] at hlength
  exact ⟨hrooms, hlength⟩

end Announced

end Program

end LivelierBridge.Operations
