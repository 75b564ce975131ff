import Mathlib.Data.List.Infix
import NightScout.Lib.Dict

/-!
# How command lines are read

A tool reads its arguments from the left. What one argument does (`Reading`) is the tool's own; how the readings are put
together (`scan`) is the same for the flags of Go and for Python's `argparse`. Both accept more than one spelling of an
option, and `Tool.spelled` says which: whatever sets an option is its name or one of the tool's respellings of it.
-/

namespace NightScout.Lib

abbrev Text := List Char

/-- One option being set: the argument it stands in, the name that argument stands for, and the value, if there is one. -/
structure Setting (O : Type*) where
  argument : Text
  name : Text
  option : O
  value : Option Text
  deriving DecidableEq

/-- What one argument does. -/
inductive Reading (O : Type*) where
  /-- It ends the options; whether other arguments may follow. -/
  | stop (operands : Bool)
  /-- The tool refuses the command line. -/
  | refuse
  | done (settings : List (Setting O))
  /-- The next argument is the value of one more option, if `value` accepts it; `otherwise` is what that option is set to
  without one. -/
  | awaits (settings : List (Setting O)) (value : Text → Option (Setting O)) (otherwise : Option (Setting O))

inductive Ending where
  | atEnd
  | stopped
  | refused
  deriving DecidableEq

/-! ## Reading a command line -/

section Scan

variable {O : Type*} (read : Text → Reading O)

/-- The options that are set, and how the reading ends. -/
def scan : List Text → List (Setting O) × Ending
  | [] => ([], .atEnd)
  | argument :: rest =>
    match read argument with
    | .stop operands => ([], if operands || rest.isEmpty then .stopped else .refused)
    | .refuse => ([], .refused)
    | .done settings => (settings ++ (scan rest).1, (scan rest).2)
    | .awaits settings value otherwise =>
      match rest with
      | [] => match otherwise with
        | some setting => (settings ++ [setting], .atEnd)
        | none => (settings, .refused)
      | next :: rest => match value next with
        | some setting => (settings ++ setting :: (scan rest).1, (scan rest).2)
        | none => match otherwise with
          | some setting => (settings ++ setting :: (scan (next :: rest)).1, (scan (next :: rest)).2)
          | none => (settings, .refused)

/-- Every argument is an option, or the value that the option before it awaits. -/
inductive ReadsWhole : List Text → List (Setting O) → Prop
  | nil : ReadsWhole [] []
  | flag {argument : Text} {settings : List (Setting O)} {rest : List Text} {others : List (Setting O)}
      (hread : read argument = .done settings) (hrest : ReadsWhole rest others) :
      ReadsWhole (argument :: rest) (settings ++ others)
  | valued {argument next : Text} {settings : List (Setting O)} {value : Text → Option (Setting O)}
      {otherwise : Option (Setting O)} {setting : Setting O} {rest : List Text} {others : List (Setting O)}
      (hread : read argument = .awaits settings value otherwise) (hvalue : value next = some setting)
      (hrest : ReadsWhole rest others) :
      ReadsWhole (argument :: next :: rest) (settings ++ setting :: others)

/-- The settings of arguments that are read whole. -/
def wholeSettings : List Text → Option (List (Setting O))
  | [] => some []
  | argument :: rest =>
    match read argument with
    | .stop _ | .refuse => none
    | .done settings => (wholeSettings rest).map (settings ++ ·)
    | .awaits settings value _ =>
      match rest with
      | [] => none
      | next :: rest => match value next with
        | some setting => (wholeSettings rest).map (settings ++ setting :: ·)
        | none => none

variable {read}

theorem readsWhole_of_wholeSettings {arguments : List Text} {settings : List (Setting O)}
    (h : wholeSettings read arguments = some settings) : ReadsWhole read arguments settings := by
  fun_induction wholeSettings read arguments generalizing settings with
  | case1 =>
    obtain rfl := Option.some.inj h
    exact .nil
  | case2 => cases h
  | case3 => cases h
  | case4 argument rest here hread ih =>
    obtain ⟨others, hothers, rfl⟩ := Option.map_eq_some_iff.mp h
    exact .flag hread (ih hothers)
  | case5 => cases h
  | case6 argument here value otherwise hread next rest setting hvalue ih =>
    obtain ⟨others, hothers, rfl⟩ := Option.map_eq_some_iff.mp h
    exact .valued hread hvalue (ih hothers)
  | case7 => cases h

/-- What follows is read as if it stood alone. -/
theorem ReadsWhole.scan_append {own : List Text} {settings : List (Setting O)} (h : ReadsWhole read own settings)
    (extra : List Text) : scan read (own ++ extra) = (settings ++ (scan read extra).1, (scan read extra).2) := by
  induction h with
  | nil => rfl
  | flag hread _ ih => simp only [List.cons_append, scan, hread, ih, List.append_assoc]
  | valued hread hvalue _ ih => simp only [List.cons_append, scan, hread, hvalue, ih, List.append_assoc]

end Scan

/-! ## Tools -/

/-- The settings an argument can make. -/
def Reading.Makes {O : Type*} (setting : Setting O) : Reading O → Prop
  | .stop _ | .refuse => False
  | .done settings => setting ∈ settings
  | .awaits settings value otherwise =>
      setting ∈ settings ∨ (∃ next, value next = some setting) ∨ otherwise = some setting

/-- A tool's reading of its arguments. An option is set by its name, or by a respelling of it. -/
structure Tool (O : Type*) where
  read : Text → Reading O
  optionOf : Text → Option O
  Respelled : Text → Text → Prop
  spelled : ∀ argument setting, (read argument).Makes setting → setting.argument = argument ∧
    optionOf setting.name = some setting.option ∧ (argument = setting.name ∨ Respelled argument setting.name)

namespace Tool

variable {O : Type*} (tool : Tool O)

/-- What is known of a setting that `argument` makes. -/
def Spelled (argument : Text) (setting : Setting O) : Prop :=
  setting.argument = argument ∧ tool.optionOf setting.name = some setting.option ∧
    (argument = setting.name ∨ tool.Respelled argument setting.name)

/-- Every setting of a command line is made by one of its arguments. -/
theorem mem_scan {arguments : List Text} {setting : Setting O} (h : setting ∈ (scan tool.read arguments).1) :
    ∃ argument ∈ arguments, tool.Spelled argument setting := by
  fun_induction scan tool.read arguments with
  | case1 => cases h
  | case2 => cases h
  | case3 => cases h
  | case4 argument rest settings hread ih =>
    rcases List.mem_append.mp h with hhere | hthere
    · exact ⟨argument, List.mem_cons_self, tool.spelled _ _ (hread ▸ hhere)⟩
    · obtain ⟨later, hlater, hspelled⟩ := ih hthere
      exact ⟨later, List.mem_cons_of_mem _ hlater, hspelled⟩
  | case5 argument settings value other hread =>
    refine ⟨argument, List.mem_cons_self, tool.spelled _ _ ?_⟩
    rw [hread]
    rcases List.mem_append.mp h with hhere | hlast
    · exact .inl hhere
    · exact .inr (.inr (congrArg some (List.mem_singleton.mp hlast).symm))
  | case6 argument settings value hread =>
    exact ⟨argument, List.mem_cons_self, tool.spelled _ _ (hread ▸ .inl h)⟩
  | case7 argument settings value otherwise hread next rest other hvalue ih =>
    rcases List.mem_append.mp h with hhere | hthere
    · exact ⟨argument, List.mem_cons_self, tool.spelled _ _ (hread ▸ .inl hhere)⟩
    rcases List.mem_cons.mp hthere with rfl | hthere
    · exact ⟨argument, List.mem_cons_self, tool.spelled _ _ (hread ▸ .inr (.inl ⟨next, hvalue⟩))⟩
    · obtain ⟨later, hlater, hspelled⟩ := ih hthere
      exact ⟨later, List.mem_cons_of_mem _ (List.mem_cons_of_mem _ hlater), hspelled⟩
  | case8 argument settings value next rest hvalue other hread ih =>
    rcases List.mem_append.mp h with hhere | hthere
    · exact ⟨argument, List.mem_cons_self, tool.spelled _ _ (hread ▸ .inl hhere)⟩
    rcases List.mem_cons.mp hthere with rfl | hthere
    · exact ⟨argument, List.mem_cons_self, tool.spelled _ _ (hread ▸ .inr (.inr rfl))⟩
    · obtain ⟨later, hlater, hspelled⟩ := ih hthere
      exact ⟨later, List.mem_cons_of_mem _ hlater, hspelled⟩
  | case9 argument settings value next rest hvalue hread =>
    exact ⟨argument, List.mem_cons_self, tool.spelled _ _ (hread ▸ .inl h)⟩

/-! ## Options that are owned -/

section Owned

variable [DecidableEq O] (listed : List Text)

/-- Some listed name is a name of the option. -/
def owns (option : O) : Bool := listed.any fun name => tool.optionOf name == some option

/-- What a command line sets the owned options to. -/
def ownedSettings (arguments : List Text) : List (Setting O) :=
  (scan tool.read arguments).1.filter fun setting => tool.owns listed setting.option

/-- With `extra` after them, the arguments of `own` set the owned options as they do alone; a command line that the tool
refuses sets nothing. -/
def KeepsOwned (own extra : List Text) : Prop :=
  (scan tool.read (own ++ extra)).2 ≠ .refused →
    tool.ownedSettings listed (own ++ extra) = tool.ownedSettings listed own

/-- A listed name is respelled. -/
def RespellsListed (setting : Setting O) : Prop :=
  setting.name ∈ listed ∧ tool.Respelled setting.argument setting.name

/-- Another name of a listed option. -/
def UnlistedName (setting : Setting O) : Prop :=
  setting.name ∉ listed ∧ ∃ name ∈ listed, tool.optionOf name = tool.optionOf setting.name

variable {tool listed}

theorem owns_iff {setting : Setting O} {argument : Text} (h : tool.Spelled argument setting)
    (hargument : argument ∉ listed) :
    tool.owns listed setting.option = true ↔ tool.RespellsListed listed setting ∨ tool.UnlistedName listed setting := by
  obtain ⟨rfl, hoption, hspelled⟩ := h
  unfold owns
  rw [List.any_eq_true]
  constructor
  · rintro ⟨name, hname, howned⟩
    have hsame : tool.optionOf name = tool.optionOf setting.name := by
      rw [hoption]
      exact beq_iff_eq.mp howned
    by_cases hlisted : setting.name ∈ listed
    · rcases hspelled with hplain | hrespelled
      · exact absurd (hplain ▸ hlisted) hargument
      · exact .inl ⟨hlisted, hrespelled⟩
    · exact .inr ⟨hlisted, name, hname, hsame⟩
  · rintro (⟨hlisted, -⟩ | ⟨-, name, hname, hsame⟩)
    · exact ⟨setting.name, hlisted, beq_iff_eq.mpr hoption⟩
    · exact ⟨name, hname, beq_iff_eq.mpr (hsame.trans hoption)⟩

/-- Arguments none of which is a listed name keep the owned options exactly if none that the tool takes for an option
respells a listed name or uses an unlisted name of its option. -/
theorem keepsOwned_iff {own extra : List Text} {settings : List (Setting O)}
    (hown : ReadsWhole tool.read own settings) (hextra : ∀ argument ∈ extra, argument ∉ listed) :
    tool.KeepsOwned listed own extra ↔ ((scan tool.read extra).2 ≠ .refused → ∀ setting ∈ (scan tool.read extra).1,
        ¬ tool.RespellsListed listed setting ∧ ¬ tool.UnlistedName listed setting) := by
  have halone : (scan tool.read own).1 = settings := by
    have h := hown.scan_append []
    rw [List.append_nil] at h
    rw [h]
    exact List.append_nil _
  have hkept : tool.ownedSettings listed (own ++ extra) = tool.ownedSettings listed own ↔
      ∀ setting ∈ (scan tool.read extra).1, ¬ tool.owns listed setting.option = true := by
    unfold ownedSettings
    rw [hown.scan_append, halone, List.filter_append, List.append_right_eq_self, List.filter_eq_nil_iff]
  unfold KeepsOwned
  rw [hkept, hown.scan_append]
  refine imp_congr_right fun _ => forall₂_congr fun setting hsetting => ?_
  obtain ⟨argument, hargument, hspelled⟩ := tool.mem_scan hsetting
  rw [owns_iff hspelled (hextra _ hargument), not_or]

end Owned

end Tool

/-! ## Flags of Go -/

/-- An argument up to its first `=`, and what follows it. -/
def cutValue : Text → Text × Option Text
  | [] => ([], none)
  | c :: cs => if c = '=' then ([], some cs) else (c :: (cutValue cs).1, (cutValue cs).2)

theorem cutValue_none {text : Text} (h : (cutValue text).2 = none) : (cutValue text).1 = text := by
  induction text with
  | nil => rfl
  | cons c cs ih =>
    unfold cutValue at h ⊢
    split at h
    · cases h
    · rename_i hne
      rw [if_neg hne, ih h]

theorem cutValue_some {text value : Text} (h : (cutValue text).2 = some value) :
    text = (cutValue text).1 ++ '=' :: value := by
  induction text with
  | nil => cases h
  | cons c cs ih =>
    unfold cutValue at h ⊢
    split at h
    · rename_i heq
      obtain rfl := Option.some.inj h
      rw [if_pos heq, heq]
      rfl
    · rename_i hne
      rw [if_neg hne]
      exact congrArg (c :: ·) (ih h)

/-- What `flag` knows of a name. -/
structure GoFlag (O : Type*) where
  option : O
  isBool : Bool
  accepts : Text → Bool

section Go

variable {O : Type*} (flags : Text → Option (GoFlag O))

def GoFlag.set (flag : GoFlag O) (argument name value : Text) : Option (Setting O) :=
  if flag.accepts value then some ⟨argument, '-' :: name, flag.option, some value⟩ else none

def doneOrRefuse : Option (Setting O) → Reading O
  | some setting => .done [setting]
  | none => .refuse

/-- An argument whose text after the dashes is `body`. -/
def goFlag (argument body : Text) : Reading O :=
  match body.head? with
  | none | some '-' | some '=' => .refuse
  | some _ =>
    match flags (cutValue body).1 with
    | none => .refuse
    | some flag =>
      match (cutValue body).2, flag.isBool with
      | some value, _ => doneOrRefuse (flag.set argument (cutValue body).1 value)
      | none, true => doneOrRefuse (flag.set argument (cutValue body).1 ['t', 'r', 'u', 'e'])
      | none, false => .awaits [] (flag.set argument (cutValue body).1) none

/-- `FlagSet.parseOne`: one dash or two. -/
def goRead : Text → Reading O
  | ['-', '-'] => .stop true
  | '-' :: '-' :: body => goFlag flags ('-' :: '-' :: body) body
  | '-' :: c :: cs => goFlag flags ('-' :: c :: cs) (c :: cs)
  | _ => .stop true

/-- The other spellings of `-name`. -/
inductive GoRespelled : Text → Text → Prop
  | secondDash (name : Text) : GoRespelled ('-' :: '-' :: name) ('-' :: name)
  | joined (name value : Text) : GoRespelled ('-' :: name ++ '=' :: value) ('-' :: name)
  | secondDashJoined (name value : Text) : GoRespelled ('-' :: '-' :: name ++ '=' :: value) ('-' :: name)

variable {flags}

theorem doneOrRefuse_makes {result : Option (Setting O)} {setting : Setting O} :
    (doneOrRefuse result).Makes setting ↔ result = some setting := by
  cases result with
  | none => exact iff_of_false id fun h => by cases h
  | some other => exact List.mem_singleton.trans ⟨fun h => congrArg some h.symm, fun h => (Option.some.inj h).symm⟩

theorem goFlag_makes {argument body : Text} {setting : Setting O} (h : (goFlag flags argument body).Makes setting) :
    setting.argument = argument ∧ setting.name = '-' :: (cutValue body).1 ∧
      (flags (cutValue body).1).map GoFlag.option = some setting.option := by
  have hset (flag : GoFlag O) (hflag : flags (cutValue body).1 = some flag) {value : Text}
      (hmade : flag.set argument (cutValue body).1 value = some setting) :
      setting.argument = argument ∧ setting.name = '-' :: (cutValue body).1 ∧
        (flags (cutValue body).1).map GoFlag.option = some setting.option := by
    unfold GoFlag.set at hmade
    split at hmade
    · obtain rfl := Option.some.inj hmade
      exact ⟨rfl, rfl, by rw [hflag]; rfl⟩
    · cases hmade
  unfold goFlag at h
  split at h
  · cases h
  · cases h
  · cases h
  · split at h
    · cases h
    · rename_i flag hflag
      split at h
      · exact hset flag hflag (doneOrRefuse_makes.mp h)
      · exact hset flag hflag (doneOrRefuse_makes.mp h)
      · rcases h with h | ⟨next, hnext⟩ | h
        · cases h
        · exact hset flag hflag hnext
        · cases h

/-- The option of a flag with one dash. -/
def goOption (flags : Text → Option (GoFlag O)) : Text → Option O
  | '-' :: name => (flags name).map GoFlag.option
  | _ => none

theorem goRead_spelled (argument : Text) (setting : Setting O) (h : (goRead flags argument).Makes setting) :
    setting.argument = argument ∧ goOption flags setting.name = some setting.option ∧
      (argument = setting.name ∨ GoRespelled argument setting.name) := by
  unfold goRead at h
  split at h
  · cases h
  · rename_i body _
    obtain ⟨hargument, hname, hoption⟩ := goFlag_makes h
    refine ⟨hargument, by rw [hname]; exact hoption, .inr ?_⟩
    rw [hname]
    cases hvalue : (cutValue body).2 with
    | none =>
      rw [cutValue_none hvalue]
      exact .secondDash body
    | some value =>
      conv => arg 1; rw [cutValue_some hvalue]
      exact .secondDashJoined _ _
  · rename_i c cs _ _
    obtain ⟨hargument, hname, hoption⟩ := goFlag_makes h
    refine ⟨hargument, by rw [hname]; exact hoption, ?_⟩
    rw [hname]
    cases hvalue : (cutValue (c :: cs)).2 with
    | none =>
      rw [cutValue_none hvalue]
      exact .inl rfl
    | some value =>
      right
      conv => arg 1; rw [cutValue_some hvalue]
      exact .joined _ _
  · cases h

/-- A tool that reads its arguments with `flag`. -/
def goTool (flags : Text → Option (GoFlag O)) : Tool O where
  read := goRead flags
  optionOf := goOption flags
  Respelled := GoRespelled
  spelled := goRead_spelled

end Go

/-! ## Options of `argparse` -/

/-- How many arguments an option takes: none, one, or one if it is there. -/
inductive Takes where
  | nothing
  | one
  | optional
  deriving DecidableEq

structure ArgparseOption (O : Type*) where
  option : O
  takes : Takes

/-- A parser without positional arguments. -/
structure Argparse (O : Type*) where
  options : Dict Text (ArgparseOption O)
  /-- Read as a number, which is no option. -/
  isNegativeNumber : Text → Bool

/-- What `_parse_optional` makes of an argument. -/
inductive Parsed (O : Type*) where
  | operand
  | refused
  /-- The name, and the value with whether it stands behind a `=`. -/
  | found (name : Text) (option : ArgparseOption O) (value : Option (Bool × Text))

section ArgparseReading

variable {O : Type*} (parser : Argparse O)

/-- The names an argument abbreviates, or is joined to. -/
def candidates (argument : Text) : List (Text × ArgparseOption O × Option (Bool × Text)) :=
  parser.options.entries.filterMap fun entry =>
    if ¬ ['-', '-'] <+: argument ∧ entry.1 = argument.take 2 then
      some (entry.1, entry.2, some (false, argument.drop 2))
    else if (cutValue argument).1 <+: entry.1 then
      some (entry.1, entry.2, (cutValue argument).2.map fun value => (true, value))
    else none

def parseOptional (argument : Text) : Parsed O :=
  if argument.head? ≠ some '-' then .operand
  else match parser.options.get? argument with
    | some option => .found argument option none
    | none =>
      if argument = ['-'] then .operand
      else match (cutValue argument).2, parser.options.get? (cutValue argument).1 with
        | some value, some option => .found (cutValue argument).1 option (some (true, value))
        | _, _ => match candidates parser argument with
          | [(name, option, value)] => .found name option value
          | _ :: _ :: _ => .refused
          | [] => if parser.isNegativeNumber argument || argument.contains ' ' then .operand else .refused

def Parsed.isOperand : Parsed O → Bool
  | .operand => true
  | _ => false

/-- An option without a value in its argument. -/
def awaitsValue (settings : List (Setting O)) (argument name : Text) (option : ArgparseOption O) : Reading O :=
  .awaits settings
    (fun next => if next ≠ ['-', '-'] ∧ (parseOptional parser next).isOperand then
      some ⟨argument, name, option.option, some next⟩ else none)
    (if option.takes = .optional then some ⟨argument, name, option.option, none⟩ else none)

/-- Options of one letter, run together behind one that takes nothing. -/
def runTogether (argument : Text) (settings : List (Setting O)) : Text → Reading O
  | [] => .done settings
  | c :: cs =>
    if c = '-' then .refuse
    else match parser.options.get? ['-', c] with
      | none => .refuse
      | some option => match option.takes, cs with
        | .nothing, '=' :: _ => .refuse
        | .nothing, _ => runTogether argument (settings ++ [⟨argument, ['-', c], option.option, none⟩]) cs
        | _, [] => awaitsValue parser settings argument ['-', c] option
        | _, '=' :: value => .done (settings ++ [⟨argument, ['-', c], option.option, some value⟩])
        | _, value => .done (settings ++ [⟨argument, ['-', c], option.option, some value⟩])

/-- `ArgumentParser.consume_optional`; an argument that is no option and no value is not recognised. -/
def argparseRead (argument : Text) : Reading O :=
  if argument = ['-', '-'] then .stop false
  else match parseOptional parser argument with
    | .operand | .refused => .refuse
    | .found name option value => match option.takes, value with
      | .nothing, none => .done [⟨argument, name, option.option, none⟩]
      | .nothing, some (true, _) => .refuse
      | .nothing, some (false, value) => runTogether parser argument [⟨argument, name, option.option, none⟩] value
      | _, none => awaitsValue parser [] argument name option
      | _, some (_, value) => .done [⟨argument, name, option.option, some value⟩]

/-- The other spellings of a name. -/
inductive ArgparseRespelled : Text → Text → Prop
  | joined (name value : Text) : ArgparseRespelled (name ++ '=' :: value) name
  | abbreviated {start name : Text} (h : start <+: name) (hne : start ≠ name) : ArgparseRespelled start name
  | abbreviatedJoined {start name : Text} (h : start <+: name) (value : Text) :
      ArgparseRespelled (start ++ '=' :: value) name
  | shortJoined (c : Char) {value : Text} (hne : value ≠ []) : ArgparseRespelled ('-' :: c :: value) ['-', c]
  | runTogether {c : Char} {cs : Text} (h : c ∈ cs) (hne : cs ≠ [c]) : ArgparseRespelled ('-' :: cs) ['-', c]

def argparseOption (name : Text) : Option O := (parser.options.get? name).map ArgparseOption.option

variable {parser} {argument : Text}

theorem mem_candidates {name : Text} {option : ArgparseOption O} {value : Option (Bool × Text)}
    (h : (name, option, value) ∈ candidates parser argument) : parser.options.get? name = some option ∧
      ((name = argument.take 2 ∧ value = some (false, argument.drop 2)) ∨
        ((cutValue argument).1 <+: name ∧ value = (cutValue argument).2.map fun value => (true, value))) := by
  obtain ⟨entry, hentry, hmade⟩ := List.mem_filterMap.mp h
  have hget := Dict.mem_entries_iff.mp (show (entry.1, entry.2) ∈ parser.options.entries from hentry)
  split at hmade
  · rename_i hshort
    cases hmade
    exact ⟨hget, .inl ⟨hshort.2, rfl⟩⟩
  · split at hmade
    · rename_i hlong
      cases hmade
      exact ⟨hget, .inr ⟨hlong, rfl⟩⟩
    · cases hmade

/-- What an argument is found to set: a known name, spelled in one of the ways. -/
structure FoundBy (parser : Argparse O) (argument name : Text) (option : ArgparseOption O)
    (value : Option (Bool × Text)) : Prop where
  known : parser.options.get? name = some option
  spelled : argument = name ∨ ArgparseRespelled argument name
  joined : ∀ rest, value = some (false, rest) → rest ≠ [] ∧ ∃ c, name = ['-', c] ∧ argument = '-' :: c :: rest

theorem candidates_foundBy {name : Text} {option : ArgparseOption O} {value : Option (Bool × Text)}
    (hhead : argument.head? = some '-') (hdash : argument ≠ ['-']) (hunknown : parser.options.get? argument = none)
    (h : (name, option, value) ∈ candidates parser argument) : FoundBy parser argument name option value := by
  obtain ⟨hknown, hshort | hlong⟩ := mem_candidates h
  · obtain ⟨c, rest, rfl⟩ : ∃ c rest, argument = '-' :: c :: rest := by
      obtain ⟨tail, rfl⟩ := List.head?_eq_some_iff.mp hhead
      cases tail with
      | nil => exact absurd rfl hdash
      | cons c rest => exact ⟨c, rest, rfl⟩
    obtain ⟨rfl, rfl⟩ := hshort
    have hrest : rest ≠ [] := by
      rintro rfl
      exact Option.some_ne_none _ (hknown.symm.trans hunknown)
    refine ⟨hknown, .inr (.shortJoined c hrest), fun other hother => ?_⟩
    cases hother
    exact ⟨hrest, c, rfl, rfl⟩
  · obtain ⟨hstarts, rfl⟩ := hlong
    refine ⟨hknown, .inr ?_, fun other hother => ?_⟩
    · cases hvalue : (cutValue argument).2 with
      | none =>
        rw [cutValue_none hvalue] at hstarts
        refine .abbreviated hstarts fun heq => ?_
        exact Option.some_ne_none _ (hknown.symm.trans (heq ▸ hunknown))
      | some value =>
        conv => arg 1; rw [cutValue_some hvalue]
        exact .abbreviatedJoined hstarts value
    · obtain ⟨value, -, hpair⟩ := Option.map_eq_some_iff.mp hother
      cases hpair

theorem parseOptional_foundBy {name : Text} {option : ArgparseOption O} {value : Option (Bool × Text)}
    (h : parseOptional parser argument = .found name option value) : FoundBy parser argument name option value := by
  unfold parseOptional at h
  split at h
  · cases h
  rename_i hhead
  split at h
  · rename_i known hknown
    cases h
    exact ⟨hknown, .inl rfl, fun rest hrest => by cases hrest⟩
  rename_i hunknown
  split at h
  · cases h
  rename_i hdash
  split at h
  · rename_i value known hvalue hknown
    cases h
    refine ⟨hknown, .inr ?_, fun rest hrest => by cases hrest⟩
    conv => arg 1; rw [cutValue_some hvalue]
    exact .joined _ _
  · split at h
    · rename_i hone
      cases h
      exact candidates_foundBy (not_not.mp hhead) hdash hunknown (hone ▸ List.mem_singleton.mpr rfl)
    · cases h
    · split at h <;> cases h

theorem awaitsValue_makes {settings : List (Setting O)} {name : Text} {option : ArgparseOption O} {setting : Setting O}
    (h : (awaitsValue parser settings argument name option).Makes setting) :
    setting ∈ settings ∨ (setting.argument = argument ∧ setting.name = name ∧ setting.option = option.option) := by
  rcases h with h | ⟨next, hnext⟩ | h
  · exact .inl h
  · simp only at hnext
    split at hnext
    · obtain rfl := Option.some.inj hnext
      exact .inr ⟨rfl, rfl, rfl⟩
    · cases hnext
  · split at h
    · obtain rfl := Option.some.inj h
      exact .inr ⟨rfl, rfl, rfl⟩
    · cases h

/-- An option of one letter that is run together with others. -/
def FromLetters (parser : Argparse O) (argument letters : Text) (setting : Setting O) : Prop :=
  setting.argument = argument ∧ argparseOption parser setting.name = some setting.option ∧
    ∃ c ∈ letters, setting.name = ['-', c]

theorem runTogether_makes {settings : List (Setting O)} {letters : Text} {setting : Setting O}
    (h : (runTogether parser argument settings letters).Makes setting) :
    setting ∈ settings ∨ FromLetters parser argument letters setting := by
  induction letters generalizing settings with
  | nil => exact .inl h
  | cons c cs ih =>
    unfold runTogether at h
    split at h
    · cases h
    split at h
    · cases h
    rename_i option hoption
    have hletter {other : Setting O} (hargument : other.argument = argument) (hname : other.name = ['-', c])
        (hsame : other.option = option.option) : FromLetters parser argument (c :: cs) other := by
      refine ⟨hargument, ?_, c, List.mem_cons_self, hname⟩
      rw [hname, hsame, argparseOption, hoption, Option.map_some]
    have hdone {value : Option Text}
        (hmem : setting ∈ settings ++ [⟨argument, ['-', c], option.option, value⟩]) :
        setting ∈ settings ∨ FromLetters parser argument (c :: cs) setting := by
      rcases List.mem_append.mp hmem with hmem | hmem
      · exact .inl hmem
      · rw [List.mem_singleton.mp hmem]
        exact .inr (hletter rfl rfl rfl)
    split at h
    · cases h
    · rcases ih h with hmem | ⟨hargument, hknown, letter, hin, hname⟩
      · exact hdone hmem
      · exact .inr ⟨hargument, hknown, letter, List.mem_cons_of_mem _ hin, hname⟩
    · rcases awaitsValue_makes h with hmem | ⟨hargument, hname, hsame⟩
      · exact .inl hmem
      · exact .inr (hletter hargument hname hsame)
    · exact hdone h
    · exact hdone h

theorem argparseRead_spelled (argument : Text) (setting : Setting O)
    (h : (argparseRead parser argument).Makes setting) :
    setting.argument = argument ∧ argparseOption parser setting.name = some setting.option ∧
      (argument = setting.name ∨ ArgparseRespelled argument setting.name) := by
  unfold argparseRead at h
  split at h
  · cases h
  split at h
  · cases h
  · cases h
  rename_i name option value hparsed
  have hfound := parseOptional_foundBy hparsed
  have hnamed {other : Setting O} (hargument : other.argument = argument) (hname : other.name = name)
      (hsame : other.option = option.option) :
      other.argument = argument ∧ argparseOption parser other.name = some other.option ∧
        (argument = other.name ∨ ArgparseRespelled argument other.name) := by
    rw [hname, hsame, argparseOption, hfound.known]
    exact ⟨hargument, rfl, hfound.spelled⟩
  split at h
  · rw [List.mem_singleton.mp h]
    exact hnamed rfl rfl rfl
  · cases h
  · rcases runTogether_makes h with hfirst | ⟨hargument, hknown, c, hin, hname⟩
    · rw [List.mem_singleton.mp hfirst]
      exact hnamed rfl rfl rfl
    · obtain ⟨hne, first, -, rfl⟩ := hfound.joined _ rfl
      refine ⟨hargument, hknown, .inr ?_⟩
      rw [hname]
      refine .runTogether (List.mem_cons_of_mem _ hin) fun heq => hne (List.cons.inj heq).2
  · rcases awaitsValue_makes h with hmem | ⟨hargument, hname, hsame⟩
    · cases hmem
    · exact hnamed hargument hname hsame
  · rw [List.mem_singleton.mp h]
    exact hnamed rfl rfl rfl

/-- A tool that reads its arguments with `argparse`. -/
def argparseTool (parser : Argparse O) : Tool O where
  read := argparseRead parser
  optionOf := argparseOption parser
  Respelled := ArgparseRespelled
  spelled := argparseRead_spelled

end ArgparseReading

end NightScout.Lib
