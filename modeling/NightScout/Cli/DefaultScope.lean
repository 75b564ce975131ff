import NightScout.Policy.Seeds
import NightScout.Lib.Run

/-!
# Authorizing targets on the command line

`_prepare_default_scope_for_run` of `recon/cli.py` and `add_confirmed_domain_scope` of
`recon/userenv.py`, for the managed pipeline and no `--scope` (with any other the command returns at
once). The scope file is its list of rules, before validation: the rest of the document is written
back as it was read.

Each target is looked up as a DOMAIN in the effective rules. One that is unclassified is authorized,
which appends an exact rule of priority 100, and a wildcard of priority 100 if the subdomains are
authorized too; then the file is loaded again. A run is the targets one after the other
(`ScopeRun.step`), and an exception ends it.
-/

namespace NightScout

open Lib

structure ScopeFile where
  rules : List RawScopeRule
  deriving DecidableEq

/-- What the user answers at the prompts for one target. -/
structure Answers where
  tty : Bool := false
  exact : Bool := false
  subdomains : Bool := false
  deriving DecidableEq

/-- The flags of the command. -/
structure AuthorizeFlags where
  exact : Bool := false
  subdomains : Bool := false
  deriving DecidableEq

structure Target where
  name : String
  answers : Answers := {}
  deriving DecidableEq

namespace Target

/-- Whether the target is authorized if it is unclassified. -/
def authorized (flags : AuthorizeFlags) (target : Target) : Bool :=
  flags.exact || flags.subdomains || (target.answers.tty && target.answers.exact)

/-- Whether its subdomains are authorized with it. -/
def includeSubdomains (flags : AuthorizeFlags) (target : Target) : Bool :=
  if flags.exact || flags.subdomains then flags.subdomains else target.answers.subdomains

end Target

section Command

variable (lib : ScopeLib) (digest : String → String)

def normalizeDomain (value : String) : Except PyError String :=
  let candidate := strLower lib.toTables (rstripDots (strip value))
  if candidate = "" ∨ '/' ∈ candidate.toList ∨ ':' ∈ candidate.toList ∨ ' ' ∈ candidate.toList then
    .error (.valueError "target must be a bare DNS domain")
  else
    match idnaEncode lib.toTables candidate with
    | none => .error (.valueError "invalid DNS domain")
    | some asciiValue =>
      if (labels asciiValue).length < 2 ∨
          ∃ label ∈ labels asciiValue, label = [] ∨ 63 < label.length then
        .error (.valueError "target must be a valid DNS domain")
      else .ok asciiValue

def scopeRuleId (domain suffix : String) : String :=
  "cli-" ++ suffix ++ "-" ++ digest (domain ++ "|" ++ suffix)

/-- The exact rule of a confirmed domain. -/
def exactRule (normalized : String) : RawScopeRule where
  ruleId := scopeRuleId digest normalized "exact"
  kind := .domain
  pattern := normalized
  state := .inScope
  priority := 100
  tier := some "user-confirmed"
  reason := some "User explicitly confirmed this exact domain via Night Scout CLI"

/-- The wildcard rule of a confirmed domain. -/
def wildcardRule (normalized : String) : RawScopeRule where
  ruleId := scopeRuleId digest normalized "wildcard"
  kind := .domain
  pattern := "*." ++ normalized
  state := .inScope
  priority := 100
  tier := some "user-confirmed"
  reason := some ("User explicitly confirmed all subdomains of this domain " ++
    "via Night Scout CLI")

/-- Whether the file has a DOMAIN rule written with the pattern. -/
def ScopeFile.hasDomain (file : ScopeFile) (pattern : String) : Bool :=
  file.rules.any fun raw => raw.kind = .domain && raw.pattern = pattern

/-- The rules `add_confirmed_domain_scope` appends for a normalized domain. -/
def confirmedRules (file : ScopeFile) (normalized : String) (includeSubdomains : Bool) :
    List RawScopeRule :=
  (if file.hasDomain normalized then [] else [exactRule digest normalized]) ++
    (if includeSubdomains ∧ !file.hasDomain ("*." ++ normalized) then
      [wildcardRule digest normalized] else [])

/-- `add_confirmed_domain_scope`: the file as it writes it. -/
def addConfirmedDomainScope (file : ScopeFile) (domain : String) (includeSubdomains : Bool) :
    Except PyError ScopeFile := do
  let normalized ← normalizeDomain lib domain
  return ⟨file.rules ++ confirmedRules digest file normalized includeSubdomains⟩

/-- The rules of a scope file, validated. -/
def ScopeFile.load (file : ScopeFile) : Except PyError (List ScopeRule) :=
  file.rules.mapM (ScopeRule.modelValidate lib)

/-- `ScopeEngine(list(effective_scope_rules(cfg.scope.rules)))`. -/
def ScopeFile.preflight (file : ScopeFile) : Except PyError ScopeEngine := do
  let rules ← file.load lib
  let effective ← effectiveScopeRules lib digest rules
  ScopeEngine.ofRules effective

/-- `typer.Exit(code=2)`. -/
def exit2 : PyError := .runtimeError "Exit: 2"

/-- The command between two targets: the file on disk, and the engine or what ended the command. -/
structure ScopeRun where
  file : ScopeFile
  engine : Except PyError ScopeEngine

/-- What the engine says of a target: the validated subject and its state. -/
def lookUp (engine : ScopeEngine) (name : String) : Except PyError (ScopeSubject × ScopeState) := do
  let subject ← ScopeSubject.modelValidate lib .domain name
  let decision ← engine.evaluate lib subject
  return (subject, decision.state)

/-- Writing the authorization and loading the file again. -/
def ScopeRun.authorize (w : ScopeRun) (subject : ScopeSubject) (includeSubdomains : Bool) :
    ScopeRun :=
  match addConfirmedDomainScope lib digest w.file subject.value includeSubdomains with
  | .error e => { w with engine := .error e }
  | .ok file => ⟨file, file.preflight lib digest⟩

/-- What the command does about a target. -/
inductive Verdict where
  /-- It is IN_SCOPE or PASSIVE_ONLY already. -/
  | covered
  /-- The command ends. -/
  | refused
  | authorize (subject : ScopeSubject) (includeSubdomains : Bool)

def verdict (flags : AuthorizeFlags) (engine : ScopeEngine) (target : Target) : Verdict :=
  match lookUp lib engine target.name with
  | .error _ => .refused
  | .ok (subject, state) =>
    if state = .inScope ∨ state = .passiveOnly then .covered
    else if state ≠ .unknown ∨ !target.authorized flags then .refused
    else .authorize subject (target.includeSubdomains flags)

/-- One target. -/
def ScopeRun.step (flags : AuthorizeFlags) (w : ScopeRun) (target : Target) : ScopeRun :=
  match w.engine with
  | .error _ => w
  | .ok engine =>
    match verdict lib flags engine target with
    | .covered => w
    | .refused => { w with engine := .error exit2 }
    | .authorize subject includeSubdomains => w.authorize lib digest subject includeSubdomains

/-- `_prepare_default_scope_for_run`: how it ends, and the file it leaves. -/
def prepareDefaultScopeForRun (flags : AuthorizeFlags) (targets : List Target) (file : ScopeFile) :
    Except PyError Unit × ScopeFile :=
  if targets.isEmpty then (.ok (), file)
  else
    match file.preflight lib digest with
    | .error _ => (.error exit2, file)
    | .ok engine =>
      let w := runFrom (ScopeRun.step lib digest flags) ⟨file, .ok engine⟩ targets
      (w.engine.map fun _ => (), w.file)

/-- The state a file gives a subject. -/
def ScopeFile.classify (file : ScopeFile) (subject : ScopeSubject) :
    Except PyError ScopeDecision := do
  let rules ← file.load lib
  classifyEffective lib digest rules subject

end Command

end NightScout
