import NightScout.Lib.CommandLines
import NightScout.Workers.RoutedInputs

/-!
# The command lines of httpx, Katana and Arjun

Four adapters build the argv of a tool from their own options, the identity headers of the program and the `extra_args`
of their configuration, which come last: `HttpxBackend` and its sibling of the content worker, `KatanaBackend` and
`ArjunBackend`. The validator of `extra_args` strips the arguments, drops the blank ones and refuses those that are
spelled like an option the adapter owns.
-/

namespace NightScout

open Lib

/-! ## Extra arguments -/

/-- The adapters, by the worker they belong to. -/
inductive Adapter where
  | http | content | crawler | parameters
  deriving DecidableEq, Repr

namespace Adapter

/-- The `forbidden` set of the adapter's validator. -/
def forbidden : Adapter → List String
  | http => [
      "-u", "-target", "-l", "-list", "-rr", "-request", "-im", "-input-mode", "-fr", "-follow-redirects", "-fhr",
      "-follow-host-redirects", "-maxr", "-max-redirects", "-pa", "-probe-all-ips", "-p", "-ports", "-path",
      "-tls-probe", "-csp-probe", "-vhost", "-vhost-input", "-favicon", "-jarm", "-ss", "-screenshot", "-pipeline",
      "-http2", "-tls-grab", "-x", "-body", "-unsafe", "-H", "-header", "-sni", "-sni-name", "-retries", "-timeout",
      "-delay", "-rl", "-rate-limit", "-rlm", "-rate-limit-minute", "-t", "-threads", "-nf", "-no-fallback", "-nfs",
      "-no-fallback-scheme", "-o", "-output", "-oa", "-output-all", "-csv", "-sr", "-store-response", "-srd",
      "-store-response-dir", "-irr", "-include-response", "-irrb", "-include-response-base64", "-irh",
      "-include-response-header", "-debug", "-debug-req", "-debug-resp", "-j", "-json", "-sc", "-status-code", "-cl",
      "-content-length", "-ct", "-content-type", "-location", "-hash", "-rt", "-response-time", "-title", "-server",
      "-web-server", "-td", "-tech-detect", "-method", "-probe", "-rstr", "-response-size-to-read"]
  | content => [
      "-u", "-target", "-l", "-list", "-rr", "-request", "-im", "-input-mode", "-x", "-body", "-fr",
      "-follow-redirects", "-fhr", "-follow-host-redirects", "-maxr", "-max-redirects", "-rhsts", "-respect-hsts",
      "-pa", "-probe-all-ips", "-p", "-ports", "-path", "-tls-probe", "-csp-probe", "-tls-grab", "-pipeline",
      "-http2", "-vhost", "-vhost-input", "-favicon", "-jarm", "-ss", "-screenshot", "-sf", "-secrets-file", "-H",
      "-header", "-auth", "-ac", "-auth-config", "-auto-referer", "-proxy", "-http-proxy", "-sni", "-sni-name",
      "-unsafe", "-tlsi", "-tls-impersonate", "-t", "-threads", "-rl", "-rate-limit", "-rlm", "-rate-limit-minute",
      "-delay", "-retries", "-timeout", "-nf", "-no-fallback", "-nfs", "-no-fallback-scheme", "-j", "-json", "-irr",
      "-include-response", "-irrb", "-include-response-base64", "-irh", "-include-response-header", "-sr",
      "-store-response", "-srd", "-store-response-dir", "-o", "-output", "-oa", "-output-all", "-csv", "-ob",
      "-omit-body", "-rstr", "-response-size-to-read", "-rsts", "-response-size-to-save", "-rdb", "-result-db",
      "-rdbc", "-result-db-config", "-rdbt", "-result-db-type", "-rdbcs", "-result-db-conn", "-rdbn",
      "-result-db-name", "-rdbtb", "-result-db-table", "-rdbbs", "-result-db-batch-size", "-rdbor",
      "-result-db-omit-raw", "-pd", "-dashboard", "-pdu", "-dashboard-upload", "-tid", "-team-id", "-aid",
      "-asset-id", "-aname", "-asset-name", "-resume", "-no-decode", "-s", "-stream", "-sd", "-skip-dedupe", "-debug",
      "-debug-req", "-debug-resp", "-v", "-verbose", "-up", "-update"]
  | crawler => [
      "-u", "-list", "-d", "-depth", "-ct", "-crawl-duration", "-mdp", "-max-domain-pages", "-kf", "-known-files",
      "-jc", "-js-crawl", "-jsl", "-jsluice", "-mrs", "-max-response-size", "-timeout", "-retry", "-s", "-strategy",
      "-iqp", "-ignore-query-params", "-fsu", "-filter-similar", "-fst", "-filter-similar-threshold", "-dr",
      "-disable-redirects", "-aff", "-automatic-form-fill", "-fx", "-form-extraction", "-hl", "-headless", "-sc",
      "-system-chrome", "-sb", "-show-browser", "-ho", "-headless-options", "-nos", "-no-sandbox", "-cdd",
      "-chrome-data-dir", "-scp", "-system-chrome-path", "-noi", "-no-incognito", "-cwu", "-chrome-ws-url", "-xhr",
      "-xhr-extraction", "-csp", "-captcha-solver-provider", "-csk", "-captcha-solver-key", "-cs", "-crawl-scope",
      "-cos", "-crawl-out-scope", "-fs", "-field-scope", "-ns", "-no-scope", "-do", "-display-out-scope", "-r",
      "-resolvers", "-H", "-headers", "-proxy", "-tlsi", "-tls-impersonate", "-config", "-fc", "-form-config", "-flc",
      "-field-config", "-c", "-concurrency", "-p", "-parallelism", "-rd", "-delay", "-rl", "-rate-limit", "-rlm",
      "-rate-limit-minute", "-hrl", "-host-rate-limit", "-hrlm", "-host-rate-limit-minute", "-kb", "-knowledge-base",
      "-kb-secrets", "-kb-validate-secrets", "-kb-endpoints", "-o", "-output", "-output-template", "-sr",
      "-store-response", "-srd", "-store-response-dir", "-or", "-omit-raw", "-ob", "-omit-body", "-j", "-jsonl",
      "-eof", "-exclude-output-fields", "-v", "-verbose", "-debug", "-up", "-update"]
  | parameters => [
      "-u", "--url", "-i", "--import-file", "-m", "--method", "-w", "--wordlist", "--passive", "--casing", "-c",
      "--chunks", "--include", "--headers", "-t", "--threads", "-d", "--delay", "-T", "--timeout", "--stable",
      "--ratelimit", "--disable-redirects", "-oJ", "--json", "-oT", "--text", "-oB", "--burp", "--help", "-h",
      "--version", "--update"]

def message : Adapter → String
  | http => "httpx extra_args cannot override input, request count, rate control, probe fields, or streaming output"
  | content => "httpx content extra_args cannot override target/method, authentication, redirects, shared rate " ++
      "control, bounded response capture, or output"
  | crawler => "katana extra_args cannot override input, scope, crawl bounds, authentication/browser behavior, " ++
      "shared rate controls, or structured output"
  | parameters => "Arjun extra_args cannot override method/target, candidate source, auth/request data, pacing, " ++
      "redirects, or output"

/-- `restrict_extra_args`, `reject_overrides` and `reject_unsafe_overrides`. -/
def restrictExtraArgs (adapter : Adapter) (values : List String) : Except PyError (List String) :=
  let normalized := (values.filter fun value => strip value ≠ "").map strip
  if normalized.any fun value => adapter.forbidden.contains value then .error (.valueError adapter.message)
  else .ok normalized

end Adapter

/-- Arguments that the validator of the adapter has let through. -/
structure ExtraArgs (adapter : Adapter) where
  args : List String
  accepted : ∃ values, adapter.restrictExtraArgs values = .ok args

namespace ExtraArgs

variable {adapter : Adapter}

/-- `extra_args=values`. -/
def make (adapter : Adapter) (values : List String) : Except PyError (ExtraArgs adapter) :=
  match h : adapter.restrictExtraArgs values with
  | .error e => .error e
  | .ok args => .ok ⟨args, values, h⟩

def none : ExtraArgs adapter := ⟨[], [], rfl⟩

/-- None of them is spelled like a forbidden one. -/
theorem notMem_forbidden (extraArgs : ExtraArgs adapter) {arg : String} (h : arg ∈ extraArgs.args) :
    arg ∉ adapter.forbidden := by
  obtain ⟨values, hok⟩ := extraArgs.accepted
  unfold Adapter.restrictExtraArgs at hok
  simp only at hok
  split at hok
  · cases hok
  · rename_i hnone
    rw [Except.ok.inj hok, List.any_eq_true] at hnone
    exact fun hlisted => hnone ⟨arg, h, List.contains_iff_mem.mpr hlisted⟩

end ExtraArgs

/-! ## `recon/policy/request_identity.py` -/

/-- The headers of the program, after their validator. -/
structure RequestIdentityPolicy where
  httpHeaders : Dict String String := .empty

namespace RequestIdentityPolicy

variable (policy : RequestIdentityPolicy)

def configured : Bool := !policy.httpHeaders.entries.isEmpty

def headerLines : List String := policy.httpHeaders.entries.map fun header => header.1 ++ ": " ++ header.2

def repeatedCliArgs (flag : String) : List String := policy.headerLines.flatMap fun line => [flag, line]

def newlineCliValue : String := "\n".intercalate policy.headerLines

end RequestIdentityPolicy

/-! ## `recon/workers/http.py` -/

def httpxBinary : Stripped := httpxName

def katanaBinary : Stripped := katanaName

def arjunBinary : Stripped := ⟨"arjun", by decide, by decide⟩

def defaultUserAgent : Stripped := ⟨"NightScout/0.1 authorized-security-research", by decide, by decide⟩

/-- `HttpxConfig`, as far as `command_for` reads it. -/
structure HttpxConfig where
  binary : Stripped := httpxBinary
  timeoutSeconds : ℕ := 10
  maxResponseReadBytes : ℕ := 2 * 1024 * 1024
  userAgent : Stripped := defaultUserAgent
  detectTechnologies : Bool := true
  extraArgs : ExtraArgs .http := .none
  timeout_bounds : 1 ≤ timeoutSeconds ∧ timeoutSeconds ≤ 120
  read_bounds : 1024 ≤ maxResponseReadBytes ∧ maxResponseReadBytes ≤ 64 * 1024 * 1024

/-- The options of `command_for` before the extra arguments. -/
def HttpxConfig.ownArgs (config : HttpxConfig) (identity : RequestIdentityPolicy) (rateLimitRps : Option ℤ) :
    List String :=
  ["-j", "-silent", "-nc", "-duc",
    -- the input URL has the desired scheme already
    "-nfs",
    "-retries", "0", "-t", "1",
    "-timeout", toString config.timeoutSeconds,
    "-sc", "-cl", "-ct", "-location", "-rt", "-title", "-server", "-method", "-probe", "-hash", "sha256",
    "-rstr", toString config.maxResponseReadBytes,
    "-H", "User-Agent: " ++ config.userAgent.text] ++
  (if config.detectTechnologies then ["-td"] else []) ++
  (match rateLimitRps with
    | some rate => ["-rl", toString rate]
    | none => []) ++
  identity.repeatedCliArgs "-H"

/-! ## `recon/workers/content.py` -/

/-- `HttpxContentConfig`, as far as `command_for` reads it. -/
structure HttpxContentConfig where
  binary : Stripped := httpxBinary
  timeoutSeconds : ℕ := 10
  maxResponseBytes : ℕ := 8 * 1024 * 1024
  userAgent : Stripped := defaultUserAgent
  streamLimitBytes : ℕ := 64 * 1024 * 1024
  extraArgs : ExtraArgs .content := .none
  timeout_bounds : 1 ≤ timeoutSeconds ∧ timeoutSeconds ≤ 120
  response_bounds : 4096 ≤ maxResponseBytes ∧ maxResponseBytes ≤ 64 * 1024 * 1024
  /-- `json_line_buffer_is_large_enough`. -/
  buffer_large : maxResponseBytes * 6 + 65536 ≤ streamLimitBytes

def HttpxContentConfig.ownArgs (config : HttpxContentConfig) (identity : RequestIdentityPolicy)
    (rateLimitRps : Option ℤ) : List String :=
  ["-j", "-silent", "-nc", "-duc", "-nfs", "-x", "GET", "-retries", "0", "-t", "1",
    "-timeout", toString config.timeoutSeconds,
    "-irr",
    "-rstr", toString config.maxResponseBytes,
    "-rsts", toString config.maxResponseBytes,
    "-H", "User-Agent: " ++ config.userAgent.text] ++
  (match rateLimitRps with
    | some rate => ["-rl", toString rate]
    | none => []) ++
  identity.repeatedCliArgs "-H"

/-! ## `recon/workers/crawler.py` -/

inductive KnownFile where
  | robotstxt | sitemapxml
  deriving DecidableEq, Repr

def KnownFile.value : KnownFile → String
  | robotstxt => "robotstxt"
  | sitemapxml => "sitemapxml"

/-- Exactly one of `host_rps` and `request_delay_seconds`. -/
inductive KatanaPacing where
  | hostRps (rate : ℕ+)
  | requestDelaySeconds (delay : ℕ+)

/-- `KatanaConfig`, as far as `command_for` reads it. -/
structure KatanaConfig where
  binary : Stripped := katanaBinary
  depth : ℕ := 3
  crawlDurationSeconds : ℕ := 60
  maxDomainPages : ℕ := 250
  timeoutSeconds : ℕ := 10
  maxResponseSizeBytes : ℕ := 2 * 1024 * 1024
  jsCrawl : Bool := true
  formExtraction : Bool := true
  ignoreQueryParamValues : Bool := true
  filterSimilarUrls : Bool := true
  knownFiles : List KnownFile := [.robotstxt, .sitemapxml]
  userAgent : Stripped := defaultUserAgent
  extraArgs : ExtraArgs .crawler := .none
  depth_bounds : 1 ≤ depth ∧ depth ≤ 10
  duration_bounds : 1 ≤ crawlDurationSeconds ∧ crawlDurationSeconds ≤ 3600
  pages_bounds : 1 ≤ maxDomainPages ∧ maxDomainPages ≤ 100000
  timeout_bounds : 1 ≤ timeoutSeconds ∧ timeoutSeconds ≤ 120
  size_bounds : 4096 ≤ maxResponseSizeBytes ∧ maxResponseSizeBytes ≤ 64 * 1024 * 1024
  files_nodup : knownFiles.Nodup
  /-- `known_files_require_depth_three`. -/
  files_depth : knownFiles ≠ [] → 3 ≤ depth

/-- `_katana_known_files_value`, for files that are not empty. -/
def katanaKnownFilesValue : List KnownFile → Option String
  | [] => none
  | [file] => some file.value
  | _ :: _ :: _ => some "all"

def KatanaConfig.ownArgs (config : KatanaConfig) (identity : RequestIdentityPolicy) (pacing : KatanaPacing) :
    List String :=
  ["-j", "-silent", "-nc", "-duc",
    -- the exact host is the boundary
    "-fs", "fqdn", "-dr",
    "-d", toString config.depth,
    "-ct", toString config.crawlDurationSeconds ++ "s",
    "-mdp", toString config.maxDomainPages,
    "-mrs", toString config.maxResponseSizeBytes,
    "-timeout", toString config.timeoutSeconds,
    "-retry", "0", "-c", "1", "-p", "1", "-or", "-ob",
    "-H", "User-Agent: " ++ config.userAgent.text] ++
  (if config.jsCrawl then ["-jc"] else []) ++
  (if config.formExtraction then ["-fx"] else []) ++
  (if config.ignoreQueryParamValues then ["-iqp"] else []) ++
  (if config.filterSimilarUrls then ["-fsu"] else []) ++
  (match katanaKnownFilesValue config.knownFiles with
    | some value => ["-kf", value]
    | none => []) ++
  (match pacing with
    | .hostRps rate => ["-hrl", toString (rate : ℕ)]
    | .requestDelaySeconds delay => ["-rd", toString (delay : ℕ)]) ++
  identity.repeatedCliArgs "-H"

/-! ## `recon/workers/parameters.py` -/

/-- Exactly one of `requests_per_second` and `delay_seconds`. -/
inductive ArjunPacing where
  | requestsPerSecond (rate : ℕ+)
  | delaySeconds (delay : ℕ+) (reasonable : (delay : ℕ) ≤ 3600)

/-- `ParameterDiscoveryConfig`, as far as `command_for` reads it. -/
structure ArjunDiscovery where
  chunkSize : ℕ := 50
  requestTimeoutSeconds : ℕ := 15
  chunk_bounds : 1 ≤ chunkSize ∧ chunkSize ≤ 500
  timeout_bounds : 1 ≤ requestTimeoutSeconds ∧ requestTimeoutSeconds ≤ 120

structure ArjunConfig where
  binary : Stripped := arjunBinary
  extraArgs : ExtraArgs .parameters := .none

/-- The options of `command_for` before the extra arguments; the URL is normalised once more. -/
def arjunOwnArgs (tables : Tables) (identity : RequestIdentityPolicy) (targetUrl wordlistPath outputPath : String)
    (pacing : ArjunPacing) (discovery : ArjunDiscovery) : Except PyError (List String) := do
  let target ← parameterTargetUrlValue tables targetUrl
  return ["-u", target, "-m", "GET", "-w", wordlistPath, "-oJ", outputPath, "-t", "1",
      "-c", toString discovery.chunkSize, "-T", toString discovery.requestTimeoutSeconds, "--disable-redirects"] ++
    (match pacing with
      | .requestsPerSecond rate => ["--ratelimit", toString (rate : ℕ)]
      | .delaySeconds delay _ => ["-d", toString (delay : ℕ)]) ++
    (if identity.configured then ["--headers", identity.newlineCliValue] else [])

/-! ## The command lines -/

/-- What a `command_for` is called with, and the configuration it reads. -/
inductive Invocation : Adapter → Type
  | http (config : HttpxConfig) (rateLimitRps : Option ℤ) : Invocation .http
  | content (config : HttpxContentConfig) (rateLimitRps : Option ℤ) : Invocation .content
  | crawler (config : KatanaConfig) (pacing : KatanaPacing) : Invocation .crawler
  | parameters (config : ArjunConfig) (targetUrl wordlistPath outputPath : String) (pacing : ArjunPacing)
      (discovery : ArjunDiscovery) : Invocation .parameters

namespace Invocation

variable {adapter : Adapter}

def extraArgs : Invocation adapter → ExtraArgs adapter
  | http config _ => config.extraArgs
  | content config _ => config.extraArgs
  | crawler config _ => config.extraArgs
  | parameters config _ _ _ _ _ => config.extraArgs

def binary : Invocation adapter → Stripped
  | http config _ => config.binary
  | content config _ => config.binary
  | crawler config _ => config.binary
  | parameters config _ _ _ _ _ => config.binary

def ownArgs (tables : Tables) (identity : RequestIdentityPolicy) : Invocation adapter → Except PyError (List String)
  | http config rateLimitRps => .ok (config.ownArgs identity rateLimitRps)
  | content config rateLimitRps => .ok (config.ownArgs identity rateLimitRps)
  | crawler config pacing => .ok (config.ownArgs identity pacing)
  | parameters _ targetUrl wordlistPath outputPath pacing discovery =>
      arjunOwnArgs tables identity targetUrl wordlistPath outputPath pacing discovery

/-- `command_for`: the binary, the adapter's own options and the extra arguments. `resolve` is `_resolve_executable`. -/
def commandFor (tables : Tables) (resolve : String → Option String) (identity : RequestIdentityPolicy)
    (invocation : Invocation adapter) : Except PyError (List String) := do
  let args ← invocation.ownArgs tables identity
  return (resolve invocation.binary.text).getD invocation.binary.text :: (args ++ invocation.extraArgs.args)

end Invocation

/-!
## Owned options and extra arguments

A validator compares whole arguments with the spellings it forbids, and the tools read more spellings than these:
`-name=value` and a second dash for httpx and Katana, and for Arjun the joined and abbreviated forms of `argparse`. So
the extra arguments leave the owned options alone exactly if none of them that is taken for an option is such a
respelling, or an unlisted name of an owned option (`extra_args_keep_owned_iff`).
-/

/-! ## The tools -/

/-- The tables the three tools read their options with. -/
structure ScannerTools (O : Type*) where
  httpx : Text → Option (GoFlag O)
  katana : Text → Option (GoFlag O)
  arjun : Argparse O

section Tools

variable {O : Type*} [DecidableEq O]

/-- The tool an adapter runs. -/
def ScannerTools.tool (tools : ScannerTools O) : Adapter → Tool O
  | .http | .content => goTool tools.httpx
  | .crawler => goTool tools.katana
  | .parameters => argparseTool tools.arjun

/-- Arguments, as the tool reads them. -/
def texts (args : List String) : List Text := args.map String.toList

/-- The owned options are set by the command line as by the adapter's own arguments. -/
def SetsOwnedAlike (tool : Tool O) (adapter : Adapter) (command own : List String) : Prop :=
  (scan tool.read (texts command.tail)).2 ≠ .refused →
    tool.ownedSettings (texts adapter.forbidden) (texts command.tail) =
      tool.ownedSettings (texts adapter.forbidden) (texts own)

/-- The tool refuses the extra arguments, or takes none for a respelling of a forbidden one or another name of its
option. -/
def NoneRespelled (tool : Tool O) (adapter : Adapter) (extra : List String) : Prop :=
  (scan tool.read (texts extra)).2 ≠ .refused →
    ∀ setting ∈ (scan tool.read (texts extra)).1,
      ¬ tool.RespellsListed (texts adapter.forbidden) setting ∧ ¬ tool.UnlistedName (texts adapter.forbidden) setting

variable {adapter : Adapter}

theorem texts_notMem_forbidden (extraArgs : ExtraArgs adapter) :
    ∀ argument ∈ texts extraArgs.args, argument ∉ texts adapter.forbidden := by
  intro argument hargument hlisted
  obtain ⟨arg, harg, rfl⟩ := List.mem_map.mp hargument
  obtain ⟨name, hname, hsame⟩ := List.mem_map.mp hlisted
  exact extraArgs.notMem_forbidden harg (String.toList_injective hsame ▸ hname)

theorem commandFor_tail {tables : Tables} {resolve : String → Option String} {identity : RequestIdentityPolicy}
    {invocation : Invocation adapter} {own command : List String} (hargs : invocation.ownArgs tables identity = .ok own)
    (hcommand : invocation.commandFor tables resolve identity = .ok command) :
    texts command.tail = texts own ++ texts invocation.extraArgs.args := by
  rw [Invocation.commandFor, hargs, ok_bind] at hcommand
  rw [← Except.ok.inj hcommand, List.tail_cons]
  exact List.map_append

/-- **Extra arguments and owned options.** Where the tool reads the adapter's own arguments as its options, accepted
extra arguments leave the owned options as they are exactly if the tool takes none of them for a respelling. -/
theorem extra_args_keep_owned_iff (tools : ScannerTools O) (tables : Tables) (resolve : String → Option String)
    (identity : RequestIdentityPolicy) (invocation : Invocation adapter) {own command : List String}
    {settings : List (Setting O)} (hargs : invocation.ownArgs tables identity = .ok own)
    (hcommand : invocation.commandFor tables resolve identity = .ok command)
    (hown : ReadsWhole (tools.tool adapter).read (texts own) settings) :
    SetsOwnedAlike (tools.tool adapter) adapter command own ↔
      NoneRespelled (tools.tool adapter) adapter invocation.extraArgs.args := by
  unfold SetsOwnedAlike
  rw [commandFor_tail hargs hcommand]
  exact Tool.keepsOwned_iff hown (texts_notMem_forbidden invocation.extraArgs)

end Tools

/-! ## A flag that is joined with its value -/

def switchFlag (option : String) : GoFlag String where
  option
  isBool := true
  accepts value := value = "true".toList || value = "false".toList

def numberFlag (option : String) : GoFlag String where
  option
  isBool := false
  accepts value := !value.isEmpty && value.all Char.isDigit

def textFlag (option : String) : GoFlag String where
  option
  isBool := false
  accepts _ := true

/-- The flags of httpx that the adapter uses, and the long name of `-t`. -/
def httpxFlags (name : Text) : Option (GoFlag String) :=
  ([("j", switchFlag "json"), ("silent", switchFlag "silent"), ("nc", switchFlag "no-color"),
    ("duc", switchFlag "disable-update-check"), ("nfs", switchFlag "no-fallback-scheme"),
    ("retries", numberFlag "retries"), ("t", numberFlag "threads"), ("threads", numberFlag "threads"),
    ("timeout", numberFlag "timeout"), ("sc", switchFlag "status-code"), ("cl", switchFlag "content-length"),
    ("ct", switchFlag "content-type"), ("location", switchFlag "location"), ("rt", switchFlag "response-time"),
    ("title", switchFlag "title"), ("server", switchFlag "web-server"), ("method", switchFlag "method"),
    ("probe", switchFlag "probe"), ("hash", textFlag "hash"), ("rstr", numberFlag "response-size-to-read"),
    ("H", textFlag "header"), ("td", switchFlag "tech-detect")].find?
      fun entry => entry.1.toList = name).map Prod.snd

def httpxOnly : ScannerTools String where
  httpx := httpxFlags
  katana _ := none
  arjun := { options := .empty, isNegativeNumber := fun _ => false }

theorem joined_threads_accepted :
    ∃ values, Adapter.http.restrictExtraArgs values = .ok ["-threads=100"] :=
  ⟨["-threads=100"], by decide +kernel⟩

theorem tenSeconds_bounds : 1 ≤ 10 ∧ 10 ≤ 120 := by decide

theorem twoMebibytes_bounds : 1024 ≤ 2 * 1024 * 1024 ∧ 2 * 1024 * 1024 ≤ 64 * 1024 * 1024 := by decide

def joinedThreads : Invocation .http :=
  .http
    { extraArgs := ⟨["-threads=100"], joined_threads_accepted⟩
      timeout_bounds := tenSeconds_bounds
      read_bounds := twoMebibytes_bounds }
    none

def joinedThreadsOwn : List String :=
  (HttpxConfig.ownArgs { timeout_bounds := tenSeconds_bounds, read_bounds := twoMebibytes_bounds } {} none)

def joinedThreadsSettings : List (Setting String) :=
  (wholeSettings (goRead httpxFlags) (texts joinedThreadsOwn)).getD []

theorem joinedThreads_whole : ReadsWhole (httpxOnly.tool .http).read (texts joinedThreadsOwn) joinedThreadsSettings :=
  readsWhole_of_wholeSettings (show wholeSettings (goRead httpxFlags) (texts joinedThreadsOwn) = _ by decide +kernel)

theorem joined_threads_keep_owned_iff :
    SetsOwnedAlike (httpxOnly.tool .http) .http ("httpx" :: (joinedThreadsOwn ++ ["-threads=100"])) joinedThreadsOwn ↔
      NoneRespelled (httpxOnly.tool .http) .http ["-threads=100"] :=
  extra_args_keep_owned_iff httpxOnly plainTables (fun _ => none) {} joinedThreads rfl rfl joinedThreads_whole

/-- The number of threads is 1 by the adapter's own arguments, and 100 by the last one. -/
theorem joined_threads_are_set : ¬ ∀ (adapter : Adapter) (invocation : Invocation adapter) (own command : List String)
        (settings : List (Setting String)), invocation.ownArgs plainTables {} = .ok own →
      invocation.commandFor plainTables (fun _ => none) {} = .ok command →
      ReadsWhole (httpxOnly.tool adapter).read (texts own) settings →
      SetsOwnedAlike (httpxOnly.tool adapter) adapter command own := by
  intro h
  have hargs : joinedThreads.ownArgs plainTables {} = .ok joinedThreadsOwn := rfl
  have hcommand : joinedThreads.commandFor plainTables (fun _ => none) {} =
      .ok ("httpx" :: (joinedThreadsOwn ++ ["-threads=100"])) := rfl
  have halike := h .http joinedThreads _ _ _ hargs hcommand joinedThreads_whole
  rw [SetsOwnedAlike, commandFor_tail hargs hcommand] at halike
  have hclean := (Tool.keepsOwned_iff joinedThreads_whole (texts_notMem_forbidden joinedThreads.extraArgs)).mp halike
  have hread : scan (httpxOnly.tool .http).read (texts joinedThreads.extraArgs.args) =
      ([⟨"-threads=100".toList, "-threads".toList, "threads", some "100".toList⟩], .atEnd) :=
    show scan (goRead httpxFlags) (texts ["-threads=100"]) = _ by decide +kernel
  rw [hread] at hclean
  have hrespelled : (httpxOnly.tool .http).RespellsListed (texts Adapter.http.forbidden)
      ⟨"-threads=100".toList, "-threads".toList, "threads", some "100".toList⟩ :=
    ⟨List.mem_map_of_mem (show "-threads" ∈ Adapter.http.forbidden by decide +kernel),
      .joined "threads".toList "100".toList⟩
  exact (hclean (by decide) _ (List.mem_singleton.mpr rfl)).1 hrespelled

end NightScout
