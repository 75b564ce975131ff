import NightScout.Core.JsonFields
import NightScout.Core.Router
import NightScout.Workers.HttpUrls

/-!
# What a worker is routed, and what it accepts

Four workers state their precondition twice: as route rules (`content_route_rules`, `tls_route_rules`,
`vhost_route_rules`, `parameter_route_rules`), which decide whether a task is made, and as the check the worker
makes of the input event when the task runs. A router lowers and strips tags before it looks for one;
the checks look for a tag as it is.

`int` of a text is a parameter, as it knows every script's digits.
-/

namespace NightScout

open Lib

/-- A port a model validates: at least 1 and at most 65535. -/
structure Port where
  value : ℕ
  positive : 1 ≤ value
  bounded : value ≤ 65535

instance : DecidableEq Port := fun a b => decidable_of_iff (a.value = b.value) (by cases a; cases b; simp)

def Port.ofInt (n : ℤ) : Except PyError Port :=
  if h : 1 ≤ n ∧ n ≤ 65535 then .ok ⟨n.toNat, by omega, by omega⟩
  else .error (.valueError "port must be between 1 and 65535")

/-! ## `recon/workers/content.py` -/

def requiresStaticAnalysis (event : Event) : Bool :=
  ((event.metadata.get? "requires_static_analysis").getD .null).truthy

def contentRouteRules (basePriority : ℚ) : List RouteRule :=
  [{ ruleId := { text := "content.fetch-javascript.live" }
     accepts := [.javascript]
     worker := { text := "content" }
     action := { text := "fetch_javascript" }
     reason := some { text :=
       "fetch one approved live JavaScript URL into the local content-addressed store" }
     basePriority
     requiredTags := {"javascript", "live"}
     excludedTags := {"content:available", "historical", "archive", "analysis:complete"}
     predicate := some fun event _ => .ok (requiresStaticAnalysis event) }]

/-- `path.endswith((".js", ".mjs", ".cjs"))`. -/
def endsAsJavascript (path : String) : Bool :=
  [".js", ".mjs", ".cjs"].any fun suffix => suffix.toList.isSuffixOf path.toList

def javascriptFetchUrl (tables : Tables) (event : Event) : Except PyError String :=
  if event.type ≠ .javascript then
    .error (.valueError "content.fetch_javascript requires JAVASCRIPT input")
  else if "javascript" ∉ event.tags ∨ "live" ∉ event.tags then
    .error (.valueError "content.fetch_javascript requires a live JavaScript observation")
  else if "historical" ∈ event.tags ∨ "archive" ∈ event.tags then
    .error (.valueError ("historical JavaScript must use a future archive-response " ++
      "materializer, not the live target fetcher"))
  else if "content:available" ∈ event.tags then
    .error (.valueError "JavaScript content is already available locally")
  else if !requiresStaticAnalysis event then
    .error (.valueError "JavaScript observation is not marked for static analysis")
  else do
    let url ← normalizeHttpUrl tables event.value
    let parts ← urlsplit tables url
    if endsAsJavascript (strLower tables parts.path) then .ok url
    else .error (.valueError "initial content fetcher accepts only .js/.mjs/.cjs URLs")

/-! ## `recon/workers/tls.py` -/

def tlsRouteRules (includeHttpServices : Bool) (basePriority : ℚ) : List RouteRule :=
  { ruleId := { text := "tls.inspect.confirmed-dns" }
    accepts := [.dnsName]
    worker := { text := "tls" }
    action := { text := "inspect" }
    reason := some { text := "inspect TLS certificate metadata on confirmed DNS name" }
    basePriority
    requiredTags := {"confirmed"}
    excludedTags := {"hypothesis"} } ::
  if includeHttpServices then
    [{ ruleId := { text := "tls.inspect.https-service" }
       accepts := [.httpService]
       worker := { text := "tls" }
       action := { text := "inspect" }
       reason := some { text := "inspect TLS metadata on confirmed HTTPS service" }
       basePriority := basePriority - 1 / 4
       requiredTags := {"confirmed"} }]
  else []

structure TLSTarget where
  hostname : String
  port : Port

/-- `TLSTarget(hostname=…, port=…)`. -/
def TLSTarget.make (tables : Tables) (hostname : String) (port : ℤ) : Except PyError TLSTarget := do
  let hostname ← normalizeDnsName tables hostname
  let port ← Port.ofInt port
  return { hostname, port }

def targetFromEvent (tables : Tables) (defaultPort : Port) (event : Event) :
    Except PyError TLSTarget :=
  match event.type with
  | .dnsName =>
    if "confirmed" ∉ event.tags ∨ "hypothesis" ∈ event.tags then
      .error (.valueError "tls.inspect requires a confirmed non-hypothesis DNS_NAME")
    else TLSTarget.make tables event.value defaultPort.value
  | .httpService =>
    if "confirmed" ∉ event.tags then
      .error (.valueError "tls.inspect requires confirmed HTTP_SERVICE")
    else do
      let parts ← urlsplit tables event.value
      match parts.scheme, parts.hostname tables with
      | "https", some hostname =>
        match parts.port with
        | .error _ => .error (.valueError "HTTP_SERVICE contains invalid port")
        | .ok port =>
          -- `parts.port or 443`: port 0 is no port
          TLSTarget.make tables hostname (match port with | none => 443 | some 0 => 443 | some p => p)
      | _, _ => .error (.valueError "TLS inspection from HTTP_SERVICE requires https://host:port")
  | _ => .error (.valueError "tls.inspect requires DNS_NAME or HTTPS HTTP_SERVICE input")

/-! ## `recon/workers/parameters.py` -/

def parameterRouteRules (basePriority : ℚ) : List RouteRule :=
  [{ ruleId := { text := "parameters.api.targeted" }
     accepts := [.apiEndpoint]
     worker := { text := "parameters" }
     action := { text := "discover_targeted" }
     reason := some { text :=
       "validate target-specific GET parameter-name hypotheses on an API endpoint" }
     basePriority
     excludedTags := {"historical", "archive"} },
   { ruleId := { text := "parameters.api.exploration" }
     accepts := [.apiEndpoint]
     worker := { text := "parameters" }
     action := { text := "discover_exploration" }
     reason := some { text :=
       "validate a rotating bounded global parameter corpus on an API endpoint" }
     basePriority := basePriority - 1
     excludedTags := {"historical", "archive"} }]

def parameterTargetUrlValue (tables : Tables) (value : String) : Except PyError String := do
  let normalized ← normalizeHttpUrl tables value
  let parts ← urlsplit tables normalized
  return urlunsplit { parts with path := pathOf parts, query := "", fragment := "" }

def parameterTargetFromEvent (tables : Tables) (event : Event) : Except PyError String :=
  if event.type ≠ .apiEndpoint then
    .error (.valueError "parameters discovery requires API_ENDPOINT input by default")
  else if "historical" ∈ event.tags ∨ "archive" ∈ event.tags then
    .error (.valueError "historical endpoints are not active parameter-discovery targets")
  else parameterTargetUrlValue tables event.value

/-! ## `recon/workers/vhost.py` -/

structure VHostService where
  url : String
  scheme : String
  transportHostname : String
  port : Port
  deriving DecidableEq

/-- `VHostService(url=…, scheme=…, transport_hostname=…, port=…)`. -/
def VHostService.make (tables : Tables) (url scheme transportHostname : String) (port : ℤ) :
    Except PyError VHostService := do
  let url ← normalizeHttpUrl tables url
  let scheme := strLower tables (strip scheme)
  if scheme ≠ "http" ∧ scheme ≠ "https" then
    throw (.valueError "scheme must be http or https")
  let transportHostname ← normalizeDnsName tables transportHostname
  let port ← Port.ofInt port
  let parts ← urlsplit tables url
  match parts.hostname tables with
  | none => throw (.valueError "service URL requires hostname")
  | some hostname =>
    let urlHostname ← normalizeDnsName tables hostname
    let urlPort := match ← parts.port with
      | none | some 0 => if parts.scheme = "https" then 443 else 80
      | some p => p
    if urlHostname ≠ transportHostname then
      throw (.valueError "service URL hostname does not match transport host")
    if parts.scheme ≠ scheme then
      throw (.valueError "service URL scheme does not match service scheme")
    if urlPort ≠ port.value then
      throw (.valueError "service URL port does not match service port")
    return { url, scheme, transportHostname, port }

/-- `int(raw_port)`, of what is an `int` or a `str`; a `bool` is an `int`. -/
def portNumber (intOf : String → Option ℤ) : Option JsonValue → Option ℤ
  | some (.int n) => some n
  | some (.bool b) => some (if b then 1 else 0)
  | some (.string s) => intOf s
  | _ => none

def serviceFromEvent (tables : Tables) (intOf : String → Option ℤ) (event : Event) :
    Except PyError VHostService :=
  if event.type ≠ .httpService then
    .error (.valueError "vhost discovery requires HTTP_SERVICE input")
  else if "confirmed" ∉ event.tags ∨ "hypothesis" ∈ event.tags then
    .error (.valueError "vhost discovery requires a confirmed non-hypothesis service")
  else
    match event.metadata.get? "url" with
    | some (.string url) =>
      match event.metadata.get? "hostname" with
      | some (.string hostname) =>
        match event.metadata.get? "scheme" with
        | some (.string scheme) =>
          match portNumber intOf (event.metadata.get? "port") with
          | some port => VHostService.make tables url scheme hostname port
          | none => .error (.valueError "HTTP_SERVICE metadata.port must be an integer")
        | _ => .error (.valueError "HTTP_SERVICE metadata.scheme is required")
      | _ => .error (.valueError "HTTP_SERVICE metadata.hostname is required")
    | _ => .error (.valueError "HTTP_SERVICE metadata.url is required")

def confirmedHttpService (tables : Tables) (intOf : String → Option ℤ) (event : Event) :
    Except PyError Bool :=
  match serviceFromEvent tables intOf event with
  | .ok _ => .ok true
  | .error (.valueError _) => .ok false
  | .error e => .error e

def vhostRouteRules (tables : Tables) (intOf : String → Option ℤ)
    (targetedPriority explorationPriority : ℚ) : List RouteRule :=
  [{ ruleId := { text := "vhost.discover-targeted.confirmed-http-service" }
     accepts := [.httpService]
     worker := { text := "vhost" }
     action := { text := "discover_targeted" }
     reason := some { text :=
       "test target-derived Host-header candidates against a confirmed HTTP service" }
     basePriority := targetedPriority
     requiredTags := {"confirmed", "service"}
     excludedTags := {"hypothesis"}
     predicate := some fun event _ => confirmedHttpService tables intOf event },
   { ruleId := { text := "vhost.discover-exploration.confirmed-http-service" }
     accepts := [.httpService]
     worker := { text := "vhost" }
     action := { text := "discover_exploration" }
     reason := some { text :=
       "test a rotating global VHOST exploration window against a confirmed HTTP service" }
     basePriority := explorationPriority
     requiredTags := {"confirmed", "service"}
     excludedTags := {"hypothesis"}
     predicate := some fun event _ => confirmedHttpService tables intOf event }]

/-! ## The four workers -/

/-- A worker with the options of its route rules and of its check. -/
inductive InputWorker where
  | content (basePriority : ℚ)
  | tls (includeHttpServices : Bool) (basePriority : ℚ) (defaultPort : Port)
  | vhost (targetedPriority explorationPriority : ℚ)
  | parameters (basePriority : ℚ)

namespace InputWorker

variable (tables : Tables) (intOf : String → Option ℤ)

def routeRules : InputWorker → List RouteRule
  | content basePriority => contentRouteRules basePriority
  | tls includeHttpServices basePriority _ => tlsRouteRules includeHttpServices basePriority
  | vhost targeted exploration => vhostRouteRules tables intOf targeted exploration
  | parameters basePriority => parameterRouteRules basePriority

/-- The worker's own check accepts the event. -/
def accepts (event : Event) : InputWorker → Bool
  | content _ => (javascriptFetchUrl tables event).isOk
  | tls _ _ defaultPort => (targetFromEvent tables defaultPort event).isOk
  | vhost _ _ => (serviceFromEvent tables intOf event).isOk
  | parameters _ => (parameterTargetFromEvent tables event).isOk

/-- The event's URL has a path that names a script. -/
def ScriptPath (value : String) : Prop :=
  ∃ parts, urlsplit tables value = .ok parts ∧ endsAsJavascript (strLower tables (pathOf parts)) = true

/-- The event's URL is an `https` one. -/
def HttpsUrl (value : String) : Prop := ∃ parts, urlsplit tables value = .ok parts ∧ parts.scheme = "https"

/-- What an event a worker was routed has to be for its check to accept it. -/
def Fit (event : Event) : InputWorker → Prop
  | content _ => "javascript" ∈ event.tags ∧ "live" ∈ event.tags ∧ ScriptPath tables event.value
  | tls _ _ _ => "confirmed" ∈ event.tags ∧ (event.type = .httpService → HttpsUrl tables event.value)
  | vhost _ _ => True
  | parameters _ => True

end InputWorker

/-- The value is a host name or a URL, according to the type. -/
def ValueAccepted (tables : Tables) (event : Event) : Prop :=
  match event.type with
  | .dnsName => ∃ name, normalizeDnsName tables event.value = .ok name
  | _ => ∃ url, normalizeHttpUrl tables event.value = .ok url

section Matching

variable {tables : Tables} {intOf : String → Option ℤ} {rule : RouteRule} {event : Event}
  {context : RoutingContext}

/-- What a rule that matches has seen. -/
theorem RouteRule.of_matching {lower : String → String} (h : rule.matching lower event context = .ok true) :
    event.type ∈ rule.accepts ∧ rule.requiredTags ⊆ normalizeTags lower event.tags ∧
      (∀ tag ∈ rule.excludedTags, tag ∉ normalizeTags lower event.tags) ∧
      ∀ predicate, rule.predicate = some predicate → predicate event context = .ok true := by
  unfold RouteRule.matching at h
  have hstep : ∀ {c : Prop} [Decidable c] {x : Except PyError Bool},
      (if c then .ok false else x) = .ok true → ¬ c ∧ x = .ok true := by
    intro c _ x hx
    split at hx
    · cases hx
    · exact ⟨‹_›, hx⟩
  obtain ⟨htype, h⟩ := hstep h
  obtain ⟨-, h⟩ := hstep h
  obtain ⟨-, h⟩ := hstep h
  obtain ⟨hrequired, h⟩ := hstep h
  obtain ⟨hexcluded, h⟩ := hstep h
  refine ⟨not_not.mp htype, not_not.mp hrequired, ?_, ?_⟩
  · intro tag htag hin
    apply hexcluded
    exact Finset.card_pos.mpr ⟨tag, Finset.mem_inter.mpr ⟨htag, hin⟩⟩
  · intro predicate hpredicate
    rw [hpredicate] at h
    exact h

/-- A tag that is stripped and in lower case already is found as it is. -/
theorem mem_normalizeTags {lower : String → String} {tags : Finset String} {tag : String}
    (h : tag ∈ tags) (hnormal : lower (strip tag) = tag) (hne : tag ≠ "") :
    tag ∈ normalizeTags lower tags := by
  unfold normalizeTags
  exact Finset.mem_erase.mpr ⟨hne, Finset.mem_image.mpr ⟨tag, h, hnormal⟩⟩

/-- The tags the rules exclude are in their normal form. -/
theorem normal_excludedTags (tables : Tables) :
    ∀ tag ∈ ["content:available", "historical", "archive", "hypothesis"],
      strLower tables (strip tag) = tag ∧ tag ≠ "" := by
  have hascii : ∀ tag ∈ ["content:available", "historical", "archive", "hypothesis"],
      isAscii (strip tag) = true ∧ String.ofList ((strip tag).toList.map Char.toLower) = tag ∧
        tag ≠ "" := by decide
  intro tag htag
  obtain ⟨hplain, hlower, hne⟩ := hascii tag htag
  exact ⟨by rw [strLower, if_pos hplain, hlower], hne⟩

/-- A tag that a matching rule excludes is none of the event's. -/
theorem notMem_tags_of_matching (h : rule.matching (strLower tables) event context = .ok true)
    {tag : String} (hexcluded : tag ∈ rule.excludedTags)
    (htag : tag ∈ ["content:available", "historical", "archive", "hypothesis"]) :
    tag ∉ event.tags := by
  intro hin
  obtain ⟨hnormal, hne⟩ := normal_excludedTags tables tag htag
  obtain ⟨-, -, hnone, -⟩ := RouteRule.of_matching h
  exact hnone tag hexcluded (mem_normalizeTags hin hnormal hne)

end Matching

/-! ## What is routed is accepted, if it is fit -/

section Fit

variable {tables : Tables} {intOf : String → Option ℤ} {rule : RouteRule} {event : Event}
  {context : RoutingContext}

theorem content_rule_shape {basePriority : ℚ} (hrule : rule ∈ contentRouteRules basePriority) :
    rule.accepts = [.javascript] ∧
      rule.excludedTags = {"content:available", "historical", "archive", "analysis:complete"} ∧
      rule.predicate = some fun event _ => .ok (requiresStaticAnalysis event) := by
  obtain rfl := List.mem_singleton.mp hrule
  exact ⟨rfl, rfl, rfl⟩

/-- The check of the content worker on what it was routed. -/
theorem content_accepts_iff {basePriority : ℚ} (hstripped : strip event.value = event.value)
    (hvalue : ValueAccepted tables event) (hrule : rule ∈ contentRouteRules basePriority)
    (h : rule.matching (strLower tables) event context = .ok true) : (javascriptFetchUrl tables event).isOk = true ↔
      "javascript" ∈ event.tags ∧ "live" ∈ event.tags ∧
        InputWorker.ScriptPath tables event.value := by
  obtain ⟨haccepts, hexcluded, hasks⟩ := content_rule_shape hrule
  obtain ⟨htype, -, -, hpredicate⟩ := RouteRule.of_matching h
  rw [haccepts] at htype
  have htype : event.type = .javascript := List.mem_singleton.mp htype
  have hstatic : requiresStaticAnalysis event = true := Except.ok.inj (hpredicate _ hasks)
  have hhistorical : "historical" ∉ event.tags :=
    notMem_tags_of_matching h (by simp [hexcluded]) (by decide)
  have harchive : "archive" ∉ event.tags :=
    notMem_tags_of_matching h (by simp [hexcluded]) (by decide)
  have havailable : "content:available" ∉ event.tags :=
    notMem_tags_of_matching h (by simp [hexcluded]) (by decide)
  obtain ⟨url, hurl⟩ : ∃ url, normalizeHttpUrl tables event.value = .ok url := by
    simpa [ValueAccepted, htype] using hvalue
  obtain ⟨parts, rawHost, hostname, port, hread, hparts⟩ := normalizeHttpUrl_ok hurl
  -- the path is looked at in the normal URL, where it is the event's own
  have hsplit : urlsplit tables url = .ok (canonicalOf parts hostname port) := by
    rw [hparts]
    exact hread.split_normal
  have hscript : InputWorker.ScriptPath tables event.value ↔
      endsAsJavascript (strLower tables (pathOf parts)) = true := by
    have hown := hread.split
    rw [hstripped] at hown
    constructor
    · rintro ⟨parts', hparts', hends⟩
      rw [hown] at hparts'
      cases hparts'
      exact hends
    · intro hends
      exact ⟨parts, hown, hends⟩
  rw [hscript]
  unfold javascriptFetchUrl
  rw [if_neg (not_not.mpr htype)]
  by_cases htags : "javascript" ∉ event.tags ∨ "live" ∉ event.tags
  · rw [if_pos htags]
    constructor
    · intro hok
      cases hok
    · rintro ⟨hjavascript, hlive, -⟩
      exact (htags.elim (· hjavascript) (· hlive)).elim
  · rw [if_neg htags, if_neg (by simp [hhistorical, harchive]), if_neg havailable,
      if_neg (by simp [hstatic]), hurl, ok_bind, hsplit, ok_bind]
    rw [not_or, not_not, not_not] at htags
    have hpath : (canonicalOf parts hostname port).path = pathOf parts := rfl
    rw [hpath]
    cases hends : endsAsJavascript (strLower tables (pathOf parts)) with
    | true => exact iff_of_true rfl ⟨htags.1, htags.2, rfl⟩
    | false => simp [Except.isOk, Except.toBool]

theorem Port.ofInt_value (port : Port) : Port.ofInt port.value = .ok port := by
  have hpositive := port.positive
  have hbounded := port.bounded
  rw [Port.ofInt, dif_pos (by omega)]
  rfl

/-- The check of the TLS worker on a name it was routed. -/
theorem tls_name_accepts_iff {defaultPort : Port} (htype : event.type = .dnsName)
    (hvalue : ValueAccepted tables event) (hhypothesis : "hypothesis" ∉ event.tags) :
    (targetFromEvent tables defaultPort event).isOk = true ↔ "confirmed" ∈ event.tags := by
  obtain ⟨name, hname⟩ : ∃ name, normalizeDnsName tables event.value = .ok name := by
    simpa [ValueAccepted, htype] using hvalue
  unfold targetFromEvent
  simp only [htype]
  by_cases hconfirmed : "confirmed" ∈ event.tags
  · rw [if_neg (by simp [hconfirmed, hhypothesis]), TLSTarget.make, hname, ok_bind,
      Port.ofInt_value, ok_bind]
    simp [hconfirmed, Except.isOk, Except.toBool]
  · rw [if_pos (.inl hconfirmed)]
    simp [hconfirmed, Except.isOk, Except.toBool]

/-- A port a URL shows, with 443 for none and for port 0, is one a target may have. -/
theorem portOr443_ok {parts : SplitResult} {port : Option ℕ} (h : parts.port = .ok port) :
    ∃ p, Port.ofInt (match port with | none => 443 | some 0 => 443 | some p => p) = .ok p := by
  match port, h with
  | none, _ => exact ⟨_, rfl⟩
  | some 0, _ => exact ⟨_, rfl⟩
  | some (p + 1), h =>
    have hbound : p + 1 ≤ 65535 := port_le h
    refine ⟨_, dif_pos ?_⟩
    constructor
    · exact Int.le_add_of_nonneg_left (Int.natCast_nonneg p)
    · exact Int.ofNat_le.mpr hbound

/-- The check of the TLS worker on a service it was routed. -/
theorem tls_service_accepts_iff {defaultPort : Port} (htype : event.type = .httpService)
    (hstripped : strip event.value = event.value) (hvalue : ValueAccepted tables event) :
    (targetFromEvent tables defaultPort event).isOk = true ↔
      "confirmed" ∈ event.tags ∧ InputWorker.HttpsUrl tables event.value := by
  obtain ⟨url, hurl⟩ : ∃ url, normalizeHttpUrl tables event.value = .ok url := by
    simpa [ValueAccepted, htype] using hvalue
  obtain ⟨parts, rawHost, hostname, port, hread, -⟩ := normalizeHttpUrl_ok hurl
  have hsplit := hread.split
  rw [hstripped] at hsplit
  have hhttps : InputWorker.HttpsUrl tables event.value ↔ parts.scheme = "https" := by
    constructor
    · rintro ⟨parts', hparts', hscheme⟩
      rw [hsplit] at hparts'
      cases hparts'
      exact hscheme
    · intro hscheme
      exact ⟨parts, hsplit, hscheme⟩
  rw [hhttps]
  unfold targetFromEvent
  simp only [htype]
  by_cases hconfirmed : "confirmed" ∈ event.tags
  · rw [if_neg (not_not.mpr hconfirmed), hsplit, ok_bind]
    by_cases hscheme : parts.scheme = "https"
    · obtain ⟨target, htarget⟩ := portOr443_ok hread.port
      simp only [hscheme, hread.host, hread.port]
      rw [TLSTarget.make, hread.hostname, ok_bind, htarget, ok_bind]
      simp [hconfirmed, Except.isOk, Except.toBool]
    · constructor
      · intro hok
        split at hok
        · rename_i heq _
          exact absurd heq hscheme
        · cases hok
      · intro hall
        exact absurd hall.2 hscheme
  · rw [if_pos hconfirmed]
    simp [hconfirmed, Except.isOk, Except.toBool]

/-- The check of the parameters worker on what it was routed. -/
theorem parameters_accepts {basePriority : ℚ} (hvalue : ValueAccepted tables event)
    (hrule : rule ∈ parameterRouteRules basePriority) (h : rule.matching (strLower tables) event context = .ok true) :
    (parameterTargetFromEvent tables event).isOk = true := by
  have hshape : rule.accepts = [.apiEndpoint] ∧ "historical" ∈ rule.excludedTags ∧
      "archive" ∈ rule.excludedTags := by
    rcases List.mem_pair.mp hrule with rfl | rfl <;> simp
  obtain ⟨htype, -, -, -⟩ := RouteRule.of_matching h
  rw [hshape.1] at htype
  have htype : event.type = .apiEndpoint := List.mem_singleton.mp htype
  have hhistorical := notMem_tags_of_matching h hshape.2.1 (by decide)
  have harchive := notMem_tags_of_matching h hshape.2.2 (by decide)
  obtain ⟨url, hurl⟩ : ∃ url, normalizeHttpUrl tables event.value = .ok url := by
    simpa [ValueAccepted, htype] using hvalue
  obtain ⟨parts, rawHost, hostname, port, hread, rfl⟩ := normalizeHttpUrl_ok hurl
  rw [parameterTargetFromEvent, if_neg (not_not.mpr htype), if_neg (by simp [hhistorical, harchive]),
    parameterTargetUrlValue, hurl, ok_bind, hread.split_normal]
  rfl

/-- A rule of the virtual host worker asks the worker's own check. -/
theorem vhost_accepts {targeted exploration : ℚ} (hrule : rule ∈ vhostRouteRules tables intOf targeted exploration)
    (h : rule.matching (strLower tables) event context = .ok true) :
    (serviceFromEvent tables intOf event).isOk = true := by
  have hpredicate : rule.predicate = some fun event _ => confirmedHttpService tables intOf event := by
    rcases List.mem_pair.mp hrule with rfl | rfl <;> rfl
  obtain ⟨-, -, -, hasked⟩ := RouteRule.of_matching h
  have hconfirmed : confirmedHttpService tables intOf event = .ok true := hasked _ hpredicate
  unfold confirmedHttpService at hconfirmed
  split at hconfirmed
  next hservice =>
    rw [hservice]
    rfl
  · cases hconfirmed
  · cases hconfirmed

/-- A rule of the TLS worker takes one type of event. -/
theorem tls_rule_cases {includeHttpServices : Bool} {basePriority : ℚ}
    (hrule : rule ∈ tlsRouteRules includeHttpServices basePriority) :
    (rule.accepts = [.dnsName] ∧ "hypothesis" ∈ rule.excludedTags) ∨
      rule.accepts = [.httpService] := by
  rcases List.mem_cons.mp hrule with rfl | hservice
  · exact .inl ⟨rfl, by simp⟩
  · split at hservice
    · obtain rfl := List.mem_singleton.mp hservice
      exact .inr rfl
    · cases hservice

/-- **When a routed event is not refused.** An event that a worker's own rules route to it is accepted
    by the worker's check exactly when it is fit. -/
theorem routed_accepted_iff_fit (tables : Tables) (intOf : String → Option ℤ) (worker : InputWorker)
    (rule : RouteRule) (event : Event) (context : RoutingContext)
    (hstripped : strip event.value = event.value) (hvalue : ValueAccepted tables event)
    (hrule : rule ∈ worker.routeRules tables intOf) (h : rule.matching (strLower tables) event context = .ok true) :
    worker.accepts tables intOf event = true ↔ worker.Fit tables event := by
  cases worker with
  | content basePriority => exact content_accepts_iff hstripped hvalue hrule h
  | tls includeHttpServices basePriority defaultPort =>
    obtain ⟨htype, -, -, -⟩ := RouteRule.of_matching h
    rcases tls_rule_cases hrule with ⟨haccepts, hexcluded⟩ | haccepts
    · rw [haccepts] at htype
      have htype : event.type = .dnsName := List.mem_singleton.mp htype
      have hname : (targetFromEvent tables defaultPort event).isOk = true ↔ _ :=
        tls_name_accepts_iff htype hvalue (notMem_tags_of_matching h hexcluded (by decide))
      simp [InputWorker.accepts, InputWorker.Fit, hname, htype]
    · rw [haccepts] at htype
      have htype : event.type = .httpService := List.mem_singleton.mp htype
      have hservice : (targetFromEvent tables defaultPort event).isOk = true ↔ _ :=
        tls_service_accepts_iff htype hstripped hvalue
      simp [InputWorker.accepts, InputWorker.Fit, hservice, htype]
  | vhost targeted exploration => exact iff_of_true (vhost_accepts hrule h) trivial
  | parameters basePriority => exact iff_of_true (parameters_accepts hvalue hrule h) trivial

end Fit

/-! ## Events that are refused after all -/

def scriptEvent (value : String) (tags : Finset String) : Event where
  eventId := "evt_script"
  type := .javascript
  value
  source := katanaName
  firstSeen := 0
  lastSeen := 0
  tags
  metadata := Dict.empty.set "requires_static_analysis" (.bool true)
  confidence_unit := zero_unit
  novelty_unit := zero_unit

def serviceEvent (value : String) : Event where
  eventId := "evt_service"
  type := .httpService
  value
  source := httpxName
  firstSeen := 0
  lastSeen := 0
  tags := {"confirmed", "service"}
  confidence_unit := zero_unit
  novelty_unit := zero_unit

/-- The rule of the content worker, at its default priority. -/
def fetchScript : RouteRule := (contentRouteRules 8).head (List.cons_ne_nil _ _)

theorem routed_script_accepted :
    (InputWorker.content 8).accepts asciiTables (fun _ => none)
        (scriptEvent "https://www.example.com/app.js" {"javascript", "live"}) = true ↔
      (InputWorker.content 8).Fit asciiTables
        (scriptEvent "https://www.example.com/app.js" {"javascript", "live"}) := by
  apply routed_accepted_iff_fit asciiTables (fun _ => none) (.content 8) fetchScript _ {}
  · decide +kernel
  · exact ⟨"https://www.example.com/app.js", by decide +kernel⟩
  · exact List.mem_singleton.mpr rfl
  · decide +kernel

/-- The second rule of the TLS worker, at the default priority. -/
def inspectService : RouteRule :=
  (tlsRouteRules true (33 / 4)).getLast (List.cons_ne_nil _ _)

/-- Routed and refused: a tag in another case, a URL whose path names no script, and a service that
    is not an `https` one. -/
theorem routed_events_refused : (fetchScript.matching (strLower asciiTables)
        (scriptEvent "https://www.example.com/app.js" {"JavaScript", "live"}) {} = .ok true ∧
      normalizeHttpUrl asciiTables "https://www.example.com/app.js" =
        .ok "https://www.example.com/app.js" ∧
      (InputWorker.content 8).accepts asciiTables (fun _ => none)
        (scriptEvent "https://www.example.com/app.js" {"JavaScript", "live"}) = false) ∧
    (fetchScript.matching (strLower asciiTables)
        (scriptEvent "https://www.example.com/bundle" {"javascript", "live"}) {} = .ok true ∧
      normalizeHttpUrl asciiTables "https://www.example.com/bundle" =
        .ok "https://www.example.com/bundle" ∧
      (InputWorker.content 8).accepts asciiTables (fun _ => none)
        (scriptEvent "https://www.example.com/bundle" {"javascript", "live"}) = false) ∧
    (inspectService.matching (strLower asciiTables) (serviceEvent "http://www.example.com:80") {} =
        .ok true ∧
      normalizeHttpUrl asciiTables "http://www.example.com:80" = .ok "http://www.example.com/" ∧
      (InputWorker.tls true (33 / 4) ⟨443, by decide, by decide⟩).accepts asciiTables (fun _ => none)
        (serviceEvent "http://www.example.com:80") = false) := by
  refine ⟨⟨?_, ?_, ?_⟩, ⟨?_, ?_, ?_⟩, ⟨?_, ?_, ?_⟩⟩ <;> decide +kernel

end NightScout
