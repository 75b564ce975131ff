import NightScout.Core.JsonFields
import NightScout.Lib.OrderedSets
import NightScout.Workers.WebUrls

/-!
# Lines that scanners print

`parse_dnsx_line`, `parse_httpx_line`, `parse_katana_line` and `parse_nuclei_jsonl`: each reads one JSON object from a
line and picks what it knows. `json.loads` is a parameter; besides `JSONDecodeError`, which is caught, it raises
`ValueError` for a number of too many digits and `RecursionError` for too many brackets. The frames the interpreter has
left for its own functions are a parameter too.
-/

namespace NightScout

open Lib

/-- What `json.loads` raises: a `JSONDecodeError`, or something else. -/
inductive LoadError where
  | decode
  | other (e : PyError)

section Fields

variable (texts : PyTexts)

def firstText (payload : JsonObject) (keys : List String) : Option String :=
  keys.findSome? fun key =>
    match field payload key with
    | .null => none
    | value =>
      let normalized := strip (texts.str value)
      if normalized = "" then none else some normalized

def stringValues : JsonValue → List String
  | .string s => if strip s = "" then [] else [strip s]
  | .array items => sortedSet id ((items.map fun item => strip (texts.str item)).filter (· ≠ ""))
  | _ => []

/-- A number within bounds: `_parse_nonnegative_int`, `_parse_port`, `_parse_status_code`. -/
def boundedInt (low : ℕ) (high : Option ℕ) (value : JsonValue) : Except PyError (Option ℕ) := do
  let n ← safeInt texts value
  return (n.filter fun n => decide ((low : ℤ) ≤ n) && high.all fun (bound : ℕ) => n ≤ bound).map Int.toNat

def parseNonnegativeInt : JsonValue → Except PyError (Option ℕ) := boundedInt texts 0 none

def parsePort : JsonValue → Except PyError (Option ℕ) := boundedInt texts 1 (some 65535)

def parseStatusCode : JsonValue → Except PyError (Option ℕ) := boundedInt texts 100 (some 599)

/-- `str | float | int | None`, as a model reads it. -/
def timeField : JsonValue → Except PyError (Option JsonValue)
  | .null => .ok none
  | .bool b => .ok (some (.float (if b then 1 else 0)))
  | .array _ | .object _ => .error (.valueError "validation error")
  | value => .ok (some value)

/-- The entries that are not known. -/
def otherEntries (known : List String) (payload : JsonObject) : Metadata :=
  .ofPairs ((Dict.ofPairs payload).entries.filter fun entry => entry.1 ∉ known)

end Fields

section Payload

variable (loads : String → Except LoadError JsonValue)

/-- The object of a line, if there is one. -/
def linePayload (line : String) : Except PyError (Option JsonObject) :=
  match loads line with
  | .error .decode => .ok none
  | .error (.other e) => .error e
  | .ok (.object payload) => .ok (some payload)
  | .ok _ => .ok none

/-- The object of a stripped line. -/
def strippedPayload (line : String) : Except PyError (Option JsonObject) :=
  if strip line = "" then .ok none else linePayload loads (strip line)

end Payload

/-! ## `recon/workers/dns.py` -/

inductive DnsRecordType where
  | a | aaaa | cname
  deriving DecidableEq, Repr

def DnsRecordType.fieldName : DnsRecordType → String
  | a => "a"
  | aaaa => "aaaa"
  | cname => "cname"

structure DnsQueryResult where
  hostname : String
  recordType : DnsRecordType
  values : List String := []
  statusCode : Option String := none
  ttl : Option ℕ := none
  resolvers : List String := []
  queryTime : Option JsonValue := none
  metadata : Metadata := .empty

section Dns

variable (lib : IdentityLib) (texts : PyTexts)

/-- The values of a record, normalized, without those that are not valid. -/
def recordValues (requestedType : DnsRecordType) (values : List String) : Except PyError (List String) :=
  match requestedType with
  | .cname => do
    let names ← values.mapM fun value => exceptValueError (normalizeDnsName lib.toTables value)
    return sortedSet id (names.filterMap id)
  | _ =>
    let version := if requestedType = .a then IpVersion.v4 else IpVersion.v6
    .ok (sortedSet id ((values.filterMap fun value => IpAddress.parse value.toList).filterMap fun ip =>
      if ip.version = version then some (String.ofList ip.text) else none))

/-- What `parse_dnsx_line` makes of an object. -/
def dnsxResult (requestedType : DnsRecordType) (payload : JsonObject) : Except PyError (Option DnsQueryResult) :=
  match field payload "host" with
  | .string rawHost => do
    match ← exceptValueError (normalizeDnsName lib.toTables rawHost) with
    | none => return none
    | some hostname =>
      let values ← recordValues lib requestedType (stringValues texts (field payload requestedType.fieldName))
      let ttl ← parseNonnegativeInt texts (field payload "ttl")
      let queryTime ← timeField (if "query-time" ∈ payload.map Prod.fst then field payload "query-time"
        else field payload "query_time")
      return some {
        hostname
        recordType := requestedType
        values
        statusCode := (firstText texts payload ["status_code", "status-code", "rcode"]).map (strUpper lib)
        ttl
        resolvers := stringValues texts (field payload "resolver")
        queryTime
        metadata := otherEntries ["host", "a", "aaaa", "cname", "ttl", "resolver", "status_code", "status-code", "rcode",
          "query-time", "query_time", "raw"] payload }
  | _ => .ok none

variable (loads : String → Except LoadError JsonValue)

def parseDnsxLine (requestedType : DnsRecordType) (line : String) : Except PyError (Option DnsQueryResult) := do
  match ← strippedPayload loads line with
  | none => return none
  | some payload => dnsxResult lib texts requestedType payload

end Dns

/-! ## `recon/workers/http.py` -/

structure HttpProbeResult where
  inputUrl : String
  url : String
  scheme : String
  hostname : String
  port : ℕ
  method : String := "GET"
  statusCode : Option ℕ := none
  title : Option String := none
  bodySha256 : Option String := none
  contentType : Option String := none
  contentLength : Option ℕ := none
  location : Option String := none
  webserver : Option String := none
  technologies : List String := []
  responseTime : Option JsonValue := none
  failed : Bool := false
  error : Option String := none
  metadata : Metadata := .empty

section Http

variable (lib : IdentityLib) (texts : PyTexts)

def looksLikeSha256 (value : String) : Bool :=
  value.length = 64 && value.toList.all fun c => c.isDigit || ('a' ≤ c && c ≤ 'f')

/-- A text that looks like a digest. -/
def digestText : JsonValue → Option String
  | .string s =>
    let normalized := strLower lib.toTables (strip s)
    if looksLikeSha256 normalized then some normalized else none
  | _ => none

def bodySha256 : JsonValue → Option String
  | .object value => ["body_sha256", "body-sha256", "sha256"].findSome? fun key => digestText lib (field value key)
  | value => digestText lib value

/-- The URL of the `input` field. -/
def inputUrlOf (scheme url : String) : JsonValue → Except PyError String
  | .string input => do
    let spelled := if hasSchemeSeparator input.toList then input else s!"{scheme}://{input}/"
    return (← exceptValueError (normalizeHttpUrl lib.toTables spelled)).getD url
  | _ => .ok url

/-- What `parse_httpx_line` makes of an object. -/
def httpxResult (payload : JsonObject) : Except PyError (Option HttpProbeResult) :=
  match field payload "url" with
  | .string rawUrl => do
    match ← exceptValueError (normalizeHttpUrl lib.toTables rawUrl) with
    | none => return none
    | some url =>
      let parts ← urlsplit lib.toTables url
      match parts.hostname lib.toTables with
      | none => return none
      | some rawHostname =>
        let hostname ← normalizeDnsName lib.toTables rawHostname
        let scheme := parts.scheme
        let parsedPort ← parsePort texts (field payload "port")
        let urlPort ← parts.port
        let port := parsedPort.getD
          (match urlPort with
          | none | some 0 => if scheme = "https" then 443 else 80
          | some port => port)
        let inputUrl ← inputUrlOf lib scheme url (field payload "input")
        let statusCode ← parseStatusCode texts (field payload "status_code")
        let contentLength ← parseNonnegativeInt texts (field payload "content_length")
        let responseTime ← timeField (if "time" ∈ payload.map Prod.fst then field payload "time"
          else field payload "response_time")
        return some {
          inputUrl, url, scheme, hostname, port, statusCode, contentLength, responseTime
          method := strUpper lib ((firstText texts payload ["method"]).getD "GET")
          title := firstText texts payload ["title"]
          bodySha256 := bodySha256 lib (field payload "hash")
          contentType := firstText texts payload ["content_type", "content-type"]
          location := firstText texts payload ["location"]
          webserver := firstText texts payload ["webserver", "server"]
          technologies := stringValues texts (field payload "tech")
          failed := (field payload "failed").truthy
          error := firstText texts payload ["error", "err"]
          metadata := otherEntries ["timestamp", "url", "input", "title", "scheme", "webserver", "content_type", "method",
            "host", "path", "time", "tech", "status_code", "content_length", "failed", "error", "err", "location",
            "port", "hash", "words", "lines", "knowledgebase", "resolvers", "a", "aaaa", "cname"] payload }
  | _ => .ok none

variable (loads : String → Except LoadError JsonValue)

def parseHttpxLine (line : String) : Except PyError (Option HttpProbeResult) := do
  match ← strippedPayload loads line with
  | none => return none
  | some payload => httpxResult lib texts payload

end Http

/-! ## `recon/workers/crawler.py` -/

structure CrawlResult where
  url : String
  method : String := "GET"
  statusCode : Option ℕ := none
  contentType : Option String := none
  contentLength : Option ℕ := none
  location : Option String := none
  webserver : Option String := none
  source : Option String := none
  tag : Option String := none
  /-- `attribute` -/
  attr : Option String := none
  formFields : List String := []
  fetched : Bool := false
  metadata : Metadata := .empty

section Katana

variable (lib : IdentityLib) (texts : PyTexts)

/-- Keys whose text is the name of a field. -/
def interestingKeys : List String := ["name", "field", "field_name", "input_name"]

/-- Keys behind which fields of a form stand. -/
def formKeys : List String := ["form", "forms", "input", "inputs", "textarea", "select", "fields"]

/-- The name an entry gives to a field. -/
def fieldNameOf (normalizedKey : String) : JsonValue → List String
  | .string s => if normalizedKey ∈ interestingKeys ∧ strip s ≠ "" then [strip s] else []
  | _ => []

/-- `visit` of `extract_form_field_names`, with the frames the interpreter has left for it. -/
def visit : ℕ → Option String → JsonValue → Except PyError (List String)
  | 0, _, _ => .error (.runtimeError "maximum recursion depth exceeded")
  | frames + 1, parentKey, .object items => do
    let names ← (Dict.ofPairs items).entries.mapM fun (key, nested) => do
      let normalizedKey := strLower lib.toTables (strip key)
      let inside ← if parentKey.any (· ∈ formKeys) || normalizedKey ∈ formKeys then
          visit frames (some normalizedKey) nested
        else .ok []
      return fieldNameOf normalizedKey nested ++ inside
    return names.flatten
  | frames + 1, parentKey, .array items => do
    let names ← items.mapM fun nested => visit frames parentKey nested
    return names.flatten
  | _ + 1, _, _ => .ok []

def extractFormFieldNames (frames : ℕ) (payload : JsonObject) : Except PyError (List String) := do
  let names ← (["form", "forms"].filter fun key => key ∈ payload.map Prod.fst).mapM fun key =>
    visit lib frames (some key) (field payload key)
  return sortedSet id names.flatten

/-- `value if isinstance(value, dict) else {}`. -/
def objectOr : JsonValue → JsonObject
  | .object items => items
  | _ => []

/-- The status code of a response, or of the line. -/
def katanaStatus (payload : JsonObject) : JsonValue :=
  let response := objectOr (field payload "response")
  if "status_code" ∈ response.map Prod.fst then field response "status_code" else field payload "status_code"

/-- The content length of a response, or of its headers. -/
def katanaLength (payload : JsonObject) : JsonValue :=
  let response := objectOr (field payload "response")
  if "content_length" ∈ response.map Prod.fst then field response "content_length"
  else field (objectOr (field response "headers")) "content_length"

/-- The URL text of a line. -/
def katanaUrl (payload : JsonObject) : Option String :=
  (firstText texts (objectOr (field payload "request")) ["endpoint", "url"]).or
    (firstText texts payload ["url", "endpoint"])

/-- What `parse_katana_line` makes of an object. -/
def katanaResult (frames : ℕ) (payload : JsonObject) : Except PyError (Option CrawlResult) :=
  let request := objectOr (field payload "request")
  let response := objectOr (field payload "response")
  match katanaUrl texts payload with
  | none => .ok none
  | some rawUrl => do
    match ← exceptValueError (normalizeCrawlUrl lib.toTables rawUrl) with
    | none => return none
    | some url =>
      let statusCode ← parseStatusCode texts (katanaStatus payload)
      let headers := objectOr (field response "headers")
      let contentLength ← parseNonnegativeInt texts (katanaLength payload)
      let formFields ← extractFormFieldNames lib frames payload
      -- the model normalizes the URL once more
      let url ← normalizeCrawlUrl lib.toTables url
      return some {
        url, statusCode, contentLength, formFields
        method := strUpper lib ((firstText texts request ["method"]).getD "GET")
        contentType := (firstText texts headers ["content_type", "content-type"]).or
          (firstText texts response ["content_type"])
        location := (firstText texts headers ["location"]).or (firstText texts response ["location"])
        webserver := (firstText texts headers ["server"]).or (firstText texts response ["server", "webserver"])
        source := firstText texts payload ["source"]
        tag := firstText texts payload ["tag"]
        attr := firstText texts payload ["attribute"]
        fetched := statusCode.isSome
        metadata := otherEntries ["timestamp", "request", "response", "source", "tag", "attribute", "url", "endpoint",
          "status_code", "form", "forms", "body", "raw"] payload }

variable (loads : String → Except LoadError JsonValue)

def parseKatanaLine (frames : ℕ) (line : String) : Except PyError (Option CrawlResult) := do
  match ← strippedPayload loads line with
  | none => return none
  | some payload => katanaResult lib texts frames payload

end Katana

/-! ## `recon/workers/nuclei.py` -/

structure NucleiResult where
  templateId : String
  templatePath : Option String := none
  templateUrl : Option String := none
  name : Option String := none
  severity : Option String := none
  matcherName : Option String := none
  findingType : Option String := none
  host : Option String := none
  matchedAt : Option String := none
  ip : Option String := none
  timestamp : Option String := none
  curlCommandStored : Bool := false
  rawRequestResponseStored : Bool := false

/-- `optional_text`. -/
def optionalTextOf : JsonValue → Option String
  | .string s => if strip s = "" then none else some (strip s)
  | _ => none

/-- What `parse_nuclei_jsonl` makes of an object. -/
def nucleiResult (payload : JsonObject) : Option NucleiResult :=
  let info := objectOr (field payload "info")
  (optionalTextOf ((field payload "template-id").orElse (field payload "template_id"))).map fun templateId => {
    templateId
    templatePath := optionalTextOf ((field payload "template-path").orElse (field payload "template_path"))
    templateUrl := optionalTextOf ((field payload "template-url").orElse (field payload "template_url"))
    name := optionalTextOf ((field info "name").orElse (field payload "name"))
    severity := optionalTextOf ((field info "severity").orElse (field payload "severity"))
    matcherName := optionalTextOf ((field payload "matcher-name").orElse (field payload "matcher_name"))
    findingType := optionalTextOf (field payload "type")
    host := optionalTextOf (field payload "host")
    matchedAt := optionalTextOf ((field payload "matched-at").orElse (field payload "matched_at"))
    ip := optionalTextOf (field payload "ip")
    timestamp := optionalTextOf (field payload "timestamp") }

/-- `parse_nuclei_jsonl`. The line is not stripped here. -/
def parseNucleiJsonl (loads : String → Except LoadError JsonValue) (line : String) :
    Except PyError (Option NucleiResult) := do
  match ← linePayload loads line with
  | none => return none
  | some payload => return nucleiResult payload

end NightScout
