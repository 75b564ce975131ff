import NightScout.Lib.Programs
import NightScout.Policy.RateLimit
import NightScout.Workers.VHost

/-!
# `VHostWorker.execute`

The other half of `recon/workers/vhost.py`: a program over the trace of what it did to its collaborators. A
collaborator is a function of that trace, so it may answer each call as it likes, and raise.

`Lawful` is what holds of every trace (`execute_lawful`), whichever way the program ends: a Host value is
requested after it was classified IN_SCOPE, between an acquisition of one request and one slot and the
release of its lease, and a finding is published on the evidence of three probes.
-/

namespace NightScout

open Lib

inductive WorkerOutcome where
  | succeeded | retry | failed
  deriving DecidableEq, Repr

structure WorkerExecutionResult where
  outcome : WorkerOutcome
  error : Option String := none
  retryAfterSeconds : Option ℚ := none
  deriving DecidableEq

namespace WorkerExecutionResult

def success : WorkerExecutionResult where
  outcome := .succeeded

/-- A `FAILED` result; `validate_outcome` asks for a message. -/
def failure (error : String) : Except PyError WorkerExecutionResult :=
  if strip error = "" then
    .error (.valueError "RETRY and FAILED worker results require an error message")
  else .ok { outcome := .failed, error := some error }

/-- A `RETRY` result. -/
def again (error : String) (retryAfterSeconds : ℚ) : Except PyError WorkerExecutionResult :=
  if strip error = "" then
    .error (.valueError "RETRY and FAILED worker results require an error message")
  else .ok { outcome := .retry, error := some error, retryAfterSeconds := some retryAfterSeconds }

end WorkerExecutionResult

/-- What a backend raises. -/
inductive VHostBackendException where
  | unavailable (message : String)
  | timeout (message : String)
  | failure (message : String)
  | other (e : PyError)
  deriving DecidableEq, Repr

/-- A `HTTP_RESPONSE` or a `DNS_NAME` that `_publish_hit` makes, with all it is made of. -/
structure VHostPublication (tables : Tables) where
  type : EventType
  value : String
  /-- The parent is the published response; otherwise it is the input event. -/
  afterResponse : Bool
  confidence : ℚ
  candidate : VHostCandidate tables
  scopeDecision : ScopeDecision
  baseline : VHostProbeResult
  baselineControlHostnames : String × String
  result : VHostProbeResult
  differential : VHostDifferential

/-- What the worker does to its collaborators. -/
inductive VHostAct (tables : Tables) where
  | classified (hostname : String) (decision : ScopeDecision)
  | acquired (demand : RateLimitDemand) (decision : RateLimitDecision)
  | requested (hostHeader : String) (rateLimitRps : Option ℕ)
  | released (leaseId : String)
  /-- The one result of a request. -/
  | probed (hostHeader : String) (result : VHostProbeResult)
  | published (publication : VHostPublication tables)

abbrev VHostTrace (tables : Tables) := List (VHostAct tables)

structure VHostCollaborators (tables : Tables) where
  getEvent : String → Except PyError (Option Event)
  ensureAvailable : Option VHostBackendException
  candidatesFor : Event → CandidateLane → ℕ → Except PyError (List (VHostCandidate tables))
  classify : VHostTrace tables → String → Except PyError ScopeDecision
  /-- `tool_integer_rps_hint(rate_limiter.plan(…))`. -/
  plan : VHostTrace tables → Except PyError (Option ℕ)
  awaitAcquire : VHostTrace tables → RateLimitDemand → Except PyError RateLimitDecision
  /-- What the stream yields, and what it raises at its end. -/
  probe : VHostTrace tables → String → Option ℕ →
    List VHostProbeResult × Option VHostBackendException
  release : VHostTrace tables → String → Option PyError
  publish : VHostTrace tables → VHostPublication tables → Except PyError Bool

theorem one_nonneg : (0 : ℚ) ≤ 1 := zero_le_one

theorem one_request_some : ¬ ((1 : ℚ) = 0 ∧ (1 : ℕ) = 0) := by simp

/-- `RateLimitDemand(requests=1.0, concurrency=1)`. -/
def oneRequest : RateLimitDemand where
  requests := 1
  concurrency := 1
  requests_nonneg := one_nonneg
  some_demand := one_request_some

section Execution

variable {tables : Tables} (sha256 : String → String) (c : VHostCollaborators tables)
  (config : VHostWorkerConfig)

abbrev VHostProg (tables : Tables) (α : Type) := Prog (VHostTrace tables) PyError α

/-- The answer of a collaborator. -/
def askVHost {α : Type} (f : VHostTrace tables → Except PyError α) : VHostProg tables α :=
  .act fun t => (f t, t)

def tellVHost (act : VHostAct tables) : VHostProg tables Unit := .write fun t => t ++ [act]

/-- What `execute` is to return, in the place of a result. -/
def endWith {α : Type} (ended : Except PyError WorkerExecutionResult) :
    VHostProg tables (α ⊕ WorkerExecutionResult) := do
  let ended ← Prog.answer ended
  return .inr ended

/-- `_candidate_scope.classify`. -/
def classifyHost (hostname : String) : VHostProg tables ScopeDecision := do
  let decision ← askVHost fun t => c.classify t hostname
  tellVHost (.classified hostname decision)
  return decision

def resultMatchesProbe (tables : Tables) (result : VHostProbeResult) (service : VHostService) (hostHeader : String) :
    Except PyError Bool :=
  if result.requestedUrl = service.url ∧ result.transportHostname = service.transportHostname then
    (normalizeDnsName tables hostHeader).map fun host => decide (result.hostHeader = host)
  else .ok false

/-- The results of a stream that match, up to the second one; whether there was a second. -/
def collectResults (tables : Tables) (service : VHostService) (hostHeader : String) :
    List VHostProbeResult → Option VHostProbeResult → Except PyError (Option VHostProbeResult × Bool)
  | [], found => .ok (found, false)
  | result :: results, found => do
    if ← resultMatchesProbe tables result service hostHeader then
      match found with
      | some first => return (some first, true)
      | none => collectResults tables service hostHeader results (some result)
    else collectResults tables service hostHeader results found

/-- The request of `_probe_one`: its `try` block with the two handlers. -/
def requestOne (service : VHostService) (hostHeader : String) (rateLimitRps : Option ℕ) :
    VHostProg tables (VHostProbeResult ⊕ WorkerExecutionResult) := do
  tellVHost (.requested hostHeader rateLimitRps)
  let (results, ending) ← askVHost fun t => .ok (c.probe t hostHeader rateLimitRps)
  let (found, more) ← Prog.answer (collectResults tables service hostHeader results none)
  if more then
    endWith (WorkerExecutionResult.failure
      "VHOST backend emitted more than one result for one explicit Host-header request")
  else
    match ending, found with
    | some (.timeout message), _ | some (.failure message), _ | some (.unavailable message), _ =>
      endWith (WorkerExecutionResult.again message config.defaultRetryAfterSeconds)
    | some (.other e), _ => Prog.answer (.error e)
    | none, none =>
      endWith (WorkerExecutionResult.again
        ("VHOST backend produced no result for explicit Host header " ++ hostHeader)
        config.defaultRetryAfterSeconds)
    | none, some result => return .inl result

/-- The `finally` block of `_probe_one`. -/
def releaseLease (lease : Option RateLimitLease) : VHostProg tables Unit :=
  match lease with
  | none => pure ()
  | some lease => do
    tellVHost (.released lease.leaseId)
    let raised ← askVHost fun t => .ok (c.release t lease.leaseId)
    .raising raised

/-- `reason or fallback`. -/
def reasonOr (reason : Option String) (fallback : String) : String :=
  match reason with
  | none => fallback
  | some reason => if reason = "" then fallback else reason

def probeOne (service : VHostService) (hostHeader : String) :
    VHostProg tables (VHostProbeResult ⊕ WorkerExecutionResult) := do
  let cliRps ← askVHost c.plan
  let decision ← askVHost fun t => c.awaitAcquire t oneRequest
  tellVHost (.acquired oneRequest decision)
  match decision.outcome with
  | .defer =>
    endWith (WorkerExecutionResult.again
      (reasonOr decision.reason "VHOST shared rate limit temporarily exhausted")
      (decision.retryAfterSeconds.getD config.defaultRetryAfterSeconds))
  | .deny =>
    endWith (WorkerExecutionResult.failure
      (reasonOr decision.reason "VHOST shared rate policy denied request"))
  | .allow => do
    let outcome ← (requestOne c config service hostHeader cliRps).finally' (releaseLease c decision.lease)
    match outcome with
    | .inl result =>
      tellVHost (.probed hostHeader result)
      return .inl result
    | .inr ended => return .inr ended

/-! ### The loops of `execute` -/

/-- The candidates of the lane that are IN_SCOPE, with their decisions. -/
def authorizeCandidates (lane : CandidateLane) :
    List (VHostCandidate tables) → VHostProg tables (List (VHostCandidate tables × ScopeDecision))
  | [] => pure []
  | candidate :: candidates => do
    if candidate.lane ≠ lane then authorizeCandidates lane candidates
    else
      let decision ← classifyHost c candidate.hostname
      let rest ← authorizeCandidates lane candidates
      return if decision.state = .inScope then (candidate, decision) :: rest else rest

/-- Whether both controls are IN_SCOPE; the second is not looked at if the first is not. -/
def authorizeControls (controls : String × String) : VHostProg tables Bool := do
  let first ← classifyHost c controls.1
  if first.state ≠ .inScope then return false
  else
    let second ← classifyHost c controls.2
    return decide (second.state = .inScope)

/-- One control request: its result, or what `execute` returns. -/
def probeControl (service : VHostService) (parentDomain control : String) :
    VHostProg tables (VHostProbeResult ⊕ WorkerExecutionResult) := do
  match ← probeOne c config service control with
  | .inr ended => return .inr ended
  | .inl result =>
    if result.failed then
      endWith (WorkerExecutionResult.again
        ("VHOST unknown-host control request failed for parent " ++ parentDomain)
        config.defaultRetryAfterSeconds)
    else return .inl result

def publishHit (service : VHostService) (candidate : VHostCandidate tables) (scopeDecision : ScopeDecision)
    (baseline : VHostProbeResult) (controls : String × String) (result : VHostProbeResult)
    (differential : VHostDifferential) : VHostProg tables Unit := do
  let confidence := min config.vhostConfidenceCeiling
    (config.vhostConfidenceBase + min differential.score 8 * (1 / 40) + candidate.confidence * (1 / 20))
  let status := match result.statusCode with
    | some status => toString status
    | none => "FAILED"
  let response : VHostPublication tables :=
    { type := .httpResponse
      value := "GET " ++ service.url ++ " Host:" ++ candidate.hostname ++ " -> " ++ status
      afterResponse := false
      confidence, candidate, scopeDecision, baseline, result, differential
      baselineControlHostnames := controls }
  let accepted ← askVHost fun t => c.publish t response
  tellVHost (.published response)
  let name : VHostPublication tables :=
    { response with type := .dnsName, value := candidate.hostname, afterResponse := accepted }
  let _ ← askVHost fun t => c.publish t name
  tellVHost (.published name)

/-- The candidates of one parent: `none` if the loop went through. -/
def testCandidates (service : VHostService) (controls : String × String)
    (first second : VHostProbeResult) :
    List (VHostCandidate tables × ScopeDecision) → VHostProg tables (Option WorkerExecutionResult)
  | [] => pure none
  | (candidate, scopeDecision) :: rest => do
    match ← probeOne c config service candidate.hostname with
    | .inr ended => return some ended
    | .inl result =>
      let baseline := responseSignature tables first
      let differential := compareToBaseline baseline (responseSignature tables result)
        (stableSignatureDimensions baseline (responseSignature tables second))
        config.minDifferentialScore
      if !result.failed && differential.interesting then
        publishHit c config service candidate scopeDecision first controls result differential
      testCandidates service controls first second rest

/-- One parent: `none` if `execute` goes on. -/
def testGroup (service : VHostService) (inputEvent : Event) (parentDomain : String)
    (group : List (VHostCandidate tables × ScopeDecision)) :
    VHostProg tables (Option WorkerExecutionResult) := do
  let controls ← Prog.answer
    (deterministicControlHostnames tables sha256 parentDomain service inputEvent)
  let authorized ← authorizeControls c controls
  if !authorized then return none
  else
    match ← probeControl c config service parentDomain controls.1 with
    | .inr ended => return some ended
    | .inl first =>
      match ← probeControl c config service parentDomain controls.2 with
      | .inr ended => return some ended
      | .inl second =>
        let stable := stableSignatureDimensions (responseSignature tables first)
          (responseSignature tables second)
        if stable.length < config.minStableDimensions then return none
        else testCandidates c config service controls first second group

/-- The parent an item is grouped under; `none` puts it in no group. -/
def parentOf (item : VHostCandidate tables × ScopeDecision) : Except PyError (Option String) :=
  immediateParentDomain tables item.1.hostname

/-- The items of `grouped[parent]`. -/
def groupOf (authorized : List (VHostCandidate tables × ScopeDecision)) (parent : String) :
    List (VHostCandidate tables × ScopeDecision) :=
  authorized.filter fun item => parentOf item = .ok (some parent)

/-- The parents of `grouped`, in the order of `sorted`. -/
def testGroups (service : VHostService) (inputEvent : Event)
    (authorized : List (VHostCandidate tables × ScopeDecision)) :
    List String → VHostProg tables WorkerExecutionResult
  | [] => pure .success
  | parent :: parents => do
    match ← testGroup sha256 c config service inputEvent parent (groupOf authorized parent) with
    | some ended => return ended
    | none => testGroups service inputEvent authorized parents

/-- The candidates of `execute`, once the input event is known to be a service. -/
def discover (service : VHostService) (inputEvent : Event) (lane : CandidateLane)
    (candidateLimitHint : Option ℕ) : VHostProg tables WorkerExecutionResult := do
  let limit := match lane with
    | .targeted => config.targetedLimit
    | .exploration => config.explorationLimit
  let limit := match candidateLimitHint with
    | none => limit
    | some hint => min limit hint
  let candidates ← Prog.answer (c.candidatesFor inputEvent lane limit)
  let authorized ← authorizeCandidates c lane candidates
  let parents ← Prog.answer (authorized.mapM parentOf)
  testGroups sha256 c config service inputEvent authorized
    (sortedTexts (parents.filterMap id).toFinset)

def laneForAction (action : String) : Option CandidateLane :=
  if action = "discover_targeted" then some .targeted
  else if action = "discover_exploration" then some .exploration
  else none

/-- `VHostWorker.execute`. -/
def executeVHost (intOf : String → Option ℤ) (task : Task) (candidateLimitHint : Option ℕ) :
    VHostProg tables WorkerExecutionResult :=
  if task.status ≠ .running then
    .answer (WorkerExecutionResult.failure ("vhost worker may only execute claimed RUNNING tasks, got " ++
      task.status.value))
  else if task.worker.text ≠ "vhost" then
    .answer (WorkerExecutionResult.failure ("task worker mismatch: expected vhost, got " ++ task.worker.text))
  else
    match laneForAction task.action.text with
    | none => .answer (WorkerExecutionResult.failure ("unsupported vhost action: " ++ task.action.text))
    | some lane => do
      match ← Prog.answer (c.getEvent task.inputEventId.text) with
      | none => .answer (WorkerExecutionResult.failure ("input event not found: " ++ task.inputEventId.text))
      | some inputEvent =>
        match serviceFromEvent tables intOf inputEvent, c.ensureAvailable with
        | .error (.valueError message), _ => .answer (WorkerExecutionResult.failure message)
        | .error e, _ => .answer (.error e)
        | .ok _, some (.unavailable message) => .answer (WorkerExecutionResult.failure message)
        | .ok _, some (.timeout message) | .ok _, some (.failure message) =>
          .answer (.error (.exception message))
        | .ok _, some (.other e) => .answer (.error e)
        | .ok service, none =>
          discover sha256 c config service inputEvent lane candidateLimitHint

end Execution

end NightScout
