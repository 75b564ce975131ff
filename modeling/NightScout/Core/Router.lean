import NightScout.Core.Events
import NightScout.Core.Task

/-!
# Routing

`Router` of `recon/core/router.py`: which tasks an event asks for. A rule is validated and normalized when
it is made; a router keeps rules of distinct identifiers in the order they were registered. `str.lower` is
a parameter, and so are the identifiers and the clock of the tasks that are built.
-/

namespace NightScout

structure RoutingContext where
  branchId : Option String := none
  priorityBias : ℚ := 0
  disabledWorkers : List String := []
  disabledRules : List String := []

namespace RoutingContext

def workerEnabled (context : RoutingContext) (worker : String) : Bool :=
  worker ∉ context.disabledWorkers

def ruleEnabled (context : RoutingContext) (ruleId : String) : Bool :=
  ruleId ∉ context.disabledRules

end RoutingContext

/-- A predicate of a rule; it may raise. -/
abbrev RoutingPredicate := Event → RoutingContext → Except PyError Bool

def normalizeTags (lower : String → String) (tags : Finset String) : Finset String :=
  (tags.image fun tag => lower (strip tag)).erase ""

structure RouteRule where
  ruleId : Stripped
  accepts : List EventType
  worker : Stripped
  action : Stripped
  reason : Option Stripped := none
  basePriority : ℚ := 0
  requiredTags : Finset String := ∅
  excludedTags : Finset String := ∅
  predicate : Option RoutingPredicate := none
  accepts_ne : accepts ≠ [] := by decide

namespace RouteRule

variable (lower : String → String)

/-- `matches`. -/
def matching (rule : RouteRule) (event : Event) (context : RoutingContext) : Except PyError Bool :=
  if event.type ∉ rule.accepts then .ok false
  else if !context.ruleEnabled rule.ruleId.text then .ok false
  else if !context.workerEnabled rule.worker.text then .ok false
  else if ¬ rule.requiredTags ⊆ normalizeTags lower event.tags then .ok false
  else if 0 < (rule.excludedTags ∩ normalizeTags lower event.tags).card then .ok false
  else
    match rule.predicate with
    | none => .ok true
    | some predicate => predicate event context

/-- `build_task`, with the identifier and the clock of the new task. -/
def buildTask (rule : RouteRule) (event : Event) (context : RoutingContext) (taskId : String)
    (now : Instant) : Except PyError Task :=
  if h : strip event.eventId = "" then .error (.valueError "must not be blank")
  else
    .ok {
      taskId
      worker := rule.worker
      action := rule.action
      inputEventId := ⟨strip event.eventId, strip_strip event.eventId, h⟩
      inputIdentityKey := optionalText event.identityKey
      branchId := context.branchId
      routeRuleId := some rule.ruleId
      routingReason := match rule.reason with
        | some reason => some reason
        | none => optionalText (s!"{event.type.value} event matched route " ++
            s!"{rule.worker.text}:{rule.action.text}")
      priority := rule.basePriority + context.priorityBias
      createdAt := now
      updatedAt := now
      availableAt := now
      lifecycle := by constructor <;> simp }

end RouteRule

structure Router where
  rules : List RouteRule
  /-- "route rule already registered" -/
  ruleIds_nodup : (rules.map fun rule => rule.ruleId.text).Nodup

namespace Router

variable (lower : String → String) (router : Router)

/-- The first of `matching_rules` to raise, or all of them. -/
def selectRules (event : Event) (context : RoutingContext) :
    List RouteRule → Except PyError (List RouteRule)
  | [] => .ok []
  | rule :: rules => do
    let selected ← rule.matching lower event context
    let rest ← selectRules event context rules
    return if selected then rule :: rest else rest

def matchingRules (event : Event) (context : RoutingContext) : Except PyError (List RouteRule) :=
  selectRules lower event context (router.rules.filter fun rule => event.type ∈ rule.accepts)

/-- The tasks of rules, the `i`-th with the `i`-th identifier. -/
def buildTasks (event : Event) (context : RoutingContext) (taskIds : ℕ → String) (now : Instant) :
    ℕ → List RouteRule → Except PyError (List Task)
  | _, [] => .ok []
  | i, rule :: rules => do
    let task ← rule.buildTask event context (taskIds i) now
    let rest ← buildTasks event context taskIds now (i + 1) rules
    return task :: rest

def expand (event : Event) (context : RoutingContext) (taskIds : ℕ → String) (now : Instant) :
    Except PyError (List Task) := do
  let rules ← router.matchingRules lower event context
  buildTasks event context taskIds now 0 rules

/-! ## The tasks of an event -/

/-- New tasks, the first with the `i`-th identifier. -/
def Numbered (taskIds : ℕ → String) : ℕ → List Task → Prop
  | _, [] => True
  | i, task :: tasks =>
    task.taskId = taskIds i ∧ task.status = .pending ∧ Numbered taskIds (i + 1) tasks

variable {lower router} {event : Event} {context : RoutingContext} {taskIds : ℕ → String}
    {now : Instant}

theorem buildTask_ok {rule : RouteRule} {taskId : String} {task : Task}
    (h : rule.buildTask event context taskId now = .ok task) : task.taskId = taskId ∧ task.status = .pending := by
  unfold RouteRule.buildTask at h
  split at h
  · cases h
  · cases h
    exact ⟨rfl, rfl⟩

theorem buildTasks_ok {rules : List RouteRule} {i : ℕ} {tasks : List Task}
    (h : buildTasks event context taskIds now i rules = .ok tasks) :
    tasks.length = rules.length ∧ Numbered taskIds i tasks := by
  induction rules generalizing i tasks with
  | nil =>
    cases h
    exact ⟨rfl, trivial⟩
  | cons rule rules ih =>
    obtain ⟨task, htask, h⟩ := bind_ok h
    obtain ⟨rest, hrest, h⟩ := bind_ok h
    cases h
    obtain ⟨hlength, hnumbered⟩ := ih hrest
    obtain ⟨hid, hstatus⟩ := buildTask_ok htask
    exact ⟨congrArg (· + 1) hlength, hid, hstatus, hnumbered⟩

theorem selectRules_length {rules selected : List RouteRule}
    (h : selectRules lower event context rules = .ok selected) : selected.length ≤ rules.length := by
  induction rules generalizing selected with
  | nil =>
    cases h
    exact le_refl _
  | cons rule rules ih =>
    obtain ⟨b, _, h⟩ := bind_ok h
    obtain ⟨rest, hrest, h⟩ := bind_ok h
    cases h
    have hle := ih hrest
    cases b with
    | false => exact hle.trans (Nat.le_succ _)
    | true => exact Nat.succ_le_succ hle

/-- An event has at most one task a rule. -/
theorem expand_ok {tasks : List Task} (h : router.expand lower event context taskIds now = .ok tasks) :
    tasks.length ≤ router.rules.length ∧ Numbered taskIds 0 tasks := by
  obtain ⟨rules, hrules, h⟩ := bind_ok h
  obtain ⟨hlength, hnumbered⟩ := buildTasks_ok h
  refine ⟨?_, hnumbered⟩
  rw [hlength]
  exact (selectRules_length hrules).trans (List.length_filter_le _ _)

end Router

end NightScout
