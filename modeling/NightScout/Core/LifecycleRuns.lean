import NightScout.Core.Lifecycle

/-!
# What the lifecycle does to the queue and to the budgets

`effects` of a trace are its calls to them, in order. `Obeys` is about every trace, whatever the collaborators
answer and whichever way the program ends: an effect is one the rule allows after the acts before it. The laws of
the end are about a program that returns.
-/

namespace NightScout

open Lib

def LifecycleCall.isEffect : LifecycleCall → Bool
  | .reserve _ | .release _ | .commit _ | .claim _ | .queue _ => true
  | _ => false

def effects (t : LifecycleTrace) : LifecycleTrace := t.filter fun act => act.call.isEffect

inductive Obeys (rule : LifecycleTrace → LifecycleAct → Prop) : LifecycleTrace → Prop
  | nil : Obeys rule []
  | idle {t : LifecycleTrace} {a : LifecycleAct} : Obeys rule t → a.call.isEffect = false → Obeys rule (t ++ [a])
  | effect {t : LifecycleTrace} {a : LifecycleAct} : Obeys rule t → rule t a → Obeys rule (t ++ [a])

/-- The gate allowed the task, or asked for a review that the coordinator has approved. -/
def GatePassed (t : LifecycleTrace) (gate : String) : Prop :=
  ∃ decision, ⟨.evaluate gate, .ok decision⟩ ∈ t ∧
    (decision.outcome = .allow ∨ decision.outcome = .review ∧ decision.reviewCaseId = none ∧
      ⟨.approvedFor gate (reasonOr decision.reason "manual review required"), .ok true⟩ ∈ t)

theorem GatePassed.append {t : LifecycleTrace} {gate : String} (h : GatePassed t gate) (t' : LifecycleTrace) :
    GatePassed (t ++ t') gate := by
  obtain ⟨decision, hmem, h⟩ := h
  refine ⟨decision, List.mem_append_left _ hmem, h.imp_right fun ⟨hreview, hcase, happroved⟩ => ?_⟩
  exact ⟨hreview, hcase, List.mem_append_left _ happroved⟩

/-! ## Steps -/

section Steps

variable {c : LifecycleServices} {rule : LifecycleTrace → LifecycleAct → Prop} {done : List String}
  {acts t : LifecycleTrace} {k : LifecycleCall}

/-- A trace that has obeyed, with the gates it has passed and its effects. -/
structure Stage (rule : LifecycleTrace → LifecycleAct → Prop) (done : List String) (acts t : LifecycleTrace) :
    Prop where
  obeys : Obeys rule t
  passed : ∀ gate ∈ done, GatePassed t gate
  effects_eq : effects t = acts

theorem Stage.idle (h : Stage rule done acts t) {a : LifecycleAct} (hidle : a.call.isEffect = false) :
    Stage rule done acts (t ++ [a]) where
  obeys := h.obeys.idle hidle
  passed gate hgate := (h.passed gate hgate).append _
  effects_eq := by
    rw [effects, List.filter_append, List.filter_singleton, hidle, ← h.effects_eq]
    exact List.append_nil _

theorem Stage.effect (h : Stage rule done acts t) {a : LifecycleAct} (heffect : a.call.isEffect = true)
    (hrule : rule t a) : Stage rule done (acts ++ [a]) (t ++ [a]) where
  obeys := h.obeys.effect hrule
  passed gate hgate := (h.passed gate hgate).append _
  effects_eq := by
    rw [effects, List.filter_append, List.filter_singleton, heffect, ← h.effects_eq]
    rfl

theorem post_ask {E : PyError → LifecycleTrace → Prop} {Q : k.Reply → LifecycleTrace → Prop}
    (hok : ∀ a, Q a (t ++ [⟨k, .ok a⟩])) (herror : ∀ e, E e (t ++ [⟨k, .error e⟩])) : Post Q E ((ask c k).exec t) := by
  show Post Q E (c.answer t k, t ++ [⟨k, c.answer t k⟩])
  cases c.answer t k with
  | ok a => exact hok a
  | error e => exact herror e

theorem post_trying {α : Type} {p : LifecycleProg α} {E : PyError → LifecycleTrace → Prop}
    {R : Except PyError α → LifecycleTrace → Prop} (hp : Post (fun a => R (.ok a)) (fun e => R (.error e)) (p.exec t))
    (hE : ∀ e t', R (.error e) t' → E e t') : Post R E ((trying p).exec t) := by
  show Post R E (caught (p.exec t).1, (p.exec t).2)
  cases hrun : p.exec t with
  | mk r t' =>
    rw [hrun] at hp
    cases r with
    | ok a => exact hp
    | error e =>
      show Post R E (if e.isKeyOrValue then Except.ok (Except.error e) else Except.error e, t')
      split
      · exact hp
      · exact hE e t' hp

abbrev StillObeys (rule : LifecycleTrace → LifecycleAct → Prop) : PyError → LifecycleTrace → Prop := fun _ => Obeys rule

variable {E : PyError → LifecycleTrace → Prop}

theorem ask_idle (h : Stage rule done acts t) (hidle : k.isEffect = false)
    (hE : ∀ e t', Stage rule done acts t' → E e t' := by exact fun _ _ h => h.obeys) :
    Post (fun a t' => t' = t ++ [⟨k, .ok a⟩] ∧ Stage rule done acts t') E ((ask c k).exec t) :=
  post_ask (fun _ => ⟨rfl, h.idle hidle⟩) fun e => hE e _ (h.idle hidle)

theorem ask_effect (h : Stage rule done acts t) (heffect : k.isEffect = true) (hrule : ∀ reply, rule t ⟨k, reply⟩) :
    Post (fun a t' => Stage rule done (acts ++ [⟨k, .ok a⟩]) t') (StillObeys rule) ((ask c k).exec t) :=
  post_ask (fun _ => h.effect heffect (hrule _)) fun _ => h.obeys.effect (hrule _)

/-- An effect whose refusal is caught. -/
theorem try_effect (h : Stage rule done acts t) (heffect : k.isEffect = true) (hrule : ∀ reply, rule t ⟨k, reply⟩)
    (hE : ∀ e t', Stage rule done (acts ++ [⟨k, .error e⟩]) t' → E e t' := by exact fun _ _ h => h.obeys) :
    Post (fun r t' => Stage rule done (acts ++ [⟨k, r⟩]) t') E ((trying (ask c k)).exec t) :=
  post_trying (post_ask (fun a => h.effect heffect (hrule (.ok a))) fun e => h.effect heffect (hrule (.error e))) hE

theorem post_answer {α β : Type} {r : Except PyError α} {f : α → LifecycleProg β} {Q : β → LifecycleTrace → Prop}
    (h : Stage rule done acts t) (hf : ∀ a, Post Q (StillObeys rule) ((f a).exec t)) :
    Post Q (StillObeys rule) ((Prog.answer r >>= f).exec t) := by
  cases r with
  | ok a => exact hf a
  | error e => exact h.obeys

theorem complete_idle (h : Stage rule done acts t) {attemptId : Option String} {result : LifecycleResult}
    (hE : ∀ e t', Stage rule done acts t' → E e t' := by exact fun _ _ h => h.obeys) :
    Post (fun r t' => r = result ∧ Stage rule done acts t') E ((complete c attemptId result).exec t) := by
  cases attemptId with
  | none => exact ⟨rfl, h⟩
  | some id =>
    refine Post.bind (ask_idle h (k := .finish id result) rfl hE) fun _ t' h' => ?_
    exact ⟨rfl, h'.2⟩

end Steps

/-! ## Admission -/

/-- What a task that is put away is reported as. -/
def QueueOp.waits? : QueueOp → Option LifecycleOutcome
  | .defer .. => some .deferred
  | .sendToReview .. => some .review
  | .block .. => some .blocked
  | _ => none

def BudgetDecision.reservationId (decision : BudgetDecision) : Option String :=
  decision.reservation.map fun r => r.reservationId

def admissionRule (gates : List String) (before : LifecycleTrace) : LifecycleAct → Prop
  | ⟨.reserve _, _⟩ => effects before = [] ∧ ∀ gate ∈ gates, GatePassed before gate
  | ⟨.claim _, _⟩ => ∃ plan decision, effects before = [⟨.reserve plan, .ok decision⟩] ∧ decision.outcome = .allow
  | ⟨.queue op, _⟩ => op.waits? ≠ none ∧ (effects before = [] ∨
      ∃ plan decision, effects before = [⟨.reserve plan, .ok decision⟩] ∧ decision.outcome ≠ .allow)
  | ⟨.release id, _⟩ => ∃ plan decision taskId e,
      effects before = [⟨.reserve plan, .ok decision⟩, ⟨.claim taskId, .error e⟩] ∧ decision.reservationId = some id
  | _ => False

/-- How an admission ends, by its effects. -/
def AdmissionEnd (acts : LifecycleTrace) : DispatchTicket ⊕ LifecycleResult → Prop
  | .inl ticket => ∃ plan decision taskId, acts = [⟨.reserve plan, .ok decision⟩, ⟨.claim taskId, .ok ticket.task⟩] ∧
      ticket.reservationId = decision.reservationId
  | .inr result =>
    (result.outcome = .stale ∧ (acts = [] ∨ ∃ plan decision taskId e,
      acts = ⟨.reserve plan, .ok decision⟩ :: ⟨.claim taskId, .error e⟩ ::
        (decision.reservationId.map fun id => ⟨.release id, .ok ()⟩).toList)) ∨
    ∃ op put, acts.getLast? = some ⟨.queue op, .ok put⟩ ∧ op.waits? = some result.outcome ∧
      result.queueStatus = some put.status

section Admission

variable {c : LifecycleServices} {rule : LifecycleTrace → LifecycleAct → Prop} {done : List String}
  {acts t : LifecycleTrace} {task : Task} {schedule : ScheduleDecision}

abbrev Admitting (c : LifecycleServices) : List String → LifecycleTrace → LifecycleTrace → Prop :=
  Stage (admissionRule c.gates)

abbrev Refused (c : LifecycleServices) : PyError → LifecycleTrace → Prop := StillObeys (admissionRule c.gates)

theorem startAttempt_idle (h : Stage rule done acts t) :
    Post (fun _ => Stage rule done acts) (StillObeys rule) ((startAttempt c).exec t) := by
  unfold startAttempt
  split
  · exact post_ask (k := .start) (fun _ => h.idle rfl) fun e => h.obeys.idle (a := ⟨.start, .error e⟩) rfl
  · exact h

/-- The task is put away. -/
def PutAway (c : LifecycleServices) (result : LifecycleResult) (t : LifecycleTrace) : Prop :=
  ∃ acts op put, Admitting c [] (acts ++ [⟨.queue op, .ok put⟩]) t ∧
    op.waits? = some result.outcome ∧ result.queueStatus = some put.status

theorem putAway_stage (h : Admitting c done acts t) {op : QueueOp} {reported : LifecycleOutcome}
    (hop : op.waits? = some reported)
    (hacts : acts = [] ∨ ∃ plan decision, acts = [⟨.reserve plan, .ok decision⟩] ∧ decision.outcome ≠ .allow) :
    Post (fun put t' => Admitting c [] (acts ++ [⟨.queue op, .ok put⟩]) t') (Refused c)
      ((ask c (.queue op)).exec t) :=
  have hstage : Admitting c [] acts t := ⟨h.obeys, fun _ h => absurd h List.not_mem_nil, h.effects_eq⟩
  ask_effect hstage rfl fun _ => ⟨fun hnone => Option.some_ne_none _ (hop.symm.trans hnone), h.effects_eq ▸ hacts⟩

theorem reviewCase_stage (h : Stage rule done acts t) {gate : String} {decision : GateDecision}
    (hmem : ⟨.evaluate gate, .ok decision⟩ ∈ t) (hreview : decision.outcome = .review) :
    Post (fun r t' => Stage rule done acts t' ∧ (r = none → GatePassed t' gate)) (StillObeys rule)
      ((reviewCase c gate (reasonOr decision.reason "manual review required") decision).exec t) := by
  unfold reviewCase
  split
  · exact ⟨h, fun hnone => by cases hnone⟩
  · rename_i hcase
    split
    · refine Post.bind (ask_idle h (k := .approvedFor ..) rfl) fun approved t' ⟨ht', h'⟩ => ?_
      split
      · rename_i happroved
        refine ⟨h', fun _ => ⟨decision, ht' ▸ List.mem_append_left _ hmem, .inr ⟨hreview, hcase, ?_⟩⟩⟩
        rw [ht', happroved]
        exact List.mem_append_right _ List.mem_cons_self
      · refine Post.bind (ask_idle h' (k := .openCase ..) rfl) fun caseId t'' h'' => ?_
        exact ⟨h''.2, fun hnone => by cases hnone⟩
    · exact ⟨h, fun hnone => by cases hnone⟩

/-- **Gate by gate**: those that are gone through have passed the task, and the one that stops it has put it away. -/
theorem applyGates_stage {gates : List String} (h : Admitting c done [] t) :
    Post (fun r t' => match r with
      | none => Admitting c (done ++ gates) [] t'
      | some result => PutAway c result t') (Refused c)
      ((applyGates c task schedule gates).exec t) := by
  induction gates generalizing done t with
  | nil => exact (List.append_nil done).symm ▸ h
  | cons gate gates ih =>
    have hnext {t' : LifecycleTrace} (h' : Admitting c done [] t') (hpassed : GatePassed t' gate) :
        Admitting c (done ++ [gate]) [] t' :=
      { h' with passed := fun other hother => (List.mem_append.mp hother).elim (h'.passed other) fun hsame =>
          List.mem_singleton.mp hsame ▸ hpassed }
    simp only [List.append_cons done gate gates]
    refine Post.bind (ask_idle h (k := .evaluate gate) rfl) fun decision t' ⟨ht', h'⟩ => ?_
    have hmem : ⟨.evaluate gate, .ok decision⟩ ∈ t' := ht' ▸ List.mem_append_right _ List.mem_cons_self
    split
    · rename_i hallow
      exact ih (hnext h' ⟨decision, hmem, .inl hallow⟩)
    · refine post_answer h' fun delay => Post.bind (putAway_stage h' rfl (.inl rfl)) fun put t'' h'' => ?_
      exact ⟨[], _, put, h'', rfl, rfl⟩
    · rename_i hreview
      refine Post.bind (reviewCase_stage h' hmem hreview) fun r t'' ⟨h'', hpassed⟩ => ?_
      split
      · exact ih (hnext h'' (hpassed rfl))
      · refine Post.bind (putAway_stage h'' rfl (.inl rfl)) fun put t3 h3 => ?_
        exact ⟨[], _, put, h3, rfl, rfl⟩
    · refine Post.bind (putAway_stage h' rfl (.inl rfl)) fun put t'' h'' => ?_
      exact ⟨[], _, put, h'', rfl, rfl⟩

/-- How an admission that returns has ended. -/
def AdmissionEnded (c : LifecycleServices) (outcome : DispatchTicket ⊕ LifecycleResult) (t : LifecycleTrace) : Prop :=
  Obeys (admissionRule c.gates) t ∧ AdmissionEnd (effects t) outcome

theorem PutAway.ended {result : LifecycleResult} (h : PutAway c result t) : AdmissionEnded c (.inr result) t := by
  obtain ⟨acts, op, put, hstage, hop, hstatus⟩ := h
  refine ⟨hstage.obeys, .inr ⟨op, put, ?_, hop, hstatus⟩⟩
  rw [hstage.effects_eq, List.getLast?_concat]

theorem claimTask_ended {plan : BudgetPlan} {decision : BudgetDecision} (hallow : decision.outcome = .allow)
    (h : Admitting c done [⟨.reserve plan, .ok decision⟩] t) :
    Post (AdmissionEnded c) (Refused c) ((claimTask c task schedule decision.reservationId).exec t) := by
  refine Post.bind (startAttempt_idle h) fun attemptId t' h' => ?_
  refine Post.bind (try_effect h' (k := .claim task.taskId) rfl fun _ => ⟨plan, decision, h'.effects_eq, hallow⟩)
    fun r t'' h'' => ?_
  cases r with
  | error e =>
    -- the reservation goes back before anything else is asked
    have hrelease : Post (fun _ => Admitting c done (⟨.reserve plan, .ok decision⟩ ::
        ⟨.claim task.taskId, .error e⟩ :: (decision.reservationId.map fun id => ⟨.release id, .ok ()⟩).toList))
        (Refused c) ((releaseReservation c decision.reservationId).exec t'') := by
      cases hreservation : decision.reservationId with
      | none => exact h''
      | some id =>
        exact ask_effect h'' (k := .release id) rfl fun _ => ⟨plan, decision, _, e, h''.effects_eq, hreservation⟩
    refine Post.bind hrelease fun _ t3 h3 => ?_
    refine Post.bind (ask_idle h3 (k := .get task.taskId) rfl) fun current t4 h4 => ?_
    refine Post.bind (complete_idle h4.2) fun result t5 ⟨hresult, h5⟩ => ?_
    exact ⟨h5.obeys, .inl ⟨hresult ▸ rfl, .inr ⟨plan, decision, _, e, h5.effects_eq⟩⟩⟩
  | ok running =>
    simp only
    split
    · exact ⟨h''.obeys, plan, decision, _, h''.effects_eq, rfl⟩
    · exact h''.obeys

theorem fundTask_ended (h : Admitting c c.gates [] t) :
    Post (AdmissionEnded c) (Refused c) ((fundTask c task schedule).exec t) := by
  refine Post.bind (ask_idle h (k := .plan) rfl) fun plan t' ⟨_, h'⟩ => ?_
  refine Post.bind (ask_effect h' (k := .reserve plan) rfl fun _ => ⟨h'.effects_eq, h'.passed⟩)
    fun decision t'' h'' => ?_
  split
  · rename_i hallow
    exact claimTask_ended hallow h''
  · rename_i hdefer
    have hrefused : decision.outcome ≠ .allow := fun hallow => by cases hdefer.symm.trans hallow
    refine post_answer h'' fun delay => Post.bind (putAway_stage h'' rfl (.inr ⟨plan, decision, rfl, hrefused⟩))
      fun put t3 h3 => ?_
    exact PutAway.ended ⟨_, _, put, h3, rfl, rfl⟩
  · rename_i hdeny
    have hrefused : decision.outcome ≠ .allow := fun hallow => by cases hdeny.symm.trans hallow
    refine Post.bind (startAttempt_idle h'') fun attemptId t3 h3 => ?_
    refine Post.bind (putAway_stage h3 rfl (.inr ⟨plan, decision, rfl, hrefused⟩)) fun put t4 h4 => ?_
    refine Post.bind (complete_idle h4) fun result t5 ⟨hresult, h5⟩ => ?_
    exact PutAway.ended ⟨_, _, put, h5, hresult ▸ rfl, hresult ▸ rfl⟩

/-- **Admission is safe.** Whatever the collaborators answer: budget is asked for only after every gate has passed the
    task, the task is claimed only on a granted budget, and it is put away only without one. An admission that returns
    keeps no reservation but that of its ticket, and reports what it did. -/
theorem admission_safe (c : LifecycleServices) (schedule : ScheduleDecision) :
    Post (fun outcome t => Obeys (admissionRule c.gates) t ∧ AdmissionEnd (effects t) outcome)
      (fun _ => Obeys (admissionRule c.gates)) ((admitTask c schedule).exec []) := by
  have h : Admitting c [] [] [] := ⟨.nil, fun _ h => absurd h List.not_mem_nil, rfl⟩
  refine Post.bind (ask_idle h (k := .get schedule.taskId) rfl) fun found t ⟨_, h⟩ => ?_
  have hstale : AdmissionEnd (effects t) = AdmissionEnd [] := congrArg _ h.effects_eq
  cases found with
  | none => exact ⟨h.obeys, hstale ▸ .inl ⟨rfl, .inl rfl⟩⟩
  | some task =>
    simp only
    split
    · exact ⟨h.obeys, hstale ▸ .inl ⟨rfl, .inl rfl⟩⟩
    · refine Post.bind (applyGates_stage h) fun r t' h' => ?_
      cases r with
      | none => exact fundTask_ended h'
      | some stopped =>
        obtain ⟨acts, op, put, hstage, hop, hstatus⟩ := h'
        refine Post.bind (startAttempt_idle hstage) fun attemptId t3 h3 => ?_
        refine Post.bind (complete_idle h3) fun result t4 ⟨hresult, h4⟩ => ?_
        exact PutAway.ended ⟨acts, op, put, h4, hresult ▸ hop, hresult ▸ hstatus⟩

end Admission

/-! ## Execution -/

namespace SupervisedEnd

def succeeded : SupervisedEnd → Bool
  | returned execution => execution.outcome = .succeeded
  | _ => false

/-- The ends for which an exception of the commit is suppressed. -/
def quiet : SupervisedEnd → Bool
  | heartbeatLost _ | cancelled _ => true
  | _ => false

/-- The worker asked for a retry after a time that is no `timedelta`. -/
def Overflows (ended : SupervisedEnd) : Prop :=
  ∃ execution e, ended = returned execution ∧ execution.outcome = .retry ∧
    timedeltaSeconds (execution.retryAfterSeconds.getD 0) = .error e

end SupervisedEnd

/-- The commit of the reservation comes first, if there is one, and then the one call that ends the claim. -/
def executionRule (ticket : DispatchTicket) (ended : SupervisedEnd) (before : LifecycleTrace) : LifecycleAct → Prop
  | ⟨.commit id, _⟩ => ticket.reservationId = some id ∧ effects before = []
  | ⟨.queue op, _⟩ => (effects before).map LifecycleAct.call = (ticket.reservationId.map .commit).toList ∧
      op.taskId = ticket.task.taskId ∧ op.claimToken? = some ticket.token.text ∧
      (op = .succeed ticket.task.taskId ticket.token.text ↔ ended.succeeded = true)
  | _ => False

/-- How an execution ends. -/
def ExecutionEnd (ticket : DispatchTicket) (ended : SupervisedEnd) (acts : LifecycleTrace) :
    Except PyError LifecycleResult → Prop
  | .ok result => result.claimed = true ∧ result.executionAttempt = some ticket.task.attempts ∧
      ∃ op reply, acts.getLast? = some ⟨.queue op, reply⟩ ∧ (result.outcome = .stale ∨
        ∃ task, reply = .ok task ∧ result.queueStatus = some task.status ∧
          (result.outcome = .succeeded ↔ ended.succeeded = true))
  | .error _ => (∃ op reply, acts.getLast? = some ⟨.queue op, reply⟩) ∨
      (∃ id e, acts = [⟨.commit id, .error e⟩] ∧ (ended.quiet = true → e.isException = false)) ∨ ended.Overflows

section Execution

variable {c : LifecycleServices} {ticket : DispatchTicket} {ended : SupervisedEnd} {acts t : LifecycleTrace}
  {op : QueueOp}

abbrev Executing (ticket : DispatchTicket) (ended : SupervisedEnd) : LifecycleTrace → LifecycleTrace → Prop :=
  Stage (executionRule ticket ended) []

abbrev Finished (ticket : DispatchTicket) (ended : SupervisedEnd) (r : Except PyError LifecycleResult)
    (t : LifecycleTrace) : Prop :=
  Obeys (executionRule ticket ended) t ∧ ExecutionEnd ticket ended (effects t) r

/-- The reservation is committed, or its exception was suppressed. -/
def Committed (ticket : DispatchTicket) (ended : SupervisedEnd) (t : LifecycleTrace) : Prop :=
  ∃ acts, Executing ticket ended acts t ∧
    acts.map LifecycleAct.call = (ticket.reservationId.map .commit).toList

theorem finished_of_stage {reply : Except PyError Task} (e : PyError)
    (h : Executing ticket ended (acts ++ [⟨.queue op, reply⟩]) t) : Finished ticket ended (.error e) t :=
  ⟨h.obeys, .inl ⟨op, reply, by rw [h.effects_eq, List.getLast?_concat]⟩⟩

theorem completeClaimed_finished {reply : Except PyError Task} {result : LifecycleResult}
    (h : Executing ticket ended (acts ++ [⟨.queue op, reply⟩]) t)
    (hresult : result.outcome = .stale ∨ ∃ task, reply = .ok task ∧ result.queueStatus = some task.status ∧
      (result.outcome = .succeeded ↔ ended.succeeded = true)) :
    Post (fun r t' => Executing ticket ended (acts ++ [⟨.queue op, reply⟩]) t' ∧
      Finished ticket ended (.ok r) t') (fun _ => Executing ticket ended (acts ++ [⟨.queue op, reply⟩]))
      ((completeClaimed c ticket result).exec t) := by
  refine (complete_idle h fun _ _ h => h).mono (fun r t' ⟨hr, h'⟩ => ⟨h', h'.obeys, ?_⟩) fun _ _ h => h
  subst hr
  exact ⟨rfl, rfl, op, reply, by rw [h'.effects_eq, List.getLast?_concat], hresult⟩

theorem completeStale_finished {reply : Except PyError Task} {e : PyError}
    (h : Executing ticket ended (acts ++ [⟨.queue op, reply⟩]) t) :
    Post (fun r => Finished ticket ended (.ok r)) (fun e => Finished ticket ended (.error e))
      ((completeStale c ticket e).exec t) := by
  refine Post.bind (ask_idle h (k := .get ticket.task.taskId) rfl fun e _ => finished_of_stage e) fun _ t' h' => ?_
  exact (completeClaimed_finished h'.2 (.inl rfl)).mono (fun _ _ h => h.2) fun e _ => finished_of_stage e

theorem finalize_finished (h : Committed ticket ended t) {report : Task → LifecycleResult}
    (hop : op.taskId = ticket.task.taskId ∧ op.claimToken? = some ticket.token.text ∧
      (op = .succeed ticket.task.taskId ticket.token.text ↔ ended.succeeded = true))
    (hreport : ∀ task, (report task).queueStatus = some task.status ∧
      ((report task).outcome = .succeeded ↔ ended.succeeded = true)) :
    Post (fun r => Finished ticket ended (.ok r)) (fun e => Finished ticket ended (.error e))
      ((finalize c ticket op report).exec t) := by
  obtain ⟨acts, h, hacts⟩ := h
  refine Post.bind (try_effect h (k := .queue op) rfl (fun _ => ⟨h.effects_eq ▸ hacts, hop⟩)
    fun e _ => finished_of_stage e) fun r t' h' => ?_
  cases r with
  | error e => exact completeStale_finished h'
  | ok task =>
    exact (completeClaimed_finished h' (.inr ⟨task, rfl, hreport task⟩)).mono (fun _ _ h => h.2)
      fun e _ => finished_of_stage e

theorem commitReservation_stage (h : Executing ticket ended [] t) :
    Post (fun _ => Committed ticket ended) (fun e t' => ∃ id, ticket.reservationId = some id ∧
      Executing ticket ended [⟨.commit id, .error e⟩] t') ((commitReservation c ticket).exec t) := by
  unfold commitReservation
  cases hreservation : ticket.reservationId with
  | none => exact ⟨[], h, by rw [hreservation]; rfl⟩
  | some id =>
    have hcommit (reply : Except PyError Unit) := h.effect (a := ⟨.commit id, reply⟩) rfl ⟨hreservation, h.effects_eq⟩
    exact post_ask (k := .commit id) (fun a => ⟨_, hcommit (.ok a), by rw [hreservation]; rfl⟩)
      fun e => ⟨id, rfl, hcommit (.error e)⟩

theorem commitReservation_finished (h : Executing ticket ended [] t) (hloud : ended.quiet = false) :
    Post (fun _ => Committed ticket ended) (fun e => Finished ticket ended (.error e))
      ((commitReservation c ticket).exec t) := by
  refine (commitReservation_stage h).mono (fun _ _ h => h) fun e t' ⟨id, _, h'⟩ => ⟨h'.obeys, .inr (.inl ?_)⟩
  exact ⟨id, e, h'.effects_eq, fun hquiet => by rw [hloud] at hquiet; cases hquiet⟩

theorem commitQuietly_finished (h : Executing ticket ended [] t) :
    Post (fun _ => Committed ticket ended) (fun e => Finished ticket ended (.error e))
      ((commitQuietly c ticket).exec t) := by
  have hcommit := commitReservation_stage (c := c) h
  unfold commitQuietly Prog.catching
  rw [Prog.exec_act]
  cases hrun : (commitReservation c ticket).exec t with
  | mk r t' =>
    rw [hrun] at hcommit
    cases r with
    | ok a => exact hcommit
    | error e =>
      obtain ⟨id, hreservation, h'⟩ := hcommit
      simp only
      split
      · exact ⟨_, h', by rw [hreservation]; rfl⟩
      · rename_i hraised
        exact ⟨h'.obeys, .inr (.inl ⟨id, e, h'.effects_eq, fun _ => Bool.eq_false_iff.mpr hraised⟩)⟩

/-- A call that fails the attempt. -/
theorem failOp_matches (hended : ended.succeeded = false) (error : String) (delay : Option Duration) :
    (failOp ticket error delay).taskId = ticket.task.taskId ∧
      (failOp ticket error delay).claimToken? = some ticket.token.text ∧
      (failOp ticket error delay = .succeed ticket.task.taskId ticket.token.text ↔ ended.succeeded = true) :=
  ⟨rfl, rfl, fun h => (by cases h), fun h => by rw [hended] at h; cases h⟩

theorem failReport_matches (hended : ended.succeeded = false) {outcome : Task → LifecycleOutcome}
    (houtcome : ∀ task, outcome task ≠ .succeeded) (task : Task) :
    (failReport ticket outcome task).queueStatus = some task.status ∧
      ((failReport ticket outcome task).outcome = .succeeded ↔ ended.succeeded = true) :=
  ⟨rfl, fun h => absurd h (houtcome task), fun h => by rw [hended] at h; cases h⟩

theorem retryOrFailed_ne (task : Task) : retryOrFailed task ≠ .succeeded := by
  unfold retryOrFailed
  split <;> exact fun h => by cases h

theorem executionCancelled_finished {externally : Bool} (h : Executing ticket (.cancelled externally) [] t) :
    Post (fun r => Finished ticket (.cancelled externally) (.ok r))
      (fun e => Finished ticket (.cancelled externally) (.error e))
      ((executionCancelled c ticket externally).exec t) := by
  refine Post.bind (commitQuietly_finished h) fun _ t' ⟨acts, h', hacts⟩ => ?_
  -- once the claim is ended, it does not matter whether the completion raises
  have hfail (error : String) (reply : Except PyError Task) :=
    h'.effect (a := ⟨.queue (failOp ticket error (some 0)), reply⟩) rfl
      ⟨h'.effects_eq ▸ hacts, failOp_matches rfl error (some 0)⟩
  refine Post.bind (post_trying (R := fun r t'' => (∃ op reply, Executing ticket (.cancelled externally)
      (acts ++ [⟨.queue op, reply⟩]) t'') ∧
      ∀ result, r = .ok result → Finished ticket (.cancelled externally) (.ok result) t'')
    (Post.bind (post_ask (k := .queue _) (fun cancelled => hfail _ (.ok cancelled)) fun e =>
      ⟨⟨_, _, hfail _ (.error e)⟩, fun _ h => by cases h⟩) fun cancelled t'' h'' =>
      (completeClaimed_finished h'' (.inr ⟨cancelled, rfl, failReport_matches rfl retryOrFailed_ne cancelled⟩)).mono
        (fun result t3 h3 => ⟨⟨_, _, h3.1⟩, fun other hother => Except.ok.inj hother ▸ h3.2⟩)
        fun e t3 h3 => ⟨⟨_, _, h3⟩, fun _ h => by cases h⟩)
    fun e t'' ⟨⟨_, _, h''⟩, _⟩ => finished_of_stage e h'') fun r t'' ⟨⟨op, reply, h''⟩, hok⟩ => ?_
  cases r with
  | error e =>
    simp only
    split
    · exact finished_of_stage e h''
    · exact completeStale_finished h''
  | ok result =>
    simp only
    split
    · exact finished_of_stage .cancelledError h''
    · exact hok result rfl

end Execution

end NightScout
