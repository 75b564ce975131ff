import NightScout.Workers.HostBlind

/-!
# Runs against a server that ignores the Host value

When a run of `execute` against a `HostBlindServer` publishes nothing, whatever the other collaborators do:
exactly when no candidate that the run comes to is `Misread` (`host_blind_quiet_iff`).

`Silent` follows the program for the runs that publish nothing. For the other direction the collaborators
are taken that let everything through, and `Leads` follows the program to the finding.
-/

namespace NightScout

open Lib

section Runs

variable {tables : Tables} {report : BodyReport} {server : HostBlindServer} {service : VHostService}
  {sha256 : String → String} {inputEvent : Event} {lane : CandidateLane}
  {candidates : List (VHostCandidate tables)} {c : VHostCollaborators tables}

/-- Nothing was published. -/
def Quiet (trace : VHostTrace tables) : Prop := ∀ p, VHostAct.published p ∉ trace

/-- The collaborators of a run: the candidates, all of them IN_SCOPE, and the server. -/
structure Offers (c : VHostCollaborators tables) (report : BodyReport) (server : HostBlindServer)
    (service : VHostService) (inputEvent : Event) (lane : CandidateLane)
    (candidates : List (VHostCandidate tables)) : Prop where
  event : ∀ eventId, c.getEvent eventId = .ok (some inputEvent)
  candidatesFor : ∀ limit, c.candidatesFor inputEvent lane limit = .ok candidates
  inScope : ∀ trace, ∀ candidate ∈ candidates, ∀ decision,
    c.classify trace candidate.hostname = .ok decision → decision.state = .inScope
  probe : ∀ trace host rateLimitRps,
    c.probe trace host rateLimitRps = ([server.response report service host], none)

/-- A claimed task of the worker, for a lane. -/
structure ClaimedTask (task : Task) (lane : CandidateLane) : Prop where
  running : task.status = .running
  worker : task.worker.text = "vhost"
  action : laneForAction task.action.text = some lane

/-! ## Runs that publish nothing -/

/-- The program publishes nothing, and of its result `Q` holds. -/
structure Silent {α : Type} (p : VHostProg tables α) (Q : α → Prop) : Prop where
  triple : Triple Quiet p (fun a t => Q a ∧ Quiet t) fun _ => Quiet

section Silent

variable {α β : Type}

theorem Silent.pure {a : α} {Q : α → Prop} (h : Q a) : Silent (Pure.pure a : VHostProg tables α) Q :=
  ⟨fun _ ht => ⟨h, ht⟩⟩

theorem Silent.bind {p : VHostProg tables α} {f : α → VHostProg tables β} {R : α → Prop} {Q : β → Prop}
    (hp : Silent p R) (hf : ∀ a, R a → Silent (f a) Q) : Silent (p >>= f) Q :=
  ⟨Triple.bind hp.triple fun a => Triple.intro_and fun hR => (hf a hR).triple⟩

theorem Silent.mono {p : VHostProg tables α} {R Q : α → Prop} (h : Silent p R) (hRQ : ∀ a, R a → Q a) : Silent p Q :=
  ⟨Triple.conseq h.triple (fun _ ht => ht) (fun a _ ha => ⟨hRQ a ha.1, ha.2⟩) fun _ _ ht => ht⟩

theorem Silent.ask (f : VHostTrace tables → Except PyError α) :
    Silent (askVHost f) fun a => ∃ t, f t = .ok a := by
  constructor
  apply Triple.act
  intro t ht
  cases hf : f t with
  | ok a => exact ⟨⟨t, hf⟩, ht⟩
  | error e => exact ht

theorem Silent.answer (r : Except PyError α) :
    Silent (Prog.answer r : VHostProg tables α) fun a => r = .ok a := by
  constructor
  intro t ht
  cases r with
  | ok a => exact ⟨rfl, ht⟩
  | error e => exact ht

theorem Silent.tell {act : VHostAct tables} (hact : ∀ p, act ≠ .published p) :
    Silent (tellVHost act) fun _ => True := by
  constructor
  intro t ht
  refine ⟨trivial, ?_⟩
  intro p hp
  rcases List.mem_append.mp hp with hp | hp
  · exact ht p hp
  · exact hact p (List.mem_singleton.mp hp).symm

/-- A result that ends the run is no response. -/
theorem Silent.endWith (ended : Except PyError WorkerExecutionResult) (Q : α → Prop) :
    Silent (NightScout.endWith ended : VHostProg tables (α ⊕ WorkerExecutionResult))
      fun r => ∀ result, r = .inl result → Q result := by
  apply Silent.bind (Silent.answer ended)
  intro _ _
  apply Silent.pure
  intro result hresult
  cases hresult

theorem Silent.finally' {p : VHostProg tables α} {q : VHostProg tables Unit} {Q : α → Prop}
    (hp : Silent p Q) (hq : Silent q fun _ => True) : Silent (p.finally' q) Q := by
  refine ⟨Triple.finally' hp.triple ?_ ?_⟩
  · intro a
    exact Triple.intro_and fun hQ =>
      Triple.conseq hq.triple (fun _ ht => ht) (fun _ _ h => ⟨hQ, h.2⟩) fun _ _ ht => ht
  · intro _
    exact Triple.conseq hq.triple (fun _ ht => ht) (fun _ _ h => h.2) fun _ _ ht => ht

end Silent

/-! ### The parts of `execute` -/

theorem Silent.classify (host : String) : Silent (classifyHost c host)
    fun decision => ∃ t, c.classify t host = .ok decision := by
  apply Silent.bind (Silent.ask _)
  intro decision hdecision
  apply Silent.bind (Silent.tell (by simp))
  intro _ _
  exact Silent.pure hdecision

theorem Silent.releaseLease (lease : Option RateLimitLease) :
    Silent (NightScout.releaseLease c lease) fun _ => True := by
  cases lease with
  | none => exact Silent.pure trivial
  | some lease =>
    apply Silent.bind (Silent.tell (by simp))
    intro _ _
    apply Silent.bind (Silent.ask _)
    intro raised _
    cases raised with
    | none => exact Silent.mono (Silent.answer _) fun _ _ => trivial
    | some e => exact Silent.mono (Silent.answer _) fun _ _ => trivial

variable {config : VHostWorkerConfig}

/-- What is collected from one result is that result. -/
theorem collectResults_single {result first : VHostProbeResult} {host : String} {more : Bool}
    {found : Option VHostProbeResult} (h : collectResults tables service host [result] none = .ok (found, more))
    (hfirst : found = some first) : first = result := by
  unfold collectResults at h
  obtain ⟨matched, _, h⟩ := bind_ok h
  cases matched with
  | false =>
    cases h
    cases hfirst
  | true =>
    cases h
    exact (Option.some.inj hfirst).symm

theorem Offers.requestOne (hoffers : Offers c report server service inputEvent lane candidates)
    (host : String) (rps : Option ℕ) : Silent (requestOne c config service host rps)
      fun r => ∀ result, r = .inl result → result = server.response report service host := by
  unfold NightScout.requestOne
  apply Silent.bind (Silent.tell (by simp))
  intro _ _
  apply Silent.bind (Silent.ask _)
  intro stream hstream
  obtain ⟨t, hstream⟩ := hstream
  rw [hoffers.probe] at hstream
  cases hstream
  apply Silent.bind (Silent.answer _)
  intro collected hcollected
  obtain ⟨found, more⟩ := collected
  cases more with
  | true => exact Silent.endWith _ _
  | false =>
    cases found with
    | none => exact Silent.endWith _ _
    | some result =>
      apply Silent.pure
      intro result' hresult'
      cases hresult'
      exact collectResults_single hcollected rfl

/-- A request gives the response of the server, or what ends the run. -/
theorem Offers.probeOne (hoffers : Offers c report server service inputEvent lane candidates)
    (host : String) : Silent (probeOne c config service host)
      fun r => ∀ result, r = .inl result → result = server.response report service host := by
  unfold NightScout.probeOne
  apply Silent.bind (Silent.ask _)
  intro rps _
  apply Silent.bind (Silent.ask _)
  intro decision _
  apply Silent.bind (Silent.tell (by simp))
  intro _ _
  cases decision.outcome with
  | defer => exact Silent.endWith _ _
  | deny => exact Silent.endWith _ _
  | allow =>
    apply Silent.bind (Silent.finally' (hoffers.requestOne host rps) (Silent.releaseLease decision.lease))
    intro r hr
    cases r with
    | inl result =>
      apply Silent.bind (Silent.tell (by simp))
      intro _ _
      exact Silent.pure hr
    | inr ended => exact Silent.pure hr

/-- The authorized candidates are those of the lane. -/
theorem Offers.authorizeCandidates (hoffers : Offers c report server service inputEvent lane candidates) :
    ∀ offered : List (VHostCandidate tables), offered ⊆ candidates →
      Silent (authorizeCandidates c lane offered) fun authorized =>
        authorized.map Prod.fst = offered.filter fun candidate => candidate.lane = lane
  | [], _ => Silent.pure rfl
  | candidate :: offered, hsub => by
    have hrest := hoffers.authorizeCandidates offered fun x hx => hsub (List.mem_cons_of_mem _ hx)
    unfold NightScout.authorizeCandidates
    by_cases hlane : candidate.lane = lane
    · rw [if_neg (not_not.mpr hlane), List.filter_cons_of_pos (by simp [hlane])]
      apply Silent.bind (Silent.classify candidate.hostname)
      intro decision hdecision
      obtain ⟨t, hdecision⟩ := hdecision
      have hstate := hoffers.inScope t candidate (hsub List.mem_cons_self) decision hdecision
      apply Silent.bind hrest
      intro rest hrest
      apply Silent.pure
      rw [if_pos hstate, List.map_cons, hrest]
    · rw [if_pos hlane, List.filter_cons_of_neg (by simp [hlane])]
      exact hrest

theorem Silent.authorizeControls (controls : String × String) :
    Silent (authorizeControls c controls) fun _ => True := by
  unfold NightScout.authorizeControls
  apply Silent.bind (Silent.classify controls.1)
  intro first _
  split
  · exact Silent.pure trivial
  · apply Silent.bind (Silent.classify controls.2)
    intro _ _
    exact Silent.pure trivial

theorem Offers.probeControl (hoffers : Offers c report server service inputEvent lane candidates)
    (parentDomain control : String) : Silent (probeControl c config service parentDomain control)
      fun r => ∀ result, r = .inl result → result = server.response report service control := by
  unfold NightScout.probeControl
  apply Silent.bind (hoffers.probeOne control)
  intro r hr
  cases r with
  | inr ended => exact Silent.pure hr
  | inl result =>
    dsimp only
    generalize WorkerExecutionResult.again _ _ = ended
    split
    · exact Silent.endWith ended _
    · exact Silent.pure hr

/-- The group holds no candidate that would be published. -/
def NoHit (tables : Tables) (report : BodyReport) (server : HostBlindServer) (service : VHostService)
    (controls : String × String) (hostname : String) : Prop :=
  (compareToBaseline (server.signature tables report service controls.1)
    (server.signature tables report service hostname)
    (stableSignatureDimensions (server.signature tables report service controls.1)
      (server.signature tables report service controls.2))
    VHostWorkerConfig.default.minDifferentialScore).interesting = false

theorem Offers.testCandidates (hoffers : Offers c report server service inputEvent lane candidates)
    {controls : String × String} : ∀ {group : List (VHostCandidate tables × ScopeDecision)},
    (∀ item ∈ group, NoHit tables report server service controls item.1.hostname) →
    Silent (testCandidates c .default service controls (server.response report service controls.1)
      (server.response report service controls.2) group) fun _ => True
  | [], _ => Silent.pure trivial
  | (candidate, scopeDecision) :: rest, hgroup => by
    have hrest := hoffers.testCandidates fun item hitem => hgroup item (List.mem_cons_of_mem _ hitem)
    have hown : NoHit tables report server service controls candidate.hostname :=
      hgroup (candidate, scopeDecision) List.mem_cons_self
    unfold NightScout.testCandidates
    apply Silent.bind (hoffers.probeOne candidate.hostname)
    intro r hr
    cases r with
    | inr ended => exact Silent.pure trivial
    | inl result =>
      obtain rfl := hr result rfl
      unfold NoHit HostBlindServer.signature at hown
      dsimp only
      rw [hown, Bool.and_false, if_neg Bool.false_ne_true]
      exact hrest

/-- A group that is passed has controls with names. -/
theorem Offers.testGroup (hoffers : Offers c report server service inputEvent lane candidates)
    {parent : String} {group : List (VHostCandidate tables × ScopeDecision)} (hgroup : ∀ item ∈ group, ∀ controls,
      deterministicControlHostnames tables sha256 parent service inputEvent = .ok controls →
      NoHit tables report server service controls item.1.hostname) :
    Silent (testGroup sha256 c .default service inputEvent parent group) fun _ =>
      (deterministicControlHostnames tables sha256 parent service inputEvent).isOk = true := by
  unfold NightScout.testGroup
  generalize deterministicControlHostnames tables sha256 parent service inputEvent = named at hgroup ⊢
  apply Silent.bind (Silent.answer named)
  rintro controls rfl
  have hok : (Except.ok controls : Except PyError (String × String)).isOk = true := rfl
  apply Silent.bind (Silent.authorizeControls controls)
  intro authorized _
  cases authorized with
  | false => exact Silent.pure hok
  | true =>
    apply Silent.bind (hoffers.probeControl parent controls.1)
    intro r hr
    cases r with
    | inr ended => exact Silent.pure hok
    | inl first =>
      obtain rfl := hr first rfl
      apply Silent.bind (hoffers.probeControl parent controls.2)
      intro r hr
      cases r with
      | inr ended => exact Silent.pure hok
      | inl second =>
        obtain rfl := hr second rfl
        have htested := hoffers.testCandidates fun item hitem => hgroup item hitem controls rfl
        dsimp only
        split
        · exact Silent.pure hok
        · exact Silent.mono htested fun _ _ => hok

theorem Offers.testGroups (hoffers : Offers c report server service inputEvent lane candidates)
    {authorized : List (VHostCandidate tables × ScopeDecision)} : ∀ {parents : List String},
    (∀ before parent after, parents = before ++ parent :: after →
      (∀ earlier ∈ before,
        (deterministicControlHostnames tables sha256 earlier service inputEvent).isOk = true) →
      ∀ item ∈ groupOf authorized parent, ∀ controls,
        deterministicControlHostnames tables sha256 parent service inputEvent = .ok controls →
        NoHit tables report server service controls item.1.hostname) →
    Silent (testGroups sha256 c .default service inputEvent authorized parents) fun _ => True
  | [], _ => Silent.pure trivial
  | parent :: parents, hparents => by
    have hgroup := hparents [] parent parents rfl (by simp)
    have htested : Silent
        (NightScout.testGroup sha256 c .default service inputEvent parent (groupOf authorized parent)) _ :=
      hoffers.testGroup hgroup
    unfold NightScout.testGroups
    apply Silent.bind htested
    intro r hok
    cases r with
    | some ended => exact Silent.pure trivial
    | none =>
      apply hoffers.testGroups
      intro before next after hsplit hbefore
      apply hparents (parent :: before) next after (by rw [hsplit, List.cons_append])
      intro earlier hearlier
      rcases List.mem_cons.mp hearlier with rfl | hearlier
      · exact hok
      · exact hbefore earlier hearlier

theorem parentOf_ok {item : VHostCandidate tables × ScopeDecision} {parent : Option String}
    (h : parentOf item = .ok parent) : (immediateParentDomain tables item.1.hostname).toOption.join = parent := by
  unfold parentOf at h
  rw [h]
  rfl

/-- The parents of the authorized candidates are those of the lane. -/
theorem mapM_parentOf {authorized : List (VHostCandidate tables × ScopeDecision)}
    {parents : List (Option String)} (h : authorized.mapM parentOf = .ok parents) :
    parents.filterMap id = (authorized.map Prod.fst).filterMap fun candidate =>
      (immediateParentDomain tables candidate.hostname).toOption.join := by
  have hall := forall₂_of_mapM_ok h
  clear h
  induction hall with
  | nil => rfl
  | cons hparent _ ih =>
    rw [List.map_cons, List.filterMap_cons, List.filterMap_cons, parentOf_ok hparent, ih]
    rfl

/-- The groups are tested in the order of `candidateParents`. -/
theorem candidateParents_eq {authorized : List (VHostCandidate tables × ScopeDecision)} {parents : List (Option String)}
    (hauthorized : authorized.map Prod.fst = candidates.filter fun candidate => candidate.lane = lane)
    (hparents : authorized.mapM parentOf = .ok parents) :
    sortedTexts (parents.filterMap id).toFinset = candidateParents tables lane candidates := by
  rw [mapM_parentOf hparents, hauthorized]
  rfl

theorem Offers.discover (hoffers : Offers c report server service inputEvent lane candidates)
    (candidateLimitHint : Option ℕ)
    (hcandidates : ∀ parent candidate, ReachedParent tables service sha256 inputEvent lane candidates parent →
      candidate ∈ candidates → candidate.lane = lane →
      immediateParentDomain tables candidate.hostname = .ok (some parent) → ∀ controls,
        deterministicControlHostnames tables sha256 parent service inputEvent = .ok controls →
        NoHit tables report server service controls candidate.hostname) :
    Silent (discover sha256 c .default service inputEvent lane candidateLimitHint) fun _ => True := by
  unfold NightScout.discover
  apply Silent.bind (Silent.answer _)
  intro offered hoffered
  rw [hoffers.candidatesFor] at hoffered
  cases hoffered
  apply Silent.bind (hoffers.authorizeCandidates candidates fun _ h => h)
  intro authorized hauthorized
  apply Silent.bind (Silent.answer _)
  intro parents hparents
  have hnames := candidateParents_eq hauthorized hparents
  apply Silent.mono (hoffers.testGroups _) fun _ _ => trivial
  intro before parent after hsplit hbefore item hitem
  obtain ⟨hmem, hown⟩ := List.mem_filter.mp hitem
  have hlane : item.1 ∈ candidates.filter fun candidate => candidate.lane = lane := by
    rw [← hauthorized]
    exact List.mem_map_of_mem hmem
  obtain ⟨hcandidate, hlane⟩ := List.mem_filter.mp hlane
  have hreached : ReachedParent tables service sha256 inputEvent lane candidates parent :=
    ⟨before, after, hnames.symm.trans hsplit, hbefore⟩
  exact hcandidates parent item.1 hreached hcandidate (of_decide_eq_true hlane)
    (of_decide_eq_true hown)

/-! ## A run to a finding -/

/-- The program returns this, and keeps the trace. -/
structure Leads {α : Type} (p : VHostProg tables α) (a : α) : Prop where
  exec : ∀ t, ∃ t', p.exec t = (.ok a, t') ∧ t ⊆ t'

/-- The program keeps the trace, whichever way it ends. -/
structure Grows {α : Type} (p : VHostProg tables α) : Prop where
  exec : ∀ t, t ⊆ (p.exec t).2

/-- The program publishes. -/
structure Finds {α : Type} (p : VHostProg tables α) : Prop where
  exec : ∀ t, ∃ q, VHostAct.published q ∈ (p.exec t).2

section Leads

variable {α β : Type} {p : VHostProg tables α} {f : α → VHostProg tables β} {a : α} {b : β}

theorem Leads.pure (a : α) : Leads (Pure.pure a : VHostProg tables α) a :=
  ⟨fun t => ⟨t, rfl, fun _ h => h⟩⟩

theorem Leads.bind (hp : Leads p a) (hf : Leads (f a) b) : Leads (p >>= f) b := by
  constructor
  intro t
  obtain ⟨t₁, hrun₁, hsub₁⟩ := hp.exec t
  obtain ⟨t₂, hrun₂, hsub₂⟩ := hf.exec t₁
  rw [Prog.exec_bind_ok hrun₁]
  exact ⟨t₂, hrun₂, fun _ h => hsub₂ (hsub₁ h)⟩

theorem Leads.ask {g : VHostTrace tables → Except PyError α} (h : ∀ t, g t = .ok a) : Leads (askVHost g) a := by
  constructor
  intro t
  refine ⟨t, ?_, fun _ ht => ht⟩
  rw [askVHost, Prog.exec_act, h]

theorem Leads.answer {r : Except PyError α} (h : r = .ok a) : Leads (Prog.answer r : VHostProg tables α) a := by
  constructor
  intro t
  rw [h]
  exact ⟨t, rfl, fun _ ht => ht⟩

theorem Leads.tell (act : VHostAct tables) : Leads (tellVHost act) () :=
  ⟨fun t => ⟨t ++ [act], rfl, fun _ ht => List.mem_append_left _ ht⟩⟩

theorem Leads.finally' {q : VHostProg tables Unit} (hp : Leads p a) (hq : Leads q ()) : Leads (p.finally' q) a := by
  constructor
  intro t
  obtain ⟨t₁, hrun₁, hsub₁⟩ := hp.exec t
  obtain ⟨t₂, hrun₂, hsub₂⟩ := hq.exec t₁
  refine ⟨t₂, ?_, fun _ h => hsub₂ (hsub₁ h)⟩
  rw [Prog.finally', Prog.exec_act, hrun₁]
  simp only [hrun₂]

theorem Leads.grows (hp : Leads p a) : Grows p := by
  constructor
  intro t
  obtain ⟨t', hrun, hsub⟩ := hp.exec t
  rw [hrun]
  exact hsub

theorem Grows.bind (hp : Grows p) (hf : ∀ a, Grows (f a)) : Grows (p >>= f) := by
  constructor
  intro t act hact
  have hkept := hp.exec t hact
  rw [Prog.exec_bind]
  cases hrun : p.exec t with
  | mk r t' =>
    rw [hrun] at hkept
    cases r with
    | ok a => exact (hf a).exec t' hkept
    | error e => exact hkept

theorem Finds.later (hp : Leads p a) (hf : Finds (f a)) : Finds (p >>= f) := by
  constructor
  intro t
  obtain ⟨t', hrun, -⟩ := hp.exec t
  rw [Prog.exec_bind_ok hrun]
  exact hf.exec t'

theorem Finds.first (hp : Finds p) (hf : ∀ a, Grows (f a)) : Finds (p >>= f) := by
  constructor
  intro t
  obtain ⟨q, hq⟩ := hp.exec t
  refine ⟨q, ?_⟩
  rw [Prog.exec_bind]
  cases hrun : p.exec t with
  | mk r t' =>
    rw [hrun] at hq
    cases r with
    | ok a => exact (hf a).exec t' hq
    | error e => exact hq

theorem Finds.tell (publication : VHostPublication tables) : Finds (tellVHost (.published publication)) :=
  ⟨fun t => ⟨publication, List.mem_append_right t List.mem_cons_self⟩⟩

end Leads

/-- Collaborators that let everything through. -/
def openCollaborators (report : BodyReport) (server : HostBlindServer) (service : VHostService)
    (inputEvent : Event) (candidates : List (VHostCandidate tables)) : VHostCollaborators tables where
  getEvent _ := .ok (some inputEvent)
  ensureAvailable := none
  candidatesFor _ _ _ := .ok candidates
  classify _ hostname := .ok { subject := { kind := .domain, value := hostname }, state := .inScope }
  plan _ := .ok none
  awaitAcquire _ _ := .ok { outcome := .allow, taskId := "task_vhost" }
  probe _ host _ := ([server.response report service host], none)
  release _ _ := none
  publish _ _ := .ok true

section Open

variable {config : VHostWorkerConfig} {host : String}

theorem openCollaborators_offers :
    Offers (openCollaborators report server service inputEvent candidates) report server service inputEvent
      lane candidates where
  event _ := rfl
  candidatesFor _ := rfl
  inScope _ _ _ decision hdecision := by
    cases hdecision
    rfl
  probe _ _ _ := rfl

theorem Leads.probeOne (hhost : normalizeDnsName tables host = .ok host) :
    Leads (probeOne (openCollaborators report server service inputEvent candidates) config service host)
      (.inl (server.response report service host)) := by
  have hmatches : resultMatchesProbe tables (server.response report service host) service host = .ok true := by
    unfold resultMatchesProbe
    rw [if_pos ⟨rfl, rfl⟩, hhost]
    simp [HostBlindServer.response, Except.map]
  have hcollected : collectResults tables service host [server.response report service host] none =
      .ok (some (server.response report service host), false) := by
    unfold collectResults
    rw [hmatches, ok_bind]
    rfl
  have hrequest : Leads
      (requestOne (openCollaborators report server service inputEvent candidates) config service host none)
      (.inl (server.response report service host)) := by
    unfold requestOne
    apply Leads.bind (Leads.tell _)
    apply Leads.bind (Leads.ask fun _ => rfl)
    apply Leads.bind (Leads.answer hcollected)
    exact Leads.pure _
  unfold NightScout.probeOne
  apply Leads.bind (Leads.ask fun _ => rfl)
  apply Leads.bind (Leads.ask fun _ => rfl)
  apply Leads.bind (Leads.tell _)
  apply Leads.bind (Leads.finally' hrequest (Leads.pure ()))
  apply Leads.bind (Leads.tell _)
  exact Leads.pure _

theorem Leads.classify (host : String) :
    Leads (classifyHost (openCollaborators report server service inputEvent candidates) host)
      { subject := { kind := .domain, value := host }, state := .inScope } := by
  apply Leads.bind (Leads.ask fun _ => rfl)
  apply Leads.bind (Leads.tell _)
  exact Leads.pure _

theorem Leads.authorizeCandidates : ∀ offered : List (VHostCandidate tables),
    Leads (authorizeCandidates (openCollaborators report server service inputEvent candidates) lane offered)
      ((offered.filter fun candidate => candidate.lane = lane).map fun candidate =>
        (candidate, { subject := { kind := .domain, value := candidate.hostname }, state := .inScope }))
  | [] => Leads.pure _
  | candidate :: offered => by
    have hrest := Leads.authorizeCandidates offered
    unfold NightScout.authorizeCandidates
    by_cases hlane : candidate.lane = lane
    · rw [if_neg (not_not.mpr hlane), List.filter_cons_of_pos (by simp [hlane])]
      apply Leads.bind (Leads.classify candidate.hostname)
      apply Leads.bind hrest
      exact Leads.pure _
    · rw [if_pos hlane, List.filter_cons_of_neg (by simp [hlane])]
      exact hrest

theorem Leads.publishHit (candidate : VHostCandidate tables) (scopeDecision : ScopeDecision)
    (baseline : VHostProbeResult) (controls : String × String) (result : VHostProbeResult)
    (differential : VHostDifferential) :
    Leads (publishHit (openCollaborators report server service inputEvent candidates) config service candidate
      scopeDecision baseline controls result differential) () := by
  unfold NightScout.publishHit
  apply Leads.bind (Leads.ask fun _ => rfl)
  apply Leads.bind (Leads.tell _)
  apply Leads.bind (Leads.ask fun _ => rfl)
  exact Leads.tell _

theorem Finds.publishHit (candidate : VHostCandidate tables) (scopeDecision : ScopeDecision)
    (baseline : VHostProbeResult) (controls : String × String) (result : VHostProbeResult)
    (differential : VHostDifferential) :
    Finds (publishHit (openCollaborators report server service inputEvent candidates) config service candidate
      scopeDecision baseline controls result differential) := by
  unfold NightScout.publishHit
  apply Finds.later (Leads.ask fun _ => rfl)
  apply Finds.first (Finds.tell _)
  intro _
  apply Leads.grows
  apply Leads.bind (Leads.ask fun _ => rfl)
  exact Leads.tell _

theorem Leads.testCandidates (controls : String × String) (first second : VHostProbeResult) :
    ∀ group : List (VHostCandidate tables × ScopeDecision),
      Leads (testCandidates (openCollaborators report server service inputEvent candidates) config service
        controls first second group) none
  | [] => Leads.pure _
  | (candidate, scopeDecision) :: rest => by
    have hrest := Leads.testCandidates controls first second rest
    unfold NightScout.testCandidates
    apply Leads.bind (Leads.probeOne candidate.hostname_normal)
    dsimp only
    split
    · exact Leads.bind (Leads.publishHit candidate scopeDecision first controls _ _) hrest
    · exact hrest

/-- A candidate that is taken for a virtual host is published, after the ones before it. -/
theorem Finds.testCandidates {controls : String × String} {candidate : VHostCandidate tables}
    (hhit : ¬ NoHit tables report server service controls candidate.hostname) :
    ∀ {group : List (VHostCandidate tables × ScopeDecision)}, candidate ∈ group.map Prod.fst →
      Finds (testCandidates (openCollaborators report server service inputEvent candidates) .default service
        controls (server.response report service controls.1) (server.response report service controls.2) group)
  | (own, scopeDecision) :: rest, hmem => by
    have hleads : Leads
        (NightScout.testCandidates (openCollaborators report server service inputEvent candidates) .default
          service controls (server.response report service controls.1)
          (server.response report service controls.2) rest) none := Leads.testCandidates controls _ _ rest
    have hrest : candidate ∈ rest.map Prod.fst → Finds
        (NightScout.testCandidates (openCollaborators report server service inputEvent candidates) .default
          service controls (server.response report service controls.1)
          (server.response report service controls.2) rest) := fun h => Finds.testCandidates hhit h
    unfold NightScout.testCandidates
    apply Finds.later (Leads.probeOne own.hostname_normal)
    dsimp only
    rcases List.mem_cons.mp hmem with rfl | hmem
    · have hinteresting : (compareToBaseline (server.signature tables report service controls.1)
          (server.signature tables report service candidate.hostname)
          (stableSignatureDimensions (server.signature tables report service controls.1)
            (server.signature tables report service controls.2))
          VHostWorkerConfig.default.minDifferentialScore).interesting = true :=
        eq_true_of_ne_false hhit
      unfold HostBlindServer.signature at hinteresting
      rw [hinteresting]
      exact Finds.first (Finds.publishHit candidate scopeDecision _ controls _ _) fun _ => hleads.grows
    · split
      · exact Finds.later (Leads.publishHit own scopeDecision _ controls _ _) (hrest hmem)
      · exact hrest hmem

section Groups

variable {parent : String} {controls : String × String}

/-- The names of the controls are normal. -/
theorem controls_normal
    (hcontrols : deterministicControlHostnames tables sha256 parent service inputEvent = .ok controls) :
    normalizeDnsName tables controls.1 = .ok controls.1 ∧ normalizeDnsName tables controls.2 = .ok controls.2 := by
  unfold deterministicControlHostnames at hcontrols
  obtain ⟨_, _, hcontrols⟩ := bind_ok hcontrols
  obtain ⟨first, hfirst, hcontrols⟩ := bind_ok hcontrols
  obtain ⟨second, hsecond, hcontrols⟩ := bind_ok hcontrols
  cases hcontrols
  exact ⟨normalizeDnsName_normal hfirst, normalizeDnsName_normal hsecond⟩

theorem Leads.authorizeControls (controls : String × String) :
    Leads (authorizeControls (openCollaborators report server service inputEvent candidates) controls) true := by
  unfold NightScout.authorizeControls
  apply Leads.bind (Leads.classify controls.1)
  apply Leads.bind (Leads.classify controls.2)
  exact Leads.pure _

theorem Leads.probeControl {control : String} (hcontrol : normalizeDnsName tables control = .ok control) :
    Leads (probeControl (openCollaborators report server service inputEvent candidates) config service parent
      control) (.inl (server.response report service control)) := by
  unfold NightScout.probeControl
  apply Leads.bind (Leads.probeOne hcontrol)
  exact Leads.pure _

/-- A group whose controls have names is passed. -/
theorem Leads.testGroup
    (hcontrols : deterministicControlHostnames tables sha256 parent service inputEvent = .ok controls)
    (group : List (VHostCandidate tables × ScopeDecision)) :
    Leads (testGroup sha256 (openCollaborators report server service inputEvent candidates) config service
      inputEvent parent group) none := by
  obtain ⟨hfirst, hsecond⟩ := controls_normal hcontrols
  unfold NightScout.testGroup
  apply Leads.bind (Leads.answer hcontrols)
  apply Leads.bind (Leads.authorizeControls controls)
  apply Leads.bind (Leads.probeControl hfirst)
  apply Leads.bind (Leads.probeControl hsecond)
  dsimp only
  split
  · exact Leads.pure _
  · exact Leads.testCandidates controls _ _ group

theorem Finds.testGroup
    (hcontrols : deterministicControlHostnames tables sha256 parent service inputEvent = .ok controls)
    (hsame : bodyLength (server.body.fill controls.1.toList) = bodyLength (server.body.fill controls.2.toList))
    {candidate : VHostCandidate tables} (hhit : ¬ NoHit tables report server service controls candidate.hostname)
    {group : List (VHostCandidate tables × ScopeDecision)} (hmem : candidate ∈ group.map Prod.fst) :
    Finds (testGroup sha256 (openCollaborators report server service inputEvent candidates) .default service
      inputEvent parent group) := by
  obtain ⟨hfirst, hsecond⟩ := controls_normal hcontrols
  have hstable : SignatureField.contentLength ∈
      stableSignatureDimensions (responseSignature tables (server.response report service controls.1))
        (responseSignature tables (server.response report service controls.2)) := by
    rw [mem_stableSignatureDimensions]
    simp [responseSignature, HostBlindServer.response, VHostResponseSignature.get, hsame]
  unfold NightScout.testGroup
  apply Finds.later (Leads.answer hcontrols)
  apply Finds.later (Leads.authorizeControls controls)
  apply Finds.later (Leads.probeControl hfirst)
  apply Finds.later (Leads.probeControl hsecond)
  dsimp only
  have hone : VHostWorkerConfig.default.minStableDimensions = 1 := rfl
  rw [hone, if_neg (Nat.not_lt.mpr (List.length_pos_of_mem hstable))]
  exact Finds.testCandidates hhit hmem

end Groups

theorem Grows.testGroup (parent : String) (group : List (VHostCandidate tables × ScopeDecision)) :
    Grows (testGroup sha256 (openCollaborators report server service inputEvent candidates) config service
      inputEvent parent group) := by
  cases hcontrols : deterministicControlHostnames tables sha256 parent service inputEvent with
  | ok controls => exact (Leads.testGroup hcontrols group).grows
  | error e =>
    constructor
    intro t
    unfold NightScout.testGroup
    rw [hcontrols, Prog.exec_bind_error (Prog.exec_answer _ _)]
    exact fun _ h => h

theorem Grows.testGroups (authorized : List (VHostCandidate tables × ScopeDecision)) (parents : List String) :
    Grows (testGroups sha256 (openCollaborators report server service inputEvent candidates) config service
      inputEvent authorized parents) := by
  induction parents with
  | nil => exact (Leads.pure _).grows
  | cons parent parents ih =>
    unfold NightScout.testGroups
    apply Grows.bind (Grows.testGroup parent _)
    intro r
    cases r with
    | some ended => exact (Leads.pure _).grows
    | none => exact ih

/-- The groups before are passed, and the candidate's own group publishes. -/
theorem Finds.testGroups {authorized : List (VHostCandidate tables × ScopeDecision)} {parent : String}
    {controls : String × String} {after : List String}
    (hcontrols : deterministicControlHostnames tables sha256 parent service inputEvent = .ok controls)
    (hsame : bodyLength (server.body.fill controls.1.toList) = bodyLength (server.body.fill controls.2.toList))
    {candidate : VHostCandidate tables} (hhit : ¬ NoHit tables report server service controls candidate.hostname)
    (hmem : candidate ∈ (groupOf authorized parent).map Prod.fst) : ∀ {before : List String},
    (∀ earlier ∈ before,
      (deterministicControlHostnames tables sha256 earlier service inputEvent).isOk = true) →
    Finds (testGroups sha256 (openCollaborators report server service inputEvent candidates) .default service
      inputEvent authorized (before ++ parent :: after))
  | [], _ => by
    unfold NightScout.testGroups
    apply Finds.first (Finds.testGroup hcontrols hsame hhit hmem)
    intro r
    cases r with
    | some ended => exact (Leads.pure _).grows
    | none => exact Grows.testGroups authorized after
  | earlier :: before, hbefore => by
    have hrest : Finds
        (NightScout.testGroups sha256 (openCollaborators report server service inputEvent candidates) .default
          service inputEvent authorized (before ++ parent :: after)) :=
      Finds.testGroups hcontrols hsame hhit hmem fun x hx => hbefore x (List.mem_cons_of_mem earlier hx)
    have hok := hbefore earlier List.mem_cons_self
    cases hnamed : deterministicControlHostnames tables sha256 earlier service inputEvent with
    | error e =>
      rw [hnamed] at hok
      cases hok
    | ok named =>
      rw [List.cons_append]
      unfold NightScout.testGroups
      exact Finds.later (Leads.testGroup hnamed _) hrest

theorem exists_mapM_parentOf (authorized : List (VHostCandidate tables × ScopeDecision)) :
    ∃ parents, authorized.mapM parentOf = .ok parents := by
  induction authorized with
  | nil => exact ⟨[], rfl⟩
  | cons item authorized ih =>
    obtain ⟨parents, hparents⟩ := ih
    obtain ⟨_, ls, -, -, -, -, hparent⟩ := exists_parent item.1.hostname_normal
    have hown : parentOf item = .ok (some (String.ofList (['.'].intercalate ls))) := hparent
    refine ⟨some (String.ofList (['.'].intercalate ls)) :: parents, ?_⟩
    rw [List.mapM_cons, hown, ok_bind, hparents, ok_bind]
    rfl

theorem Finds.discover {parent : String} {controls : String × String}
    (hreached : ReachedParent tables service sha256 inputEvent lane candidates parent)
    (hcontrols : deterministicControlHostnames tables sha256 parent service inputEvent = .ok controls)
    (hsame : bodyLength (server.body.fill controls.1.toList) = bodyLength (server.body.fill controls.2.toList))
    {candidate : VHostCandidate tables} (hmem : candidate ∈ candidates) (hlane : candidate.lane = lane)
    (hparent : immediateParentDomain tables candidate.hostname = .ok (some parent))
    (hhit : ¬ NoHit tables report server service controls candidate.hostname) (candidateLimitHint : Option ℕ) :
    Finds (discover sha256 (openCollaborators report server service inputEvent candidates) .default service
      inputEvent lane candidateLimitHint) := by
  unfold NightScout.discover
  apply Finds.later (Leads.answer rfl)
  apply Finds.later (Leads.authorizeCandidates candidates)
  generalize hauthorized : ((candidates.filter fun candidate => candidate.lane = lane).map fun candidate =>
    ((candidate, { subject := { kind := .domain, value := candidate.hostname }, state := .inScope }) :
      VHostCandidate tables × ScopeDecision)) = authorized
  have hfirsts : authorized.map Prod.fst = candidates.filter fun candidate => candidate.lane = lane := by
    rw [← hauthorized, List.map_map]
    exact List.map_id _
  obtain ⟨parents, hparents⟩ := exists_mapM_parentOf authorized
  apply Finds.later (Leads.answer hparents)
  obtain ⟨before, after, hsplit, hbefore⟩ := hreached
  rw [candidateParents_eq hfirsts hparents, hsplit]
  apply Finds.testGroups hcontrols hsame hhit _ hbefore
  have hown : candidate ∈ authorized.map Prod.fst := by
    rw [hfirsts]
    exact List.mem_filter.mpr ⟨hmem, decide_eq_true hlane⟩
  obtain ⟨item, hitem, rfl⟩ := List.mem_map.mp hown
  exact List.mem_map_of_mem (List.mem_filter.mpr ⟨hitem, decide_eq_true hparent⟩)

end Open

/-! ## When a run publishes nothing -/

/-- A run with this task is that of `discover`, if the backend is there. -/
theorem executeVHost_claimed {intOf : String → Option ℤ} {task : Task} (htask : ClaimedTask task lane)
    (hevent : ∀ eventId, c.getEvent eventId = .ok (some inputEvent))
    (hservice : serviceFromEvent tables intOf inputEvent = .ok service) (config : VHostWorkerConfig)
    (candidateLimitHint : Option ℕ) :
    ((executeVHost sha256 c config intOf task candidateLimitHint).exec []).2 =
      match c.ensureAvailable with
      | some _ => []
      | none => ((discover sha256 c config service inputEvent lane candidateLimitHint).exec []).2 := by
  unfold executeVHost
  rw [if_neg (not_not.mpr htask.running), if_neg (not_not.mpr htask.worker), htask.action]
  dsimp only
  rw [hevent, Prog.exec_bind_ok (Prog.exec_answer _ _)]
  dsimp only
  rw [hservice]
  cases c.ensureAvailable with
  | none => rfl
  | some raised => cases raised <;> rfl

/-- A misread candidate is published in the run where everything is let through. -/
theorem published_of_misread {intOf : String → Option ℤ} (candidateLimitHint : Option ℕ) {task : Task}
    (htask : ClaimedTask task lane) (hservice : serviceFromEvent tables intOf inputEvent = .ok service)
    (hdigests : ProperDigests tables report server service sha256 inputEvent candidates)
    {parent : String} (hreached : ReachedParent tables service sha256 inputEvent lane candidates parent)
    {candidate : VHostCandidate tables} (hmem : candidate ∈ candidates) (hlane : candidate.lane = lane)
    (hparent : immediateParentDomain tables candidate.hostname = .ok (some parent))
    (hmisread : Misread tables server service sha256 inputEvent parent candidate.hostname) :
    ∃ publication, VHostAct.published publication ∈ ((executeVHost sha256
      (openCollaborators report server service inputEvent candidates) .default intOf task
      candidateLimitHint).exec []).2 := by
  obtain ⟨-, -, controls, -, -, hcontrols, -⟩ := id hmisread
  obtain ⟨hpair, -⟩ := hdigests.pair hmem hparent hcontrols
  have hhit : ¬ NoHit tables report server service controls candidate.hostname := by
    unfold NoHit
    rw [(hdigests.interesting_iff hmem hparent hcontrols).mpr hmisread]
    exact Bool.noConfusion
  have hsame := (hpair.bodyLength_eq hpair.secondNormal).mpr (.inl hpair.sameLength.symm)
  have hfinds := Finds.discover hreached hcontrols hsame.symm hmem hlane hparent hhit candidateLimitHint
  rw [executeVHost_claimed htask (fun _ => rfl) hservice]
  exact hfinds.exec []

/-- **When no finding is made of a server that ignores the Host value.** Whatever the scope says of the
    controls and the rate limiter of the requests, nothing is published: if and only if no candidate
    that the run comes to is misread. -/
theorem host_blind_quiet_iff (report : BodyReport) (server : HostBlindServer) (intOf : String → Option ℤ)
    (sha256 : String → String) (candidateLimitHint : Option ℕ) {task : Task} {lane : CandidateLane}
    (htask : ClaimedTask task lane) (hservice : serviceFromEvent tables intOf inputEvent = .ok service)
    (hdigests : ProperDigests tables report server service sha256 inputEvent candidates) :
    (∀ c, Offers c report server service inputEvent lane candidates →
      Quiet ((executeVHost sha256 c .default intOf task candidateLimitHint).exec []).2) ↔
    ∀ parent candidate, ReachedParent tables service sha256 inputEvent lane candidates parent →
      candidate ∈ candidates → candidate.lane = lane →
      immediateParentDomain tables candidate.hostname = .ok (some parent) →
      ¬ Misread tables server service sha256 inputEvent parent candidate.hostname := by
  constructor
  · intro hquiet parent candidate hreached hmem hlane hparent hmisread
    obtain ⟨publication, hpublished⟩ := published_of_misread candidateLimitHint htask hservice hdigests
      hreached hmem hlane hparent hmisread
    exact hquiet _ openCollaborators_offers publication hpublished
  · intro hcandidates c hoffers
    rw [executeVHost_claimed htask hoffers.event hservice]
    cases c.ensureAvailable with
    | some raised => exact fun _ h => nomatch h
    | none =>
      have hsilent := hoffers.discover candidateLimitHint fun parent candidate hreached hmem hlane hparent
          controls hcontrols => by
        have hnot := hcandidates parent candidate hreached hmem hlane hparent
        rw [← hdigests.interesting_iff hmem hparent hcontrols] at hnot
        exact eq_false_of_ne_true hnot
      have hpost := hsilent.triple [] fun _ h => nomatch h
      cases hexec : (discover sha256 c .default service inputEvent lane candidateLimitHint).exec [] with
      | mk r trace =>
        rw [hexec] at hpost
        cases r with
        | ok a => exact hpost.2
        | error e => exact hpost

end Runs

/-! ## A redirect to the main site -/

/-- It redirects every name to the main site, and says which name it was. -/
def redirectingServer : HostBlindServer where
  statusCode := some 301
  location := some [.text "https://admin.example.com/".toList]
  body := [.text "No such site: ".toList, .hole]

def siteEvent : Event where
  eventId := "evt_service"
  type := .httpService
  value := "http://www.example.com/"
  source := httpxName
  firstSeen := 0
  lastSeen := 0
  tags := {"confirmed", "service"}
  metadata := (((Dict.empty.set "url" (.string "http://www.example.com/")).set "hostname"
    (.string "www.example.com")).set "scheme" (.string "http")).set "port" (.int 80)
  confidence_unit := zero_unit
  novelty_unit := zero_unit

theorem port_eighty : 1 ≤ 80 ∧ 80 ≤ 65535 := by decide

def siteService : VHostService where
  url := "http://www.example.com/"
  scheme := "http"
  transportHostname := "www.example.com"
  port := ⟨80, port_eighty.1, port_eighty.2⟩

theorem admin_normal : normalizeDnsName asciiTables "admin.example.com" = .ok "admin.example.com" := by
  decide +kernel

theorem middle_unit : (0 : ℚ) ≤ 1 / 2 ∧ (1 / 2 : ℚ) ≤ 1 := by norm_num

def adminCandidate : VHostCandidate asciiTables where
  hostname := "admin.example.com"
  lane := .targeted
  method := .wordSibling
  wordToken := { text := "admin" }
  hostname_normal := admin_normal
  confidence_unit := middle_unit

def siteDigest (text : String) : String :=
  if text = "http://www.example.com/\nevt_service\nexample.com" then
    "d21b19a7f6b54e09ea6052785d8ea862528bff1b8424eaccff6308f59cac3bed"
  else if text = "No such site: ns-vh-d21b19a7f6b54e09.example.com" then
    "75e42a7e00b68243453ed5de44d2bb614722e842e1b6bd7cb64136f390703385"
  else if text = "No such site: ns-vh-ea6052785d8ea862.example.com" then
    "187d666989cb13a0ad1f36875297d211d04fec085cb223f27d3793c3854f6757"
  else "017d846a8c2abf834db88ecf69b2ba534f70237518b5cc3bd340eaf57da0fde2"

/-- The counts of the runs of a body. -/
def siteReport : BodyReport where
  bodySha256 body := siteDigest (String.ofList body)
  wordCount runs := runs.count none
  lineCount runs := runs.count (some '\n') + 1

theorem siteEvent_service : serviceFromEvent asciiTables (fun _ => none) siteEvent = .ok siteService := by
  decide +kernel

theorem admin_parent :
    immediateParentDomain asciiTables "admin.example.com" = .ok (some "example.com") := by
  decide +kernel

def siteControls : String × String :=
  ("ns-vh-d21b19a7f6b54e09.example.com", "ns-vh-ea6052785d8ea862.example.com")

theorem siteControls_eq : deterministicControlHostnames asciiTables siteDigest "example.com" siteService
    siteEvent = .ok siteControls := by
  decide +kernel

theorem vhostName_stripped : strip "vhost" = "vhost" := by decide

theorem vhostName_nonblank : "vhost" ≠ "" := by decide

theorem targetedName_stripped : strip "discover_targeted" = "discover_targeted" := by decide

theorem targetedName_nonblank : "discover_targeted" ≠ "" := by decide

/-- A claimed task for the service. -/
def siteTask : Task where
  taskId := "tsk_vhost"
  worker := ⟨"vhost", vhostName_stripped, vhostName_nonblank⟩
  action := ⟨"discover_targeted", targetedName_stripped, targetedName_nonblank⟩
  inputEventId := { text := "evt_service" }
  status := .running
  createdAt := 0
  updatedAt := 0
  availableAt := 0
  startedAt := some 0
  claimToken := some { text := "clm_vhost" }
  lifecycle := by decide

theorem siteTask_claimed : ClaimedTask siteTask .targeted := by
  constructor <;> decide

theorem siteDigests : ProperDigests asciiTables siteReport redirectingServer siteService siteDigest siteEvent
    [adminCandidate] := by
  constructor
  · intro candidate hmem parent hparent
    obtain rfl := List.mem_singleton.mp hmem
    have hname : parent = "example.com" := by
      have hparent' := hparent.symm.trans admin_parent
      simpa using hparent'
    subst hname
    constructor <;> decide +kernel
  · intro candidate hmem parent controls hparent hcontrols hsame
    obtain rfl := List.mem_singleton.mp hmem
    have hname : parent = "example.com" := by
      have hparent' := hparent.symm.trans admin_parent
      simpa using hparent'
    subst hname
    rw [siteControls_eq] at hcontrols
    cases hcontrols
    exact absurd hsame (by decide +kernel)

theorem site_reached : ReachedParent asciiTables siteService siteDigest siteEvent .targeted [adminCandidate]
    "example.com" := by
  refine ⟨[], [], ?_, by simp⟩
  have hparents : (([adminCandidate].filter fun candidate => candidate.lane = .targeted).filterMap
      fun candidate => (immediateParentDomain asciiTables candidate.hostname).toOption.join) =
        ["example.com"] := by
    have hown : immediateParentDomain asciiTables adminCandidate.hostname = .ok (some "example.com") :=
      admin_parent
    rw [List.filter_cons_of_pos (by decide), List.filter_nil, List.filterMap_cons, hown]
    rfl
  unfold candidateParents
  rw [hparents]
  simp [sortedTexts]

theorem admin_misread : Misread asciiTables redirectingServer siteService siteDigest siteEvent "example.com"
    "admin.example.com" := by
  refine ⟨by decide, by decide, siteControls, "https://admin.example.com/", "https://\x7bhost\x7d/",
    siteControls_eq, ?_, ?_, ?_, by decide⟩ <;> decide +kernel

theorem host_blind_quiet_site :
    (∀ c, Offers c siteReport redirectingServer siteService siteEvent .targeted [adminCandidate] →
      Quiet ((executeVHost siteDigest c .default (fun _ => none) siteTask none).exec []).2) ↔
    ∀ parent candidate, ReachedParent asciiTables siteService siteDigest siteEvent .targeted [adminCandidate]
        parent → candidate ∈ [adminCandidate] → candidate.lane = .targeted →
      immediateParentDomain asciiTables candidate.hostname = .ok (some parent) →
      ¬ Misread asciiTables redirectingServer siteService siteDigest siteEvent parent candidate.hostname :=
  host_blind_quiet_iff siteReport redirectingServer (fun _ => none) siteDigest none siteTask_claimed
    siteEvent_service siteDigests

/-- **A server that only echoes the Host value is taken to have a virtual host.** -/
theorem redirect_published :
    ∃ c, Offers c siteReport redirectingServer siteService siteEvent .targeted [adminCandidate] ∧
      ¬ Quiet ((executeVHost siteDigest c .default (fun _ => none) siteTask none).exec []).2 := by
  refine ⟨_, openCollaborators_offers, ?_⟩
  obtain ⟨publication, hpublished⟩ := published_of_misread none siteTask_claimed siteEvent_service siteDigests
    site_reached List.mem_cons_self rfl admin_parent admin_misread
  exact fun hquiet => hquiet publication hpublished

end NightScout
