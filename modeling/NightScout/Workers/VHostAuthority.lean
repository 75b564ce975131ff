import NightScout.Workers.VHostExecution

/-!
# What every run of the virtual host worker keeps to

`Lawful` of a trace, and the proof that `execute` leaves a lawful one. The proof follows the program: each
part is a triple from what is known of the trace (`Known`, a list of acts that are in it) to what is
known after it. A request is the one place where the trace is not lawful for a moment: its lease is
released by the `finally` block.
-/

namespace NightScout

open Lib

section Authority

variable {tables : Tables}

/-- The host was classified, and IN_SCOPE. -/
def Authorised (trace : VHostTrace tables) (host : String) : Prop :=
  ∃ decision, VHostAct.classified host decision ∈ trace ∧ decision.state = .inScope

/-- The host was requested, and this was its one result. -/
def Answered (service : VHostService) (trace : VHostTrace tables) (host : String)
    (result : VHostProbeResult) : Prop :=
  (∃ rateLimitRps, VHostAct.requested host rateLimitRps ∈ trace) ∧
    resultMatchesProbe tables result service host = .ok true

/-- What a finding is published on. -/
structure Evidenced (sha256 : String → String) (service : VHostService) (inputEvent : Event)
    (trace : VHostTrace tables) (p : VHostPublication tables) : Prop where
  authorised : Authorised trace p.candidate.hostname
  /-- Its own probe differed from two probes of the controls of its own parent. -/
  differed : ∃ parent first second,
    immediateParentDomain tables p.candidate.hostname = .ok (some parent) ∧
    deterministicControlHostnames tables sha256 parent service inputEvent =
      .ok p.baselineControlHostnames ∧
    VHostAct.probed p.baselineControlHostnames.1 first ∈ trace ∧ first.failed = false ∧
    VHostAct.probed p.baselineControlHostnames.2 second ∈ trace ∧ second.failed = false ∧
    VHostAct.probed p.candidate.hostname p.result ∈ trace ∧ p.result.failed = false ∧
    ∃ name, DiffersFromBoth (responseSignature tables first) (responseSignature tables second)
      (responseSignature tables p.result) name

structure Lawful (sha256 : String → String) (service : VHostService) (inputEvent : Event)
    (trace : VHostTrace tables) : Prop where
  /-- A Host value is requested after it was classified IN_SCOPE. -/
  authorised : ∀ before host rps after, trace = before ++ .requested host rps :: after →
    Authorised before host
  /-- A request is made right after an acquisition of one request and one slot, and its lease is
      released right after it. -/
  leased : ∀ before host rps after, trace = before ++ .requested host rps :: after →
    ∃ earlier demand decision, before = earlier ++ [.acquired demand decision] ∧
      demand.requests = 1 ∧ demand.concurrency = 1 ∧ decision.outcome = .allow ∧
      ∀ lease, decision.lease = some lease → ∃ later, after = .released lease.leaseId :: later
  answered : ∀ before host result after, trace = before ++ .probed host result :: after →
    Answered service before host result
  evidenced : ∀ before p after, trace = before ++ .published p :: after →
    Evidenced sha256 service inputEvent before p

variable {sha256 : String → String} {service : VHostService} {inputEvent : Event}
  {trace : VHostTrace tables}

theorem Lawful.nil : Lawful sha256 service inputEvent ([] : VHostTrace tables) := by
  constructor <;> intro before <;> intros <;> simp_all

/-- Where the last act of a longer trace stands. -/
theorem split_snoc {α : Type} {l before after : List α} {a b : α} (h : l ++ [a] = before ++ b :: after) :
    (after = [] ∧ l = before ∧ a = b) ∨ ∃ after', after = after' ++ [a] ∧ l = before ++ b :: after' := by
  rcases List.eq_nil_or_concat after with rfl | ⟨after', last, rfl⟩
  · left
    have hlast := List.append_inj' h rfl
    exact ⟨rfl, hlast.1, List.head_eq_of_cons_eq hlast.2⟩
  · right
    have happend : l ++ [a] = (before ++ b :: after') ++ [last] := by simpa using h
    obtain ⟨hl, hlast⟩ := List.append_inj' happend rfl
    refine ⟨after', ?_, hl⟩
    rw [List.concat_eq_append, List.head_eq_of_cons_eq hlast]

/-- What an act has to bring for the trace to stay lawful; a request is never added alone. -/
def Admissible (sha256 : String → String) (service : VHostService) (inputEvent : Event)
    (trace : VHostTrace tables) : VHostAct tables → Prop
  | .classified _ _ => True
  | .acquired _ _ => True
  | .requested _ _ => False
  | .released _ => True
  | .probed host result => Answered service trace host result
  | .published p => Evidenced sha256 service inputEvent trace p

theorem Lawful.snoc (h : Lawful sha256 service inputEvent trace) {act : VHostAct tables}
    (hact : Admissible sha256 service inputEvent trace act) :
    Lawful sha256 service inputEvent (trace ++ [act]) where
  authorised before host rps after hsplit := by
    rcases split_snoc hsplit with ⟨-, rfl, rfl⟩ | ⟨after', -, hold⟩
    · exact hact.elim
    · exact h.authorised before host rps after' hold
  leased before host rps after hsplit := by
    rcases split_snoc hsplit with ⟨-, rfl, rfl⟩ | ⟨after', rfl, hold⟩
    · exact hact.elim
    · obtain ⟨earlier, demand, decision, hbefore, hrequests, hslots, hallow, hlease⟩ :=
        h.leased before host rps after' hold
      refine ⟨earlier, demand, decision, hbefore, hrequests, hslots, hallow, ?_⟩
      intro lease hsome
      obtain ⟨later, rfl⟩ := hlease lease hsome
      exact ⟨later ++ [act], rfl⟩
  answered before host result after hsplit := by
    rcases split_snoc hsplit with ⟨-, rfl, rfl⟩ | ⟨after', -, hold⟩
    · exact hact
    · exact h.answered before host result after' hold
  evidenced before p after hsplit := by
    rcases split_snoc hsplit with ⟨-, rfl, rfl⟩ | ⟨after', -, hold⟩
    · exact hact
    · exact h.evidenced before p after' hold

/-- The acts of a request: the acquisition, the request and the release. -/
def requestActs (host : String) (rps : Option ℕ) (decision : RateLimitDecision) : VHostTrace tables :=
  [.acquired oneRequest decision, .requested host rps] ++
    (decision.lease.map fun lease => .released lease.leaseId).toList

theorem Lawful.request (h : Lawful sha256 service inputEvent trace) {host : String}
    (hhost : Authorised trace host) (rps : Option ℕ) {decision : RateLimitDecision}
    (hallow : decision.outcome = .allow) :
    Lawful sha256 service inputEvent (trace ++ requestActs host rps decision) := by
  have hacquired : Lawful sha256 service inputEvent (trace ++ [.acquired oneRequest decision]) :=
    h.snoc trivial
  -- the request stands second, so a split of the whole is a split of the old trace or this one
  have hrequested : ∀ released : VHostTrace tables,
      (∀ lease, decision.lease = some lease → released = [.released lease.leaseId]) →
      (released = [] ∨ ∃ id, released = [.released id]) →
      Lawful sha256 service inputEvent
        (trace ++ [.acquired oneRequest decision] ++ [.requested host rps] ++ released) := by
    intro released hreleased hshape
    have hcut : ∀ {before after : VHostTrace tables} {act : VHostAct tables},
        trace ++ [.acquired oneRequest decision] ++ [.requested host rps] ++ released =
          before ++ act :: after → (∀ id, act ≠ .released id) →
        (before = trace ++ [.acquired oneRequest decision] ∧ act = .requested host rps ∧
            after = released) ∨
          ∃ after', after = after' ++ .requested host rps :: released ∧
            trace ++ [.acquired oneRequest decision] = before ++ act :: after' := by
      intro before after act hsplit hact
      rcases hshape with rfl | ⟨id, rfl⟩
      · rw [List.append_nil] at hsplit
        rcases split_snoc hsplit with ⟨hnil, hbefore, hlast⟩ | ⟨after', hafter, hold⟩
        · exact .inl ⟨hbefore.symm, hlast.symm, hnil⟩
        · exact .inr ⟨after', hafter, hold⟩
      · rcases split_snoc hsplit with ⟨-, -, hlast⟩ | ⟨after', hafter, hold⟩
        · exact absurd hlast.symm (hact id)
        rcases split_snoc hold with ⟨hnil, hbefore, hlast⟩ | ⟨after'', hafter', hold'⟩
        · exact .inl ⟨hbefore.symm, hlast.symm, by rw [hafter, hnil]; rfl⟩
        · exact .inr ⟨after'', by rw [hafter, hafter']; simp, hold'⟩
    refine ⟨?_, ?_, ?_, ?_⟩
    · intro before host' rps' after hsplit
      rcases hcut hsplit (by simp) with ⟨rfl, hact, -⟩ | ⟨after', -, hold⟩
      · cases hact
        obtain ⟨d, hd, hstate⟩ := hhost
        exact ⟨d, List.mem_append_left _ hd, hstate⟩
      · exact hacquired.authorised before host' rps' after' hold
    · intro before host' rps' after hsplit
      rcases hcut hsplit (by simp) with ⟨rfl, -, rfl⟩ | ⟨after', rfl, hold⟩
      · exact ⟨trace, oneRequest, decision, rfl, rfl, rfl, hallow,
          fun lease hlease => ⟨[], hreleased lease hlease⟩⟩
      · obtain ⟨earlier, demand, d, hbefore, hrequests, hslots, hallow', hlease⟩ :=
          hacquired.leased before host' rps' after' hold
        refine ⟨earlier, demand, d, hbefore, hrequests, hslots, hallow', ?_⟩
        intro lease hsome
        obtain ⟨later, rfl⟩ := hlease lease hsome
        exact ⟨_, rfl⟩
    · intro before host' result after hsplit
      rcases hcut hsplit (by simp) with ⟨-, hact, -⟩ | ⟨after', -, hold⟩
      · cases hact
      · exact hacquired.answered before host' result after' hold
    · intro before p after hsplit
      rcases hcut hsplit (by simp) with ⟨-, hact, -⟩ | ⟨after', -, hold⟩
      · cases hact
      · exact hacquired.evidenced before p after' hold
  cases hlease : decision.lease with
  | none =>
    have hall := hrequested [] (by simp [hlease]) (.inl rfl)
    simpa [requestActs, hlease] using hall
  | some lease =>
    have hall := hrequested [.released lease.leaseId] (by simp [hlease]) (.inr ⟨_, rfl⟩)
    simpa [requestActs, hlease] using hall

/-! ## Following the program -/

section Triples

/-- The trace is lawful, and these acts are in it. -/
def Known (sha256 : String → String) (service : VHostService) (inputEvent : Event)
    (facts : VHostTrace tables) (trace : VHostTrace tables) : Prop :=
  Lawful sha256 service inputEvent trace ∧ facts ⊆ trace

variable {facts : VHostTrace tables} {c : VHostCollaborators tables} {config : VHostWorkerConfig}
  {α β : Type} {host : String}

theorem Known.weaken {facts' : VHostTrace tables} (h : Known sha256 service inputEvent facts' trace)
    (hsub : facts ⊆ facts') : Known sha256 service inputEvent facts trace :=
  ⟨h.1, fun _ hact => h.2 (hsub hact)⟩

theorem Authorised.mono {facts' : VHostTrace tables} (h : Authorised facts host) (hsub : facts ⊆ facts') :
    Authorised facts' host := by
  obtain ⟨decision, hdecision, hstate⟩ := h
  exact ⟨decision, hsub hdecision, hstate⟩

theorem Evidenced.mono {facts' : VHostTrace tables} {p : VHostPublication tables}
    (h : Evidenced sha256 service inputEvent facts p) (hsub : facts ⊆ facts') :
    Evidenced sha256 service inputEvent facts' p := by
  obtain ⟨hauthorised, parent, first, second, hparent, hcontrols, hfirst, hfok, hsecond, hsok, hown,
    hok, hdiffers⟩ := h
  exact ⟨hauthorised.mono hsub, parent, first, second, hparent, hcontrols, hsub hfirst, hfok,
    hsub hsecond, hsok, hsub hown, hok, hdiffers⟩

/-- A part of the program: from what is known before it to what is known after it. It may raise, and
    the trace is lawful then. -/
def Follows (sha256 : String → String) (service : VHostService) (inputEvent : Event)
    (facts : VHostTrace tables) (p : VHostProg tables α) (after : α → VHostTrace tables → Prop) : Prop :=
  Triple (Known sha256 service inputEvent facts) p after
    fun _ => Lawful sha256 service inputEvent

/-- What is known after a part that gives a result or ends the run. -/
def Gives (Q : α → VHostTrace tables → Prop) (ended : VHostTrace tables → Prop) :
    α ⊕ WorkerExecutionResult → VHostTrace tables → Prop
  | .inl a => Q a
  | .inr _ => ended

theorem Follows.ask (f : VHostTrace tables → Except PyError α) : Follows sha256 service inputEvent facts (askVHost f)
      fun _ => Known sha256 service inputEvent facts := by
  apply Triple.act
  intro t ht
  cases f t with
  | ok a => exact ht
  | error e => exact ht.1

theorem Follows.answer (r : Except PyError α) : Follows sha256 service inputEvent facts (Prog.answer r)
    fun a t => r = .ok a ∧ Known sha256 service inputEvent facts t := by
  intro t ht
  cases r with
  | ok a => exact ⟨rfl, ht⟩
  | error e => exact ht.1

theorem Follows.tell (act : VHostAct tables)
    (hact : ∀ t, Known sha256 service inputEvent facts t → Admissible sha256 service inputEvent t act) :
    Follows sha256 service inputEvent facts (tellVHost act)
      fun _ => Known sha256 service inputEvent (act :: facts) := by
  intro t ht
  refine ⟨ht.1.snoc (hact t ht), ?_⟩
  intro a ha
  rcases List.mem_cons.mp ha with rfl | ha
  · simp
  · exact List.mem_append_left _ (ht.2 ha)

theorem Follows.endWith (ended : Except PyError WorkerExecutionResult) {Q : α → VHostTrace tables → Prop} :
    Follows sha256 service inputEvent facts (NightScout.endWith ended)
      (Gives Q (Known sha256 service inputEvent facts)) := by
  apply Triple.bind (Follows.answer ended)
  intro a
  exact Triple.pure fun t ht => ht.2

/-- Classifying makes the answer known. -/
theorem Follows.classify (host : String) : Follows sha256 service inputEvent facts (classifyHost c host)
    fun d => Known sha256 service inputEvent (.classified host d :: facts) := by
  apply Triple.bind (Follows.ask _)
  intro decision
  apply Triple.bind (Follows.tell (.classified host decision) fun _ _ => trivial)
  intro _
  exact Triple.pure fun _ ht => ht

/-- Results collected from a stream match. -/
theorem collectResults_ok {results : List VHostProbeResult} {found first : Option VHostProbeResult}
    {more : Bool} (h : collectResults tables service host results found = .ok (first, more))
    (hfound : ∀ r, found = some r → resultMatchesProbe tables r service host = .ok true) :
    ∀ r, first = some r → resultMatchesProbe tables r service host = .ok true := by
  induction results generalizing found with
  | nil =>
    cases h
    exact hfound
  | cons result results ih =>
    unfold collectResults at h
    obtain ⟨matched, hmatched, h⟩ := bind_ok h
    cases matched with
    | false => exact ih h hfound
    | true =>
      cases found with
      | some earlier =>
        cases h
        exact hfound
      | none =>
        apply ih h
        intro r hr
        cases hr
        exact hmatched

/-- The request itself: it adds the one act, and a result matches. -/
theorem requestOne_triple (start : VHostTrace tables) (rps : Option ℕ) :
    Triple (· = start) (requestOne c config service host rps)
      (fun r t => t = start ++ [VHostAct.requested host rps] ∧
        ∀ result, r = .inl result → resultMatchesProbe tables result service host = .ok true)
      (fun _ t => t = start ++ [VHostAct.requested host rps]) := by
  unfold requestOne
  refine Triple.bind (R := fun _ t => t = start ++ [VHostAct.requested host rps]) (fun t ht => by rw [ht]; rfl) ?_
  intro _
  refine Triple.bind (R := fun _ t => t = start ++ [VHostAct.requested host rps])
    (Triple.act fun t ht => ht) ?_
  intro ⟨results, ending⟩
  refine Triple.bind (R := fun found t => t = start ++ [VHostAct.requested host rps] ∧
    ∀ r, found.1 = some r → resultMatchesProbe tables r service host = .ok true) ?_ ?_
  · intro t ht
    cases hcollect : collectResults tables service host results none with
    | error e => exact ht
    | ok found => exact ⟨ht, collectResults_ok hcollect (by simp)⟩
  intro ⟨found, more⟩
  have hend : ∀ ended : Except PyError WorkerExecutionResult,
      Triple (fun t => t = start ++ [VHostAct.requested host rps] ∧
          ∀ r, found = some r → resultMatchesProbe tables r service host = .ok true)
        (endWith ended : VHostProg tables (VHostProbeResult ⊕ WorkerExecutionResult))
        (fun r t => t = start ++ [VHostAct.requested host rps] ∧
          ∀ result, r = .inl result → resultMatchesProbe tables result service host = .ok true)
        (fun _ t => t = start ++ [VHostAct.requested host rps]) := by
    intro ended t ht
    cases ended with
    | ok a => exact ⟨ht.1, by simp⟩
    | error e => exact ht.1
  dsimp only
  split
  · exact hend _
  · split
    · exact hend _
    · exact hend _
    · exact hend _
    · exact fun t ht => ht.1
    · exact hend _
    · apply Triple.pure
      intro t ht
      refine ⟨ht.1, ?_⟩
      intro result hresult
      cases hresult
      exact ht.2 _ rfl

/-- The `finally` block adds the release of the lease, if there is one. -/
theorem releaseLease_trace (lease : Option RateLimitLease) (t : VHostTrace tables) : ((releaseLease c lease).exec t).2 =
      t ++ (lease.map fun lease => VHostAct.released lease.leaseId).toList := by
  cases lease with
  | none => simp [releaseLease]
  | some lease =>
    have htold : (tellVHost (.released lease.leaseId) : VHostProg tables Unit).exec t =
        (.ok (), t ++ [.released lease.leaseId]) := rfl
    show ((tellVHost (.released lease.leaseId) >>= fun _ =>
      (askVHost fun t => .ok (c.release t lease.leaseId)) >>= Prog.raising :
        VHostProg tables Unit).exec t).2 = _
    rw [Prog.exec_bind_ok htold]
    have hasked : (askVHost fun t => .ok (c.release t lease.leaseId)).exec
        (t ++ [.released lease.leaseId]) =
          (.ok (c.release (t ++ [.released lease.leaseId]) lease.leaseId),
            t ++ [.released lease.leaseId]) := rfl
    rw [Prog.exec_bind_ok hasked]
    cases c.release (t ++ [.released lease.leaseId]) lease.leaseId <;> rfl

theorem releaseLease_triple (lease : Option RateLimitLease) (start : VHostTrace tables) :
    Triple (· = start) (releaseLease c lease)
      (fun _ t => t = start ++ (lease.map fun lease => VHostAct.released lease.leaseId).toList)
      (fun _ t => t = start ++ (lease.map fun lease => VHostAct.released lease.leaseId).toList) := by
  intro t ht
  have htrace := releaseLease_trace (c := c) lease t
  cases hrun : (releaseLease c lease).exec t with
  | mk r t' =>
    rw [hrun, ht] at htrace
    cases r <;> exact htrace

/-- The request with its `finally` block, right after its acquisition. -/
theorem leasedRequest_triple {start : VHostTrace tables} (hstart : Known sha256 service inputEvent facts start)
    (hhost : Authorised facts host) (rps : Option ℕ) {decision : RateLimitDecision}
    (hallow : decision.outcome = .allow) : Triple (· = start ++ [VHostAct.acquired oneRequest decision])
      ((requestOne c config service host rps).finally' (releaseLease c decision.lease))
      (fun r t => Known sha256 service inputEvent (.requested host rps :: facts) t ∧
        ∀ result, r = .inl result → resultMatchesProbe tables result service host = .ok true)
      (fun _ => Lawful sha256 service inputEvent) := by
  have hacts : start ++ [VHostAct.acquired oneRequest decision] ++ [.requested host rps] ++
      (decision.lease.map fun lease => VHostAct.released lease.leaseId).toList =
        start ++ requestActs host rps decision := by
    simp [requestActs]
  have hlawful : Lawful sha256 service inputEvent (start ++ requestActs host rps decision) :=
    hstart.1.request (hhost.mono hstart.2) rps hallow
  have hknown : Known sha256 service inputEvent (.requested host rps :: facts)
      (start ++ requestActs host rps decision) := by
    refine ⟨hlawful, ?_⟩
    intro act hact
    rcases List.mem_cons.mp hact with rfl | hact
    · simp [requestActs]
    · exact List.mem_append_left _ (hstart.2 hact)
  apply Triple.finally' (requestOne_triple _ rps)
  · intro r
    refine @Triple.conseq _ _ _ _ (fun t =>
      (∀ result, r = .inl result → resultMatchesProbe tables result service host = .ok true) ∧
        t = start ++ [.acquired oneRequest decision] ++ [.requested host rps]) _ _ _ _ _
      (Triple.intro_and fun hmatches => Triple.conseq (releaseLease_triple decision.lease _)
        (fun _ h => h) (fun _ t ht => ?_) (fun _ t ht => ?_))
      (fun _ h => ⟨h.2, h.1⟩) (fun _ _ h => h) (fun _ _ h => h)
    · rw [ht, hacts]
      exact ⟨hknown, hmatches⟩
    · rw [ht, hacts]
      exact hlawful
  · intro e
    apply Triple.conseq (releaseLease_triple decision.lease _) (fun _ h => h)
    · intro _ t ht
      rw [ht, hacts]
      exact hlawful
    · intro _ t ht
      rw [ht, hacts]
      exact hlawful

/-- **A request is made under a lease of its own**, and gives one result or what ends the run. -/
theorem Follows.probeOne (hhost : Authorised facts host) :
    Follows sha256 service inputEvent facts (probeOne c config service host)
      (Gives (fun result => Known sha256 service inputEvent (.probed host result :: facts))
        (Known sha256 service inputEvent facts)) := by
  unfold NightScout.probeOne
  apply Triple.bind (Follows.ask _)
  intro cliRps
  apply Triple.bind (Follows.ask _)
  intro decision
  refine Triple.bind (R := fun _ t => ∃ start : VHostTrace tables,
    t = start ++ [VHostAct.acquired oneRequest decision] ∧ Known sha256 service inputEvent facts start)
    (fun t ht => ⟨t, rfl, ht⟩) ?_
  intro _
  apply Triple.intro_ex
  intro start hstart
  -- the acquisition alone keeps the trace lawful; with an `ALLOW` the request comes right after it
  have hacquired : Known sha256 service inputEvent facts
      (start ++ [VHostAct.acquired oneRequest decision]) :=
    ⟨hstart.1.snoc trivial, fun _ hact => List.mem_append_left _ (hstart.2 hact)⟩
  have hended : ∀ ended : Except PyError WorkerExecutionResult,
      Triple (· = start ++ [VHostAct.acquired oneRequest decision]) (NightScout.endWith ended)
        (Gives (fun result => Known sha256 service inputEvent (.probed host result :: facts))
          (Known sha256 service inputEvent facts))
        (fun _ => Lawful sha256 service inputEvent) := by
    intro ended
    exact Triple.conseq (Follows.endWith ended) (fun t ht => ht ▸ hacquired) (fun _ _ h => h)
      (fun _ _ h => h)
  cases houtcome : decision.outcome with
  | defer => exact hended _
  | deny => exact hended _
  | allow =>
    apply Triple.bind (leasedRequest_triple hstart hhost cliRps houtcome)
    intro r
    cases r with
    | inl result =>
      refine @Triple.conseq _ _ _ _ (fun t =>
        resultMatchesProbe tables result service host = .ok true ∧
          Known sha256 service inputEvent (.requested host cliRps :: facts) t) _ _ _ _ _
        (Triple.intro_and fun hmatches => ?_)
        (fun t ht => ⟨ht.2 result rfl, ht.1⟩) (fun _ _ h => h) (fun _ _ h => h)
      apply Triple.bind (Follows.tell (.probed host result) fun t ht =>
        ⟨⟨cliRps, ht.2 List.mem_cons_self⟩, hmatches⟩)
      intro _
      apply Triple.pure
      intro t ht
      apply ht.weaken
      intro act hact
      rcases List.mem_cons.mp hact with rfl | hact
      · exact List.mem_cons_self
      · exact List.mem_cons_of_mem _ (List.mem_cons_of_mem _ hact)
    | inr ended => exact Triple.pure fun t ht => ht.1.weaken (List.subset_cons_self _ _)

/-- The part keeps what is known and learns more, of which `learned` holds. -/
def Learns (sha256 : String → String) (service : VHostService) (inputEvent : Event)
    (facts : VHostTrace tables) (p : VHostProg tables α) (learned : α → VHostTrace tables → Prop) : Prop :=
  Follows sha256 service inputEvent facts p fun a t =>
    ∃ facts', Known sha256 service inputEvent facts' t ∧ facts ⊆ facts' ∧ learned a facts'

theorem Learns.bind {p : VHostProg tables α} {f : α → VHostProg tables β}
    {learned : α → VHostTrace tables → Prop} {after : β → VHostTrace tables → Prop}
    (hp : Learns sha256 service inputEvent facts p learned) (hf : ∀ a facts', facts ⊆ facts' → learned a facts' →
      Follows sha256 service inputEvent facts' (f a) after) : Follows sha256 service inputEvent facts (p >>= f) after :=
  Triple.bind hp fun a => Triple.intro_ex fun facts' hlearned => hf a facts' hlearned.1 hlearned.2

theorem Learns.classify (host : String) : Learns sha256 service inputEvent facts (classifyHost c host)
      fun d facts' => d.state = .inScope → Authorised facts' host := by
  apply Triple.conseq (Follows.classify host) (fun _ h => h) (fun d t ht => ?_) (fun _ _ h => h)
  exact ⟨_, ht, List.subset_cons_self _ _, fun hstate => ⟨d, List.mem_cons_self, hstate⟩⟩

theorem Learns.pure {a : α} {learned : α → VHostTrace tables → Prop} (h : learned a facts) :
    Learns sha256 service inputEvent facts (Pure.pure a) learned :=
  Triple.pure fun _ ht => ⟨facts, ht, fun _ hact => hact, h⟩

theorem Learns.mono {p : VHostProg tables α} {learned : α → VHostTrace tables → Prop}
    {facts' : VHostTrace tables} (h : Learns sha256 service inputEvent facts' p learned) (hsub : facts ⊆ facts') :
    Follows sha256 service inputEvent facts' p fun a t =>
      ∃ facts'', Known sha256 service inputEvent facts'' t ∧ facts ⊆ facts'' ∧ learned a facts'' := by
  apply Triple.conseq h (fun _ ht => ht) (fun a t ht => ?_) (fun _ _ he => he)
  obtain ⟨facts'', hknown, hgrown, hlearned⟩ := ht
  exact ⟨facts'', hknown, fun _ hact => hgrown (hsub hact), hlearned⟩

/-- The candidates that are tested were classified IN_SCOPE. -/
theorem Learns.authorizeCandidates (lane : CandidateLane) : ∀ (candidates : List (VHostCandidate tables))
    (facts : VHostTrace tables),
    Learns sha256 service inputEvent facts (authorizeCandidates c lane candidates)
      fun authorized facts' => ∀ item ∈ authorized, Authorised facts' item.1.hostname
  | [], facts => Learns.pure (by simp)
  | candidate :: candidates, facts => by
    unfold NightScout.authorizeCandidates
    split
    · exact Learns.authorizeCandidates lane candidates facts
    · apply Learns.bind (Learns.classify candidate.hostname)
      intro decision facts₁ hsub₁ hdecision
      apply Learns.bind (Learns.authorizeCandidates lane candidates facts₁)
      intro rest facts₂ hsub₂ hrest
      apply Learns.mono (Learns.pure ?_) fun _ hact => hsub₂ (hsub₁ hact)
      intro item hitem
      split at hitem
      next hstate =>
        rcases List.mem_cons.mp hitem with rfl | hitem
        · exact (hdecision hstate).mono hsub₂
        · exact hrest item hitem
      · exact hrest item hitem

theorem Learns.authorizeControls (controls : String × String) :
    Learns sha256 service inputEvent facts (authorizeControls c controls)
      fun authorized facts' => authorized = true →
        Authorised facts' controls.1 ∧ Authorised facts' controls.2 := by
  unfold NightScout.authorizeControls
  apply Learns.bind (Learns.classify controls.1)
  intro first facts₁ hsub₁ hfirst
  split
  · exact (Learns.pure (by simp)).mono hsub₁
  next hstate =>
    apply Learns.bind (Learns.classify controls.2)
    intro second facts₂ hsub₂ hsecond
    apply Learns.mono (Learns.pure ?_) fun _ hact => hsub₂ (hsub₁ hact)
    intro hboth
    exact ⟨(hfirst (not_not.mp hstate)).mono hsub₂, hsecond (of_decide_eq_true hboth)⟩

/-- A control that is used answered its request, and did not fail. -/
theorem Follows.probeControl {control : String} (parentDomain : String) (hcontrol : Authorised facts control) :
    Follows sha256 service inputEvent facts (probeControl c config service parentDomain control)
      (Gives (fun result t => result.failed = false ∧
          Known sha256 service inputEvent (.probed control result :: facts) t)
        (Known sha256 service inputEvent facts)) := by
  unfold NightScout.probeControl
  apply Triple.bind (Follows.probeOne hcontrol)
  intro r
  cases r with
  | inr ended => exact Triple.pure fun _ ht => ht
  | inl result =>
    have hprobed : ∀ t, Gives (fun result => Known sha256 service inputEvent
        (.probed control result :: facts)) (Known sha256 service inputEvent facts) (.inl result) t →
        Known sha256 service inputEvent (.probed control result :: facts) t := fun _ ht => ht
    have hended : ∀ ended : Except PyError WorkerExecutionResult,
        Follows sha256 service inputEvent facts (NightScout.endWith ended)
          (Gives (fun result t => result.failed = false ∧
            Known sha256 service inputEvent (.probed control result :: facts) t)
            (Known sha256 service inputEvent facts)) := fun ended => Follows.endWith ended
    dsimp only
    cases hfailed : result.failed with
    | true =>
      rw [if_pos rfl]
      generalize WorkerExecutionResult.again _ _ = ended
      exact fun t ht => hended ended t ((hprobed t ht).weaken (List.subset_cons_self _ _))
    | false =>
      rw [if_neg Bool.false_ne_true]
      exact Triple.pure fun t ht => ⟨hfailed, hprobed t ht⟩

/-- What is published is published on evidence. -/
theorem Follows.publishHit {candidate : VHostCandidate tables} {scopeDecision : ScopeDecision}
    {first second result : VHostProbeResult} {controls : String × String} {parent : String}
    {differential : VHostDifferential} {name : SignatureField} (hauthorised : Authorised facts candidate.hostname)
    (hparent : immediateParentDomain tables candidate.hostname = .ok (some parent))
    (hcontrols : deterministicControlHostnames tables sha256 parent service inputEvent = .ok controls)
    (hfirst : VHostAct.probed controls.1 first ∈ facts) (hfok : first.failed = false)
    (hsecond : VHostAct.probed controls.2 second ∈ facts) (hsok : second.failed = false)
    (hown : VHostAct.probed candidate.hostname result ∈ facts) (hok : result.failed = false)
    (hdiffers : DiffersFromBoth (responseSignature tables first) (responseSignature tables second)
      (responseSignature tables result) name) : Follows sha256 service inputEvent facts
      (publishHit c config service candidate scopeDecision first controls result differential)
      fun _ => Known sha256 service inputEvent facts := by
  have hevidence : ∀ (p : VHostPublication tables) t, p.candidate = candidate →
      p.baselineControlHostnames = controls → p.result = result → facts ⊆ t →
      Evidenced sha256 service inputEvent t p := by
    intro p t hcandidate hnames hresult hsub
    have hhere : Evidenced sha256 service inputEvent facts p := by
      refine ⟨?_, parent, first, second, ?_⟩
      · rw [hcandidate]
        exact hauthorised
      · rw [hnames, hresult, hcandidate]
        exact ⟨hparent, hcontrols, hfirst, hfok, hsecond, hsok, hown, hok, name, hdiffers⟩
    exact hhere.mono hsub
  unfold NightScout.publishHit
  apply Triple.bind (Follows.ask _)
  intro accepted
  apply Triple.bind (Follows.tell (.published _) fun t ht => hevidence _ t rfl rfl rfl ht.2)
  intro _
  apply Triple.bind (Follows.ask _)
  intro _
  apply Triple.conseq (Follows.tell (.published _) fun t ht =>
    hevidence _ t rfl rfl rfl fun _ hact => ht.2 (List.mem_cons_of_mem _ hact)) (fun _ h => h)
  · intro _ t ht
    apply ht.weaken
    intro act hact
    exact List.mem_cons_of_mem _ (List.mem_cons_of_mem _ hact)
  · exact fun _ _ h => h

/-- The controls of a group: what `_publish_hit` is given of them. -/
structure Baseline (sha256 : String → String) (service : VHostService) (inputEvent : Event)
    (facts : VHostTrace tables) (parent : String) (controls : String × String)
    (first second : VHostProbeResult) : Prop where
  named : deterministicControlHostnames tables sha256 parent service inputEvent = .ok controls
  firstProbed : VHostAct.probed controls.1 first ∈ facts
  first_ok : first.failed = false
  secondProbed : VHostAct.probed controls.2 second ∈ facts
  second_ok : second.failed = false

theorem Baseline.mono {parent : String} {controls : String × String} {first second : VHostProbeResult}
    {facts' : VHostTrace tables} (h : Baseline sha256 service inputEvent facts parent controls first second)
    (hsub : facts ⊆ facts') : Baseline sha256 service inputEvent facts' parent controls first second :=
  ⟨h.named, hsub h.firstProbed, h.first_ok, hsub h.secondProbed, h.second_ok⟩

theorem Follows.testCandidates {parent : String} {controls : String × String}
    {first second : VHostProbeResult} : ∀ (group : List (VHostCandidate tables × ScopeDecision))
    (facts : VHostTrace tables), Baseline sha256 service inputEvent facts parent controls first second →
    (∀ item ∈ group, Authorised facts item.1.hostname ∧ parentOf item = .ok (some parent)) →
    Follows sha256 service inputEvent facts
      (testCandidates c config service controls first second group)
      fun _ => Known sha256 service inputEvent facts
  | [], facts, _, _ => Triple.pure fun _ ht => ht
  | (candidate, scopeDecision) :: rest, facts, hbaseline, hgroup => by
    obtain ⟨hauthorised, hparent⟩ := hgroup _ List.mem_cons_self
    unfold NightScout.testCandidates
    apply Triple.bind (Follows.probeOne hauthorised)
    intro r
    cases r with
    | inr ended => exact Triple.pure fun _ ht => ht
    | inl result =>
      -- the probe of the candidate is known from here on
      have hsub : facts ⊆ .probed candidate.hostname result :: facts := List.subset_cons_self _ _
      have hrest := Follows.testCandidates rest _ (hbaseline.mono hsub) fun item hitem =>
        ⟨(hgroup item (List.mem_cons_of_mem _ hitem)).1.mono hsub,
          (hgroup item (List.mem_cons_of_mem _ hitem)).2⟩
      have hnext : Follows sha256 service inputEvent (.probed candidate.hostname result :: facts)
          (NightScout.testCandidates c config service controls first second rest)
          fun _ => Known sha256 service inputEvent facts :=
        Triple.conseq hrest (fun _ h => h) (fun _ _ h => h.weaken hsub) (fun _ _ h => h)
      dsimp only
      split
      next hhit =>
        rw [Bool.and_eq_true, Bool.not_eq_true'] at hhit
        obtain ⟨name, hdiffers⟩ := differsFromBoth_of_interesting hhit.2
        exact Triple.bind (Follows.publishHit (hauthorised.mono hsub) hparent hbaseline.named
          (hsub hbaseline.firstProbed) hbaseline.first_ok (hsub hbaseline.secondProbed) hbaseline.second_ok
          List.mem_cons_self hhit.1 hdiffers) fun _ => hnext
      · exact fun t ht => hnext t ht

theorem Follows.testGroup {parent : String} {group : List (VHostCandidate tables × ScopeDecision)}
    (hgroup : ∀ item ∈ group, Authorised facts item.1.hostname ∧ parentOf item = .ok (some parent)) :
    Follows sha256 service inputEvent facts (testGroup sha256 c config service inputEvent parent group)
      fun _ => Known sha256 service inputEvent facts := by
  unfold NightScout.testGroup
  generalize hnamed : deterministicControlHostnames tables sha256 parent service inputEvent = named
  apply Triple.bind (Follows.answer named)
  intro controls
  apply Triple.intro_and
  intro hcontrols
  rw [hcontrols] at hnamed
  apply Learns.bind (Learns.authorizeControls controls)
  intro authorized facts₁ hsub₁ hboth
  cases authorized with
  | false => exact Triple.pure fun _ ht => ht.weaken hsub₁
  | true =>
    obtain ⟨hfirst, hsecond⟩ := hboth rfl
    apply Triple.bind (Follows.probeControl parent hfirst)
    intro r
    cases r with
    | inr ended => exact Triple.pure fun _ ht => Known.weaken ht hsub₁
    | inl first =>
      apply Triple.intro_and
      intro hfok
      have hsub₂ : facts₁ ⊆ .probed controls.1 first :: facts₁ := List.subset_cons_self _ _
      apply Triple.bind (Follows.probeControl parent (hsecond.mono hsub₂))
      intro r
      cases r with
      | inr ended => exact Triple.pure fun _ ht => Known.weaken ht fun _ hact => hsub₂ (hsub₁ hact)
      | inl second =>
        apply Triple.intro_and
        intro hsok
        have hsub₃ : facts ⊆ .probed controls.2 second :: .probed controls.1 first :: facts₁ :=
          fun _ hact => List.mem_cons_of_mem _ (List.mem_cons_of_mem _ (hsub₁ hact))
        have hbaseline : Baseline sha256 service inputEvent
            (.probed controls.2 second :: .probed controls.1 first :: facts₁) parent controls first second :=
          ⟨hnamed, by simp, hfok, by simp, hsok⟩
        dsimp only
        split
        · exact Triple.pure fun _ ht => ht.weaken hsub₃
        · exact Triple.conseq (Follows.testCandidates group _ hbaseline fun item hitem =>
              ⟨(hgroup item hitem).1.mono hsub₃, (hgroup item hitem).2⟩)
            (fun _ h => h) (fun _ _ h => h.weaken hsub₃) (fun _ _ h => h)

-- a group's triple is used without looking into the names of its controls
attribute [local irreducible] deterministicControlHostnames

theorem Follows.testGroups {authorized : List (VHostCandidate tables × ScopeDecision)}
    (hauthorized : ∀ item ∈ authorized, Authorised facts item.1.hostname) (parents : List String) :
    Follows sha256 service inputEvent facts (testGroups sha256 c config service inputEvent authorized parents)
      fun _ => Known sha256 service inputEvent facts := by
  induction parents with
  | nil => exact Triple.pure fun _ ht => ht
  | cons parent parents ih =>
    have hgroup : ∀ item ∈ groupOf authorized parent,
        Authorised facts item.1.hostname ∧ parentOf item = .ok (some parent) := by
      intro item hitem
      obtain ⟨hmem, hparent⟩ := List.mem_filter.mp hitem
      exact ⟨hauthorized item hmem, of_decide_eq_true hparent⟩
    have hfirst : Follows sha256 service inputEvent facts
        (NightScout.testGroup sha256 c config service inputEvent parent (groupOf authorized parent))
        fun _ => Known sha256 service inputEvent facts := Follows.testGroup hgroup
    unfold NightScout.testGroups
    apply Triple.bind hfirst
    intro r
    cases r with
    | none => exact ih
    | some ended => exact Triple.pure fun _ ht => ht

theorem Follows.discover (lane : CandidateLane) (candidateLimitHint : Option ℕ) :
    Follows sha256 service inputEvent ([] : VHostTrace tables)
      (discover sha256 c config service inputEvent lane candidateLimitHint)
      fun _ => Lawful sha256 service inputEvent := by
  unfold NightScout.discover
  apply Triple.bind (Follows.answer _)
  intro candidates
  apply Triple.intro_and
  intro _
  apply Learns.bind (Learns.authorizeCandidates lane candidates [])
  intro authorized facts' _ hauthorized
  apply Triple.bind (Follows.answer _)
  intro parents
  apply Triple.intro_and
  intro _
  exact Triple.conseq (Follows.testGroups hauthorized _) (fun _ h => h) (fun _ _ h => h.1)
    (fun _ _ h => h)

/-- **Every run of the virtual host worker is lawful**, whatever its collaborators answer or raise: it
    did nothing, or its input event is a service and its trace keeps the law. -/
theorem execute_lawful (sha256 : String → String) (c : VHostCollaborators tables)
    (config : VHostWorkerConfig) (intOf : String → Option ℤ) (task : Task) (candidateLimitHint : Option ℕ) :
    ((executeVHost sha256 c config intOf task candidateLimitHint).exec []).2 = [] ∨
      ∃ inputEvent service, c.getEvent task.inputEventId.text = .ok (some inputEvent) ∧
        serviceFromEvent tables intOf inputEvent = .ok service ∧ Lawful sha256 service inputEvent
          ((executeVHost sha256 c config intOf task candidateLimitHint).exec []).2 := by
  unfold executeVHost
  split
  · exact .inl rfl
  split
  · exact .inl rfl
  split
  · exact .inl rfl
  next lane _ =>
    cases hevent : c.getEvent task.inputEventId.text with
    | error e =>
      left
      rw [Prog.exec_bind_error (Prog.exec_answer _ _)]
    | ok found =>
      rw [Prog.exec_bind_ok (Prog.exec_answer _ _)]
      cases found with
      | none => exact .inl rfl
      | some inputEvent =>
        dsimp only
        split
        · exact .inl rfl
        · exact .inl rfl
        · exact .inl rfl
        · exact .inl rfl
        · exact .inl rfl
        · exact .inl rfl
        next service hservice _ =>
          right
          refine ⟨inputEvent, service, rfl, hservice, ?_⟩
          have hfollows : Follows sha256 service inputEvent []
              (discover sha256 c config service inputEvent lane candidateLimitHint)
              fun _ => Lawful sha256 service inputEvent := Follows.discover lane candidateLimitHint
          have hrun := hfollows [] ⟨Lawful.nil, fun _ h => h⟩
          cases hexec : (discover sha256 c config service inputEvent lane candidateLimitHint).exec [] with
          | mk r trace =>
            rw [hexec] at hrun
            cases r <;> exact hrun

end Triples

end Authority

end NightScout
