import NightScout.Storage.AssetRows
import NightScout.Storage.Provenance

/-!
# Whether provenance is acyclic

Observations are ingested, edges are added and primary parents are captured, in any order. Every causal edge
is checked, but an edge of `CORRELATED_FROM` is not, and it sets the primary parent of a child that has
none; `correlation_closes_a_cycle` is such a run. `provenance_acyclic_iff` is that nothing else closes a
cycle.
-/

namespace NightScout

open Lib Relation

namespace ProvenanceDb

/-- The causes of observations are observations. -/
def Closed (db : ProvenanceDb) : Prop :=
  ∀ x y, db.Causes x y → db.events.Stored x ∧ db.events.Stored y

variable {db : ProvenanceDb}

/-- An `add_edge` that is not checked, and passes every other test. -/
def Accepted (db : ProvenanceDb) (call : AddEdge) : Prop :=
  (strip call.parentEventId ≠ "" ∧ strip call.childEventId ≠ "") ∧
  strip call.parentEventId ≠ strip call.childEventId ∧ strip call.source ≠ "" ∧
  (0 ≤ call.confidence ∧ call.confidence ≤ 1) ∧
  db.events.Stored (strip call.parentEventId) ∧ db.events.Stored (strip call.childEventId) ∧
  ((db.edgeOf (strip call.parentEventId) (strip call.childEventId) call.relation
    (strip call.source)).isSome = true ∨ (db.edges.get? call.edgeId).isNone = true)

instance (db : ProvenanceDb) (call : AddEdge) : Decidable (db.Accepted call) :=
  inferInstanceAs (Decidable (_ ∧ _ ∧ _ ∧ _ ∧ _ ∧ _ ∧ _))

/-- Without the check for a cycle, the tests that are left decide. -/
theorem addEdge_accepted {call : AddEdge} (hrelation : call.relation.isCausal = false) :
    (∃ edge db', db.addEdge call = (.ok edge, db')) ↔ db.Accepted call := by
  unfold addEdge Accepted EventDb.Stored
  simp only [hrelation, Bool.false_eq_true, false_and, if_false]
  by_cases hblank : strip call.parentEventId = "" ∨ strip call.childEventId = ""
  · rw [if_pos hblank]
    constructor
    · rintro ⟨_, _, h⟩
      cases h
    · rintro ⟨⟨hparent, hchild⟩, _⟩
      exact absurd hblank (not_or.mpr ⟨hparent, hchild⟩)
  rw [if_neg hblank]
  obtain ⟨hparent, hchild⟩ := not_or.mp hblank
  by_cases hself : strip call.parentEventId = strip call.childEventId
  · simp [hself]
  rw [if_neg hself]
  by_cases hsource : strip call.source = ""
  · simp [hsource]
  rw [if_neg hsource]
  by_cases hconfidence : 0 ≤ call.confidence ∧ call.confidence ≤ 1
  · rw [if_neg (not_not.mpr hconfidence)]
    cases hgetParent : db.events.observations.get? (strip call.parentEventId) with
    | none => simp
    | some parentRow =>
      cases hgetChild : db.events.observations.get? (strip call.childEventId) with
      | none => simp
      | some row =>
        unfold writeEdge
        cases hedge : db.edgeOf (strip call.parentEventId) (strip call.childEventId) call.relation
            (strip call.source) with
        | some e => simp [hparent, hchild, hself, hsource, hconfidence]
        | none =>
          cases hid : db.edges.get? call.edgeId with
          | none => simp [hparent, hchild, hself, hsource, hconfidence]
          | some record => simp
  · simp [hconfidence]

end ProvenanceDb

/-! ## Calls -/

inductive ProvenanceCall where
  | ingest (event : Event) (runId : Option String) (assetId : String) (runStored : Bool)
  | addEdge (call : AddEdge)
  | capturePrimaryParent (childEventId : String) (relation : ProvenanceRelation) (source : String)
      (edgeId : String) (now : Instant)

namespace ProvenanceCall

variable (lib : Sanitizer)

/-- What a call raises, and the state after it. -/
def run (db : ProvenanceDb) : ProvenanceCall → Option PyError × ProvenanceDb
  | ingest event runId assetId runStored =>
    let r := db.events.ingest lib event runId assetId runStored
    (match r.1 with
      | .error e => some e
      | .ok _ => none,
    { db with events := r.2 })
  | addEdge call =>
    let r := db.addEdge call
    (match r.1 with
      | .error e => some e
      | .ok _ => none, r.2)
  | capturePrimaryParent childEventId relation source edgeId now =>
    let r := db.capturePrimaryParent childEventId relation source edgeId now
    (match r.1 with
      | .error e => some e
      | .ok _ => none, r.2)

def next (db : ProvenanceDb) (call : ProvenanceCall) : ProvenanceDb := (call.run lib db).2

/-- The parent of an ingested event was ingested earlier. -/
def ParentEarlier (db : ProvenanceDb) : ProvenanceCall → Prop
  | ingest event _ _ _ => ∀ parent ∈ event.parentEventId, db.events.Stored parent
  | _ => True

/-- A correlation that is added and sets the primary parent does not lead back. -/
def NoCorrelationCycle (db : ProvenanceDb) : ProvenanceCall → Prop
  | addEdge call => ¬ (call.relation = .correlatedFrom ∧ db.Accepted call ∧
      db.SetsPrimaryParent call ∧
      db.wouldCreateCycle (strip call.parentEventId) (strip call.childEventId) = true)
  | _ => True

instance (db : ProvenanceDb) (call : AddEdge) : Decidable (db.SetsPrimaryParent call) :=
  decidable_of_iff (call.setPrimaryParentIfEmpty = true ∧
    ((db.events.observations.get? (strip call.childEventId)).any fun row =>
      row.parentEventId = none) = true) (by
    unfold ProvenanceDb.SetsPrimaryParent
    cases db.events.observations.get? (strip call.childEventId) <;> simp)

instance (db : ProvenanceDb) (call : ProvenanceCall) : Decidable (call.NoCorrelationCycle db) :=
  match call with
  | ingest .. => inferInstanceAs (Decidable True)
  | addEdge _ => inferInstanceAs (Decidable (¬ (_ ∧ _ ∧ _ ∧ _)))
  | capturePrimaryParent .. => inferInstanceAs (Decidable True)

instance (db : ProvenanceDb) (call : ProvenanceCall) : Decidable (call.ParentEarlier db) :=
  match call with
  | ingest .. => inferInstanceAs (Decidable (∀ _ ∈ _, _))
  | addEdge _ => inferInstanceAs (Decidable True)
  | capturePrimaryParent .. => inferInstanceAs (Decidable True)

/-! ## Ingestions -/

section Ingest

variable {lib} {db : ProvenanceDb}

theorem sanitize_parentEventId (lib : Sanitizer) (event : Event) :
    (lib.sanitizeEventForStorage event).parentEventId = event.parentEventId := by
  unfold Sanitizer.sanitizeEventForStorage
  simp only
  split <;> rfl

theorem primaryParent_setRow (events : EventDb) (edges : Dict String ProvenanceEdgeRecord)
    (assets : Dict String AssetRecord) (id : String) (row : EventObservationRecord) (x y : String) :
    (ProvenanceDb.mk ⟨assets, events.observations.set id row⟩ edges).PrimaryParent x y ↔
      (y = id ∧ row.parentEventId = some x) ∨ (y ≠ id ∧ (ProvenanceDb.mk events edges).PrimaryParent x y) := by
  unfold ProvenanceDb.PrimaryParent
  simp only [Dict.get?_set]
  by_cases hy : y = id
  · simp [hy]
  · simp [hy]

theorem stored_setRow {events : EventDb} {assets : Dict String AssetRecord} {id : String}
    {row : EventObservationRecord} (key : String) :
    EventDb.Stored ⟨assets, events.observations.set id row⟩ key ↔ key = id ∨ events.Stored key := by
  unfold EventDb.Stored
  simp only [Dict.get?_set]
  by_cases hkey : key = id
  · simp [hkey]
  · simp [hkey]

/-- A new observation is caused by its parent, and causes nothing. -/
theorem acyclic_observe {event : Event} {assets : Dict String AssetRecord} {assetId : String}
    {runId : Option String} (hacyclic : Acyclic db.Causes) (hclosed : db.Closed)
    (hnew : db.events.observations.get? event.eventId = none)
    (hearlier : ∀ parent ∈ event.parentEventId, db.events.Stored parent) :
    let db' : ProvenanceDb := ⟨⟨assets, db.events.observations.set event.eventId
      (.ofEvent event assetId runId)⟩, db.edges⟩
    Acyclic db'.Causes ∧ db'.Closed := by
  intro db'
  have hnot : ¬ db.events.Stored event.eventId := not_not.mpr hnew
  have hcauses : ∀ x y, db'.Causes x y ↔
      db.Causes x y ∨ event.parentEventId = some x ∧ y = event.eventId := by
    intro x y
    have hpointer := primaryParent_setRow db.events db.edges assets event.eventId
      (.ofEvent event assetId runId) x y
    have hold : db.PrimaryParent x y → y ≠ event.eventId := by
      rintro ⟨row, hrow, _⟩ rfl
      exact hnot (by unfold EventDb.Stored; rw [hrow]; exact Option.some_ne_none _)
    have hedges : db'.CausalEdge x y ↔ db.CausalEdge x y := Iff.rfl
    have hparent : (EventObservationRecord.ofEvent event assetId runId).parentEventId =
        event.parentEventId := rfl
    rw [hparent] at hpointer
    unfold ProvenanceDb.Causes
    rw [hedges]
    constructor
    · rintro (h | h)
      · exact .inl (.inl h)
      · rcases hpointer.mp h with ⟨hy, hx⟩ | ⟨_, h⟩
        · exact .inr ⟨hx, hy⟩
        · exact .inl (.inr h)
    · rintro ((h | h) | ⟨hx, hy⟩)
      · exact .inl h
      · exact .inr (hpointer.mpr (.inr ⟨hold h, h⟩))
      · exact .inr (hpointer.mpr (.inl ⟨hy, hx⟩))
  constructor
  · cases hparent : event.parentEventId with
    | none =>
      refine hacyclic.mono fun x y h => ?_
      rcases (hcauses x y).mp h with h | ⟨hx, _⟩
      · exact h
      · rw [hparent] at hx
        cases hx
    | some parent =>
      have hstored := hearlier parent hparent
      have hedge : Acyclic (WithEdge db.Causes parent event.eventId) := by
        refine acyclic_withEdge_iff.mpr ⟨hacyclic, fun hback => ?_⟩
        rcases hback.cases_head with heq | ⟨y, hstep, _⟩
        · exact hnot (heq ▸ hstored)
        · exact hnot (hclosed _ _ hstep).1
      refine hedge.mono fun x y h => ?_
      rcases (hcauses x y).mp h with h | ⟨hx, hy⟩
      · exact .inl h
      · rw [hparent] at hx
        exact .inr ⟨(Option.some.inj hx).symm, hy⟩
  · intro x y h
    have hstored : ∀ key, db'.events.Stored key ↔ key = event.eventId ∨ db.events.Stored key :=
      stored_setRow
    rw [hstored, hstored]
    rcases (hcauses x y).mp h with h | ⟨hx, hy⟩
    · exact ⟨.inr (hclosed x y h).1, .inr (hclosed x y h).2⟩
    · exact ⟨.inr (hearlier x hx), .inl hy⟩

/-- An observation that is merged keeps its primary parent. -/
theorem causes_merge (db : ProvenanceDb) (assets : Dict String AssetRecord) {event : Event}
    {row : EventObservationRecord} (hrow : db.events.observations.get? event.eventId = some row) :
    let db' : ProvenanceDb := ⟨⟨assets, db.events.observations.set event.eventId (row.merge event)⟩,
      db.edges⟩
    (∀ x y, db'.Causes x y ↔ db.Causes x y) ∧
      ∀ key, db'.events.Stored key ↔ db.events.Stored key := by
  intro db'
  constructor
  · intro x y
    have hpointer := primaryParent_setRow db.events db.edges assets event.eventId
      (row.merge event) x y
    have hmerge : (row.merge event).parentEventId = row.parentEventId := rfl
    have hold : db.PrimaryParent x event.eventId ↔ row.parentEventId = some x := by
      unfold ProvenanceDb.PrimaryParent
      rw [hrow]
      simp
    have hpointers : db'.PrimaryParent x y ↔ db.PrimaryParent x y := by
      refine hpointer.trans ?_
      rw [hmerge]
      by_cases hy : y = event.eventId
      · subst hy
        rw [hold]
        simp
      · simp [hy]
    exact or_congr Iff.rfl hpointers
  · intro key
    refine (stored_setRow key).trans ⟨?_, .inr⟩
    rintro (rfl | h)
    · unfold EventDb.Stored
      rw [hrow]
      exact Option.some_ne_none _
    · exact h

end Ingest

/-! ## Steps -/

section Steps

variable {lib} {db : ProvenanceDb}

theorem isCausal_eq_false {relation : ProvenanceRelation} : relation.isCausal = false ↔ relation = .correlatedFrom := by
  cases relation <;> decide

theorem closed_added {call : AddEdge} {db' : ProvenanceDb} (h : db.Added call db')
    (hclosed : db.Closed) : db'.Closed := by
  intro x y hcauses
  rw [h.stored, h.stored]
  rcases (h.causes x y).mp hcauses with hcauses | ⟨_, rfl, rfl⟩
  · exact hclosed x y hcauses
  · exact ⟨h.parent, h.child⟩

/-- An addition keeps provenance acyclic exactly if it is not a correlation that leads back. -/
theorem addEdge_acyclic (call : AddEdge) (hacyclic : Acyclic db.Causes) (hclosed : db.Closed) :
    (db.addEdge call).2.Closed ∧ ((addEdge call).NoCorrelationCycle db ↔ Acyclic (db.addEdge call).2.Causes) := by
  rcases db.addEdge_cases call with ⟨e, hrun⟩ | ⟨edge, db', hrun, hadded⟩
  · rw [hrun]
    refine ⟨hclosed, fun _ => hacyclic, fun _ ⟨hrelation, haccepted, _⟩ => ?_⟩
    obtain ⟨_, _, hok⟩ :=
      (ProvenanceDb.addEdge_accepted (isCausal_eq_false.mpr hrelation)).mpr haccepted
    rw [hrun] at hok
    cases hok
  · rw [hrun]
    refine ⟨closed_added hadded hclosed, ?_⟩
    have hcycle := ProvenanceDb.wouldCreateCycle_iff db hadded.distinct
    have hwith : Acyclic (WithEdge db.Causes (strip call.parentEventId) (strip call.childEventId)) ↔ _ :=
      acyclic_withEdge_iff
    cases hcausal : call.relation.isCausal with
    | true =>
      -- the edge was checked
      refine ⟨fun _ => ?_, fun _ ⟨hrelation, _⟩ => ?_⟩
      · refine (hwith.mpr ⟨hacyclic, hadded.checked hcausal⟩).mono fun x y hxy => ?_
        rcases (hadded.causes x y).mp hxy with hxy | ⟨_, hxy⟩
        · exact .inl hxy
        · exact .inr hxy
      · rw [isCausal_eq_false.mpr hrelation] at hcausal
        cases hcausal
    | false =>
      have hrelation := isCausal_eq_false.mp hcausal
      by_cases hsets : db.SetsPrimaryParent call
      · have hcauses : ∀ x y, db'.Causes x y ↔ WithEdge db.Causes (strip call.parentEventId)
            (strip call.childEventId) x y := by
          intro x y
          rw [hadded.causes x y]
          exact or_congr Iff.rfl ⟨And.right, fun h => ⟨.inr hsets, h⟩⟩
        have haccepted := (ProvenanceDb.addEdge_accepted hcausal).mp ⟨edge, db', hrun⟩
        constructor
        · intro hno
          refine (hwith.mpr ⟨hacyclic, fun hback => ?_⟩).mono fun x y => (hcauses x y).mp
          exact hno ⟨hrelation, haccepted, hsets, hcycle.mpr hback⟩
        · rintro hacyclic' ⟨_, _, _, hback⟩
          have hedge := hacyclic'.mono (R := WithEdge db.Causes (strip call.parentEventId)
            (strip call.childEventId)) fun x y => (hcauses x y).mpr
          exact (hwith.mp hedge).2 (hcycle.mp hback)
      · refine ⟨fun _ => ?_, fun _ ⟨_, _, h, _⟩ => hsets h⟩
        refine hacyclic.mono fun x y hxy => ?_
        rcases (hadded.causes x y).mp hxy with hxy | ⟨h | h, _⟩
        · exact hxy
        · rw [hcausal] at h
          cases h
        · exact absurd h hsets

variable (lib) in
/-- What a call does to provenance. -/
theorem next_acyclic (call : ProvenanceCall) (hacyclic : Acyclic db.Causes) (hclosed : db.Closed)
    (hearlier : call.ParentEarlier db) : (call.next lib db).Closed ∧
      (call.NoCorrelationCycle db ↔ Acyclic (call.next lib db).Causes) := by
  cases call with
  | ingest event runId assetId runStored =>
    show (ProvenanceDb.mk (db.events.ingest lib event runId assetId runStored).2 db.edges).Closed ∧
      (True ↔ Acyclic (ProvenanceDb.mk (db.events.ingest lib event runId assetId runStored).2
        db.edges).Causes)
    rw [true_iff, and_comm]
    have hparent := sanitize_parentEventId lib event
    have hearlier : ∀ parent ∈ (lib.sanitizeEventForStorage event).parentEventId,
        db.events.Stored parent := by
      rw [hparent]
      exact hearlier
    unfold EventDb.ingest
    rcases db.events.ingestSanitized_effect (lib.sanitizeEventForStorage event) runId assetId
      runStored with ⟨e, hrun, _⟩ | ⟨result, events, hrun, hin⟩
    · rw [hrun]
      exact ⟨hacyclic, hclosed⟩
    · rw [hrun]
      cases hin with
      | again row asset hrow _ _ =>
        obtain ⟨hcauses, hstored⟩ := causes_merge db
          (db.events.assets.set row.assetId
            (asset.merge (lib.sanitizeEventForStorage event))) hrow
        refine ⟨hacyclic.mono fun x y => (hcauses x y).mp, fun x y hxy => ?_⟩
        have hold := hclosed x y ((hcauses x y).mp hxy)
        exact ⟨(hstored x).mpr hold.1, (hstored y).mpr hold.2⟩
      | observed id asset runId hnew _ _ => exact acyclic_observe hacyclic hclosed hnew hearlier
      | created id runId hnew _ _ => exact acyclic_observe hacyclic hclosed hnew hearlier
  | addEdge call => exact addEdge_acyclic call hacyclic hclosed
  | capturePrimaryParent childEventId relation source edgeId now =>
    show (db.capturePrimaryParent childEventId relation source edgeId now).2.Closed ∧
      (True ↔ Acyclic (db.capturePrimaryParent childEventId relation source edgeId now).2.Causes)
    rw [true_iff]
    unfold ProvenanceDb.capturePrimaryParent
    cases db.events.observations.get? childEventId with
    | none => exact ⟨hclosed, hacyclic⟩
    | some child =>
      cases hparent : child.parentEventId with
      | none =>
        simp only [hparent]
        exact ⟨hclosed, hacyclic⟩
      | some parentEventId =>
        simp only [hparent]
        obtain ⟨hclosed', hiff⟩ := addEdge_acyclic { parentEventId, childEventId, relation, source
                                                     setPrimaryParentIfEmpty := false, edgeId, now }
          hacyclic hclosed
        refine ⟨hclosed', hiff.mp ?_⟩
        rintro ⟨_, _, ⟨hset, _⟩, _⟩
        cases hset

/-- A call that raises changes nothing. -/
theorem run_error (lib : Sanitizer) (db : ProvenanceDb) (call : ProvenanceCall) {e : PyError}
    (h : (call.run lib db).1 = some e) : (call.run lib db).2 = db := by
  have hadd : ∀ c : AddEdge, ∀ e, (db.addEdge c).1 = .error e → (db.addEdge c).2 = db := by
    intro c e hc
    rcases db.addEdge_cases c with ⟨_, hrun⟩ | ⟨_, _, hrun, _⟩
    · rw [hrun]
    · rw [hrun] at hc
      cases hc
  cases call with
  | ingest event runId assetId runStored =>
    unfold run EventDb.ingest at h ⊢
    rcases db.events.ingestSanitized_effect (lib.sanitizeEventForStorage event) runId assetId
      runStored with ⟨_, hrun, _⟩ | ⟨_, _, hrun, _⟩
    · simp only [hrun]
    · simp only [hrun] at h
      cases h
  | addEdge c =>
    unfold run at h ⊢
    simp only at h ⊢
    cases hc : (db.addEdge c).1 with
    | error e' => exact hadd c e' hc
    | ok edge =>
      rw [hc] at h
      cases h
  | capturePrimaryParent childEventId relation source edgeId now =>
    unfold run ProvenanceDb.capturePrimaryParent at h ⊢
    cases hchild : db.events.observations.get? childEventId with
    | none => simp only [hchild]
    | some child =>
      cases hparent : child.parentEventId with
      | none => simp only [hchild, hparent]
      | some parentEventId =>
        simp only [hchild, hparent] at h ⊢
        generalize hc : ({ parentEventId, childEventId, relation, source
                           setPrimaryParentIfEmpty := false, edgeId, now } : AddEdge) = c at h ⊢
        cases hr : (db.addEdge c).1 with
        | error e' => exact hadd c e' hr
        | ok edge =>
          rw [hr] at h
          cases h

end Steps

end ProvenanceCall

/-- **Provenance is acyclic** after every call of a run whose events come after their parents, exactly if no
    correlation of the run sets a primary parent that leads back; and a call that raises changes
    nothing. -/
theorem provenance_acyclic_iff (lib : Sanitizer) (calls : List ProvenanceCall)
    (h : Along (fun db call => ProvenanceCall.next lib db call)
      (fun db call => ProvenanceCall.ParentEarlier db call) .empty calls) :
    (Along (fun db call => ProvenanceCall.next lib db call)
        (fun db call => ProvenanceCall.NoCorrelationCycle db call) .empty calls ↔
      Along (fun db call => ProvenanceCall.next lib db call)
        (fun db call => Acyclic (ProvenanceCall.next lib db call).Causes) .empty calls) ∧
    ∀ db (call : ProvenanceCall) e, (call.run lib db).1 = some e → (call.run lib db).2 = db := by
  refine ⟨?_, fun db call _ he => call.run_error lib db he⟩
  have hiff : Along (fun db call => ProvenanceCall.next lib db call)
      (fun db call => call.ParentEarlier db ∧ call.NoCorrelationCycle db) .empty calls ↔
    Along (fun db call => ProvenanceCall.next lib db call)
      (fun db call => call.ParentEarlier db ∧ Acyclic (ProvenanceCall.next lib db call).Causes)
      .empty calls :=
    Along.iff_of_invariant (P := fun db => Acyclic db.Causes ∧ db.Closed) ?_ ?_ ?_
  · constructor
    · intro hno
      exact (hiff.mp (h.and hno)).imp fun _ _ => And.right
    · intro hacyclic
      exact (hiff.mpr (h.and hacyclic)).imp fun _ _ => And.right
  · have hno : ∀ x y, ¬ ProvenanceDb.empty.Causes x y := by
      rintro x y (⟨_, _, hget, _⟩ | ⟨_, hget, _⟩)
      · cases hget
      · cases hget
    refine ⟨fun x hx => ?_, fun x y hxy => absurd hxy (hno x y)⟩
    obtain ⟨y, hy, _⟩ := TransGen.head'_iff.mp hx
    exact hno x y hy
  · intro db call ⟨hacyclic, hclosed⟩
    refine and_congr_right fun hearlier => ?_
    exact (ProvenanceCall.next_acyclic lib call hacyclic hclosed hearlier).2
  · intro db call ⟨hacyclic, hclosed⟩ ⟨hearlier, hno⟩
    obtain ⟨hclosed', hnext⟩ := ProvenanceCall.next_acyclic lib call hacyclic hclosed hearlier
    exact ⟨hnext.mp hno, hclosed'⟩

/-! ## A correlation that leads back -/

def bundleEvent (eventId value : String) (parentEventId : Option String) : Event where
  eventId
  type := .javascript
  value
  source := ⟨"linkfinder", by decide, by decide⟩
  parentEventId
  firstSeen := 0
  lastSeen := 0
  confidence_unit := zero_unit
  novelty_unit := zero_unit

def ingestBundle (eventId value : String) (parentEventId : Option String) : ProvenanceCall :=
  .ingest (bundleEvent eventId value parentEventId) none ("ast_" ++ eventId) true

def bundleEdge (edgeId parentEventId childEventId : String) (relation : ProvenanceRelation) :
    ProvenanceCall :=
  .addEdge { parentEventId, childEventId, relation, source := "bundles", edgeId, now := 0 }

/-- Two bundles, the second of the first, and a correlation between them. -/
theorem provenance_acyclic_bundles :
    Along (fun db call => ProvenanceCall.next plainSanitizer db call)
        (fun db call => Acyclic (ProvenanceCall.next plainSanitizer db call).Causes) .empty
        [ingestBundle "evt_app" "app.js" none, ingestBundle "evt_chunk" "chunk.js" (some "evt_app"),
          bundleEdge "prv_1" "evt_app" "evt_chunk" .correlatedFrom] :=
  (provenance_acyclic_iff plainSanitizer
    [ingestBundle "evt_app" "app.js" none, ingestBundle "evt_chunk" "chunk.js" (some "evt_app"),
      bundleEdge "prv_1" "evt_app" "evt_chunk" .correlatedFrom] (by decide +kernel)).1.mp
    (by decide +kernel)

/-- The second bundle is derived from the first, and the first correlated with the second. -/
theorem correlation_closes_a_cycle :
    ∃ calls, Along (fun db call => ProvenanceCall.next plainSanitizer db call)
        (fun db call => ProvenanceCall.ParentEarlier db call) .empty calls ∧
      ¬ Acyclic (runFrom (fun db call => ProvenanceCall.next plainSanitizer db call) .empty
        calls).Causes := by
  refine ⟨[ingestBundle "evt_app" "app.js" none, ingestBundle "evt_chunk" "chunk.js" none,
    bundleEdge "prv_1" "evt_app" "evt_chunk" .derivedFrom,
    bundleEdge "prv_2" "evt_chunk" "evt_app" .correlatedFrom], by decide +kernel, fun h => ?_⟩
  generalize hend : runFrom (fun db call => ProvenanceCall.next plainSanitizer db call) .empty
    [ingestBundle "evt_app" "app.js" none, ingestBundle "evt_chunk" "chunk.js" none,
      bundleEdge "prv_1" "evt_app" "evt_chunk" .derivedFrom,
      bundleEdge "prv_2" "evt_chunk" "evt_app" .correlatedFrom] = db at h
  have hpointer : ∀ child parent, (db.events.observations.get? child).bind (·.parentEventId) =
      some parent → db.Causes parent child := by
    intro child parent hget
    obtain ⟨row, hrow, hparent⟩ := Option.bind_eq_some_iff.mp hget
    exact .inr ⟨row, hrow, hparent⟩
  refine h "evt_app" (.tail (b := "evt_chunk") (.single (hpointer _ _ ?_)) (hpointer _ _ ?_))
  · rw [← hend]
    decide +kernel
  · rw [← hend]
    decide +kernel

end NightScout
