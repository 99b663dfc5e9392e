import RagIngestion.Database.Schema

/-! What one committed transaction of a consumer writes: the claim of the event, the status
updates that belong to the outcome, and the outbox row, all or nothing. -/
namespace RagIngestion.Database
open RagIngestion.Python RagIngestion.Domain RagIngestion.Library

/-- The values a transaction takes from outside: generated ids and clocks. -/
structure Draws where
  eventId : UUID
  occurredAt : PyStr
  outboxId : UUID
  now : Time
  versionUpdatedAt : Time
  documentUpdatedAt : Time

/-- The writes of one outcome. `status` is a document with its new status, `version` a version
with its update; the clocks are those of the two updates. -/
structure Outcome where
  claim : ProcessedEvent
  event : OutboxEvent
  status : Option (UUID × DocumentStatus)
  version : Option (UUID × (DocumentVersion → DocumentVersion))
  versionUpdatedAt : Time
  documentUpdatedAt : Time
  failure : Option IngestionFailure

namespace Outcome

def applyDocuments (o : Outcome) (documents : List Document) : List Document :=
  match o.status with
  | none => documents
  | some (id,status) =>
    updateWhere (fun d => d.tenantId=o.claim.tenantId ∧ d.id=id)
      (fun d => { d with status := status }.setUpdatedAt o.documentUpdatedAt) documents

def applyVersions (o : Outcome) (versions : List DocumentVersion) : List DocumentVersion :=
  match o.version with
  | none => versions
  | some (id,update) =>
    updateWhere (fun v => v.tenantId=o.claim.tenantId ∧ v.id=id)
      (fun v => (update v).setUpdatedAt o.versionUpdatedAt) versions

def applyFailures (o : Outcome) (failures : List IngestionFailure) : List IngestionFailure :=
  match o.failure with
  | none => failures
  | some f => failures ++ [f]

def apply (o : Outcome) (outboxId : UUID) (now : Time) (db : Db) : Db :=
  { db with
    documents := o.applyDocuments db.documents
    versions := o.applyVersions db.versions
    outbox := db.outbox ++ [.inserted outboxId o.event now]
    processedEvents := db.processedEvents ++ [o.claim]
    failures := o.applyFailures db.failures }

@[simp] theorem apply_documents (o : Outcome) (outboxId : UUID) (now : Time) (db : Db) :
    (o.apply outboxId now db).documents=o.applyDocuments db.documents := rfl

@[simp] theorem apply_versions (o : Outcome) (outboxId : UUID) (now : Time) (db : Db) :
    (o.apply outboxId now db).versions=o.applyVersions db.versions := rfl

end Outcome

/-- A transaction that applied an outcome: the event was not claimed before, and the outbox row
had a new id and a new event id. -/
structure Committed (o : Outcome) (outboxId : UUID) (now : Time) (before after : Db) : Prop where
  result : after=o.apply outboxId now before
  tenant : o.claim.tenantId ∈ before.tenants
  unclaimed : o.claim ∉ before.processedEvents
  freshRow : ∀ x ∈ before.outbox, x.id≠outboxId ∧
    ¬(x.event.tenantId=o.event.tenantId ∧ x.event.eventId=o.event.eventId)

/-- A consumer can claim the event and announce its outcome: the tenant exists, the event is not
processed, and the generated ids are new. -/
structure Claimable (claim : ProcessedEvent) (draws : Draws) (db : Db) : Prop where
  tenant : claim.tenantId ∈ db.tenants
  unclaimed : claim ∉ db.processedEvents
  freshRow : ∀ x ∈ db.outbox, x.id≠draws.outboxId ∧
    ¬(x.event.tenantId=claim.tenantId ∧ x.event.eventId=draws.eventId)

/-- What was committed could be claimed. -/
theorem Committed.claimable {o : Outcome} {draws : Draws} {before after : Db}
    (h : Committed o draws.outboxId draws.now before after) (ht : o.event.tenantId=o.claim.tenantId)
    (he : o.event.eventId=draws.eventId) : Claimable o.claim draws before := by
  refine ⟨h.tenant,h.unclaimed,?_⟩
  intro x hx
  rw [← ht,← he]
  exact h.freshRow x hx

/-- The claim succeeds, and leaves versions, tenants and outbox as the rest needs them. -/
theorem Claimable.claimed {claim : ProcessedEvent} {draws : Draws} {db : Db}
    (h : Claimable claim draws db) :
    ∃ claimed, db.claimEvent claim=.ok (some claimed) ∧ claimed.versions=db.versions ∧
      claim.tenantId ∈ claimed.tenants ∧ ∀ x ∈ claimed.outbox, x.id≠draws.outboxId ∧
        ¬(x.event.tenantId=claim.tenantId ∧ x.event.eventId=draws.eventId) := by
  exact ⟨_,Db.claimEvent_of_new h.tenant h.unclaimed,rfl,h.tenant,h.freshRow⟩

end RagIngestion.Database
