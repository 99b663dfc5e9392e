import RagIngestion.Domain.Events
import RagIngestion.Library.Tables

/-! The tables of schema `rag` that the pipeline reads and writes, with the constraints the
migrations put on an inserted row. A statement that violates one raises `integrityError`. -/
namespace RagIngestion.Database
open RagIngestion.Python RagIngestion.Domain RagIngestion.Library

/-- A moment of a clock, in microseconds. -/
abbrev Time := ℕ

/-- `rag.document_status`. -/
inductive DocumentStatus
  | submitted | fetching | fetched | extracting | extracted | chunking | embedding | indexing
  | ready | failed | deleted
  deriving DecidableEq

/-- The values of `inspection_status`. -/
inductive InspectionStatus
  | pending | valid | invalid | unsupported
  deriving DecidableEq

/-- The values of `extraction_status`. -/
inductive ExtractionStatus
  | pending | succeeded | partialResult | needsReview | failed
  deriving DecidableEq

def ExtractionStatus.text : ExtractionStatus → PyStr
  | .pending => py "pending"
  | .succeeded => py "succeeded"
  | .partialResult => py "partial"
  | .needsReview => py "needs_review"
  | .failed => py "failed"

/-- `rag.documents`. -/
structure Document where
  id : UUID
  tenantId : UUID
  sourceSystem : PyStr
  sourceExternalId : PyStr
  title : Option PyStr
  classification : PyStr
  status : DocumentStatus
  currentVersionId : Option UUID
  updatedAt : Time
  deletedAt : Option Time

/-- `rag.document_versions`. -/
structure DocumentVersion where
  id : UUID
  tenantId : UUID
  documentId : UUID
  versionNumber : ℕ
  contentSha256 : PyStr
  sourceObjectUri : PyStr
  normalizedObjectUri : Option PyStr
  mimeType : PyStr
  byteSize : ℕ
  extractionConfig : Json
  extractionMetadata : Json
  updatedAt : Time
  deletedAt : Option Time
  detectedMimeType : Option PyStr
  inspectionStatus : InspectionStatus
  inspectionMetadata : Json
  extractionStatus : ExtractionStatus
  extractionManifestUri : Option PyStr

/-- `rag.set_updated_at`, the trigger before each update of a row. `clock` is what
`clock_timestamp()` reads there. -/
def Document.setUpdatedAt (clock : Time) (d : Document) : Document := { d with updatedAt := clock }

def DocumentVersion.setUpdatedAt (clock : Time) (v : DocumentVersion) : DocumentVersion :=
  { v with updatedAt := clock }

@[simp] theorem Document.setUpdatedAt_id (clock : Time) (d : Document) :
    (d.setUpdatedAt clock).id=d.id := rfl

@[simp] theorem Document.setUpdatedAt_tenantId (clock : Time) (d : Document) :
    (d.setUpdatedAt clock).tenantId=d.tenantId := rfl

@[simp] theorem DocumentVersion.setUpdatedAt_id (clock : Time) (v : DocumentVersion) :
    (v.setUpdatedAt clock).id=v.id := rfl

@[simp] theorem DocumentVersion.setUpdatedAt_tenantId (clock : Time) (v : DocumentVersion) :
    (v.setUpdatedAt clock).tenantId=v.tenantId := rfl

/-- The columns of `rag.ingestion_outbox` that its insert writes and no update changes. -/
structure OutboxEvent where
  tenantId : UUID
  eventId : UUID
  aggregateType : PyStr
  aggregateId : UUID
  eventType : PyStr
  kafkaTopic : PyStr
  eventContractNamespace : PyStr
  eventSchemaName : PyStr
  payload : EventPayload
  headers : List (PyStr × PyStr)
  deriving DecidableEq

inductive OutboxStatus
  | pending | publishing | published | failed
  deriving DecidableEq

/-- `rag.ingestion_outbox`. -/
structure OutboxRow where
  id : UUID
  event : OutboxEvent
  status : OutboxStatus
  attemptCount : ℕ
  availableAt : Time
  lockedAt : Option Time
  lockedBy : Option PyStr
  publishedAt : Option Time
  lastError : Option PyStr
  createdAt : Time
  deriving DecidableEq

/-- A row with the column defaults of the table. -/
def OutboxRow.inserted (id : UUID) (event : OutboxEvent) (now : Time) : OutboxRow where
  id := id
  event := event
  status := .pending
  attemptCount := 0
  availableAt := now
  lockedAt := none
  lockedBy := none
  publishedAt := none
  lastError := none
  createdAt := now

/-- `rag.processed_events`. -/
structure ProcessedEvent where
  tenantId : UUID
  eventId : UUID
  consumerName : PyStr
  deriving DecidableEq

/-- `rag.ingestion_failures`. -/
structure IngestionFailure where
  tenantId : UUID
  documentVersionId : UUID
  eventId : UUID
  stage : PyStr
  errorClass : PyStr
  errorCode : PyStr
  errorDetail : Json

/-- The committed contents of the database; of a tenant only its id matters. -/
structure Db where
  tenants : List UUID
  documents : List Document
  versions : List DocumentVersion
  outbox : List OutboxRow
  processedEvents : List ProcessedEvent
  failures : List IngestionFailure

/-- A database with tenants and nothing else. -/
def Db.empty (tenants : List UUID) : Db := ⟨tenants,[],[],[],[],[]⟩

/-- The `CHECK` on a content hash: 64 lowercase hexadecimal digits. -/
def isSha256Text (s : PyStr) : Bool :=
  decide (s.length=64) && s.all (fun c => isLowerHexDigit c)

namespace Db

def insertDocument (d : Document) (db : Db) : Except PyError Db :=
  if d.tenantId ∈ db.tenants ∧ ∀ x ∈ db.documents, x.id≠d.id ∧
      ¬(x.tenantId=d.tenantId ∧ x.sourceSystem=d.sourceSystem ∧
        x.sourceExternalId=d.sourceExternalId) then
    .ok { db with documents := db.documents ++ [d] }
  else .error .integrityError

def insertVersion (v : DocumentVersion) (db : Db) : Except PyError Db :=
  if v.tenantId ∈ db.tenants ∧ 0<v.versionNumber ∧ isSha256Text v.contentSha256 ∧
      (∃ d ∈ db.documents, d.tenantId=v.tenantId ∧ d.id=v.documentId) ∧
      ∀ x ∈ db.versions, x.id≠v.id ∧
        ¬(x.tenantId=v.tenantId ∧ x.documentId=v.documentId ∧ x.versionNumber=v.versionNumber) ∧
        ¬(x.tenantId=v.tenantId ∧ x.contentSha256=v.contentSha256) then
    .ok { db with versions := db.versions ++ [v] }
  else .error .integrityError

def insertOutbox (id : UUID) (event : OutboxEvent) (now : Time) (db : Db) : Except PyError Db :=
  if event.tenantId ∈ db.tenants ∧ ∀ x ∈ db.outbox, x.id≠id ∧
      ¬(x.event.tenantId=event.tenantId ∧ x.event.eventId=event.eventId) then
    .ok { db with outbox := db.outbox ++ [.inserted id event now] }
  else .error .integrityError

def insertFailure (f : IngestionFailure) (db : Db) : Except PyError Db :=
  if f.tenantId ∈ db.tenants ∧
      ∃ v ∈ db.versions, v.tenantId=f.tenantId ∧ v.id=f.documentVersionId then
    .ok { db with failures := db.failures ++ [f] }
  else .error .integrityError

/-- `INSERT INTO rag.processed_events … ON CONFLICT DO NOTHING RETURNING event_id`:
`none` when the event was already claimed. -/
def claimEvent (e : ProcessedEvent) (db : Db) : Except PyError (Option Db) :=
  if e.tenantId ∉ db.tenants then .error .integrityError
  else if e ∈ db.processedEvents then .ok none
  else .ok (some { db with processedEvents := db.processedEvents ++ [e] })

/-- `UPDATE rag.documents SET … WHERE tenant_id = … AND id = …`. -/
def updateDocument (tenantId id : UUID) (f : Document → Document) (clock : Time) (db : Db) : Db :=
  { db with
    documents := updateWhere (fun d => d.tenantId=tenantId ∧ d.id=id)
      (fun d => (f d).setUpdatedAt clock) db.documents }

/-- `UPDATE rag.document_versions SET … WHERE tenant_id = … AND id = …`. -/
def updateVersion (tenantId id : UUID) (f : DocumentVersion → DocumentVersion) (clock : Time)
    (db : Db) : Db :=
  { db with
    versions := updateWhere (fun v => v.tenantId=tenantId ∧ v.id=id)
      (fun v => (f v).setUpdatedAt clock) db.versions }

/-- `UPDATE rag.documents SET status = …`. -/
def setDocumentStatus (tenantId id : UUID) (status : DocumentStatus) (clock : Time) (db : Db) : Db :=
  db.updateDocument tenantId id (fun d => { d with status := status }) clock

theorem insertDocument_eq_ok {d : Document} {db after : Db} (h : db.insertDocument d=.ok after) :
    (d.tenantId ∈ db.tenants ∧ ∀ x ∈ db.documents, x.id≠d.id ∧
      ¬(x.tenantId=d.tenantId ∧ x.sourceSystem=d.sourceSystem ∧
        x.sourceExternalId=d.sourceExternalId)) ∧
      after={ db with documents := db.documents ++ [d] } := by
  unfold insertDocument at h
  split at h
  · cases h; exact ⟨‹_›,rfl⟩
  · cases h

theorem insertVersion_eq_ok {v : DocumentVersion} {db after : Db} (h : db.insertVersion v=.ok after) :
    (v.tenantId ∈ db.tenants ∧ 0<v.versionNumber ∧ isSha256Text v.contentSha256 ∧
      (∃ d ∈ db.documents, d.tenantId=v.tenantId ∧ d.id=v.documentId) ∧
      ∀ x ∈ db.versions, x.id≠v.id ∧
        ¬(x.tenantId=v.tenantId ∧ x.documentId=v.documentId ∧ x.versionNumber=v.versionNumber) ∧
        ¬(x.tenantId=v.tenantId ∧ x.contentSha256=v.contentSha256)) ∧
      after={ db with versions := db.versions ++ [v] } := by
  unfold insertVersion at h
  split at h
  · cases h; exact ⟨‹_›,rfl⟩
  · cases h

theorem insertOutbox_eq_ok {id : UUID} {event : OutboxEvent} {now : Time} {db after : Db}
    (h : db.insertOutbox id event now=.ok after) :
    (event.tenantId ∈ db.tenants ∧ ∀ x ∈ db.outbox, x.id≠id ∧
      ¬(x.event.tenantId=event.tenantId ∧ x.event.eventId=event.eventId)) ∧
      after={ db with outbox := db.outbox ++ [.inserted id event now] } := by
  unfold insertOutbox at h
  split at h
  · cases h; exact ⟨‹_›,rfl⟩
  · cases h

theorem insertFailure_eq_ok {f : IngestionFailure} {db after : Db} (h : db.insertFailure f=.ok after) :
    (f.tenantId ∈ db.tenants ∧
      ∃ v ∈ db.versions, v.tenantId=f.tenantId ∧ v.id=f.documentVersionId) ∧
      after={ db with failures := db.failures ++ [f] } := by
  unfold insertFailure at h
  split at h
  · cases h; exact ⟨‹_›,rfl⟩
  · cases h

theorem claimEvent_eq_ok {e : ProcessedEvent} {db : Db} {after : Option Db}
    (h : db.claimEvent e=.ok after) :
    e.tenantId ∈ db.tenants ∧ ((e ∈ db.processedEvents ∧ after=none) ∨
      (e ∉ db.processedEvents ∧
        after=some { db with processedEvents := db.processedEvents ++ [e] })) := by
  unfold claimEvent at h
  split at h
  · cases h
  · rename_i ht
    refine ⟨not_not.mp ht,?_⟩
    split at h
    · cases h; exact .inl ⟨‹_›,rfl⟩
    · cases h; exact .inr ⟨‹_›,rfl⟩

theorem claimEvent_eq_error {e : ProcessedEvent} {db : Db} {raised : PyError}
    (h : db.claimEvent e=.error raised) : raised=.integrityError := by
  unfold claimEvent at h
  split at h
  · cases h; rfl
  · split at h <;> cases h

theorem claimEvent_of_new {e : ProcessedEvent} {db : Db} (ht : e.tenantId ∈ db.tenants)
    (hnew : e ∉ db.processedEvents) :
    db.claimEvent e=.ok (some { db with processedEvents := db.processedEvents ++ [e] }) := by
  rw [claimEvent,if_neg (not_not.mpr ht),if_neg hnew]

theorem insertOutbox_of_fresh {id : UUID} {event : OutboxEvent} {now : Time} {db : Db}
    (ht : event.tenantId ∈ db.tenants)
    (hfresh : ∀ x ∈ db.outbox, x.id≠id ∧
      ¬(x.event.tenantId=event.tenantId ∧ x.event.eventId=event.eventId)) :
    db.insertOutbox id event now=.ok { db with outbox := db.outbox ++ [.inserted id event now] } :=
  if_pos ⟨ht,hfresh⟩

theorem insertFailure_of_version {f : IngestionFailure} {db : Db} (ht : f.tenantId ∈ db.tenants)
    (hv : ∃ v ∈ db.versions, v.tenantId=f.tenantId ∧ v.id=f.documentVersionId) :
    db.insertFailure f=.ok { db with failures := db.failures ++ [f] } := if_pos ⟨ht,hv⟩

end Db
end RagIngestion.Database
