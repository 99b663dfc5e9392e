import RagIngestion.Database.Schema
import RagIngestion.Storage.SourceObjects

/-! The transaction that records a submission: document, version and outbox row together. -/
namespace RagIngestion.Submission
open RagIngestion.Python RagIngestion.Domain RagIngestion.Database RagIngestion.Storage
open RagIngestion.Library

/-- The row the first insert writes. -/
def newDocument (tenantId documentId : UUID) (sourceExternalId : PyStr) (title : Option PyStr)
    (classification : PyStr) (now : Time) : Document where
  id := documentId
  tenantId := tenantId
  sourceSystem := py "api"
  sourceExternalId := sourceExternalId
  title := title
  classification := classification
  status := .submitted
  currentVersionId := none
  updatedAt := now
  deletedAt := none

/-- The row the second insert writes. -/
def newVersion (tenantId documentId versionId : UUID)
    (contentSha256 sourceObjectUri mimeType : PyStr) (byteSize : ℕ) (now : Time) :
    DocumentVersion where
  id := versionId
  tenantId := tenantId
  documentId := documentId
  versionNumber := 1
  contentSha256 := contentSha256
  sourceObjectUri := sourceObjectUri
  normalizedObjectUri := none
  mimeType := mimeType
  byteSize := byteSize
  extractionConfig := .dict []
  extractionMetadata := .dict []
  updatedAt := now
  deletedAt := none
  detectedMimeType := none
  inspectionStatus := .pending
  inspectionMetadata := .dict []
  extractionStatus := .pending
  extractionManifestUri := none

/-- The columns of the outbox row. -/
def submittedEvent (tenantId documentId eventId : UUID) (eventPayload : DocumentSubmitted) :
    OutboxEvent where
  tenantId := tenantId
  eventId := eventId
  aggregateType := py "document"
  aggregateId := documentId
  eventType := py "DocumentSubmitted"
  kafkaTopic := documentSubmittedTopic
  eventContractNamespace := py "rag.ingestion.v1"
  eventSchemaName := py "document-submitted"
  payload := .documentSubmitted eventPayload
  headers := [(py "event_type",py "DocumentSubmitted")]

/-- `DocumentSubmissionRepository.create_submission`. The id of the outbox row is the server's, and
`now` is what its clock reads in the statements of the transaction. -/
def createSubmission (tenantId documentId versionId : UUID) (sourceExternalId : PyStr)
    (title : Option PyStr) (classification contentSha256 sourceObjectUri mimeType : PyStr)
    (byteSize : ℕ) (eventId : UUID) (eventPayload : DocumentSubmitted) (outboxId : UUID) (now : Time)
    (db : Db) : Except PyError Db := do
  let db ← db.insertDocument
    (newDocument tenantId documentId sourceExternalId title classification now)
  let db ← db.insertVersion
    (newVersion tenantId documentId versionId contentSha256 sourceObjectUri mimeType byteSize now)
  let db := db.updateDocument tenantId documentId
    (fun d => { d with currentVersionId := some versionId }) now
  db.insertOutbox outboxId (submittedEvent tenantId documentId eventId eventPayload) now

/-- A committed submission adds one row to each of three tables, and its ids were unused. -/
theorem createSubmission_eq_ok {tenantId documentId versionId : UUID} {sourceExternalId : PyStr}
    {title : Option PyStr} {classification contentSha256 sourceObjectUri mimeType : PyStr}
    {byteSize : ℕ} {eventId : UUID} {eventPayload : DocumentSubmitted} {outboxId : UUID} {now : Time}
    {db after : Db}
    (h : createSubmission tenantId documentId versionId sourceExternalId title classification
      contentSha256 sourceObjectUri mimeType byteSize eventId eventPayload outboxId now db=.ok after) :
    (tenantId ∈ db.tenants ∧ (∀ x ∈ db.documents, x.id≠documentId) ∧
      (∀ x ∈ db.versions, x.id≠versionId ∧ ¬(x.tenantId=tenantId ∧ x.contentSha256=contentSha256)) ∧
      ∀ x ∈ db.outbox, x.id≠outboxId ∧
        ¬(x.event.tenantId=tenantId ∧ x.event.eventId=eventId)) ∧
    after={ db with
      documents := db.documents ++
        [{ newDocument tenantId documentId sourceExternalId title classification now with
          currentVersionId := some versionId }]
      versions := db.versions ++
        [newVersion tenantId documentId versionId contentSha256 sourceObjectUri mimeType byteSize now]
      outbox := db.outbox ++
        [.inserted outboxId (submittedEvent tenantId documentId eventId eventPayload) now] } := by
  obtain ⟨db₁,h₁,h⟩ := bind_eq_ok.mp h
  obtain ⟨⟨ht,hd⟩,rfl⟩ := Db.insertDocument_eq_ok h₁
  obtain ⟨db₂,h₂,h⟩ := bind_eq_ok.mp h
  obtain ⟨⟨-,-,-,-,hv⟩,rfl⟩ := Db.insertVersion_eq_ok h₂
  obtain ⟨⟨-,ho⟩,rfl⟩ := Db.insertOutbox_eq_ok h
  have hold : updateWhere (fun d => d.tenantId=tenantId ∧ d.id=documentId)
      (fun d => { d with currentVersionId := some versionId }.setUpdatedAt now)
      (db.documents ++ [newDocument tenantId documentId sourceExternalId title classification now])=
      db.documents ++ [{ newDocument tenantId documentId sourceExternalId title classification now with
        currentVersionId := some versionId }] := by
    rw [updateWhere_append,updateWhere_eq_self]
    · simp [updateWhere,newDocument,Document.setUpdatedAt]
    · intro r hr
      exact decide_eq_false (fun h => (hd r hr).1 h.2)
  refine ⟨⟨ht,fun x hx => (hd x hx).1,fun x hx => ⟨(hv x hx).1,(hv x hx).2.2⟩,ho⟩,?_⟩
  simp only [Db.updateDocument,hold]

end RagIngestion.Submission
