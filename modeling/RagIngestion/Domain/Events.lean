import RagIngestion.Python.Uuid
import RagIngestion.Python.Value

/-! The event contracts: topic names, the payload of each event, and the five builders.
Generated ids and the clock are arguments of a builder. -/
namespace RagIngestion.Domain
open RagIngestion.Python

def topicPrefix : PyStr := py "rag.ingestion.v1"

def documentSubmittedTopic : PyStr := topicPrefix ++ py ".document.submitted"
def documentFetchedTopic : PyStr := topicPrefix ++ py ".document.fetched"
def contentExtractedTopic : PyStr := topicPrefix ++ py ".content.extracted"
def chunksCreatedTopic : PyStr := topicPrefix ++ py ".chunks.created"
def embeddingsGeneratedTopic : PyStr := topicPrefix ++ py ".embeddings.generated"
def documentIndexedTopic : PyStr := topicPrefix ++ py ".document.indexed"

def retryTopic (stage : PyStr) : PyStr := topicPrefix ++ py "." ++ stage ++ py ".retry"
def deadLetterTopic (stage : PyStr) : PyStr := topicPrefix ++ py "." ++ stage ++ py ".dlq"

/-- The payload `build_document_submitted_event` writes. -/
structure DocumentSubmitted where
  eventId : PyStr
  eventType : PyStr
  occurredAt : PyStr
  correlationId : PyStr
  causationId : Option PyStr
  tenantId : PyStr
  documentId : PyStr
  payloadUri : PyStr
  schemaVersion : PyStr
  deriving DecidableEq

/-- The payload `build_document_fetched_event` writes. -/
structure DocumentFetched where
  eventId : PyStr
  eventType : PyStr
  occurredAt : PyStr
  correlationId : PyStr
  causationId : PyStr
  tenantId : PyStr
  documentId : PyStr
  documentVersionId : PyStr
  payloadUri : PyStr
  detectedMimeType : PyStr
  contentSha256 : PyStr
  byteSize : ℤ
  inspectionStatus : PyStr
  inspectionMetadata : PyStr
  schemaVersion : PyStr
  deriving DecidableEq

/-- The payload `build_document_fetch_rejected_event` writes. -/
structure DocumentFetchRejected where
  eventId : PyStr
  eventType : PyStr
  occurredAt : PyStr
  correlationId : PyStr
  causationId : PyStr
  tenantId : PyStr
  documentId : PyStr
  payloadUri : PyStr
  inspectionStatus : PyStr
  inspectionMetadata : PyStr
  schemaVersion : PyStr
  deriving DecidableEq

/-- The payload `build_content_extracted_event` writes. -/
structure ContentExtracted where
  eventId : PyStr
  eventType : PyStr
  occurredAt : PyStr
  correlationId : PyStr
  causationId : PyStr
  tenantId : PyStr
  documentId : PyStr
  documentVersionId : PyStr
  normalizedArtifactUri : PyStr
  manifestUri : PyStr
  contentSha256 : PyStr
  extractorName : PyStr
  extractorVersion : PyStr
  extractionStatus : PyStr
  qualitySummary : PyStr
  schemaVersion : PyStr
  deriving DecidableEq

/-- The payload `build_content_extraction_rejected_event` writes. -/
structure ContentExtractionRejected where
  eventId : PyStr
  eventType : PyStr
  occurredAt : PyStr
  correlationId : PyStr
  causationId : PyStr
  tenantId : PyStr
  documentId : PyStr
  documentVersionId : PyStr
  errorCode : PyStr
  schemaVersion : PyStr
  deriving DecidableEq

/-- A payload of any of the five contracts. -/
inductive EventPayload
  | documentSubmitted (p : DocumentSubmitted)
  | documentFetched (p : DocumentFetched)
  | documentFetchRejected (p : DocumentFetchRejected)
  | contentExtracted (p : ContentExtracted)
  | contentExtractionRejected (p : ContentExtractionRejected)
  deriving DecidableEq

namespace EventPayload

def tenantId : EventPayload → PyStr
  | .documentSubmitted p => p.tenantId
  | .documentFetched p => p.tenantId
  | .documentFetchRejected p => p.tenantId
  | .contentExtracted p => p.tenantId
  | .contentExtractionRejected p => p.tenantId

def documentId : EventPayload → PyStr
  | .documentSubmitted p => p.documentId
  | .documentFetched p => p.documentId
  | .documentFetchRejected p => p.documentId
  | .contentExtracted p => p.documentId
  | .contentExtractionRejected p => p.documentId

def causationId : EventPayload → Option PyStr
  | .documentSubmitted p => p.causationId
  | .documentFetched p => some p.causationId
  | .documentFetchRejected p => some p.causationId
  | .contentExtracted p => some p.causationId
  | .contentExtractionRejected p => some p.causationId

def correlationId : EventPayload → PyStr
  | .documentSubmitted p => p.correlationId
  | .documentFetched p => p.correlationId
  | .documentFetchRejected p => p.correlationId
  | .contentExtracted p => p.correlationId
  | .contentExtractionRejected p => p.correlationId

def schemaVersion : EventPayload → PyStr
  | .documentSubmitted p => p.schemaVersion
  | .documentFetched p => p.schemaVersion
  | .documentFetchRejected p => p.schemaVersion
  | .contentExtracted p => p.schemaVersion
  | .contentExtractionRejected p => p.schemaVersion

end EventPayload

/-- `json.dumps(value, sort_keys=True)`. -/
def dumpsSorted (value : Json) : PyStr := jsonDumps ⟨true,true,false⟩ value

def buildDocumentSubmittedEvent (eventId : UUID) (now : PyStr) (tenantId documentId : UUID)
    (payloadUri : PyStr) (correlationId : Option UUID) : DocumentSubmitted where
  eventId := eventId.str
  eventType := py "DocumentSubmitted"
  occurredAt := now
  correlationId := (correlationId.getD eventId).str
  causationId := none
  tenantId := tenantId.str
  documentId := documentId.str
  payloadUri := payloadUri
  schemaVersion := py "1.0.0"

def buildDocumentFetchedEvent (eventId : UUID) (now : PyStr)
    (tenantId documentId documentVersionId : UUID) (payloadUri detectedMimeType contentSha256 : PyStr)
    (byteSize : ℕ) (inspectionMetadata : Json) (correlationId causationId : UUID) :
    DocumentFetched where
  eventId := eventId.str
  eventType := py "DocumentFetched"
  occurredAt := now
  correlationId := correlationId.str
  causationId := causationId.str
  tenantId := tenantId.str
  documentId := documentId.str
  documentVersionId := documentVersionId.str
  payloadUri := payloadUri
  detectedMimeType := detectedMimeType
  contentSha256 := contentSha256
  byteSize := byteSize
  inspectionStatus := py "valid"
  inspectionMetadata := dumpsSorted inspectionMetadata
  schemaVersion := py "1.0.0"

def buildDocumentFetchRejectedEvent (eventId : UUID) (now : PyStr) (tenantId documentId : UUID)
    (payloadUri : PyStr) (correlationId causationId : UUID) (errorCode : PyStr)
    (inspectionMetadata : List (PyStr × Json)) : DocumentFetchRejected where
  eventId := eventId.str
  eventType := py "DocumentFetchRejected"
  occurredAt := now
  correlationId := correlationId.str
  causationId := causationId.str
  tenantId := tenantId.str
  documentId := documentId.str
  payloadUri := payloadUri
  inspectionStatus := py "invalid"
  inspectionMetadata :=
    dumpsSorted (.dict (Json.ofItems ((py "validation_error",.str errorCode)::inspectionMetadata)))
  schemaVersion := py "1.0.0"

def buildContentExtractedEvent (eventId : UUID) (now : PyStr)
    (tenantId documentId documentVersionId : UUID)
    (normalizedArtifactUri manifestUri contentSha256 extractorName extractorVersion
      extractionStatus : PyStr) (qualitySummary : Json) (correlationId causationId : UUID) :
    ContentExtracted where
  eventId := eventId.str
  eventType := py "ContentExtracted"
  occurredAt := now
  correlationId := correlationId.str
  causationId := causationId.str
  tenantId := tenantId.str
  documentId := documentId.str
  documentVersionId := documentVersionId.str
  normalizedArtifactUri := normalizedArtifactUri
  manifestUri := manifestUri
  contentSha256 := contentSha256
  extractorName := extractorName
  extractorVersion := extractorVersion
  extractionStatus := extractionStatus
  qualitySummary := dumpsSorted qualitySummary
  schemaVersion := py "1.0.0"

def buildContentExtractionRejectedEvent (eventId : UUID) (now : PyStr)
    (tenantId documentId documentVersionId correlationId causationId : UUID) (errorCode : PyStr) :
    ContentExtractionRejected where
  eventId := eventId.str
  eventType := py "ContentExtractionRejected"
  occurredAt := now
  correlationId := correlationId.str
  causationId := causationId.str
  tenantId := tenantId.str
  documentId := documentId.str
  documentVersionId := documentVersionId.str
  errorCode := errorCode
  schemaVersion := py "1.0.0"

end RagIngestion.Domain
