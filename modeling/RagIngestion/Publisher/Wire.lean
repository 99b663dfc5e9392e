import RagIngestion.Domain.Contracts
import RagIngestion.Publisher.Process
import RagIngestion.Submission.Repository
import RagIngestion.Fetcher.Repository
import RagIngestion.Extractor.Repository

/-! From an outbox row to the subscriber of its topic: the contract the publisher finds, the Avro
value it writes, and what the subscriber's own contract makes of that value. -/
namespace RagIngestion.Publisher
open RagIngestion.Python RagIngestion.Domain RagIngestion.Database RagIngestion.Library

/-- The rows the five inserts can write, for all arguments whose text can be encoded and sizes
that fit a long; metadata is any JSON. -/
inductive Insertable : OutboxEvent → Prop
  | submitted (tenantId documentId eventId : UUID) (payloadEventId : UUID) (occurredAt : PyStr)
      (payloadTenantId payloadDocumentId : UUID) (payloadUri : PyStr) (correlationId : Option UUID)
      (hnow : Scalar occurredAt) (huri : Scalar payloadUri) :
      Insertable (Submission.submittedEvent tenantId documentId eventId
        (buildDocumentSubmittedEvent payloadEventId occurredAt payloadTenantId payloadDocumentId
          payloadUri correlationId))
  | fetched (payload : DocumentSubmitted) (ids : Fetcher.Ids) (versionId : UUID)
      (inspection : Fetcher.SourceInspection) (metadata : Json) (draws : Draws)
      (hnow : Scalar draws.occurredAt) (huri : Scalar payload.payloadUri)
      (hmime : Scalar inspection.detectedMimeType) (hsha : Scalar inspection.contentSha256)
      (hsize : inspection.byteSize<2^63) :
      Insertable (Fetcher.fetchedEvent payload ids versionId inspection metadata draws)
  | fetchRejected (payload : DocumentSubmitted) (ids : Fetcher.Ids)
      (error : Fetcher.FetchValidationError) (draws : Draws)
      (hnow : Scalar draws.occurredAt) (huri : Scalar payload.payloadUri) :
      Insertable (Fetcher.rejectedEvent payload ids error draws)
  | extracted (rt : Extractor.Runtime) (payload : DocumentFetched) (ids : Extractor.Ids)
      (correlationId : UUID) (result : Extractor.ExtractionResult) (normalizedUri manifestUri : PyStr)
      (draws : Draws) (hnow : Scalar draws.occurredAt) (hnormalized : Scalar normalizedUri)
      (hmanifest : Scalar manifestUri) (hsha : Scalar payload.contentSha256)
      (hversion : Scalar rt.doclingVersion) :
      Insertable (Extractor.extractedEvent rt payload ids correlationId result normalizedUri
        manifestUri draws)
  | extractionRejected (ids : Extractor.Ids) (correlationId : UUID)
      (error : Extractor.ExtractionError) (draws : Draws) (hnow : Scalar draws.occurredAt)
      (hcode : Scalar error.code) :
      Insertable (Extractor.rejectedEvent ids correlationId error draws)

/-- The contract the subscriber of a message's topic decodes with: those of the fetcher's and the
extractor's `_serializer`, and the registered one where no worker subscribes. -/
def subscriberSchemaFile (m : KafkaMessage) : PyStr :=
  if m.topic=documentSubmittedTopic then py "document-submitted.avsc"
  else if m.topic=documentFetchedTopic then py "document-fetched.avsc"
  else m.schemaFile

/-- The message of the row is written and read under a schema its payload conforms to. -/
structure Wired (event : OutboxEvent) (m : KafkaMessage) (schema : List AvroField) : Prop where
  message : kafkaMessage event=.ok m
  writer : avroSchemas.lookup m.schemaFile=some schema
  reader : avroSchemas.lookup (subscriberSchemaFile m)=some schema
  names : (schema.map AvroField.name).Nodup
  conforms : Conforms schema event.payload.items

lemma scalar_dumpsSorted (value : Json) : Scalar (dumpsSorted value) := scalar_jsonDumps_ascii rfl value

/-- Each builder fills exactly the fields of the contract its row is registered under. -/
theorem Insertable.wired {event : OutboxEvent} (h : Insertable event) :
    ∃ m schema, Wired event m schema := by
  have hversion : Scalar (py "1.0.0") := scalar_py _
  cases h with
  | submitted tenantId documentId eventId payloadEventId occurredAt payloadTenantId
      payloadDocumentId payloadUri correlationId hnow huri =>
    refine ⟨_,documentSubmittedSchema,rfl,rfl,rfl,by decide +kernel,?_⟩
    exact .string (UUID.scalar_str _) (.string (scalar_py _) (.string hnow
      (.string (UUID.scalar_str _) (.field trivial (.string (UUID.scalar_str _)
      (.string (UUID.scalar_str _) (.string huri (conforms_version hversion))))))))
  | fetched payload ids versionId inspection metadata draws hnow huri hmime hsha hsize =>
    refine ⟨_,documentFetchedSchema,rfl,rfl,rfl,by decide +kernel,?_⟩
    have hlong : AvroType.long.Accepts (.int inspection.byteSize) := ⟨by omega,by omega⟩
    exact .string (UUID.scalar_str _) (.string (scalar_py _) (.string hnow
      (.string (UUID.scalar_str _) (.string (UUID.scalar_str _) (.string (UUID.scalar_str _)
      (.string (UUID.scalar_str _) (.string (UUID.scalar_str _) (.string huri (.string hmime
      (.string hsha (.field hlong (.string (scalar_py _) (.string (scalar_dumpsSorted _)
      (conforms_version hversion))))))))))))))
  | fetchRejected payload ids error draws hnow huri =>
    refine ⟨_,documentFetchRejectedSchema,rfl,rfl,rfl,by decide +kernel,?_⟩
    exact .string (UUID.scalar_str _) (.string (scalar_py _) (.string hnow
      (.string (UUID.scalar_str _) (.string (UUID.scalar_str _) (.string (UUID.scalar_str _)
      (.string (UUID.scalar_str _) (.string huri (.string (scalar_py _)
      (.string (scalar_dumpsSorted _) (conforms_version hversion))))))))))
  | extracted rt payload ids correlationId result normalizedUri manifestUri draws hnow hnormalized
      hmanifest hsha hdocling =>
    refine ⟨_,contentExtractedSchema,rfl,rfl,rfl,by decide +kernel,?_⟩
    have hstatus : Scalar result.extractionStatus.text := by
      cases result.extractionStatus <;> exact scalar_py _
    exact .string (UUID.scalar_str _) (.string (scalar_py _) (.string hnow
      (.string (UUID.scalar_str _) (.string (UUID.scalar_str _) (.string (UUID.scalar_str _)
      (.string (UUID.scalar_str _) (.string (UUID.scalar_str _) (.string hnormalized
      (.string hmanifest (.string hsha (.string (scalar_py _) (.string hdocling (.string hstatus
      (.string (scalar_dumpsSorted _) (conforms_version hversion)))))))))))))))
  | extractionRejected ids correlationId error draws hnow hcode =>
    refine ⟨_,contentExtractionRejectedSchema,rfl,rfl,rfl,by decide +kernel,?_⟩
    exact .string (UUID.scalar_str _) (.string (scalar_py _) (.string hnow
      (.string (UUID.scalar_str _) (.string (UUID.scalar_str _) (.string (UUID.scalar_str _)
      (.string (UUID.scalar_str _) (.string (UUID.scalar_str _) (.string hcode
      (conforms_version hversion)))))))))

/-- Every row is published under a registered schema, and the subscriber of its topic decodes
exactly the payload the builder produced, in whatever order the column returned its entries. -/
theorem subscriber_decodes_payload {event : OutboxEvent} (h : Insertable event) :
    ∃ m writer reader, kafkaMessage event=.ok m ∧ m.record=event.payload ∧
      avroSchemas.lookup m.schemaFile=some writer ∧
      avroSchemas.lookup (subscriberSchemaFile m)=some reader ∧
      ∀ stored, stored.Perm event.payload.items → ∃ value, serialize writer stored=some value ∧
        deserialize reader value=some event.payload.items := by
  obtain ⟨m,schema,hwired⟩ := h.wired
  refine ⟨m,schema,schema,hwired.message,(kafkaMessage_eq_ok hwired.message).1,hwired.writer,
    hwired.reader,?_⟩
  intro stored hstored
  exact deserialize_serialize hwired.names hwired.conforms hstored

/-- A submission whose object key has a character outside ASCII. -/
theorem accented_submission_decoded :
    ∃ writer value, serialize writer
      (EventPayload.documentSubmitted (buildDocumentSubmittedEvent ⟨3⟩ (py "2024") ⟨1⟩ ⟨2⟩
        (py "s3://rag-source/é.pdf") none)).items=some value ∧
      deserialize writer value=some
        (EventPayload.documentSubmitted (buildDocumentSubmittedEvent ⟨3⟩ (py "2024") ⟨1⟩ ⟨2⟩
          (py "s3://rag-source/é.pdf") none)).items := by
  have h := subscriber_decodes_payload (.submitted ⟨1⟩ ⟨2⟩ ⟨3⟩ ⟨3⟩ (py "2024") ⟨1⟩ ⟨2⟩
    (py "s3://rag-source/é.pdf") none (scalar_py _) (scalar_py _))
  obtain ⟨m,writer,reader,hm,-,hwriter,hreader,hdecoded⟩ := h
  cases hm
  cases hwriter
  cases hreader
  exact ⟨documentSubmittedSchema,hdecoded _ (.refl _)⟩

end RagIngestion.Publisher
