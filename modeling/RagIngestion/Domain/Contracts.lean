import RagIngestion.Domain.Events
import RagIngestion.Python.Utf8

/-! The checked-in Avro contracts, and `AvroSerializer` over the binary encoding of records,
strings, longs and the union of null and string. -/
namespace RagIngestion.Domain
open RagIngestion.Python RagIngestion.Library

/-- The Avro types the contracts use. -/
inductive AvroType
  | string | long | nullOrString

namespace AvroType

def nullCodec : Codec Json where
  write value := match value with
    | .null => some []
    | _ => none
  read bytes := some (.null,bytes)

def stringCodec : Codec Json :=
  text.via (fun value => match value with | .str s => some s | _ => none) (fun s => some (.str s))

/-- Integers only; `fastavro` also writes `True` and `5.0` as a long. -/
def longCodec : Codec Json :=
  Codec.long.via (fun value => match value with | .int i => some i | _ => none)
    (fun i => some (.int i))

def codec : AvroType → Codec Json
  | .string => stringCodec
  | .long => longCodec
  | .nullOrString => .choice [nullCodec,stringCodec]

/-- The values a writer of the type accepts. -/
def Accepts : AvroType → Json → Prop
  | .string, .str s => Scalar s
  | .long, .int i => -2^63 ≤ i ∧ i<2^63
  | .nullOrString, .null => True
  | .nullOrString, .str s => Scalar s
  | _, _ => False

theorem nullCodec_faithful : nullCodec.Faithful := by
  intro value bytes hw rest
  cases value with
  | null => cases hw; rfl
  | _ => cases hw

theorem stringCodec_faithful : stringCodec.Faithful := by
  refine text_faithful.via ?_
  intro s value h
  cases value with
  | str => cases h; rfl
  | _ => cases h

theorem longCodec_faithful : longCodec.Faithful := by
  refine Codec.long_faithful.via ?_
  intro i value h
  cases value with
  | int => cases h; rfl
  | _ => cases h

theorem codec_faithful (t : AvroType) : t.codec.Faithful := by
  cases t with
  | string => exact stringCodec_faithful
  | long => exact longCodec_faithful
  | nullOrString =>
    refine Codec.choice_faithful ?_
    intro c hc
    rcases List.mem_pair.mp hc with rfl | rfl
    · exact nullCodec_faithful
    · exact stringCodec_faithful

lemma stringCodec_write {s : PyStr} (hs : Scalar s) : (stringCodec.write (.str s)).isSome=true :=
  text_write hs

theorem codec_write {t : AvroType} {value : Json} (h : t.Accepts value) :
    (t.codec.write value).isSome=true := by
  cases t with
  | string =>
    cases value with
    | str s => exact stringCodec_write h
    | _ => cases h
  | long =>
    cases value with
    | int i =>
      have hw := Codec.long_write h.1 h.2
      change (Codec.long.write i).isSome=true
      rw [hw]
      rfl
    | _ => cases h
  | nullOrString =>
    cases value with
    | null => rfl
    | str s =>
      obtain ⟨bytes,hbytes⟩ := Option.isSome_iff_exists.mp (stringCodec_write h)
      simp [codec,Codec.choice,nullCodec,hbytes,Codec.integer_write]
    | _ => cases h

end AvroType

/-- A field of a record schema; without a default a missing value is null. -/
structure AvroField where
  name : PyStr
  type : AvroType
  default : Json

def AvroField.field (f : AvroField) : Field PyStr Json := ⟨f.name,f.type.codec,f.default⟩

/-- A required string field. -/
def stringField (name : String) : AvroField := ⟨py name,.string,.null⟩

def schemaVersionField : AvroField := ⟨py "schema_version",.string,.str (py "1.0.0")⟩

/-- `document-submitted.avsc`. -/
def documentSubmittedSchema : List AvroField :=
  [stringField "event_id",stringField "event_type",stringField "occurred_at",
    stringField "correlation_id",⟨py "causation_id",.nullOrString,.null⟩,stringField "tenant_id",
    stringField "document_id",stringField "payload_uri",schemaVersionField]

/-- `document-fetched.avsc`. -/
def documentFetchedSchema : List AvroField :=
  [stringField "event_id",stringField "event_type",stringField "occurred_at",
    stringField "correlation_id",stringField "causation_id",stringField "tenant_id",
    stringField "document_id",stringField "document_version_id",stringField "payload_uri",
    stringField "detected_mime_type",stringField "content_sha256",⟨py "byte_size",.long,.null⟩,
    stringField "inspection_status",stringField "inspection_metadata",schemaVersionField]

/-- `document-fetch-rejected.avsc`. -/
def documentFetchRejectedSchema : List AvroField :=
  [stringField "event_id",stringField "event_type",stringField "occurred_at",
    stringField "correlation_id",stringField "causation_id",stringField "tenant_id",
    stringField "document_id",stringField "payload_uri",stringField "inspection_status",
    stringField "inspection_metadata",schemaVersionField]

/-- `content-extracted.avsc`. -/
def contentExtractedSchema : List AvroField :=
  [stringField "event_id",stringField "event_type",stringField "occurred_at",
    stringField "correlation_id",stringField "causation_id",stringField "tenant_id",
    stringField "document_id",stringField "document_version_id",
    stringField "normalized_artifact_uri",stringField "manifest_uri",stringField "content_sha256",
    stringField "extractor_name",stringField "extractor_version",stringField "extraction_status",
    stringField "quality_summary",schemaVersionField]

/-- `content-extraction-rejected.avsc`. -/
def contentExtractionRejectedSchema : List AvroField :=
  [stringField "event_id",stringField "event_type",stringField "occurred_at",
    stringField "correlation_id",stringField "causation_id",stringField "tenant_id",
    stringField "document_id",stringField "document_version_id",stringField "error_code",
    schemaVersionField]

/-- The files of `schemas/avro`. -/
def avroSchemas : List (PyStr × List AvroField) :=
  [(py "document-submitted.avsc",documentSubmittedSchema),
    (py "document-fetched.avsc",documentFetchedSchema),
    (py "document-fetch-rejected.avsc",documentFetchRejectedSchema),
    (py "content-extracted.avsc",contentExtractedSchema),
    (py "content-extraction-rejected.avsc",contentExtractionRejectedSchema)]

/-- `AvroSerializer.serialize`; nothing where the writer raises. -/
def serialize (schema : List AvroField) (record : List (PyStr × Json)) : Option Bytes :=
  writeFields record (schema.map AvroField.field)

/-- `AvroSerializer.deserialize`; bytes after the record are not read. -/
def deserialize (schema : List AvroField) (payload : Bytes) : Option (List (PyStr × Json)) :=
  (readFields (schema.map AvroField.field) payload).map Prod.fst

namespace EventPayload

/-- The dictionary a builder returns. -/
def items : EventPayload → List (PyStr × Json)
  | .documentSubmitted p => [
    (py "event_id",.str p.eventId),
    (py "event_type",.str p.eventType),
    (py "occurred_at",.str p.occurredAt),
    (py "correlation_id",.str p.correlationId),
    (py "causation_id",match p.causationId with | none => .null | some id => .str id),
    (py "tenant_id",.str p.tenantId),
    (py "document_id",.str p.documentId),
    (py "payload_uri",.str p.payloadUri),
    (py "schema_version",.str p.schemaVersion)]
  | .documentFetched p => [
    (py "event_id",.str p.eventId),
    (py "event_type",.str p.eventType),
    (py "occurred_at",.str p.occurredAt),
    (py "correlation_id",.str p.correlationId),
    (py "causation_id",.str p.causationId),
    (py "tenant_id",.str p.tenantId),
    (py "document_id",.str p.documentId),
    (py "document_version_id",.str p.documentVersionId),
    (py "payload_uri",.str p.payloadUri),
    (py "detected_mime_type",.str p.detectedMimeType),
    (py "content_sha256",.str p.contentSha256),
    (py "byte_size",.int p.byteSize),
    (py "inspection_status",.str p.inspectionStatus),
    (py "inspection_metadata",.str p.inspectionMetadata),
    (py "schema_version",.str p.schemaVersion)]
  | .documentFetchRejected p => [
    (py "event_id",.str p.eventId),
    (py "event_type",.str p.eventType),
    (py "occurred_at",.str p.occurredAt),
    (py "correlation_id",.str p.correlationId),
    (py "causation_id",.str p.causationId),
    (py "tenant_id",.str p.tenantId),
    (py "document_id",.str p.documentId),
    (py "payload_uri",.str p.payloadUri),
    (py "inspection_status",.str p.inspectionStatus),
    (py "inspection_metadata",.str p.inspectionMetadata),
    (py "schema_version",.str p.schemaVersion)]
  | .contentExtracted p => [
    (py "event_id",.str p.eventId),
    (py "event_type",.str p.eventType),
    (py "occurred_at",.str p.occurredAt),
    (py "correlation_id",.str p.correlationId),
    (py "causation_id",.str p.causationId),
    (py "tenant_id",.str p.tenantId),
    (py "document_id",.str p.documentId),
    (py "document_version_id",.str p.documentVersionId),
    (py "normalized_artifact_uri",.str p.normalizedArtifactUri),
    (py "manifest_uri",.str p.manifestUri),
    (py "content_sha256",.str p.contentSha256),
    (py "extractor_name",.str p.extractorName),
    (py "extractor_version",.str p.extractorVersion),
    (py "extraction_status",.str p.extractionStatus),
    (py "quality_summary",.str p.qualitySummary),
    (py "schema_version",.str p.schemaVersion)]
  | .contentExtractionRejected p => [
    (py "event_id",.str p.eventId),
    (py "event_type",.str p.eventType),
    (py "occurred_at",.str p.occurredAt),
    (py "correlation_id",.str p.correlationId),
    (py "causation_id",.str p.causationId),
    (py "tenant_id",.str p.tenantId),
    (py "document_id",.str p.documentId),
    (py "document_version_id",.str p.documentVersionId),
    (py "error_code",.str p.errorCode),
    (py "schema_version",.str p.schemaVersion)]

end EventPayload

/-- The entries are those of the fields, in their order and of their types. -/
def Conforms (schema : List AvroField) (items : List (PyStr × Json)) : Prop :=
  List.Forall₂ (fun f entry => f.name=entry.1 ∧ f.type.Accepts entry.2) schema items

theorem Conforms.field {f : AvroField} {value : Json} {schema : List AvroField}
    {items : List (PyStr × Json)} (hv : f.type.Accepts value) (h : Conforms schema items) :
    Conforms (f::schema) ((f.name,value)::items) := .cons ⟨rfl,hv⟩ h

theorem Conforms.string {name : String} {s : PyStr} {schema : List AvroField}
    {items : List (PyStr × Json)} (hs : Scalar s) (h : Conforms schema items) :
    Conforms (stringField name::schema) ((py name,.str s)::items) := Conforms.field hs h

theorem conforms_version {s : PyStr} (hs : Scalar s) :
    Conforms [schemaVersionField] [(py "schema_version",.str s)] := Conforms.field hs .nil

theorem Conforms.names {schema : List AvroField} {items : List (PyStr × Json)}
    (h : Conforms schema items) : schema.map AvroField.name=items.map Prod.fst := by
  induction h with
  | nil => rfl
  | cons h _ ih => rw [List.map_cons,List.map_cons,h.1,ih]

/-- Every field finds a value of its type. -/
theorem Conforms.accepts {schema : List AvroField} {items stored : List (PyStr × Json)}
    (h : Conforms schema items)
    (hstored : ∀ entry ∈ items, stored.lookup entry.1=some entry.2) :
    ∀ f ∈ schema, f.type.Accepts (f.field.value stored) := by
  induction h with
  | nil =>
    intro f hf
    cases hf
  | @cons f entry schema items h _ ih =>
    intro g hg
    cases List.mem_cons.mp hg with
    | inl hg =>
      have hvalue : g.field.value stored=entry.2 := by
        rw [Field.value,AvroField.field,hg,h.1,hstored entry (by simp),Option.getD_some]
      rw [hvalue,hg]
      exact h.2
    | inr hg => exact ih (fun e he => hstored e (by simp [he])) g hg

/-- A record that conforms to its schema can be written, and is read as it was, in whatever order
its entries were stored. -/
theorem deserialize_serialize {schema : List AvroField} {items stored : List (PyStr × Json)}
    (hkeys : (schema.map AvroField.name).Nodup) (h : Conforms schema items)
    (hperm : stored.Perm items) :
    ∃ value, serialize schema stored=some value ∧ deserialize schema value=some items := by
  have hfields : (schema.map AvroField.field).map Field.name=items.map Prod.fst := by
    rw [List.map_map,← h.names]
    rfl
  rw [h.names] at hkeys
  have hstored := lookup_of_perm hkeys hperm
  have hwritten : (serialize schema stored).isSome=true := by
    apply writeFields_isSome
    intro f hf
    obtain ⟨g,hg,rfl⟩ := List.mem_map.mp hf
    exact AvroType.codec_write (h.accepts hstored g hg)
  have hfaithful : ∀ f ∈ schema.map AvroField.field, f.codec.Faithful := by
    intro f hf
    obtain ⟨g,-,rfl⟩ := List.mem_map.mp hf
    exact g.type.codec_faithful
  obtain ⟨value,hvalue⟩ := Option.isSome_iff_exists.mp hwritten
  have hread := readFields_writeFields hfaithful hvalue []
  rw [List.append_nil,fields_eq_items hfields hstored] at hread
  exact ⟨value,hvalue,by rw [deserialize,hread]; rfl⟩

end RagIngestion.Domain
