import RagIngestion.Fetcher.Inspect
import RagIngestion.Database.Outcomes

/-! The fetcher's transaction: the claim of the event, the verdict on the version the event
names, and the handoff. -/
namespace RagIngestion.Fetcher
open RagIngestion.Python RagIngestion.Domain RagIngestion.Database RagIngestion.Library

/-- `CONSUMER_NAME`. -/
def consumerName : PyStr := py "document-fetcher"

def unknownSourceObject : FetchValidationError :=
  ⟨py "unknown_source_object",py "Submitted object is not a current document version.",[]⟩
def sourceChecksumMismatch : FetchValidationError :=
  ⟨py "source_checksum_mismatch",py "Stored object differs from submitted version.",[]⟩
def unexpectedEventType : FetchValidationError :=
  ⟨py "unexpected_event_type",py "Fetcher accepts only DocumentSubmitted events.",[]⟩

/-- The ids a payload names. -/
structure Ids where
  tenantId : UUID
  documentId : UUID
  eventId : UUID
  correlationId : UUID

/-- The outbox columns `_enqueue_failure` writes. -/
def rejectedEvent (payload : DocumentSubmitted) (ids : Ids) (error : FetchValidationError)
    (draws : Draws) : OutboxEvent where
  tenantId := ids.tenantId
  eventId := draws.eventId
  aggregateType := py "document"
  aggregateId := ids.documentId
  eventType := py "DocumentFetchRejected"
  kafkaTopic := deadLetterTopic consumerName
  eventContractNamespace := py "rag.ingestion.v1"
  eventSchemaName := py "document-fetch-rejected"
  payload := .documentFetchRejected (buildDocumentFetchRejectedEvent draws.eventId draws.occurredAt
    ids.tenantId ids.documentId payload.payloadUri ids.correlationId ids.eventId error.code
    error.metadata)
  headers := [(py "event_type",py "DocumentFetchRejected"),(py "causation_id",payload.eventId)]

/-- The outbox columns of a successful fetch. -/
def fetchedEvent (payload : DocumentSubmitted) (ids : Ids) (versionId : UUID)
    (inspection : SourceInspection) (metadata : Json) (draws : Draws) : OutboxEvent where
  tenantId := ids.tenantId
  eventId := draws.eventId
  aggregateType := py "document_version"
  aggregateId := versionId
  eventType := py "DocumentFetched"
  kafkaTopic := documentFetchedTopic
  eventContractNamespace := py "rag.ingestion.v1"
  eventSchemaName := py "document-fetched"
  payload := .documentFetched (buildDocumentFetchedEvent draws.eventId draws.occurredAt ids.tenantId
    ids.documentId versionId payload.payloadUri inspection.detectedMimeType inspection.contentSha256
    inspection.byteSize metadata ids.correlationId ids.eventId)
  headers := [(py "event_type",py "DocumentFetched"),(py "causation_id",ids.eventId.str)]

/-- `SELECT … FROM rag.document_versions` for the source URI of an event. -/
def matchingVersions (tenantId documentId : UUID) (sourceUri : PyStr) (db : Db) :
    List DocumentVersion :=
  db.versions.filter (fun v => v.tenantId=tenantId ∧ v.documentId=documentId ∧
    v.sourceObjectUri=sourceUri ∧ v.deletedAt=none)

/-- The error `process` acts on, once it knows the version. -/
def verdict (version : DocumentVersion) (inspection : Option SourceInspection)
    (error : Option FetchValidationError) : Option FetchValidationError :=
  let error :=
    match inspection with
    | none => error
    | some i => if i.contentSha256≠version.contentSha256 then some sourceChecksumMismatch else error
  match error with
  | some e => some e
  | none => if version.mimeType ∉ permittedMimeTypes then some declaredMimeTypeMismatch else none

/-- An accepted inspection has the hash of the version. -/
theorem verdict_eq_none {version : DocumentVersion} {i : SourceInspection}
    {error : Option FetchValidationError}
    (h : verdict version (some i) error=none) : i.contentSha256=version.contentSha256 := by
  by_contra hne
  simp [verdict,hne] at h

/-- An inspection is accepted by the hash and the declared type of the version. -/
theorem verdict_inspected_iff {version : DocumentVersion} {i : SourceInspection} :
    verdict version (some i) none=none ↔
      i.contentSha256=version.contentSha256 ∧ version.mimeType ∈ permittedMimeTypes := by
  by_cases hsha : i.contentSha256=version.contentSha256
  · simp [verdict,hsha]
  · simp [verdict,hsha]

/-- An error of a verdict was passed on, or comes from the version. -/
theorem verdict_eq_some {version : DocumentVersion} {inspection : Option SourceInspection}
    {error : Option FetchValidationError} {e : FetchValidationError}
    (h : verdict version inspection error=some e) :
    e=sourceChecksumMismatch ∨ e=declaredMimeTypeMismatch ∨ error=some e := by
  have hmime : (if version.mimeType ∉ permittedMimeTypes then some declaredMimeTypeMismatch
      else none)=some e → e=declaredMimeTypeMismatch := by
    intro h
    split at h
    · exact (Option.some.inj h).symm
    · cases h
  unfold verdict at h
  cases inspection with
  | none =>
    cases error with
    | none => exact .inr (.inl (hmime h))
    | some x => exact .inr (.inr h)
  | some i =>
    by_cases hsha : i.contentSha256≠version.contentSha256
    · simp only [if_pos hsha] at h
      exact .inl (Option.some.inj h).symm
    · simp only [if_neg hsha] at h
      cases error with
      | none => exact .inr (.inl (hmime h))
      | some x => exact .inr (.inr h)

/-- The inspection metadata of a rejected version. -/
def failureMetadata (error : FetchValidationError) : Json :=
  .dict (Json.ofItems ((py "validation_error",.str error.code)::
    (py "message",.str error.detail)::error.metadata))

/-- The inspection metadata of a fetched version. -/
def fetchedMetadata (version : DocumentVersion) (inspection : SourceInspection) : Json :=
  .dict (Json.set (py "declared_mime_type") (.str version.mimeType) inspection.metadata)

def markInvalid (error : FetchValidationError) (v : DocumentVersion) : DocumentVersion :=
  { v with inspectionStatus := .invalid, inspectionMetadata := failureMetadata error }

def markValid (detectedMimeType : PyStr) (metadata : Json) (v : DocumentVersion) : DocumentVersion :=
  { v with
    detectedMimeType := some detectedMimeType
    inspectionStatus := .valid
    inspectionMetadata := metadata }

def ingestionFailure (ids : Ids) (versionId : UUID) (error : FetchValidationError) :
    IngestionFailure where
  tenantId := ids.tenantId
  documentVersionId := versionId
  eventId := ids.eventId
  stage := py "document-fetcher"
  errorClass := py "validation"
  errorCode := error.code
  errorDetail := failureMetadata error

/-- `_enqueue_failure`. -/
def enqueueFailure (payload : DocumentSubmitted) (error : FetchValidationError) (draws : Draws)
    (db : Db) : Except PyError Db := do
  let tenantId ← UUID.ofText payload.tenantId
  let documentId ← UUID.ofText payload.documentId
  let correlationId ← UUID.ofText payload.correlationId
  let causationId ← UUID.ofText payload.eventId
  db.insertOutbox draws.outboxId
    (rejectedEvent payload ⟨tenantId,documentId,causationId,correlationId⟩ error draws) draws.now

/-- `DocumentFetcherRepository.process`: nothing when the event was processed before. -/
def process (payload : DocumentSubmitted) (inspection : Option SourceInspection)
    (error : Option FetchValidationError) (draws : Draws) (db : Db) : Except PyError (Option Db) := do
  let tenantId ← UUID.ofText payload.tenantId
  let documentId ← UUID.ofText payload.documentId
  let receivedEventId ← UUID.ofText payload.eventId
  match ← db.claimEvent ⟨tenantId,receivedEventId,consumerName⟩ with
  | none => .ok none
  | some db =>
    match matchingVersions tenantId documentId payload.payloadUri db with
    | [] =>
      let db ← enqueueFailure payload unknownSourceObject draws db
      .ok (some db)
    | [version] =>
      match verdict version inspection error with
      | some error =>
        let db := db.updateVersion tenantId version.id (markInvalid error) draws.versionUpdatedAt
        let db := db.setDocumentStatus tenantId documentId .failed draws.documentUpdatedAt
        let db ← db.insertFailure
          (ingestionFailure ⟨tenantId,documentId,receivedEventId,receivedEventId⟩ version.id error)
        let db ← enqueueFailure payload error draws db
        .ok (some db)
      | none =>
        match inspection with
        | none => .error .assertionError
        | some inspection =>
          let metadata := fetchedMetadata version inspection
          let db := db.updateVersion tenantId version.id
            (markValid inspection.detectedMimeType metadata) draws.versionUpdatedAt
          let db := db.setDocumentStatus tenantId documentId .fetched draws.documentUpdatedAt
          let correlationId ← UUID.ofText payload.correlationId
          let db ← db.insertOutbox draws.outboxId
            (fetchedEvent payload ⟨tenantId,documentId,receivedEventId,correlationId⟩ version.id
              inspection metadata draws) draws.now
          .ok (some db)
    | _ => .error .multipleResultsFound

/-- The UUIDs of a payload's id fields. -/
structure Names (payload : DocumentSubmitted) (ids : Ids) : Prop where
  tenant : UUID.ofText payload.tenantId=.ok ids.tenantId
  document : UUID.ofText payload.documentId=.ok ids.documentId
  event : UUID.ofText payload.eventId=.ok ids.eventId
  correlation : UUID.ofText payload.correlationId=.ok ids.correlationId

theorem Names.located {payload : DocumentSubmitted} {ids : Ids} {tenantId documentId eventId : UUID}
    (h : Names payload ids) (ht : UUID.ofText payload.tenantId=.ok tenantId)
    (hd : UUID.ofText payload.documentId=.ok documentId)
    (he : UUID.ofText payload.eventId=.ok eventId) :
    tenantId=ids.tenantId ∧ documentId=ids.documentId ∧ eventId=ids.eventId :=
  ⟨Except.ok.inj (ht.symm.trans h.tenant),Except.ok.inj (hd.symm.trans h.document),
    Except.ok.inj (he.symm.trans h.event)⟩

theorem Names.unique {payload : DocumentSubmitted} {ids other : Ids} (h : Names payload ids)
    (h' : Names payload other) : ids=other := by
  obtain ⟨ht,hd,he⟩ := h'.located h.tenant h.document h.event
  have hc := Except.ok.inj (h.correlation.symm.trans h'.correlation)
  cases ids
  cases other
  simp_all

/-- The outcomes the fetcher commits for a payload. -/
inductive FetchOutcome (payload : DocumentSubmitted) (inspection : Option SourceInspection)
    (error : Option FetchValidationError) (ids : Ids) (draws : Draws) (db : Db) : Outcome → Prop
  | unknown (hv : matchingVersions ids.tenantId ids.documentId payload.payloadUri db=[]) :
      FetchOutcome payload inspection error ids draws db
        { claim := ⟨ids.tenantId,ids.eventId,consumerName⟩
          event := rejectedEvent payload ids unknownSourceObject draws
          status := none
          version := none
          versionUpdatedAt := draws.versionUpdatedAt
          documentUpdatedAt := draws.documentUpdatedAt
          failure := none }
  | invalid {version e}
      (hv : matchingVersions ids.tenantId ids.documentId payload.payloadUri db=[version])
      (he : verdict version inspection error=some e) :
      FetchOutcome payload inspection error ids draws db
        { claim := ⟨ids.tenantId,ids.eventId,consumerName⟩
          event := rejectedEvent payload ids e draws
          status := some (ids.documentId,.failed)
          version := some (version.id,markInvalid e)
          versionUpdatedAt := draws.versionUpdatedAt
          documentUpdatedAt := draws.documentUpdatedAt
          failure := some (ingestionFailure ids version.id e) }
  | valid {version i}
      (hv : matchingVersions ids.tenantId ids.documentId payload.payloadUri db=[version])
      (he : verdict version inspection error=none) (hi : inspection=some i) :
      FetchOutcome payload inspection error ids draws db
        { claim := ⟨ids.tenantId,ids.eventId,consumerName⟩
          event := fetchedEvent payload ids version.id i (fetchedMetadata version i) draws
          status := some (ids.documentId,.fetched)
          version := some (version.id,markValid i.detectedMimeType (fetchedMetadata version i))
          versionUpdatedAt := draws.versionUpdatedAt
          documentUpdatedAt := draws.documentUpdatedAt
          failure := none }

theorem enqueueFailure_eq_ok {payload : DocumentSubmitted} {error : FetchValidationError}
    {draws : Draws} {db after : Db} (h : enqueueFailure payload error draws db=.ok after) :
    ∃ ids, Names payload ids ∧
      (∀ x ∈ db.outbox, x.id≠draws.outboxId ∧
        ¬(x.event.tenantId=ids.tenantId ∧ x.event.eventId=draws.eventId)) ∧
      after={ db with
        outbox := db.outbox ++ [.inserted draws.outboxId (rejectedEvent payload ids error draws)
          draws.now] } := by
  obtain ⟨tenantId,ht,h⟩ := bind_eq_ok.mp h
  obtain ⟨documentId,hd,h⟩ := bind_eq_ok.mp h
  obtain ⟨correlationId,hc,h⟩ := bind_eq_ok.mp h
  obtain ⟨causationId,he,h⟩ := bind_eq_ok.mp h
  obtain ⟨⟨-,hfresh⟩,rfl⟩ := Db.insertOutbox_eq_ok h
  exact ⟨⟨tenantId,documentId,causationId,correlationId⟩,⟨ht,hd,he,hc⟩,hfresh,rfl⟩

/-- What `process` did when it returned. -/
theorem process_eq_ok {payload : DocumentSubmitted} {inspection : Option SourceInspection}
    {error : Option FetchValidationError} {draws : Draws} {db : Db} {result : Option Db}
    (h : process payload inspection error draws db=.ok result) :
    (∃ tenantId eventId, UUID.ofText payload.tenantId=.ok tenantId ∧
      UUID.ofText payload.eventId=.ok eventId ∧
      ⟨tenantId,eventId,consumerName⟩ ∈ db.processedEvents ∧ result=none) ∨
    ∃ ids o after, Names payload ids ∧ FetchOutcome payload inspection error ids draws db o ∧
      Committed o draws.outboxId draws.now db after ∧ result=some after := by
  obtain ⟨tenantId,ht,h⟩ := bind_eq_ok.mp h
  obtain ⟨documentId,hd,h⟩ := bind_eq_ok.mp h
  obtain ⟨eventId,he,h⟩ := bind_eq_ok.mp h
  obtain ⟨claimed,hclaim,h⟩ := bind_eq_ok.mp h
  obtain ⟨htenant,hclaimed⟩ := Db.claimEvent_eq_ok hclaim
  cases hclaimed with
  | inl hclaimed =>
    obtain ⟨hmem,rfl⟩ := hclaimed
    cases h
    exact .inl ⟨tenantId,eventId,ht,he,hmem,rfl⟩
  | inr hclaimed =>
    obtain ⟨hmem,rfl⟩ := hclaimed
    right
    dsimp only at h
    split at h
    · rename_i hv
      obtain ⟨after,hfail,h⟩ := bind_eq_ok.mp h
      cases h
      obtain ⟨ids,hn,hfresh,rfl⟩ := enqueueFailure_eq_ok hfail
      obtain ⟨rfl,rfl,rfl⟩ := hn.located ht hd he
      exact ⟨ids,_,_,hn,.unknown hv,⟨rfl,htenant,hmem,hfresh⟩,rfl⟩
    · rename_i version hv
      split at h
      · rename_i e hverdict
        obtain ⟨db₁,hfailure,h⟩ := bind_eq_ok.mp h
        obtain ⟨-,rfl⟩ := Db.insertFailure_eq_ok hfailure
        obtain ⟨after,hfail,h⟩ := bind_eq_ok.mp h
        cases h
        obtain ⟨ids,hn,hfresh,rfl⟩ := enqueueFailure_eq_ok hfail
        obtain ⟨rfl,rfl,rfl⟩ := hn.located ht hd he
        exact ⟨ids,_,_,hn,.invalid hv hverdict,⟨rfl,htenant,hmem,hfresh⟩,rfl⟩
      · rename_i hverdict
        split at h
        · cases h
        · rename_i i
          obtain ⟨correlationId,hc,h⟩ := bind_eq_ok.mp h
          obtain ⟨after,hout,h⟩ := bind_eq_ok.mp h
          cases h
          obtain ⟨⟨-,hfresh⟩,rfl⟩ := Db.insertOutbox_eq_ok hout
          exact ⟨⟨tenantId,documentId,eventId,correlationId⟩,_,_,⟨ht,hd,he,hc⟩,
            .valid hv hverdict rfl,⟨rfl,htenant,hmem,hfresh⟩,rfl⟩
    · cases h

/-- The fetcher has processed the event of the payload. -/
def Processed (db : Db) (payload : DocumentSubmitted) : Prop :=
  ∃ tenantId eventId, UUID.ofText payload.tenantId=.ok tenantId ∧
    UUID.ofText payload.eventId=.ok eventId ∧ ⟨tenantId,eventId,consumerName⟩ ∈ db.processedEvents

theorem Processed.mono {db after : Db} {payload : DocumentSubmitted} (h : Processed db payload)
    (hsub : db.processedEvents ⊆ after.processedEvents) : Processed after payload := by
  obtain ⟨tenantId,eventId,ht,he,hmem⟩ := h
  exact ⟨tenantId,eventId,ht,he,hsub hmem⟩

/-- When `process` returns, the event is processed. -/
theorem process_processed {payload : DocumentSubmitted} {inspection : Option SourceInspection}
    {error : Option FetchValidationError} {draws : Draws} {db : Db} {result : Option Db}
    (h : process payload inspection error draws db=.ok result) : Processed (result.getD db) payload := by
  obtain ⟨tenantId,eventId,ht,he,hmem,rfl⟩ | ⟨ids,o,after,hn,ho,hcommit,rfl⟩ := process_eq_ok h
  · exact ⟨tenantId,eventId,ht,he,hmem⟩
  · have hclaim : o.claim=⟨ids.tenantId,ids.eventId,consumerName⟩ := by cases ho <;> rfl
    refine ⟨ids.tenantId,ids.eventId,hn.tenant,hn.event,?_⟩
    rw [Option.getD_some,hcommit.result,← hclaim]
    exact List.mem_append_right _ (List.mem_singleton_self _)

theorem enqueueFailure_of_names {payload : DocumentSubmitted} {ids : Ids}
    (error : FetchValidationError) {draws : Draws} {db : Db} (hn : Names payload ids)
    (ht : ids.tenantId ∈ db.tenants)
    (hfresh : ∀ x ∈ db.outbox, x.id≠draws.outboxId ∧
      ¬(x.event.tenantId=ids.tenantId ∧ x.event.eventId=draws.eventId)) :
    ∃ after, enqueueFailure payload error draws db=.ok after := by
  unfold enqueueFailure
  simp only [hn.tenant,hn.document,hn.correlation,hn.event,ok_bind]
  exact ⟨_,Db.insertOutbox_of_fresh ht hfresh⟩

section
variable {payload : DocumentSubmitted} {ids : Ids} {inspection : Option SourceInspection}
  {error : Option FetchValidationError} {draws : Draws} {db : Db}

lemma matchingVersions_of_versions {tenantId documentId : UUID} {sourceUri : PyStr} {after : Db}
    (h : after.versions=db.versions) :
    matchingVersions tenantId documentId sourceUri after=
      matchingVersions tenantId documentId sourceUri db := by
  rw [matchingVersions,matchingVersions,h]

/-- The version an event names is in the table after its update. -/
lemma updated_of_match {version : DocumentVersion} (e : FetchValidationError) (clock : Time)
    (h : matchingVersions ids.tenantId ids.documentId payload.payloadUri db=[version]) :
    ∃ v ∈ (db.updateVersion ids.tenantId version.id (markInvalid e) clock).versions,
      v.tenantId=ids.tenantId ∧ v.id=version.id := by
  have hmem : version ∈ matchingVersions ids.tenantId ids.documentId payload.payloadUri db := by
    rw [h]
    exact List.mem_singleton_self version
  obtain ⟨hmem,hcond⟩ := List.mem_filter.mp hmem
  have htenant : version.tenantId=ids.tenantId := (of_decide_eq_true hcond).1
  refine ⟨(markInvalid e version).setUpdatedAt clock,mem_updateWhere.mpr ⟨version,hmem,?_⟩,htenant,rfl⟩
  simp [htenant]

lemma verdict_isSome {version : DocumentVersion} (hie : inspection.isSome ∨ error.isSome)
    (h : verdict version inspection error=none) : inspection.isSome := by
  cases inspection with
  | none =>
    obtain ⟨e,he⟩ := Option.isSome_iff_exists.mp (hie.resolve_left (by simp))
    rw [he] at h
    cases h
  | some i => rfl

lemma enqueueFailure_ne_assertionError {e : FetchValidationError} :
    enqueueFailure payload e draws db≠.error .assertionError := by
  intro h
  obtain h | ⟨tenantId,-,h⟩ := bind_eq_error.mp h
  · cases UUID.ofText_eq_error h
  obtain h | ⟨documentId,-,h⟩ := bind_eq_error.mp h
  · cases UUID.ofText_eq_error h
  obtain h | ⟨correlationId,-,h⟩ := bind_eq_error.mp h
  · cases UUID.ofText_eq_error h
  obtain h | ⟨causationId,-,h⟩ := bind_eq_error.mp h
  · cases UUID.ofText_eq_error h
  · cases eq_of_ite_eq_error h

/-- With an inspection or an error at hand, the assertion of `process` does not fail. -/
theorem process_ne_assertionError (hie : inspection.isSome ∨ error.isSome) :
    process payload inspection error draws db≠.error .assertionError := by
  intro h
  obtain h | ⟨tenantId,-,h⟩ := bind_eq_error.mp h
  · cases UUID.ofText_eq_error h
  obtain h | ⟨documentId,-,h⟩ := bind_eq_error.mp h
  · cases UUID.ofText_eq_error h
  obtain h | ⟨eventId,-,h⟩ := bind_eq_error.mp h
  · cases UUID.ofText_eq_error h
  obtain h | ⟨claimed,-,h⟩ := bind_eq_error.mp h
  · cases Db.claimEvent_eq_error h
  split at h
  · cases h
  · split at h
    · obtain h | ⟨after,-,h⟩ := bind_eq_error.mp h
      · exact enqueueFailure_ne_assertionError h
      · cases h
    · rename_i version hv
      split at h
      · obtain h | ⟨failed,-,h⟩ := bind_eq_error.mp h
        · cases eq_of_ite_eq_error h
        obtain h | ⟨after,-,h⟩ := bind_eq_error.mp h
        · exact enqueueFailure_ne_assertionError h
        · cases h
      · rename_i hverdict
        obtain ⟨i,rfl⟩ := Option.isSome_iff_exists.mp (verdict_isSome hie hverdict)
        obtain h | ⟨correlationId,-,h⟩ := bind_eq_error.mp h
        · cases UUID.ofText_eq_error h
        obtain h | ⟨after,-,h⟩ := bind_eq_error.mp h
        · cases eq_of_ite_eq_error h
        · cases h
    · cases h

/-- A new event of a payload with at most one version is processed. -/
theorem process_of_unambiguous (hn : Names payload ids)
    (hc : Claimable ⟨ids.tenantId,ids.eventId,consumerName⟩ draws db)
    (hie : inspection.isSome ∨ error.isSome)
    (hone : (matchingVersions ids.tenantId ids.documentId payload.payloadUri db).length ≤ 1) :
    ∃ result, process payload inspection error draws db=.ok result := by
  obtain ⟨claimed,hclaim,hversions,ht,hfresh⟩ := hc.claimed
  have hmatch : matchingVersions ids.tenantId ids.documentId payload.payloadUri claimed=
      matchingVersions ids.tenantId ids.documentId payload.payloadUri db :=
    matchingVersions_of_versions hversions
  unfold process
  simp only [hn.tenant,hn.document,hn.event,hclaim,ok_bind,hmatch]
  split
  · exact exists_bind_eq_ok (enqueueFailure_of_names unknownSourceObject hn ht hfresh)
  · rename_i version hv
    split
    · rename_i e he
      have hversion := updated_of_match e draws.versionUpdatedAt (hmatch.trans hv)
      rw [Db.insertFailure_of_version (by exact ht) hversion,ok_bind]
      exact exists_bind_eq_ok (enqueueFailure_of_names e hn ht hfresh)
    · rename_i he
      obtain ⟨i,rfl⟩ := Option.isSome_iff_exists.mp (verdict_isSome hie he)
      simp only [hn.correlation,ok_bind]
      exact exists_bind_eq_ok ⟨_,Db.insertOutbox_of_fresh ht hfresh⟩
  · rename_i hnil hcons
    exfalso
    cases hv : matchingVersions ids.tenantId ids.documentId payload.payloadUri db with
    | nil => exact hnil hv
    | cons version rest =>
      rw [hv] at hone hcons
      cases rest with
      | nil => exact hcons version rfl
      | cons second rest => simp at hone

/-- The query for one version raises when it finds several. -/
theorem process_of_ambiguous (hn : Names payload ids)
    (hc : Claimable ⟨ids.tenantId,ids.eventId,consumerName⟩ draws db)
    (hmany : 1<(matchingVersions ids.tenantId ids.documentId payload.payloadUri db).length) :
    process payload inspection error draws db=.error .multipleResultsFound := by
  obtain ⟨claimed,hclaim,hversions,-,-⟩ := hc.claimed
  unfold process
  simp only [hn.tenant,hn.document,hn.event,hclaim,ok_bind,matchingVersions_of_versions hversions]
  split
  · rename_i hv
    simp [hv] at hmany
  · rename_i hv
    simp [hv] at hmany
  · rfl

end

end RagIngestion.Fetcher
