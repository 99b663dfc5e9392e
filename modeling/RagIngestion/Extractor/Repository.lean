import RagIngestion.Extractor.Extract
import RagIngestion.Database.Outcomes

/-! The extractor's two transactions: `complete` records a result, `reject` records an error.
Each claims the event first. -/
namespace RagIngestion.Extractor
open RagIngestion.Python RagIngestion.Domain RagIngestion.Database RagIngestion.Library

/-- `CONSUMER_NAME`. -/
def consumerName : PyStr := py "content-extractor"

def unknownDocumentVersion : ExtractionError :=
  ⟨py "unknown_document_version",py "Fetched event does not identify a current document version."⟩

/-- The ids a payload names. -/
structure Ids where
  tenantId : UUID
  documentId : UUID
  versionId : UUID
  eventId : UUID

/-- A library exception, which no handler of the extractor catches. -/
def raising {α : Type} : Except PyError α → Except Raised α
  | .error e => .error (.other e)
  | .ok a => .ok a

/-- `_payload_ids`. -/
def payloadIds (payload : DocumentFetched) : Except PyError Ids := do
  let tenantId ← UUID.ofText payload.tenantId
  let documentId ← UUID.ofText payload.documentId
  let versionId ← UUID.ofText payload.documentVersionId
  let eventId ← UUID.ofText payload.eventId
  .ok ⟨tenantId,documentId,versionId,eventId⟩

/-- `SELECT id FROM rag.document_versions` for the facts of an event. -/
def currentVersions (ids : Ids) (contentSha256 : PyStr) (db : Db) : List DocumentVersion :=
  db.versions.filter (fun v => v.tenantId=ids.tenantId ∧ v.id=ids.versionId ∧
    v.documentId=ids.documentId ∧ v.contentSha256=contentSha256 ∧ v.deletedAt=none)

def markFailed (error : ExtractionError) (v : DocumentVersion) : DocumentVersion :=
  { v with
    extractionStatus := .failed
    extractionMetadata := .dict [(py "error_code",.str error.code)] }

/-- The outbox columns of a rejection. -/
def rejectedEvent (ids : Ids) (correlationId : UUID) (error : ExtractionError) (draws : Draws) :
    OutboxEvent where
  tenantId := ids.tenantId
  eventId := draws.eventId
  aggregateType := py "document_version"
  aggregateId := ids.versionId
  eventType := py "ContentExtractionRejected"
  kafkaTopic := deadLetterTopic consumerName
  eventContractNamespace := py "rag.ingestion.v1"
  eventSchemaName := py "content-extraction-rejected"
  payload := .contentExtractionRejected (buildContentExtractionRejectedEvent draws.eventId
    draws.occurredAt ids.tenantId ids.documentId ids.versionId correlationId ids.eventId error.code)
  headers := [(py "event_type",py "ContentExtractionRejected"),(py "causation_id",ids.eventId.str)]

/-- `ContentExtractorRepository.reject`: nothing when the event was processed before. -/
def reject (payload : DocumentFetched) (error : ExtractionError) (draws : Draws) (db : Db) :
    Except PyError (Option Db) := do
  let ids ← payloadIds payload
  match ← db.claimEvent ⟨ids.tenantId,ids.eventId,consumerName⟩ with
  | none => .ok none
  | some db =>
    let db := db.updateVersion ids.tenantId ids.versionId (markFailed error) draws.versionUpdatedAt
    let db := db.setDocumentStatus ids.tenantId ids.documentId .failed draws.documentUpdatedAt
    let correlationId ← UUID.ofText payload.correlationId
    let db ← db.insertOutbox draws.outboxId (rejectedEvent ids correlationId error draws) draws.now
    .ok (some db)

section
variable (rt : Runtime)

def recordExtraction (result : ExtractionResult) (normalizedUri manifestUri : PyStr)
    (v : DocumentVersion) : DocumentVersion :=
  { v with
    normalizedObjectUri := some normalizedUri
    extractionManifestUri := some manifestUri
    extractionStatus := result.extractionStatus
    extractionConfig := .dict [(py "extractor",.str (py "docling")),
      (py "extractor_version",.str rt.doclingVersion)]
    extractionMetadata := result.quality }

/-- The status `complete` gives the document. -/
def completedStatus (result : ExtractionResult) : DocumentStatus :=
  if result.extractionStatus=.succeeded then .extracted else .failed

/-- The outbox columns of a completed extraction. -/
def extractedEvent (payload : DocumentFetched) (ids : Ids) (correlationId : UUID)
    (result : ExtractionResult) (normalizedUri manifestUri : PyStr) (draws : Draws) : OutboxEvent where
  tenantId := ids.tenantId
  eventId := draws.eventId
  aggregateType := py "document_version"
  aggregateId := ids.versionId
  eventType := py "ContentExtracted"
  kafkaTopic := contentExtractedTopic
  eventContractNamespace := py "rag.ingestion.v1"
  eventSchemaName := py "content-extracted"
  payload := .contentExtracted (buildContentExtractedEvent draws.eventId draws.occurredAt ids.tenantId
    ids.documentId ids.versionId normalizedUri manifestUri payload.contentSha256 (py "docling")
    rt.doclingVersion result.extractionStatus.text result.quality correlationId ids.eventId)
  headers := [(py "event_type",py "ContentExtracted"),(py "causation_id",ids.eventId.str)]

/-- `ContentExtractorRepository.complete`: nothing when the event was processed before. The hash is
compared as text, where the `CHAR(64)` column would ignore blanks behind it; `handle` has compared
it with the digest of the source before. -/
def complete (payload : DocumentFetched) (result : ExtractionResult) (normalizedUri manifestUri : PyStr)
    (draws : Draws) (db : Db) : Except Raised (Option Db) := do
  let ids ← raising (payloadIds payload)
  match ← raising (db.claimEvent ⟨ids.tenantId,ids.eventId,consumerName⟩) with
  | none => .ok none
  | some db =>
    match currentVersions ids payload.contentSha256 db with
    | [] => .error (.extraction unknownDocumentVersion)
    | [_] =>
      let db := db.updateVersion ids.tenantId ids.versionId
        (recordExtraction rt result normalizedUri manifestUri) draws.versionUpdatedAt
      let db := db.setDocumentStatus ids.tenantId ids.documentId (completedStatus result)
        draws.documentUpdatedAt
      let correlationId ← raising (UUID.ofText payload.correlationId)
      let db ← raising (db.insertOutbox draws.outboxId
        (extractedEvent rt payload ids correlationId result normalizedUri manifestUri draws) draws.now)
      .ok (some db)
    | _ => .error (.other .multipleResultsFound)

end

/-- The extractor has processed the event of the payload. -/
def Processed (db : Db) (payload : DocumentFetched) : Prop :=
  match payloadIds payload with
  | .ok ids => ⟨ids.tenantId,ids.eventId,consumerName⟩ ∈ db.processedEvents
  | .error _ => False

instance (db : Db) (payload : DocumentFetched) : Decidable (Processed db payload) := by
  unfold Processed
  split <;> infer_instance

theorem Processed.mono {db after : Db} {payload : DocumentFetched} (h : Processed db payload)
    (hsub : db.processedEvents ⊆ after.processedEvents) : Processed after payload := by
  unfold Processed at h ⊢
  split at h
  · exact hsub h
  · exact h

/-- The UUIDs of a payload's id fields. -/
structure Names (payload : DocumentFetched) (ids : Ids) (correlationId : UUID) : Prop where
  ids : payloadIds payload=.ok ids
  correlation : UUID.ofText payload.correlationId=.ok correlationId

/-- The outcome of a rejection. -/
def rejection (ids : Ids) (correlationId : UUID) (error : ExtractionError) (draws : Draws) : Outcome where
  claim := ⟨ids.tenantId,ids.eventId,consumerName⟩
  event := rejectedEvent ids correlationId error draws
  status := some (ids.documentId,.failed)
  version := some (ids.versionId,markFailed error)
  versionUpdatedAt := draws.versionUpdatedAt
  documentUpdatedAt := draws.documentUpdatedAt
  failure := none

/-- The outcome of a completed extraction. -/
def completion (rt : Runtime) (payload : DocumentFetched) (ids : Ids) (correlationId : UUID)
    (result : ExtractionResult) (normalizedUri manifestUri : PyStr) (draws : Draws) : Outcome where
  claim := ⟨ids.tenantId,ids.eventId,consumerName⟩
  event := extractedEvent rt payload ids correlationId result normalizedUri manifestUri draws
  status := some (ids.documentId,completedStatus result)
  version := some (ids.versionId,recordExtraction rt result normalizedUri manifestUri)
  versionUpdatedAt := draws.versionUpdatedAt
  documentUpdatedAt := draws.documentUpdatedAt
  failure := none

/-- The outcomes the extractor commits for a payload. -/
inductive ExtractOutcome (rt : Runtime) (payload : DocumentFetched) (ids : Ids) (correlationId : UUID)
    (draws : Draws) : Outcome → Prop
  | rejected {error} : ExtractOutcome rt payload ids correlationId draws
      (rejection ids correlationId error draws)
  | completed {result normalizedUri manifestUri} : ExtractOutcome rt payload ids correlationId draws
      (completion rt payload ids correlationId result normalizedUri manifestUri draws)

theorem Names.unique {payload : DocumentFetched} {ids ids' : Ids} {correlationId correlationId' : UUID}
    (h : Names payload ids correlationId) (h' : Names payload ids' correlationId') :
    ids=ids' ∧ correlationId=correlationId' :=
  ⟨Except.ok.inj (h.ids.symm.trans h'.ids),Except.ok.inj (h.correlation.symm.trans h'.correlation)⟩

lemma raising_eq_ok {α : Type} {x : Except PyError α} {a : α} : raising x=.ok a ↔ x=.ok a := by
  cases x with
  | error e => simp [raising]
  | ok b => simp [raising]

/-- What `reject` did when it returned. -/
theorem reject_eq_ok {payload : DocumentFetched} {error : ExtractionError} {draws : Draws} {db : Db}
    {result : Option Db} (h : reject payload error draws db=.ok result) :
    (∃ ids, payloadIds payload=.ok ids ∧
      ⟨ids.tenantId,ids.eventId,consumerName⟩ ∈ db.processedEvents ∧ result=none) ∨
    ∃ ids correlationId after, Names payload ids correlationId ∧
      Committed (rejection ids correlationId error draws) draws.outboxId draws.now db after ∧
      result=some after := by
  obtain ⟨ids,hids,h⟩ := bind_eq_ok.mp h
  obtain ⟨claimed,hclaim,h⟩ := bind_eq_ok.mp h
  obtain ⟨htenant,hclaimed⟩ := Db.claimEvent_eq_ok hclaim
  cases hclaimed with
  | inl hclaimed =>
    obtain ⟨hmem,rfl⟩ := hclaimed
    cases h
    exact .inl ⟨ids,hids,hmem,rfl⟩
  | inr hclaimed =>
    obtain ⟨hmem,rfl⟩ := hclaimed
    obtain ⟨correlationId,hc,h⟩ := bind_eq_ok.mp h
    obtain ⟨after,hout,h⟩ := bind_eq_ok.mp h
    cases h
    obtain ⟨⟨-,hfresh⟩,rfl⟩ := Db.insertOutbox_eq_ok hout
    exact .inr ⟨ids,correlationId,_,⟨hids,hc⟩,⟨rfl,htenant,hmem,hfresh⟩,rfl⟩

/-- What `complete` did when it returned. -/
theorem complete_eq_ok {rt : Runtime} {payload : DocumentFetched} {result : ExtractionResult}
    {normalizedUri manifestUri : PyStr} {draws : Draws} {db : Db} {committed : Option Db}
    (h : complete rt payload result normalizedUri manifestUri draws db=.ok committed) :
    (∃ ids, payloadIds payload=.ok ids ∧
      ⟨ids.tenantId,ids.eventId,consumerName⟩ ∈ db.processedEvents ∧ committed=none) ∨
    ∃ ids correlationId version after, Names payload ids correlationId ∧
      currentVersions ids payload.contentSha256 db=[version] ∧
      Committed (completion rt payload ids correlationId result normalizedUri manifestUri draws)
        draws.outboxId draws.now db after ∧
      committed=some after := by
  obtain ⟨ids,hids,h⟩ := bind_eq_ok.mp h
  have hids := raising_eq_ok.mp hids
  obtain ⟨claimed,hclaim,h⟩ := bind_eq_ok.mp h
  obtain ⟨htenant,hclaimed⟩ := Db.claimEvent_eq_ok (raising_eq_ok.mp hclaim)
  cases hclaimed with
  | inl hclaimed =>
    obtain ⟨hmem,rfl⟩ := hclaimed
    cases h
    exact .inl ⟨ids,hids,hmem,rfl⟩
  | inr hclaimed =>
    obtain ⟨hmem,rfl⟩ := hclaimed
    right
    dsimp only at h
    split at h
    · cases h
    · rename_i version hv
      obtain ⟨correlationId,hc,h⟩ := bind_eq_ok.mp h
      obtain ⟨after,hout,h⟩ := bind_eq_ok.mp h
      cases h
      obtain ⟨⟨-,hfresh⟩,rfl⟩ := Db.insertOutbox_eq_ok (raising_eq_ok.mp hout)
      exact ⟨ids,correlationId,version,_,⟨hids,raising_eq_ok.mp hc⟩,hv,
        ⟨rfl,htenant,hmem,hfresh⟩,rfl⟩
    · cases h

/-- The only error `complete` rejects an event with: it names no current version. -/
theorem complete_eq_extraction {rt : Runtime} {payload : DocumentFetched} {result : ExtractionResult}
    {normalizedUri manifestUri : PyStr} {draws : Draws} {db : Db} {e : ExtractionError}
    (h : complete rt payload result normalizedUri manifestUri draws db=.error (.extraction e)) :
    ∃ ids, payloadIds payload=.ok ids ∧ currentVersions ids payload.contentSha256 db=[] := by
  have hlib : ∀ {α : Type} {x : Except PyError α} {e}, raising x≠.error (.extraction e) := by
    intro α x e hx
    cases x <;> cases hx
  obtain h | ⟨ids,hids,h⟩ := bind_eq_error.mp h
  · exact absurd h hlib
  · obtain h | ⟨claimed,hclaim,h⟩ := bind_eq_error.mp h
    · exact absurd h hlib
    · refine ⟨ids,raising_eq_ok.mp hids,?_⟩
      obtain ⟨-,hclaimed⟩ := Db.claimEvent_eq_ok (raising_eq_ok.mp hclaim)
      cases hclaimed with
      | inl hclaimed =>
        obtain ⟨-,rfl⟩ := hclaimed
        cases h
      | inr hclaimed =>
        obtain ⟨-,rfl⟩ := hclaimed
        dsimp only at h
        split at h
        · assumption
        · obtain h | ⟨correlationId,-,h⟩ := bind_eq_error.mp h
          · exact absurd h hlib
          · obtain h | ⟨after,-,h⟩ := bind_eq_error.mp h
            · exact absurd h hlib
            · cases h
        · cases h

/-- When `reject` or `complete` returns, the event is processed and no claim is withdrawn. -/
theorem reject_processed {payload : DocumentFetched} {error : ExtractionError} {draws : Draws} {db : Db}
    {result : Option Db} (h : reject payload error draws db=.ok result) :
    Processed (result.getD db) payload ∧ db.processedEvents ⊆ (result.getD db).processedEvents := by
  obtain ⟨ids,hids,hmem,rfl⟩ | ⟨ids,correlationId,after,hn,hcommit,rfl⟩ := reject_eq_ok h
  · refine ⟨?_,List.Subset.refl _⟩
    simpa only [Processed,hids,Option.getD_none] using hmem
  · rw [Option.getD_some,hcommit.result]
    refine ⟨?_,List.subset_append_left _ _⟩
    simp only [Processed,hn.ids]
    exact List.mem_append_right _ (List.mem_singleton_self _)

theorem complete_processed {rt : Runtime} {payload : DocumentFetched} {result : ExtractionResult}
    {normalizedUri manifestUri : PyStr} {draws : Draws} {db : Db} {committed : Option Db}
    (h : complete rt payload result normalizedUri manifestUri draws db=.ok committed) :
    Processed (committed.getD db) payload ∧
      db.processedEvents ⊆ (committed.getD db).processedEvents := by
  obtain ⟨ids,hids,hmem,rfl⟩ | ⟨ids,correlationId,version,after,hn,-,hcommit,rfl⟩ := complete_eq_ok h
  · refine ⟨?_,List.Subset.refl _⟩
    simpa only [Processed,hids,Option.getD_none] using hmem
  · rw [Option.getD_some,hcommit.result]
    refine ⟨?_,List.subset_append_left _ _⟩
    simp only [Processed,hn.ids]
    exact List.mem_append_right _ (List.mem_singleton_self _)

section
variable {payload : DocumentFetched} {ids : Ids} {correlationId : UUID} {draws : Draws} {db : Db}

/-- At most one version has the id of the event. -/
lemma currentVersions_length (hkeys : (db.versions.map (·.id)).Nodup) (ids : Ids)
    (contentSha256 : PyStr) : (currentVersions ids contentSha256 db).length ≤ 1 := by
  apply length_le_one_of_key hkeys List.filter_sublist
  intro v hv
  exact (of_decide_eq_true (List.mem_filter.mp hv).2).2.1

/-- A new event can be rejected. -/
theorem reject_of_claimable (error : ExtractionError) (hn : Names payload ids correlationId)
    (hc : Claimable ⟨ids.tenantId,ids.eventId,consumerName⟩ draws db) :
    ∃ result, reject payload error draws db=.ok result := by
  obtain ⟨claimed,hclaim,-,ht,hfresh⟩ := hc.claimed
  unfold reject
  simp only [hn.ids,hclaim,hn.correlation,ok_bind]
  exact exists_bind_eq_ok ⟨_,Db.insertOutbox_of_fresh ht hfresh⟩

/-- A new event that names one current version can be completed. -/
theorem complete_of_current (rt : Runtime) (result : ExtractionResult) (normalizedUri manifestUri : PyStr)
    (hn : Names payload ids correlationId)
    (hc : Claimable ⟨ids.tenantId,ids.eventId,consumerName⟩ draws db) {v : DocumentVersion}
    (hv : currentVersions ids payload.contentSha256 db=[v]) :
    ∃ committed, complete rt payload result normalizedUri manifestUri draws db=.ok committed := by
  obtain ⟨claimed,hclaim,hversions,ht,hfresh⟩ := hc.claimed
  have hcurrent : currentVersions ids payload.contentSha256 claimed=[v] := by
    rw [← hv]
    simp only [currentVersions,hversions]
  unfold complete
  simp only [hn.ids,hclaim,hn.correlation,raising,ok_bind,hcurrent]
  rw [Db.insertOutbox_of_fresh ht hfresh]
  exact ⟨_,rfl⟩

/-- What these transactions then commit. -/
theorem reject_commits (error : ExtractionError) (hn : Names payload ids correlationId)
    (hc : Claimable ⟨ids.tenantId,ids.eventId,consumerName⟩ draws db) :
    ∃ after, reject payload error draws db=.ok (some after) ∧
      Committed (rejection ids correlationId error draws) draws.outboxId draws.now db after := by
  obtain ⟨committed,h⟩ := reject_of_claimable error hn hc
  obtain ⟨ids',hids,hmem,-⟩ | ⟨ids',correlationId',after,hn',hcommit,rfl⟩ := reject_eq_ok h
  · rw [← Except.ok.inj (hn.ids.symm.trans hids)] at hmem
    exact absurd hmem hc.unclaimed
  · obtain ⟨rfl,rfl⟩ := hn.unique hn'
    exact ⟨after,h,hcommit⟩

theorem complete_commits (rt : Runtime) (result : ExtractionResult) (normalizedUri manifestUri : PyStr)
    (hn : Names payload ids correlationId)
    (hc : Claimable ⟨ids.tenantId,ids.eventId,consumerName⟩ draws db) {v : DocumentVersion}
    (hv : currentVersions ids payload.contentSha256 db=[v]) :
    ∃ after, complete rt payload result normalizedUri manifestUri draws db=.ok (some after) ∧
      Committed (completion rt payload ids correlationId result normalizedUri manifestUri draws)
        draws.outboxId draws.now db after := by
  obtain ⟨committed,h⟩ := complete_of_current rt result normalizedUri manifestUri hn hc hv
  obtain ⟨ids',hids,hmem,-⟩ | ⟨ids',correlationId',version,after,hn',-,hcommit,rfl⟩ :=
    complete_eq_ok h
  · rw [← Except.ok.inj (hn.ids.symm.trans hids)] at hmem
    exact absurd hmem hc.unclaimed
  · obtain ⟨rfl,rfl⟩ := hn.unique hn'
    exact ⟨after,h,hcommit⟩

/-- A new event that names no current version cannot be completed. -/
theorem complete_of_unknown (rt : Runtime) (result : ExtractionResult) (normalizedUri manifestUri : PyStr)
    (hn : Names payload ids correlationId)
    (hc : Claimable ⟨ids.tenantId,ids.eventId,consumerName⟩ draws db)
    (hv : currentVersions ids payload.contentSha256 db=[]) :
    complete rt payload result normalizedUri manifestUri draws db=
      .error (.extraction unknownDocumentVersion) := by
  obtain ⟨claimed,hclaim,hversions,-,-⟩ := hc.claimed
  have hcurrent : currentVersions ids payload.contentSha256 claimed=[] := by
    rw [← hv]
    simp only [currentVersions,hversions]
  unfold complete
  simp only [hn.ids,hclaim,raising,ok_bind,hcurrent]

end

end RagIngestion.Extractor
