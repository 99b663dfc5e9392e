import RagIngestion.Pipeline.World

/-! Exactly one outcome for each consumed event, whatever is delivered, in which order, how
often and to whom: the tables are the replay of a log in which every event is claimed once. -/
namespace RagIngestion.Pipeline
open RagIngestion.Python RagIngestion.Domain RagIngestion.Database RagIngestion.Storage
open RagIngestion.Library

/-- The consumer that writes events of this type. -/
def consumerOf : EventPayload → Option PyStr
  | .documentSubmitted _ => none
  | .documentFetched _ => some Fetcher.consumerName
  | .documentFetchRejected _ => some Fetcher.consumerName
  | .contentExtracted _ => some Extractor.consumerName
  | .contentExtractionRejected _ => some Extractor.consumerName

/-- The row is an outcome of this consumer for this event. -/
def isOutcomeOf (e : ProcessedEvent) (event : OutboxEvent) : Bool :=
  decide (event.tenantId=e.tenantId ∧ consumerOf event.payload=some e.consumerName ∧
    event.payload.causationId=some e.eventId.str)

/-- What a committed transaction adds: a submission, or an outcome of a consumer. -/
inductive Commit
  | submission (document : Document) (version : DocumentVersion) (event : OutboxEvent)
  | outcome (o : Outcome)

namespace Commit

def event : Commit → OutboxEvent
  | .submission _ _ event => event
  | .outcome o => o.event

def claim : Commit → Option ProcessedEvent
  | .submission .. => none
  | .outcome o => some o.claim

def applyDocuments (documents : List Document) : Commit → List Document
  | .submission d _ _ => documents ++ [d]
  | .outcome o => o.applyDocuments documents

def applyVersions (versions : List DocumentVersion) : Commit → List DocumentVersion
  | .submission _ v _ => versions ++ [v]
  | .outcome o => o.applyVersions versions

def applyFailures (failures : List IngestionFailure) : Commit → List IngestionFailure
  | .submission .. => failures
  | .outcome o => o.applyFailures failures

end Commit

/-- The versions that the fetcher looks up for an event. -/
def namedSources (p : DocumentSubmitted) (ids : Fetcher.Ids) (versions : List DocumentVersion) :
    List DocumentVersion :=
  versions.filter (fun v => v.tenantId=ids.tenantId ∧ v.documentId=ids.documentId ∧
    v.sourceObjectUri=p.payloadUri ∧ v.deletedAt=none)

/-- The versions that the extractor looks up for an event. -/
def namedVersions (p : DocumentFetched) (ids : Extractor.Ids) (versions : List DocumentVersion) :
    List DocumentVersion :=
  versions.filter (fun v => v.tenantId=ids.tenantId ∧ v.id=ids.versionId ∧
    v.documentId=ids.documentId ∧ v.contentSha256=p.contentSha256 ∧ v.deletedAt=none)

/-- The outcomes that the consumers may commit on these versions: for each of their transactions its
outbox row, and the columns of the document and the version that belong to the row. -/
inductive Writes (rt : Extractor.Runtime) (versions : List DocumentVersion) : Outcome → Prop
  /-- `process` on an event that names no version. -/
  | unknownSource {p ids draws} (hn : Fetcher.Names p ids) (hv : namedSources p ids versions=[]) :
      Writes rt versions
        { claim := ⟨ids.tenantId,ids.eventId,Fetcher.consumerName⟩
          event := Fetcher.rejectedEvent p ids Fetcher.unknownSourceObject draws
          status := none
          version := none
          versionUpdatedAt := draws.versionUpdatedAt
          documentUpdatedAt := draws.documentUpdatedAt
          failure := none }
  /-- `process` with an error. -/
  | fetchRejected {p ids draws v inspection error e} (hn : Fetcher.Names p ids)
      (hv : namedSources p ids versions=[v]) (he : Fetcher.verdict v inspection error=some e) :
      Writes rt versions
        { claim := ⟨ids.tenantId,ids.eventId,Fetcher.consumerName⟩
          event := Fetcher.rejectedEvent p ids e draws
          status := some (ids.documentId,.failed)
          version := some (v.id,fun v => { v with
            inspectionStatus := .invalid
            inspectionMetadata := .dict (Json.ofItems ((py "validation_error",.str e.code)::
              (py "message",.str e.detail)::e.metadata)) })
          versionUpdatedAt := draws.versionUpdatedAt
          documentUpdatedAt := draws.documentUpdatedAt
          failure := some ⟨ids.tenantId,v.id,ids.eventId,py "document-fetcher",py "validation",e.code,
            Fetcher.failureMetadata e⟩ }
  /-- `process` with an inspection. -/
  | fetched {p ids draws v i error} (hn : Fetcher.Names p ids)
      (hv : namedSources p ids versions=[v]) (he : Fetcher.verdict v (some i) error=none) :
      Writes rt versions
        { claim := ⟨ids.tenantId,ids.eventId,Fetcher.consumerName⟩
          event := Fetcher.fetchedEvent p ids v.id i (Fetcher.fetchedMetadata v i) draws
          status := some (ids.documentId,.fetched)
          version := some (v.id,fun x => { x with
            detectedMimeType := some i.detectedMimeType
            inspectionStatus := .valid
            inspectionMetadata := .dict (Json.set (py "declared_mime_type") (.str v.mimeType)
              i.metadata) })
          versionUpdatedAt := draws.versionUpdatedAt
          documentUpdatedAt := draws.documentUpdatedAt
          failure := none }
  /-- `complete`. -/
  | extracted {p ids correlationId draws v result normalizedUri manifestUri}
      (hn : Extractor.Names p ids correlationId) (hv : namedVersions p ids versions=[v]) :
      Writes rt versions
        { claim := ⟨ids.tenantId,ids.eventId,Extractor.consumerName⟩
          event := Extractor.extractedEvent rt p ids correlationId result normalizedUri manifestUri draws
          status := some (ids.documentId,
            if result.extractionStatus=.succeeded then .extracted else .failed)
          version := some (ids.versionId,fun v => { v with
            normalizedObjectUri := some normalizedUri
            extractionManifestUri := some manifestUri
            extractionStatus := result.extractionStatus
            extractionConfig := .dict [(py "extractor",.str (py "docling")),
              (py "extractor_version",.str rt.doclingVersion)]
            extractionMetadata := result.quality })
          versionUpdatedAt := draws.versionUpdatedAt
          documentUpdatedAt := draws.documentUpdatedAt
          failure := none }
  /-- `reject`. -/
  | extractionRejected {p ids correlationId draws error}
      (hn : Extractor.Names p ids correlationId) :
      Writes rt versions
        { claim := ⟨ids.tenantId,ids.eventId,Extractor.consumerName⟩
          event := Extractor.rejectedEvent ids correlationId error draws
          status := some (ids.documentId,.failed)
          version := some (ids.versionId,fun v => { v with
            extractionStatus := .failed
            extractionMetadata := .dict [(py "error_code",.str error.code)] })
          versionUpdatedAt := draws.versionUpdatedAt
          documentUpdatedAt := draws.documentUpdatedAt
          failure := none }

variable {c : Config}

/-- The logs of the pipeline: each entry is the submission of a draft, or an outcome that a consumer
may commit on the versions that the entries before it left. -/
inductive Log (c : Config) : List Commit → Prop
  | nil : Log c []
  | submission {log d eventId occurredAt now} (h : Log c log) :
      Log c (log ++ [.submission (Submission.Draft.document d now)
        (d.version c.rt.sha256 c.sourceBucket now) (d.event c.sourceBucket eventId occurredAt)])
  | outcome {log o} (h : Log c log) (ho : Writes c.rt (log.foldl Commit.applyVersions []) o) :
      Log c (log ++ [.outcome o])

/-- The tables hold exactly what the commits of the log wrote, and every event of an outcome
belongs to the claim it was committed with. -/
structure Replays (c : Config) (log : List Commit) (db : Db) : Prop where
  entries : Log c log
  documents : db.documents=log.foldl Commit.applyDocuments []
  versions : db.versions=log.foldl Commit.applyVersions []
  failures : db.failures=log.foldl Commit.applyFailures []
  events : db.outbox.map (·.event)=log.map Commit.event
  processed : db.processedEvents=log.filterMap Commit.claim
  claims : ∀ x ∈ log, ∀ e, isOutcomeOf e x.event=true ↔ x.claim=some e

theorem isOutcomeOf_iff {event : OutboxEvent} {claim : ProcessedEvent}
    (ht : event.tenantId=claim.tenantId) (hc : consumerOf event.payload=some claim.consumerName)
    (he : event.payload.causationId=some claim.eventId.str) (e : ProcessedEvent) :
    isOutcomeOf e event=true ↔ some claim=some e := by
  constructor
  · intro h
    obtain ⟨ht',hc',he'⟩ := of_decide_eq_true h
    rw [ht] at ht'
    rw [hc] at hc'
    rw [he] at he'
    have hid := UUID.str_injective (Option.some.inj he')
    cases claim
    cases e
    simp_all
  · intro h
    cases h
    exact decide_eq_true ⟨ht,hc,he⟩

/-- The event of an outcome names the consumer, the tenant and the event it was committed for. -/
theorem ConsumerOutcome.claims {w : World} {o : Outcome} {draws : Draws}
    (h : ConsumerOutcome c w o draws) (e : ProcessedEvent) :
    isOutcomeOf e o.event=true ↔ some o.claim=some e := by
  cases h with
  | fetch _ _ ho => cases ho <;> exact isOutcomeOf_iff rfl rfl rfl e
  | complete => exact isOutcomeOf_iff rfl rfl rfl e
  | reject => exact isOutcomeOf_iff rfl rfl rfl e

/-- What a consumer may commit in a world is one of its outcomes on the versions there. -/
theorem ConsumerOutcome.writes {w : World} {o : Outcome} {draws : Draws}
    (h : ConsumerOutcome c w o draws) : Writes c.rt w.db.versions o := by
  cases h with
  | fetch _ hn ho =>
    cases ho with
    | unknown hv => exact .unknownSource hn hv
    | invalid hv he => exact .fetchRejected hn hv he
    | valid hv he hi =>
      subst hi
      exact .fetched hn hv he
  | complete _ hn hv => exact .extracted hn hv
  | reject _ hn => exact .extractionRejected hn

theorem Replays.outcome {log : List Commit} {before after : Db} {o : Outcome} {outboxId : UUID}
    {now : Time} (h : Replays c log before) (hc : Committed o outboxId now before after)
    (hw : Writes c.rt before.versions o)
    (ho : ∀ e, isOutcomeOf e o.event=true ↔ some o.claim=some e) :
    Replays c (log ++ [.outcome o]) after := by
  obtain ⟨rfl,-,-,-⟩ := hc
  refine ⟨.outcome h.entries (h.versions ▸ hw),?_,?_,?_,?_,?_,?_⟩
  · simp only [Outcome.apply,h.documents,List.foldl_append,List.foldl_cons,List.foldl_nil,
      Commit.applyDocuments]
  · simp only [Outcome.apply,h.versions,List.foldl_append,List.foldl_cons,List.foldl_nil,
      Commit.applyVersions]
  · simp only [Outcome.apply,h.failures,List.foldl_append,List.foldl_cons,List.foldl_nil,
      Commit.applyFailures]
  · simp [Outcome.apply,h.events,OutboxRow.inserted,Commit.event]
  · simp [Outcome.apply,h.processed,Commit.claim]
  · intro x hx
    cases List.mem_append.mp hx with
    | inl hx => exact h.claims x hx
    | inr hx =>
      rw [List.mem_singleton.mp hx]
      exact ho

/-- A step extends the log by at most one commit. -/
theorem replays_step {w : World} {after : Db} {log : List Commit} (h : Replays c log w.db)
    (hstep : DbStep c w after) : ∃ more, Replays c (log ++ more) after := by
  cases hstep with
  | same => exact ⟨[],by simpa using h⟩
  | publish hids hevents =>
    refine ⟨[],?_⟩
    rw [List.append_nil]
    exact ⟨h.entries,h.documents,h.versions,h.failures,hevents.trans h.events,h.processed,h.claims⟩
  | submit hr hdb =>
    rename_i r d eventId occurredAt outboxId now
    obtain ⟨-,rfl⟩ := Submission.Draft.submission_eq_ok _ _ hdb
    refine ⟨[.submission (d.document now) (d.version c.rt.sha256 c.sourceBucket now)
      (d.event c.sourceBucket eventId occurredAt)],.submission h.entries,?_,?_,?_,?_,?_,?_⟩
    · simp only [h.documents,List.foldl_append,List.foldl_cons,List.foldl_nil,Commit.applyDocuments]
    · simp only [h.versions,List.foldl_append,List.foldl_cons,List.foldl_nil,Commit.applyVersions]
    · simp only [h.failures,List.foldl_append,List.foldl_cons,List.foldl_nil,Commit.applyFailures]
    · simp only [List.map_append,h.events,List.map_cons,List.map_nil,OutboxRow.inserted,Commit.event]
    · simp [h.processed,Commit.claim]
    · intro x hx e
      cases List.mem_append.mp hx with
      | inl hx => exact h.claims x hx e
      | inr hx =>
        rw [List.mem_singleton.mp hx]
        simp [isOutcomeOf,Commit.event,Commit.claim,Submission.Draft.event,Submission.submittedEvent,
          consumerOf]
  | consume ho hc => exact ⟨[.outcome _],h.outcome hc ho.writes ho.claims⟩

theorem processed_nodup_step {w : World} {after : Db} (h : w.db.processedEvents.Nodup)
    (hstep : DbStep c w after) : after.processedEvents.Nodup := by
  cases hstep with
  | same => exact h
  | publish => exact h
  | submit hr hdb =>
    obtain ⟨-,rfl⟩ := Submission.Draft.submission_eq_ok _ _ hdb
    exact h
  | consume ho hc =>
    obtain ⟨rfl,-,hnew,-⟩ := hc
    refine List.nodup_append.mpr ⟨h,by simp,?_⟩
    intro x hx y hy hxy
    rw [List.mem_singleton.mp hy] at hxy
    exact hnew (hxy ▸ hx)

theorem replays_reachable {w : World} (h : (system c).Reachable w) :
    (∃ log, Replays c log w.db) ∧ w.db.processedEvents.Nodup := by
  refine h.invariant (I := fun w => (∃ log, Replays c log w.db) ∧ w.db.processedEvents.Nodup) ?_ ?_
  · intro w hw
    obtain ⟨tenants,hdb⟩ := hw.db
    rw [hdb]
    exact ⟨⟨[],⟨.nil,rfl,rfl,rfl,rfl,rfl,by simp⟩⟩,List.nodup_nil⟩
  · intro w a after hw ha
    obtain ⟨⟨log,hlog⟩,hnodup⟩ := hw
    obtain ⟨more,hmore⟩ := replays_step hlog (step_db ha)
    exact ⟨⟨_,hmore⟩,processed_nodup_step hnodup (step_db ha)⟩

/-- As many rows are outcomes of an event as the log has commits that claim it. -/
theorem Replays.count {log : List Commit} {db : Db} (h : Replays c log db) (e : ProcessedEvent) :
    db.outbox.countP (fun r => isOutcomeOf e r.event)=db.processedEvents.count e := by
  have hrows : db.outbox.countP (fun r => isOutcomeOf e r.event)=
      (db.outbox.map (·.event)).countP (isOutcomeOf e) := by
    rw [List.countP_map]
    rfl
  rw [hrows,h.events,h.processed,List.countP_map]
  have hclaims := h.claims
  clear h hrows
  induction log with
  | nil => rfl
  | cons x log ih =>
    have hx := hclaims x List.mem_cons_self e
    have ih := ih (fun y hy => hclaims y (List.mem_cons_of_mem _ hy))
    cases hclaim : x.claim with
    | none =>
      have hno : isOutcomeOf e x.event=false := by
        rw [Bool.eq_false_iff,ne_eq,hx,hclaim]
        simp
      rw [List.countP_cons,List.filterMap_cons_none hclaim,ih]
      simp [hno]
    | some f =>
      rw [List.countP_cons,List.filterMap_cons_some hclaim,List.count_cons,ih]
      simp only [Function.comp_apply,hx,hclaim,Option.some.injEq,beq_iff_eq]

/-- For every event and each of the two consumers a processed row exists exactly when exactly
one outcome row does, and there is never more than one. The rows of the outbox and the claims are
those of a log of submissions and outcomes, and the documents, versions and failures are what the
entries of that log wrote in their order, so that an update is there exactly when its row is. -/
theorem one_outcome_per_event {w : World} (h : (system c).Reachable w) :
    (∀ e, (e ∈ w.db.processedEvents ↔
        w.db.outbox.countP (fun r => isOutcomeOf e r.event)=1) ∧
      w.db.outbox.countP (fun r => isOutcomeOf e r.event) ≤ 1) ∧
      ∃ log, Replays c log w.db := by
  obtain ⟨⟨log,hlog⟩,hnodup⟩ := replays_reachable h
  refine ⟨fun e => ?_,log,hlog⟩
  rw [hlog.count e]
  have hle : w.db.processedEvents.count e ≤ 1 := List.nodup_iff_count_le_one.mp hnodup e
  have hpos : e ∈ w.db.processedEvents ↔ 0<w.db.processedEvents.count e :=
    List.count_pos_iff.symm
  refine ⟨?_,hle⟩
  rw [hpos]
  omega

/-- A pipeline over one tenant. -/
def plainConfig : Config :=
  ⟨Extractor.plainRuntime,minioSourceBucket,minioArtifactBucket,1048576,1048576,1048576⟩

def plainWorld : World where
  source := fun _ => none
  artifacts := fun _ => none
  db := Db.empty [⟨1⟩]
  broker := []
  request := fun _ => .waiting
  publisher := fun _ => ⟨[],0,.stopped,[]⟩
  fetching := fun _ => .idle
  extracting := fun _ => .idle

theorem plainWorld_initial : Initial plainWorld :=
  ⟨⟨[⟨1⟩],rfl⟩,rfl,fun _ => rfl,fun _ => ⟨rfl,rfl⟩,fun _ => rfl,fun _ => rfl⟩

/-- A payload nobody submitted. -/
def strayPayload : DocumentSubmitted :=
  buildDocumentSubmittedEvent ⟨4⟩ [] ⟨1⟩ ⟨2⟩ (py "s3://rag-source/stray") none

/-- A stray message is rejected once; its second delivery adds nothing. -/
theorem stray_message_once :
    ∃ w, (system plainConfig).Reachable w ∧ w.db.processedEvents.length=1 ∧
      (∀ e, (e ∈ w.db.processedEvents ↔
          w.db.outbox.countP (fun r => isOutcomeOf e r.event)=1) ∧
        w.db.outbox.countP (fun r => isOutcomeOf e r.event) ≤ 1) ∧
      ∃ log, Replays plainConfig log w.db := by
  let p := { strayPayload with eventType := [] }
  have hrun : ((system plainConfig).run plainWorld [.fetch 0 (.deliver p),.fetch 1 (.deliver p),
      .fetch 0 (.get .none),.fetch 1 (.get .none),.fetch 0 (.process ⟨⟨5⟩,[],⟨6⟩,0,0,0⟩ .after),
      .fetch 1 (.process ⟨⟨7⟩,[],⟨8⟩,1,1,1⟩ .none)]).any
        (fun w => w.db.processedEvents.length=1)=true := by decide +kernel
  obtain ⟨w,hrun,hone⟩ := (Option.any_eq_true _ _).mp hrun
  have hreach := System.reachable_of_run _ plainWorld_initial hrun
  exact ⟨w,hreach,of_decide_eq_true hone,one_outcome_per_event hreach⟩

end RagIngestion.Pipeline
