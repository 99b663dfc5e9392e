import RagIngestion.Database.Interference
import RagIngestion.Pipeline.Isolation

/-! The four transactions statement by statement. Run alone, each does what its definition as
one function of the database says. -/
namespace RagIngestion.Pipeline
open RagIngestion.Python RagIngestion.Domain RagIngestion.Database RagIngestion.Library
open RagIngestion.Extractor (Raised raising)

/-- The code of a transaction between `begin` and `commit`. -/
abbrev Sql (α : Type) := Script Statement Answer Raised α

/-- The database as an engine for statements. -/
def engine : Engine Statement Answer Write Key Db Raised where
  exec s db := raising (s.exec db)
  apply := Write.apply
  keys := Write.keys
  same := Db.Same
  equivalence := Db.same_equivalence
  exec_same h s := by rw [h.alike.exec s]
  apply_same h w := by
    refine ⟨h.tenants,?_,?_,?_,?_,?_⟩
    · cases w with
      | document d => exact h.documents.append_right _
      | updateDocument => exact h.documents.map _
      | _ => exact h.documents
    · cases w with
      | version v => exact h.versions.append_right _
      | updateVersion => exact h.versions.map _
      | _ => exact h.versions
    · cases w with
      | outbox r => exact h.outbox.append_right _
      | _ => exact h.outbox
    · cases w with
      | processedEvent e => exact h.processedEvents.append_right _
      | _ => exact h.processedEvents
    · cases w with
      | failure f => exact h.failures.append_right _
      | _ => exact h.failures

def setCurrentVersion (versionId : UUID) (clock : Time) : DocumentUpdate where
  assign d := { d with currentVersionId := some versionId }
  clock := clock
  version := some versionId
  keeps _ := rfl

def setStatus (status : DocumentStatus) (clock : Time) : DocumentUpdate where
  assign d := { d with status := status }
  clock := clock
  version := none
  keeps _ := rfl

section

/-- `connection.execute`. -/
def sql (s : Statement) : Sql (Answer s) := Script.execute s

/-- A computation between statements. -/
def call {α : Type} (x : Except PyError α) : Sql α := Script.lift (raising x)

/-- `DocumentSubmissionRepository.create_submission`. -/
def createSubmissionScript (tenantId documentId versionId : UUID) (sourceExternalId : PyStr)
    (title : Option PyStr) (classification contentSha256 sourceObjectUri mimeType : PyStr)
    (byteSize : ℕ) (eventId : UUID) (eventPayload : DocumentSubmitted) (outboxId : UUID) (now : Time) :
    Sql Bool := do
  sql (.setConfig tenantId.str)
  sql (.insertDocument
    (Submission.newDocument tenantId documentId sourceExternalId title classification now))
  sql (.insertVersion (Submission.newVersion tenantId documentId versionId contentSha256
    sourceObjectUri mimeType byteSize now))
  sql (.updateDocument tenantId documentId (setCurrentVersion versionId now))
  sql (.insertOutbox outboxId (Submission.submittedEvent tenantId documentId eventId eventPayload)
    now)
  pure true

/-- `_enqueue_failure`. -/
def enqueueFailureScript (payload : DocumentSubmitted) (error : Fetcher.FetchValidationError)
    (draws : Draws) : Sql Unit := do
  let tenantId ← call (UUID.ofText payload.tenantId)
  let documentId ← call (UUID.ofText payload.documentId)
  let correlationId ← call (UUID.ofText payload.correlationId)
  let causationId ← call (UUID.ofText payload.eventId)
  sql (.insertOutbox draws.outboxId
    (Fetcher.rejectedEvent payload ⟨tenantId,documentId,causationId,correlationId⟩ error draws)
    draws.now)

/-- `DocumentFetcherRepository.process`. -/
def processScript (payload : DocumentSubmitted) (inspection : Option Fetcher.SourceInspection)
    (error : Option Fetcher.FetchValidationError) (draws : Draws) : Sql Bool := do
  let tenantId ← call (UUID.ofText payload.tenantId)
  let documentId ← call (UUID.ofText payload.documentId)
  let receivedEventId ← call (UUID.ofText payload.eventId)
  sql (.setConfig tenantId.str)
  let claimed : Bool ← sql (.claimEvent ⟨tenantId,receivedEventId,Fetcher.consumerName⟩)
  if claimed then
    let version : Option VersionFacts ← sql (.selectVersion fun v => v.tenantId=tenantId ∧
      v.documentId=documentId ∧ v.sourceObjectUri=payload.payloadUri ∧ v.deletedAt=none)
    match version with
    | none =>
      enqueueFailureScript payload Fetcher.unknownSourceObject draws
      pure true
    | some version =>
      match Fetcher.verdict version.row inspection error with
      | some error =>
        sql (.updateVersion tenantId version.id
          ⟨Fetcher.markInvalid error,draws.versionUpdatedAt,fun _ => rfl⟩)
        sql (.updateDocument tenantId documentId (setStatus .failed draws.documentUpdatedAt))
        sql (.insertFailure (Fetcher.ingestionFailure
          ⟨tenantId,documentId,receivedEventId,receivedEventId⟩ version.id error))
        enqueueFailureScript payload error draws
        pure true
      | none =>
        match inspection with
        | none => Script.raise (.other .assertionError)
        | some inspection =>
          let metadata := Fetcher.fetchedMetadata version.row inspection
          sql (.updateVersion tenantId version.id
            ⟨Fetcher.markValid inspection.detectedMimeType metadata,draws.versionUpdatedAt,
              fun _ => rfl⟩)
          sql (.updateDocument tenantId documentId (setStatus .fetched draws.documentUpdatedAt))
          let correlationId ← call (UUID.ofText payload.correlationId)
          sql (.insertOutbox draws.outboxId (Fetcher.fetchedEvent payload
            ⟨tenantId,documentId,receivedEventId,correlationId⟩ version.id inspection metadata draws)
            draws.now)
          pure true
  else pure false

/-- `ContentExtractorRepository.complete`. -/
def completeScript (rt : Extractor.Runtime) (payload : DocumentFetched)
    (result : Extractor.ExtractionResult) (normalizedUri manifestUri : PyStr) (draws : Draws) :
    Sql Bool := do
  let ids ← call (Extractor.payloadIds payload)
  sql (.setConfig ids.tenantId.str)
  let claimed : Bool ← sql (.claimEvent ⟨ids.tenantId,ids.eventId,Extractor.consumerName⟩)
  if claimed then
    let version : Option VersionFacts ← sql (.selectVersion fun v => v.tenantId=ids.tenantId ∧
      v.id=ids.versionId ∧ v.documentId=ids.documentId ∧ v.contentSha256=payload.contentSha256 ∧
      v.deletedAt=none)
    match version with
    | none => Script.raise (.extraction Extractor.unknownDocumentVersion)
    | some _ =>
      sql (.updateVersion ids.tenantId ids.versionId
        ⟨Extractor.recordExtraction rt result normalizedUri manifestUri,draws.versionUpdatedAt,
          fun _ => rfl⟩)
      sql (.updateDocument ids.tenantId ids.documentId
        (setStatus (Extractor.completedStatus result) draws.documentUpdatedAt))
      let correlationId ← call (UUID.ofText payload.correlationId)
      sql (.insertOutbox draws.outboxId (Extractor.extractedEvent rt payload ids correlationId
        result normalizedUri manifestUri draws) draws.now)
      pure true
  else pure false

/-- `ContentExtractorRepository.reject`. -/
def rejectScript (payload : DocumentFetched) (error : Extractor.ExtractionError) (draws : Draws) :
    Sql Bool := do
  let ids ← call (Extractor.payloadIds payload)
  sql (.setConfig ids.tenantId.str)
  let claimed : Bool ← sql (.claimEvent ⟨ids.tenantId,ids.eventId,Extractor.consumerName⟩)
  if claimed then
    sql (.updateVersion ids.tenantId ids.versionId
      ⟨Extractor.markFailed error,draws.versionUpdatedAt,fun _ => rfl⟩)
    sql (.updateDocument ids.tenantId ids.documentId (setStatus .failed draws.documentUpdatedAt))
    let correlationId ← call (UUID.ofText payload.correlationId)
    sql (.insertOutbox draws.outboxId (Extractor.rejectedEvent ids correlationId error draws)
      draws.now)
    pure true
  else pure false

end

/-- The code of each transaction. -/
def Transaction.script (rt : Extractor.Runtime) : Transaction → Sql Bool
  | .createSubmission tenantId documentId versionId sourceExternalId title classification
      contentSha256 sourceObjectUri mimeType byteSize eventId eventPayload outboxId now =>
    createSubmissionScript tenantId documentId versionId sourceExternalId title classification
      contentSha256 sourceObjectUri mimeType byteSize eventId eventPayload outboxId now
  | .process payload inspection error draws => processScript payload inspection error draws
  | .complete payload result normalizedUri manifestUri draws =>
    completeScript rt payload result normalizedUri manifestUri draws
  | .reject payload error draws => rejectScript payload error draws

section
variable {α β γ δ : Type}

@[simp] lemma ok_bind_apply {ε : Type} (a : α) (f : α → Except ε β) : (Except.ok a).bind f=f a := rfl

/-- A script and a function go on alike after a step they share. -/
lemma alike_bind {x : Except PyError γ} {g : γ → α} {k : α → Except Raised β}
    {k' : γ → Except PyError δ} {m : δ → β}
    (h : ∀ c, x=.ok c → k (g c)=(raising (k' c)).map m) :
    ((raising x).map g).bind k=(raising (x >>= k')).map m := by
  cases x with
  | error e => rfl
  | ok c => exact h c rfl

lemma alike_bind_raised {x : Except PyError γ} {g : γ → α} {k : α → Except Raised β}
    {k' : γ → Except Raised δ} {m : δ → β} (h : ∀ c, x=.ok c → k (g c)=(k' c).map m) :
    ((raising x).map g).bind k=(raising x >>= k').map m := by
  cases x with
  | error e => rfl
  | ok c => exact h c rfl

lemma alike_end {x : Except PyError γ} {g : γ → α} {k : α → Except Raised β} {m : γ → β}
    (h : ∀ c, k (g c)=.ok (m c)) : ((raising x).map g).bind k=(raising x).map m := by
  cases x with
  | error e => rfl
  | ok c => exact h c

end

section
variable (db : Db)

@[simp] lemma alone_call {α : Type} (x : Except PyError α) :
    (call x).alone engine db=(raising x).map (fun a => (a,db)) := Script.alone_lift ..

lemma alone_sql (s : Statement) : (sql s).alone engine db=
    (raising (s.exec db)).map (fun x => (x.1,engine.applyAll x.2 db)) := Script.alone_execute ..

@[simp] lemma alone_setConfig (tenantId : PyStr) :
    Script.alone (α := Unit) engine (sql (.setConfig tenantId)) db=.ok ((),db) := rfl

@[simp] lemma alone_insertDocument (d : Document) :
    Script.alone (α := Unit) engine (sql (.insertDocument d)) db=
    (raising (db.insertDocument d)).map (fun after => ((),after)) := by
  refine (alone_sql db _).trans ?_
  rw [Statement.exec]
  cases h : db.insertDocument d with
  | error e => rfl
  | ok after =>
    rw [(Db.insertDocument_eq_ok h).2]
    rfl

@[simp] lemma alone_insertVersion (v : DocumentVersion) :
    Script.alone (α := Unit) engine (sql (.insertVersion v)) db=
    (raising (db.insertVersion v)).map (fun after => ((),after)) := by
  refine (alone_sql db _).trans ?_
  rw [Statement.exec]
  cases h : db.insertVersion v with
  | error e => rfl
  | ok after =>
    rw [(Db.insertVersion_eq_ok h).2]
    rfl

@[simp] lemma alone_insertOutbox (id : UUID) (event : OutboxEvent) (now : Time) :
    Script.alone (α := Unit) engine (sql (.insertOutbox id event now)) db=
      (raising (db.insertOutbox id event now)).map (fun after => ((),after)) := by
  refine (alone_sql db _).trans ?_
  rw [Statement.exec]
  cases h : db.insertOutbox id event now with
  | error e => rfl
  | ok after =>
    rw [(Db.insertOutbox_eq_ok h).2]
    rfl

@[simp] lemma alone_insertFailure (f : IngestionFailure) :
    Script.alone (α := Unit) engine (sql (.insertFailure f)) db=
    (raising (db.insertFailure f)).map (fun after => ((),after)) := by
  refine (alone_sql db _).trans ?_
  rw [Statement.exec]
  cases h : db.insertFailure f with
  | error e => rfl
  | ok after =>
    rw [(Db.insertFailure_eq_ok h).2]
    rfl

@[simp] lemma alone_claimEvent (e : ProcessedEvent) :
    Script.alone (α := Bool) engine (sql (.claimEvent e)) db=
    (raising (db.claimEvent e)).map (fun claimed => (claimed.isSome,claimed.getD db)) := by
  refine (alone_sql db _).trans ?_
  rw [Statement.exec]
  cases h : db.claimEvent e with
  | error e => rfl
  | ok claimed =>
    obtain ⟨-,⟨-,rfl⟩ | ⟨-,rfl⟩⟩ := Db.claimEvent_eq_ok h
    · rfl
    · rfl

@[simp] lemma alone_updateVersion (tenantId id : UUID) (f : VersionUpdate) :
    Script.alone (α := Unit) engine (sql (.updateVersion tenantId id f)) db=
      .ok ((),db.updateVersion tenantId id f.assign f.clock) := by
  refine (alone_sql db _).trans ?_
  rw [Statement.exec]
  split
  · rfl
  · rename_i h
    have hsame : db.updateVersion tenantId id f.assign f.clock=db := by
      rw [Db.updateVersion,updateWhere_eq_self]
      intro v hv
      exact decide_eq_false (fun hrow => h ⟨v,hv,hrow⟩)
    rw [hsame]
    rfl

lemma alone_setCurrentVersion (tenantId id versionId : UUID) (clock : Time)
    (h : ∃ v ∈ db.versions, v.tenantId=tenantId ∧ v.id=versionId) :
    Script.alone (α := Unit) engine
      (sql (.updateDocument tenantId id (setCurrentVersion versionId clock))) db=
      .ok ((),db.updateDocument tenantId id (setCurrentVersion versionId clock).assign clock) := by
  refine (alone_sql db _).trans ?_
  rw [Statement.exec]
  split
  · rename_i hd
    rw [if_pos (show refersTo tenantId (setCurrentVersion versionId clock).version db from h)]
    rfl
  · rename_i hd
    have hsame : db.updateDocument tenantId id (setCurrentVersion versionId clock).assign clock=db := by
      rw [Db.updateDocument,updateWhere_eq_self]
      intro d hmem
      exact decide_eq_false (fun hrow => hd ⟨d,hmem,hrow⟩)
    rw [hsame]
    rfl

@[simp] lemma alone_setStatus (tenantId id : UUID) (status : DocumentStatus) (clock : Time) :
    Script.alone (α := Unit) engine (sql (.updateDocument tenantId id (setStatus status clock))) db=
      .ok ((),db.setDocumentStatus tenantId id status clock) := by
  refine (alone_sql db _).trans ?_
  rw [Statement.exec]
  split
  · rfl
  · rename_i h
    have hsame : db.setDocumentStatus tenantId id status clock=db := by
      rw [Db.setDocumentStatus,Db.updateDocument,updateWhere_eq_self]
      intro d hd
      exact decide_eq_false (fun hrow => h ⟨d,hd,hrow⟩)
    rw [hsame]
    rfl

end

theorem createSubmissionScript_alone (tenantId documentId versionId : UUID) (sourceExternalId : PyStr)
    (title : Option PyStr) (classification contentSha256 sourceObjectUri mimeType : PyStr)
    (byteSize : ℕ) (eventId : UUID) (eventPayload : DocumentSubmitted) (outboxId : UUID) (now : Time)
    (db : Db) :
    (createSubmissionScript tenantId documentId versionId sourceExternalId title classification
      contentSha256 sourceObjectUri mimeType byteSize eventId eventPayload outboxId now).alone engine db=
    (raising (Submission.createSubmission tenantId documentId versionId sourceExternalId title
      classification contentSha256 sourceObjectUri mimeType byteSize eventId eventPayload outboxId now
      db)).map (fun after => (true,after)) := by
  simp only [createSubmissionScript,Submission.createSubmission,Script.alone_bind,alone_setConfig,
    alone_insertDocument,alone_insertVersion,alone_insertOutbox,ok_bind_apply]
  refine alike_bind fun db₁ h₁ => ?_
  refine alike_bind fun db₂ h₂ => ?_
  have hversion : ∃ v ∈ db₂.versions, v.tenantId=tenantId ∧ v.id=versionId := by
    rw [(Db.insertVersion_eq_ok h₂).2]
    exact ⟨_,List.mem_append_right _ (List.mem_singleton_self _),rfl,rfl⟩
  rw [alone_setCurrentVersion db₂ tenantId documentId versionId now hversion]
  exact alike_end fun _ => rfl

theorem enqueueFailureScript_alone (payload : DocumentSubmitted) (error : Fetcher.FetchValidationError)
    (draws : Draws) (db : Db) : (enqueueFailureScript payload error draws).alone engine db=
      (raising (Fetcher.enqueueFailure payload error draws db)).map (fun after => ((),after)) := by
  simp only [enqueueFailureScript,Fetcher.enqueueFailure,Script.alone_bind,alone_call,
    alone_insertOutbox]
  refine alike_bind fun tenantId _ => ?_
  refine alike_bind fun documentId _ => ?_
  refine alike_bind fun correlationId _ => ?_
  exact alike_bind fun causationId _ => rfl

/-- What a consumer returns with the database it leaves. -/
def returned (db : Db) (after : Option Db) : Bool × Db := (after.isSome,after.getD db)

theorem rejectScript_alone (payload : DocumentFetched) (error : Extractor.ExtractionError)
    (draws : Draws) (db : Db) : (rejectScript payload error draws).alone engine db=
      (raising (Extractor.reject payload error draws db)).map (returned db) := by
  simp only [rejectScript,Extractor.reject,Script.alone_bind,alone_call]
  refine alike_bind fun ids _ => ?_
  simp only [alone_setConfig,alone_claimEvent,ok_bind_apply]
  refine alike_bind fun claimed hclaimed => ?_
  cases claimed with
  | none => rfl
  | some claimed =>
    simp only [Option.isSome_some,Option.getD_some,if_true,Script.alone_bind,alone_updateVersion,
      alone_setStatus,alone_call,alone_insertOutbox,ok_bind_apply]
    refine alike_bind fun correlationId _ => ?_
    exact alike_bind fun after _ => rfl

/-! What `one_or_none` makes of the rows found. -/

lemma alone_selectNone {db : Db} {p : VersionFacts → Bool} (h : db.versions.filter (fun v => p v.facts)=[]) :
    Script.alone (α := Option VersionFacts) engine (sql (.selectVersion p)) db=.ok (none,db) := by
  refine (alone_sql db _).trans ?_
  rw [Statement.exec,h]
  rfl

lemma alone_selectOne {db : Db} {p : VersionFacts → Bool} {v : DocumentVersion}
    (h : db.versions.filter (fun v => p v.facts)=[v]) :
    Script.alone (α := Option VersionFacts) engine (sql (.selectVersion p)) db=.ok (some v.facts,db) := by
  refine (alone_sql db _).trans ?_
  rw [Statement.exec,h]
  rfl

lemma alone_selectMany {db : Db} {p : VersionFacts → Bool} {v w : DocumentVersion} {rest : List DocumentVersion}
    (h : db.versions.filter (fun v => p v.facts)=v::w::rest) :
    Script.alone (α := Option VersionFacts) engine (sql (.selectVersion p)) db=
      .error (.other .multipleResultsFound) := by
  refine (alone_sql db _).trans ?_
  rw [Statement.exec,h]
  rfl

theorem completeScript_alone (rt : Extractor.Runtime) (payload : DocumentFetched)
    (result : Extractor.ExtractionResult) (normalizedUri manifestUri : PyStr) (draws : Draws) (db : Db) :
    (completeScript rt payload result normalizedUri manifestUri draws).alone engine db=
      (Extractor.complete rt payload result normalizedUri manifestUri draws db).map (returned db) := by
  simp only [completeScript,Extractor.complete,Script.alone_bind,alone_call]
  refine alike_bind_raised fun ids _ => ?_
  simp only [alone_setConfig,alone_claimEvent,ok_bind_apply]
  refine alike_bind_raised fun claimed hclaimed => ?_
  cases claimed with
  | none => rfl
  | some claimed =>
    simp only [Option.isSome_some,Option.getD_some,if_true,Script.alone_bind]
    cases hv : Extractor.currentVersions ids payload.contentSha256 claimed with
    | nil =>
      rw [alone_selectNone]
      · rfl
      · exact hv
    | cons v rest =>
      cases rest with
      | cons w rest =>
        rw [alone_selectMany]
        · rfl
        · exact hv
      | nil =>
        rw [alone_selectOne]
        rotate_left
        · exact hv
        simp only [ok_bind_apply,Script.alone_bind,alone_updateVersion,alone_setStatus,alone_call,
          alone_insertOutbox]
        refine alike_bind_raised fun correlationId _ => ?_
        exact alike_bind_raised fun after _ => rfl

theorem processScript_alone (payload : DocumentSubmitted)
    (inspection : Option Fetcher.SourceInspection) (error : Option Fetcher.FetchValidationError)
    (draws : Draws) (db : Db) : (processScript payload inspection error draws).alone engine db=
      (raising (Fetcher.process payload inspection error draws db)).map (returned db) := by
  simp only [processScript,Fetcher.process,Script.alone_bind,alone_call]
  refine alike_bind fun tenantId _ => ?_
  refine alike_bind fun documentId _ => ?_
  refine alike_bind fun eventId _ => ?_
  simp only [alone_setConfig,alone_claimEvent,ok_bind_apply]
  refine alike_bind fun claimed hclaimed => ?_
  cases claimed with
  | none => rfl
  | some claimed =>
    simp only [Option.isSome_some,Option.getD_some,if_true,Script.alone_bind]
    cases hv : Fetcher.matchingVersions tenantId documentId payload.payloadUri claimed with
    | nil =>
      rw [alone_selectNone]
      rotate_left
      · exact hv
      simp only [ok_bind_apply,Script.alone_bind,enqueueFailureScript_alone]
      exact alike_bind fun after _ => rfl
    | cons v rest =>
      cases rest with
      | cons w rest =>
        rw [alone_selectMany]
        · rfl
        · exact hv
      | nil =>
        rw [alone_selectOne]
        rotate_left
        · exact hv
        have hfacts : Fetcher.verdict v.facts.row inspection error=Fetcher.verdict v inspection error :=
          rfl
        simp only [ok_bind_apply,hfacts]
        cases hverdict : Fetcher.verdict v inspection error with
        | some error =>
          simp only [Script.alone_bind,alone_updateVersion,alone_setStatus,alone_insertFailure,
            enqueueFailureScript_alone,ok_bind_apply]
          refine alike_bind fun failed _ => ?_
          exact alike_bind fun after _ => rfl
        | none =>
          cases inspection with
          | none => rfl
          | some inspection =>
            simp only [Script.alone_bind,alone_updateVersion,alone_setStatus,alone_call,
              alone_insertOutbox,ok_bind_apply]
            refine alike_bind fun correlationId _ => ?_
            exact alike_bind fun after _ => rfl

/-- Run alone, the code of a transaction does what its definition as one function says. -/
theorem Transaction.script_alone (rt : Extractor.Runtime) (t : Transaction) (db : Db) :
    (t.script rt).alone engine db=(t.statements rt db).map (returned db) := by
  cases t with
  | createSubmission =>
    refine (createSubmissionScript_alone ..).trans ?_
    simp only [Transaction.statements]
    cases Submission.createSubmission _ _ _ _ _ _ _ _ _ _ _ _ _ _ db <;> rfl
  | process => exact processScript_alone ..
  | complete => exact completeScript_alone ..
  | reject => exact rejectScript_alone ..

end RagIngestion.Pipeline
