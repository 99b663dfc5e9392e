import RagIngestion.Pipeline.World
import RagIngestion.Database.Tenancy

/-! Isolation of tenants by the statements themselves: each of the four transactions touches only
rows of its tenant, and neither its result nor these rows depend on the rows of other tenants. -/
namespace RagIngestion.Pipeline
open RagIngestion.Python RagIngestion.Domain RagIngestion.Database RagIngestion.Library

/-- A transaction with its arguments and the ids and times it draws. -/
inductive Transaction
  | createSubmission (tenantId documentId versionId : UUID) (sourceExternalId : PyStr)
      (title : Option PyStr) (classification contentSha256 sourceObjectUri mimeType : PyStr)
      (byteSize : ℕ) (eventId : UUID) (eventPayload : DocumentSubmitted) (outboxId : UUID) (now : Time)
  | process (payload : DocumentSubmitted) (inspection : Option Fetcher.SourceInspection)
      (error : Option Fetcher.FetchValidationError) (draws : Draws)
  | complete (payload : DocumentFetched) (result : Extractor.ExtractionResult)
      (normalizedUri manifestUri : PyStr) (draws : Draws)
  | reject (payload : DocumentFetched) (error : Extractor.ExtractionError) (draws : Draws)

namespace Transaction
variable (rt : Extractor.Runtime)

/-- The statements; nothing is written for an event that was processed before. -/
def statements : Transaction → Db → Except Extractor.Raised (Option Db)
  | .createSubmission tenantId documentId versionId sourceExternalId title classification
      contentSha256 sourceObjectUri mimeType byteSize eventId eventPayload outboxId now => fun db =>
    Extractor.raising ((Submission.createSubmission tenantId documentId versionId sourceExternalId
      title classification contentSha256 sourceObjectUri mimeType byteSize eventId eventPayload
      outboxId now db).map some)
  | .process payload inspection error draws => fun db =>
    Extractor.raising (Fetcher.process payload inspection error draws db)
  | .complete payload result normalizedUri manifestUri draws =>
    Extractor.complete rt payload result normalizedUri manifestUri draws
  | .reject payload error draws => fun db =>
    Extractor.raising (Extractor.reject payload error draws db)

/-- What the caller sees, and the database afterwards: what raises is rolled back. -/
def run (t : Transaction) (db : Db) : Except Extractor.Raised Bool × Db :=
  match t.statements rt db with
  | .error e => (.error e,db)
  | .ok none => (.ok false,db)
  | .ok (some after) => (.ok true,after)

/-- The tenant of the submission or of the payload. -/
def tenant : Transaction → Except PyError UUID
  | .createSubmission tenantId _ _ _ _ _ _ _ _ _ _ _ _ _ => .ok tenantId
  | .process payload _ _ _ => UUID.ofText payload.tenantId
  | .complete payload _ _ _ _ => UUID.ofText payload.tenantId
  | .reject payload _ _ => UUID.ofText payload.tenantId

/-- The generated ids are not in use. -/
def Fresh (db : Db) : Transaction → Prop
  | .createSubmission _ documentId versionId _ _ _ _ _ _ _ _ _ outboxId _ =>
    (∀ x ∈ db.documents, x.id≠documentId) ∧ (∀ x ∈ db.versions, x.id≠versionId) ∧
      ∀ x ∈ db.outbox, x.id≠outboxId
  | .process _ _ _ draws => ∀ x ∈ db.outbox, x.id≠draws.outboxId
  | .complete _ _ _ _ draws => ∀ x ∈ db.outbox, x.id≠draws.outboxId
  | .reject _ _ draws => ∀ x ∈ db.outbox, x.id≠draws.outboxId

end Transaction

section
variable {a : UUID} {db : Db}

lemma local_raising {α : Type} {out : α → α} {f : Db → Except PyError α}
    (h : LocalAt (Db.rowsOf a) out f db) :
    LocalAt (Db.rowsOf a) out (fun db => Extractor.raising (f db)) db := by
  have h : f (db.rowsOf a)=(f db).map out := h
  change Extractor.raising (f (db.rowsOf a))=(Extractor.raising (f db)).map out
  rw [h]
  cases f db <;> rfl

lemma local_map_some {ε : Type} {f : Db → Except ε Db} (h : LocalAt (Db.rowsOf a) (Db.rowsOf a) f db) :
    LocalAt (Db.rowsOf a) (Option.map (Db.rowsOf a)) (fun db => (f db).map some) db := by
  have h : f (db.rowsOf a)=(f db).map (Db.rowsOf a) := h
  change (f (db.rowsOf a)).map some=((f db).map some).map (Option.map (Db.rowsOf a))
  rw [h]
  cases f db <;> rfl

theorem createSubmission_local {documentId versionId : UUID} {sourceExternalId : PyStr}
    {title : Option PyStr} {classification contentSha256 sourceObjectUri mimeType : PyStr}
    {byteSize : ℕ} {eventId : UUID} {eventPayload : DocumentSubmitted} {outboxId : UUID} {now : Time}
    (hd : ∀ x ∈ db.documents, x.id≠documentId) (hv : ∀ x ∈ db.versions, x.id≠versionId)
    (ho : ∀ x ∈ db.outbox, x.id≠outboxId) :
    LocalAt (Db.rowsOf a) (Db.rowsOf a) (fun db => Submission.createSubmission a documentId versionId
      sourceExternalId title classification contentSha256 sourceObjectUri mimeType byteSize eventId
      eventPayload outboxId now db) db := by
  unfold Submission.createSubmission
  refine (insertDocument_local a rfl hd).bind ?_
  intro db₁ h₁
  obtain ⟨-,rfl⟩ := Db.insertDocument_eq_ok h₁
  refine (insertVersion_local a rfl hv).bind ?_
  intro db₂ h₂
  obtain ⟨-,rfl⟩ := Db.insertVersion_eq_ok h₂
  exact LocalAt.change (updateDocument_local _ documentId
    (f := fun d => { d with currentVersionId := some versionId }) (fun _ => rfl) now) (insertOutbox_local _ rfl ho)

lemma claimed_outbox {e : ProcessedEvent} {claimed : Db} (h : db.claimEvent e=.ok (some claimed)) :
    claimed.outbox=db.outbox := by
  obtain ⟨-,⟨-,h⟩ | ⟨-,h⟩⟩ := Db.claimEvent_eq_ok h
  · cases h
  · cases h
    rfl

/-- A consumer's transaction is local when what follows the claim is. -/
theorem local_claim {ε : Type} {f : Db → Except ε (Option Db)}
    {claim : Db → Except ε (Option Db)} (hc : LocalAt (Db.rowsOf a) (Option.map (Db.rowsOf a)) claim db)
    (hf : ∀ claimed, claim db=.ok (some claimed) →
      LocalAt (Db.rowsOf a) (Option.map (Db.rowsOf a)) f claimed) :
    LocalAt (Db.rowsOf a) (Option.map (Db.rowsOf a)) (fun db => claim db >>= fun o =>
      match o with
      | none => .ok none
      | some claimed => f claimed) db := by
  refine hc.bind ?_
  intro o ho
  cases o with
  | none => rfl
  | some claimed => exact hf claimed ho

theorem enqueueFailure_local {payload : DocumentSubmitted} {error : Fetcher.FetchValidationError}
    {draws : Draws} (ht : UUID.ofText payload.tenantId=.ok a)
    (ho : ∀ x ∈ db.outbox, x.id≠draws.outboxId) :
    LocalAt (Db.rowsOf a) (Db.rowsOf a) (Fetcher.enqueueFailure payload error draws) db := by
  unfold Fetcher.enqueueFailure
  refine LocalAt.pureBind fun tenantId h => ?_
  cases Except.ok.inj (ht.symm.trans h)
  refine LocalAt.pureBind fun documentId _ => ?_
  refine LocalAt.pureBind fun correlationId _ => ?_
  refine LocalAt.pureBind fun causationId _ => ?_
  exact insertOutbox_local _ rfl ho

/-- A statement whose result the transaction returns. -/
lemma local_some {ε : Type} {f : Db → Except ε Db} (h : LocalAt (Db.rowsOf a) (Db.rowsOf a) f db) :
    LocalAt (Db.rowsOf a) (Option.map (Db.rowsOf a)) (fun db => f db >>= fun db => .ok (some db)) db :=
  h.bind fun _ _ => rfl

/-- Marking a version and giving its document a status, before anything else. -/
lemma local_mark {ε : Type} {versionId documentId : UUID} {update : DocumentVersion → DocumentVersion}
    {status : DocumentStatus} {versionClock documentClock : Time} {f : Db → Except ε (Option Db)}
    (hupdate : ∀ v, (update v).tenantId=v.tenantId)
    (hf : LocalAt (Db.rowsOf a) (Option.map (Db.rowsOf a)) f
      ((db.updateVersion a versionId update versionClock).setDocumentStatus a documentId status
        documentClock)) :
    LocalAt (Db.rowsOf a) (Option.map (Db.rowsOf a))
      (fun db => f ((db.updateVersion a versionId update versionClock).setDocumentStatus a documentId
        status documentClock)) db := by
  refine LocalAt.change ?_ hf
  rw [updateVersion_local _ versionId hupdate versionClock]
  exact updateDocument_local _ documentId (f := fun d => { d with status := status }) (fun _ => rfl)
    documentClock

theorem process_local {payload : DocumentSubmitted} {inspection : Option Fetcher.SourceInspection}
    {error : Option Fetcher.FetchValidationError} {draws : Draws}
    (ht : UUID.ofText payload.tenantId=.ok a) (ho : ∀ x ∈ db.outbox, x.id≠draws.outboxId) :
    LocalAt (Db.rowsOf a) (Option.map (Db.rowsOf a)) (Fetcher.process payload inspection error draws)
      db := by
  unfold Fetcher.process
  refine LocalAt.pureBind fun tenantId h => ?_
  cases Except.ok.inj (ht.symm.trans h)
  refine LocalAt.pureBind fun documentId _ => ?_
  refine LocalAt.pureBind fun eventId _ => ?_
  refine local_claim (claimEvent_local _ rfl) ?_
  intro claimed hclaimed
  have ho : ∀ x ∈ claimed.outbox, x.id≠draws.outboxId := claimed_outbox hclaimed ▸ ho
  have hmatch : Fetcher.matchingVersions a documentId payload.payloadUri (claimed.rowsOf a)=
      Fetcher.matchingVersions a documentId payload.payloadUri claimed :=
    filter_rowsOf _ (fun v hv => (of_decide_eq_true hv).1)
  unfold LocalAt
  simp only [hmatch]
  split
  · exact local_some (enqueueFailure_local ht ho)
  · rename_i version _
    split
    · rename_i e _
      refine local_mark (f := fun db => db.insertFailure (Fetcher.ingestionFailure
        ⟨a,documentId,eventId,eventId⟩ version.id e) >>= fun db =>
          Fetcher.enqueueFailure payload e draws db >>= fun db => .ok (some db)) (fun _ => rfl) ?_
      refine (insertFailure_local a rfl).bind ?_
      intro db₁ h₁
      obtain ⟨-,rfl⟩ := Db.insertFailure_eq_ok h₁
      exact local_some (enqueueFailure_local ht ho)
    · split
      · rfl
      · rename_i i _
        refine local_mark (f := fun db => UUID.ofText payload.correlationId >>= fun correlationId =>
          db.insertOutbox draws.outboxId (Fetcher.fetchedEvent payload
            ⟨a,documentId,eventId,correlationId⟩ version.id i (Fetcher.fetchedMetadata version i) draws)
            draws.now >>= fun db => .ok (some db)) (fun _ => rfl) ?_
        refine LocalAt.pureBind fun correlationId _ => ?_
        exact local_some (insertOutbox_local _ rfl ho)
  · rfl

lemma payloadIds_tenant {payload : DocumentFetched} {ids : Extractor.Ids}
    (ht : UUID.ofText payload.tenantId=.ok a) (h : Extractor.payloadIds payload=.ok ids) :
    ids.tenantId=a := by
  obtain ⟨tenantId,h₁,h⟩ := bind_eq_ok.mp h
  obtain ⟨documentId,-,h⟩ := bind_eq_ok.mp h
  obtain ⟨versionId,-,h⟩ := bind_eq_ok.mp h
  obtain ⟨eventId,-,h⟩ := bind_eq_ok.mp h
  cases h
  exact Except.ok.inj (h₁.symm.trans ht)

theorem reject_local {payload : DocumentFetched} {error : Extractor.ExtractionError} {draws : Draws}
    (ht : UUID.ofText payload.tenantId=.ok a) (ho : ∀ x ∈ db.outbox, x.id≠draws.outboxId) :
    LocalAt (Db.rowsOf a) (Option.map (Db.rowsOf a)) (Extractor.reject payload error draws) db := by
  unfold Extractor.reject
  refine LocalAt.pureBind fun ids h => ?_
  have hta := payloadIds_tenant ht h
  subst hta
  refine local_claim (claimEvent_local _ rfl) ?_
  intro claimed hclaimed
  have ho : ∀ x ∈ claimed.outbox, x.id≠draws.outboxId := claimed_outbox hclaimed ▸ ho
  refine local_mark (f := fun db => UUID.ofText payload.correlationId >>= fun correlationId =>
    db.insertOutbox draws.outboxId (Extractor.rejectedEvent ids correlationId error draws) draws.now >>=
      fun db => .ok (some db)) (fun _ => rfl) ?_
  refine LocalAt.pureBind fun correlationId _ => ?_
  exact local_some (insertOutbox_local _ rfl ho)

theorem complete_local {rt : Extractor.Runtime} {payload : DocumentFetched}
    {result : Extractor.ExtractionResult} {normalizedUri manifestUri : PyStr} {draws : Draws}
    (ht : UUID.ofText payload.tenantId=.ok a) (ho : ∀ x ∈ db.outbox, x.id≠draws.outboxId) :
    LocalAt (Db.rowsOf a) (Option.map (Db.rowsOf a))
      (Extractor.complete rt payload result normalizedUri manifestUri draws) db := by
  unfold Extractor.complete
  refine LocalAt.pureBind fun ids h => ?_
  have hta := payloadIds_tenant ht (Extractor.raising_eq_ok.mp h)
  subst hta
  refine local_claim (local_raising (claimEvent_local _ rfl)) ?_
  intro claimed hclaimed
  have ho : ∀ x ∈ claimed.outbox, x.id≠draws.outboxId :=
    claimed_outbox (Extractor.raising_eq_ok.mp hclaimed) ▸ ho
  have hcurrent : Extractor.currentVersions ids payload.contentSha256 (claimed.rowsOf ids.tenantId)=
      Extractor.currentVersions ids payload.contentSha256 claimed :=
    filter_rowsOf _ (fun v hv => (of_decide_eq_true hv).1)
  unfold LocalAt
  simp only [hcurrent]
  split
  · rfl
  · refine local_mark (f := fun db => Extractor.raising (UUID.ofText payload.correlationId) >>=
      fun correlationId => Extractor.raising (db.insertOutbox draws.outboxId (Extractor.extractedEvent rt
        payload ids correlationId result normalizedUri manifestUri draws) draws.now) >>=
          fun db => .ok (some db)) (fun _ => rfl) ?_
    refine LocalAt.pureBind fun correlationId _ => ?_
    exact local_some (local_raising (insertOutbox_local _ rfl ho))
  · rfl

theorem createSubmission_othersOf {documentId versionId : UUID} {sourceExternalId : PyStr}
    {title : Option PyStr} {classification contentSha256 sourceObjectUri mimeType : PyStr}
    {byteSize : ℕ} {eventId : UUID} {eventPayload : DocumentSubmitted} {outboxId : UUID} {now : Time}
    {after : Db} (h : Submission.createSubmission a documentId versionId sourceExternalId title
      classification contentSha256 sourceObjectUri mimeType byteSize eventId eventPayload outboxId now
      db=.ok after) : after.othersOf a=db.othersOf a := by
  obtain ⟨-,rfl⟩ := Submission.createSubmission_eq_ok h
  simp [Db.othersOf,Db.restrict,Submission.newDocument,Submission.newVersion,OutboxRow.inserted,
    Submission.submittedEvent]

theorem process_othersOf {payload : DocumentSubmitted} {inspection : Option Fetcher.SourceInspection}
    {error : Option Fetcher.FetchValidationError} {draws : Draws} {after : Db}
    (ht : UUID.ofText payload.tenantId=.ok a)
    (h : Fetcher.process payload inspection error draws db=.ok (some after)) :
    after.othersOf a=db.othersOf a := by
  obtain ⟨-,-,-,-,-,hnone⟩ | ⟨ids,o,after,hn,ho,hc,heq⟩ := Fetcher.process_eq_ok h
  · cases hnone
  · cases heq
    have hta : ids.tenantId=a := Except.ok.inj (hn.tenant.symm.trans ht)
    subst hta
    cases ho with
    | unknown => exact hc.othersOf rfl (fun f hf => nomatch hf) (fun id f hf => nomatch hf)
    | invalid =>
      refine hc.othersOf rfl ?_ ?_
      · intro f hf
        cases hf
        rfl
      · intro id f hf
        cases hf
        exact fun _ => rfl
    | valid =>
      refine hc.othersOf rfl (fun f hf => nomatch hf) ?_
      intro id f hf
      cases hf
      exact fun _ => rfl

theorem reject_othersOf {payload : DocumentFetched} {error : Extractor.ExtractionError} {draws : Draws}
    {after : Db} (ht : UUID.ofText payload.tenantId=.ok a)
    (h : Extractor.reject payload error draws db=.ok (some after)) :
    after.othersOf a=db.othersOf a := by
  obtain ⟨-,-,-,hnone⟩ | ⟨ids,correlationId,after,hn,hc,heq⟩ := Extractor.reject_eq_ok h
  · cases hnone
  · cases heq
    have hta := payloadIds_tenant ht hn.ids
    subst hta
    refine hc.othersOf rfl (fun f hf => nomatch hf) ?_
    intro id f hf
    cases hf
    exact fun _ => rfl

theorem complete_othersOf {rt : Extractor.Runtime} {payload : DocumentFetched}
    {result : Extractor.ExtractionResult} {normalizedUri manifestUri : PyStr} {draws : Draws}
    {after : Db} (ht : UUID.ofText payload.tenantId=.ok a)
    (h : Extractor.complete rt payload result normalizedUri manifestUri draws db=.ok (some after)) :
    after.othersOf a=db.othersOf a := by
  obtain ⟨-,-,-,hnone⟩ | ⟨ids,correlationId,version,after,hn,-,hc,heq⟩ := Extractor.complete_eq_ok h
  · cases hnone
  · cases heq
    have hta := payloadIds_tenant ht hn.ids
    subst hta
    refine hc.othersOf rfl (fun f hf => nomatch hf) ?_
    intro id f hf
    cases hf
    exact fun _ => rfl

end

namespace Transaction
variable {rt : Extractor.Runtime} {t : Transaction} {a : UUID} {db : Db}

theorem statements_local (rt : Extractor.Runtime) (ht : t.tenant=.ok a) (hfresh : t.Fresh db) :
    LocalAt (Db.rowsOf a) (Option.map (Db.rowsOf a)) (t.statements rt) db := by
  cases t with
  | createSubmission =>
    cases ht
    exact local_raising (local_map_some (createSubmission_local hfresh.1 hfresh.2.1 hfresh.2.2))
  | process => exact local_raising (process_local ht hfresh)
  | complete => exact complete_local ht hfresh
  | reject => exact local_raising (reject_local ht hfresh)

theorem statements_othersOf {after : Db} (ht : t.tenant=.ok a)
    (h : t.statements rt db=.ok (some after)) : after.othersOf a=db.othersOf a := by
  cases t with
  | createSubmission =>
    cases ht
    have h := Extractor.raising_eq_ok.mp h
    obtain ⟨db',hdb,hsome⟩ := bind_eq_ok.mp h
    cases hsome
    exact createSubmission_othersOf hdb
  | process => exact process_othersOf ht (Extractor.raising_eq_ok.mp h)
  | complete => exact complete_othersOf ht h
  | reject => exact reject_othersOf ht (Extractor.raising_eq_ok.mp h)

/-- The rows of other tenants stay as they are, and two databases with the same tenants and the same
rows of the transaction's tenant give the same result and the same rows of it. -/
theorem tenants_isolated (rt : Extractor.Runtime) (t : Transaction) (a : UUID) (ht : t.tenant=.ok a) :
    (∀ db, (t.run rt db).2.othersOf a=db.othersOf a) ∧
      ∀ db₁ db₂, db₁.rowsOf a=db₂.rowsOf a → t.Fresh db₁ → t.Fresh db₂ →
        (t.run rt db₁).1=(t.run rt db₂).1 ∧ (t.run rt db₁).2.rowsOf a=(t.run rt db₂).2.rowsOf a := by
  constructor
  · intro db
    unfold run
    split
    · rfl
    · rfl
    · rename_i after h
      exact statements_othersOf ht h
  · intro db₁ db₂ hrows h₁ h₂
    have hagree := (statements_local rt ht h₁).agree (statements_local rt ht h₂) hrows
    unfold run
    cases hs₁ : t.statements rt db₁ with
    | error e =>
      cases hs₂ : t.statements rt db₂ with
      | error e' =>
        rw [hs₁,hs₂] at hagree
        cases hagree
        exact ⟨rfl,hrows⟩
      | ok r =>
        rw [hs₁,hs₂] at hagree
        cases hagree
    | ok r =>
      cases hs₂ : t.statements rt db₂ with
      | error e =>
        rw [hs₁,hs₂] at hagree
        cases hagree
      | ok r' =>
        rw [hs₁,hs₂] at hagree
        have hagree : r.map (Db.rowsOf a)=r'.map (Db.rowsOf a) := Except.ok.inj hagree
        cases r with
        | none =>
          cases r' with
          | none => exact ⟨rfl,hrows⟩
          | some after => cases hagree
        | some after =>
          cases r' with
          | none => cases hagree
          | some after' => exact ⟨rfl,Option.some.inj hagree⟩

/-- A submission of the tenant with UUID 1. -/
def firstSubmission : Transaction :=
  .createSubmission ⟨1⟩ ⟨2⟩ ⟨3⟩ (py "report") none (py "internal") (hexdigest (plainSha256 plainSource))
    (py "s3://rag-source/report") (py "application/pdf") 5 ⟨4⟩
    (buildDocumentSubmittedEvent ⟨4⟩ [] ⟨1⟩ ⟨2⟩ (py "s3://rag-source/report") none) ⟨5⟩ 0

def twoTenants : Db := Db.empty [⟨1⟩,⟨7⟩]

/-- Another tenant has a document with the same external id. -/
def twoTenantsOneDocument : Db :=
  { twoTenants with documents := [Submission.newDocument ⟨7⟩ ⟨8⟩ (py "report") none (py "internal") 0] }

theorem first_submission_isolated :
    (firstSubmission.run Extractor.plainRuntime twoTenants).1=
        (firstSubmission.run Extractor.plainRuntime twoTenantsOneDocument).1 ∧
      (firstSubmission.run Extractor.plainRuntime twoTenants).2.rowsOf ⟨1⟩=
        (firstSubmission.run Extractor.plainRuntime twoTenantsOneDocument).2.rowsOf ⟨1⟩ ∧
      (firstSubmission.run Extractor.plainRuntime twoTenantsOneDocument).2.othersOf ⟨1⟩=
        twoTenantsOneDocument.othersOf ⟨1⟩ := by
  obtain ⟨hothers,hsame⟩ := tenants_isolated Extractor.plainRuntime firstSubmission ⟨1⟩ rfl
  have hrows : twoTenants.rowsOf ⟨1⟩=twoTenantsOneDocument.rowsOf ⟨1⟩ := by
    simp [twoTenantsOneDocument,twoTenants,Db.empty,Db.rowsOf,Db.restrict,Submission.newDocument]
  have hfresh : firstSubmission.Fresh twoTenants := ⟨by simp [twoTenants,Db.empty],
    by simp [twoTenants,Db.empty],by simp [twoTenants,Db.empty]⟩
  have hfresh' : firstSubmission.Fresh twoTenantsOneDocument := by
    refine ⟨?_,by simp [twoTenantsOneDocument,twoTenants,Db.empty],
      by simp [twoTenantsOneDocument,twoTenants,Db.empty]⟩
    intro x hx
    rw [List.mem_singleton.mp hx]
    decide
  exact ⟨(hsame _ _ hrows hfresh hfresh').1,(hsame _ _ hrows hfresh hfresh').2,hothers _⟩

end Transaction
end RagIngestion.Pipeline
