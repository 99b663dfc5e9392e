import RagIngestion.Database.Constraints
import RagIngestion.Submission.Retries

/-! Which submissions are answered 409: one `except IntegrityError` stands for every constraint of
the five statements, so the answer names a duplicate external id for all of them. -/
namespace RagIngestion.Submission
open RagIngestion.Python RagIngestion.Domain RagIngestion.Database RagIngestion.Storage
open RagIngestion.Library

/-- The tenant has a document of the API with the external id of the draft. -/
def Duplicate (d : Draft) (db : Db) : Prop :=
  ∃ x ∈ db.documents, x.tenantId=d.upload.tenantId ∧ x.sourceSystem=py "api" ∧
    x.sourceExternalId=d.externalId

/-- What else the transaction of a draft needs: a tenant, new ids, and new content. -/
structure Admissible (sha256 : Bytes → Digest) (d : Draft) (eventId outboxId : UUID) (db : Db) : Prop where
  tenant : d.upload.tenantId ∈ db.tenants
  documentId : ∀ x ∈ db.documents, x.id≠d.documentId
  versionId : ∀ x ∈ db.versions, x.id≠d.versionId
  content : ∀ x ∈ db.versions,
    ¬(x.tenantId=d.upload.tenantId ∧ x.contentSha256=hexdigest (sha256 d.content))
  event : ∀ x ∈ db.outbox, x.id≠outboxId ∧
    ¬(x.event.tenantId=d.upload.tenantId ∧ x.event.eventId=eventId)

/-- A digest passes the check of the hash column. -/
lemma isSha256Text_hexdigest (digest : Digest) : isSha256Text (hexdigest digest)=true := by
  have hall : (hexdigest digest).all (fun c => isLowerHexDigit c)=true := by
    rw [List.all_eq_true]
    intro c hc
    obtain ⟨d,rfl⟩ := mem_hexText hc
    exact isLowerHexDigit_hexDigit d
  simp only [isSha256Text,hall,Bool.and_true,decide_eq_true_eq]
  exact hexText_length 64 _

variable {sha256 : Bytes → Digest} {bucket : BucketName} {maxUploadBytes : ℕ}

section
variable {tenantId documentId versionId : UUID} {sourceExternalId : PyStr} {title : Option PyStr}
  {classification contentSha256 sourceObjectUri mimeType : PyStr} {byteSize : ℕ} {eventId : UUID}
  {eventPayload : DocumentSubmitted} {outboxId : UUID} {now : Time} {db : Db}

/-- A transaction with new keys and a hash that passes its check commits. -/
theorem createSubmission_of_fresh (hdb : db.Constraints) (ht : tenantId ∈ db.tenants)
    (hhash : isSha256Text contentSha256)
    (hd : ∀ x ∈ db.documents, x.id≠documentId ∧ ¬(x.tenantId=tenantId ∧ x.sourceSystem=py "api" ∧
      x.sourceExternalId=sourceExternalId))
    (hv : ∀ x ∈ db.versions, x.id≠versionId ∧ ¬(x.tenantId=tenantId ∧ x.contentSha256=contentSha256))
    (ho : ∀ x ∈ db.outbox, x.id≠outboxId ∧ ¬(x.event.tenantId=tenantId ∧ x.event.eventId=eventId)) :
    ∃ after, createSubmission tenantId documentId versionId sourceExternalId title classification
      contentSha256 sourceObjectUri mimeType byteSize eventId eventPayload outboxId now db=.ok after := by
  have hdocument : db.insertDocument
      (newDocument tenantId documentId sourceExternalId title classification now)=.ok _ := if_pos ⟨ht,hd⟩
  -- no version can be numbered within a document that is not there
  have hnumber : ∀ x ∈ db.versions, ¬(x.tenantId=tenantId ∧ x.documentId=documentId ∧ x.versionNumber=1) := by
    rintro x hx ⟨-,hid,-⟩
    obtain ⟨y,hy,-,hyid⟩ := hdb.versionDocuments x hx
    exact (hd y hy).1 (hyid.trans hid)
  generalize hnew : newDocument tenantId documentId sourceExternalId title classification now=document at hdocument
  have hversion : ∃ after, Db.insertVersion
      (newVersion tenantId documentId versionId contentSha256 sourceObjectUri mimeType byteSize now)
      { db with documents := db.documents ++ [document] }=.ok after := by
    refine ⟨_,if_pos ⟨ht,Nat.one_pos,hhash,⟨document,?_,?_⟩,?_⟩⟩
    · exact List.mem_append_right _ (List.mem_singleton_self _)
    · exact hnew ▸ ⟨rfl,rfl⟩
    · exact fun x hx => ⟨(hv x hx).1,hnumber x hx,(hv x hx).2⟩
  obtain ⟨after,hversion⟩ := hversion
  unfold createSubmission
  rw [hnew,hdocument,ok_bind,hversion,ok_bind]
  obtain ⟨-,rfl⟩ := Db.insertVersion_eq_ok hversion
  exact ⟨_,Db.insertOutbox_of_fresh ht ho⟩

/-- A committed submission keeps the constraints. -/
theorem createSubmission_constraints {after : Db} (hdb : db.Constraints)
    (h : createSubmission tenantId documentId versionId sourceExternalId title classification
      contentSha256 sourceObjectUri mimeType byteSize eventId eventPayload outboxId now db=.ok after) :
    after.Constraints := by
  obtain ⟨db₁,h₁,h⟩ := bind_eq_ok.mp h
  obtain ⟨db₂,h₂,h⟩ := bind_eq_ok.mp h
  have hrows := (hdb.insertDocument rfl h₁).insertVersion h₂
  have hcurrent := hrows.updateDocument tenantId documentId
    (f := fun x => { x with currentVersionId := some versionId }) (fun _ => ⟨rfl,rfl,rfl,rfl⟩) ?_ now
  · exact hcurrent.insertOutbox h
  · intro x _ _ v hv
    cases hv
    obtain ⟨-,rfl⟩ := Db.insertVersion_eq_ok h₂
    exact ⟨_,List.mem_append_right _ (List.mem_singleton_self _),rfl,rfl⟩

end

/-- A submission commits exactly when its external id is new and nothing else clashes. -/
theorem Draft.submission_commits_iff {d : Draft} {eventId : UUID} {occurredAt : PyStr} {outboxId : UUID}
    {now : Time} {db : Db} (hdb : db.Constraints) :
    (∃ after, d.submission sha256 bucket eventId occurredAt outboxId now db=.ok after) ↔
      ¬Duplicate d db ∧ Admissible sha256 d eventId outboxId db := by
  constructor
  · rintro ⟨after,h⟩
    refine ⟨?_,?_⟩
    · rintro ⟨x,hx,hkey⟩
      exact Draft.submission_external h x hx hkey
    · obtain ⟨⟨ht,hd,hv,ho⟩,-⟩ := createSubmission_eq_ok h
      exact ⟨ht,hd,fun x hx => (hv x hx).1,fun x hx => (hv x hx).2,ho⟩
  · rintro ⟨hnew,h⟩
    exact createSubmission_of_fresh hdb h.tenant (isSha256Text_hexdigest _)
      (fun x hx => ⟨h.documentId x hx,fun hkey => hnew ⟨x,hx,hkey⟩⟩)
      (fun x hx => ⟨h.versionId x hx,h.content x hx⟩) h.event

/-- The calls that are left of a request whose upload succeeded: what they draw, and how they
fail. -/
structure Ending where
  eventId : UUID
  occurredAt : PyStr
  outboxId : UUID
  now : Time
  persistFault : Fault
  deleteFault : Fault

namespace Ending

/-- The call the code makes next. -/
def action (e : Ending) (r : ℕ) : Phase → Option Action
  | .persisting _ => some (.persist r e.eventId e.occurredAt e.outboxId e.now e.persistFault)
  | .compensating _ _ => some (.delete r e.deleteFault)
  | _ => none

def next (e : Ending) (sha256 : Bytes → Digest) (bucket : BucketName) (maxUploadBytes r : ℕ) (s : State) :
    Option State :=
  (e.action r (s.request r)).bind (step sha256 bucket maxUploadBytes s)

/-- The request is carried on to its answer. -/
def finish (e : Ending) (sha256 : Bytes → Digest) (bucket : BucketName) (maxUploadBytes r : ℕ) (s : State) :
    State :=
  follow (e.next sha256 bucket maxUploadBytes r) 2 s

variable {e : Ending} {s : State} {r : ℕ} {d : Draft}

/-- A request that is to compensate keeps its answer when the delete does not fail. -/
lemma finish_compensating {response : Response} (h : s.request r=.compensating d response) :
    (follow (e.next sha256 bucket maxUploadBytes r) 1 s).request r=
      .answered d (if e.deleteFault=.none then response else internalError) := by
  cases hf : e.deleteFault with
  | none =>
    have hnext : e.next sha256 bucket maxUploadBytes r s=
        some ((s.setObject d.key none).setRequest r (.answered d response)) := by
      simp only [next,action,h,Option.bind_some,step,hf]
    rw [follow_step hnext]
    exact State.setRequest_request _ _ _
  | before =>
    have hnext : e.next sha256 bucket maxUploadBytes r s=
        some (s.setRequest r (.answered d internalError)) := by
      simp only [next,action,h,Option.bind_some,step,hf]
    rw [follow_step hnext]
    exact State.setRequest_request _ _ _
  | after =>
    have hnext : e.next sha256 bucket maxUploadBytes r s=
        some ((s.setObject d.key none).setRequest r (.answered d internalError)) := by
      simp only [next,action,h,Option.bind_some,step,hf]
    rw [follow_step hnext]
    exact State.setRequest_request _ _ _

/-- A request that the next step makes compensate is answered as that step says, unless the delete
fails. -/
lemma finish_of_compensating {t : State} {response : Response}
    (hnext : e.next sha256 bucket maxUploadBytes r s=some t) (ht : t.request r=.compensating d response) :
    (e.finish sha256 bucket maxUploadBytes r s).request r=.answered d conflict ↔
      e.deleteFault=.none ∧ response=conflict := by
  rw [finish,follow_step hnext,finish_compensating ht]
  by_cases hf : e.deleteFault=.none
  · simp [hf]
  · simp [hf,internalError,conflict]

/-- A transaction that ran and violated a constraint is answered 409. -/
lemma finish_of_violation {x : PyError} (hr : s.request r=.persisting d)
    (hf : e.persistFault≠.before)
    (hdb : d.submission sha256 bucket e.eventId e.occurredAt e.outboxId e.now s.db=.error x) :
    (e.finish sha256 bucket maxUploadBytes r s).request r=.answered d conflict ↔
      e.deleteFault=.none := by
  cases Draft.submission_eq_error hdb
  have hnext : e.next sha256 bucket maxUploadBytes r s=
      some (s.setRequest r (.compensating d conflict)) := by
    cases hf' : e.persistFault with
    | before => exact absurd hf' hf
    | none => simp only [next,action,hr,Option.bind_some,step,hf',hdb]
    | after => simp only [next,action,hr,Option.bind_some,step,hf',hdb]
  rw [finish_of_compensating hnext (State.setRequest_request _ _ _)]
  exact and_iff_left rfl

/-- A request is answered 409 exactly when its transaction ran and violated a constraint, and the
delete did not fail. -/
theorem finish_conflict_iff (hr : s.request r=.persisting d) :
    (e.finish sha256 bucket maxUploadBytes r s).request r=.answered d conflict ↔
      e.persistFault≠.before ∧ e.deleteFault=.none ∧
        ¬∃ db, d.submission sha256 bucket e.eventId e.occurredAt e.outboxId e.now s.db=.ok db := by
  cases hdb : d.submission sha256 bucket e.eventId e.occurredAt e.outboxId e.now s.db with
  | error x =>
    by_cases hf : e.persistFault=.before
    · have hnext : e.next sha256 bucket maxUploadBytes r s=
          some (s.setRequest r (.compensating d internalError)) := by
        simp only [next,action,hr,Option.bind_some,step,hf]
      rw [finish_of_compensating hnext (State.setRequest_request _ _ _)]
      simp [hf,internalError,conflict]
    · rw [finish_of_violation hr hf hdb]
      simp [hf]
  | ok db =>
    -- whatever happens to the call, the answer is another one
    refine iff_of_false ?_ (by simp)
    cases hf : e.persistFault with
    | before =>
      have hnext : e.next sha256 bucket maxUploadBytes r s=
          some (s.setRequest r (.compensating d internalError)) := by
        simp only [next,action,hr,Option.bind_some,step,hf]
      rw [finish_of_compensating hnext (State.setRequest_request _ _ _)]
      simp [internalError,conflict]
    | after =>
      have hnext : e.next sha256 bucket maxUploadBytes r s=
          some ({ s with db := db }.setRequest r (.compensating d internalError)) := by
        simp only [next,action,hr,Option.bind_some,step,hf,hdb]
      rw [finish_of_compensating hnext (State.setRequest_request _ _ _)]
      simp [internalError,conflict]
    | none =>
      have hnext : e.next sha256 bucket maxUploadBytes r s=
          some ({ s with db := db }.setRequest r (.answered d
            (.created d.documentId d.versionId e.eventId (objectUri bucket d.key)))) := by
        simp only [next,action,hr,Option.bind_some,step,hf,hdb]
      have hended : e.next sha256 bucket maxUploadBytes r ({ s with db := db }.setRequest r (.answered d
          (.created d.documentId d.versionId e.eventId (objectUri bucket d.key))))=none := by
        simp only [next,State.setRequest_request]
        rfl
      rw [finish,follow_step hnext,follow_ended hended,State.setRequest_request]
      simp [conflict]

end Ending

/-- The answer is 409 exactly for the duplicates, where no call of a duplicate fails for a reason
of its own, and what is no duplicate violates no other constraint or is answered otherwise. -/
theorem conflict_names_duplicate_iff {s : State} {r : ℕ} {d : Draft} (hdb : s.db.Constraints)
    (hr : s.request r=.persisting d) (e : Ending) :
    ((e.finish sha256 bucket maxUploadBytes r s).request r=.answered d conflict ↔ Duplicate d s.db) ↔
      (Duplicate d s.db → e.persistFault≠.before ∧ e.deleteFault=.none) ∧
      (¬Duplicate d s.db → Admissible sha256 d e.eventId e.outboxId s.db ∨
        e.persistFault=.before ∨ e.deleteFault≠.none) := by
  rw [Ending.finish_conflict_iff hr,Draft.submission_commits_iff hdb]
  by_cases hdup : Duplicate d s.db
  · simp [hdup]
  · simp only [hdup,not_false_eq_true,true_and,iff_false,false_implies,forall_const]
    tauto

/-- A database in which the tenant has the file under one external id. -/
def submittedDb : Db :=
  { Db.empty [⟨1⟩] with
    documents := [smallDraft.document 0]
    versions := [smallDraft.version plainSha256 minioSourceBucket 0]
    outbox := [.inserted ⟨5⟩ (smallDraft.event minioSourceBucket ⟨4⟩ []) 0] }

lemma submittedDb_constraints : submittedDb.Constraints := by
  have hcommits : ∃ after, smallDraft.submission plainSha256 minioSourceBucket ⟨4⟩ [] ⟨5⟩ 0
      (Db.empty [⟨1⟩])=.ok after := by
    refine (Draft.submission_commits_iff (Db.constraints_empty _)).mpr ⟨?_,?_⟩
    · rintro ⟨x,hx,-⟩
      cases hx
    · refine ⟨List.mem_singleton_self _,?_,?_,?_,?_⟩ <;> simp [Db.empty]
  obtain ⟨after,h⟩ := hcommits
  have hkept := createSubmission_constraints (Db.constraints_empty _) h
  obtain ⟨-,rfl⟩ := Draft.submission_eq_ok _ _ h
  exact hkept

def plainEnding : Ending := ⟨⟨14⟩,[],⟨15⟩,0,.none,.none⟩

/-- A request that is about to record another file. -/
def otherDraft : Draft :=
  ⟨⟨⟨1⟩,py "b.pdf",none,py "internal",some (py "other"),none,[[37]]⟩,[37],⟨12⟩,⟨13⟩⟩

def otherRequest : State := ⟨fun _ => none,submittedDb,fun _ => .persisting otherDraft⟩

/-- A new file next to the small one is no duplicate of it, and the answers agree exactly when
nothing else clashes. -/
theorem second_upload_no_conflict : submittedDb.Constraints ∧ submittedDb.documents.length=1 ∧
    (((plainEnding.finish plainSha256 minioSourceBucket 1048576 0 otherRequest).request 0=
          .answered otherDraft conflict ↔ Duplicate otherDraft submittedDb) ↔
      (Duplicate otherDraft submittedDb →
        plainEnding.persistFault≠.before ∧ plainEnding.deleteFault=.none) ∧
      (¬Duplicate otherDraft submittedDb →
        Admissible plainSha256 otherDraft plainEnding.eventId plainEnding.outboxId submittedDb ∨
          plainEnding.persistFault=.before ∨ plainEnding.deleteFault≠.none)) :=
  ⟨submittedDb_constraints,rfl,
    conflict_names_duplicate_iff (s := otherRequest) submittedDb_constraints rfl plainEnding⟩

/-- The state of a request that is about to record the same file under another external id. -/
def renamedUpload : Upload := ⟨⟨1⟩,py "a.pdf",none,py "internal",some (py "copy"),none,[plainSource]⟩

def renamedDraft : Draft := ⟨renamedUpload,plainSource,⟨12⟩,⟨13⟩⟩

/-- The same bytes under another external id are answered as a duplicate external id. -/
theorem same_bytes_called_duplicate : ¬∀ (s : State) (r : ℕ) (d : Draft) (e : Ending),
    s.db.Constraints → s.request r=.persisting d → e.persistFault=.none → e.deleteFault=.none →
    ((e.finish plainSha256 minioSourceBucket 1048576 r s).request r=.answered d conflict ↔
      Duplicate d s.db) := by
  intro hall
  have hanswer := hall ⟨fun _ => none,submittedDb,fun _ => .persisting renamedDraft⟩ 0 renamedDraft
    plainEnding submittedDb_constraints rfl rfl rfl
  have hnot : ¬Duplicate renamedDraft submittedDb := by
    rintro ⟨x,hx,-,-,hid⟩
    rw [List.mem_singleton.mp hx] at hid
    exact absurd hid (by decide)
  refine hnot (hanswer.mp ((Ending.finish_conflict_iff rfl).mpr ⟨by simp [plainEnding],rfl,?_⟩))
  rw [Draft.submission_commits_iff submittedDb_constraints]
  rintro ⟨-,hadmissible⟩
  exact hadmissible.content (smallDraft.version plainSha256 minioSourceBucket 0)
    (List.mem_singleton_self _) ⟨rfl,rfl⟩

end RagIngestion.Submission
