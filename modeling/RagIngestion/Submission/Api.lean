import RagIngestion.Submission.Repository
import RagIngestion.Library.Runs

/-! Concurrent calls of `submit_document` over the source bucket and the database. Each call of
S3 or of the database is one action, which may raise before or after it takes effect. -/
namespace RagIngestion.Submission
open RagIngestion.Python RagIngestion.Domain RagIngestion.Database RagIngestion.Storage
open RagIngestion.Library

/-- The arguments of `submit_document`; `reads` are the results of successive `file.read` calls. -/
structure Upload where
  tenantId : UUID
  filename : PyStr
  title : Option PyStr
  classification : PyStr
  sourceExternalId : Option PyStr
  contentType : Option PyStr
  reads : List Bytes

/-- Python's `value or default` for an optional string. -/
def orDefault (value : Option PyStr) (default : PyStr) : PyStr :=
  match value with
  | none => default
  | some s => if s=[] then default else s

/-- The upload loop: the spooled content, or nothing once it exceeds the limit. -/
def spool (maxUploadBytes : ℕ) : List Bytes → Bytes → Option Bytes
  | [], buffered => some buffered
  | chunk::reads, buffered =>
    if chunk=[] then some buffered
    else if maxUploadBytes<buffered.length+chunk.length then none
    else spool maxUploadBytes reads (buffered ++ chunk)

/-- The locals of a request once its upload was read and its UUIDs were drawn. -/
structure Draft where
  upload : Upload
  content : Bytes
  documentId : UUID
  versionId : UUID

namespace Draft

def key (d : Draft) : PyStr := sourceObjectKey d.upload.tenantId d.documentId d.upload.filename

def externalId (d : Draft) : PyStr := orDefault d.upload.sourceExternalId d.documentId.str

def mimeType (d : Draft) : PyStr := orDefault d.upload.contentType (py "application/octet-stream")

def title (d : Draft) : PyStr := orDefault d.upload.title d.upload.filename

end Draft

inductive Response
  | created (documentId versionId eventId : UUID) (sourceObjectUri : PyStr)
  | error (status : ℕ) (detail : PyStr)

def conflict : Response :=
  .error 409 (py "A document with this source_external_id already exists for the tenant.")
def storageUnavailable : Response := .error 503 (py "Source object storage is unavailable.")
def internalError : Response := .error 500 (py "Internal server error.")

/-- Where a request stands in `submit_document`. -/
inductive Phase
  | waiting
  | uploading (draft : Draft)
  | persisting (draft : Draft)
  | compensating (draft : Draft) (response : Response)
  | refused (response : Response)
  | answered (draft : Draft) (response : Response)
  | abandoned

/-- The draft of a request that may still touch its object. -/
def Phase.live : Phase → Option Draft
  | .uploading d => some d
  | .persisting d => some d
  | .compensating d _ => some d
  | _ => none

structure State where
  source : PyStr → Option StoredObject
  db : Db
  request : ℕ → Phase

def State.setRequest (s : State) (r : ℕ) (x : Phase) : State :=
  { s with request := Function.update s.request r x }

@[simp] lemma State.setRequest_request (s : State) (r : ℕ) (x : Phase) :
    (s.setRequest r x).request r=x := by simp [State.setRequest]

def State.setObject (s : State) (key : PyStr) (o : Option StoredObject) : State :=
  { s with source := Function.update s.source key o }

inductive Action
  /-- The request arrives, its upload is read and its UUIDs are drawn. -/
  | receive (r : ℕ) (upload : Upload) (documentId versionId : UUID)
  | put (r : ℕ) (fault : Fault)
  /-- The event is built and `create_submission` is called. -/
  | persist (r : ℕ) (eventId : UUID) (occurredAt : PyStr) (outboxId : UUID) (now : Time) (fault : Fault)
  | delete (r : ℕ) (fault : Fault)
  /-- The request is cancelled or its process is killed. -/
  | abandon (r : ℕ)

section
variable (sha256 : Bytes → Digest) (bucket : BucketName) (maxUploadBytes : ℕ)

/-- The object a draft's upload stores. -/
def Draft.object (d : Draft) : StoredObject :=
  ⟨d.content,d.mimeType,hexdigest (sha256 d.content)⟩

/-- The call of `create_submission` for a draft. -/
def Draft.submission (d : Draft) (eventId : UUID) (occurredAt : PyStr) (outboxId : UUID)
    (now : Time) : Db → Except PyError Db :=
  let uri := objectUri bucket d.key
  createSubmission d.upload.tenantId d.documentId d.versionId d.externalId (some d.title)
    d.upload.classification (hexdigest (sha256 d.content)) uri d.mimeType d.content.length eventId
    (buildDocumentSubmittedEvent eventId occurredAt d.upload.tenantId d.documentId uri none)
    outboxId now

/-- The rows a committed submission of a draft adds. -/
def Draft.document (d : Draft) (now : Time) : Document :=
  { newDocument d.upload.tenantId d.documentId d.externalId (some d.title) d.upload.classification
      now with
    currentVersionId := some d.versionId }

def Draft.version (d : Draft) (now : Time) : DocumentVersion :=
  newVersion d.upload.tenantId d.documentId d.versionId (hexdigest (sha256 d.content))
    (objectUri bucket d.key) d.mimeType d.content.length now

def Draft.event (d : Draft) (eventId : UUID) (occurredAt : PyStr) : OutboxEvent :=
  submittedEvent d.upload.tenantId d.documentId eventId
    (buildDocumentSubmittedEvent eventId occurredAt d.upload.tenantId d.documentId
      (objectUri bucket d.key) none)

theorem Draft.submission_eq_ok {d : Draft} {eventId : UUID} {occurredAt : PyStr} {outboxId : UUID}
    {now : Time} {before after : Db}
    (h : d.submission sha256 bucket eventId occurredAt outboxId now before=.ok after) :
    (d.upload.tenantId ∈ before.tenants ∧ (∀ x ∈ before.documents, x.id≠d.documentId) ∧
      (∀ x ∈ before.versions, x.id≠d.versionId) ∧
      ∀ x ∈ before.outbox, x.id≠outboxId ∧
        ¬(x.event.tenantId=d.upload.tenantId ∧ x.event.eventId=eventId)) ∧
    after={ before with
      documents := before.documents ++ [d.document now]
      versions := before.versions ++ [d.version sha256 bucket now]
      outbox := before.outbox ++ [.inserted outboxId (d.event bucket eventId occurredAt) now] } := by
  obtain ⟨⟨ht,hd,hv,ho⟩,hafter⟩ := createSubmission_eq_ok h
  exact ⟨⟨ht,hd,fun x hx => (hv x hx).1,ho⟩,hafter⟩

def step (s : State) : Action → Option State
  | .receive r upload documentId versionId =>
    match s.request r with
    | .waiting =>
      if upload.filename=[] then
        some (s.setRequest r (.refused (.error 422 (py "A filename is required."))))
      else
        match spool maxUploadBytes upload.reads [] with
        | none => some (s.setRequest r (.refused (.error 413
            (py "Upload exceeds the configured maximum of " ++ py (toString maxUploadBytes) ++
              py " bytes."))))
        | some content => some (s.setRequest r (.uploading ⟨upload,content,documentId,versionId⟩))
    | _ => none
  | .put r fault =>
    match s.request r with
    | .uploading d =>
      match fault with
      | .before => some (s.setRequest r (.answered d storageUnavailable))
      | .after => some ((s.setObject d.key (some (d.object sha256))).setRequest r
          (.answered d storageUnavailable))
      | .none => some ((s.setObject d.key (some (d.object sha256))).setRequest r (.persisting d))
    | _ => none
  | .persist r eventId occurredAt outboxId now fault =>
    match s.request r with
    | .persisting d =>
      match fault, d.submission sha256 bucket eventId occurredAt outboxId now s.db with
      | .before, _ => some (s.setRequest r (.compensating d internalError))
      | _, .error .integrityError => some (s.setRequest r (.compensating d conflict))
      | _, .error _ => some (s.setRequest r (.compensating d internalError))
      | .after, .ok db => some ({ s with db := db }.setRequest r (.compensating d internalError))
      | .none, .ok db => some ({ s with db := db }.setRequest r (.answered d
          (.created d.documentId d.versionId eventId (objectUri bucket d.key))))
    | _ => none
  | .delete r fault =>
    match s.request r with
    | .compensating d response =>
      match fault with
      | .before => some (s.setRequest r (.answered d internalError))
      | .after => some ((s.setObject d.key none).setRequest r (.answered d internalError))
      | .none => some ((s.setObject d.key none).setRequest r (.answered d response))
    | _ => none
  | .abandon r => some (s.setRequest r .abandoned)

/-- No request has arrived and no version is recorded. -/
def Initial (s : State) : Prop := s.db.versions=[] ∧ ∀ r, s.request r=.waiting

def system : System State Action := ⟨Initial,step sha256 bucket maxUploadBytes⟩

/-- What each action can do: one case for each way through the code. -/
inductive Transition (s : State) : Action → State → Prop
  | refuse {r upload documentId versionId response} (h : s.request r=.waiting) :
      Transition s (.receive r upload documentId versionId) (s.setRequest r (.refused response))
  | receive {r upload documentId versionId content} (h : s.request r=.waiting)
      (hname : upload.filename≠[]) (hs : spool maxUploadBytes upload.reads []=some content) :
      Transition s (.receive r upload documentId versionId)
        (s.setRequest r (.uploading ⟨upload,content,documentId,versionId⟩))
  | putFails {r d} (h : s.request r=.uploading d) :
      Transition s (.put r .before) (s.setRequest r (.answered d storageUnavailable))
  | putLost {r d} (h : s.request r=.uploading d) :
      Transition s (.put r .after) ((s.setObject d.key (some (d.object sha256))).setRequest r
        (.answered d storageUnavailable))
  | put {r d} (h : s.request r=.uploading d) :
      Transition s (.put r .none) ((s.setObject d.key (some (d.object sha256))).setRequest r
        (.persisting d))
  | persistFails {r d eventId occurredAt outboxId now fault response} (h : s.request r=.persisting d) :
      Transition s (.persist r eventId occurredAt outboxId now fault)
        (s.setRequest r (.compensating d response))
  | persistLost {r d eventId occurredAt outboxId now db} (h : s.request r=.persisting d)
      (hdb : d.submission sha256 bucket eventId occurredAt outboxId now s.db=.ok db) :
      Transition s (.persist r eventId occurredAt outboxId now .after)
        ({ s with db := db }.setRequest r (.compensating d internalError))
  | persist {r d eventId occurredAt outboxId now db} (h : s.request r=.persisting d)
      (hdb : d.submission sha256 bucket eventId occurredAt outboxId now s.db=.ok db) :
      Transition s (.persist r eventId occurredAt outboxId now .none)
        ({ s with db := db }.setRequest r (.answered d
          (.created d.documentId d.versionId eventId (objectUri bucket d.key))))
  | deleteFails {r d response} (h : s.request r=.compensating d response) :
      Transition s (.delete r .before) (s.setRequest r (.answered d internalError))
  | delete {r d response fault answer} (h : s.request r=.compensating d response)
      (hf : fault≠.before) :
      Transition s (.delete r fault) ((s.setObject d.key none).setRequest r (.answered d answer))
  | abandon {r} : Transition s (.abandon r) (s.setRequest r .abandoned)

theorem transition_of_step {s t : State} {a : Action} (h : step sha256 bucket maxUploadBytes s a=some t) :
    Transition sha256 bucket maxUploadBytes s a t := by
  cases a with
  | receive r upload documentId versionId =>
    simp only [step] at h
    split at h
    · rename_i hr
      split at h
      · cases h; exact .refuse hr
      · split at h
        · cases h; exact .refuse hr
        · cases h; exact .receive hr ‹_› ‹_›
    · cases h
  | put r fault =>
    simp only [step] at h
    split at h
    · rename_i hr
      cases fault with
      | none => cases h; exact .put hr
      | before => cases h; exact .putFails hr
      | after => cases h; exact .putLost hr
    · cases h
  | persist r eventId occurredAt outboxId now fault =>
    simp only [step] at h
    split at h
    · rename_i hr
      split at h
      · cases h; exact .persistFails hr
      · cases h; exact .persistFails hr
      · cases h; exact .persistFails hr
      · cases h; exact .persistLost hr ‹_›
      · cases h; exact .persist hr ‹_›
    · cases h
  | delete r fault =>
    simp only [step] at h
    split at h
    · rename_i hr
      cases fault with
      | none => cases h; exact .delete hr (by simp)
      | before => cases h; exact .deleteFails hr
      | after => cases h; exact .delete hr (by simp)
    · cases h
  | abandon r => cases h; exact .abandon

end
end RagIngestion.Submission
