import RagIngestion.Submission.Retries
import RagIngestion.Fetcher.Repository
import RagIngestion.Extractor.Extract

/-! What the API accepts of an upload and what the later stages make of it: three separately
written loops that count, hash and bound the same bytes. -/
namespace RagIngestion.Submission
open RagIngestion.Python RagIngestion.Domain RagIngestion.Database RagIngestion.Storage
open RagIngestion.Library

/-- The bytes of the reads up to the first empty one. -/
def Upload.content (upload : Upload) : Bytes := (upload.reads.takeWhile (fun c => c≠[])).flatten

/-- The upload loop returns all of the content, exactly when it is within the limit. -/
theorem spool_eq_some_iff {maxUploadBytes : ℕ} {reads : List Bytes} {buffered content : Bytes}
    (hbuffered : buffered.length ≤ maxUploadBytes) :
    spool maxUploadBytes reads buffered=some content ↔
      content=buffered ++ (reads.takeWhile (fun c => c≠[])).flatten ∧
        content.length ≤ maxUploadBytes := by
  induction reads generalizing buffered with
  | nil =>
    simp only [spool,List.takeWhile_nil,List.flatten_nil,List.append_nil,Option.some.injEq]
    exact ⟨fun h => ⟨h.symm,h ▸ hbuffered⟩,fun h => h.1.symm⟩
  | cons chunk reads ih =>
    rw [spool]
    by_cases hchunk : chunk=[]
    · have htake : (chunk::reads).takeWhile (fun c => c≠[])=[] := by simp [hchunk]
      rw [if_pos hchunk,htake,List.flatten_nil,List.append_nil,Option.some.injEq]
      exact ⟨fun h => ⟨h.symm,h ▸ hbuffered⟩,fun h => h.1.symm⟩
    · have htake : (chunk::reads).takeWhile (fun c => c≠[])=
          chunk::reads.takeWhile (fun c => c≠[]) := by simp [hchunk]
      rw [if_neg hchunk,htake,List.flatten_cons]
      by_cases htoo : maxUploadBytes<buffered.length+chunk.length
      · rw [if_pos htoo]
        constructor
        · intro h
          cases h
        · rintro ⟨rfl,h⟩
          simp only [List.length_append] at h
          omega
      · have hnext : (buffered ++ chunk).length ≤ maxUploadBytes := by
          rw [List.length_append]
          omega
        rw [if_neg htoo,ih hnext,List.append_assoc]

/-- `str.isdigit` of one character of a header, which is Latin-1 text. -/
def isHeaderDigit (c : UInt8) : Bool :=
  decide ((48 ≤ c.toNat ∧ c.toNat ≤ 57) ∨ c=0xB2 ∨ c=0xB3 ∨ c=0xB9)

/-- `int(text)` where `text.isdigit()`; superscripts and more than 4300 digits raise. -/
def headerInt (header : Bytes) : Option ℕ :=
  if header.any (fun c => decide (57<c.toNat)) ∨ 4300<header.length then none
  else some (header.foldl (fun n c => 10*n+(c.toNat-48)) 0)

/-- The check of `record_response_metrics` on a POST to `/v1/documents`. -/
def checkContentLength (maxUploadBytes : ℕ) : Option Bytes → Option Response
  | none => none
  | some header =>
    if header≠[] ∧ header.all isHeaderDigit=true then
      match headerInt header with
      | none => some internalError
      | some n =>
        if maxUploadBytes<n then
          some (.error 413 (py "Upload exceeds the configured maximum of " ++
            py (toString maxUploadBytes) ++ py " bytes."))
        else none
    else none

section
variable (sha256 : Bytes → Digest) (bucket : BucketName) (maxUploadBytes : ℕ)
variable (contentLength : ℕ → Option Bytes)

/-- `submit_document` behind the middleware; `contentLength` are the headers of the requests. -/
def apiStep (s : State) : Action → Option State
  | .receive r upload documentId versionId =>
    match s.request r, checkContentLength maxUploadBytes (contentLength r) with
    | .waiting, some response => some (s.setRequest r (.refused response))
    | _, _ => step sha256 bucket maxUploadBytes s (.receive r upload documentId versionId)
  | .put r fault => step sha256 bucket maxUploadBytes s (.put r fault)
  | .persist r eventId occurredAt outboxId now fault =>
    step sha256 bucket maxUploadBytes s (.persist r eventId occurredAt outboxId now fault)
  | .delete r fault => step sha256 bucket maxUploadBytes s (.delete r fault)
  | .abandon r => step sha256 bucket maxUploadBytes s (.abandon r)

def api : System State Action := ⟨Initial,apiStep sha256 bucket maxUploadBytes contentLength⟩

variable {sha256 bucket maxUploadBytes contentLength}

/-- The middleware adds no way through `submit_document`. -/
theorem transition_of_apiStep {s t : State} {a : Action}
    (h : apiStep sha256 bucket maxUploadBytes contentLength s a=some t) :
    Transition sha256 bucket maxUploadBytes s a t := by
  cases a with
  | receive r upload documentId versionId =>
    simp only [apiStep] at h
    split at h
    · cases h; exact .refuse ‹_›
    · exact transition_of_step _ _ _ h
  | put => exact transition_of_step _ _ _ h
  | persist => exact transition_of_step _ _ _ h
  | delete => exact transition_of_step _ _ _ h
  | abandon => exact transition_of_step _ _ _ h

/-- A draft that holds all of its upload, within the limit. -/
structure Draft.Whole (maxUploadBytes : ℕ) (d : Draft) : Prop where
  content : d.content=d.upload.content
  fits : d.upload.content.length ≤ maxUploadBytes

/-- A draft is made when its upload was read, and stays until its request is cancelled. -/
theorem Transition.draft {s t : State} {a : Action}
    (h : Transition sha256 bucket maxUploadBytes s a t) (q : ℕ) :
    (∀ d, (s.request q).draft=some d → (t.request q).draft=some d ∨ t.request q=.abandoned) ∧
    ∀ d, (t.request q).draft=some d → (s.request q).draft=some d ∨ d.Whole maxUploadBytes := by
  have hmove : ∀ {u : State} {r : ℕ} {x : Phase}, u.request=s.request →
      ((s.request r).draft=x.draft ∨ x=.abandoned ∨
        (s.request r).draft=none ∧ ∀ d, x.draft=some d → d.Whole maxUploadBytes) →
      (∀ d, (s.request q).draft=some d → ((u.setRequest r x).request q).draft=some d ∨
        (u.setRequest r x).request q=.abandoned) ∧
      ∀ d, ((u.setRequest r x).request q).draft=some d →
        (s.request q).draft=some d ∨ d.Whole maxUploadBytes := by
    intro u r x hu hx
    by_cases hq : q=r
    · subst hq
      have hself : (u.setRequest q x).request q=x := State.setRequest_request u q x
      rw [hself]
      rcases hx with hx | rfl | ⟨hnone,hwhole⟩
      · rw [hx]
        exact ⟨fun d hd => .inl hd,fun d hd => .inl hd⟩
      · refine ⟨fun d _ => .inr rfl,?_⟩
        intro d hd
        cases hd
      · rw [hnone]
        refine ⟨?_,fun d hd => .inr (hwhole d hd)⟩
        intro d hd
        cases hd
    · have hother : (u.setRequest r x).request q=s.request q := by simp [State.setRequest,hq,hu]
      rw [hother]
      exact ⟨fun d hd => .inl hd,fun d hd => .inl hd⟩
  cases h with
  | refuse h => exact hmove rfl (.inl (by rw [h]; rfl))
  | receive h hname hs =>
    refine hmove rfl (.inr (.inr ⟨by rw [h]; rfl,?_⟩))
    intro d hd
    cases hd
    obtain ⟨hcontent,hfits⟩ := (spool_eq_some_iff (Nat.zero_le _)).mp hs
    exact ⟨hcontent,hcontent ▸ hfits⟩
  | putFails h => exact hmove rfl (.inl (by rw [h]; rfl))
  | putLost h => exact hmove rfl (.inl (by rw [h]; rfl))
  | put h => exact hmove rfl (.inl (by rw [h]; rfl))
  | persistFails h => exact hmove rfl (.inl (by rw [h]; rfl))
  | persistLost h hdb => exact hmove rfl (.inl (by rw [h]; rfl))
  | persist h hdb => exact hmove rfl (.inl (by rw [h]; rfl))
  | deleteFails h => exact hmove rfl (.inl (by rw [h]; rfl))
  | delete h hf => exact hmove rfl (.inl (by rw [h]; rfl))
  | abandon => exact hmove rfl (.inr (.inl rfl))

/-- Objects and rows only come from a draft: an upload puts its object, and a request that had
put its object writes its rows. -/
theorem Transition.written {s t : State} {a : Action}
    (h : Transition sha256 bucket maxUploadBytes s a t) :
    (∀ key o, t.source key=some o → s.source key≠some o → ∃ r d fault, a=.put r fault ∧
      s.request r=.uploading d ∧ key=d.key ∧ o=d.object sha256) ∧
    (t.db≠s.db → ∃ r d eventId occurredAt outboxId now fault,
      a=.persist r eventId occurredAt outboxId now fault ∧ s.request r=.persisting d ∧
      t.db={ s.db with
        documents := s.db.documents ++ [d.document now]
        versions := s.db.versions ++ [d.version sha256 bucket now]
        outbox := s.db.outbox ++ [.inserted outboxId (d.event bucket eventId occurredAt) now] }) := by
  have hput : ∀ {r d fault} {x : Phase}, s.request r=.uploading d → ∀ key o,
      ((s.setObject d.key (some (d.object sha256))).setRequest r x).source key=some o →
      s.source key≠some o → ∃ r' d' fault', Action.put r fault=.put r' fault' ∧
        s.request r'=.uploading d' ∧ key=d'.key ∧ o=d'.object sha256 := by
    intro r d fault x hr key o ho hne
    by_cases hkey : key=d.key
    · have hself : ((s.setObject d.key (some (d.object sha256))).setRequest r x).source d.key=
          some (d.object sha256) := by simp [State.setRequest,State.setObject]
      rw [hkey,hself] at ho
      exact ⟨r,d,fault,rfl,hr,hkey,(Option.some.inj ho).symm⟩
    · simp only [State.setRequest,State.setObject,Function.update_of_ne hkey] at ho
      exact absurd ho hne
  cases h with
  | putLost h => exact ⟨hput h,fun hdb => absurd rfl hdb⟩
  | put h => exact ⟨hput h,fun hdb => absurd rfl hdb⟩
  | @persistLost r d eventId occurredAt outboxId now db h hdb =>
    have hafter := (Draft.submission_eq_ok _ _ hdb).2
    exact ⟨fun key o ho hne => absurd ho hne,
      fun _ => ⟨r,d,eventId,occurredAt,outboxId,now,.after,rfl,h,hafter⟩⟩
  | @persist r d eventId occurredAt outboxId now db h hdb =>
    have hafter := (Draft.submission_eq_ok _ _ hdb).2
    exact ⟨fun key o ho hne => absurd ho hne,
      fun _ => ⟨r,d,eventId,occurredAt,outboxId,now,.none,rfl,h,hafter⟩⟩
  | @delete r d response fault answer h hf =>
    refine ⟨?_,fun hdb => absurd rfl hdb⟩
    intro key o ho hne
    by_cases hkey : key=d.key
    · rw [hkey] at ho
      simp [State.setRequest,State.setObject] at ho
    · simp only [State.setRequest,State.setObject,Function.update_of_ne hkey] at ho
      exact absurd ho hne
  | _ => exact ⟨fun key o ho hne => absurd ho hne,fun hdb => absurd rfl hdb⟩

/-- A request that is about to write its rows has put its object. -/
theorem uploaded {history : List (State × Action)} {s : State}
    (h : (api sha256 bucket maxUploadBytes contentLength).Traced history s) :
    ∀ r d, s.request r=.persisting d →
      ∃ u, (u,Action.put r .none) ∈ history ∧ u.request r=.uploading d := by
  refine System.Traced.invariant (I := fun history s => ∀ r d, s.request r=.persisting d →
    ∃ u, (u,Action.put r .none) ∈ history ∧ u.request r=.uploading d) ?_ ?_ h
  · intro s hs r d hr
    simp [hs.2 r] at hr
  · intro history s a t ih ha r d hr
    have hpast : s.request r=.persisting d →
        ∃ u, (u,Action.put r .none) ∈ history ++ [(s,a)] ∧ u.request r=.uploading d := by
      intro hs
      obtain ⟨u,hu,hup⟩ := ih r d hs
      exact ⟨u,List.mem_append_left _ hu,hup⟩
    have hmove : ∀ {u : State} {q : ℕ} {x : Phase}, u.request=s.request →
        (u.setRequest q x).request r=.persisting d →
        s.request r=.persisting d ∨ q=r ∧ x=.persisting d := by
      intro u q x hu hr
      by_cases hq : r=q
      · subst hq
        exact .inr ⟨rfl,by simpa [State.setRequest] using hr⟩
      · exact .inl (by simpa [State.setRequest,hq,hu] using hr)
    cases transition_of_apiStep ha with
    | put h =>
      rcases hmove rfl hr with hs | ⟨rfl,hd⟩
      · exact hpast hs
      · cases hd
        exact ⟨s,by simp,h⟩
    | _ =>
      rcases hmove rfl hr with hs | ⟨rfl,hd⟩
      · exact hpast hs
      · cases hd

/-- Every draft holds all of its upload, within the limit. -/
theorem drafts_whole {s : State}
    (h : (api sha256 bucket maxUploadBytes contentLength).Reachable s) :
    ∀ r d, (s.request r).draft=some d → d.Whole maxUploadBytes := by
  refine System.Reachable.invariant (I := fun s => ∀ r d, (s.request r).draft=some d →
    d.Whole maxUploadBytes) ?_ ?_ h
  · intro s hs r d hr
    simp [hs.2 r,Phase.draft,Phase.live] at hr
  · intro s a t hs ha r d hr
    cases ((transition_of_apiStep ha).draft r).2 d hr with
    | inl hold => exact hs r d hold
    | inr hnew => exact hnew

/-- An inspection that is no complaint about the size or the checksum of a version. -/
def InspectionPasses (v : DocumentVersion) :
    Except Fetcher.Raised Fetcher.SourceInspection → Prop
  | .ok inspection => inspection.contentSha256=v.contentSha256 ∧ inspection.byteSize=v.byteSize ∧
      ∀ e, Fetcher.verdict v (some inspection) none=some e → e.code≠py "source_checksum_mismatch"
  | .error (.validation error) => error.code≠py "document_too_large" ∧
      ∀ e, Fetcher.verdict v none (some error)=some e → e.code≠py "source_checksum_mismatch"
  | .error (.other _) => True

/-- An extraction that is no complaint about the size or the checksum. -/
def ExtractionPasses : Except Extractor.Raised Extractor.ExtractionResult → Prop
  | .error (.extraction error) => error.code≠py "source_too_large" ∧
      error.code≠py "source_checksum_mismatch"
  | _ => True

variable (sha256 bucket maxUploadBytes)

/-- The object and the version of a draft describe the content of its upload, which is within the
limit, and a stage whose own limit is no smaller has no complaint about a faithful copy of it. -/
structure Draft.Accepted (d : Draft) : Prop where
  fits : d.upload.content.length ≤ maxUploadBytes
  body : (d.object sha256).body=d.upload.content
  metadata : (d.object sha256).sha256=hexdigest (sha256 d.upload.content)
  contentSha256 : ∀ now, (d.version sha256 bucket now).contentSha256=hexdigest (sha256 d.upload.content)
  byteSize : ∀ now, (d.version sha256 bucket now).byteSize=d.upload.content.length
  inspected : ∀ {σ : Type} {read : Reader σ} {remaining : σ → Bytes} {source : σ}
    (_ : Lawful read remaining) (_ : remaining source=(d.object sha256).body)
    (pdfReader : Bytes → Fetcher.PdfAnswer) (declaredMimeType : Option PyStr)
    (maxDocumentBytes : ℕ) (now : Time), maxUploadBytes ≤ maxDocumentBytes →
    InspectionPasses (d.version sha256 bucket now)
      (Fetcher.inspectPdf sha256 pdfReader read source declaredMimeType maxDocumentBytes)
  extracted : ∀ {σ : Type} {read : Reader σ} {remaining : σ → Bytes} {source : σ}
    (_ : Lawful read remaining) (_ : remaining source=(d.object sha256).body)
    (rt : Extractor.Runtime) (_ : rt.sha256=sha256) (answer : Bytes → Extractor.DoclingAnswer)
    (maxBytes : ℕ) (now : Time), maxUploadBytes ≤ maxBytes →
    ExtractionPasses (Extractor.extractPdf rt read source maxBytes
      (d.version sha256 bucket now).contentSha256 (fun content => Extractor.doclingConvert (answer content)))

variable {sha256 bucket maxUploadBytes}

/-- An inspection of all the bytes a version describes. -/
theorem inspection_passes {v : DocumentVersion} {σ : Type} {read : Reader σ} {remaining : σ → Bytes}
    {source : σ} (hlaw : Lawful read remaining)
    (hsha : v.contentSha256=hexdigest (sha256 (remaining source)))
    (hsize : v.byteSize=(remaining source).length) (pdfReader : Bytes → Fetcher.PdfAnswer)
    (declaredMimeType : Option PyStr) {maxDocumentBytes : ℕ}
    (hfits : (remaining source).length ≤ maxDocumentBytes) :
    InspectionPasses v
      (Fetcher.inspectPdf sha256 pdfReader read source declaredMimeType maxDocumentBytes) := by
  obtain ⟨count,hok⟩ | ⟨e,he,herror⟩ | ⟨e,-,hother⟩ :=
    Fetcher.inspectPdf_of_fits sha256 pdfReader hlaw declaredMimeType hfits
  · simp only [hok,InspectionPasses,Fetcher.sourceInspection,hsha,hsize,true_and]
    intro e he
    simp only [Fetcher.verdict,hsha,ne_eq,not_true_eq_false,if_false] at he
    split at he
    · cases he
      decide
    · cases he
  · rw [herror]
    simp only [List.mem_cons,List.not_mem_nil,or_false] at he
    refine ⟨?_,?_⟩
    · rcases he with rfl | rfl | rfl | rfl <;> decide
    · intro e' he'
      cases he'
      rcases he with rfl | rfl | rfl | rfl <;> decide
  · rw [hother]
    trivial

/-- An extraction of bytes with the expected hash. -/
theorem extraction_passes {rt : Extractor.Runtime} {σ : Type} {read : Reader σ}
    {remaining : σ → Bytes} {source : σ} (hlaw : Lawful read remaining) {expectedSha256 : PyStr}
    (hsha : expectedSha256=hexdigest (rt.sha256 (remaining source)))
    (answer : Bytes → Extractor.DoclingAnswer) {maxBytes : ℕ}
    (hfits : (remaining source).length ≤ maxBytes) :
    ExtractionPasses (Extractor.extractPdf rt read source maxBytes expectedSha256
      (fun content => Extractor.doclingConvert (answer content))) := by
  generalize hresult : Extractor.extractPdf rt read source maxBytes expectedSha256 _=result
  cases result with
  | ok => trivial
  | error raised =>
    cases raised with
    | other => trivial
    | extraction e =>
      have hread := Extractor.readSource_of_fits hlaw
        (show ([] : Bytes).length+_ ≤ maxBytes by simpa using hfits)
      obtain herror | ⟨content,hcontent,h⟩ := Extractor.extractPdf_eq_extraction hresult
      · rw [hread] at herror
        cases herror
      · rw [hread,List.nil_append] at hcontent
        cases hcontent
        obtain rfl | hconvert | ⟨-,hne⟩ := h
        · exact ⟨by decide,by decide⟩
        · obtain rfl | rfl := Extractor.doclingConvert_eq_extraction hconvert
          · exact ⟨by decide,by decide⟩
          · exact ⟨by decide,by decide⟩
        · exact absurd hsha.symm hne

/-- A whole draft is accepted by every later stage. -/
theorem Draft.Whole.accepted {d : Draft} (h : d.Whole maxUploadBytes) :
    d.Accepted sha256 bucket maxUploadBytes := by
  have hbody : (d.object sha256).body=d.upload.content := h.content
  have hsha : ∀ now, (d.version sha256 bucket now).contentSha256=hexdigest (sha256 d.upload.content) := by
    intro now
    simp only [Draft.version,newVersion,h.content]
  have hsize : ∀ now, (d.version sha256 bucket now).byteSize=d.upload.content.length := by
    intro now
    simp only [Draft.version,newVersion,h.content]
  refine ⟨h.fits,hbody,by simp only [Draft.object,h.content],hsha,hsize,?_,?_⟩
  · intro σ read remaining source hlaw hsource pdfReader declaredMimeType maxDocumentBytes now hmax
    rw [hbody] at hsource
    exact inspection_passes hlaw (hsource ▸ hsha now) (hsource ▸ hsize now) pdfReader declaredMimeType
      (hsource ▸ h.fits.trans hmax)
  · intro σ read remaining source hlaw hsource rt hrt answer maxBytes now hmax
    rw [hbody] at hsource
    have hsha := hsha now
    rw [← hsource,← hrt] at hsha
    exact extraction_passes hlaw (hrt ▸ hsha) answer (hsource ▸ h.fits.trans hmax)

/-- Objects are put and rows are written only for uploads within the limit, whatever the reads and
the headers are; a request's object and rows describe the same content, and with limits no smaller
than the API's no later stage refuses it for its size or its checksum. -/
theorem accepted_upload_never_refused {history : List (State × Action)} {s t : State} {a : Action}
    (hs : (api sha256 bucket maxUploadBytes contentLength).Traced history s)
    (ha : apiStep sha256 bucket maxUploadBytes contentLength s a=some t) :
    (∀ key o, t.source key=some o → s.source key≠some o → ∃ r d fault, a=.put r fault ∧
      s.request r=.uploading d ∧ key=d.key ∧ o=d.object sha256 ∧
      d.Accepted sha256 bucket maxUploadBytes) ∧
    (t.db≠s.db → ∃ r d eventId occurredAt outboxId now fault,
      a=.persist r eventId occurredAt outboxId now fault ∧ s.request r=.persisting d ∧
      (∃ u, (u,Action.put r .none) ∈ history ∧ u.request r=.uploading d) ∧
      t.db={ s.db with
        documents := s.db.documents ++ [d.document now]
        versions := s.db.versions ++ [d.version sha256 bucket now]
        outbox := s.db.outbox ++ [.inserted outboxId (d.event bucket eventId occurredAt) now] } ∧
      d.Accepted sha256 bucket maxUploadBytes) ∧
    ∀ r d, (s.request r).draft=some d → (t.request r).draft=some d ∨ t.request r=.abandoned := by
  have hstep := transition_of_apiStep ha
  have hwhole := drafts_whole hs.reachable
  obtain ⟨hobjects,hrows⟩ := hstep.written
  refine ⟨?_,?_,fun r => (hstep.draft r).1⟩
  · intro key o ho hne
    obtain ⟨r,d,fault,rfl,hr,hkey,hobject⟩ := hobjects key o ho hne
    exact ⟨r,d,fault,rfl,hr,hkey,hobject,(hwhole r d (by rw [hr]; rfl)).accepted⟩
  · intro hdb
    obtain ⟨r,d,eventId,occurredAt,outboxId,now,fault,rfl,hr,hafter⟩ := hrows hdb
    exact ⟨r,d,eventId,occurredAt,outboxId,now,fault,rfl,hr,uploaded hs r d hr,hafter,
      (hwhole r d (by rw [hr]; rfl)).accepted⟩

end

/-- Five bytes under a limit of five, announced by a true header. -/
theorem upload_at_limit_never_refused : ∃ history s t, ∃ d : Draft,
    (api plainSha256 minioSourceBucket 5 (fun _ => some [53])).Traced history s ∧
    apiStep plainSha256 minioSourceBucket 5 (fun _ => some [53]) s (.persist 0 ⟨4⟩ [] ⟨5⟩ 0 .none)=
      some t ∧ t.db≠s.db ∧ d.upload=retriedUpload ∧ d.Accepted plainSha256 minioSourceBucket 5 := by
  let S := api plainSha256 minioSourceBucket 5 (fun _ => some [53])
  let d : Draft := ⟨retriedUpload,plainSource,⟨2⟩,⟨3⟩⟩
  let first := nothingSubmitted.setRequest 0 (.uploading d)
  let stored := (first.setObject d.key (some (d.object plainSha256))).setRequest 0 (.persisting d)
  have hreceive : S.step nothingSubmitted (.receive 0 retriedUpload ⟨2⟩ ⟨3⟩)=some first := rfl
  have hput : S.step first (.put 0 .none)=some stored := rfl
  have htraced : S.Traced _ stored := .next (.next (.start nothingSubmitted_initial) hreceive) hput
  have hrun : (apiStep plainSha256 minioSourceBucket 5 (fun _ => some [53]) stored
      (.persist 0 ⟨4⟩ [] ⟨5⟩ 0 .none)).any (fun t => t.db.versions.length==1)=true := by
    decide +kernel
  obtain ⟨t,ht,hversions⟩ := (Option.any_eq_true _ _).mp hrun
  have hdb : t.db≠stored.db := by
    intro h
    rw [h] at hversions
    cases hversions
  have hstored : stored.request 0=.persisting d := by simp [stored,State.setRequest]
  clear_value stored
  obtain ⟨r,e,_,_,_,_,_,hr,he,-,-,haccepted⟩ := (accepted_upload_never_refused htraced ht).2.1 hdb
  obtain ⟨rfl,-⟩ := Action.persist.inj hr
  rw [hstored] at he
  cases Phase.persisting.inj he
  exact ⟨_,stored,t,d,htraced,ht,hdb,rfl,haccepted⟩

end RagIngestion.Submission
