import RagIngestion.Fetcher.Handling
import RagIngestion.Submission.Conflicts

/-! The verdict of a whole fetcher call on an event that names one version: which sources are
fetched, and what is recorded of them and of all others. -/
namespace RagIngestion.Fetcher
open RagIngestion.Python RagIngestion.Domain RagIngestion.Database RagIngestion.Storage
open RagIngestion.Library
namespace Call

/-- A new event of one current version, whose source has these bytes. -/
structure Matched (c : Call) (v : DocumentVersion) (content : Bytes) : Prop where
  names : Names c.payload c.ids
  constraints : c.db.Constraints
  unprocessed : c.claim ∉ c.db.processedEvents
  drawn : ∀ x ∈ c.db.outbox, x.id≠c.draws.outboxId ∧
    ¬(x.event.tenantId=c.ids.tenantId ∧ x.event.eventId=c.draws.eventId)
  version : matchingVersions c.ids.tenantId c.ids.documentId c.payload.payloadUri c.db=[v]
  source : ∃ o, getObject c.bucket c.source c.payload.payloadUri=.ok o ∧ o.body=content
  limit : chunkSize ≤ c.maxDocumentBytes
  read : c.read=readAvailable
  pdfReader : ∀ bytes e, c.pdfReader bytes≠.raises e

/-- What a source must be to be fetched. -/
structure Accepts (c : Call) (v : DocumentVersion) (content : Bytes) : Prop where
  eventType : c.payload.eventType=py "DocumentSubmitted"
  signature : pdfSignature <+: content
  fits : content.length ≤ c.maxDocumentBytes
  opens : ∃ count, c.pdfReader content=.pages count
  hash : hexdigest (c.sha256 content)=v.contentSha256
  mimeType : v.mimeType ∈ permittedMimeTypes

/-- The call has returned and recorded one event, and the version, the document and so many
failures with it. -/
structure Records (c : Call) (v : DocumentVersion) (eventType : PyStr) (inspection : InspectionStatus)
    (document : DocumentStatus) (failures : ℕ) : Prop where
  returned : c.handle.2=.returned c.payload true
  constraints : c.handle.1.Constraints
  event : ∃ row, c.handle.1.outbox=c.db.outbox ++ [row] ∧ row.event.eventType=eventType
  version : ∃ x ∈ c.handle.1.versions, x.id=v.id ∧ x.inspectionStatus=inspection
  document : ∃ d ∈ c.handle.1.documents, d.id=c.ids.documentId ∧ d.status=document
  failures : ∃ more, c.handle.1.failures=c.db.failures ++ more ∧ more.length=failures

def Fetches (c : Call) (v : DocumentVersion) : Prop :=
  c.Records v (py "DocumentFetched") .valid .fetched 0

def Rejects (c : Call) (v : DocumentVersion) : Prop :=
  c.Records v (py "DocumentFetchRejected") .invalid .failed 1

variable {c : Call} {v : DocumentVersion} {content : Bytes}

lemma Matched.mem (h : c.Matched v content) :
    v ∈ c.db.versions ∧ v.tenantId=c.ids.tenantId ∧ v.documentId=c.ids.documentId := by
  have hmem : v ∈ matchingVersions c.ids.tenantId c.ids.documentId c.payload.payloadUri c.db := by
    rw [h.version]
    exact List.mem_singleton_self v
  obtain ⟨hmem,hcond⟩ := List.mem_filter.mp hmem
  have hcond := of_decide_eq_true hcond
  exact ⟨hmem,hcond.1,hcond.2.1⟩

lemma Matched.claimable (h : c.Matched v content) : Claimable c.claim c.draws c.db := by
  obtain ⟨hmem,htenant,-⟩ := h.mem
  refine ⟨?_,h.unprocessed,h.drawn⟩
  change c.ids.tenantId ∈ c.db.tenants
  rw [← htenant]
  exact h.constraints.versionTenants v hmem

/-- The inspection and the error the call gets to `process` with decide as its source does. -/
lemma Matched.handed (h : c.Matched v content) : ∃ inspection error n,
    (inspection.isSome ∨ error.isSome) ∧
    c.handle=follow c.next (n+1) (c.db,.processing c.payload inspection error) ∧
    (verdict v inspection error=none ↔ c.Accepts v content) := by
  by_cases ht : c.payload.eventType=py "DocumentSubmitted"
  · obtain ⟨o,ho,hbody⟩ := h.source
    have hopened : c.next (c.db,.started c.payload)=some (c.db,.opened c.payload content) := by
      simp only [next,action,Option.bind_some,step,ho,hbody,if_neg (not_not.mpr ht)]
    rw [handle,follow_step hopened]
    have hinspected : ∀ i, inspectPdf c.sha256 c.pdfReader c.read content none c.maxDocumentBytes=.ok i ↔
        pdfSignature <+: content ∧ content.length ≤ c.maxDocumentBytes ∧ ∃ count,
          c.pdfReader content=.pages count ∧
            i=sourceInspection c.sha256 none c.maxDocumentBytes content count := by
      intro i
      rw [h.read]
      exact inspectPdf_eq_ok_iff h.limit
    cases hi : inspectPdf c.sha256 c.pdfReader c.read content none c.maxDocumentBytes with
    | ok i =>
      have hnext : c.next (c.db,.opened c.payload content)=
          some (c.db,.processing c.payload (some i) none) := by
        simp only [next,action,Option.bind_some,step,hi]
      rw [follow_step hnext]
      refine ⟨some i,none,0,.inl rfl,rfl,?_⟩
      obtain ⟨hsignature,hfits,count,hpages,rfl⟩ := (hinspected i).mp hi
      rw [verdict_inspected_iff,sourceInspection_contentSha256]
      exact ⟨fun hv => ⟨ht,hsignature,hfits,⟨count,hpages⟩,hv.1,hv.2⟩,fun ha => ⟨ha.hash,ha.mimeType⟩⟩
    | error e =>
      cases e with
      | validation e =>
        have hnext : c.next (c.db,.opened c.payload content)=
            some (c.db,.processing c.payload none (some e)) := by
          simp only [next,action,Option.bind_some,step,hi]
        rw [follow_step hnext]
        refine ⟨none,some e,0,.inr rfl,rfl,iff_of_false ?_ ?_⟩
        · simp [verdict]
        · intro ha
          obtain ⟨count,hpages⟩ := ha.opens
          rw [(hinspected _).mpr ⟨ha.signature,ha.fits,count,hpages,rfl⟩] at hi
          cases hi
      | other e =>
        obtain ⟨bytes,hraises⟩ := inspectPdf_eq_other hi
        exact absurd hraises (h.pdfReader bytes e)
  · have hnext : c.next (c.db,.started c.payload)=
        some (c.db,.processing c.payload none (some unexpectedEventType)) := by
      simp only [next,action,Option.bind_some,step,if_pos ht]
    rw [handle,follow_step hnext]
    refine ⟨none,some unexpectedEventType,1,.inr rfl,rfl,iff_of_false ?_ ?_⟩
    · simp [verdict]
    · intro haccepts
      exact ht haccepts.eventType

/-- What a committed outcome of the call records. -/
lemma Matched.records (h : c.Matched v content) {o : Outcome} {after : Db} {eventType : PyStr}
    {status : DocumentStatus} {update : DocumentVersion → DocumentVersion} {failures : ℕ}
    (hcommit : Committed o c.draws.outboxId c.draws.now c.db after)
    (hend : c.handle=(after,.returned c.payload true)) (hclaim : o.claim=c.claim)
    (hevent : o.event.tenantId=c.ids.tenantId ∧ o.event.eventType=eventType)
    (hstatus : o.status=some (c.ids.documentId,status)) (hversion : o.version=some (v.id,update))
    (hkeeps : Db.Constraints.KeepsVersion update)
    (hfailures : o.failure.toList.length=failures ∧
      ∀ f, o.failure=some f → f.tenantId=c.ids.tenantId ∧ f.documentVersionId=v.id) :
    c.Records v eventType (update v).inspectionStatus status failures := by
  obtain ⟨hmem,htenant,hdocument⟩ := h.mem
  refine ⟨by rw [hend],?_,?_,?_,?_,?_⟩
  · rw [hend]
    refine h.constraints.committed hcommit (hevent.1.trans (congrArg ProcessedEvent.tenantId hclaim).symm) ?_ ?_
    · intro id f hf
      rw [hversion] at hf
      cases hf
      exact hkeeps
    · intro f hf
      obtain ⟨hft,hfv⟩ := hfailures.2 f hf
      rw [hclaim]
      exact ⟨hft,v,hmem,htenant.trans hft.symm,hfv.symm⟩
  · rw [hend,hcommit.result]
    exact ⟨_,rfl,hevent.2⟩
  · rw [hend,hcommit.result]
    refine ⟨(update v).setUpdatedAt o.versionUpdatedAt,?_,hkeeps.id v,rfl⟩
    simp only [Outcome.apply_versions,Outcome.applyVersions,hversion]
    refine mem_updateWhere.mpr ⟨v,hmem,if_pos ?_⟩
    rw [hclaim]
    exact decide_eq_true ⟨htenant,rfl⟩
  · obtain ⟨d,hd,hdtenant,hdid⟩ := h.constraints.versionDocuments v hmem
    rw [hend,hcommit.result]
    refine ⟨{ d with status := status }.setUpdatedAt o.documentUpdatedAt,?_,hdid.trans hdocument,rfl⟩
    simp only [Outcome.apply_documents,Outcome.applyDocuments,hstatus]
    refine mem_updateWhere.mpr ⟨d,hd,if_pos ?_⟩
    rw [hclaim]
    exact decide_eq_true ⟨hdtenant.trans htenant,hdid.trans hdocument⟩
  · rw [hend,hcommit.result]
    refine ⟨o.failure.toList,?_,hfailures.1⟩
    cases hf : o.failure with
    | none => simp [Outcome.apply,Outcome.applyFailures,hf]
    | some f => simp [Outcome.apply,Outcome.applyFailures,hf]

lemma keeps_markValid (detectedMimeType : PyStr) (metadata : Json) :
    Db.Constraints.KeepsVersion (markValid detectedMimeType metadata) :=
  ⟨fun _ => rfl,fun _ => rfl,fun _ => rfl,fun _ => rfl,fun _ => rfl⟩

lemma keeps_markInvalid (error : FetchValidationError) :
    Db.Constraints.KeepsVersion (markInvalid error) :=
  ⟨fun _ => rfl,fun _ => rfl,fun _ => rfl,fun _ => rfl,fun _ => rfl⟩

/-- The call fetches a source that is accepted and rejects every other. -/
lemma Matched.decides (h : c.Matched v content) :
    (c.Accepts v content → c.Fetches v) ∧ (¬c.Accepts v content → c.Rejects v) := by
  obtain ⟨inspection,error,n,hie,hhandle,hverdict⟩ := h.handed
  obtain ⟨o,after,ho,hcommit,hend⟩ := returns_of_unambiguous h.names h.claimable hie
    (by simp [Unambiguous,h.version]) n
  rw [← hhandle] at hend
  cases ho with
  | unknown hv =>
    rw [h.version] at hv
    cases hv
  | invalid hv he =>
    rw [h.version] at hv
    cases hv
    refine ⟨?_,fun _ => ?_⟩
    · intro ha
      rw [hverdict.mpr ha] at he
      cases he
    · refine h.records hcommit hend rfl ⟨rfl,rfl⟩ rfl rfl (keeps_markInvalid _) ⟨rfl,?_⟩
      intro f hf
      cases hf
      exact ⟨rfl,rfl⟩
  | valid hv he hi =>
    rw [h.version] at hv
    cases hv
    refine ⟨fun _ => ?_,fun hnot => absurd (hverdict.mp he) hnot⟩
    exact h.records hcommit hend rfl ⟨rfl,rfl⟩ rfl rfl (keeps_markValid _ _) ⟨rfl,by simp⟩

/-- The two records exclude each other. -/
lemma not_fetches_of_rejects (h : c.Rejects v) : ¬c.Fetches v := by
  intro hfetches
  obtain ⟨row,hrow,htype⟩ := hfetches.event
  obtain ⟨row',hrow',htype'⟩ := h.event
  have hsame := List.append_cancel_left (hrow.symm.trans hrow')
  cases hsame
  exact absurd (htype.symm.trans htype') (by decide)

/-- What a call hands to `process` has an inspection or an error. -/
lemma handed_isSome (c : Call) (n : ℕ) {p : DocumentSubmitted} {inspection : Option SourceInspection}
    {error : Option FetchValidationError}
    (h : (follow c.next n (c.db,.started c.payload)).2=.processing p inspection error) :
    inspection.isSome ∨ error.isSome := by
  have hstep : ∀ s t, (∀ p inspection error, s.2=.processing p inspection error →
      inspection.isSome ∨ error.isSome) → c.next s=some t → ∀ p inspection error,
      t.2=.processing p inspection error → inspection.isSome ∨ error.isSome := by
    rintro ⟨db,task⟩ ⟨after,next⟩ - hnext p inspection error hp
    obtain ⟨a,-,ha⟩ := Option.bind_eq_some_iff.mp hnext
    cases transition_of_step _ _ _ ha with
    | wrongType => cases hp; exact .inr rfl
    | inspected => cases hp; exact .inl rfl
    | invalid => cases hp; exact .inr rfl
    | processed => dsimp only at hp; split at hp <;> cases hp
    | _ => cases hp
  exact follow_invariant hstep n (by simp) p inspection error h

/-- A source is fetched exactly when it is accepted, and every other is rejected with one event and
one failure; the assertion of `process` holds for whatever a call hands it. -/
theorem fetch_verdict_exact (c : Call) (v : DocumentVersion) (content : Bytes)
    (h : c.Matched v content) :
    (c.Fetches v ↔ c.Accepts v content) ∧ (¬c.Accepts v content → c.Rejects v) ∧
      ∀ n p inspection error draws db,
        (follow c.next n (c.db,.started c.payload)).2=.processing p inspection error →
          process p inspection error draws db≠.error .assertionError := by
  obtain ⟨haccepted,hrejected⟩ := h.decides
  refine ⟨?_,hrejected,fun n p inspection error draws db hn =>
    process_ne_assertionError (c.handed_isSome n hn)⟩
  by_cases ha : c.Accepts v content
  · exact iff_of_true (haccepted ha) ha
  · exact iff_of_false (not_fetches_of_rejects (hrejected ha)) ha

/-- The call on the event of the small upload, whose bytes are read as one page. -/
def submittedCall : Call where
  sha256 := plainSha256
  bucket := minioSourceBucket
  maxDocumentBytes := 1048576
  source := fun _ => some ⟨plainSource,py "application/pdf",hexdigest (plainSha256 plainSource)⟩
  read := readAvailable
  pdfReader := fun _ => .pages 1
  draws := ⟨⟨6⟩,[],⟨7⟩,1,1,1⟩
  payload := buildDocumentSubmittedEvent ⟨4⟩ [] ⟨1⟩ ⟨2⟩
    (objectUri minioSourceBucket Submission.smallDraft.key) none
  ids := ⟨⟨1⟩,⟨2⟩,⟨4⟩,⟨4⟩⟩
  db := Submission.submittedDb

lemma submittedCall_matched : submittedCall.Matched
    (Submission.smallDraft.version plainSha256 minioSourceBucket 0) plainSource where
  names := ⟨UUID.ofText_str _,UUID.ofText_str _,UUID.ofText_str _,UUID.ofText_str _⟩
  constraints := Submission.submittedDb_constraints
  unprocessed := List.not_mem_nil
  drawn := by
    intro x hx
    rw [List.mem_singleton.mp hx]
    exact ⟨by decide,by decide⟩
  version := List.filter_cons_of_pos (decide_eq_true ⟨rfl,rfl,rfl,rfl⟩)
  source := by
    have hkey : sourceKeyOf minioSourceBucket submittedCall.payload.payloadUri=
        .ok Submission.smallDraft.key := by decide +kernel
    exact ⟨_,getObject_of_key hkey rfl,rfl⟩
  limit := by decide
  read := rfl
  pdfReader := by
    intro bytes e h
    cases h

theorem small_upload_fetched : submittedCall.Matched
    (Submission.smallDraft.version plainSha256 minioSourceBucket 0) plainSource ∧
    (submittedCall.Fetches (Submission.smallDraft.version plainSha256 minioSourceBucket 0) ↔
      submittedCall.Accepts (Submission.smallDraft.version plainSha256 minioSourceBucket 0) plainSource) :=
  ⟨submittedCall_matched,(fetch_verdict_exact _ _ _ submittedCall_matched).1⟩

end Call
end RagIngestion.Fetcher
