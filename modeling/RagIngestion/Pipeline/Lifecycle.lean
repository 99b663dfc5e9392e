import RagIngestion.Pipeline.Stages
import RagIngestion.Submission.Dangling

/-! Every transaction of a consumer that handles genuine messages moves one document to the next
stage, so that documents only move forward and agree with their versions. -/
namespace RagIngestion.Pipeline
open RagIngestion.Python RagIngestion.Domain RagIngestion.Database RagIngestion.Storage
open RagIngestion.Library

variable {c : Config}

/-- Text that was written from a UUID reads back as that UUID only. -/
lemma ofText_eq {text : PyStr} {u u' : UUID} (h : UUID.ofText text=.ok u) (ht : text=u'.str) :
    u=u' := by
  rw [ht,UUID.ofText_str] at h
  exact (Except.ok.inj h).symm

/-- The document, the version and the stage an event belongs to. -/
theorem Records.locate {db : Db} (h : Records db) {e : OutboxEvent} (he : e ∈ events db) :
    ∃ d ∈ db.documents, ∃ v ∈ db.versions, ∃ s, AtStage (events db) db.processedEvents d v s ∧
      e ∈ history (events db) d.id ∧ Describes d.tenantId d.id v e := by
  obtain ⟨d,hd,hname⟩ := h.concerned e he
  obtain ⟨v,hv,s,hs⟩ := h.staged d hd
  have hin := mem_history.mpr ⟨he,hname⟩
  exact ⟨d,hd,v,hv,s,hs,hin,hs.described e hin⟩

/-- Rejections carry nothing a consumer relies on. -/
theorem Describes.rejection {tenantId documentId : UUID} {v : DocumentVersion} {e : OutboxEvent}
    (ht : e.tenantId=tenantId) (hd : e.payload.documentId=documentId.str)
    (htopic : e.kafkaTopic=(kindOf e.payload).topic)
    (hk : kindOf e.payload=.fetchRejected ∨ kindOf e.payload=.extractionRejected) :
    Describes tenantId documentId v e := by
  refine ⟨ht,hd,htopic,?_,?_,?_⟩
  · intro p hp
    simp [hp,kindOf] at hk
  · intro p hp
    simp [hp,kindOf] at hk
  · intro p hp
    simp [hp,kindOf] at hk

theorem describes_fetched {d : Document} {v : DocumentVersion} {p : DocumentSubmitted}
    {ids : Fetcher.Ids} {i : Fetcher.SourceInspection} {metadata : Json} {draws : Draws}
    (ht : ids.tenantId=d.tenantId) (hd : ids.documentId=d.id) (hi : i.contentSha256=v.contentSha256) :
    Describes d.tenantId d.id v (Fetcher.fetchedEvent p ids v.id i metadata draws) := by
  refine ⟨ht,congrArg UUID.str hd,rfl,?_,?_,?_⟩
  · intro q hq
    exact EventPayload.noConfusion hq
  · intro q hq
    have hq := EventPayload.documentFetched.inj hq
    subst hq
    exact ⟨congrArg UUID.str ht,rfl,rfl,hi⟩
  · intro q hq
    exact EventPayload.noConfusion hq

theorem describes_extracted {d : Document} {v : DocumentVersion} {rt : Extractor.Runtime}
    {p : DocumentFetched} {ids : Extractor.Ids} {correlationId : UUID}
    {result : Extractor.ExtractionResult} {normalizedUri manifestUri : PyStr} {draws : Draws}
    (ht : ids.tenantId=d.tenantId) (hd : ids.documentId=d.id) (hv : ids.versionId=v.id) :
    Describes d.tenantId d.id v
      (Extractor.extractedEvent rt p ids correlationId result normalizedUri manifestUri draws) := by
  refine ⟨ht,congrArg UUID.str hd,rfl,?_,?_,?_⟩
  · intro q hq
    exact EventPayload.noConfusion hq
  · intro q hq
    exact EventPayload.noConfusion hq
  · intro q hq
    have hq := EventPayload.contentExtracted.inj hq
    subst hq
    exact congrArg UUID.str hv

/-- The fetcher moves a submitted document on. -/
theorem fetch_advances {w : World} (hk : Known w) (hr : Records w.db) {t : ℕ} {p : DocumentSubmitted}
    {i : Option Fetcher.SourceInspection} {error : Option Fetcher.FetchValidationError}
    {ids : Fetcher.Ids} {draws : Draws} {o : Outcome} (ht : w.fetching t=.processing p i error)
    (hn : Fetcher.Names p ids) (ho : Fetcher.FetchOutcome p i error ids draws w.db o)
    (hopen : o.claim ∉ w.db.processedEvents) :
    ∃ d ∈ w.db.documents, ∃ v ∈ w.db.versions, ∃ s,
      AtStage (events w.db) w.db.processedEvents d v .submitted ∧
      Advances (events w.db) d v .submitted s o := by
  obtain ⟨e,he,-,hp⟩ := hk.fetching t p (by rw [ht]; rfl)
  obtain ⟨d,hd,v,hv,s,hs,hin,hdescribes⟩ := hr.locate he
  obtain ⟨htenant,hevent,huri⟩ := hdescribes.submission p hp
  have hdocument := hdescribes.document
  rw [hp] at hdocument
  have hit := ofText_eq hn.tenant htenant
  have hid := ofText_eq hn.document hdocument
  have hie := ofText_eq hn.event hevent
  have hclaim : handling e=some ⟨ids.tenantId,ids.eventId,Fetcher.consumerName⟩ := by
    rw [hit,hie,← hdescribes.tenant]
    simp [handling,hp,kindOf,EventKind.handler]
  have hoclaim : o.claim=⟨ids.tenantId,ids.eventId,Fetcher.consumerName⟩ := by cases ho <;> rfl
  have hhandles : ∃ e ∈ history (events w.db) d.id, handling e=some o.claim :=
    ⟨e,hin,hoclaim ▸ hclaim⟩
  have hkind : kindOf e.payload=.submitted := by rw [hp]; rfl
  have hstage : s=.submitted := by
    apply Stage.eq_submitted
    intro hk
    rw [hoclaim] at hopen
    exact hopen ((hs.claimed e hin _ hclaim).mpr (hkind ▸ hk))
  subst hstage
  have hmatch : v ∈ Fetcher.matchingVersions ids.tenantId ids.documentId p.payloadUri w.db := by
    refine List.mem_filter.mpr ⟨hv,decide_eq_true ⟨?_,?_,huri.symm,hs.present⟩⟩
    · exact hs.tenant.trans hit.symm
    · exact hs.document.trans hid.symm
  cases ho with
  | unknown hnone => exact absurd (hnone ▸ hmatch) List.not_mem_nil
  | invalid hone hverdict =>
    have hversion := List.mem_singleton.mp (hone ▸ hmatch)
    subst hversion
    refine ⟨d,hd,v,hv,.fetchRejected,hs,.rejectFetch,hhandles,rfl,
      .rejection hit (congrArg UUID.str hid) rfl (.inl rfl),by rw [hid]; rfl,_,rfl,
      fun x => ⟨rfl,rfl,rfl,rfl,rfl,rfl⟩,rfl,hs.extraction,?_⟩
    exact fun h => absurd h (by decide)
  | valid hone hverdict hi =>
    have hversion := List.mem_singleton.mp (hone ▸ hmatch)
    subst hversion
    subst hi
    refine ⟨d,hd,v,hv,.fetched,hs,.fetch,hhandles,rfl,
      describes_fetched hit hid (Fetcher.verdict_eq_none hverdict),
      by rw [hid]; rfl,_,rfl,fun x => ⟨rfl,rfl,rfl,rfl,rfl,rfl⟩,rfl,hs.extraction,?_⟩
    exact fun h => absurd h (by decide)

/-- The document an extractor call works on, while the message is not processed. -/
theorem extract_located {w : World} (hk : Known w) (hr : Records w.db) {t : ℕ} {p : DocumentFetched}
    {ids : Extractor.Ids} {correlationId : UUID} (ht : (w.extracting t).active=some p)
    (hn : Extractor.Names p ids correlationId)
    (hopen : ⟨ids.tenantId,ids.eventId,Extractor.consumerName⟩ ∉ w.db.processedEvents) :
    ∃ d ∈ w.db.documents, ∃ v ∈ w.db.versions, AtStage (events w.db) w.db.processedEvents d v .fetched ∧
      ids.tenantId=d.tenantId ∧ ids.documentId=d.id ∧ ids.versionId=v.id ∧
      ∃ e ∈ history (events w.db) d.id,
        handling e=some ⟨ids.tenantId,ids.eventId,Extractor.consumerName⟩ := by
  obtain ⟨e,he,-,hp⟩ := hk.extracting t p ht
  obtain ⟨d,hd,v,hv,s,hs,hin,hdescribes⟩ := hr.locate he
  obtain ⟨htenant,hevent,hversion,-⟩ := hdescribes.fetch p hp
  have hdocument := hdescribes.document
  rw [hp] at hdocument
  obtain ⟨tenantId,h₁,h⟩ := bind_eq_ok.mp hn.ids
  obtain ⟨documentId,h₂,h⟩ := bind_eq_ok.mp h
  obtain ⟨versionId,h₃,h⟩ := bind_eq_ok.mp h
  obtain ⟨eventId,h₄,h⟩ := bind_eq_ok.mp h
  cases h
  have hit := ofText_eq h₁ htenant
  have hid := ofText_eq h₂ hdocument
  have hiv := ofText_eq h₃ hversion
  have hie := ofText_eq h₄ hevent
  have hclaim : handling e=some ⟨tenantId,eventId,Extractor.consumerName⟩ := by
    rw [hit,hie,← hdescribes.tenant]
    simp [handling,hp,kindOf,EventKind.handler]
  have hkind : kindOf e.payload=.fetched := by rw [hp]; rfl
  have hmem : EventKind.fetched ∈ s.kinds := by
    rw [← hs.kinds]
    exact List.mem_map.mpr ⟨e,hin,hkind⟩
  have hstage : s=.fetched := by
    apply Stage.eq_fetched hmem
    intro hk
    exact hopen ((hs.claimed e hin _ hclaim).mpr (hkind ▸ hk))
  subst hstage
  exact ⟨d,hd,v,hv,hs,hit,hid,hiv,e,hin,hclaim⟩

/-- The stage a completed extraction leads to. -/
def completedStage (result : Extractor.ExtractionResult) : Stage :=
  if result.blank then .needsReview else .extracted

/-- The extractor moves a fetched document on. -/
theorem complete_advances {w : World} (hk : Known w) (hr : Records w.db) {t : ℕ} {p : DocumentFetched}
    {result : Extractor.ExtractionResult} {normalizedUri manifestUri : PyStr} {ids : Extractor.Ids}
    {correlationId : UUID} {draws : Draws}
    (ht : w.extracting t=.completing p result normalizedUri manifestUri)
    (hn : Extractor.Names p ids correlationId)
    (hopen : ⟨ids.tenantId,ids.eventId,Extractor.consumerName⟩ ∉ w.db.processedEvents) :
    ∃ d ∈ w.db.documents, ∃ v ∈ w.db.versions,
      AtStage (events w.db) w.db.processedEvents d v .fetched ∧
      Advances (events w.db) d v .fetched (completedStage result)
        (Extractor.completion c.rt p ids correlationId result normalizedUri manifestUri draws) := by
  obtain ⟨d,hd,v,hv,hs,hit,hid,hiv,hhandles⟩ := extract_located hk hr (by rw [ht]; rfl) hn hopen
  have hstatus := hk.results t result (by rw [ht]; rfl)
  have hnext : Stage.fetched.Next (completedStage result) ∧
      (completedStage result).kinds=Stage.fetched.kinds ++ [.extracted] ∧
      Extractor.completedStatus result=(completedStage result).documentStatus ∧
      (completedStage result).inspectionStatus=.valid ∧
      result.extractionStatus=(completedStage result).extractionStatus := by
    rw [hstatus]
    unfold completedStage Extractor.completedStatus
    rw [hstatus]
    cases result.blank with
    | true => exact ⟨.review,rfl,rfl,rfl,rfl⟩
    | false => exact ⟨.extract,rfl,rfl,rfl,rfl⟩
  obtain ⟨hnext,hkinds,hdocument,hinspection,hextraction⟩ := hnext
  refine ⟨d,hd,v,hv,hs,hnext,hhandles,hkinds,describes_extracted hit hid hiv,?_,
    Extractor.recordExtraction c.rt result normalizedUri manifestUri,
    by rw [← hiv]; rfl,fun x => ⟨rfl,rfl,rfl,rfl,rfl,rfl⟩,?_,hextraction,fun _ => ⟨rfl,rfl⟩⟩
  · rw [← hdocument,← hid]
    rfl
  · rw [hinspection]
    exact hs.inspection

theorem reject_advances {w : World} (hk : Known w) (hr : Records w.db) {t : ℕ} {p : DocumentFetched}
    {error : Extractor.ExtractionError} {ids : Extractor.Ids} {correlationId : UUID} {draws : Draws}
    (ht : w.extracting t=.rejecting p error) (hn : Extractor.Names p ids correlationId)
    (hopen : ⟨ids.tenantId,ids.eventId,Extractor.consumerName⟩ ∉ w.db.processedEvents) :
    ∃ d ∈ w.db.documents, ∃ v ∈ w.db.versions,
      AtStage (events w.db) w.db.processedEvents d v .fetched ∧
      Advances (events w.db) d v .fetched .extractionRejected
        (Extractor.rejection ids correlationId error draws) := by
  obtain ⟨d,hd,v,hv,hs,hit,hid,hiv,hhandles⟩ := extract_located hk hr (by rw [ht]; rfl) hn hopen
  have hrejection : Describes d.tenantId d.id v (Extractor.rejectedEvent ids correlationId error draws) :=
    .rejection hit (congrArg UUID.str hid) rfl (.inr rfl)
  refine ⟨d,hd,v,hv,hs,.rejectExtraction,hhandles,rfl,hrejection,by rw [← hid]; rfl,
    Extractor.markFailed error,by rw [← hiv]; rfl,fun x => ⟨rfl,rfl,rfl,rfl,rfl,rfl⟩,hs.inspection,rfl,?_⟩
  exact fun h => absurd h (by decide)

/-- Whatever a consumer commits for a genuine message moves one document to its next stage. -/
theorem ConsumerOutcome.advances {w : World} (hk : Known w) (hr : Records w.db) {o : Outcome}
    {draws : Draws} (ho : ConsumerOutcome c w o draws) (hopen : o.claim ∉ w.db.processedEvents) :
    ∃ d ∈ w.db.documents, ∃ v ∈ w.db.versions, ∃ s t,
      AtStage (events w.db) w.db.processedEvents d v s ∧ Advances (events w.db) d v s t o := by
  cases ho with
  | fetch ht hn ho =>
    obtain ⟨d,hd,v,hv,t,hs,ha⟩ := fetch_advances hk hr ht hn ho hopen
    exact ⟨d,hd,v,hv,_,t,hs,ha⟩
  | complete ht hn _ =>
    obtain ⟨d,hd,v,hv,hs,ha⟩ := complete_advances hk hr ht hn hopen
    exact ⟨d,hd,v,hv,_,_,hs,ha⟩
  | reject ht hn =>
    obtain ⟨d,hd,v,hv,hs,ha⟩ := reject_advances hk hr ht hn hopen
    exact ⟨d,hd,v,hv,_,_,hs,ha⟩

theorem records_step {w : World} (hk : Known w) (hr : Records w.db) {after : Db}
    (h : DbStep c w after) : Records after := by
  cases h with
  | same => exact hr
  | publish _ hevents => exact hr.publish hevents
  | submit _ hdb => exact hr.submit hdb
  | consume ho hc =>
    obtain ⟨d,hd,v,hv,s,t,hs,ha⟩ := ho.advances hk hr hc.unclaimed
    exact hr.advance hd hv hs ha hc

/-- Along genuine runs every document is at a stage with its version. -/
theorem records_reach {w : World} (h : (system c).Reach Genuine w) : Known w ∧ Records w.db := by
  refine h.invariant (I := fun w => Known w ∧ Records w.db) ?_ ?_
  · intro w hw
    obtain ⟨tenants,hdb⟩ := hw.db
    exact ⟨.initial hw,hdb ▸ .initial tenants⟩
  · intro w a after hw ok ha
    exact ⟨known_step hw.1 ok ha,records_step hw.1 hw.2 (step_db ha)⟩

/-- The permitted changes of a document's status. -/
inductive StatusChange : DocumentStatus → DocumentStatus → Prop
  | fetched : StatusChange .submitted .fetched
  | fetchFailed : StatusChange .submitted .failed
  | extracted : StatusChange .fetched .extracted
  | extractionFailed : StatusChange .fetched .failed

/-- Documents stay, start as submitted, and change their status only as permitted. -/
structure Forward (before after : List Document) : Prop where
  kept : ∀ x ∈ before, ∃ d ∈ after, d.id=x.id ∧ (d.status=x.status ∨ StatusChange x.status d.status)
  started : ∀ d ∈ after, (∀ x ∈ before, x.id≠d.id) → d.status=.submitted

/-- The version of a document has the statuses that go with the document's. -/
def Agrees (d : Document) (v : DocumentVersion) : Prop :=
  match d.status with
  | .submitted => v.inspectionStatus=.pending ∧ v.extractionStatus=.pending
  | .fetched => v.inspectionStatus=.valid ∧ v.extractionStatus=.pending
  | .extracted => v.inspectionStatus=.valid ∧ v.extractionStatus=.succeeded ∧
    v.normalizedObjectUri.isSome=true ∧ v.extractionManifestUri.isSome=true
  | .failed => (v.inspectionStatus=.invalid ∧ v.extractionStatus=.pending) ∨
    (v.inspectionStatus=.valid ∧ (v.extractionStatus=.failed ∨ v.extractionStatus=.needsReview))
  | _ => False

lemma AtStage.agrees {events : List OutboxEvent} {processed : List ProcessedEvent} {d : Document}
    {v : DocumentVersion} {s : Stage} (h : AtStage events processed d v s) : Agrees d v := by
  unfold Agrees
  rw [h.status,h.inspection,h.extraction]
  cases s with
  | submitted => exact ⟨rfl,rfl⟩
  | fetchRejected => exact .inl ⟨rfl,rfl⟩
  | fetched => exact ⟨rfl,rfl⟩
  | extracted => exact ⟨rfl,rfl,h.artifacts rfl⟩
  | needsReview => exact .inr ⟨rfl,.inr rfl⟩
  | extractionRejected => exact .inr ⟨rfl,.inl rfl⟩

lemma Stage.Next.statusChange {s t : Stage} (h : s.Next t) :
    StatusChange s.documentStatus t.documentStatus := by
  cases h with
  | rejectFetch => exact .fetchFailed
  | fetch => exact .fetched
  | extract => exact .extracted
  | review => exact .extractionFailed
  | rejectExtraction => exact .extractionFailed

lemma Forward.refl (documents : List Document) : Forward documents documents :=
  ⟨fun x hx => ⟨x,hx,rfl,.inl rfl⟩,fun d hd hnew => absurd rfl (hnew d hd)⟩

/-- An outcome that advances a document changes the status of no other. -/
theorem Advances.forward {db : Db} (hr : Records db) {d : Document} {v : DocumentVersion} {s t : Stage}
    {o : Outcome} (hd : d ∈ db.documents) (hs : AtStage (events db) db.processedEvents d v s)
    (ha : Advances (events db) d v s t o) : Forward db.documents (o.applyDocuments db.documents) := by
  have hdocuments : o.applyDocuments db.documents=
      updateWhere (fun x => x.tenantId=o.claim.tenantId ∧ x.id=d.id)
        (fun x => { x with status := t.documentStatus }.setUpdatedAt o.documentUpdatedAt)
        db.documents := by
    simp only [Outcome.applyDocuments,ha.status]
  rw [hdocuments]
  refine ⟨?_,?_⟩
  · intro x hx
    refine ⟨_,mem_updateWhere.mpr ⟨x,hx,rfl⟩,?_⟩
    split
    · rename_i hxd
      have hxd := eq_of_key_eq hr.documents hx hd (of_decide_eq_true hxd).2
      refine ⟨rfl,.inr ?_⟩
      rw [hxd,hs.status]
      exact ha.next.statusChange
    · exact ⟨rfl,.inl rfl⟩
  · intro x hx hnew
    obtain ⟨y,hy,hyx⟩ := mem_updateWhere.mp hx
    refine absurd ?_ (hnew y hy)
    subst hyx
    split
    · rfl
    · rfl

theorem forward_step {w : World} (hk : Known w) (hr : Records w.db) {after : Db}
    (h : DbStep c w after) : Forward w.db.documents after.documents := by
  cases h with
  | same => exact .refl _
  | publish => exact .refl _
  | submit _ hdb =>
    obtain ⟨-,rfl⟩ := Submission.Draft.submission_eq_ok _ _ hdb
    refine ⟨fun x hx => ⟨x,List.mem_append_left _ hx,rfl,.inl rfl⟩,?_⟩
    intro d hd hnew
    cases List.mem_append.mp hd with
    | inl hd => exact absurd rfl (hnew d hd)
    | inr hd => rw [List.mem_singleton.mp hd]; rfl
  | consume ho hc =>
    obtain ⟨d,hd,v,hv,s,t,hs,ha⟩ := ho.advances hk hr hc.unclaimed
    rw [hc.result]
    exact ha.forward hr hd hs

/-- In every run on genuine messages each document has exactly one version, which agrees with it,
and every step changes statuses only forwards. -/
theorem lifecycle_forward {w : World} (h : (system c).Reach Genuine w) :
    (w.db.documents.map (·.id)).Nodup ∧
      (∀ d ∈ w.db.documents, ∃ v,
        w.db.versions.filter (fun v => v.documentId=d.id)=[v] ∧ Agrees d v) ∧
      ∀ a after, step c w a=some after → Forward w.db.documents after.db.documents := by
  obtain ⟨hk,hr⟩ := records_reach h
  refine ⟨hr.documents,?_,?_⟩
  · intro d hd
    obtain ⟨v,hv,s,hs⟩ := hr.staged d hd
    refine ⟨v,?_,hs.agrees⟩
    have hone := filter_key_eq hr.versions hv
    rw [hs.document] at hone
    exact hone
  · intro a after ha
    exact forward_step hk hr (step_db ha)

/-- The events of the small upload when it is submitted and fetched. -/
def smallSubmitted : DocumentSubmitted :=
  buildDocumentSubmittedEvent ⟨4⟩ [] ⟨1⟩ ⟨2⟩ (objectUri minioSourceBucket Submission.smallDraft.key) none

def smallInspection : Fetcher.SourceInspection :=
  Fetcher.sourceInspection plainConfig.rt.sha256 none plainConfig.fetcherMaxDocumentBytes
    Submission.smallDraft.content 1

def smallMetadata : Json :=
  Fetcher.fetchedMetadata
    (Submission.smallDraft.version plainConfig.rt.sha256 minioSourceBucket 0) smallInspection

def smallFetched : DocumentFetched :=
  buildDocumentFetchedEvent ⟨6⟩ [] ⟨1⟩ ⟨2⟩ ⟨3⟩ smallSubmitted.payloadUri
    smallInspection.detectedMimeType smallInspection.contentSha256 smallInspection.byteSize
    smallMetadata ⟨4⟩ ⟨4⟩

/-- A publisher claims a row, delivers it and completes it. -/
def relay (row : OutboxRow) (now : Time) : List Action :=
  [.publish (.claim 0 now [] [row.claimedBy [] now] .none),.publish (.produce 0 false),
    .publish (.accept 0 0),.publish (.flush 0 false),.publish (.complete 0 now .none)]

/-- The small upload goes through the whole pipeline; its converter returns the given markdown. -/
def smallRun (markdown : PyStr) : List Action :=
  [.submit (.receive 0 Submission.smallUpload ⟨2⟩ ⟨3⟩),.submit (.put 0 .none),
    .submit (.persist 0 ⟨4⟩ [] ⟨5⟩ 0 .none),.publish (.start 0 [] 1)] ++
  relay (.inserted ⟨5⟩ (Submission.smallDraft.event minioSourceBucket ⟨4⟩ []) 0) 0 ++
  [.fetch 0 (.deliver smallSubmitted),.fetch 0 (.get .none),
    .fetch 0 (.inspect readAvailable (fun _ => .pages 1)),.fetch 0 (.process ⟨⟨6⟩,[],⟨7⟩,1,1,1⟩ .none)] ++
  relay (.inserted ⟨7⟩ (Fetcher.fetchedEvent smallSubmitted ⟨⟨1⟩,⟨2⟩,⟨4⟩,⟨4⟩⟩ ⟨3⟩ smallInspection
    smallMetadata ⟨⟨6⟩,[],⟨7⟩,1,1,1⟩) 1) 1 ++
  [.extract 0 (.deliver smallFetched),.extract 0 (.get .none),
    .extract 0 (.extract readAvailable (fun _ => .ok ([],markdown))),.extract 0 (.putNormalized .none),
    .extract 0 (.putManifest .none),.extract 0 (.complete ⟨⟨8⟩,[],⟨9⟩,2,2,2⟩ .none)]

/-- A document that goes all the way. -/
theorem small_document_extracted :
    ∃ w, (system plainConfig).Reach Genuine w ∧ (∃ d ∈ w.db.documents, d.status=.extracted) ∧
      (w.db.documents.map (·.id)).Nodup ∧
      (∀ d ∈ w.db.documents, ∃ v,
        w.db.versions.filter (fun v => v.documentId=d.id)=[v] ∧ Agrees d v) ∧
      ∀ a after, step plainConfig w a=some after → Forward w.db.documents after.db.documents := by
  have hrun : ((system plainConfig).runIf Genuine plainWorld (smallRun (py "text"))).any
      (fun w => w.db.documents.any (fun d => d.status=.extracted))=true := by decide +kernel
  obtain ⟨w,hrun,hextracted⟩ := (Option.any_eq_true _ _).mp hrun
  simp only [List.any_eq_true,decide_eq_true_eq] at hextracted
  have hreach := System.Reach.runIf (.start plainWorld_initial) hrun
  exact ⟨w,hreach,hextracted,lifecycle_forward hreach⟩

end RagIngestion.Pipeline
