import RagIngestion.Pipeline.Lifecycle

/-! Each stage accepts the genuine events of the one before it: it finds the version an event
speaks of, and its rejections are about the content, never about the event. -/
namespace RagIngestion.Pipeline
open RagIngestion.Python RagIngestion.Domain RagIngestion.Database RagIngestion.Storage
open RagIngestion.Library

/-- Conversions are made by `DoclingPdfConverter`. -/
def ByDocling : Action → Prop
  | .extract _ (.extract _ convert) =>
    ∃ answer : Bytes → Extractor.DoclingAnswer, ∀ content,
      convert content=Extractor.doclingConvert (answer content)
  | _ => True

/-- The codes with which the fetcher says that it does not understand an event. -/
def fetchMisfits : List PyStr := [py "unexpected_event_type",py "unknown_source_object"]

/-- The codes with which the extractor says so. -/
def extractMisfits : List PyStr :=
  [py "unexpected_event_type",py "unsupported_source",py "unknown_document_version"]

/-- The error is about the content of a document, and its details do not replace its code. -/
def AboutContent (e : Fetcher.FetchValidationError) : Prop :=
  e.code ∉ fetchMisfits ∧ py "validation_error" ∉ e.metadata.map Prod.fst

instance (e : Fetcher.FetchValidationError) : Decidable (AboutContent e) := by
  unfold AboutContent
  infer_instance

/-- An event meets the checks of the stage that handles it, and a rejection is about content. -/
structure Stamped (e : OutboxEvent) : Prop where
  submission : ∀ p, e.payload=.documentSubmitted p → p.eventType=py "DocumentSubmitted"
  fetch : ∀ p, e.payload=.documentFetched p → Extractor.payloadError p=none
  fetchRejection : ∀ p, e.payload=.documentFetchRejected p → ∃ code metadata,
    code ∉ fetchMisfits ∧ py "validation_error" ∉ metadata.map Prod.fst ∧ p.inspectionMetadata=
      dumpsSorted (.dict (Json.ofItems ((py "validation_error",.str code)::metadata)))
  extractionRejection : ∀ p, e.payload=.contentExtractionRejected p → p.errorCode ∉ extractMisfits

/-- Events, failures and the errors in work are as the next stage needs them. -/
structure Compatible (w : World) : Prop where
  events : ∀ e ∈ events w.db, Stamped e
  failures : ∀ f ∈ w.db.failures, f.errorCode ∉ fetchMisfits
  fetching : ∀ t p i error, w.fetching t=.processing p i error →
    (∀ x, i=some x → x.detectedMimeType=py "application/pdf") ∧
      ∀ e, error=some e → AboutContent e
  extracting : ∀ t p e, w.extracting t=.rejecting p e → e.code ∉ extractMisfits

variable {c : Config}

/-- A submission is looked up by its tenant, document and source, and finds its one version. -/
theorem Records.matching {db : Db} (h : Records db) {e : OutboxEvent} (he : e ∈ events db)
    {p : DocumentSubmitted} (hp : e.payload=.documentSubmitted p) :
    ∃ tenantId documentId v, UUID.ofText p.tenantId=.ok tenantId ∧
      UUID.ofText p.documentId=.ok documentId ∧
      Fetcher.matchingVersions tenantId documentId p.payloadUri db=[v] := by
  obtain ⟨d,-,v,hv,s,hs,-,hdescribes⟩ := h.locate he
  obtain ⟨htenant,-,huri⟩ := hdescribes.submission p hp
  have hdocument := hdescribes.document
  rw [hp] at hdocument
  change p.documentId=d.id.str at hdocument
  refine ⟨d.tenantId,d.id,v,by rw [htenant,UUID.ofText_str],by rw [hdocument,UUID.ofText_str],?_⟩
  refine filter_eq_singleton h.versions hv ?_ ?_
  · exact decide_eq_true ⟨hs.tenant,hs.document,huri.symm,hs.present⟩
  · intro x _ hx
    exact (of_decide_eq_true hx).2.1.trans hs.document.symm

/-- A fetched version is looked up by its ids and its hash, and is found. -/
theorem Records.current {db : Db} (h : Records db) {e : OutboxEvent} (he : e ∈ events db)
    {p : DocumentFetched} (hp : e.payload=.documentFetched p) :
    ∃ ids v, Extractor.payloadIds p=.ok ids ∧
      Extractor.currentVersions ids p.contentSha256 db=[v] := by
  obtain ⟨d,-,v,hv,s,hs,-,hdescribes⟩ := h.locate he
  obtain ⟨htenant,hevent,hversion,hsha⟩ := hdescribes.fetch p hp
  have hdocument := hdescribes.document
  rw [hp] at hdocument
  change p.documentId=d.id.str at hdocument
  refine ⟨⟨d.tenantId,d.id,v.id,e.eventId⟩,v,?_,?_⟩
  · simp only [Extractor.payloadIds,htenant,hdocument,hversion,hevent,UUID.ofText_str,ok_bind]
  · refine filter_eq_singleton h.versionIds hv ?_ ?_
    · exact decide_eq_true ⟨hs.tenant,rfl,hs.document,hsha.symm,hs.present⟩
    · intro x _ hx
      exact (of_decide_eq_true hx).2.1

/-- The error `process` acts on is its own or about the content. -/
theorem verdict_code {v : DocumentVersion} {i : Option Fetcher.SourceInspection}
    {error : Option Fetcher.FetchValidationError} {e : Fetcher.FetchValidationError}
    (herror : ∀ x, error=some x → AboutContent x) (h : Fetcher.verdict v i error=some e) :
    AboutContent e := by
  obtain rfl | rfl | herr := Fetcher.verdict_eq_some h
  · decide
  · decide
  · exact herror e herr

/-- The errors of an inspection are about the content. -/
lemma inspection_code {σ : Type} {sha256 : Bytes → Digest} {pdfReader : Bytes → Fetcher.PdfAnswer}
    {read : Reader σ} {source : σ} {declaredMimeType : Option PyStr} {maxDocumentBytes : ℕ}
    {e : Fetcher.FetchValidationError} (h : Fetcher.inspectPdf sha256 pdfReader read source
      declaredMimeType maxDocumentBytes=.error (.validation e)) : AboutContent e := by
  obtain he | ⟨observed,rfl⟩ := Fetcher.inspectPdf_eq_validation h
  · simp only [List.mem_cons,List.not_mem_nil,or_false] at he
    rcases he with rfl | rfl | rfl | rfl <;> decide
  · refine ⟨?_,?_⟩
    · change py "document_too_large" ∉ fetchMisfits
      decide
    · change py "validation_error" ∉ [py "max_document_bytes",py "observed_bytes_at_rejection"]
      decide

/-- The errors of an extraction by Docling are about the content. -/
lemma extraction_code {rt : Extractor.Runtime} {σ : Type} {read : Reader σ} {source : σ}
    {maxBytes : ℕ} {expectedSha256 : PyStr} {convert : Bytes → Extractor.Conversion}
    {e : Extractor.ExtractionError}
    (hconvert : ∃ answer : Bytes → Extractor.DoclingAnswer, ∀ content,
      convert content=Extractor.doclingConvert (answer content))
    (h : Extractor.extractPdf rt read source maxBytes expectedSha256 convert=.error (.extraction e)) :
    e.code ∉ extractMisfits := by
  obtain hread | ⟨content,-,h⟩ := Extractor.extractPdf_eq_extraction h
  · rw [Extractor.readSource_eq_error hread]
    decide
  · obtain rfl | h | ⟨rfl,-⟩ := h
    · decide
    · obtain ⟨answer,hanswer⟩ := hconvert
      rw [hanswer] at h
      obtain rfl | rfl := Extractor.doclingConvert_eq_extraction h
      · decide
      · decide
    · decide

lemma Stamped.rejectedFetch {p : DocumentSubmitted} {ids : Fetcher.Ids}
    {e : Fetcher.FetchValidationError} {draws : Draws} (he : AboutContent e) :
    Stamped (Fetcher.rejectedEvent p ids e draws) := by
  refine ⟨?_,?_,?_,?_⟩
  · intro q hq
    exact EventPayload.noConfusion hq
  · intro q hq
    exact EventPayload.noConfusion hq
  · intro q hq
    have hq := EventPayload.documentFetchRejected.inj hq
    subst hq
    exact ⟨e.code,e.metadata,he.1,he.2,rfl⟩
  · intro q hq
    exact EventPayload.noConfusion hq

lemma Stamped.fetched {p : DocumentSubmitted} {ids : Fetcher.Ids} {versionId : UUID}
    {i : Fetcher.SourceInspection} {metadata : Json} {draws : Draws}
    (hi : i.detectedMimeType=py "application/pdf") :
    Stamped (Fetcher.fetchedEvent p ids versionId i metadata draws) := by
  refine ⟨?_,?_,?_,?_⟩
  · intro q hq
    exact EventPayload.noConfusion hq
  · intro q hq
    have hq := EventPayload.documentFetched.inj hq
    subst hq
    simp [Extractor.payloadError,buildDocumentFetchedEvent,hi]
  · intro q hq
    exact EventPayload.noConfusion hq
  · intro q hq
    exact EventPayload.noConfusion hq

/-- What the fetcher commits for a genuine submission. -/
theorem fetch_compatible {w : World} (hk : Known w) (hr : Records w.db) (hc : Compatible w) {t : ℕ}
    {p : DocumentSubmitted} {i : Option Fetcher.SourceInspection}
    {error : Option Fetcher.FetchValidationError} {ids : Fetcher.Ids} {draws : Draws} {o : Outcome}
    (ht : w.fetching t=.processing p i error) (hn : Fetcher.Names p ids)
    (ho : Fetcher.FetchOutcome p i error ids draws w.db o) :
    Stamped o.event ∧ ∀ f ∈ o.applyFailures w.db.failures, f.errorCode ∉ fetchMisfits := by
  obtain ⟨hmime,herror⟩ := hc.fetching t p i error ht
  cases ho with
  | unknown hnone =>
    obtain ⟨e,he,-,hp⟩ := hk.fetching t p (by rw [ht]; rfl)
    obtain ⟨tenantId,documentId,v,htenant,hdocument,hone⟩ := hr.matching he hp
    cases Except.ok.inj (htenant.symm.trans hn.tenant)
    cases Except.ok.inj (hdocument.symm.trans hn.document)
    rw [hnone] at hone
    cases hone
  | @invalid version e _ hverdict =>
    have hcode := verdict_code herror hverdict
    refine ⟨.rejectedFetch hcode,?_⟩
    intro f hf
    cases List.mem_append.mp hf with
    | inl hf => exact hc.failures f hf
    | inr hf => rw [List.mem_singleton.mp hf]; exact hcode.1
  | valid _ _ hi => exact ⟨.fetched (hmime _ hi),hc.failures⟩

theorem consumer_compatible {w : World} (hk : Known w) (hr : Records w.db) (hc : Compatible w)
    {o : Outcome} {draws : Draws} (ho : ConsumerOutcome c w o draws) :
    Stamped o.event ∧ ∀ f ∈ o.applyFailures w.db.failures, f.errorCode ∉ fetchMisfits := by
  cases ho with
  | fetch ht hn ho => exact fetch_compatible hk hr hc ht hn ho
  | complete ht hn _ =>
    refine ⟨⟨?_,?_,?_,?_⟩,hc.failures⟩
    all_goals
      intro q hq
      exact EventPayload.noConfusion hq
  | @reject t p error ids correlationId draws ht hn =>
    have hcode := hc.extracting t p error ht
    refine ⟨⟨?_,?_,?_,?_⟩,hc.failures⟩
    · intro q hq
      exact EventPayload.noConfusion hq
    · intro q hq
      exact EventPayload.noConfusion hq
    · intro q hq
      exact EventPayload.noConfusion hq
    · intro q hq
      have hq := EventPayload.contentExtractionRejected.inj hq
      subst hq
      exact hcode

/-- A transaction keeps events and failures as the next stage needs them. -/
theorem compatible_db {w : World} (hk : Known w) (hr : Records w.db) (hc : Compatible w) {after : Db}
    (h : DbStep c w after) :
    (∀ e ∈ events after, Stamped e) ∧ ∀ f ∈ after.failures, f.errorCode ∉ fetchMisfits := by
  cases h with
  | same => exact ⟨hc.events,hc.failures⟩
  | publish _ hevents => exact ⟨by rw [events,hevents]; exact hc.events,hc.failures⟩
  | submit _ hdb =>
    refine ⟨?_,by rw [(Submission.Draft.submission_eq_ok _ _ hdb).2]; exact hc.failures⟩
    rw [events_submitted hdb]
    refine List.forall_mem_append.mpr ⟨hc.events,List.forall_mem_singleton.mpr ⟨?_,?_,?_,?_⟩⟩
    · intro q hq
      have hq := EventPayload.documentSubmitted.inj hq
      subst hq
      rfl
    · intro q hq
      exact EventPayload.noConfusion hq
    · intro q hq
      exact EventPayload.noConfusion hq
    · intro q hq
      exact EventPayload.noConfusion hq
  | consume ho hcommit =>
    obtain ⟨hstamped,hfailures⟩ := consumer_compatible hk hr hc ho
    refine ⟨?_,by rw [hcommit.result]; exact hfailures⟩
    rw [events_committed hcommit]
    exact List.forall_mem_append.mpr ⟨hc.events,List.forall_mem_singleton.mpr hstamped⟩

/-- A fetcher call on a genuine event goes on with an inspected PDF or an error about content. -/
theorem fetching_compatible {w : World} (hk : Known w) (hc : Compatible w) {t : ℕ}
    {a : Fetcher.Action} {db : Db} {p : DocumentSubmitted} {i : Option Fetcher.SourceInspection}
    {error : Option Fetcher.FetchValidationError}
    (h : Fetcher.Transition c.rt.sha256 c.sourceBucket c.fetcherMaxDocumentBytes w.source w.db
      (w.fetching t) a db (.processing p i error)) :
    (∀ x, i=some x → x.detectedMimeType=py "application/pdf") ∧
      ∀ e, error=some e → AboutContent e := by
  generalize ht : w.fetching t=before at h
  generalize htask : Fetcher.Task.processing p i error=task at h
  cases h with
  | wrongType hwrong =>
    obtain ⟨e,he,-,hp⟩ := hk.fetching t _ (by rw [ht]; rfl)
    exact absurd ((hc.events e he).submission _ hp) hwrong
  | inspected h =>
    cases htask
    obtain ⟨content,count,-,-,rfl⟩ := Fetcher.inspectPdf_eq_ok h
    exact ⟨by rintro x ⟨rfl⟩; rfl,by simp⟩
  | invalid h =>
    cases htask
    exact ⟨by simp,by rintro e ⟨rfl⟩; exact inspection_code h⟩
  | processed =>
    split at htask
    · cases htask
    · cases htask
  | _ => cases htask

/-- An extractor call on a genuine event only rejects for an error about content. -/
theorem extracting_compatible {w : World} (hk : Known w) (hr : Records w.db) (hc : Compatible w)
    {t : ℕ} {a : Extractor.Action} (hdocling : ByDocling (.extract t a)) {after : Extractor.Stores}
    {p : DocumentFetched} {error : Extractor.ExtractionError}
    (h : Extractor.Transition c.rt c.sourceBucket c.artifactBucket c.extractionMaxBytes w.source
      w.stores (w.extracting t) a after (.rejecting p error)) : error.code ∉ extractMisfits := by
  generalize ht : w.extracting t=before at h
  generalize htask : Extractor.Task.rejecting p error=task at h
  cases h with
  | refuse hrefused =>
    obtain ⟨e,he,-,hp⟩ := hk.extracting t _ (by rw [ht]; rfl)
    rw [(hc.events e he).fetch _ hp] at hrefused
    cases hrefused
  | extractRejects h =>
    cases htask
    exact extraction_code hdocling h
  | completeRejects h =>
    obtain ⟨e,he,-,hp⟩ := hk.extracting t _ (by rw [ht]; rfl)
    obtain ⟨ids,v,hids,hone⟩ := hr.current he hp
    obtain ⟨ids',hids',hnone⟩ := Extractor.complete_eq_extraction h
    cases Except.ok.inj (hids.symm.trans hids')
    change Extractor.currentVersions ids _ w.db=[] at hnone
    rw [hnone] at hone
    cases hone
  | putNormalized hput => cases hput <;> cases htask
  | putManifest hput => cases hput <;> cases htask
  | completed =>
    split at htask
    · cases htask
    · cases htask
  | rejected =>
    split at htask
    · cases htask
    · cases htask
  | _ => cases htask

theorem compatible_step {w after : World} {a : Action} (hk : Known w) (hr : Records w.db)
    (hc : Compatible w) (hdocling : ByDocling a) (ha : step c w a=some after) : Compatible after := by
  obtain ⟨hevents,hfailures⟩ := compatible_db hk hr hc (step_db ha)
  refine ⟨hevents,hfailures,?_,?_⟩
  · intro t p i error ht
    obtain hsame | ⟨b,rfl,h⟩ := fetching_step ha t
    · exact hc.fetching t p i error (hsame ▸ ht)
    · rw [ht] at h
      exact fetching_compatible hk hc h
  · intro t p error ht
    obtain hsame | ⟨b,rfl,h⟩ := extracting_step ha t
    · exact hc.extracting t p error (hsame ▸ ht)
    · rw [ht] at h
      exact extracting_compatible hk hr hc hdocling h

/-- The steps of the pipeline's own components, on genuine messages. -/
def Operated (w : World) (a : Action) : Prop := Genuine w a ∧ ByDocling a

theorem compatible_reach {w : World} (h : (system c).Reach Operated w) :
    Known w ∧ Records w.db ∧ Compatible w := by
  have hgenuine : ∀ {w}, (system c).Reach Operated w → (system c).Reach Genuine w :=
    fun h => h.mono (fun _ _ ok => ok.1)
  obtain ⟨hk,hr⟩ := records_reach (hgenuine h)
  refine ⟨hk,hr,?_⟩
  induction h with
  | @start w h =>
    obtain ⟨tenants,hdb⟩ := h.db
    refine ⟨?_,?_,?_,?_⟩
    · intro e he
      rw [hdb] at he
      cases he
    · intro f hf
      rw [hdb] at hf
      cases hf
    · intro t p i error ht
      rw [h.fetching t] at ht
      cases ht
    · intro t p error ht
      rw [h.extracting t] at ht
      cases ht
  | next before ok ha ih =>
    obtain ⟨hk,hr⟩ := records_reach (hgenuine before)
    exact compatible_step hk hr (ih hk hr) ok.2 ha

/-- Every event in work names exactly one version, and no rejection says that the event was of an
unexpected type, of an unsupported source, or of no known object or version. -/
structure Accepts (w : World) : Prop where
  matched : ∀ t p, (w.fetching t).active=some p → ∃ tenantId documentId v,
    UUID.ofText p.tenantId=.ok tenantId ∧ UUID.ofText p.documentId=.ok documentId ∧
      Fetcher.matchingVersions tenantId documentId p.payloadUri w.db=[v]
  verdicts : ∀ t p i error, w.fetching t=.processing p i error →
    ∀ v e, Fetcher.verdict v i error=some e → e.code ∉ fetchMisfits
  failures : ∀ f ∈ w.db.failures, f.errorCode ∉ fetchMisfits
  current : ∀ t p, (w.extracting t).active=some p → Extractor.payloadError p=none ∧
    ∃ ids v, Extractor.payloadIds p=.ok ids ∧ Extractor.currentVersions ids p.contentSha256 w.db=[v]
  rejections : ∀ t p e, w.extracting t=.rejecting p e → e.code ∉ extractMisfits
  events : ∀ e ∈ events w.db, Stamped e

/-- In every run of the pipeline's own components from an empty database, whatever is delivered
again, in whatever order, and wherever calls end, each stage accepts the events of the other. -/
theorem stages_accept_genuine_events {w : World} (h : (system c).Reach Operated w) : Accepts w := by
  obtain ⟨hk,hr,hc⟩ := compatible_reach h
  refine ⟨?_,?_,hc.failures,?_,hc.extracting,hc.events⟩
  · intro t p hp
    obtain ⟨e,he,-,hpayload⟩ := hk.fetching t p hp
    exact hr.matching he hpayload
  · intro t p i error ht v e he
    exact (verdict_code (hc.fetching t p i error ht).2 he).1
  · intro t p hp
    obtain ⟨e,he,-,hpayload⟩ := hk.extracting t p hp
    exact ⟨(hc.events e he).fetch p hpayload,hr.current he hpayload⟩

/-- A submission that is fetched and extracted. -/
theorem small_events_accepted :
    ∃ w : World, (system plainConfig).Reach Operated w ∧
      (∃ d ∈ w.db.documents, d.status=.extracted) ∧ Accepts w := by
  have hrun : ((system plainConfig).runIf Genuine plainWorld (smallRun (py "text"))).any
      (fun w => w.db.documents.any (fun d => d.status=.extracted))=true := by decide +kernel
  obtain ⟨w,hrun,hextracted⟩ := (Option.any_eq_true _ _).mp hrun
  simp only [List.any_eq_true,decide_eq_true_eq] at hextracted
  have hconvert : ∃ answer : Bytes → Extractor.DoclingAnswer, ∀ content,
      (.ok ([],py "text") : Extractor.Conversion)=Extractor.doclingConvert (answer content) :=
    ⟨fun _ => .exports (.dict []) (py "text"),fun _ => rfl⟩
  have hdocling : ∀ a ∈ smallRun (py "text"), ByDocling a := by
    simpa [smallRun,relay,ByDocling] using hconvert
  have hreach : (system plainConfig).Reach Operated w :=
    .runIf_and (.start plainWorld_initial) hdocling hrun
  exact ⟨w,hreach,hextracted,stages_accept_genuine_events hreach⟩

end RagIngestion.Pipeline
