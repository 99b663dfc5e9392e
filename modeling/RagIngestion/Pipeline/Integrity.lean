import RagIngestion.Extractor.ArtifactKeys
import RagIngestion.Pipeline.Commits
import RagIngestion.Pipeline.Constrained
import RagIngestion.Pipeline.Lifecycle

/-! Content integrity: whatever is delivered and however source objects are replaced, every hash in
an event or an artifact key is that of the bytes read for it, and that of the version. -/
namespace RagIngestion.Pipeline
open RagIngestion.Python RagIngestion.Domain RagIngestion.Database RagIngestion.Storage
open RagIngestion.Library

variable (c : Config)

/-- The fetcher call inspected these bytes, with this result. -/
def Inspected (past : List (World × Action)) (t : ℕ) (p : DocumentSubmitted)
    (i : Fetcher.SourceInspection) (content : Bytes) : Prop :=
  ∃ w body read pdfReader, (w,.fetch t (.inspect read pdfReader)) ∈ past ∧
    w.fetching t=.opened p body ∧
    Fetcher.inspectedBytes read body c.fetcherMaxDocumentBytes=.ok content ∧
    Fetcher.inspectPdf c.rt.sha256 pdfReader read body none c.fetcherMaxDocumentBytes=.ok i

/-- The extractor call read these bytes and made the result from them. -/
def Extracted (past : List (World × Action)) (t : ℕ) (p : DocumentFetched)
    (result : Extractor.ExtractionResult) (content : Bytes) : Prop :=
  ∃ w body read convert, (w,.extract t (.extract read convert)) ∈ past ∧
    w.extracting t=.opened p body ∧
    Extractor.readSource read c.extractionMaxBytes body []=.ok content ∧
    Extractor.extractPdf c.rt read body c.extractionMaxBytes p.contentSha256 convert=.ok result

/-- The table has one version of this id; a submission recorded it with this hash of its upload. -/
def Recorded (past : List (World × Action)) (w : World) (tenantId versionId : UUID) (hash : PyStr) :
    Prop :=
  (∃ v, w.db.versions.filter (fun v => v.id=versionId)=[v] ∧ v.tenantId=tenantId ∧
    v.contentSha256=hash) ∧
  ∃ s r eventId occurredAt outboxId now fault d,
    (s,.submit (.persist r eventId occurredAt outboxId now fault)) ∈ past ∧
    s.request r=.persisting d ∧ d.versionId=versionId ∧ d.upload.tenantId=tenantId ∧
    hexdigest (c.rt.sha256 d.content)=hash

/-- The step writes the row. -/
def Inserts (w : World) (a : Action) (e : OutboxEvent) : Prop :=
  e ∉ events w.db ∧ ∃ after, step c w a=some after ∧ e ∈ events after.db

/-- The fetcher call that wrote the row had inspected these bytes. -/
def FetchedFrom (past : List (World × Action)) (e : OutboxEvent) (content : Bytes) : Prop :=
  ∃ w t p i error draws fault, (w,.fetch t (.process draws fault)) ∈ past ∧
    Inserts c w (.fetch t (.process draws fault)) e ∧ w.fetching t=.processing p (some i) error ∧
    Inspected c past t p i content

/-- The extractor call that wrote the row had read these bytes. -/
def ExtractedFrom (past : List (World × Action)) (e : OutboxEvent) (content : Bytes) : Prop :=
  ∃ w t p result normalizedUri manifestUri draws fault,
    (w,.extract t (.complete draws fault)) ∈ past ∧
    Inserts c w (.extract t (.complete draws fault)) e ∧
    w.extracting t=.completing p result normalizedUri manifestUri ∧ Extracted c past t p result content

/-- The extractor call stored an artifact of its result under the key. -/
inductive Stored (past : List (World × Action)) (t : ℕ) (p : DocumentFetched)
    (result : Extractor.ExtractionResult) : PyStr → Bytes → Prop
  | normalized {w fault ids body} (h : (w,.extract t (.putNormalized fault)) ∈ past)
      (ht : w.extracting t=.extracted p result) (hf : fault≠.before)
      (hids : Extractor.payloadIds p=.ok ids) (hbody : Extractor.artifactBody result.normalized=.ok body) :
      Stored past t p result (Extractor.normalizedKey ids p) body
  | manifest {w fault ids body uri} (h : (w,.extract t (.putManifest fault)) ∈ past)
      (ht : w.extracting t=.stored p result uri) (hf : fault≠.before)
      (hids : Extractor.payloadIds p=.ok ids)
      (hbody : Extractor.artifactBody (Extractor.manifestArtifact p result)=.ok body) :
      Stored past t p result (Extractor.manifestKey ids p) body

variable {c}

/-- Only an inspection gives a fetcher call an inspection. -/
lemma inspection_step {w after : World} {a : Action} (ha : step c w a=some after) {t : ℕ}
    {p : DocumentSubmitted} {i : Fetcher.SourceInspection} {error : Option Fetcher.FetchValidationError}
    (hbefore : w.fetching t≠.processing p (some i) error)
    (hafter : after.fetching t=.processing p (some i) error) :
    ∃ body read pdfReader, a=.fetch t (.inspect read pdfReader) ∧ w.fetching t=.opened p body ∧
      Fetcher.inspectPdf c.rt.sha256 pdfReader read body none c.fetcherMaxDocumentBytes=.ok i := by
  obtain hsame | ⟨b,rfl,h⟩ := fetching_step ha t
  · exact absurd (hsame ▸ hafter) hbefore
  · rw [hafter] at h
    generalize w.fetching t=task at h
    generalize after.db=db at h
    generalize hnext : Fetcher.Task.processing p (some i) error=next at h
    cases h with
    | inspected h =>
      cases hnext
      exact ⟨_,_,_,rfl,rfl,h⟩
    | processed =>
      split at hnext
      · cases hnext
      · cases hnext
    | _ => cases hnext

/-- Only an extraction gives an extractor call a result. -/
lemma result_step {w after : World} {a : Action} (ha : step c w a=some after) {t : ℕ}
    {p : DocumentFetched} {result : Extractor.ExtractionResult}
    (hbefore : ¬((w.extracting t).active=some p ∧ (w.extracting t).result=some result))
    (hafter : (after.extracting t).active=some p ∧ (after.extracting t).result=some result) :
    ∃ body read convert, a=.extract t (.extract read convert) ∧ w.extracting t=.opened p body ∧
      Extractor.extractPdf c.rt read body c.extractionMaxBytes p.contentSha256 convert=.ok result := by
  obtain hsame | ⟨b,rfl,h⟩ := extracting_step ha t
  · exact absurd (hsame ▸ hafter) hbefore
  · obtain ⟨hp,hr⟩ := hafter
    obtain hr | ⟨q,body,read,convert,hopened,rfl,hextract⟩ := h.result _ _ _ _ hr
    · obtain hp | rfl := h.active _ _ _ _ hp
      · exact absurd ⟨hp,hr⟩ hbefore
      · generalize w.extracting t=task at h hr
        generalize after.extracting t=next at h
        generalize after.stores=stores at h
        cases h
        cases hr
    · obtain hp | hp := h.active _ _ _ _ hp
      · rw [hopened] at hp
        cases hp
        exact ⟨body,read,convert,rfl,hopened,hextract⟩
      · cases hp

theorem inspected_of_processing {past : List (World × Action)} {w : World}
    (h : (system c).Traced past w) {t : ℕ} {p : DocumentSubmitted} {i : Fetcher.SourceInspection}
    {error : Option Fetcher.FetchValidationError} (ht : w.fetching t=.processing p (some i) error) :
    ∃ content, Inspected c past t p i content ∧ i.contentSha256=hexdigest (c.rt.sha256 content) := by
  obtain ⟨before,s,a,after,hpast,-,hstep,hnot,hthen⟩ :=
    h.brought (P := fun w => w.fetching t=.processing p (some i) error)
      (fun w hw heq => by rw [hw.fetching t] at heq; cases heq) ht
  obtain ⟨body,read,pdfReader,rfl,hopened,hinspect⟩ := inspection_step hstep hnot hthen
  obtain ⟨content,count,hread,-,hi⟩ := Fetcher.inspectPdf_eq_ok hinspect
  have hhash : i.contentSha256=hexdigest (c.rt.sha256 content) := by
    simp only [hi,Fetcher.sourceInspection]
  exact ⟨content,⟨s,body,read,pdfReader,hpast.subset (by simp),hopened,hread,hinspect⟩,hhash⟩

theorem extracted_of_result {past : List (World × Action)} {w : World}
    (h : (system c).Traced past w) {t : ℕ} {p : DocumentFetched} {result : Extractor.ExtractionResult}
    (hp : (w.extracting t).active=some p) (hr : (w.extracting t).result=some result) :
    ∃ content, Extracted c past t p result content ∧
      hexdigest (c.rt.sha256 content)=p.contentSha256 := by
  obtain ⟨before,s,a,after,hpast,-,hstep,hnot,hthen⟩ :=
    h.brought (P := fun w => (w.extracting t).active=some p ∧ (w.extracting t).result=some result)
      (fun w hw heq => by rw [hw.extracting t] at heq; cases heq.1) ⟨hp,hr⟩
  obtain ⟨body,read,convert,rfl,hopened,hextract⟩ := result_step hstep hnot hthen
  obtain ⟨content,exported,markdown,hread,-,-,hhash,-⟩ := Extractor.extractPdf_eq_ok hextract
  exact ⟨content,⟨s,body,read,convert,hpast.subset (by simp),hopened,hread,hextract⟩,hhash⟩

/-- The ids of versions are unique. -/
theorem versionIds_nodup {past : List (World × Action)} {w : World} (h : (system c).Traced past w) :
    (w.db.versions.map (·.id)).Nodup := (constraints_reachable h.reachable).versionIds

/-- A version keeps its origin. -/
lemma origin_kept {past : List (World × Action)} {w : World} (h : (system c).Traced past w)
    {s : World} {a : Action} (hs : (s,a) ∈ past) {v : DocumentVersion} (hv : v ∈ s.db.versions) :
    origin v ∈ w.db.versions.map origin := by
  refine h.kept (P := fun w => origin v ∈ w.db.versions.map origin) ?_ hs
    (List.mem_map_of_mem hv)
  intro w a after hw ha
  obtain horigins | ⟨r,d,_,_,_,_,_,-,-,-,hversions⟩ := step_origins ha
  · rw [horigins]
    exact hw
  · rw [hversions,List.map_append]
    exact List.mem_append_left _ hw

/-- A version a step has seen is the one of its id from then on, with the hash of its submission. -/
theorem recorded_of_mem {past : List (World × Action)} {w : World} (h : (system c).Traced past w)
    {s : World} {a : Action} (hs : (s,a) ∈ past) {v : DocumentVersion} (hv : v ∈ s.db.versions) :
    Recorded c past w v.tenantId v.id v.contentSha256 := by
  have hkept := origin_kept h hs hv
  refine ⟨?_,?_⟩
  · obtain ⟨x,hx,horigin⟩ := List.mem_map.mp hkept
    simp only [origin,Prod.mk.injEq] at horigin
    obtain ⟨hid,htenant,hhash⟩ := horigin
    refine ⟨x,?_,htenant,hhash⟩
    rw [← hid]
    exact filter_key_eq (versionIds_nodup h) hx
  · have hnone : ∀ w, (system c).init w → origin v ∉ w.db.versions.map origin := by
      intro w hw
      obtain ⟨tenants,hdb⟩ := hw.db
      rw [hdb]
      exact List.not_mem_nil
    obtain ⟨before,u,b,after,hpast,-,hstep,hnot,hthen⟩ :=
      h.brought (P := fun w => origin v ∈ w.db.versions.map origin) hnone hkept
    obtain horigins | ⟨r,d,eventId,occurredAt,outboxId,now,fault,rfl,hr,-,hversions⟩ :=
      step_origins hstep
    · rw [horigins] at hthen
      exact absurd hthen hnot
    · rw [hversions,List.map_append] at hthen
      have hnew := List.mem_singleton.mp ((List.mem_append.mp hthen).resolve_left hnot)
      simp only [origin,Submission.Draft.version,Submission.newVersion,Prod.mk.injEq] at hnew
      obtain ⟨hid,htenant,hhash⟩ := hnew
      exact ⟨u,r,eventId,occurredAt,outboxId,now,fault,d,hpast.subset (by simp),hr,hid.symm,
        htenant.symm,hhash.symm⟩

/-- A row was written by a step of the past. -/
lemma inserted {past : List (World × Action)} {w : World} (h : (system c).Traced past w)
    {e : OutboxEvent} (he : e ∈ events w.db) :
    ∃ before s a after, before ++ [(s,a)] <+: past ∧ (system c).Traced before s ∧
      step c s a=some after ∧ e ∉ events s.db ∧ e ∈ events after.db := by
  refine h.brought (P := fun w => e ∈ events w.db) ?_ he
  intro w hw
  obtain ⟨tenants,hdb⟩ := hw.db
  rw [hdb]
  exact List.not_mem_nil

lemma Inspected.mono {before past : List (World × Action)} {t : ℕ} {p : DocumentSubmitted}
    {i : Fetcher.SourceInspection} {content : Bytes} (h : Inspected c before t p i content)
    (hsub : before ⊆ past) : Inspected c past t p i content := by
  obtain ⟨w,body,read,pdfReader,hin,hrest⟩ := h
  exact ⟨w,body,read,pdfReader,hsub hin,hrest⟩

lemma Extracted.mono {before past : List (World × Action)} {t : ℕ} {p : DocumentFetched}
    {result : Extractor.ExtractionResult} {content : Bytes} (h : Extracted c before t p result content)
    (hsub : before ⊆ past) : Extracted c past t p result content := by
  obtain ⟨w,body,read,convert,hin,hrest⟩ := h
  exact ⟨w,body,read,convert,hsub hin,hrest⟩

theorem fetched_integrity {past : List (World × Action)} {w : World} (h : (system c).Traced past w)
    {e : OutboxEvent} (he : e ∈ events w.db) {q : DocumentFetched} (hq : e.payload=.documentFetched q) :
    ∃ content, FetchedFrom c past e content ∧ q.contentSha256=hexdigest (c.rt.sha256 content) ∧
      Recorded c past w e.tenantId e.aggregateId q.contentSha256 := by
  obtain ⟨before,s,a,after,hpast,htraced,ha,hnot,hthen⟩ := inserted h he
  obtain ⟨t,p,i,error,draws,fault,ids,v,rfl,ht,hmatch,hverdict,hrow⟩ := fetched_row ha hthen hnot hq
  obtain ⟨content,hinspected,hhash⟩ := inspected_of_processing htraced ht
  have hin : (s,.fetch t (.process draws fault)) ∈ past := hpast.subset (by simp)
  have hsub : before ⊆ past := fun x hx => hpast.subset (List.mem_append_left _ hx)
  have hv : v ∈ Fetcher.matchingVersions ids.tenantId ids.documentId p.payloadUri s.db := by
    rw [hmatch]
    exact List.mem_singleton_self v
  obtain ⟨hv,hfacts⟩ := List.mem_filter.mp hv
  obtain ⟨htenant,-⟩ := of_decide_eq_true hfacts
  have hpayload : q.contentSha256=i.contentSha256 := by
    rw [hrow] at hq
    rw [← EventPayload.documentFetched.inj hq]
    simp only [buildDocumentFetchedEvent]
  have hrecorded := recorded_of_mem h hin hv
  rw [htenant,← Fetcher.verdict_eq_none hverdict,← hpayload] at hrecorded
  refine ⟨content,⟨s,t,p,i,error,draws,fault,hin,⟨hnot,after,ha,hthen⟩,ht,hinspected.mono hsub⟩,
    hpayload.trans hhash,?_⟩
  rw [hrow]
  exact hrecorded

theorem extracted_integrity {past : List (World × Action)} {w : World} (h : (system c).Traced past w)
    {e : OutboxEvent} (he : e ∈ events w.db) {q : ContentExtracted}
    (hq : e.payload=.contentExtracted q) :
    ∃ content, ExtractedFrom c past e content ∧ hexdigest (c.rt.sha256 content)=q.contentSha256 ∧
      Recorded c past w e.tenantId e.aggregateId q.contentSha256 := by
  obtain ⟨before,s,a,after,hpast,htraced,ha,hnot,hthen⟩ := inserted h he
  obtain ⟨t,p,result,normalizedUri,manifestUri,draws,fault,ids,correlationId,v,rfl,ht,hcurrent,hrow⟩ :=
    extracted_row ha hthen hnot hq
  have hresult : ∃ content, Extracted c before t p result content ∧
      hexdigest (c.rt.sha256 content)=p.contentSha256 :=
    extracted_of_result htraced (by rw [ht]; rfl) (by rw [ht]; rfl)
  obtain ⟨content,hextracted,hhash⟩ := hresult
  have hin : (s,.extract t (.complete draws fault)) ∈ past := hpast.subset (by simp)
  have hsub : before ⊆ past := fun x hx => hpast.subset (List.mem_append_left _ hx)
  have hv : v ∈ Extractor.currentVersions ids p.contentSha256 s.db := by
    rw [hcurrent]
    exact List.mem_singleton_self v
  obtain ⟨hv,hfacts⟩ := List.mem_filter.mp hv
  obtain ⟨htenant,hid,-,hsha,-⟩ := of_decide_eq_true hfacts
  have hpayload : q.contentSha256=p.contentSha256 := by
    rw [hrow] at hq
    rw [← EventPayload.contentExtracted.inj hq]
    simp only [buildContentExtractedEvent]
  have hrecorded := recorded_of_mem h hin hv
  rw [htenant,hid,hsha,← hpayload] at hrecorded
  refine ⟨content,⟨s,t,p,result,normalizedUri,manifestUri,draws,fault,hin,⟨hnot,after,ha,hthen⟩,ht,
    hextracted.mono hsub⟩,hhash.trans hpayload.symm,?_⟩
  rw [hrow]
  exact hrecorded

/-- An artifact in the directory of a hash was made from bytes with that hash. -/
theorem stored_integrity {past : List (World × Action)} {w : World} (h : (system c).Traced past w)
    {t : ℕ} {p : DocumentFetched} {result : Extractor.ExtractionResult} {key : PyStr} {body : Bytes}
    (hstored : Stored past t p result key body) {tenantId versionId : UUID} {hash : PyStr}
    (hkey : Extractor.artifactDirectory tenantId versionId hash <+: key) :
    ∃ content, Extracted c past t p result content ∧ hexdigest (c.rt.sha256 content)=hash := by
  have hresult : ∀ {s : World} {a : Action}, (s,a) ∈ past → (s.extracting t).active=some p →
      (s.extracting t).result=some result → ∃ content, Extracted c past t p result content ∧
        hexdigest (c.rt.sha256 content)=p.contentSha256 := by
    intro s a hin hp hr
    obtain ⟨before,hpast,htraced⟩ := h.past hin
    obtain ⟨content,hextracted,hhash⟩ := extracted_of_result htraced hp hr
    exact ⟨content,hextracted.mono (fun x hx => hpast.subset (List.mem_append_left _ hx)),hhash⟩
  have hdirectory : ∀ {content : Bytes} {ids : Extractor.Ids} {name : PyStr},
      hexdigest (c.rt.sha256 content)=p.contentSha256 → 47 ∉ name →
      Extractor.artifactDirectory tenantId versionId hash <+:
        Extractor.artifactPrefix ids p ++ 47::name → hexdigest (c.rt.sha256 content)=hash := by
    intro content ids name hhash hname hkey
    have hslash : 47 ∉ p.contentSha256 := hhash ▸ Extractor.slash_not_mem_hexdigest _
    exact hhash.trans (Extractor.artifactDirectory_of_prefix hkey hslash hname).2.2.symm
  cases hstored with
  | normalized hin ht hf hids hbody =>
    obtain ⟨content,hextracted,hhash⟩ := hresult hin (by rw [ht]; rfl) (by rw [ht]; rfl)
    rw [Extractor.normalizedKey_eq] at hkey
    exact ⟨content,hextracted,hdirectory hhash (by decide) hkey⟩
  | manifest hin ht hf hids hbody =>
    obtain ⟨content,hextracted,hhash⟩ := hresult hin (by rw [ht]; rfl) (by rw [ht]; rfl)
    rw [Extractor.manifestKey_eq] at hkey
    exact ⟨content,hextracted,hdirectory hhash (by decide) hkey⟩

/-- A call of `put_json` changes the object under its key only. -/
lemma put_changes {bucket : BucketName} {w after : Extractor.Stores} {p : DocumentFetched}
    {key : Extractor.Ids → PyStr} {value : List (PyStr × Json)} {fault : Fault}
    {next : PyStr → Extractor.Task} {task : Extractor.Task}
    (h : Extractor.Put bucket w p ((Extractor.payloadIds p).map key) value fault next after task) {k : PyStr}
    (hchanged : after.artifacts k≠w.artifacts k) :
    ∃ ids body, Extractor.payloadIds p=.ok ids ∧ Extractor.artifactBody value=.ok body ∧
      fault≠.before ∧ k=key ids ∧ after.artifacts k=some body := by
  obtain ⟨rfl,-⟩ | ⟨ids,body,hids,hbody,hf,rfl⟩ := h.stores
  · exact absurd rfl hchanged
  · by_cases hk : k=key ids
    · exact ⟨ids,body,hids,hbody,hf,hk,by simp [Extractor.Stores.put,hk]⟩
    · exact absurd (by simp [Extractor.Stores.put,hk]) hchanged

theorem extract_stores {past : List (World × Action)} {w : World} {t : ℕ} {a : Extractor.Action}
    {after : Extractor.Stores} {task : Extractor.Task} (hin : (w,.extract t a) ∈ past)
    (h : Extractor.Transition c.rt c.sourceBucket c.artifactBucket c.extractionMaxBytes w.source
      w.stores (w.extracting t) a after task) {key : PyStr}
    (hchanged : after.artifacts key≠w.stores.artifacts key) :
    ∃ p result body, Stored past t p result key body ∧ after.artifacts key=some body := by
  generalize ht : w.extracting t=before at h
  cases h with
  | @putNormalized p result fault _ _ h =>
    obtain ⟨ids,body,hids,hbody,hf,hkey,hstored⟩ := put_changes h hchanged
    refine ⟨p,result,body,?_,hstored⟩
    rw [hkey]
    exact .normalized hin ht hf hids hbody
  | @putManifest p result uri fault _ _ h =>
    obtain ⟨ids,body,hids,hbody,hf,hkey,hstored⟩ := put_changes h hchanged
    refine ⟨p,result,body,?_,hstored⟩
    rw [hkey]
    exact .manifest hin ht hf hids hbody
  | _ => exact absurd rfl hchanged

/-- An object of the artifact bucket changes only when a call stores an artifact under its key. -/
theorem artifacts_step {past : List (World × Action)} {w after : World} {a : Action}
    (hin : (w,a) ∈ past) (ha : step c w a=some after) {key : PyStr}
    (hchanged : after.artifacts key≠w.artifacts key) :
    ∃ t p result body, Stored past t p result key body ∧ after.artifacts key=some body := by
  cases transition_of_step ha with
  | extract hs => exact ⟨_,extract_stores hin hs hchanged⟩
  | _ => exact absurd rfl hchanged

/-- Over every run: the hash of a `DocumentFetched` row is that of the bytes its fetcher call
inspected, the hash of a `ContentExtracted` row is that of the bytes its extractor call read, both are
the hash recorded by the submission of the version, and what is stored in the directory of a hash
was made from bytes with that hash; nothing else changes the artifact bucket. -/
theorem content_integrity {past : List (World × Action)} {w : World} (h : (system c).Traced past w) :
    (∀ e ∈ events w.db, ∀ q, e.payload=.documentFetched q → ∃ content,
      FetchedFrom c past e content ∧ q.contentSha256=hexdigest (c.rt.sha256 content) ∧
        Recorded c past w e.tenantId e.aggregateId q.contentSha256) ∧
    (∀ e ∈ events w.db, ∀ q, e.payload=.contentExtracted q → ∃ content,
      ExtractedFrom c past e content ∧ hexdigest (c.rt.sha256 content)=q.contentSha256 ∧
        Recorded c past w e.tenantId e.aggregateId q.contentSha256) ∧
    (∀ t p result key body, Stored past t p result key body → ∀ tenantId versionId hash,
      Extractor.artifactDirectory tenantId versionId hash <+: key → ∃ content,
        Extracted c past t p result content ∧ hexdigest (c.rt.sha256 content)=hash) ∧
    (∀ s a after, (s,a) ∈ past → step c s a=some after → ∀ key,
      after.artifacts key≠s.artifacts key → ∃ t p result body,
        Stored past t p result key body ∧ after.artifacts key=some body) := by
  refine ⟨?_,?_,?_,?_⟩
  · intro e he q hq
    exact fetched_integrity h he hq
  · intro e he q hq
    exact extracted_integrity h he hq
  · intro t p result key body hstored tenantId versionId hash hkey
    exact stored_integrity h hstored hkey
  · intro s a after hin ha key hchanged
    exact artifacts_step hin ha hchanged

/-- The run of the small upload, with its two derived events and its two artifacts. -/
theorem small_content_integrity : ∃ past w, (system plainConfig).Traced past w ∧
    (events w.db).length=3 ∧
    (∀ e ∈ events w.db, ∀ q, e.payload=.documentFetched q → ∃ content,
      FetchedFrom plainConfig past e content ∧ q.contentSha256=hexdigest (plainConfig.rt.sha256 content) ∧
        Recorded plainConfig past w e.tenantId e.aggregateId q.contentSha256) ∧
    (∀ e ∈ events w.db, ∀ q, e.payload=.contentExtracted q → ∃ content,
      ExtractedFrom plainConfig past e content ∧
        hexdigest (plainConfig.rt.sha256 content)=q.contentSha256 ∧
        Recorded plainConfig past w e.tenantId e.aggregateId q.contentSha256) := by
  have hrun : ((system plainConfig).run plainWorld (smallRun (py "text"))).any
      (fun w => (events w.db).length=3)=true := by decide +kernel
  obtain ⟨w,hrun,hlength⟩ := (Option.any_eq_true _ _).mp hrun
  obtain ⟨past,hpast⟩ := System.Traced.run (.start plainWorld_initial) hrun
  obtain ⟨hfetched,hextracted,-⟩ := content_integrity hpast
  exact ⟨_,w,hpast,of_decide_eq_true hlength,hfetched,hextracted⟩

end RagIngestion.Pipeline
