import RagIngestion.Extractor.ArtifactKeys
import RagIngestion.Pipeline.Commits

/-! What a step does to artifacts and to the extraction columns of versions: it stores one object,
completes one version, rejects one version, or does nothing of the kind. -/
namespace RagIngestion.Pipeline
open RagIngestion.Python RagIngestion.Domain RagIngestion.Database RagIngestion.Storage
open RagIngestion.Library

/-- The step stores this object under this key of the artifact bucket. -/
inductive Puts (w : World) : Action → PyStr → Bytes → Prop
  | normalized {t p result fault ids body} (ht : w.extracting t=.extracted p result)
      (hf : fault≠.before) (hids : Extractor.payloadIds p=.ok ids)
      (hbody : Extractor.artifactBody result.normalized=.ok body) :
      Puts w (.extract t (.putNormalized fault)) (Extractor.normalizedKey ids p) body
  | manifest {t p result uri fault ids body} (ht : w.extracting t=.stored p result uri)
      (hf : fault≠.before) (hids : Extractor.payloadIds p=.ok ids)
      (hbody : Extractor.artifactBody (Extractor.manifestArtifact p result)=.ok body) :
      Puts w (.extract t (.putManifest fault)) (Extractor.manifestKey ids p) body

/-- The columns of a version that the extractor writes, with those that identify it. -/
structure ExtractionColumns where
  id : UUID
  tenantId : UUID
  normalizedObjectUri : Option PyStr
  extractionManifestUri : Option PyStr
  extractionStatus : ExtractionStatus
  extractionMetadata : Json

def columns (v : DocumentVersion) : ExtractionColumns :=
  ⟨v.id,v.tenantId,v.normalizedObjectUri,v.extractionManifestUri,v.extractionStatus,
    v.extractionMetadata⟩

/-- The columns after the completion of a result. -/
def completedColumns (bucket : BucketName) (p : DocumentFetched) (ids : Extractor.Ids)
    (result : Extractor.ExtractionResult) : ExtractionColumns :=
  ⟨ids.versionId,ids.tenantId,some (objectUri bucket (Extractor.normalizedKey ids p)),
    some (objectUri bucket (Extractor.manifestKey ids p)),result.extractionStatus,result.quality⟩

/-- A call that has stored its artifacts knows their URIs, and its result is no failure. -/
def Addressed (bucket : BucketName) : Extractor.Task → Prop
  | .extracted _ result => result.extractionStatus≠.failed
  | .stored p result normalizedUri => result.extractionStatus≠.failed ∧
    ∃ ids, Extractor.payloadIds p=.ok ids ∧
      normalizedUri=objectUri bucket (Extractor.normalizedKey ids p)
  | .completing p result normalizedUri manifestUri => result.extractionStatus≠.failed ∧
    ∃ ids, Extractor.payloadIds p=.ok ids ∧
      normalizedUri=objectUri bucket (Extractor.normalizedKey ids p) ∧
      manifestUri=objectUri bucket (Extractor.manifestKey ids p)
  | _ => True

/-- What the extractor would see of a step. -/
inductive Effect (bucket : BucketName) (w : World) (a : Action) (after : World) : Prop
  | quiet (hputs : ∀ key body, ¬Puts w a key body) (hcompletes : ∀ p ids r, ¬Completes w a p ids r)
      (hrefuses : ∀ ids, ¬Refuses w a ids) (hartifacts : after.artifacts=w.artifacts)
      (hcolumns : after.db.versions.map columns=w.db.versions.map columns ∨
        ∃ v, v.normalizedObjectUri=none ∧ v.extractionManifestUri=none ∧
          (∀ x ∈ w.db.versions, x.id≠v.id) ∧ after.db.versions=w.db.versions ++ [v])
  | put {key body} (h : Puts w a key body)
      (hartifacts : after.artifacts=Function.update w.artifacts key (some body))
      (hversions : after.db.versions=w.db.versions)
  | complete {p ids result f} (h : Completes w a p ids result)
      (hartifacts : after.artifacts=w.artifacts) (hstatus : result.extractionStatus≠.failed)
      (hversions : after.db.versions=
        updateWhere (fun v => v.tenantId=ids.tenantId ∧ v.id=ids.versionId) f w.db.versions)
      (hf : ∀ v, v.tenantId=ids.tenantId → v.id=ids.versionId →
        columns (f v)=completedColumns bucket p ids result)
  | reject {ids error clock} (h : Refuses w a ids) (hartifacts : after.artifacts=w.artifacts)
      (hversions : after.db.versions=
        updateWhere (fun v => v.tenantId=ids.tenantId ∧ v.id=ids.versionId)
          (fun v => (Extractor.markFailed error v).setUpdatedAt clock) w.db.versions)

variable {c : Config}

theorem Puts.unique {w : World} {a : Action} {key key' : PyStr} {body body' : Bytes}
    (h : Puts w a key body) (h' : Puts w a key' body') : key=key' ∧ body=body' := by
  cases h with
  | normalized ht hf hids hbody =>
    cases h' with
    | normalized ht' hf' hids' hbody' =>
      cases ht.symm.trans ht'
      cases hids.symm.trans hids'
      cases hbody.symm.trans hbody'
      exact ⟨rfl,rfl⟩
  | manifest ht hf hids hbody =>
    cases h' with
    | manifest ht' hf' hids' hbody' =>
      cases ht.symm.trans ht'
      cases hids.symm.trans hids'
      cases hbody.symm.trans hbody'
      exact ⟨rfl,rfl⟩

/-- A call finds out its URIs when it stores its artifacts. -/
theorem addressed_transition {source : PyStr → Option StoredObject} {w after : Extractor.Stores}
    {task next : Extractor.Task} {a : Extractor.Action} (htask : Addressed c.artifactBucket task)
    (h : Extractor.Transition c.rt c.sourceBucket c.artifactBucket c.extractionMaxBytes source w
      task a after next) : Addressed c.artifactBucket next := by
  cases h with
  | extracted h =>
    show _≠_
    rw [Extractor.extractPdf_status h]
    split <;> decide
  | putNormalized h =>
    cases h with
    | stored hk hb hf =>
      obtain ⟨ids,hp,hk⟩ := Extractor.map_payloadIds hk
      exact ⟨htask,ids,hp,by rw [hk]⟩
    | _ => exact trivial
  | putManifest h =>
    cases h with
    | stored hk hb hf =>
      obtain ⟨hstatus,ids,hp,huri⟩ := htask
      obtain ⟨ids',hp',hk⟩ := Extractor.map_payloadIds hk
      cases hp.symm.trans hp'
      exact ⟨hstatus,ids,hp,huri,by rw [hk]⟩
    | _ => exact trivial
  | completed => split <;> exact trivial
  | rejected => split <;> exact trivial
  | _ => exact trivial

/-- The result of a completing call is no failure, and its URIs are those of its keys. -/
lemma Addressed.completedColumns {bucket : BucketName} {p : DocumentFetched}
    {result : Extractor.ExtractionResult} {normalizedUri manifestUri : PyStr} {ids : Extractor.Ids}
    (h : Addressed bucket (.completing p result normalizedUri manifestUri))
    (hids : Extractor.payloadIds p=.ok ids) {rt : Extractor.Runtime} {v : DocumentVersion}
    (ht : v.tenantId=ids.tenantId) (hid : v.id=ids.versionId) {clock : Time} :
    columns ((Extractor.recordExtraction rt result normalizedUri manifestUri v).setUpdatedAt clock)=
      Pipeline.completedColumns bucket p ids result := by
  obtain ⟨-,ids',hids',hn,hm⟩ := h
  cases hids.symm.trans hids'
  simp only [columns,DocumentVersion.setUpdatedAt,Extractor.recordExtraction,
    Pipeline.completedColumns,ht,hid,hn,hm]

lemma versions_committed {o : Outcome} {outboxId : UUID} {now : Time} {before after : Db} {id : UUID}
    {f : DocumentVersion → DocumentVersion} (h : Committed o outboxId now before after)
    (ho : o.version=some (id,f)) :
    after.versions=updateWhere (fun v => v.tenantId=o.claim.tenantId ∧ v.id=id)
      (fun v => (f v).setUpdatedAt o.versionUpdatedAt) before.versions := by
  rw [h.result,Outcome.apply_versions,Outcome.applyVersions,ho]

theorem extract_effect {w : World} {t : ℕ} {a : Extractor.Action} {stores : Extractor.Stores}
    {task : Extractor.Task} (htask : Addressed c.artifactBucket (w.extracting t))
    (hs : Extractor.Transition c.rt c.sourceBucket c.artifactBucket c.extractionMaxBytes w.source
      w.stores (w.extracting t) a stores task) :
    Effect c.artifactBucket w (.extract t a)
      { w with
        artifacts := stores.artifacts
        db := stores.db
        extracting := Function.update w.extracting t task } := by
  obtain ⟨hquiet,hcompletes,hrefuses⟩ | hcommits := extract_commits hs
  · have hcolumns : stores.db.versions.map columns=w.db.versions.map columns := by
      rw [hquiet.versions]
    generalize ht : w.extracting t=before at hs
    cases hs with
    | putNormalized h =>
      obtain ⟨hsame,hno⟩ | ⟨ids,body,hids,hbody,hf,hafter⟩ := h.stores
      · rw [hsame]
        refine .quiet ?_ hcompletes hrefuses rfl (.inl rfl)
        rintro key body ⟨ht',hf,hids,hbody⟩
        cases ht.symm.trans ht'
        exact hno hf _ _ hids hbody
      · rw [hafter]
        exact .put (.normalized ht hf hids hbody) rfl rfl
    | putManifest h =>
      obtain ⟨hsame,hno⟩ | ⟨ids,body,hids,hbody,hf,hafter⟩ := h.stores
      · rw [hsame]
        refine .quiet ?_ hcompletes hrefuses rfl (.inl rfl)
        intro key body hput
        cases hput with
        | manifest ht' hf hids hbody =>
          cases ht.symm.trans ht'
          exact hno hf _ _ hids hbody
      · rw [hafter]
        exact .put (.manifest ht hf hids hbody) rfl rfl
    | _ => exact .quiet (by rintro _ _ ⟨⟩) hcompletes hrefuses rfl (.inl hcolumns)
  · generalize stores.db=db at hcommits ⊢
    cases hcommits with
    | complete ht hf hn hv hcommit =>
      have hartifacts : stores.artifacts=w.artifacts := by
        generalize w.extracting t=before at hs
        cases hs <;> rfl
      have hversions := versions_committed hcommit rfl
      rw [ht] at htask
      exact .complete (.mk ht hf hn (hcommit.claimable rfl rfl) hv) hartifacts htask.1 hversions
        (fun v ht hid => htask.completedColumns hn.ids ht hid)
    | reject ht hf hn hcommit =>
      have hartifacts : stores.artifacts=w.artifacts := by
        generalize w.extracting t=before at hs
        cases hs <;> rfl
      have hversions := versions_committed hcommit rfl
      exact .reject (.mk ht hf hn (hcommit.claimable rfl rfl)) hartifacts hversions

lemma submitted_columns {d : Submission.Draft} {sha256 : Bytes → Digest} {bucket : BucketName}
    {eventId : UUID} {occurredAt : PyStr} {outboxId : UUID} {now : Time} {before after : Db}
    (h : d.submission sha256 bucket eventId occurredAt outboxId now before=.ok after) :
    ∃ v, v.normalizedObjectUri=none ∧ v.extractionManifestUri=none ∧
      (∀ x ∈ before.versions, x.id≠v.id) ∧ after.versions=before.versions ++ [v] := by
  obtain ⟨⟨-,-,hfresh,-⟩,rfl⟩ := Submission.Draft.submission_eq_ok _ _ h
  exact ⟨d.version sha256 bucket now,rfl,rfl,hfresh,rfl⟩

lemma fetched_columns {p : DocumentSubmitted} {i : Option Fetcher.SourceInspection}
    {error : Option Fetcher.FetchValidationError} {ids : Fetcher.Ids} {draws : Draws}
    {before after : Db} {o : Outcome} (ho : Fetcher.FetchOutcome p i error ids draws before o)
    (h : Committed o draws.outboxId draws.now before after) :
    after.versions.map columns=before.versions.map columns := by
  cases ho with
  | unknown =>
    rw [h.result]
    rfl
  | invalid =>
    rw [versions_committed h rfl]
    refine map_updateWhere ?_ _
    intro v _
    rfl
  | valid =>
    rw [versions_committed h rfl]
    refine map_updateWhere ?_ _
    intro v _
    rfl

theorem step_effect {w after : World} {a : Action}
    (htasks : ∀ t, Addressed c.artifactBucket (w.extracting t)) (ha : step c w a=some after) :
    Effect c.artifactBucket w a after := by
  have hcommits := step_commits ha
  cases transition_of_step ha with
  | extract hs => exact extract_effect (htasks _) hs
  | submit =>
    refine .quiet (by rintro _ _ ⟨⟩) (by rintro _ _ _ ⟨⟩) (by rintro _ ⟨⟩) rfl ?_
    obtain hquiet | hcommits := hcommits
    · exact .inl (by rw [hquiet.versions])
    · cases hcommits with
      | submit hr h => exact .inr (submitted_columns h)
  | publish =>
    exact .quiet (by rintro _ _ ⟨⟩) (by rintro _ _ _ ⟨⟩) (by rintro _ ⟨⟩) rfl (.inl rfl)
  | fetch =>
    refine .quiet (by rintro _ _ ⟨⟩) (by rintro _ _ _ ⟨⟩) (by rintro _ ⟨⟩) rfl ?_
    obtain hquiet | hcommits := hcommits
    · exact .inl (by rw [hquiet.versions])
    · cases hcommits with
      | fetch ht hf hn ho h => exact .inl (fetched_columns ho h)
  | overwrite =>
    exact .quiet (by rintro _ _ ⟨⟩) (by rintro _ _ _ ⟨⟩) (by rintro _ ⟨⟩) rfl (.inl rfl)

theorem addressed_step {w after : World} {a : Action}
    (htasks : ∀ t, Addressed c.artifactBucket (w.extracting t)) (ha : step c w a=some after) (t : ℕ) :
    Addressed c.artifactBucket (after.extracting t) := by
  obtain hsame | ⟨b,-,h⟩ := extracting_step ha t
  · rw [hsame]
    exact htasks t
  · exact addressed_transition (htasks t) h

end RagIngestion.Pipeline
