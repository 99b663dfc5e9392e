import RagIngestion.Extractor.Resources
import RagIngestion.Submission.Conflicts

/-! The verdict of a whole extractor call: which events are extracted, what is recorded of them
and of all others, and that nothing of the call is left in its worker. -/
namespace RagIngestion.Extractor
open RagIngestion.Python RagIngestion.Domain RagIngestion.Database RagIngestion.Storage
open RagIngestion.Library

/-- A payload passes the checks of `handle` by these three fields. -/
theorem payloadError_eq_none_iff {payload : DocumentFetched} : payloadError payload=none ↔
    payload.eventType=py "DocumentFetched" ∧ payload.inspectionStatus=py "valid" ∧
      payload.detectedMimeType=py "application/pdf" := by
  unfold payloadError
  split_ifs with htype hsource
  · exact iff_of_false (by simp) (fun h => htype h.1)
  · refine iff_of_false (by simp) ?_
    rintro ⟨-,hstatus,hmime⟩
    exact hsource.elim (fun h => h hstatus) (fun h => h hmime)
  · rw [not_or,not_not,not_not] at hsource
    exact iff_of_true rfl ⟨not_not.mp htype,hsource⟩

/-- A source of known content is extracted exactly when it fits, is not empty, converts, and has
the expected hash. -/
theorem extractPdf_returns_iff {σ : Type} {rt : Runtime} {read : Reader σ} {remaining : σ → Bytes}
    (hlaw : Lawful read remaining) {source : σ} {maxBytes : ℕ} {expectedSha256 : PyStr}
    {convert : Bytes → Conversion} :
    (∃ result, extractPdf rt read source maxBytes expectedSha256 convert=.ok result) ↔
      0<(remaining source).length ∧ (remaining source).length ≤ maxBytes ∧
        (∃ converted, convert (remaining source)=.ok converted) ∧
          hexdigest (rt.sha256 (remaining source))=expectedSha256 := by
  constructor
  · rintro ⟨result,h⟩
    obtain ⟨content,exported,markdown,hread,hne,hconvert,hsha,-⟩ := extractPdf_eq_ok h
    obtain ⟨rfl,hfits⟩ := (readSource_eq_ok_iff hlaw).mp hread
    exact ⟨List.length_pos_iff.mpr hne,hfits,⟨_,hconvert⟩,hsha⟩
  · rintro ⟨hpos,hfits,⟨⟨exported,markdown⟩,hconvert⟩,rfl⟩
    exact ⟨_,extractPdf_of_read ((readSource_eq_ok_iff hlaw).mpr ⟨rfl,hfits⟩)
      (List.length_pos_iff.mp hpos) hconvert⟩

/-- The columns of a version that only a result fills. -/
def artifactUris (v : DocumentVersion) : UUID × Option PyStr × Option PyStr :=
  (v.id,v.normalizedObjectUri,v.extractionManifestUri)

namespace Call

/-- A new event over healthy services: its source has these bytes, and its converter returns text
that can be encoded or raises an extraction error. -/
structure Delivered (c : Call) (content : Bytes) : Prop where
  names : Names c.payload c.ids c.correlationId
  constraints : c.stores.db.Constraints
  unprocessed : c.claim ∉ c.stores.db.processedEvents
  drawn : ∀ x ∈ c.stores.db.outbox, x.id≠c.draws.outboxId ∧
    ¬(x.event.tenantId=c.ids.tenantId ∧ x.event.eventId=c.draws.eventId)
  source : ∃ o, getObject c.sourceBucket c.source c.payload.payloadUri=.ok o ∧ o.body=content
  read : Lawful c.read id
  exports : ∀ bytes exported markdown, c.convert bytes=.ok (exported,markdown) →
    Utf8Tree (.dict exported) ∧ Scalar markdown
  converts : ∀ bytes e, c.convert bytes≠.error (.other e)
  doclingVersion : Scalar c.rt.doclingVersion

/-- What an event and its source must be to be extracted. -/
structure Accepts (c : Call) (content : Bytes) : Prop where
  eventType : c.payload.eventType=py "DocumentFetched"
  inspectionStatus : c.payload.inspectionStatus=py "valid"
  detectedMimeType : c.payload.detectedMimeType=py "application/pdf"
  nonempty : 0<content.length
  fits : content.length ≤ c.maxBytes
  converts : ∃ converted, c.convert content=.ok converted
  hash : hexdigest (c.rt.sha256 content)=c.payload.contentSha256
  version : ∃ v ∈ c.stores.db.versions, v.tenantId=c.ids.tenantId ∧ v.documentId=c.ids.documentId ∧
    v.id=c.ids.versionId ∧ v.contentSha256=c.payload.contentSha256 ∧ v.deletedAt=none

/-- The call has returned and committed one event, of this type. -/
structure Commits (c : Call) (eventType : PyStr) (s : Stores × Task) : Prop where
  returned : s.2=.returned c.payload true
  event : ∃ row, s.1.db.outbox=c.stores.db.outbox ++ [row] ∧ row.event.eventType=eventType

def Extracts (c : Call) (s : Stores × Task) : Prop := c.Commits (py "ContentExtracted") s

/-- The call has committed a rejection, and no version has got artifacts from it. -/
def Rejects (c : Call) (s : Stores × Task) : Prop :=
  c.Commits (py "ContentExtractionRejected") s ∧
    s.1.db.versions.map artifactUris=c.stores.db.versions.map artifactUris

variable {c : Call} {content : Bytes}

lemma Delivered.claimable (h : c.Delivered content) (ht : c.ids.tenantId ∈ c.stores.db.tenants) :
    Claimable c.claim c.draws c.stores.db := ⟨ht,h.unprocessed,h.drawn⟩

lemma currentVersions_ne_nil_iff : currentVersions c.ids c.payload.contentSha256 c.stores.db≠[] ↔
    ∃ v ∈ c.stores.db.versions, v.tenantId=c.ids.tenantId ∧ v.documentId=c.ids.documentId ∧
      v.id=c.ids.versionId ∧ v.contentSha256=c.payload.contentSha256 ∧ v.deletedAt=none := by
  rw [currentVersions,Ne,List.filter_eq_nil_iff]
  push Not
  simp only [decide_eq_true_eq]
  constructor
  · rintro ⟨v,hv,ht,hid,hd,hsha,hdeleted⟩
    exact ⟨v,hv,ht,hd,hid,hsha,hdeleted⟩
  · rintro ⟨v,hv,ht,hd,hid,hsha,hdeleted⟩
    exact ⟨v,hv,ht,hid,hd,hsha,hdeleted⟩

/-- An event is accepted by the checks of its payload, by `extract_pdf` and by `complete`. -/
lemma Delivered.accepts_iff (h : c.Delivered content) : c.Accepts content ↔
    payloadError c.payload=none ∧
      (∃ result, extractPdf c.rt c.read content c.maxBytes c.payload.contentSha256 c.convert=
        .ok result) ∧
      currentVersions c.ids c.payload.contentSha256 c.stores.db≠[] := by
  rw [payloadError_eq_none_iff,extractPdf_returns_iff h.read,currentVersions_ne_nil_iff]
  constructor
  · intro ha
    exact ⟨⟨ha.eventType,ha.inspectionStatus,ha.detectedMimeType⟩,
      ⟨ha.nonempty,ha.fits,ha.converts,ha.hash⟩,ha.version⟩
  · rintro ⟨⟨htype,hstatus,hmime⟩,⟨hpos,hfits,hconverts,hsha⟩,hv⟩
    exact ⟨htype,hstatus,hmime,hpos,hfits,hconverts,hsha,hv⟩

lemma commits_of_committed {o : Outcome} {after : Db} (w : Stores)
    (h : Committed o c.draws.outboxId c.draws.now c.stores.db after) :
    c.Commits o.event.eventType ({ w with db := after },.returned c.payload true) := by
  refine ⟨rfl,.inserted c.draws.outboxId o.event c.draws.now,?_,rfl⟩
  rw [h.result]
  rfl

lemma rejects_of_committed {error : ExtractionError} {after : Db} (w : Stores)
    (h : Committed (rejection c.ids c.correlationId error c.draws) c.draws.outboxId c.draws.now
      c.stores.db after) : c.Rejects ({ w with db := after },.returned c.payload true) := by
  refine ⟨commits_of_committed w h,?_⟩
  rw [h.result]
  exact map_updateWhere (f := fun v => (markFailed error v).setUpdatedAt c.draws.versionUpdatedAt)
    (fun _ _ => rfl) c.stores.db.versions

/-- The call extracts a source that is accepted and rejects every other. -/
lemma Delivered.decides (h : c.Delivered content) (ht : c.ids.tenantId ∈ c.stores.db.tenants) :
    (c.Accepts content ∧ c.Extracts c.handle) ∨ (¬c.Accepts content ∧ c.Rejects c.handle) := by
  have hc := h.claimable ht
  have haccepts := h.accepts_iff
  cases hp : payloadError c.payload with
  | some e =>
    have hnext : c.next (c.stores,.started c.payload)=some (c.stores,.rejecting c.payload e) := by
      simp only [next,action,Option.bind_some,step,hp]
    obtain ⟨after,hcommit,hend⟩ := returns_rejecting h.names hc rfl e 4
    rw [handle,follow_step hnext,hend]
    refine .inr ⟨?_,rejects_of_committed _ hcommit⟩
    intro ha
    rw [(haccepts.mp ha).1] at hp
    cases hp
  | none =>
    obtain ⟨o,ho,rfl⟩ := h.source
    have hopened : c.next (c.stores,.started c.payload)=some (c.stores,.opened c.payload o.body) := by
      simp only [next,action,Option.bind_some,step,hp,ho]
    rw [handle,follow_step hopened]
    cases hx : extractPdf c.rt c.read o.body c.maxBytes c.payload.contentSha256 c.convert with
    | error e =>
      cases e with
      | other e =>
        obtain ⟨bytes,hraises⟩ := extractPdf_eq_other hx
        exact absurd hraises (h.converts bytes e)
      | extraction e =>
        have hnext : c.next (c.stores,.opened c.payload o.body)=
            some (c.stores,.rejecting c.payload e) := by rw [next_opened,hx]; rfl
        obtain ⟨after,hcommit,hend⟩ := returns_rejecting h.names hc rfl e 3
        rw [follow_step hnext,hend]
        refine .inr ⟨?_,rejects_of_committed _ hcommit⟩
        intro ha
        obtain ⟨-,⟨result,hok⟩,-⟩ := haccepts.mp ha
        rw [hx] at hok
        cases hok
    | ok result =>
      obtain ⟨bytes,exported,markdown,-,-,hconvert,hsha,hresult⟩ := extractPdf_eq_ok hx
      obtain ⟨htree,hmarkdown⟩ := h.exports bytes exported markdown hconvert
      have hnormalized : (Json.dict result.normalized).ScalarText := by
        rw [hresult]
        exact (scalar_normalized_iff _ _ _ _).mpr (encodable_of_utf8 hmarkdown htree)
      have hmanifest : (Json.dict (manifestArtifact c.payload result)).ScalarText := by
        rw [hresult]
        exact scalar_manifest _ _ _ _ h.doclingVersion (hsha ▸ scalar_hexText 64 _)
      have hnext : c.next (c.stores,.opened c.payload o.body)=
          some (c.stores,.extracted c.payload result) := by rw [next_opened,hx]; rfl
      obtain ⟨w,normalizedUri,manifestUri,hw,hstored⟩ :=
        stores_artifacts h.names hnormalized hmanifest 2
      rw [follow_step hnext,hstored]
      obtain ⟨after,hv,hcommit,hend⟩ | ⟨after,hv,hcommit,hend⟩ := returns_completing h.names hc
        h.constraints.versionIds hw result normalizedUri manifestUri 0
      · rw [hend]
        exact .inl ⟨haccepts.mpr ⟨hp,⟨result,hx⟩,hv⟩,commits_of_committed _ hcommit⟩
      · rw [hend]
        refine .inr ⟨?_,rejects_of_committed _ hcommit⟩
        intro ha
        exact (haccepts.mp ha).2.2 hv

lemma not_extracts_of_rejects {s : Stores × Task} (h : c.Rejects s) : ¬c.Extracts s := by
  intro hextracts
  obtain ⟨row,hrow,htype⟩ := hextracts.event
  obtain ⟨row',hrow',htype'⟩ := h.1.event
  cases List.append_cancel_left (hrow.symm.trans hrow')
  exact absurd (htype.symm.trans htype') (by decide)

/-- An event of a tenant is extracted exactly when it is accepted, and every other is rejected with
one event and no artifacts; the call leaves its worker as it found it. -/
theorem extract_verdict_exact (c : Call) (content : Bytes) (h : c.Delivered content)
    (ht : c.ids.tenantId ∈ c.stores.db.tenants) (path : PyStr) (body : ℕ) (w : Worker)
    (rest : List (Bytes → Conversion)) (hpath : w.files path=none) (hpool : w.pool=c.convert::rest) :
    (c.Extracts (c.attempt path body w).1 ↔ c.Accepts content) ∧
      (¬c.Accepts content → c.Rejects (c.attempt path body w).1) ∧
      w.Released (c.attempt path body w).2 := by
  obtain ⟨hsame,hreleased⟩ := c.attempt_spec body hpath hpool
  rw [hsame]
  obtain ⟨haccepts,hextracts⟩ | ⟨hnot,hrejects⟩ := h.decides ht
  · refine ⟨iff_of_true hextracts haccepts,fun hnot => absurd haccepts hnot,hreleased ?_⟩
    simp [hextracts.returned]
  · refine ⟨iff_of_false (not_extracts_of_rejects hrejects) hnot,fun _ => hrejects,hreleased ?_⟩
    simp [hrejects.1.returned]

/-- A call for an unknown tenant does not return, and changes nothing in the database. -/
theorem unknown_tenant_writes_nothing (hn : Names c.payload c.ids c.correlationId)
    (hconstraints : c.stores.db.Constraints) (ht : c.ids.tenantId ∉ c.stores.db.tenants) (n : ℕ) :
    (follow c.next n (c.stores,.started c.payload)).1.db=c.stores.db ∧
      ∀ p b, (follow c.next n (c.stores,.started c.payload)).2≠.returned p b := by
  have hunclaimed : ∀ ids, payloadIds c.payload=.ok ids →
      ⟨ids.tenantId,ids.eventId,consumerName⟩ ∉ c.stores.db.processedEvents := by
    intro ids hids hmem
    cases Except.ok.inj (hn.ids.symm.trans hids)
    exact ht (hconstraints.claimTenants _ hmem)
  have hstep : ∀ s t : Stores × Task, (s.1.db=c.stores.db ∧ s.2.payload=some c.payload ∧
      ∀ p b, s.2≠.returned p b) → c.next s=some t →
      t.1.db=c.stores.db ∧ t.2.payload=some c.payload ∧ ∀ p b, t.2≠.returned p b := by
    rintro ⟨s,task⟩ ⟨after,next⟩ ⟨hdb,hpayload,-⟩ hnext
    obtain ⟨a,-,ha⟩ := Option.bind_eq_some_iff.mp hnext
    have htrans := transition_of_step _ _ _ _ ha
    have hkept := htrans.payload _ _ _ _ hpayload
    cases htrans with
    | putNormalized hput => cases hput <;> exact ⟨hdb,hkept,by simp⟩
    | putManifest hput => cases hput <;> exact ⟨hdb,hkept,by simp⟩
    | completed hok =>
      cases Option.some.inj hpayload
      rw [hdb] at hok
      obtain ⟨ids,hids,hmem,-⟩ | ⟨ids,_,_,_,hn',-,hcommit,-⟩ := complete_eq_ok hok
      · exact absurd hmem (hunclaimed ids hids)
      · cases Except.ok.inj (hn.ids.symm.trans hn'.ids)
        exact absurd hcommit.tenant ht
    | rejected hok =>
      cases Option.some.inj hpayload
      rw [hdb] at hok
      obtain ⟨ids,hids,hmem,-⟩ | ⟨ids,_,_,hn',hcommit,-⟩ := reject_eq_ok hok
      · exact absurd hmem (hunclaimed ids hids)
      · cases Except.ok.inj (hn.ids.symm.trans hn'.ids)
        exact absurd hcommit.tenant ht
    | _ => exact ⟨hdb,hkept,by simp⟩
  obtain ⟨hdb,-,hreturned⟩ := follow_invariant hstep n (s := (c.stores,.started c.payload))
    ⟨rfl,rfl,by simp⟩
  exact ⟨hdb,hreturned⟩

/-- The call on the event of the small upload, once it is fetched, over a database. -/
def fetchedCall (db : Db) : Call where
  rt := plainRuntime
  sourceBucket := minioSourceBucket
  artifactBucket := minioArtifactBucket
  maxBytes := 1048576
  source := fun _ => some ⟨plainSource,py "application/pdf",plainHash⟩
  read := readAvailable
  convert := fun _ => .ok ([],py "text")
  draws := ⟨⟨8⟩,[],⟨9⟩,2,2,2⟩
  payload := buildDocumentFetchedEvent ⟨6⟩ [] ⟨1⟩ ⟨2⟩ ⟨3⟩
    (objectUri minioSourceBucket Submission.smallDraft.key) (py "application/pdf") plainHash 5 (.dict [])
    ⟨4⟩ ⟨4⟩
  ids := ⟨⟨1⟩,⟨2⟩,⟨3⟩,⟨6⟩⟩
  correlationId := ⟨4⟩
  stores := ⟨fun _ => none,db⟩

lemma fetchedCall_delivered {db : Db} (hdb : db.Constraints) (hnew : db.processedEvents=[])
    (hdrawn : ∀ x ∈ db.outbox, x.id≠⟨9⟩ ∧ x.event.eventId≠⟨8⟩) :
    (fetchedCall db).Delivered plainSource where
  names := by
    refine ⟨?_,UUID.ofText_str _⟩
    simp only [fetchedCall,buildDocumentFetchedEvent,payloadIds,UUID.ofText_str,ok_bind]
  constraints := hdb
  unprocessed := by
    change _ ∉ db.processedEvents
    rw [hnew]
    exact List.not_mem_nil
  drawn := fun x hx => ⟨(hdrawn x hx).1,fun h => (hdrawn x hx).2 h.2⟩
  source := by
    have hkey : sourceKeyOf minioSourceBucket (fetchedCall db).payload.payloadUri=
        .ok Submission.smallDraft.key := by
      change sourceKeyOf minioSourceBucket (objectUri minioSourceBucket Submission.smallDraft.key)=_
      decide +kernel
    exact ⟨_,getObject_of_key hkey rfl,rfl⟩
  read := lawful_readAvailable
  exports := by
    intro bytes exported markdown h
    cases h
    exact ⟨.dict (by simp) (by simp),scalar_py _⟩
  converts := by
    intro bytes e h
    cases h
  doclingVersion := scalar_py _

/-- A worker with one converter and no files. -/
def idleWorker (convert : Bytes → Conversion) : Worker := ⟨fun _ => none,[],[convert]⟩

theorem small_source_extracted :
    ((fetchedCall Submission.submittedDb).Extracts ((fetchedCall Submission.submittedDb).attempt
        (py "/tmp/a.pdf") 0 (idleWorker (fetchedCall Submission.submittedDb).convert)).1 ↔
      (fetchedCall Submission.submittedDb).Accepts plainSource) ∧
    (fetchedCall Submission.submittedDb).Accepts plainSource := by
  have hdelivered := fetchedCall_delivered Submission.submittedDb_constraints rfl
    (by intro x hx; rw [List.mem_singleton.mp hx]; exact ⟨by decide,by decide⟩)
  refine ⟨(extract_verdict_exact _ plainSource hdelivered (List.mem_singleton_self _) _ 0 _ [] rfl
    rfl).1,rfl,rfl,rfl,by decide,by decide,⟨_,rfl⟩,rfl,_,List.mem_singleton_self _,?_⟩
  exact ⟨rfl,rfl,rfl,rfl,rfl⟩

/-- The event of a tenant that is not in the database is neither extracted nor rejected. -/
theorem unknown_tenant_not_rejected : ¬∀ (c : Call) (content : Bytes) (path : PyStr) (body : ℕ)
    (w : Worker) (rest : List (Bytes → Conversion)), c.Delivered content → w.files path=none →
    w.pool=c.convert::rest →
      (c.Extracts (c.attempt path body w).1 ↔ c.Accepts content) ∧
        (¬c.Accepts content → c.Rejects (c.attempt path body w).1) ∧
        w.Released (c.attempt path body w).2 := by
  intro hall
  have hdelivered := fetchedCall_delivered (Db.constraints_empty []) rfl (by simp [Db.empty])
  obtain ⟨-,hrejects,-⟩ := hall (fetchedCall (Db.empty [])) plainSource (py "/tmp/a.pdf") 0
    (idleWorker (fetchedCall (Db.empty [])).convert) [] hdelivered rfl rfl
  have hnot : ¬(fetchedCall (Db.empty [])).Accepts plainSource := by
    intro h
    obtain ⟨v,hv,-⟩ := h.version
    cases hv
  obtain ⟨-,hreturned⟩ := unknown_tenant_writes_nothing hdelivered.names hdelivered.constraints
    List.not_mem_nil 6
  have hsame : ((fetchedCall (Db.empty [])).attempt (py "/tmp/a.pdf") 0
      (idleWorker (fetchedCall (Db.empty [])).convert)).1=(fetchedCall (Db.empty [])).handle :=
    (attempt_spec 0 rfl rfl).1
  have hend := (hrejects hnot).1.returned
  rw [hsame] at hend
  exact hreturned _ _ hend

end Call
end RagIngestion.Extractor
