import RagIngestion.Extractor.Encoding

/-! Whole calls of `ContentExtractor.handle` over healthy services: which of them end with a
committed outcome of their event. -/
namespace RagIngestion.Extractor
open RagIngestion.Python RagIngestion.Domain RagIngestion.Database RagIngestion.Storage
open RagIngestion.Library

/-- A call, the ids its payload names, and what it finds outside. -/
structure Call where
  rt : Runtime
  sourceBucket : BucketName
  artifactBucket : BucketName
  maxBytes : ℕ
  source : PyStr → Option StoredObject
  read : Reader Bytes
  convert : Bytes → Conversion
  draws : Draws
  payload : DocumentFetched
  ids : Ids
  correlationId : UUID
  stores : Stores

namespace Call

/-- The entry of `rag.processed_events` the call is to write. -/
def claim (c : Call) : ProcessedEvent := ⟨c.ids.tenantId,c.ids.eventId,consumerName⟩

/-- The action the code takes next where no service fails. -/
def action (c : Call) : Task → Option Action
  | .started _ => some (.get .none)
  | .opened _ _ => some (.extract c.read c.convert)
  | .extracted _ _ => some (.putNormalized .none)
  | .stored _ _ _ => some (.putManifest .none)
  | .completing _ _ _ _ => some (.complete c.draws .none)
  | .rejecting _ _ => some (.reject c.draws .none)
  | _ => none

def next (c : Call) (s : Stores × Task) : Option (Stores × Task) :=
  (c.action s.2).bind (step c.rt c.sourceBucket c.artifactBucket c.maxBytes c.source s.1 s.2)

/-- `ContentExtractor.handle`: the stores and the call at its end. -/
def handle (c : Call) : Stores × Task := follow c.next 6 (c.stores,.started c.payload)

/-- The bucket holds every object, the converter raises only extraction errors, its version is
text, and the database can take the outcome of the event. -/
structure Healthy (c : Call) : Prop where
  names : Names c.payload c.ids c.correlationId
  claimable : Claimable c.claim c.draws c.stores.db
  versionKeys : (c.stores.db.versions.map (·.id)).Nodup
  stored : ∀ key, (c.source key).isSome
  converts : ∀ content e, c.convert content≠.error (.other e)
  doclingVersion : Scalar c.rt.doclingVersion

/-- The call has returned, with an outcome of its event committed. -/
def Settled (c : Call) (s : Stores × Task) : Prop :=
  ∃ o after, ExtractOutcome c.rt c.payload c.ids c.correlationId c.draws o ∧
    Committed o c.draws.outboxId c.draws.now c.stores.db after.db ∧
    s=(after,.returned c.payload true)

/-- The source URI is one of the source bucket, where the call gets to use it. -/
def Addressed (c : Call) : Prop :=
  payloadError c.payload=none → ∃ key, sourceKeyOf c.sourceBucket c.payload.payloadUri=.ok key

/-- The bytes of the source object, where the call reads it and it is neither empty nor too large. -/
def Reads (c : Call) (content : Bytes) : Prop :=
  payloadError c.payload=none ∧ content≠[] ∧
    ∃ o, getObject c.sourceBucket c.source c.payload.payloadUri=.ok o ∧
      readSource c.read c.maxBytes o.body []=.ok content

/-- What the converter makes of the bytes the event is about can be encoded. -/
def Encodes (c : Call) : Prop :=
  ∀ content exported markdown, c.Reads content → c.convert content=.ok (exported,markdown) →
    hexdigest (c.rt.sha256 content)=c.payload.contentSha256 → Encodable exported markdown

variable {c : Call}

lemma not_settled_raised {w : Stores} {p : DocumentFetched} : ¬c.Settled (w,.raised p) := by
  rintro ⟨o,after,-,-,h⟩
  cases h

section
variable (hn : Names c.payload c.ids c.correlationId) (hc : Claimable c.claim c.draws c.stores.db)
include hn hc

/-- A call that gets to `reject` with a new event commits the rejection. -/
lemma returns_rejecting {w : Stores} (hw : w.db=c.stores.db) (error : ExtractionError) (n : ℕ) :
    ∃ after, Committed (rejection c.ids c.correlationId error c.draws) c.draws.outboxId c.draws.now
        c.stores.db after ∧
      follow c.next (n+1) (w,.rejecting c.payload error)=
        ({ w with db := after },.returned c.payload true) := by
  obtain ⟨after,hresult,hcommit⟩ := reject_commits error hn hc
  have hnext : c.next (w,.rejecting c.payload error)=
      some ({ w with db := after },.returned c.payload true) := by
    simp only [next,action,Option.bind_some,step,hw,hresult]
    rfl
  exact ⟨after,hcommit,by rw [follow_step hnext,follow_ended rfl]⟩

/-- A call that gets to `complete` with a new event commits its result, if the event names a
current version, and otherwise a rejection. -/
lemma returns_completing (hkeys : (c.stores.db.versions.map (·.id)).Nodup) {w : Stores}
    (hw : w.db=c.stores.db) (result : ExtractionResult) (normalizedUri manifestUri : PyStr) (n : ℕ) :
    (∃ after, currentVersions c.ids c.payload.contentSha256 c.stores.db≠[] ∧
      Committed (completion c.rt c.payload c.ids c.correlationId result normalizedUri manifestUri c.draws)
        c.draws.outboxId c.draws.now c.stores.db after ∧
      follow c.next (n+2) (w,.completing c.payload result normalizedUri manifestUri)=
        ({ w with db := after },.returned c.payload true)) ∨
    ∃ after, currentVersions c.ids c.payload.contentSha256 c.stores.db=[] ∧
      Committed (rejection c.ids c.correlationId unknownDocumentVersion c.draws) c.draws.outboxId
        c.draws.now c.stores.db after ∧
      follow c.next (n+2) (w,.completing c.payload result normalizedUri manifestUri)=
        ({ w with db := after },.returned c.payload true) := by
  have hone := currentVersions_length hkeys c.ids c.payload.contentSha256
  cases hv : currentVersions c.ids c.payload.contentSha256 c.stores.db with
  | nil =>
    right
    obtain ⟨after,hcommit,hend⟩ := returns_rejecting hn hc hw unknownDocumentVersion n
    have hunknown : complete c.rt c.payload result normalizedUri manifestUri c.draws c.stores.db=
        .error (.extraction unknownDocumentVersion) := complete_of_unknown c.rt result _ _ hn hc hv
    have hnext : c.next (w,.completing c.payload result normalizedUri manifestUri)=
        some (w,.rejecting c.payload unknownDocumentVersion) := by
      simp only [next,action,Option.bind_some,step,hw,hunknown]
    exact ⟨after,rfl,hcommit,by rw [follow_step hnext,hend]⟩
  | cons v rest =>
    left
    rw [hv] at hone
    obtain rfl : rest=[] := List.eq_nil_of_length_eq_zero (by simpa using hone)
    obtain ⟨after,hresult,hcommit⟩ := complete_commits c.rt result normalizedUri manifestUri hn hc hv
    have hnext : c.next (w,.completing c.payload result normalizedUri manifestUri)=
        some ({ w with db := after },.returned c.payload true) := by
      simp only [next,action,Option.bind_some,step,hw,hresult]
      rfl
    exact ⟨after,by simp,hcommit,by rw [follow_step hnext,follow_ended rfl]⟩

end

/-- A call stores both artifacts of an extraction that can be encoded. -/
lemma stores_artifacts (hn : Names c.payload c.ids c.correlationId) {result : ExtractionResult}
    (hnormalized : (Json.dict result.normalized).ScalarText)
    (hmanifest : (Json.dict (manifestArtifact c.payload result)).ScalarText) (n : ℕ) :
    ∃ w normalizedUri manifestUri, w.db=c.stores.db ∧
      follow c.next (n+2) (c.stores,.extracted c.payload result)=
        follow c.next n (w,.completing c.payload result normalizedUri manifestUri) := by
  obtain ⟨body,hbody⟩ := putJson_of_scalar c.artifactBucket c.stores c.payload
    (normalizedKey c.ids c.payload) (fun uri => .stored c.payload result uri) hnormalized
  have hstored : c.next (c.stores,.extracted c.payload result)=
      some (c.stores.put (normalizedKey c.ids c.payload) body,.stored c.payload result
        (objectUri c.artifactBucket (normalizedKey c.ids c.payload))) := by
    simp only [next,action,Option.bind_some,step,hn.ids,Except.map,hbody]
  rw [follow_step hstored]
  generalize hw : c.stores.put (normalizedKey c.ids c.payload) body=w
  generalize objectUri c.artifactBucket (normalizedKey c.ids c.payload)=normalizedUri
  obtain ⟨body,hbody⟩ := putJson_of_scalar c.artifactBucket w c.payload
    (manifestKey c.ids c.payload) (fun uri => .completing c.payload result normalizedUri uri) hmanifest
  have hcompleting : c.next (w,.stored c.payload result normalizedUri)=
      some (w.put (manifestKey c.ids c.payload) body,.completing c.payload result normalizedUri
        (objectUri c.artifactBucket (manifestKey c.ids c.payload))) := by
    simp only [next,action,Option.bind_some,step,hn.ids,Except.map,hbody]
  exact ⟨_,_,_,hw ▸ rfl,follow_step hcompleting n⟩

/-- A call that gets to `reject` settles its event. -/
lemma Healthy.reject_settles (h : c.Healthy) {w : Stores} (hw : w.db=c.stores.db)
    (error : ExtractionError) (n : ℕ) :
    c.Settled (follow c.next (n+1) (w,.rejecting c.payload error)) := by
  obtain ⟨after,hcommit,hend⟩ := returns_rejecting h.names h.claimable hw error n
  exact ⟨_,{ w with db := after },.rejected,hcommit,hend⟩

/-- A call that gets to `complete` settles its event, there or in `reject`. -/
lemma Healthy.complete_settles (h : c.Healthy) {w : Stores} (hw : w.db=c.stores.db)
    (result : ExtractionResult) (normalizedUri manifestUri : PyStr) (n : ℕ) :
    c.Settled (follow c.next (n+2) (w,.completing c.payload result normalizedUri manifestUri)) := by
  obtain ⟨after,-,hcommit,hend⟩ | ⟨after,-,hcommit,hend⟩ := returns_completing h.names h.claimable
    h.versionKeys hw result normalizedUri manifestUri n
  · exact ⟨_,{ w with db := after },.completed,hcommit,hend⟩
  · exact ⟨_,{ w with db := after },.rejected,hcommit,hend⟩

/-- A call with an extraction settles its event exactly when the extraction can be encoded. -/
lemma Healthy.extracted_iff (h : c.Healthy) {content : Bytes} {exported : List (PyKey × PyVal)}
    {markdown : PyStr} (hsha : Scalar c.payload.contentSha256) (n : ℕ) :
    c.Settled (follow c.next (n+4) (c.stores,.extracted c.payload
      (extractionResult c.rt content (withoutBinaryDict exported) markdown))) ↔
      Encodable exported markdown := by
  have hmanifest := scalar_manifest c.rt content exported markdown h.doclingVersion hsha
  rw [← scalar_normalized_iff c.rt content exported markdown]
  generalize extractionResult c.rt content (withoutBinaryDict exported) markdown=result at hmanifest ⊢
  by_cases hs : (Json.dict result.normalized).ScalarText
  · refine iff_of_true ?_ hs
    obtain ⟨w,normalizedUri,manifestUri,hw,hstored⟩ := stores_artifacts h.names hs hmanifest (n+2)
    rw [hstored]
    exact h.complete_settles hw result normalizedUri manifestUri n
  · refine iff_of_false ?_ hs
    have hraised : c.next (c.stores,.extracted c.payload result)=
        some (c.stores,.raised c.payload) := by
      simp only [next,action,Option.bind_some,step,h.names.ids,Except.map,
        putJson_of_not_scalar _ _ _ _ _ hs]
    rw [follow_step hraised,follow_ended rfl]
    exact not_settled_raised

/-- A call that reads its source settles its event exactly when what it extracts can be encoded. -/
lemma Healthy.opened_iff (h : c.Healthy) {o : StoredObject} (hp : payloadError c.payload=none)
    (ho : getObject c.sourceBucket c.source c.payload.payloadUri=.ok o) (n : ℕ) :
    c.Settled (follow c.next (n+5) (c.stores,.opened c.payload o.body)) ↔ c.Encodes := by
  cases hx : extractPdf c.rt c.read o.body c.maxBytes c.payload.contentSha256 c.convert with
  | ok result =>
    obtain ⟨content,exported,markdown,hread,hne,hconvert,hsha,rfl⟩ := extractPdf_eq_ok hx
    have hnext : c.next (c.stores,.opened c.payload o.body)=some (c.stores,.extracted c.payload
        (extractionResult c.rt content (withoutBinaryDict exported) markdown)) := by
      simp only [next,action,Option.bind_some,step,hx]
    have hscalar : Scalar c.payload.contentSha256 := hsha ▸ scalar_hexText 64 _
    rw [follow_step hnext,h.extracted_iff hscalar n]
    constructor
    · intro he content' exported' markdown' hreads hconvert' _
      obtain ⟨-,-,o',ho',hread'⟩ := hreads
      cases Except.ok.inj (ho.symm.trans ho')
      cases Except.ok.inj (hread.symm.trans hread')
      cases Except.ok.inj (hconvert.symm.trans hconvert')
      exact he
    · intro he
      exact he content exported markdown ⟨hp,hne,o,ho,hread⟩ hconvert hsha
  | error e =>
    cases e with
    | extraction e =>
      have hnext : c.next (c.stores,.opened c.payload o.body)=
          some (c.stores,.rejecting c.payload e) := by
        simp only [next,action,Option.bind_some,step,hx]
      rw [follow_step hnext]
      refine iff_of_true (h.reject_settles rfl e (n+3)) ?_
      intro content exported markdown hreads hconvert hsha
      obtain ⟨-,hne,o',ho',hread⟩ := hreads
      cases Except.ok.inj (ho.symm.trans ho')
      rw [← hsha,extractPdf_of_read hread hne hconvert] at hx
      cases hx
    | other e =>
      obtain ⟨content,hraises⟩ := extractPdf_eq_other hx
      exact absurd hraises (h.converts content e)

/-- A call with a source URI of another bucket raises. -/
lemma raises_of_foreign {e : PyError} (hp : payloadError c.payload=none)
    (hk : sourceKeyOf c.sourceBucket c.payload.payloadUri=.error e) :
    c.handle=(c.stores,.raised c.payload) := by
  have hnext : c.next (c.stores,.started c.payload)=some (c.stores,.raised c.payload) := by
    simp only [next,action,Option.bind_some,step,hp,getObject_of_error hk]
  rw [handle,follow_step hnext,follow_ended rfl]

/-- A healthy call settles its event exactly when its source is addressed and what it extracts
can be encoded. -/
theorem Healthy.settled_iff (h : c.Healthy) : c.Settled c.handle ↔ c.Addressed ∧ c.Encodes := by
  cases hp : payloadError c.payload with
  | some e =>
    have hnext : c.next (c.stores,.started c.payload)=some (c.stores,.rejecting c.payload e) := by
      simp only [next,action,Option.bind_some,step,hp]
    rw [handle,follow_step hnext]
    refine iff_of_true (h.reject_settles rfl e 4) ⟨?_,?_⟩
    · intro hnone
      rw [hp] at hnone
      cases hnone
    · intro content exported markdown hreads
      rw [Reads,hp] at hreads
      cases hreads.1
  | none =>
    cases hk : sourceKeyOf c.sourceBucket c.payload.payloadUri with
    | error e =>
      rw [raises_of_foreign hp hk]
      refine iff_of_false not_settled_raised ?_
      rintro ⟨ha,-⟩
      obtain ⟨key,hkey⟩ := ha hp
      rw [hk] at hkey
      cases hkey
    | ok key =>
      obtain ⟨o,ho⟩ := Option.isSome_iff_exists.mp (h.stored key)
      have hget := getObject_of_key hk ho
      have hnext : c.next (c.stores,.started c.payload)=some (c.stores,.opened c.payload o.body) := by
        simp only [next,action,Option.bind_some,step,hp,hget]
      rw [handle,follow_step hnext,h.opened_iff hp hget]
      exact (and_iff_right (fun _ => ⟨key,hk⟩)).symm

end Call
end RagIngestion.Extractor
