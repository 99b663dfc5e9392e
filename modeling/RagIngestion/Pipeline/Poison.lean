import RagIngestion.Fetcher.Handling
import RagIngestion.Extractor.Handling
import RagIngestion.Extractor.TableCells
import RagIngestion.Pipeline.Lifecycle

/-! Poison messages: events whose handling raises although every service answers, so that the
worker that reads them stops before their offset is committed. -/
namespace RagIngestion.Pipeline
open RagIngestion.Python RagIngestion.Domain RagIngestion.Database RagIngestion.Storage
open RagIngestion.Library

/-- In runs on genuine messages no event matches two versions. -/
theorem genuine_runs_unambiguous {c : Config} {w : World} (h : (system c).Reach Genuine w)
    (tenantId documentId : UUID) (sourceUri : PyStr) :
    (Fetcher.matchingVersions tenantId documentId sourceUri w.db).length ≤ 1 := by
  obtain ⟨-,hr⟩ := records_reach h
  apply length_le_one_of_key hr.versions List.filter_sublist
  intro v hv
  exact (of_decide_eq_true (List.mem_filter.mp hv).2).2.1

/-- Over healthy services the fetcher settles an event exactly when its source URI, if it is
used, is one of the source bucket and at most one version matches; the extractor exactly when
its source URI, if it is used, is one of the source bucket and the text it extracts can be encoded. -/
theorem healthy_calls_settle_iff (f : Fetcher.Call) (e : Extractor.Call) (hf : f.Healthy)
    (he : e.Healthy) :
    (f.Settled f.handle ↔ f.Addressed ∧ f.Unambiguous) ∧
      (e.Settled e.handle ↔ e.Addressed ∧ e.Encodes) :=
  ⟨hf.settled_iff,he.settled_iff⟩

/-- The committed document and version of the small upload, and its stored object. -/
def smallDb : Db :=
  { Db.empty [⟨1⟩] with
    documents := [Submission.smallDraft.document 0]
    versions := [Submission.smallDraft.version plainSha256 minioSourceBucket 0] }

def smallObject : StoredObject := ⟨plainSource,py "application/pdf",hexdigest (plainSha256 plainSource)⟩

/-- The fetcher gets the small submission with some source URI; its bytes are no whole PDF. -/
def smallFetch (uri : PyStr) : Fetcher.Call where
  sha256 := plainSha256
  bucket := minioSourceBucket
  maxDocumentBytes := 1048576
  source := fun _ => some smallObject
  read := readAvailable
  pdfReader := fun _ => .unreadable
  draws := ⟨⟨6⟩,[],⟨7⟩,1,1,1⟩
  payload := { smallSubmitted with payloadUri := uri }
  ids := ⟨⟨1⟩,⟨2⟩,⟨4⟩,⟨4⟩⟩
  db := smallDb

/-- The extractor gets the small document, and its converter returns some markdown. -/
def smallExtract (markdown : PyStr) : Extractor.Call where
  rt := Extractor.plainRuntime
  sourceBucket := minioSourceBucket
  artifactBucket := minioArtifactBucket
  maxBytes := 1048576
  source := fun _ => some smallObject
  read := readAvailable
  convert := fun _ => .ok ([],markdown)
  draws := ⟨⟨8⟩,[],⟨9⟩,2,2,2⟩
  payload := smallFetched
  ids := ⟨⟨1⟩,⟨2⟩,⟨3⟩,⟨6⟩⟩
  correlationId := ⟨4⟩
  stores := ⟨fun _ => none,smallDb⟩

lemma smallFetch_healthy (uri : PyStr) : (smallFetch uri).Healthy where
  names := ⟨UUID.ofText_str _,UUID.ofText_str _,UUID.ofText_str _,UUID.ofText_str _⟩
  claimable := ⟨List.mem_singleton_self _,List.not_mem_nil,fun x hx => nomatch hx⟩
  stored := fun _ => rfl
  reads := by
    intro content e h
    cases h

lemma smallExtract_healthy (markdown : PyStr) : (smallExtract markdown).Healthy where
  names := by
    refine ⟨?_,UUID.ofText_str _⟩
    simp only [smallExtract,smallFetched,buildDocumentFetchedEvent,Extractor.payloadIds,
      UUID.ofText_str,ok_bind]
  claimable := ⟨List.mem_singleton_self _,List.not_mem_nil,fun x hx => nomatch hx⟩
  versionKeys := List.nodup_singleton _
  stored := fun _ => rfl
  converts := by
    intro content e h
    cases h
  doclingVersion := scalar_py _

lemma smallUri_addressed :
    sourceKeyOf minioSourceBucket smallSubmitted.payloadUri=.ok Submission.smallDraft.key := by
  decide +kernel

lemma smallFetched_accepted : Extractor.payloadError smallFetched=none := by decide +kernel

/-- The small document is settled by both workers. -/
theorem small_document_settled :
    (smallFetch smallSubmitted.payloadUri).Settled (smallFetch smallSubmitted.payloadUri).handle ∧
      (smallExtract (py "text")).Settled (smallExtract (py "text")).handle := by
  obtain ⟨hf,he⟩ := healthy_calls_settle_iff (smallFetch smallSubmitted.payloadUri)
    (smallExtract (py "text")) (smallFetch_healthy _) (smallExtract_healthy _)
  refine ⟨hf.mpr ⟨?_,?_⟩,he.mpr ⟨?_,?_⟩⟩
  · exact fun _ => ⟨_,smallUri_addressed⟩
  · exact List.length_filter_le _ _
  · exact fun _ => ⟨_,smallUri_addressed⟩
  · intro content exported markdown _ hconvert _
    cases hconvert
    exact ⟨scalar_py _,trivial⟩

/-- A submission with a URI of another bucket stops the fetcher, and a document with a lone
surrogate in its text stops the extractor. -/
theorem foreign_uri_and_surrogate_raise :
    (¬∀ c : Fetcher.Call, c.Healthy → c.Settled c.handle) ∧
      ¬∀ c : Extractor.Call, c.Healthy → c.Settled c.handle := by
  constructor
  · intro hall
    have hforeign : sourceKeyOf minioSourceBucket (py "s3://elsewhere/a.pdf")=.error .valueError := by
      decide +kernel
    have hsettled := hall (smallFetch (py "s3://elsewhere/a.pdf")) (smallFetch_healthy _)
    rw [Fetcher.Call.raises_of_foreign rfl hforeign] at hsettled
    exact Fetcher.Call.not_settled_raised hsettled
  · intro hall
    have hhealthy := smallExtract_healthy [0xD800]
    obtain ⟨-,hencodes⟩ := hhealthy.settled_iff.mp (hall _ hhealthy)
    have hreads : (smallExtract [0xD800]).Reads plainSource :=
      ⟨smallFetched_accepted,by decide,smallObject,getObject_of_key smallUri_addressed rfl,
        Extractor.read_plainSource⟩
    exact absurd (hencodes plainSource [] [0xD800] hreads rfl rfl).1 (by decide)

end RagIngestion.Pipeline
