import RagIngestion.Fetcher.Handle

/-! Whole calls of `DocumentFetcher.handle` over healthy stores: which of them end with a
committed outcome of their event. -/
namespace RagIngestion.Fetcher
open RagIngestion.Python RagIngestion.Domain RagIngestion.Database RagIngestion.Storage
open RagIngestion.Library

/-- A call, the ids its payload names, and what it finds outside. -/
structure Call where
  sha256 : Bytes → Digest
  bucket : BucketName
  maxDocumentBytes : ℕ
  source : PyStr → Option StoredObject
  read : Reader Bytes
  pdfReader : Bytes → PdfAnswer
  draws : Draws
  payload : DocumentSubmitted
  ids : Ids
  db : Db

namespace Call

/-- The entry of `rag.processed_events` the call is to write. -/
def claim (c : Call) : ProcessedEvent := ⟨c.ids.tenantId,c.ids.eventId,consumerName⟩

/-- The action the code takes next where no service fails. -/
def action (c : Call) : Task → Option Action
  | .started _ => some (.get .none)
  | .opened _ _ => some (.inspect c.read c.pdfReader)
  | .processing _ _ _ => some (.process c.draws .none)
  | _ => none

def next (c : Call) (s : Db × Task) : Option (Db × Task) :=
  (c.action s.2).bind (step c.sha256 c.bucket c.maxDocumentBytes c.source s.1 s.2)

/-- `DocumentFetcher.handle`: the database and the call at its end. -/
def handle (c : Call) : Db × Task := follow c.next 3 (c.db,.started c.payload)

/-- The bucket holds every object, the PDF reader raises only what the inspector catches, and
the database can take the outcome of the event. -/
structure Healthy (c : Call) : Prop where
  names : Names c.payload c.ids
  claimable : Claimable c.claim c.draws c.db
  stored : ∀ key, (c.source key).isSome
  reads : ∀ content e, c.pdfReader content≠.raises e

/-- The call has returned, with an outcome of its event committed. -/
def Settled (c : Call) (s : Db × Task) : Prop :=
  ∃ inspection error o after, FetchOutcome c.payload inspection error c.ids c.draws c.db o ∧
    Committed o c.draws.outboxId c.draws.now c.db after ∧ s=(after,.returned c.payload true)

/-- The source URI is one of the source bucket, where the call gets to use it. -/
def Addressed (c : Call) : Prop :=
  c.payload.eventType=py "DocumentSubmitted" →
    ∃ key, sourceKeyOf c.bucket c.payload.payloadUri=.ok key

/-- The ids and the source URI match no two versions. -/
def Unambiguous (c : Call) : Prop :=
  (matchingVersions c.ids.tenantId c.ids.documentId c.payload.payloadUri c.db).length ≤ 1

variable {c : Call}

lemma not_settled_raised {db : Db} {p : DocumentSubmitted} : ¬c.Settled (db,.raised p) := by
  rintro ⟨inspection,error,o,after,-,-,h⟩
  cases h

/-- A call that gets to `process` with a new event and at most one version commits its outcome. -/
lemma returns_of_unambiguous (hn : Names c.payload c.ids) (hc : Claimable c.claim c.draws c.db)
    {inspection : Option SourceInspection} {error : Option FetchValidationError}
    (hie : inspection.isSome ∨ error.isSome) (hone : c.Unambiguous) (n : ℕ) :
    ∃ o after, FetchOutcome c.payload inspection error c.ids c.draws c.db o ∧
      Committed o c.draws.outboxId c.draws.now c.db after ∧
      follow c.next (n+1) (c.db,.processing c.payload inspection error)=
        (after,.returned c.payload true) := by
  obtain ⟨result,hresult⟩ := process_of_unambiguous hn hc hie hone
  obtain ⟨tenantId,eventId,ht,he,hmem,-⟩ | ⟨ids,o,after,hn',ho,hcommit,rfl⟩ := process_eq_ok hresult
  · cases Except.ok.inj (ht.symm.trans hn.tenant)
    cases Except.ok.inj (he.symm.trans hn.event)
    exact absurd hmem hc.unclaimed
  · cases hn.unique hn'
    have hnext : c.next (c.db,.processing c.payload inspection error)=
        some (after,.returned c.payload true) := by
      simp only [next,action,Option.bind_some,step,hresult]
      rfl
    exact ⟨o,after,ho,hcommit,by rw [follow_step hnext,follow_ended rfl]⟩

/-- A call that gets to `process` settles its event exactly when at most one version matches. -/
lemma Healthy.processing_iff (h : c.Healthy) {inspection : Option SourceInspection}
    {error : Option FetchValidationError} (hie : inspection.isSome ∨ error.isSome) (n : ℕ) :
    c.Settled (follow c.next (n+1) (c.db,.processing c.payload inspection error)) ↔
      c.Unambiguous := by
  by_cases hone : c.Unambiguous
  · obtain ⟨o,after,ho,hcommit,hend⟩ := returns_of_unambiguous h.names h.claimable hie hone n
    exact iff_of_true ⟨_,_,o,after,ho,hcommit,hend⟩ hone
  · refine iff_of_false ?_ hone
    have hresult : process c.payload inspection error c.draws c.db=.error .multipleResultsFound :=
      process_of_ambiguous h.names h.claimable (Nat.lt_of_not_le hone)
    have hnext : c.next (c.db,.processing c.payload inspection error)=
        some (c.db,.raised c.payload) := by
      simp only [next,action,Option.bind_some,step,hresult]
    rw [follow_step hnext,follow_ended rfl]
    exact not_settled_raised

/-- The inspection of an object ends with a result or an error that is recorded. -/
lemma Healthy.opened_iff (h : c.Healthy) (body : Bytes) (n : ℕ) :
    c.Settled (follow c.next (n+2) (c.db,.opened c.payload body)) ↔ c.Unambiguous := by
  cases hi : inspectPdf c.sha256 c.pdfReader c.read body none c.maxDocumentBytes with
  | ok inspection =>
    have hnext : c.next (c.db,.opened c.payload body)=
        some (c.db,.processing c.payload (some inspection) none) := by
      simp only [next,action,Option.bind_some,step,hi]
    rw [follow_step hnext]
    exact h.processing_iff (.inl rfl) n
  | error e =>
    cases e with
    | validation e =>
      have hnext : c.next (c.db,.opened c.payload body)=
          some (c.db,.processing c.payload none (some e)) := by
        simp only [next,action,Option.bind_some,step,hi]
      rw [follow_step hnext]
      exact h.processing_iff (.inr rfl) n
    | other e =>
      obtain ⟨content,hraises⟩ := inspectPdf_eq_other hi
      exact absurd hraises (h.reads content e)

/-- A call with a source URI of another bucket raises. -/
lemma raises_of_foreign {e : PyError} (ht : c.payload.eventType=py "DocumentSubmitted")
    (hk : sourceKeyOf c.bucket c.payload.payloadUri=.error e) :
    c.handle=(c.db,.raised c.payload) := by
  have hnext : c.next (c.db,.started c.payload)=some (c.db,.raised c.payload) := by
    simp only [next,action,Option.bind_some,step,getObject_of_error hk,if_neg (not_not.mpr ht)]
  rw [handle,follow_step hnext,follow_ended rfl]

/-- A healthy call settles its event exactly when its source is addressed and at most one
version matches. -/
theorem Healthy.settled_iff (h : c.Healthy) :
    c.Settled c.handle ↔ c.Addressed ∧ c.Unambiguous := by
  by_cases ht : c.payload.eventType=py "DocumentSubmitted"
  · cases hk : sourceKeyOf c.bucket c.payload.payloadUri with
    | error e =>
      rw [raises_of_foreign ht hk]
      refine iff_of_false not_settled_raised ?_
      rintro ⟨ha,-⟩
      obtain ⟨key,hkey⟩ := ha ht
      rw [hk] at hkey
      cases hkey
    | ok key =>
      obtain ⟨o,ho⟩ := Option.isSome_iff_exists.mp (h.stored key)
      have hnext : c.next (c.db,.started c.payload)=some (c.db,.opened c.payload o.body) := by
        simp only [next,action,Option.bind_some,step,getObject_of_key hk ho,if_neg (not_not.mpr ht)]
      rw [handle,follow_step hnext,h.opened_iff]
      exact (and_iff_right (fun _ => ⟨key,hk⟩)).symm
  · have hnext : c.next (c.db,.started c.payload)=
        some (c.db,.processing c.payload none (some unexpectedEventType)) := by
      simp only [next,action,Option.bind_some,step,if_pos ht]
    rw [handle,follow_step hnext,h.processing_iff (.inr rfl)]
    exact (and_iff_right (fun htype => absurd htype ht)).symm

end Call
end RagIngestion.Fetcher
