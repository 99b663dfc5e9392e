import RagIngestion.Pipeline.World
import RagIngestion.Fetcher.Verdict

/-! The constraints of the migrations hold of the database in every state of the whole system. -/
namespace RagIngestion.Pipeline
open RagIngestion.Python RagIngestion.Domain RagIngestion.Database RagIngestion.Storage
open RagIngestion.Library

variable {c : Config}

lemma keeps_markFailed (error : Extractor.ExtractionError) :
    Db.Constraints.KeepsVersion (Extractor.markFailed error) :=
  ⟨fun _ => rfl,fun _ => rfl,fun _ => rfl,fun _ => rfl,fun _ => rfl⟩

lemma keeps_recordExtraction (rt : Extractor.Runtime) (result : Extractor.ExtractionResult)
    (normalizedUri manifestUri : PyStr) :
    Db.Constraints.KeepsVersion (Extractor.recordExtraction rt result normalizedUri manifestUri) :=
  ⟨fun _ => rfl,fun _ => rfl,fun _ => rfl,fun _ => rfl,fun _ => rfl⟩

/-- The outcomes of the fetcher keep the constraints. -/
lemma fetchOutcome_constraints {db after : Db} {p : DocumentSubmitted}
    {i : Option Fetcher.SourceInspection} {error : Option Fetcher.FetchValidationError}
    {ids : Fetcher.Ids} {draws : Draws} {o : Outcome} (hdb : db.Constraints)
    (ho : Fetcher.FetchOutcome p i error ids draws db o)
    (h : Committed o draws.outboxId draws.now db after) : after.Constraints := by
  have hversion : ∀ v, Fetcher.matchingVersions ids.tenantId ids.documentId p.payloadUri db=[v] →
      db.HasVersion ids.tenantId v.id := by
    intro v hv
    have hmem : v ∈ Fetcher.matchingVersions ids.tenantId ids.documentId p.payloadUri db := by
      rw [hv]
      exact List.mem_singleton_self v
    obtain ⟨hmem,hcond⟩ := List.mem_filter.mp hmem
    exact ⟨v,hmem,(of_decide_eq_true hcond).1,rfl⟩
  cases ho with
  | unknown => exact hdb.committed h rfl (by simp) (by simp)
  | invalid hv he =>
    refine hdb.committed h rfl ?_ ?_
    · intro id f hf
      cases hf
      exact Fetcher.Call.keeps_markInvalid _
    · intro f hf
      cases hf
      exact ⟨rfl,hversion _ hv⟩
  | valid hv he hi =>
    refine hdb.committed h rfl ?_ (by simp)
    intro id f hf
    cases hf
    exact Fetcher.Call.keeps_markValid _ _

/-- No step of the system violates a constraint. -/
theorem DbStep.constraints {w : World} {after : Db} (h : DbStep c w after)
    (hdb : w.db.Constraints) : after.Constraints := by
  cases h with
  | same => exact hdb
  | publish hids hevents => exact hdb.updateOutbox hids hevents
  | submit _ hsubmit => exact Submission.createSubmission_constraints hdb hsubmit
  | consume ho hcommit =>
    cases ho with
    | fetch _ _ ho => exact fetchOutcome_constraints hdb ho hcommit
    | complete =>
      refine hdb.committed hcommit rfl ?_ (by simp [Extractor.completion])
      intro id f hf
      cases hf
      exact keeps_recordExtraction _ _ _ _
    | reject =>
      refine hdb.committed hcommit rfl ?_ (by simp [Extractor.rejection])
      intro id f hf
      cases hf
      exact keeps_markFailed _

/-- The database of every reachable world meets the constraints. -/
theorem constraints_reachable {w : World} (h : (system c).Reachable w) : w.db.Constraints := by
  refine h.invariant (I := fun w => w.db.Constraints) ?_ ?_
  · intro w hw
    obtain ⟨tenants,hdb⟩ := hw.db
    rw [hdb]
    exact Db.constraints_empty tenants
  · intro w a after hw ha
    exact (step_db ha).constraints hw

end RagIngestion.Pipeline
