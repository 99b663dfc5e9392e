import RagIngestion.Pipeline.Lifecycle
import RagIngestion.Pipeline.Commits

/-! Failure and handoff: a failed document has a rejection on a dead-letter topic and is not
handed to the chunker. This holds while no extraction of blank markdown is recorded. -/
namespace RagIngestion.Pipeline
open RagIngestion.Python RagIngestion.Domain RagIngestion.Database RagIngestion.Storage
open RagIngestion.Library

/-- A rejection of the document on a dead-letter topic. -/
def Rejects (d : Document) (e : OutboxEvent) : Prop :=
  e.tenantId=d.tenantId ∧ e.payload.documentId=d.id.str ∧
    ((kindOf e.payload=.fetchRejected ∧ e.kafkaTopic=deadLetterTopic Fetcher.consumerName) ∨
      (kindOf e.payload=.extractionRejected ∧ e.kafkaTopic=deadLetterTopic Extractor.consumerName))

/-- A `ContentExtracted` event of the version. -/
def HandsOff (v : DocumentVersion) (e : OutboxEvent) : Prop :=
  ∃ p, e.payload=.contentExtracted p ∧ p.documentVersionId=v.id.str

/-- Failed documents are those with a rejection, and extracted ones those handed off. -/
structure Consistent (db : Db) : Prop where
  failed : ∀ d ∈ db.documents, d.status=.failed ↔ ∃ e ∈ events db, Rejects d e
  handedOff : ∀ d ∈ db.documents, ∀ v ∈ db.versions, v.documentId=d.id →
    ((∃ e ∈ events db, HandsOff v e) ↔ d.status=.extracted)

/-- A genuine step which, if it completes an extraction, does so for markdown that is not blank,
for an event that was processed before, or without taking effect. -/
def Legible (w : World) (a : Action) : Prop :=
  Genuine w a ∧
    match a with
    | .extract t (.complete _ fault) =>
      match w.extracting t with
      | .completing p result _ _ => fault=.before ∨ Extractor.Processed w.db p ∨ result.blank=false
      | _ => True
    | _ => True

instance (w : World) (a : Action) : Decidable (Legible w a) := by
  unfold Legible
  refine @instDecidableAnd _ _ _ ?_
  split
  · split <;> infer_instance
  · infer_instance

variable {c : Config}

section
variable {db : Db} (hr : Records db) {d : Document} {v : DocumentVersion} {s : Stage}
  (hs : AtStage (events db) db.processedEvents d v s)
include hs

/-- An event of some kind exists for a document exactly at the stages that have it. -/
theorem AtStage.exists_kind (k : EventKind) :
    (∃ e ∈ history (events db) d.id, kindOf e.payload=k) ↔ k ∈ s.kinds := by
  rw [← hs.kinds,List.mem_map]

theorem AtStage.rejected_iff : (∃ e ∈ events db, Rejects d e) ↔
    EventKind.fetchRejected ∈ s.kinds ∨ EventKind.extractionRejected ∈ s.kinds := by
  rw [← hs.exists_kind,← hs.exists_kind]
  constructor
  · rintro ⟨e,he,-,hd,hk⟩
    have hin := mem_history.mpr ⟨he,hd⟩
    cases hk with
    | inl hk => exact .inl ⟨e,hin,hk.1⟩
    | inr hk => exact .inr ⟨e,hin,hk.1⟩
  · intro h
    cases h with
    | inl h =>
      obtain ⟨e,hin,hk⟩ := h
      have hdescribes := hs.described e hin
      refine ⟨e,(mem_history.mp hin).1,hdescribes.tenant,hdescribes.document,.inl ⟨hk,?_⟩⟩
      rw [hdescribes.topic,hk]
      rfl
    | inr h =>
      obtain ⟨e,hin,hk⟩ := h
      have hdescribes := hs.described e hin
      refine ⟨e,(mem_history.mp hin).1,hdescribes.tenant,hdescribes.document,.inr ⟨hk,?_⟩⟩
      rw [hdescribes.topic,hk]
      rfl

include hr in
theorem AtStage.handedOff_iff (hv : v ∈ db.versions) :
    (∃ e ∈ events db, HandsOff v e) ↔ EventKind.extracted ∈ s.kinds := by
  rw [← hs.exists_kind]
  constructor
  · rintro ⟨e,he,p,hp,hversion⟩
    obtain ⟨d',-,v',hv',s',hs',hin,hdescribes⟩ := hr.locate he
    have hid : v'.id=v.id := UUID.str_injective ((hdescribes.extraction p hp).symm.trans hversion)
    have hvv := eq_of_key_eq hr.versionIds hv' hv hid
    have hdd : d'.id=d.id := hs'.document.symm.trans ((congrArg _ hvv).trans hs.document)
    exact ⟨e,hdd ▸ hin,by rw [hp]; rfl⟩
  · rintro ⟨e,hin,hk⟩
    refine ⟨e,(mem_history.mp hin).1,?_⟩
    cases hp : e.payload with
    | contentExtracted p => exact ⟨p,hp,(hs.described e hin).extraction p hp⟩
    | _ => rw [hp] at hk; cases hk

/-- Status and events contradict each other at one stage only. -/
theorem AtStage.consistent_iff : ((d.status=.failed ↔
      EventKind.fetchRejected ∈ s.kinds ∨ EventKind.extractionRejected ∈ s.kinds) ∧
    (EventKind.extracted ∈ s.kinds ↔ d.status=.extracted)) ↔
      v.extractionStatus≠.needsReview := by
  rw [hs.status,hs.extraction]
  cases s <;> decide

end

theorem Records.consistent_iff {db : Db} (hr : Records db) :
    Consistent db ↔ ∀ v ∈ db.versions, v.extractionStatus≠.needsReview := by
  constructor
  · intro h v hv
    obtain ⟨d,hd,hname⟩ := hr.owned v hv
    obtain ⟨v',hv',s,hs⟩ := hr.staged d hd
    have hvv := eq_of_key_eq hr.versions hv' hv (hs.document.trans hname.symm)
    subst hvv
    refine hs.consistent_iff.mp ⟨?_,?_⟩
    · rw [h.failed d hd,hs.rejected_iff]
    · rw [← hs.handedOff_iff hr hv,h.handedOff d hd v' hv hname]
  · intro h
    refine ⟨?_,?_⟩
    · intro d hd
      obtain ⟨v,hv,s,hs⟩ := hr.staged d hd
      rw [hs.rejected_iff]
      exact (hs.consistent_iff.mpr (h v hv)).1
    · intro d hd v hv hname
      obtain ⟨v',hv',s,hs⟩ := hr.staged d hd
      have hvv := eq_of_key_eq hr.versions hv' hv (hs.document.trans hname.symm)
      subst hvv
      rw [hs.handedOff_iff hr hv]
      exact (hs.consistent_iff.mpr (h v' hv)).2

/-- What an outcome's update keeps, the outcome keeps for every version. -/
theorem Outcome.forall_versions {o : Outcome} {versions : List DocumentVersion}
    {P : DocumentVersion → Prop} (h : ∀ v ∈ versions, P v)
    (hf : ∀ id f, o.version=some (id,f) → ∀ v, P v → P ((f v).setUpdatedAt o.versionUpdatedAt)) :
    ∀ v ∈ o.applyVersions versions, P v := by
  intro v hv
  unfold Outcome.applyVersions at hv
  split at hv
  · exact h v hv
  · rename_i id f hversion
    obtain ⟨x,hx,hv⟩ := mem_updateWhere.mp hv
    subst hv
    split
    · exact hf id f hversion x (h x hx)
    · exact h x hx

/-- A legible step records no extraction that needs a review. -/
theorem legible_step {w after : World} {a : Action} (hk : Known w)
    (h : ∀ v ∈ w.db.versions, v.extractionStatus≠.needsReview) (ok : Legible w a)
    (ha : step c w a=some after) : ∀ v ∈ after.db.versions, v.extractionStatus≠.needsReview := by
  obtain hquiet | hcommits := step_commits ha
  · rw [hquiet.versions]
    exact h
  · generalize after.db=db at hcommits ⊢
    cases hcommits with
    | submit hr hdb =>
      obtain ⟨-,rfl⟩ := Submission.Draft.submission_eq_ok _ _ hdb
      refine List.forall_mem_append.mpr ⟨h,List.forall_mem_singleton.mpr ?_⟩
      simp only [Submission.Draft.version,Submission.newVersion]
      decide
    | fetch ht hf hn ho hc =>
      rw [hc.result,Outcome.apply_versions]
      refine Outcome.forall_versions h ?_
      intro id f hversion v hv
      cases ho with
      | unknown => cases hversion
      | invalid => cases hversion; exact hv
      | valid => cases hversion; exact hv
    | @complete t p result normalizedUri manifestUri draws fault ids correlationId v _ ht hf hn hv hc =>
      have hstatus := hk.results t result (by rw [ht]; rfl)
      have hlegible : fault=.before ∨ Extractor.Processed w.db p ∨ result.blank=false := by
        have hok := ok.2
        simp only [ht] at hok
        exact hok
      have hblank : result.blank=false := by
        obtain hlegible | hlegible | hlegible := hlegible
        · exact absurd hlegible hf
        · simp only [Extractor.Processed,hn.ids] at hlegible
          exact absurd hlegible hc.unclaimed
        · exact hlegible
      rw [hc.result,Outcome.apply_versions]
      refine Outcome.forall_versions h ?_
      intro id f hversion v _
      cases hversion
      change result.extractionStatus≠.needsReview
      rw [hstatus,hblank]
      decide
    | reject ht hf hn hc =>
      rw [hc.result,Outcome.apply_versions]
      refine Outcome.forall_versions h ?_
      intro id f hversion v _
      cases hversion
      exact fun hf => by cases hf

/-- Along legible runs failure and handoff never contradict each other; in any genuine run they
do exactly when some version needs a review. -/
theorem legible_runs_consistent :
    (∀ w, (system c).Reach Legible w → Consistent w.db) ∧
      ∀ w, (system c).Reach Genuine w →
        (Consistent w.db ↔ ∀ v ∈ w.db.versions, v.extractionStatus≠.needsReview) := by
  refine ⟨?_,fun w h => (records_reach h).2.consistent_iff⟩
  intro w h
  have hgenuine : ∀ {w}, (system c).Reach Legible w → (system c).Reach Genuine w :=
    fun h => h.mono (fun _ _ ok => ok.1)
  apply (records_reach (hgenuine h)).2.consistent_iff.mpr
  induction h with
  | start h =>
    obtain ⟨tenants,hdb⟩ := h.db
    intro v hv
    rw [hdb] at hv
    cases hv
  | next before ok h ih => exact legible_step (records_reach (hgenuine before)).1 ih ok h

/-- A document with text is extracted and handed off. -/
theorem small_document_handed_off :
    ∃ w : World, (system plainConfig).Reach Legible w ∧
      (∃ d ∈ w.db.documents, d.status=.extracted) ∧ Consistent w.db := by
  have hrun : ((system plainConfig).runIf Legible plainWorld (smallRun (py "text"))).any
      (fun w => w.db.documents.any (fun d => d.status=.extracted))=true := by decide +kernel
  obtain ⟨w,hrun,hextracted⟩ := (Option.any_eq_true _ _).mp hrun
  simp only [List.any_eq_true,decide_eq_true_eq] at hextracted
  have hreach := System.Reach.runIf (.start plainWorld_initial) hrun
  exact ⟨w,hreach,hextracted,legible_runs_consistent.1 w hreach⟩

/-- A document without text is marked failed and handed to the chunker, without a rejection. -/
theorem blank_document_handed_off :
    ¬∀ w, (system plainConfig).Reach Genuine w → Consistent w.db := by
  intro hall
  have hrun : ((system plainConfig).runIf Genuine plainWorld (smallRun [])).any
      (fun w => w.db.versions.any (fun v => v.extractionStatus=.needsReview))=true := by
    decide +kernel
  obtain ⟨w,hrun,hreview⟩ := (Option.any_eq_true _ _).mp hrun
  simp only [List.any_eq_true,decide_eq_true_eq] at hreview
  obtain ⟨v,hv,hreview⟩ := hreview
  have hreach := System.Reach.runIf (.start plainWorld_initial) hrun
  exact (records_reach hreach).2.consistent_iff.mp (hall w hreach) v hv hreview

end RagIngestion.Pipeline
