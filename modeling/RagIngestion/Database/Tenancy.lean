import RagIngestion.Database.Outcomes
import RagIngestion.Library.Locality

/-! The rows of one tenant: every statement written for the tenant works on them alone, whatever
the rows of the other tenants are, as long as generated ids are new. -/
namespace RagIngestion.Database
open RagIngestion.Python RagIngestion.Domain RagIngestion.Library

/-- The tenants and the rows whose tenant meets a condition. -/
def Db.restrict (p : UUID → Bool) (db : Db) : Db where
  tenants := db.tenants
  documents := db.documents.filter (fun d => p d.tenantId)
  versions := db.versions.filter (fun v => p v.tenantId)
  outbox := db.outbox.filter (fun r => p r.event.tenantId)
  processedEvents := db.processedEvents.filter (fun e => p e.tenantId)
  failures := db.failures.filter (fun f => p f.tenantId)

/-- The rows of a tenant. -/
def Db.rowsOf (tenantId : UUID) : Db → Db := Db.restrict (fun t => t=tenantId)

/-- The rows of all other tenants. -/
def Db.othersOf (tenantId : UUID) : Db → Db := Db.restrict (fun t => t≠tenantId)

/-- A committed outcome of a tenant whose event, failure and version update belong to it leaves the
rows of the others. -/
theorem Committed.othersOf {o : Outcome} {outboxId : UUID} {now : Time} {before after : Db}
    (h : Committed o outboxId now before after) (hevent : o.event.tenantId=o.claim.tenantId)
    (hfailure : ∀ f, o.failure=some f → f.tenantId=o.claim.tenantId)
    (hversion : ∀ id f, o.version=some (id,f) → ∀ v, (f v).tenantId=v.tenantId) :
    after.othersOf o.claim.tenantId=before.othersOf o.claim.tenantId := by
  rw [h.result]
  simp only [Db.othersOf,Db.restrict,Outcome.apply,Db.mk.injEq,List.filter_append,true_and]
  refine ⟨?_,?_,?_,?_,?_⟩
  · unfold Outcome.applyDocuments
    split
    · rfl
    · apply filter_updateWhere_of_disjoint
      · exact fun _ => rfl
      · intro d hd
        simp only [decide_eq_true_eq] at hd
        simp [hd]
  · unfold Outcome.applyVersions
    split
    · rfl
    · rename_i id f hv
      apply filter_updateWhere_of_disjoint
      · intro v
        rw [DocumentVersion.setUpdatedAt_tenantId,hversion id f hv v]
      · intro v hv
        simp only [decide_eq_true_eq] at hv
        simp [hv]
  · simp [OutboxRow.inserted,hevent]
  · simp
  · unfold Outcome.applyFailures
    split
    · rfl
    · rename_i f hf
      simp [hfailure f hf]

section
variable (tenantId : UUID) {db : Db}

theorem insertDocument_local {d : Document} (ht : d.tenantId=tenantId)
    (hfresh : ∀ x ∈ db.documents, x.id≠d.id) :
    LocalAt (Db.rowsOf tenantId) (Db.rowsOf tenantId) (Db.insertDocument d) db := by
  have hcond : (d.tenantId ∈ (db.rowsOf tenantId).tenants ∧
      ∀ x ∈ (db.rowsOf tenantId).documents, x.id≠d.id ∧
        ¬(x.tenantId=d.tenantId ∧ x.sourceSystem=d.sourceSystem ∧
          x.sourceExternalId=d.sourceExternalId)) ↔
      d.tenantId ∈ db.tenants ∧ ∀ x ∈ db.documents, x.id≠d.id ∧
        ¬(x.tenantId=d.tenantId ∧ x.sourceSystem=d.sourceSystem ∧
          x.sourceExternalId=d.sourceExternalId) := by
    refine and_congr Iff.rfl (forall_mem_filter_iff ?_)
    intro x hx hne
    exact ⟨hfresh x hx,fun h => hne (h.1.trans ht)⟩
  unfold LocalAt Db.insertDocument
  simp only [hcond]
  split
  · simp [Except.map,Db.rowsOf,Db.restrict,ht]
  · rfl

theorem insertVersion_local {v : DocumentVersion} (ht : v.tenantId=tenantId)
    (hfresh : ∀ x ∈ db.versions, x.id≠v.id) :
    LocalAt (Db.rowsOf tenantId) (Db.rowsOf tenantId) (Db.insertVersion v) db := by
  have hparent : (∃ d ∈ (db.rowsOf tenantId).documents, d.tenantId=v.tenantId ∧ d.id=v.documentId) ↔
      ∃ d ∈ db.documents, d.tenantId=v.tenantId ∧ d.id=v.documentId :=
    exists_mem_filter_iff (fun d hd => hd.1.trans ht)
  have hunique : (∀ x ∈ (db.rowsOf tenantId).versions, x.id≠v.id ∧
        ¬(x.tenantId=v.tenantId ∧ x.documentId=v.documentId ∧ x.versionNumber=v.versionNumber) ∧
        ¬(x.tenantId=v.tenantId ∧ x.contentSha256=v.contentSha256)) ↔
      ∀ x ∈ db.versions, x.id≠v.id ∧
        ¬(x.tenantId=v.tenantId ∧ x.documentId=v.documentId ∧ x.versionNumber=v.versionNumber) ∧
        ¬(x.tenantId=v.tenantId ∧ x.contentSha256=v.contentSha256) := by
    refine forall_mem_filter_iff ?_
    intro x hx hne
    exact ⟨hfresh x hx,fun h => hne (h.1.trans ht),fun h => hne (h.1.trans ht)⟩
  have htenants : (db.rowsOf tenantId).tenants=db.tenants := rfl
  unfold LocalAt Db.insertVersion
  simp only [hparent,hunique,htenants]
  split
  · simp [Except.map,Db.rowsOf,Db.restrict,ht]
  · rfl

theorem insertOutbox_local {id : UUID} {event : OutboxEvent} {now : Time}
    (ht : event.tenantId=tenantId) (hfresh : ∀ x ∈ db.outbox, x.id≠id) :
    LocalAt (Db.rowsOf tenantId) (Db.rowsOf tenantId) (Db.insertOutbox id event now) db := by
  have hcond : (event.tenantId ∈ (db.rowsOf tenantId).tenants ∧
      ∀ x ∈ (db.rowsOf tenantId).outbox, x.id≠id ∧
        ¬(x.event.tenantId=event.tenantId ∧ x.event.eventId=event.eventId)) ↔
      event.tenantId ∈ db.tenants ∧ ∀ x ∈ db.outbox, x.id≠id ∧
        ¬(x.event.tenantId=event.tenantId ∧ x.event.eventId=event.eventId) := by
    refine and_congr Iff.rfl (forall_mem_filter_iff ?_)
    intro x hx hne
    exact ⟨hfresh x hx,fun h => hne (h.1.trans ht)⟩
  unfold LocalAt Db.insertOutbox
  simp only [hcond]
  split
  · simp [Except.map,Db.rowsOf,Db.restrict,OutboxRow.inserted,ht]
  · rfl

theorem insertFailure_local {f : IngestionFailure} (ht : f.tenantId=tenantId) :
    LocalAt (Db.rowsOf tenantId) (Db.rowsOf tenantId) (Db.insertFailure f) db := by
  have hcond : (f.tenantId ∈ (db.rowsOf tenantId).tenants ∧
      ∃ v ∈ (db.rowsOf tenantId).versions, v.tenantId=f.tenantId ∧ v.id=f.documentVersionId) ↔
      f.tenantId ∈ db.tenants ∧
        ∃ v ∈ db.versions, v.tenantId=f.tenantId ∧ v.id=f.documentVersionId :=
    and_congr Iff.rfl (exists_mem_filter_iff (fun v hv => hv.1.trans ht))
  unfold LocalAt Db.insertFailure
  simp only [hcond]
  split
  · simp [Except.map,Db.rowsOf,Db.restrict,ht]
  · rfl

theorem claimEvent_local {e : ProcessedEvent} (ht : e.tenantId=tenantId) :
    LocalAt (Db.rowsOf tenantId) (Option.map (Db.rowsOf tenantId)) (Db.claimEvent e) db := by
  have htenants : (db.rowsOf tenantId).tenants=db.tenants := rfl
  have hmem : e ∈ (db.rowsOf tenantId).processedEvents ↔ e ∈ db.processedEvents := by
    simp [Db.rowsOf,Db.restrict,ht]
  unfold LocalAt Db.claimEvent
  simp only [hmem,htenants]
  split
  · rfl
  · split
    · rfl
    · simp [Except.map,Db.rowsOf,Db.restrict,ht]

theorem updateDocument_local (id : UUID) {f : Document → Document}
    (hf : ∀ d, (f d).tenantId=d.tenantId) (clock : Time) :
    (db.rowsOf tenantId).updateDocument tenantId id f clock=
      (db.updateDocument tenantId id f clock).rowsOf tenantId := by
  simp only [Db.updateDocument,Db.rowsOf,Db.restrict,Db.mk.injEq,true_and,and_true]
  exact (filter_updateWhere (fun d => by rw [Document.setUpdatedAt_tenantId,hf d]) _).symm

theorem updateVersion_local (id : UUID) {f : DocumentVersion → DocumentVersion}
    (hf : ∀ v, (f v).tenantId=v.tenantId) (clock : Time) :
    (db.rowsOf tenantId).updateVersion tenantId id f clock=
      (db.updateVersion tenantId id f clock).rowsOf tenantId := by
  simp only [Db.updateVersion,Db.rowsOf,Db.restrict,Db.mk.injEq,true_and,and_true]
  exact (filter_updateWhere (fun v => by rw [DocumentVersion.setUpdatedAt_tenantId,hf v]) _).symm

/-- A query for rows of the tenant finds the same rows among them. -/
theorem filter_rowsOf {p : DocumentVersion → Bool} (h : ∀ v, p v=true → v.tenantId=tenantId) :
    (db.rowsOf tenantId).versions.filter p=db.versions.filter p := by
  simp only [Db.rowsOf,Db.restrict,List.filter_filter]
  apply List.filter_congr
  intro v _
  cases hp : p v with
  | false => simp
  | true => simp [h v hp]

end
end RagIngestion.Database
