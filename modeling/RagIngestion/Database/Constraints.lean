import RagIngestion.Database.Outcomes

/-! The constraints of the migrations as a property of the whole database: every statement keeps
it, and so does every committed outcome. -/
namespace RagIngestion.Database
open RagIngestion.Python RagIngestion.Domain RagIngestion.Library

namespace Db

/-- The version is one a document or a failure may refer to. -/
def HasVersion (db : Db) (tenantId id : UUID) : Prop :=
  ∃ v ∈ db.versions, v.tenantId=tenantId ∧ v.id=id

/-- The keys, references and checks of the tables. -/
structure Constraints (db : Db) : Prop where
  documentIds : (db.documents.map (·.id)).Nodup
  externalIds : (db.documents.map (fun d => (d.tenantId,d.sourceSystem,d.sourceExternalId))).Nodup
  documentTenants : ∀ d ∈ db.documents, d.tenantId ∈ db.tenants
  currentVersions : ∀ d ∈ db.documents, ∀ id, d.currentVersionId=some id → db.HasVersion d.tenantId id
  versionIds : (db.versions.map (·.id)).Nodup
  versionNumbers : (db.versions.map (fun v => (v.tenantId,v.documentId,v.versionNumber))).Nodup
  contentHashes : (db.versions.map (fun v => (v.tenantId,v.contentSha256))).Nodup
  versionTenants : ∀ v ∈ db.versions, v.tenantId ∈ db.tenants
  versionDocuments : ∀ v ∈ db.versions, ∃ d ∈ db.documents, d.tenantId=v.tenantId ∧ d.id=v.documentId
  versionChecks : ∀ v ∈ db.versions, 0<v.versionNumber ∧ isSha256Text v.contentSha256
  outboxIds : (db.outbox.map (·.id)).Nodup
  eventIds : (db.outbox.map (fun r => (r.event.tenantId,r.event.eventId))).Nodup
  outboxTenants : ∀ r ∈ db.outbox, r.event.tenantId ∈ db.tenants
  claims : db.processedEvents.Nodup
  claimTenants : ∀ e ∈ db.processedEvents, e.tenantId ∈ db.tenants
  failureTenants : ∀ f ∈ db.failures, f.tenantId ∈ db.tenants
  failureVersions : ∀ f ∈ db.failures, db.HasVersion f.tenantId f.documentVersionId

theorem constraints_empty (tenants : List UUID) : (Db.empty tenants).Constraints := by
  constructor <;> simp [Db.empty]

variable {db after : Db}

/-- A version stays one that may be referred to as long as no row goes away. -/
lemma HasVersion.mono {tenantId id : UUID} (h : db.HasVersion tenantId id)
    (hsub : db.versions ⊆ after.versions) : after.HasVersion tenantId id := by
  obtain ⟨v,hv,hkey⟩ := h
  exact ⟨v,hsub hv,hkey⟩

lemma HasVersion.updateVersion {tenantId id : UUID} (h : db.HasVersion tenantId id) (tenant key : UUID)
    {f : DocumentVersion → DocumentVersion} (hf : ∀ v, (f v).id=v.id ∧ (f v).tenantId=v.tenantId)
    (clock : Time) : (db.updateVersion tenant key f clock).HasVersion tenantId id := by
  obtain ⟨v,hv,htenant,hid⟩ := h
  refine ⟨_,mem_updateWhere.mpr ⟨v,hv,rfl⟩,?_⟩
  split
  · rw [DocumentVersion.setUpdatedAt_tenantId,DocumentVersion.setUpdatedAt_id,(hf v).1,(hf v).2]
    exact ⟨htenant,hid⟩
  · exact ⟨htenant,hid⟩

namespace Constraints

theorem insertDocument (h : db.Constraints) {d : Document} (hnew : d.currentVersionId=none)
    (hok : db.insertDocument d=.ok after) : after.Constraints := by
  obtain ⟨⟨htenant,hfresh⟩,rfl⟩ := insertDocument_eq_ok hok
  refine { h with
    documentIds := nodup_map_append_singleton h.documentIds (fun x hx => (hfresh x hx).1)
    externalIds := nodup_map_append_singleton h.externalIds ?_
    documentTenants := forall_mem_snoc h.documentTenants htenant
    currentVersions := forall_mem_snoc h.currentVersions ?_
    versionDocuments := ?_ }
  · intro x hx heq
    simp only [Prod.mk.injEq] at heq
    exact (hfresh x hx).2 heq
  · intro id hid
    rw [hnew] at hid
    cases hid
  · intro v hv
    obtain ⟨x,hx,hkey⟩ := h.versionDocuments v hv
    exact ⟨x,List.mem_append_left _ hx,hkey⟩

theorem insertVersion (h : db.Constraints) {v : DocumentVersion}
    (hok : db.insertVersion v=.ok after) : after.Constraints := by
  obtain ⟨⟨htenant,hnumber,hhash,hdocument,hfresh⟩,rfl⟩ := insertVersion_eq_ok hok
  refine { h with
    currentVersions := fun d hd id hid => (h.currentVersions d hd id hid).mono (List.subset_append_left _ _)
    versionIds := nodup_map_append_singleton h.versionIds (fun x hx => (hfresh x hx).1)
    versionNumbers := nodup_map_append_singleton h.versionNumbers ?_
    contentHashes := nodup_map_append_singleton h.contentHashes ?_
    versionTenants := forall_mem_snoc h.versionTenants htenant
    versionDocuments := forall_mem_snoc h.versionDocuments hdocument
    versionChecks := forall_mem_snoc h.versionChecks ⟨hnumber,hhash⟩
    failureVersions := fun f hf => (h.failureVersions f hf).mono (List.subset_append_left _ _) }
  · intro x hx heq
    simp only [Prod.mk.injEq] at heq
    exact (hfresh x hx).2.1 heq
  · intro x hx heq
    simp only [Prod.mk.injEq] at heq
    exact (hfresh x hx).2.2 heq

theorem insertOutbox (h : db.Constraints) {id : UUID} {event : OutboxEvent} {now : Time}
    (hok : db.insertOutbox id event now=.ok after) : after.Constraints := by
  obtain ⟨⟨htenant,hfresh⟩,rfl⟩ := insertOutbox_eq_ok hok
  refine { h with
    outboxIds := nodup_map_append_singleton h.outboxIds (fun x hx => (hfresh x hx).1)
    eventIds := nodup_map_append_singleton h.eventIds ?_
    outboxTenants := forall_mem_snoc h.outboxTenants htenant }
  intro x hx heq
  simp only [Prod.mk.injEq] at heq
  exact (hfresh x hx).2 heq

/-- An update of a document that moves it to no other key, and to a version of its tenant. -/
theorem updateDocument (h : db.Constraints) (tenantId id : UUID) {f : Document → Document}
    (hkey : ∀ d, (f d).id=d.id ∧ (f d).tenantId=d.tenantId ∧ (f d).sourceSystem=d.sourceSystem ∧
      (f d).sourceExternalId=d.sourceExternalId)
    (hcurrent : ∀ d ∈ db.documents, d.tenantId=tenantId → ∀ v, (f d).currentVersionId=some v →
      db.HasVersion tenantId v) (clock : Time) :
    (db.updateDocument tenantId id f clock).Constraints := by
  have hids : ((db.updateDocument tenantId id f clock).documents.map (·.id))=db.documents.map (·.id) :=
    map_updateWhere (f := fun d => (f d).setUpdatedAt clock) (fun d _ => (hkey d).1) _
  have hexternal : ((db.updateDocument tenantId id f clock).documents.map
      (fun d => (d.tenantId,d.sourceSystem,d.sourceExternalId)))=
      db.documents.map (fun d => (d.tenantId,d.sourceSystem,d.sourceExternalId)) := by
    refine map_updateWhere (fun d _ => ?_) _
    simp only [Document.setUpdatedAt,(hkey d).2.1,(hkey d).2.2.1,(hkey d).2.2.2]
  refine { h with
    documentIds := hids ▸ h.documentIds
    externalIds := hexternal ▸ h.externalIds
    documentTenants := ?_
    currentVersions := ?_
    versionDocuments := ?_ }
  · intro x hx
    obtain ⟨d,hd,rfl⟩ := mem_updateWhere.mp hx
    split
    · rw [Document.setUpdatedAt_tenantId,(hkey d).2.1]
      exact h.documentTenants d hd
    · exact h.documentTenants d hd
  · intro x hx v hv
    obtain ⟨d,hd,rfl⟩ := mem_updateWhere.mp hx
    split at hv
    · rename_i hcond
      have htenant : d.tenantId=tenantId := (of_decide_eq_true hcond).1
      rw [if_pos hcond,Document.setUpdatedAt_tenantId,(hkey d).2.1,htenant]
      exact hcurrent d hd htenant v hv
    · rename_i hcond
      rw [if_neg hcond]
      exact h.currentVersions d hd v hv
  · intro v hv
    obtain ⟨d,hd,htenant,hid⟩ := h.versionDocuments v hv
    refine ⟨_,mem_updateWhere.mpr ⟨d,hd,rfl⟩,?_⟩
    split
    · rw [Document.setUpdatedAt_tenantId,Document.setUpdatedAt_id,(hkey d).1,(hkey d).2.1]
      exact ⟨htenant,hid⟩
    · exact ⟨htenant,hid⟩

/-- What an update of a version must keep. -/
structure KeepsVersion (f : DocumentVersion → DocumentVersion) : Prop where
  id : ∀ v, (f v).id=v.id
  tenantId : ∀ v, (f v).tenantId=v.tenantId
  documentId : ∀ v, (f v).documentId=v.documentId
  versionNumber : ∀ v, (f v).versionNumber=v.versionNumber
  contentSha256 : ∀ v, (f v).contentSha256=v.contentSha256

lemma KeepsVersion.setUpdatedAt {f : DocumentVersion → DocumentVersion} (h : KeepsVersion f)
    (clock : Time) : KeepsVersion (fun v => (f v).setUpdatedAt clock) :=
  ⟨h.id,h.tenantId,h.documentId,h.versionNumber,h.contentSha256⟩

theorem updateVersion (h : db.Constraints) (tenantId id : UUID) {f : DocumentVersion → DocumentVersion}
    (hf : KeepsVersion f) (clock : Time) : (db.updateVersion tenantId id f clock).Constraints := by
  have hset := hf.setUpdatedAt clock
  have hmap : ∀ {β : Type} (g : DocumentVersion → β), (∀ v, g ((f v).setUpdatedAt clock)=g v) →
      (db.updateVersion tenantId id f clock).versions.map g=db.versions.map g :=
    fun g hg => map_updateWhere (fun v _ => hg v) _
  have hnumbers := hmap (fun v => (v.tenantId,v.documentId,v.versionNumber))
    (fun v => by rw [hset.tenantId,hset.documentId,hset.versionNumber])
  have hhashes := hmap (fun v => (v.tenantId,v.contentSha256))
    (fun v => by rw [hset.tenantId,hset.contentSha256])
  have hmem : ∀ {p : DocumentVersion → Prop}, (∀ v, p v → p ((f v).setUpdatedAt clock)) →
      (∀ v ∈ db.versions, p v) → ∀ v ∈ (db.updateVersion tenantId id f clock).versions, p v := by
    intro p hkeep hp v hv
    obtain ⟨x,hx,rfl⟩ := mem_updateWhere.mp hv
    split
    · exact hkeep x (hp x hx)
    · exact hp x hx
  have hkey := fun v => And.intro (hf.id v) (hf.tenantId v)
  exact { h with
    currentVersions := fun d hd v hv => (h.currentVersions d hd v hv).updateVersion tenantId id hkey clock
    versionIds := hmap (·.id) hset.id ▸ h.versionIds
    versionNumbers := hnumbers ▸ h.versionNumbers
    contentHashes := hhashes ▸ h.contentHashes
    versionTenants := hmem (fun v hv => by rwa [hset.tenantId]) h.versionTenants
    versionDocuments := hmem (fun v hv => by rwa [hset.tenantId,hset.documentId]) h.versionDocuments
    versionChecks := hmem (fun v hv => by rwa [hset.versionNumber,hset.contentSha256]) h.versionChecks
    failureVersions := fun x hx => (h.failureVersions x hx).updateVersion tenantId id hkey clock }

/-- Outbox rows may change in what publishers write. -/
theorem updateOutbox (h : db.Constraints) {rows : List OutboxRow}
    (hids : rows.map (·.id)=db.outbox.map (·.id)) (hevents : rows.map (·.event)=db.outbox.map (·.event)) :
    Constraints { db with outbox := rows } := by
  have hkeys : rows.map (fun r => (r.event.tenantId,r.event.eventId))=
      db.outbox.map (fun r => (r.event.tenantId,r.event.eventId)) := by
    have hmap := congrArg (List.map (fun e : OutboxEvent => (e.tenantId,e.eventId))) hevents
    simpa only [List.map_map,Function.comp_def] using hmap
  refine { h with
    outboxIds := hids ▸ h.outboxIds
    eventIds := hkeys ▸ h.eventIds
    outboxTenants := ?_ }
  intro r hr
  have hmem : r.event ∈ db.outbox.map (·.event) := hevents ▸ List.mem_map_of_mem hr
  obtain ⟨x,hx,heq⟩ := List.mem_map.mp hmem
  exact heq ▸ h.outboxTenants x hx

theorem claimEvent (h : db.Constraints) {e : ProcessedEvent} (hok : db.claimEvent e=.ok (some after)) :
    after.Constraints := by
  obtain ⟨htenant,hclaimed⟩ := claimEvent_eq_ok hok
  obtain ⟨-,hnone⟩ | ⟨hnew,hafter⟩ := hclaimed
  · cases hnone
  · cases hafter
    exact { h with
      claims := by simpa only [List.concat_eq_append] using h.claims.concat hnew
      claimTenants := forall_mem_snoc h.claimTenants htenant }

theorem insertFailure (h : db.Constraints) {f : IngestionFailure} (hok : db.insertFailure f=.ok after) :
    after.Constraints := by
  obtain ⟨⟨htenant,hversion⟩,rfl⟩ := insertFailure_eq_ok hok
  exact { h with
    failureTenants := forall_mem_snoc h.failureTenants htenant
    failureVersions := forall_mem_snoc h.failureVersions hversion }

/-- A change of the status is no change of a key. -/
theorem setDocumentStatus (h : db.Constraints) (tenantId id : UUID) (status : DocumentStatus)
    (clock : Time) : (db.setDocumentStatus tenantId id status clock).Constraints := by
  refine h.updateDocument tenantId id (f := fun d => { d with status := status })
    (fun _ => ⟨rfl,rfl,rfl,rfl⟩) ?_ clock
  rintro d hd rfl v hv
  exact h.currentVersions d hd v hv

lemma applyVersions (h : db.Constraints) {o : Outcome}
    (hversion : ∀ id f, o.version=some (id,f) → KeepsVersion f) :
    Constraints { db with versions := o.applyVersions db.versions } := by
  unfold Outcome.applyVersions
  split
  · exact h
  · exact h.updateVersion _ _ (hversion _ _ ‹_›) _

lemma applyDocuments (h : db.Constraints) (o : Outcome) :
    Constraints { db with documents := o.applyDocuments db.documents } := by
  unfold Outcome.applyDocuments
  split
  · exact h
  · exact h.setDocumentStatus _ _ _ _

lemma applyFailures (h : db.Constraints) {o : Outcome} (hfailure : ∀ f, o.failure=some f →
    f.tenantId ∈ db.tenants ∧ db.HasVersion f.tenantId f.documentVersionId) :
    Constraints { db with failures := o.applyFailures db.failures } := by
  unfold Outcome.applyFailures
  split
  · exact h
  · rename_i f hf
    obtain ⟨htenant,hversion⟩ := hfailure f hf
    exact h.insertFailure (insertFailure_of_version htenant hversion)

/-- A committed outcome keeps the constraints where its event and its failure belong to the tenant
of its claim. -/
theorem committed (h : db.Constraints) {o : Outcome} {outboxId : UUID} {now : Time}
    (hc : Committed o outboxId now db after) (hevent : o.event.tenantId=o.claim.tenantId)
    (hversion : ∀ id f, o.version=some (id,f) → KeepsVersion f)
    (hfailure : ∀ f, o.failure=some f →
      f.tenantId=o.claim.tenantId ∧ db.HasVersion f.tenantId f.documentVersionId) :
    after.Constraints := by
  have hclaimed := h.claimEvent (claimEvent_of_new hc.tenant hc.unclaimed)
  have hmarked := (hclaimed.applyVersions hversion).applyDocuments o
  have hfailed := hmarked.applyFailures (o := o) ?_
  · rw [hc.result]
    exact hfailed.insertOutbox (insertOutbox_of_fresh (hevent ▸ hc.tenant) hc.freshRow)
  · intro f hf
    obtain ⟨htenant,v,hv,hvtenant,hvid⟩ := hfailure f hf
    refine ⟨htenant ▸ hc.tenant,?_⟩
    change HasVersion { db with versions := o.applyVersions db.versions } _ _
    unfold Outcome.applyVersions
    split
    · exact ⟨v,hv,hvtenant,hvid⟩
    · rename_i id f hversion'
      have hkeeps := hversion id f hversion'
      exact HasVersion.updateVersion ⟨v,hv,hvtenant,hvid⟩ _ _
        (fun v => ⟨hkeeps.id v,hkeeps.tenantId v⟩) _

end Constraints
end Db
end RagIngestion.Database
