import RagIngestion.Database.Schema
import RagIngestion.Library.Scripts

/-! The SQL statements of the submission, the fetcher and the extractor: what each one answers,
which rows it writes, and what its writes lock until the end of the transaction. -/
namespace RagIngestion.Database
open RagIngestion.Python RagIngestion.Domain RagIngestion.Library

/-- The columns of a document that no statement changes. -/
structure DocumentFacts where
  id : UUID
  tenantId : UUID
  sourceSystem : PyStr
  sourceExternalId : PyStr
  deriving DecidableEq

def Document.facts (d : Document) : DocumentFacts :=
  ⟨d.id,d.tenantId,d.sourceSystem,d.sourceExternalId⟩

/-- The columns of a version that no statement changes. -/
structure VersionFacts where
  id : UUID
  tenantId : UUID
  documentId : UUID
  versionNumber : ℕ
  contentSha256 : PyStr
  sourceObjectUri : PyStr
  mimeType : PyStr
  byteSize : ℕ
  deletedAt : Option Time
  deriving DecidableEq

def DocumentVersion.facts (v : DocumentVersion) : VersionFacts :=
  ⟨v.id,v.tenantId,v.documentId,v.versionNumber,v.contentSha256,v.sourceObjectUri,v.mimeType,
    v.byteSize,v.deletedAt⟩

/-- A version of which only these columns are known. -/
def VersionFacts.row (v : VersionFacts) : DocumentVersion where
  id := v.id
  tenantId := v.tenantId
  documentId := v.documentId
  versionNumber := v.versionNumber
  contentSha256 := v.contentSha256
  sourceObjectUri := v.sourceObjectUri
  normalizedObjectUri := none
  mimeType := v.mimeType
  byteSize := v.byteSize
  extractionConfig := .dict []
  extractionMetadata := .dict []
  updatedAt := 0
  deletedAt := v.deletedAt
  detectedMimeType := none
  inspectionStatus := .pending
  inspectionMetadata := .dict []
  extractionStatus := .pending
  extractionManifestUri := none

/-- The `SET` list of an update of `rag.documents`, and the clock its trigger reads. `version` is
the version it refers to. -/
structure DocumentUpdate where
  assign : Document → Document
  clock : Time
  version : Option UUID
  keeps : ∀ d, (assign d).facts=d.facts

/-- The `SET` list of an update of `rag.document_versions`, and the clock its trigger reads. -/
structure VersionUpdate where
  assign : DocumentVersion → DocumentVersion
  clock : Time
  keeps : ∀ v, (assign v).facts=v.facts

/-- The row as the update and its trigger leave it. -/
def DocumentUpdate.set (f : DocumentUpdate) (d : Document) : Document :=
  (f.assign d).setUpdatedAt f.clock

def VersionUpdate.set (f : VersionUpdate) (v : DocumentVersion) : DocumentVersion :=
  (f.assign v).setUpdatedAt f.clock

theorem DocumentUpdate.facts (f : DocumentUpdate) (d : Document) : (f.set d).facts=d.facts :=
  f.keeps d

theorem VersionUpdate.facts (f : VersionUpdate) (v : DocumentVersion) : (f.set v).facts=v.facts :=
  f.keeps v

inductive Statement
  /-- `SELECT set_config('app.tenant_id', …, true)`. -/
  | setConfig (tenantId : PyStr)
  | insertDocument (d : Document)
  | insertVersion (v : DocumentVersion)
  | insertOutbox (id : UUID) (event : OutboxEvent) (now : Time)
  | insertFailure (f : IngestionFailure)
  /-- `INSERT INTO rag.processed_events … ON CONFLICT DO NOTHING RETURNING event_id`. -/
  | claimEvent (e : ProcessedEvent)
  /-- `SELECT … FROM rag.document_versions WHERE …`, read with `one_or_none`. -/
  | selectVersion (p : VersionFacts → Bool)
  | updateVersion (tenantId id : UUID) (f : VersionUpdate)
  | updateDocument (tenantId id : UUID) (f : DocumentUpdate)

/-- What the code reads from the result of a statement. -/
abbrev Answer : Statement → Type
  | .claimEvent _ => Bool
  | .selectVersion _ => Option VersionFacts
  | _ => Unit

/-- A row written by a statement: a new one, or new contents of one. -/
inductive Write
  | document (d : Document)
  | version (v : DocumentVersion)
  | outbox (r : OutboxRow)
  | failure (f : IngestionFailure)
  | processedEvent (e : ProcessedEvent)
  | updateVersion (tenantId id : UUID) (f : VersionUpdate)
  | updateDocument (tenantId id : UUID) (f : DocumentUpdate)

namespace Write

def onDocuments : Write → List Document → List Document
  | .document d, rows => rows ++ [d]
  | .updateDocument tenantId id f, rows =>
    updateWhere (fun d => d.tenantId=tenantId ∧ d.id=id) f.set rows
  | _, rows => rows

def onVersions : Write → List DocumentVersion → List DocumentVersion
  | .version v, rows => rows ++ [v]
  | .updateVersion tenantId id f, rows =>
    updateWhere (fun v => v.tenantId=tenantId ∧ v.id=id) f.set rows
  | _, rows => rows

def onOutbox : Write → List OutboxRow → List OutboxRow
  | .outbox r, rows => rows ++ [r]
  | _, rows => rows

def onProcessedEvents : Write → List ProcessedEvent → List ProcessedEvent
  | .processedEvent e, rows => rows ++ [e]
  | _, rows => rows

def onFailures : Write → List IngestionFailure → List IngestionFailure
  | .failure f, rows => rows ++ [f]
  | _, rows => rows

def apply (w : Write) (db : Db) : Db where
  tenants := db.tenants
  documents := w.onDocuments db.documents
  versions := w.onVersions db.versions
  outbox := w.onOutbox db.outbox
  processedEvents := w.onProcessedEvents db.processedEvents
  failures := w.onFailures db.failures

end Write

/-- What a write locks: the values of the unique columns of a new row, or the row it changes. -/
inductive Key
  | processedEvent (e : ProcessedEvent)
  | documentId (id : UUID)
  | documentSource (tenantId : UUID) (sourceSystem sourceExternalId : PyStr)
  | versionId (id : UUID)
  | versionNumber (tenantId documentId : UUID) (versionNumber : ℕ)
  | versionContent (tenantId : UUID) (contentSha256 : PyStr)
  | versionRow (tenantId id : UUID)
  | documentRow (tenantId id : UUID)
  | outboxId (id : UUID)
  | outboxEvent (tenantId eventId : UUID)
  deriving DecidableEq

def Write.keys : Write → List Key
  | .document d =>
    [.documentId d.id,.documentSource d.tenantId d.sourceSystem d.sourceExternalId]
  | .version v =>
    [.versionId v.id,.versionNumber v.tenantId v.documentId v.versionNumber,
      .versionContent v.tenantId v.contentSha256]
  | .outbox r => [.outboxId r.id,.outboxEvent r.event.tenantId r.event.eventId]
  | .failure _ => []
  | .processedEvent e => [.processedEvent e]
  | .updateVersion tenantId id _ => [.versionRow tenantId id]
  | .updateDocument tenantId id _ => [.documentRow tenantId id]

/-- An update of a document may refer to a version only if there is one. -/
def refersTo (tenantId : UUID) (version : Option UUID) (db : Db) : Prop :=
  match version with
  | none => True
  | some id => ∃ v ∈ db.versions, v.tenantId=tenantId ∧ v.id=id

instance (tenantId : UUID) (version : Option UUID) (db : Db) :
    Decidable (refersTo tenantId version db) := by
  unfold refersTo
  split <;> infer_instance

/-- A statement on the rows its transaction sees. -/
def Statement.exec : (s : Statement) → Db → Except PyError (Answer s × List Write)
  | .setConfig _, _ => .ok ((),[])
  | .insertDocument d, db => (db.insertDocument d).map (fun _ => ((),[.document d]))
  | .insertVersion v, db => (db.insertVersion v).map (fun _ => ((),[.version v]))
  | .insertOutbox id event now, db =>
    (db.insertOutbox id event now).map (fun _ => ((),[.outbox (.inserted id event now)]))
  | .insertFailure f, db => (db.insertFailure f).map (fun _ => ((),[.failure f]))
  | .claimEvent e, db =>
    (db.claimEvent e).map (fun claimed => if claimed.isSome then (true,[.processedEvent e]) else (false,[]))
  | .selectVersion p, db =>
    match db.versions.filter (fun v => p v.facts) with
    | [] => .ok (none,[])
    | [v] => .ok (some v.facts,[])
    | _ => .error .multipleResultsFound
  | .updateVersion tenantId id f, db =>
    if ∃ v ∈ db.versions, v.tenantId=tenantId ∧ v.id=id then
      .ok ((),[.updateVersion tenantId id f])
    else .ok ((),[])
  | .updateDocument tenantId id f, db =>
    if ∃ d ∈ db.documents, d.tenantId=tenantId ∧ d.id=id then
      if refersTo tenantId f.version db then .ok ((),[.updateDocument tenantId id f])
      else .error .integrityError
    else .ok ((),[])

section
variable {α β ε : Type} {q : Prop} [Decidable q]

lemma map_ite_ok (a : α) (e : ε) (g : α → β) :
    (if q then Except.ok a else Except.error e).map g=if q then Except.ok (g a) else Except.error e := by
  split <;> rfl

end

/-! Each insert as the check it makes. -/

theorem exec_insertDocument (d : Document) (db : Db) : (Statement.insertDocument d).exec db=
    if d.tenantId ∈ db.tenants ∧ ∀ x ∈ db.documents, x.id≠d.id ∧
      ¬(x.tenantId=d.tenantId ∧ x.sourceSystem=d.sourceSystem ∧
        x.sourceExternalId=d.sourceExternalId) then .ok ((),[.document d])
    else .error .integrityError := map_ite_ok ..

theorem exec_insertVersion (v : DocumentVersion) (db : Db) : (Statement.insertVersion v).exec db=
    if v.tenantId ∈ db.tenants ∧ 0<v.versionNumber ∧ isSha256Text v.contentSha256 ∧
      (∃ d ∈ db.documents, d.tenantId=v.tenantId ∧ d.id=v.documentId) ∧
      ∀ x ∈ db.versions, x.id≠v.id ∧
        ¬(x.tenantId=v.tenantId ∧ x.documentId=v.documentId ∧ x.versionNumber=v.versionNumber) ∧
        ¬(x.tenantId=v.tenantId ∧ x.contentSha256=v.contentSha256) then .ok ((),[.version v])
    else .error .integrityError := map_ite_ok ..

theorem exec_insertOutbox (id : UUID) (event : OutboxEvent) (now : Time) (db : Db) :
    (Statement.insertOutbox id event now).exec db=
    if event.tenantId ∈ db.tenants ∧ ∀ x ∈ db.outbox, x.id≠id ∧
      ¬(x.event.tenantId=event.tenantId ∧ x.event.eventId=event.eventId) then
      .ok ((),[.outbox (.inserted id event now)])
    else .error .integrityError := map_ite_ok ..

theorem exec_insertFailure (f : IngestionFailure) (db : Db) : (Statement.insertFailure f).exec db=
    if f.tenantId ∈ db.tenants ∧
      ∃ v ∈ db.versions, v.tenantId=f.tenantId ∧ v.id=f.documentVersionId then .ok ((),[.failure f])
    else .error .integrityError := map_ite_ok ..

theorem exec_claimEvent (e : ProcessedEvent) (db : Db) : (Statement.claimEvent e).exec db=
    if e.tenantId ∉ db.tenants then .error .integrityError
    else if e ∈ db.processedEvents then .ok (false,[]) else .ok (true,[.processedEvent e]) := by
  simp only [Statement.exec,Db.claimEvent]
  split
  · rfl
  · split <;> rfl

/-- Contents that differ in the order of the rows only. -/
structure Db.Same (c d : Db) : Prop where
  tenants : c.tenants=d.tenants
  documents : c.documents.Perm d.documents
  versions : c.versions.Perm d.versions
  outbox : c.outbox.Perm d.outbox
  processedEvents : c.processedEvents.Perm d.processedEvents
  failures : c.failures.Perm d.failures

theorem Db.same_equivalence : Equivalence Db.Same where
  refl _ := ⟨rfl,.refl _,.refl _,.refl _,.refl _,.refl _⟩
  symm h := ⟨h.tenants.symm,h.documents.symm,h.versions.symm,h.outbox.symm,h.processedEvents.symm,
    h.failures.symm⟩
  trans h g := ⟨h.tenants.trans g.tenants,h.documents.trans g.documents,h.versions.trans g.versions,
    h.outbox.trans g.outbox,h.processedEvents.trans g.processedEvents,h.failures.trans g.failures⟩

/-- The unique columns of the outbox. -/
def OutboxRow.names (r : OutboxRow) : UUID × UUID × UUID := (r.id,r.event.tenantId,r.event.eventId)

/-- Contents that agree, up to the order of rows, in the columns that no statement changes. -/
structure Alike (c d : Db) : Prop where
  tenants : c.tenants=d.tenants
  documents : (c.documents.map (·.facts)).Perm (d.documents.map (·.facts))
  versions : (c.versions.map (·.facts)).Perm (d.versions.map (·.facts))
  outbox : (c.outbox.map (·.names)).Perm (d.outbox.map (·.names))
  processedEvents : c.processedEvents.Perm d.processedEvents

theorem Db.Same.alike {c d : Db} (h : Db.Same c d) : Alike c d :=
  ⟨h.tenants,h.documents.map _,h.versions.map _,h.outbox.map _,h.processedEvents⟩

section
variable {α β : Type} {f : α → β} {rows more : List α}

lemma forall_mem_of_perm_map (h : (rows.map f).Perm (more.map f)) (p : β → Prop) :
    (∀ x ∈ rows, p (f x)) ↔ ∀ x ∈ more, p (f x) := by
  have hmap : ∀ l : List α, (∀ x ∈ l, p (f x)) ↔ ∀ y ∈ l.map f, p y := fun l => by simp
  rw [hmap,hmap]
  exact forall_congr' (fun y => imp_congr_left h.mem_iff)

lemma exists_mem_of_perm_map (h : (rows.map f).Perm (more.map f)) (p : β → Prop) :
    (∃ x ∈ rows, p (f x)) ↔ ∃ x ∈ more, p (f x) := by
  have hmap : ∀ l : List α, (∃ x ∈ l, p (f x)) ↔ ∃ y ∈ l.map f, p y := fun l => by simp
  rw [hmap,hmap]
  exact exists_congr (fun y => and_congr_left' h.mem_iff)

lemma map_filter_of_perm_map (h : (rows.map f).Perm (more.map f)) (p : β → Bool) :
    ((rows.filter (fun x => p (f x))).map f).Perm ((more.filter (fun x => p (f x))).map f) := by
  have hf := h.filter p
  rwa [List.filter_map,List.filter_map] at hf

end

/-- Statements tell contents apart by those columns only. -/
theorem Alike.exec {c d : Db} (h : Alike c d) (s : Statement) : s.exec c=s.exec d := by
  cases s with
  | setConfig => rfl
  | insertDocument x =>
    rw [exec_insertDocument,exec_insertDocument,h.tenants]
    refine if_congr (and_congr_right fun _ => ?_) rfl rfl
    exact forall_mem_of_perm_map h.documents (fun y => y.id≠x.id ∧ ¬(y.tenantId=x.tenantId ∧
      y.sourceSystem=x.sourceSystem ∧ y.sourceExternalId=x.sourceExternalId))
  | insertVersion v =>
    rw [exec_insertVersion,exec_insertVersion,h.tenants]
    refine if_congr (and_congr_right fun _ => and_congr_right fun _ => and_congr_right fun _ => ?_) rfl rfl
    refine and_congr ?_ ?_
    · exact exists_mem_of_perm_map h.documents (fun y => y.tenantId=v.tenantId ∧ y.id=v.documentId)
    · exact forall_mem_of_perm_map h.versions (fun y => y.id≠v.id ∧
        ¬(y.tenantId=v.tenantId ∧ y.documentId=v.documentId ∧ y.versionNumber=v.versionNumber) ∧
        ¬(y.tenantId=v.tenantId ∧ y.contentSha256=v.contentSha256))
  | insertOutbox id event now =>
    rw [exec_insertOutbox,exec_insertOutbox,h.tenants]
    refine if_congr (and_congr_right fun _ => ?_) rfl rfl
    exact forall_mem_of_perm_map h.outbox (fun y => y.1≠id ∧
      ¬(y.2.1=event.tenantId ∧ y.2.2=event.eventId))
  | insertFailure f =>
    rw [exec_insertFailure,exec_insertFailure,h.tenants]
    refine if_congr (and_congr_right fun _ => ?_) rfl rfl
    exact exists_mem_of_perm_map h.versions (fun y => y.tenantId=f.tenantId ∧ y.id=f.documentVersionId)
  | claimEvent e =>
    simp only [exec_claimEvent,h.tenants,h.processedEvents.mem_iff]
  | selectVersion p =>
    have hp := map_filter_of_perm_map h.versions p
    simp only [Statement.exec]
    generalize c.versions.filter (fun v => p v.facts)=found at hp
    generalize d.versions.filter (fun v => p v.facts)=found' at hp
    have hlen := hp.length_eq
    rw [List.length_map,List.length_map] at hlen
    match found, found', hlen with
    | [], [], _ => rfl
    | [v], [w], _ =>
      have hvw : v.facts=w.facts := List.singleton_perm_singleton.mp hp
      simp only [hvw]
    | _::_::_, _::_::_, _ => rfl
  | updateVersion tenantId id f =>
    simp only [Statement.exec]
    refine if_congr ?_ rfl rfl
    exact exists_mem_of_perm_map h.versions (fun y => y.tenantId=tenantId ∧ y.id=id)
  | updateDocument tenantId id f =>
    simp only [Statement.exec]
    refine if_congr ?_ (if_congr ?_ rfl rfl) rfl
    · exact exists_mem_of_perm_map h.documents (fun y => y.tenantId=tenantId ∧ y.id=id)
    · cases hv : f.version with
      | none => rfl
      | some v => exact exists_mem_of_perm_map h.versions (fun y => y.tenantId=tenantId ∧ y.id=v)

end RagIngestion.Database
