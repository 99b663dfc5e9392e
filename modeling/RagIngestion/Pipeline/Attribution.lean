import RagIngestion.Pipeline.Poison

/-! Events that a worker cannot attribute to a current version: which of its transactions then
change documents and versions. -/
namespace RagIngestion.Pipeline
open RagIngestion.Python RagIngestion.Domain RagIngestion.Database RagIngestion.Storage
open RagIngestion.Library

/-- The document and the version of a rejection are already as it leaves them, to the readings of
the clock in its updates: there are no such rows, or they were rejected alike at that very moment. -/
structure AlreadyRejected (versionUpdatedAt documentUpdatedAt : Time)
    (tenantId documentId versionId : UUID) (mark : DocumentVersion → DocumentVersion) (db : Db) :
    Prop where
  document : ∀ d ∈ db.documents, d.tenantId=tenantId → d.id=documentId →
    d.status=.failed ∧ d.updatedAt=documentUpdatedAt
  version : ∀ v ∈ db.versions, v.tenantId=tenantId → v.id=versionId →
    (mark v).setUpdatedAt versionUpdatedAt=v

/-- Documents and versions are as they were. -/
def Unmarked (db after : Db) : Prop := after.documents=db.documents ∧ after.versions=db.versions

/-- A committed rejection changes no document and no version exactly when they were rejected alike
before. -/
lemma unmarked_iff_of_rejection {o : Outcome} {documentId versionId : UUID}
    {mark : DocumentVersion → DocumentVersion} {outboxId : UUID} {now : Time} {db after : Db}
    (hc : Committed o outboxId now db after) (hstatus : o.status=some (documentId,.failed))
    (hversion : o.version=some (versionId,mark)) :
    Unmarked db after ↔ AlreadyRejected o.versionUpdatedAt o.documentUpdatedAt o.claim.tenantId
      documentId versionId mark db := by
  rw [hc.result,Unmarked]
  simp only [Outcome.apply_documents,Outcome.apply_versions,Outcome.applyDocuments,
    Outcome.applyVersions,hstatus,hversion,updateWhere_eq_self_iff,decide_eq_true_eq]
  constructor
  · rintro ⟨hd,hv⟩
    refine ⟨fun d hmem ht hid => ?_,fun v hmem ht hid => hv v hmem ⟨ht,hid⟩⟩
    have hsame := hd d hmem ⟨ht,hid⟩
    exact ⟨(congrArg Document.status hsame).symm,(congrArg Document.updatedAt hsame).symm⟩
  · intro h
    refine ⟨fun d hmem hkey => ?_,fun v hmem hkey => h.version v hmem hkey.1 hkey.2⟩
    obtain ⟨hfailed,hclock⟩ := h.document d hmem hkey.1 hkey.2
    rw [← hfailed,← hclock]
    rfl

section
variable (sha256 : Bytes → Digest) (bucket : BucketName) (maxDocumentBytes : ℕ)

/-- The states of fetcher calls on a payload, whatever the stores hold at each step. -/
inductive Fetches (p : DocumentSubmitted) : Fetcher.Task → Prop
  | started : Fetches p (.started p)
  | next {source db task a after next} (h : Fetches p task)
      (ht : Fetcher.Transition sha256 bucket maxDocumentBytes source db task a after next) :
      Fetches p next

/-- The fetcher cannot attribute the event. -/
def FetchUnattributed (p : DocumentSubmitted) (ids : Fetcher.Ids) (db : Db) : Prop :=
  p.eventType≠py "DocumentSubmitted" ∨
    Fetcher.matchingVersions ids.tenantId ids.documentId p.payloadUri db=[]

/-- The fetcher's transaction on an event of another type that names one version, which it fails. -/
def FetchMarks (p : DocumentSubmitted) (ids : Fetcher.Ids) (db : Db) (task : Fetcher.Task)
    (a : Fetcher.Action) : Prop :=
  ∃ draws fault version, task=.processing p none (some Fetcher.unexpectedEventType) ∧
    a=.process draws fault ∧ fault≠.before ∧
    Claimable ⟨ids.tenantId,ids.eventId,Fetcher.consumerName⟩ draws db ∧
    Fetcher.matchingVersions ids.tenantId ids.documentId p.payloadUri db=[version] ∧
    ¬AlreadyRejected draws.versionUpdatedAt draws.documentUpdatedAt ids.tenantId ids.documentId version.id
      (Fetcher.markInvalid Fetcher.unexpectedEventType) db

variable {sha256 bucket maxDocumentBytes}

lemma Fetches.ne_idle {p : DocumentSubmitted} {task : Fetcher.Task}
    (h : Fetches sha256 bucket maxDocumentBytes p task) : task≠.idle := by
  cases h with
  | started => simp
  | next _ ht =>
    cases ht with
    | processed => split <;> simp
    | _ => simp

lemma Fetches.active {p q : DocumentSubmitted} {task : Fetcher.Task}
    (h : Fetches sha256 bucket maxDocumentBytes p task) (hq : task.active=some q) : q=p := by
  induction h generalizing q with
  | started => exact (Option.some.inj hq).symm
  | next h ht ih =>
    cases ht.active _ _ _ hq with
    | inl hq => exact ih hq
    | inr ha =>
      subst ha
      cases ht
      exact absurd rfl h.ne_idle

/-- An event of another type is not read, and is processed with that error. -/
lemma Fetches.wrongType {p : DocumentSubmitted} {task : Fetcher.Task}
    (h : Fetches sha256 bucket maxDocumentBytes p task) (hp : p.eventType≠py "DocumentSubmitted") :
    (∀ q body, task≠.opened q body) ∧ ∀ q i e, task=.processing q i e →
      i=none ∧ e=some Fetcher.unexpectedEventType := by
  induction h with
  | started => exact ⟨by simp,by simp⟩
  | next h ht ih =>
    cases ht with
    | wrongType =>
      refine ⟨by simp,?_⟩
      intro q i e heq
      cases heq
      exact ⟨rfl,rfl⟩
    | get htype => exact absurd (h.active rfl ▸ htype) hp
    | inspected => exact absurd rfl (ih.1 _ _)
    | invalid => exact absurd rfl (ih.1 _ _)
    | processed => split <;> exact ⟨by simp,by simp⟩
    | _ => exact ⟨by simp,by simp⟩

/-- A step of a fetcher call on an event it cannot attribute changes documents and versions
exactly when it is the transaction of an event of another type that names one version. -/
theorem fetch_unmarked_iff {p : DocumentSubmitted} {ids : Fetcher.Ids}
    {source : PyStr → Option StoredObject} {db after : Db} {task next : Fetcher.Task} {a : Fetcher.Action}
    (h : Fetches sha256 bucket maxDocumentBytes p task) (hn : Fetcher.Names p ids)
    (hu : FetchUnattributed p ids db)
    (ht : Fetcher.Transition sha256 bucket maxDocumentBytes source db task a after next) :
    Unmarked db after ↔ ¬FetchMarks p ids db task a := by
  have hsame : ∀ {draws : Draws} {fault : Fault}, a=.process draws fault →
      (fault=.before ∨ ¬Claimable ⟨ids.tenantId,ids.eventId,Fetcher.consumerName⟩ draws db ∨
        Fetcher.matchingVersions ids.tenantId ids.documentId p.payloadUri db=[]) →
      ¬FetchMarks p ids db task a := by
    rintro draws fault rfl hno ⟨draws',fault',version,-,ha,hfault,hclaimable,hv,-⟩
    cases ha
    rcases hno with hno | hno | hno
    · exact hfault hno
    · exact hno hclaimable
    · rw [hno] at hv
      cases hv
  cases ht with
  | @processFails q inspection error draws fault hfails =>
    refine iff_of_true ⟨rfl,rfl⟩ ?_
    rintro ⟨draws',fault',version,htask,ha,hfault,hclaimable,hv,-⟩
    cases htask
    cases ha
    obtain hbefore | ⟨e,he⟩ := hfails
    · exact hfault hbefore
    · obtain ⟨result,hresult⟩ : ∃ result,
          Fetcher.process p none (some Fetcher.unexpectedEventType) draws db=.ok result :=
        Fetcher.process_of_unambiguous hn hclaimable (.inr rfl) (by simp [hv])
      cases h.active rfl
      rw [hresult] at he
      cases he
  | @processed q inspection error draws fault result hp hf =>
    cases h.active rfl
    obtain ⟨tenantId,eventId,htenant,hevent,hmem,rfl⟩ | ⟨ids',o,after,hn',ho,hcommit,rfl⟩ :=
      Fetcher.process_eq_ok hp
    · refine iff_of_true ⟨rfl,rfl⟩ (hsame rfl (.inr (.inl ?_)))
      intro hclaimable
      cases Except.ok.inj (htenant.symm.trans hn.tenant)
      cases Except.ok.inj (hevent.symm.trans hn.event)
      exact hclaimable.unclaimed hmem
    · cases hn'.unique hn
      cases ho with
      | unknown hv =>
        refine iff_of_true ?_ (hsame rfl (.inr (.inr hv)))
        rw [Option.getD_some,hcommit.result]
        exact ⟨rfl,rfl⟩
      | @invalid version e hv hverdict =>
        have htype := hu.resolve_right (by simp [hv])
        obtain ⟨rfl,rfl⟩ := (h.wrongType htype).2 _ _ _ rfl
        cases hverdict
        rw [Option.getD_some,unmarked_iff_of_rejection hcommit rfl rfl]
        constructor
        · rintro hmarked ⟨draws',fault',version',-,ha,-,-,hv',hnot⟩
          rw [hv] at hv'
          cases hv'
          cases ha
          exact hnot hmarked
        · intro hnot
          by_contra hmarked
          exact hnot ⟨draws,fault,version,rfl,rfl,hf,hcommit.claimable rfl rfl,hv,hmarked⟩
      | valid hv hverdict hi =>
        have htype := hu.resolve_right (by simp [hv])
        obtain ⟨rfl,rfl⟩ := (h.wrongType htype).2 _ _ _ rfl
        cases hi
  | _ =>
    refine iff_of_true ⟨rfl,rfl⟩ ?_
    rintro ⟨draws,fault,version,-,ha,-⟩
    cases ha

end

section
variable (c : Config)

/-- The states of extractor calls on a payload, whatever the stores hold at each step. -/
inductive Extracts (p : DocumentFetched) : Extractor.Task → Prop
  | started : Extracts p (.started p)
  | next {source w task a after next} (h : Extracts p task)
      (ht : Extractor.Transition c.rt c.sourceBucket c.artifactBucket c.extractionMaxBytes source w task a
        after next) : Extracts p next

/-- The extractor cannot attribute the event. -/
def ExtractUnattributed (p : DocumentFetched) (ids : Extractor.Ids) (db : Db) : Prop :=
  p.eventType≠py "DocumentFetched" ∨ Extractor.currentVersions ids p.contentSha256 db=[]

/-- A rejection of the extractor that fails a document or a version. -/
def ExtractMarks (ids : Extractor.Ids) (db : Db) (task : Extractor.Task) (a : Extractor.Action) : Prop :=
  ∃ p error draws fault, task=.rejecting p error ∧ a=.reject draws fault ∧ fault≠.before ∧
    Claimable ⟨ids.tenantId,ids.eventId,Extractor.consumerName⟩ draws db ∧
    ¬AlreadyRejected draws.versionUpdatedAt draws.documentUpdatedAt ids.tenantId ids.documentId
      ids.versionId (Extractor.markFailed error) db

variable {c}

/-- Only a rejection marks rows. -/
lemma not_extractMarks {ids : Extractor.Ids} {db : Db} {task : Extractor.Task} {a : Extractor.Action}
    (h : ∀ draws fault, a≠.reject draws fault) : ¬ExtractMarks ids db task a := by
  rintro ⟨p,error,draws,fault,-,ha,-⟩
  exact h draws fault ha

lemma Extracts.payload {p : DocumentFetched} {task : Extractor.Task} (h : Extracts c p task) :
    task.payload=some p := by
  induction h with
  | started => rfl
  | next _ ht ih => exact ht.payload _ _ _ _ ih

/-- What a call is to record was accepted before. -/
lemma Extracts.accepted {p : DocumentFetched} {task : Extractor.Task} (h : Extracts c p task) :
    (∀ q body, task=.opened q body → Extractor.payloadError p=none) ∧
    ((∃ r, task.result=some r) → Extractor.payloadError p=none) := by
  induction h with
  | started => exact ⟨by simp,by simp [Extractor.Task.result]⟩
  | @next source w task a after next h ht ih =>
    refine ⟨?_,?_⟩
    · intro q body hq
      cases ht with
      | get hp => exact Option.some.inj h.payload ▸ hp
      | putNormalized hput => cases hput <;> cases hq
      | putManifest hput => cases hput <;> cases hq
      | completed => split at hq <;> cases hq
      | rejected => split at hq <;> cases hq
      | _ => cases hq
    · rintro ⟨r,hr⟩
      obtain hr | ⟨q,body,read,convert,rfl,-,-⟩ := ht.result _ _ _ _ hr
      · exact ih.2 ⟨r,hr⟩
      · exact ih.1 q body rfl

/-- A step of an extractor call on an event it cannot attribute changes documents and versions
exactly when it is a rejection that fails a document or a version. -/
theorem extract_unmarked_iff {p : DocumentFetched} {ids : Extractor.Ids} {correlationId : UUID}
    {source : PyStr → Option StoredObject} {w after : Extractor.Stores} {task next : Extractor.Task}
    {a : Extractor.Action} (h : Extracts c p task) (hn : Extractor.Names p ids correlationId)
    (hu : ExtractUnattributed p ids w.db)
    (ht : Extractor.Transition c.rt c.sourceBucket c.artifactBucket c.extractionMaxBytes source w task a
      after next) :
    Unmarked w.db after.db ↔ ¬ExtractMarks ids w.db task a := by
  cases ht with
  | putNormalized hput =>
    exact iff_of_true (by cases hput <;> exact ⟨rfl,rfl⟩) (not_extractMarks (by simp))
  | putManifest hput =>
    exact iff_of_true (by cases hput <;> exact ⟨rfl,rfl⟩) (not_extractMarks (by simp))
  | completed hc hf =>
    refine iff_of_true ?_ (not_extractMarks (by simp))
    obtain ⟨-,-,-,rfl⟩ | ⟨ids',correlationId',version,after,hn',hv,-,-⟩ := Extractor.complete_eq_ok hc
    · exact ⟨rfl,rfl⟩
    · cases Option.some.inj h.payload
      obtain ⟨rfl,-⟩ := hn.unique hn'
      have haccepted := h.accepted.2 ⟨_,rfl⟩
      cases hu with
      | inl htype =>
        rw [Extractor.payloadError,if_pos htype] at haccepted
        cases haccepted
      | inr hnone =>
        rw [hnone] at hv
        cases hv
  | @rejectFails q error draws fault hfails =>
    cases Option.some.inj h.payload
    refine iff_of_true ⟨rfl,rfl⟩ ?_
    rintro ⟨q',error',draws',fault',htask,ha,hfault,hclaimable,-⟩
    cases htask
    cases ha
    obtain hbefore | ⟨e,he⟩ := hfails
    · exact hfault hbefore
    · obtain ⟨result,hresult⟩ := Extractor.reject_of_claimable error hn hclaimable
      rw [hresult] at he
      cases he
  | rejected hr hf =>
    cases Option.some.inj h.payload
    obtain ⟨ids',hids,hmem,rfl⟩ | ⟨ids',correlationId',after,hn',hcommit,rfl⟩ := Extractor.reject_eq_ok hr
    · refine iff_of_true ⟨rfl,rfl⟩ ?_
      rintro ⟨q,error,draws,fault,htask,ha,hfault,hclaimable,-⟩
      cases ha
      cases Except.ok.inj (hids.symm.trans hn.ids)
      exact hclaimable.unclaimed hmem
    · obtain ⟨rfl,rfl⟩ := hn.unique hn'
      simp only [Option.getD_some]
      rw [unmarked_iff_of_rejection hcommit rfl rfl]
      constructor
      · rintro hmarked ⟨q,error,draws,fault,htask,ha,-,-,hnot⟩
        cases htask
        cases ha
        exact hnot hmarked
      · intro hnot
        by_contra hmarked
        exact hnot ⟨_,_,_,_,rfl,rfl,hf,hcommit.claimable rfl rfl,hmarked⟩
  | _ => exact iff_of_true ⟨rfl,rfl⟩ (not_extractMarks (by simp))

end

/-- Whatever the stores hold at each step of a call, events that cannot be attributed leave
documents and versions as they were, except in the fetcher's transaction on an event of another
type that names one version, and in rejections of the extractor that find the document or the
version they name. -/
theorem unattributed_events_unmarked_iff (c : Config) :
    (∀ p ids source db after task next a,
      Fetches c.rt.sha256 c.sourceBucket c.fetcherMaxDocumentBytes p task → Fetcher.Names p ids →
      FetchUnattributed p ids db →
      Fetcher.Transition c.rt.sha256 c.sourceBucket c.fetcherMaxDocumentBytes source db task a after next →
      (Unmarked db after ↔ ¬FetchMarks p ids db task a)) ∧
    ∀ p ids correlationId source w after task next a, Extracts c p task →
      Extractor.Names p ids correlationId → ExtractUnattributed p ids w.db →
      Extractor.Transition c.rt c.sourceBucket c.artifactBucket c.extractionMaxBytes source w task a
        after next →
      (Unmarked w.db after.db ↔ ¬ExtractMarks ids w.db task a) :=
  ⟨fun _ _ _ _ _ _ _ _ h hn hu ht => fetch_unmarked_iff h hn hu ht,
    fun _ _ _ _ _ _ _ _ _ h hn hu ht => extract_unmarked_iff h hn hu ht⟩

/-- An event for the fetcher that reaches the extractor, with the ids of the small document. -/
def strayFetched : DocumentFetched := { smallFetched with eventType := py "DocumentSubmitted" }

lemma strayFetched_names : Extractor.Names strayFetched ⟨⟨1⟩,⟨2⟩,⟨3⟩,⟨6⟩⟩ ⟨4⟩ :=
  ⟨(smallExtract_healthy []).names.ids,(smallExtract_healthy []).names.correlation⟩

/-- An event of another type is rejected before its source is read. -/
lemma rejecting_of_stray {p : DocumentFetched} (hp : p.eventType≠py "DocumentFetched") :
    Extracts plainConfig p (.rejecting p Extractor.unexpectedEventType) := by
  have ht : Extractor.Transition plainConfig.rt plainConfig.sourceBucket plainConfig.artifactBucket
      plainConfig.extractionMaxBytes (fun _ => none) ⟨fun _ => none,Db.empty []⟩ (.started p)
      (.get .none) _ _ := .refuse (if_pos hp)
  exact .next .started ht

/-- A stray event that names another document and version. -/
def strayElsewhere : DocumentFetched :=
  { strayFetched with documentId := (UUID.mk 20).str, documentVersionId := (UUID.mk 21).str }

lemma strayElsewhere_names : Extractor.Names strayElsewhere ⟨⟨1⟩,⟨20⟩,⟨21⟩,⟨6⟩⟩ ⟨4⟩ := by
  refine ⟨?_,UUID.ofText_str _⟩
  simp only [strayElsewhere,strayFetched,smallFetched,buildDocumentFetchedEvent,Extractor.payloadIds,
    UUID.ofText_str,ok_bind]

/-- Its rejection leaves the rows of the small document. -/
theorem stray_event_unmarked : smallDb.documents.length=1 ∧ smallDb.versions.length=1 ∧
    Extracts plainConfig strayElsewhere (.rejecting strayElsewhere Extractor.unexpectedEventType) ∧
    ExtractUnattributed strayElsewhere ⟨⟨1⟩,⟨20⟩,⟨21⟩,⟨6⟩⟩ smallDb ∧ ∃ after next,
    Extractor.Transition plainConfig.rt plainConfig.sourceBucket plainConfig.artifactBucket
      plainConfig.extractionMaxBytes (fun _ => none) ⟨fun _ => none,smallDb⟩
      (.rejecting strayElsewhere Extractor.unexpectedEventType) (.reject ⟨⟨8⟩,[],⟨9⟩,2,2,2⟩ .none)
      after next ∧ Unmarked smallDb after.db := by
  have hrejecting : Extracts plainConfig strayElsewhere
      (.rejecting strayElsewhere Extractor.unexpectedEventType) := rejecting_of_stray (by decide)
  have hclaimable : Claimable ⟨⟨1⟩,⟨6⟩,Extractor.consumerName⟩ ⟨⟨8⟩,[],⟨9⟩,2,2,2⟩ smallDb :=
    ⟨List.mem_singleton_self _,List.not_mem_nil,by simp [smallDb,Db.empty]⟩
  obtain ⟨after,hafter,-⟩ :=
    Extractor.reject_commits Extractor.unexpectedEventType strayElsewhere_names hclaimable
  have ht : Extractor.Transition plainConfig.rt plainConfig.sourceBucket plainConfig.artifactBucket
      plainConfig.extractionMaxBytes (fun _ => none) ⟨fun _ => none,smallDb⟩
      (.rejecting strayElsewhere Extractor.unexpectedEventType) (.reject ⟨⟨8⟩,[],⟨9⟩,2,2,2⟩ .none) _ _ :=
    .rejected hafter (by simp)
  refine ⟨rfl,rfl,hrejecting,.inl (by decide),_,_,ht,
    ((unattributed_events_unmarked_iff plainConfig).2 _ _ _ _ _ _ _ _ _ hrejecting strayElsewhere_names
      (.inl (by decide)) ht).mpr ?_⟩
  rintro ⟨p,error,draws,fault,-,-,-,-,hnot⟩
  refine hnot ⟨?_,?_⟩
  · intro d hd _ hid
    rw [List.mem_singleton.mp hd] at hid
    exact absurd hid (by decide)
  · intro v hv _ hid
    rw [List.mem_singleton.mp hv] at hid
    exact absurd hid (by decide)

/-- The small document once it is extracted. -/
def extractedDb : Db :=
  { smallDb with documents := [{ Submission.smallDraft.document 0 with status := .extracted }] }

/-- An event for the fetcher turns an extracted document into a failed one. -/
theorem stray_event_fails_extracted_document : ¬∀ (c : Config) (p : DocumentFetched)
    (ids : Extractor.Ids) (correlationId : UUID) (source : PyStr → Option StoredObject)
    (w after : Extractor.Stores) (task next : Extractor.Task) (a : Extractor.Action),
    Extracts c p task → Extractor.Names p ids correlationId → ExtractUnattributed p ids w.db →
    Extractor.Transition c.rt c.sourceBucket c.artifactBucket c.extractionMaxBytes source w task a
      after next → Unmarked w.db after.db := by
  intro hall
  have hclaimable : Claimable ⟨⟨1⟩,⟨6⟩,Extractor.consumerName⟩ ⟨⟨8⟩,[],⟨9⟩,2,2,2⟩ extractedDb :=
    ⟨List.mem_singleton_self _,List.not_mem_nil,by simp [extractedDb,smallDb,Db.empty]⟩
  obtain ⟨after,hafter,hcommit⟩ :=
    Extractor.reject_commits Extractor.unexpectedEventType strayFetched_names hclaimable
  have ht : Extractor.Transition plainConfig.rt plainConfig.sourceBucket plainConfig.artifactBucket
      plainConfig.extractionMaxBytes (fun _ => none) ⟨fun _ => none,extractedDb⟩
      (.rejecting strayFetched Extractor.unexpectedEventType) (.reject ⟨⟨8⟩,[],⟨9⟩,2,2,2⟩ .none) _ _ :=
    .rejected hafter (by simp)
  have hunmarked := hall _ _ _ _ _ _ _ _ _ _ (rejecting_of_stray (by decide)) strayFetched_names
    (.inl (by decide)) ht
  have hstatus := congrArg (List.map (·.status)) hunmarked.1
  simp only [Option.getD_some,hcommit.result] at hstatus
  exact absurd hstatus (by decide)

end RagIngestion.Pipeline
