import RagIngestion.Pipeline.Lifecycle
import RagIngestion.Pipeline.Scripts

/-! What each transaction relies on while others run: it looks up and updates only rows that are
in view, or whose document is, once what its event names is in the database. -/
namespace RagIngestion.Pipeline
open RagIngestion.Python RagIngestion.Domain RagIngestion.Database RagIngestion.Library
open RagIngestion.Extractor (Raised raising raising_eq_ok)

/-- What a statement may rely on. A version is inserted for a document that is not among the
committed ones of `base`; versions are looked up and updated, and documents updated, only where
the row or its document is in view. -/
def Careful (base view : Db) : Statement → Prop
  | .insertVersion v => ∀ d ∈ base.documents, d.id≠v.documentId
  | .selectVersion p => ∀ v, p v=true →
      ∃ d ∈ view.documents, d.tenantId=v.tenantId ∧ d.id=v.documentId
  | .updateVersion tenantId id _ => ∃ v ∈ view.versions, v.tenantId=tenantId ∧ v.id=id
  | .updateDocument tenantId id _ => ∃ d ∈ view.documents, d.tenantId=tenantId ∧ d.id=id
  | _ => True

/-- The document of an event, and for a rejection its version, is in the database. A submission
refers to nothing. -/
def Transaction.Settled : Transaction → Db → Prop
  | .createSubmission .., _ => True
  | .process payload _ _ _, db => ∀ tenantId ∈ (UUID.ofText payload.tenantId).toOption,
      ∀ documentId ∈ (UUID.ofText payload.documentId).toOption,
      ∃ d ∈ db.documents, d.tenantId=tenantId ∧ d.id=documentId
  | .complete payload _ _ _ _, db => ∀ ids ∈ (Extractor.payloadIds payload).toOption,
      ∃ d ∈ db.documents, d.tenantId=ids.tenantId ∧ d.id=ids.documentId
  | .reject payload _ _, db => ∀ ids ∈ (Extractor.payloadIds payload).toOption,
      (∃ d ∈ db.documents, d.tenantId=ids.tenantId ∧ d.id=ids.documentId) ∧
      ∃ v ∈ db.versions, v.tenantId=ids.tenantId ∧ v.id=ids.versionId

instance (t : Transaction) (db : Db) : Decidable (t.Settled db) := by
  unfold Transaction.Settled
  split <;> infer_instance

lemma mem_toOption {ε α : Type} {x : Except ε α} {a : α} (h : x=.ok a) : a ∈ x.toOption := by
  rw [h]
  exact rfl

lemma of_mem_toOption {ε α : Type} {x : Except ε α} {a : α} (h : a ∈ x.toOption) : x=.ok a := by
  cases x with
  | error e => cases h
  | ok b => cases h; rfl

section
variable {α β : Type} {base db : Db}

lemma throughout_call {x : Except PyError α} {f : α → Sql β}
    (h : ∀ a, x=.ok a → (f a).Throughout engine (Careful base) db) :
    (call x >>= f).Throughout engine (Careful base) db := by
  refine (Script.throughout_lift _).bind ?_
  intro a c hac
  rw [show Script.lift (raising x)=call x from rfl,alone_call] at hac
  cases x with
  | error e => cases hac
  | ok b => cases hac; exact h a rfl

lemma throughout_setConfig {tenantId : PyStr} {f : Unit → Sql β}
    (h : (f ()).Throughout engine (Careful base) db) :
    Script.Throughout engine (Careful base) (sql (.setConfig tenantId) >>= f) db := by
  refine (Script.throughout_execute trivial).bind ?_
  intro a c hac
  cases hac
  exact h

lemma throughout_claim {e : ProcessedEvent} {f : Bool → Sql β}
    (hnew : ∀ claimed, claimed.documents=db.documents → claimed.versions=db.versions →
      (f true).Throughout engine (Careful base) claimed)
    (hold : (f false).Throughout engine (Careful base) db) :
    Script.Throughout engine (Careful base) (sql (.claimEvent e) >>= f) db := by
  refine (Script.throughout_execute trivial).bind ?_
  intro a c hac
  obtain ⟨claimed,hclaim,hac⟩ := map_eq_ok.mp ((alone_claimEvent db e).symm.trans hac)
  obtain ⟨-,⟨-,rfl⟩ | ⟨-,rfl⟩⟩ := Db.claimEvent_eq_ok (raising_eq_ok.mp hclaim)
  · cases hac
    exact hold
  · cases hac
    exact hnew _ rfl rfl

lemma throughout_updateVersion {tenantId id : UUID} {update : VersionUpdate} {f : Unit → Sql β}
    (hrow : ∃ v ∈ db.versions, v.tenantId=tenantId ∧ v.id=id)
    (h : (f ()).Throughout engine (Careful base) (db.updateVersion tenantId id update.assign update.clock)) :
    Script.Throughout engine (Careful base) (sql (.updateVersion tenantId id update) >>= f) db := by
  refine (Script.throughout_execute hrow).bind ?_
  intro a c hac
  cases (alone_updateVersion db tenantId id update).symm.trans hac
  exact h

lemma throughout_setStatus {tenantId id : UUID} {status : DocumentStatus} {clock : Time}
    {f : Unit → Sql β}
    (hrow : ∃ d ∈ db.documents, d.tenantId=tenantId ∧ d.id=id)
    (h : (f ()).Throughout engine (Careful base) (db.setDocumentStatus tenantId id status clock)) :
    Script.Throughout engine (Careful base)
      (sql (.updateDocument tenantId id (setStatus status clock)) >>= f) db := by
  refine (Script.throughout_execute hrow).bind ?_
  intro a c hac
  cases (alone_setStatus db tenantId id status clock).symm.trans hac
  exact h

/-- The last statement of a transaction. -/
lemma throughout_insertOutbox {id : UUID} {event : OutboxEvent} {now : Time} {b : Bool} :
    Script.Throughout engine (Careful base) (sql (.insertOutbox id event now) >>= fun _ => pure b) db :=
  (Script.throughout_execute trivial).bind fun _ _ _ => trivial

lemma throughout_insertFailure {failure : IngestionFailure} {f : Unit → Sql β}
    (h : ∀ after, (f ()).Throughout engine (Careful base) after) :
    Script.Throughout engine (Careful base) (sql (.insertFailure failure) >>= f) db :=
  (Script.throughout_execute trivial).bind fun _ after _ => h after

lemma throughout_enqueueFailure {payload : DocumentSubmitted} {error : Fetcher.FetchValidationError}
    {draws : Draws} :
    Script.Throughout engine (Careful base) (enqueueFailureScript payload error draws) db := by
  refine throughout_call fun tenantId _ => ?_
  refine throughout_call fun documentId _ => ?_
  refine throughout_call fun correlationId _ => ?_
  refine throughout_call fun causationId _ => ?_
  exact Script.throughout_execute trivial

/-- A found version is in view. -/
lemma throughout_select {p : VersionFacts → Bool} {f : Option VersionFacts → Sql β}
    (hdoc : ∀ v, p v=true → ∃ d ∈ db.documents, d.tenantId=v.tenantId ∧ d.id=v.documentId)
    (hnone : (f none).Throughout engine (Careful base) db)
    (hsome : ∀ v ∈ db.versions, p v.facts=true →
      (f (some v.facts)).Throughout engine (Careful base) db) :
    Script.Throughout engine (Careful base) (sql (.selectVersion p) >>= f) db := by
  refine (Script.throughout_execute hdoc).bind ?_
  intro a c hac
  cases hfound : db.versions.filter (fun v => p v.facts) with
  | nil =>
    cases (alone_selectNone hfound).symm.trans hac
    exact hnone
  | cons v rest =>
    cases rest with
    | cons w rest => cases (alone_selectMany hfound).symm.trans hac
    | nil =>
      cases (alone_selectOne hfound).symm.trans hac
      have hv : v ∈ db.versions.filter (fun v => p v.facts) := by
        rw [hfound]
        exact List.mem_singleton_self v
      exact hsome v (List.mem_filter.mp hv).1 (List.mem_filter.mp hv).2

end

/-- A submission inserts its version for its own new document and updates that document. -/
theorem createSubmissionScript_careful {tenantId documentId versionId : UUID}
    {sourceExternalId : PyStr} {title : Option PyStr}
    {classification contentSha256 sourceObjectUri mimeType : PyStr} {byteSize : ℕ} {eventId : UUID}
    {eventPayload : DocumentSubmitted} {outboxId : UUID} {now : Time} {db : Db} :
    (createSubmissionScript tenantId documentId versionId sourceExternalId title classification
      contentSha256 sourceObjectUri mimeType byteSize eventId eventPayload outboxId now).Throughout
      engine (Careful db) db := by
  refine throughout_setConfig ?_
  refine (Script.throughout_execute trivial).bind ?_
  intro _ db₁ h₁
  obtain ⟨_,h₁,hdb₁⟩ := map_eq_ok.mp ((alone_insertDocument db _).symm.trans h₁)
  cases hdb₁
  obtain ⟨⟨-,hfresh⟩,rfl⟩ := Db.insertDocument_eq_ok (raising_eq_ok.mp h₁)
  refine (Script.throughout_execute fun d hd => (hfresh d hd).1).bind ?_
  intro _ db₂ h₂
  obtain ⟨_,h₂,hdb₂⟩ := map_eq_ok.mp ((alone_insertVersion _ _).symm.trans h₂)
  cases hdb₂
  obtain ⟨-,rfl⟩ := Db.insertVersion_eq_ok (raising_eq_ok.mp h₂)
  refine (Script.throughout_execute ?_).bind fun _ _ _ => throughout_insertOutbox
  exact ⟨_,List.mem_append_right _ (List.mem_singleton_self _),rfl,rfl⟩

theorem processScript_careful {payload : DocumentSubmitted}
    {inspection : Option Fetcher.SourceInspection} {error : Option Fetcher.FetchValidationError}
    {draws : Draws} {db : Db}
    (h : (Transaction.process payload inspection error draws).Settled db) :
    (processScript payload inspection error draws).Throughout engine (Careful db) db := by
  refine throughout_call fun tenantId ht => ?_
  refine throughout_call fun documentId hd => ?_
  refine throughout_call fun eventId _ => ?_
  refine throughout_setConfig ?_
  refine throughout_claim ?_ trivial
  intro claimed hdocuments hversions
  have hdoc : ∃ d ∈ claimed.documents, d.tenantId=tenantId ∧ d.id=documentId := by
    rw [hdocuments]
    exact h tenantId (mem_toOption ht) documentId (mem_toOption hd)
  refine throughout_select ?_ ?_ ?_
  · intro v hv
    obtain ⟨rfl,rfl,-⟩ := of_decide_eq_true hv
    exact hdoc
  · exact throughout_enqueueFailure.bind fun _ _ _ => trivial
  · intro v hv hp
    have htenant := (of_decide_eq_true hp).1
    have hrow : ∃ x ∈ claimed.versions, x.tenantId=tenantId ∧ x.id=v.id := ⟨v,hv,htenant,rfl⟩
    dsimp only
    split
    · refine throughout_updateVersion hrow ?_
      refine throughout_setStatus hdoc ?_
      refine throughout_insertFailure fun after => ?_
      exact throughout_enqueueFailure.bind fun _ _ _ => trivial
    · split
      · trivial
      · refine throughout_updateVersion hrow ?_
        refine throughout_setStatus hdoc ?_
        refine throughout_call fun correlationId _ => ?_
        exact throughout_insertOutbox

theorem completeScript_careful {rt : Extractor.Runtime} {payload : DocumentFetched}
    {result : Extractor.ExtractionResult} {normalizedUri manifestUri : PyStr} {draws : Draws} {db : Db}
    (h : (Transaction.complete payload result normalizedUri manifestUri draws).Settled db) :
    (completeScript rt payload result normalizedUri manifestUri draws).Throughout
      engine (Careful db) db := by
  refine throughout_call fun ids hids => ?_
  refine throughout_setConfig ?_
  refine throughout_claim ?_ trivial
  intro claimed hdocuments hversions
  have hdoc : ∃ d ∈ claimed.documents, d.tenantId=ids.tenantId ∧ d.id=ids.documentId := by
    rw [hdocuments]
    exact h ids (mem_toOption hids)
  refine throughout_select ?_ trivial ?_
  · intro v hv
    obtain ⟨ht,-,hd,-⟩ := of_decide_eq_true hv
    rw [ht,hd]
    exact hdoc
  · intro v hv hp
    obtain ⟨htenant,hid,-⟩ := of_decide_eq_true hp
    refine throughout_updateVersion ⟨v,hv,htenant,hid⟩ ?_
    refine throughout_setStatus hdoc ?_
    refine throughout_call fun correlationId _ => ?_
    exact throughout_insertOutbox

theorem rejectScript_careful {payload : DocumentFetched} {error : Extractor.ExtractionError}
    {draws : Draws} {db : Db} (h : (Transaction.reject payload error draws).Settled db) :
    (rejectScript payload error draws).Throughout engine (Careful db) db := by
  refine throughout_call fun ids hids => ?_
  obtain ⟨hdoc,hversion⟩ := h ids (mem_toOption hids)
  refine throughout_setConfig ?_
  refine throughout_claim ?_ trivial
  intro claimed hdocuments hversions
  rw [← hdocuments] at hdoc
  rw [← hversions] at hversion
  refine throughout_updateVersion hversion ?_
  refine throughout_setStatus hdoc ?_
  refine throughout_call fun correlationId _ => ?_
  exact throughout_insertOutbox

/-- Every transaction is careful once what its event names is in the database. -/
theorem Transaction.script_careful {rt : Extractor.Runtime} {t : Transaction} {db : Db}
    (h : t.Settled db) : (t.script rt).Throughout engine (Careful db) db := by
  cases t with
  | createSubmission => exact createSubmissionScript_careful
  | process => exact processScript_careful h
  | complete => exact completeScript_careful h
  | reject => exact rejectScript_careful h

section
variable {c : Config} {w : World} {t : ℕ}

lemma fetch_settled (hk : Known w) (hr : Records w.db) {p : DocumentSubmitted}
    (ht : (w.fetching t).active=some p) (inspection : Option Fetcher.SourceInspection)
    (error : Option Fetcher.FetchValidationError) (draws : Draws) :
    (Transaction.process p inspection error draws).Settled w.db := by
  obtain ⟨e,he,-,hp⟩ := hk.fetching t p ht
  obtain ⟨d,hd,v,-,s,hs,-,hdescribes⟩ := hr.locate he
  obtain ⟨htenant,-,-⟩ := hdescribes.submission p hp
  have hdocument := hdescribes.document
  rw [hp] at hdocument
  intro tenantId hit documentId hid
  refine ⟨d,hd,?_,?_⟩
  · exact (ofText_eq (of_mem_toOption hit) htenant).symm
  · exact (ofText_eq (of_mem_toOption hid) hdocument).symm

lemma extract_settled (hk : Known w) (hr : Records w.db) {p : DocumentFetched}
    (ht : (w.extracting t).active=some p) : ∀ ids ∈ (Extractor.payloadIds p).toOption,
      (∃ d ∈ w.db.documents, d.tenantId=ids.tenantId ∧ d.id=ids.documentId) ∧
      ∃ v ∈ w.db.versions, v.tenantId=ids.tenantId ∧ v.id=ids.versionId := by
  obtain ⟨e,he,-,hp⟩ := hk.extracting t p ht
  obtain ⟨d,hd,v,hv,s,hs,-,hdescribes⟩ := hr.locate he
  obtain ⟨htenant,-,hversion,-⟩ := hdescribes.fetch p hp
  have hdocument := hdescribes.document
  rw [hp] at hdocument
  intro ids hids
  obtain ⟨tenantId,h₁,h⟩ := bind_eq_ok.mp (of_mem_toOption hids)
  obtain ⟨documentId,h₂,h⟩ := bind_eq_ok.mp h
  obtain ⟨versionId,h₃,h⟩ := bind_eq_ok.mp h
  obtain ⟨eventId,-,h⟩ := bind_eq_ok.mp h
  cases h
  have hit := ofText_eq h₁ htenant
  refine ⟨⟨d,hd,hit.symm,(ofText_eq h₂ hdocument).symm⟩,v,hv,?_,(ofText_eq h₃ hversion).symm⟩
  exact hs.tenant.trans hit.symm

/-- The statements of a transaction begun now are careful of the rows that are not committed. -/
abbrev Transaction.CarefulFrom (t : Transaction) (rt : Extractor.Runtime) (db : Db) : Prop :=
  (t.script rt).Throughout engine (Careful db) db

/-- Every transaction that a consumer is about to begin is careful. -/
structure Prepared (rt : Extractor.Runtime) (w : World) (draws : Draws) : Prop where
  fetch : ∀ t p inspection error, w.fetching t=.processing p inspection error →
    (Transaction.process p inspection error draws).CarefulFrom rt w.db
  complete : ∀ t p result normalizedUri manifestUri,
    w.extracting t=.completing p result normalizedUri manifestUri →
    (Transaction.complete p result normalizedUri manifestUri draws).CarefulFrom rt w.db
  reject : ∀ t p error, w.extracting t=.rejecting p error →
    (Transaction.reject p error draws).CarefulFrom rt w.db

/-- In runs on genuine messages, consumers begin careful transactions only. -/
theorem genuine_settled (h : (system c).Reach Genuine w) (draws : Draws) : Prepared c.rt w draws := by
  obtain ⟨hk,hr⟩ := records_reach h
  refine ⟨?_,?_,?_⟩
  · intro t p inspection error ht
    exact Transaction.script_careful (fetch_settled hk hr (by rw [ht]; rfl) inspection error draws)
  · intro t p result normalizedUri manifestUri ht
    refine Transaction.script_careful fun ids hids => ?_
    exact (extract_settled hk hr (by rw [ht]; rfl) ids hids).1
  · intro t p error ht
    exact Transaction.script_careful (extract_settled hk hr (by rw [ht]; rfl))

end

/-- The message of a fetch that is about to begin its transaction. -/
def beginning : Fetcher.Task → Option DocumentSubmitted
  | .processing p _ _ => some p
  | _ => none

lemma beginning_eq_some {task : Fetcher.Task} {p : DocumentSubmitted} (h : beginning task=some p) :
    ∃ inspection error, task=.processing p inspection error := by
  cases task with
  | processing _ inspection error => cases h; exact ⟨inspection,error,rfl⟩
  | _ => cases h

/-- The fetch of the small upload is about to begin its transaction. -/
theorem small_fetch_settled : ∃ w : World, (system plainConfig).Reach Genuine w ∧
    (∃ inspection error, w.fetching 0=.processing smallSubmitted inspection error) ∧
    Prepared plainConfig.rt w ⟨⟨6⟩,[],⟨7⟩,1,1,1⟩ := by
  have hrun : ((system plainConfig).runIf Genuine plainWorld ((smallRun (py "text")).take 12)).any
      (fun w => decide (beginning (w.fetching 0)=some smallSubmitted))=true := by decide +kernel
  obtain ⟨w,hrun,hbegins⟩ := (Option.any_eq_true _ _).mp hrun
  have hreach := System.Reach.runIf (.start plainWorld_initial) hrun
  exact ⟨w,hreach,beginning_eq_some (of_decide_eq_true hbegins),
    genuine_settled hreach ⟨⟨6⟩,[],⟨7⟩,1,1,1⟩⟩

end RagIngestion.Pipeline
