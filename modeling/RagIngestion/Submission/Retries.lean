import RagIngestion.Submission.Dangling

/-! Retried submissions while no service fails: of the requests that use one external id at most
one is answered 201, and a request that loses leaves nothing behind. -/
namespace RagIngestion.Submission
open RagIngestion.Python RagIngestion.Domain RagIngestion.Database RagIngestion.Storage
open RagIngestion.Library

/-- Keys are partitioned by tenant and document, whatever the filenames. -/
theorem sourceObjectKey_injective {t t' d d' : UUID} {filename filename' : PyStr}
    (h : sourceObjectKey t d filename=sourceObjectKey t' d' filename') : t=t' ∧ d=d' := by
  simp only [sourceObjectKey,List.append_assoc] at h
  obtain ⟨htenant,h⟩ := List.append_inj h (by rw [UUID.str_length,UUID.str_length])
  have h := List.append_cancel_left h
  obtain ⟨hdocument,-⟩ := List.append_inj h (by rw [UUID.str_length,UUID.str_length])
  exact ⟨UUID.str_injective htenant,UUID.str_injective hdocument⟩

/-- The draft of a request that has one. -/
def Phase.draft : Phase → Option Draft
  | .answered d _ => some d
  | phase => phase.live

/-- The draft of a request answered 201, and the id of its event. -/
def Phase.won : Phase → Option (Draft × UUID)
  | .answered d (.created _ _ eventId _) => some (d,eventId)
  | _ => none

/-- No row and no request uses the ids. -/
structure Unused (s : State) (documentId versionId : UUID) : Prop where
  documents : ∀ x ∈ s.db.documents, x.id≠documentId
  versions : ∀ v ∈ s.db.versions, v.documentId≠documentId ∧ v.id≠versionId
  outbox : ∀ x ∈ s.db.outbox, x.event.aggregateId≠documentId
  drafts : ∀ q d, (s.request q).draft=some d → d.documentId≠documentId ∧ d.versionId≠versionId

/-- No call of a service fails for a reason of its own, and drawn ids are new. -/
def Faultless (s : State) : Action → Prop
  | .receive _ _ documentId versionId => Unused s documentId versionId
  | .put _ fault => fault=.none
  | .persist _ _ _ _ _ fault => fault=.none
  | .delete _ fault => fault=.none
  | .abandon _ => True

/-- The draft has no row. -/
structure Rowless (db : Db) (d : Draft) : Prop where
  documents : ∀ x ∈ db.documents, x.id≠d.documentId
  versions : ∀ v ∈ db.versions, v.documentId≠d.documentId ∧ v.id≠d.versionId
  outbox : ∀ x ∈ db.outbox, x.event.aggregateId≠d.documentId

/-- The row announces the submission of the draft. -/
def announces (d : Draft) (x : OutboxRow) : Bool :=
  decide (x.event.eventType=py "DocumentSubmitted" ∧ x.event.tenantId=d.upload.tenantId ∧
    x.event.aggregateId=d.documentId)

/-- The draft has its document, and one row that announces it. -/
structure Recorded (db : Db) (d : Draft) (eventId : UUID) : Prop where
  document : ∃ x ∈ db.documents, x.tenantId=d.upload.tenantId ∧ x.sourceSystem=py "api" ∧
    x.sourceExternalId=d.externalId
  event : ∃ x, db.outbox.filter (announces d)=[x] ∧ x.event.eventId=eventId

section
variable (sha256 : Bytes → Digest) (bucket : BucketName) (maxUploadBytes : ℕ)

/-- The versions name objects of their own documents. -/
def Located (db : Db) : Prop :=
  ∀ v ∈ db.versions, ∃ filename,
    v.sourceObjectUri=objectUri bucket (sourceObjectKey v.tenantId v.documentId filename)

/-- Requests have different ids; those that are not answered 201 have no row, those that lost have
no object, and those that won have their rows and different external ids. -/
structure Fair (s : State) : Prop where
  located : Located bucket s.db
  distinct : ∀ r q d e, r≠q → (s.request r).draft=some d → (s.request q).draft=some e →
    d.documentId≠e.documentId ∧ d.versionId≠e.versionId
  rowless : ∀ r d, (s.request r).live=some d → Rowless s.db d
  losing : ∀ r d response, s.request r=.compensating d response → response=conflict
  answered : ∀ r d response, s.request r=.answered d response →
    (response=conflict ∧ Rowless s.db d ∧ s.source d.key=none) ∨
      ∃ eventId, (s.request r).won=some (d,eventId) ∧ Recorded s.db d eventId
  winners : ∀ r q d e i j, r≠q → (s.request r).won=some (d,i) → (s.request q).won=some (e,j) →
    ¬(d.upload.tenantId=e.upload.tenantId ∧ d.externalId=e.externalId)

/-- What each action does when no service fails. -/
inductive Clean (s : State) : Action → State → Prop
  | refuse {r upload documentId versionId response} (h : s.request r=.waiting) :
      Clean s (.receive r upload documentId versionId) (s.setRequest r (.refused response))
  | receive {r upload documentId versionId content} (h : s.request r=.waiting) :
      Clean s (.receive r upload documentId versionId)
        (s.setRequest r (.uploading ⟨upload,content,documentId,versionId⟩))
  | put {r d} (h : s.request r=.uploading d) :
      Clean s (.put r .none) ((s.setObject d.key (some (d.object sha256))).setRequest r (.persisting d))
  | conflict {r d eventId occurredAt outboxId now} (h : s.request r=.persisting d) :
      Clean s (.persist r eventId occurredAt outboxId now .none)
        (s.setRequest r (.compensating d conflict))
  | persist {r d eventId occurredAt outboxId now db} (h : s.request r=.persisting d)
      (hdb : d.submission sha256 bucket eventId occurredAt outboxId now s.db=.ok db) :
      Clean s (.persist r eventId occurredAt outboxId now .none)
        ({ s with db := db }.setRequest r (.answered d
          (.created d.documentId d.versionId eventId (objectUri bucket d.key))))
  | delete {r d response} (h : s.request r=.compensating d response) :
      Clean s (.delete r .none) ((s.setObject d.key none).setRequest r (.answered d response))
  | abandon {r} : Clean s (.abandon r) (s.setRequest r .abandoned)

variable {sha256 bucket maxUploadBytes}

/-- The only error of the transaction is a violated constraint. -/
theorem Draft.submission_eq_error {d : Draft} {eventId : UUID} {occurredAt : PyStr} {outboxId : UUID}
    {now : Time} {db : Db} {e : PyError}
    (h : d.submission sha256 bucket eventId occurredAt outboxId now db=.error e) :
    e=.integrityError := by
  obtain h | ⟨db₁,-,h⟩ := bind_eq_error.mp h
  · exact eq_of_ite_eq_error h
  · obtain h | ⟨db₂,-,h⟩ := bind_eq_error.mp h
    · exact eq_of_ite_eq_error h
    · exact eq_of_ite_eq_error h

theorem clean_of_step {s t : State} {a : Action} (ok : Faultless s a)
    (h : step sha256 bucket maxUploadBytes s a=some t) : Clean sha256 bucket s a t := by
  cases a with
  | receive r upload documentId versionId =>
    simp only [step] at h
    split at h
    · rename_i hr
      split at h
      · cases h; exact .refuse hr
      · split at h
        · cases h; exact .refuse hr
        · cases h; exact .receive hr
    · cases h
  | put r fault =>
    cases ok
    simp only [step] at h
    split at h
    · cases h; exact .put ‹_›
    · cases h
  | persist r eventId occurredAt outboxId now fault =>
    cases ok
    simp only [step] at h
    split at h
    · rename_i d hr
      cases hdb : d.submission sha256 bucket eventId occurredAt outboxId now s.db with
      | error e =>
        cases Draft.submission_eq_error hdb
        rw [hdb] at h
        cases h
        exact .conflict hr
      | ok db =>
        rw [hdb] at h
        cases h
        exact .persist hr hdb
    · cases h
  | delete r fault =>
    cases ok
    simp only [step] at h
    split at h
    · cases h; exact .delete ‹_›
    · cases h
  | abandon r => cases h; exact .abandon

/-- The transaction of a draft whose external id the tenant already uses does not commit. -/
theorem Draft.submission_external {d : Draft} {eventId : UUID} {occurredAt : PyStr} {outboxId : UUID}
    {now : Time} {db after : Db}
    (h : d.submission sha256 bucket eventId occurredAt outboxId now db=.ok after) :
    ∀ x ∈ db.documents, ¬(x.tenantId=d.upload.tenantId ∧ x.sourceSystem=py "api" ∧
      x.sourceExternalId=d.externalId) := by
  obtain ⟨db₁,h₁,-⟩ := bind_eq_ok.mp h
  exact fun x hx => ((Db.insertDocument_eq_ok h₁).1.2 x hx).2

lemma Phase.draft_of_live {phase : Phase} {d : Draft} (h : phase.live=some d) :
    phase.draft=some d := by
  cases phase with
  | answered => cases h
  | _ => exact h

lemma Phase.draft_of_won {phase : Phase} {d : Draft} {i : UUID} (h : phase.won=some (d,i)) :
    phase.draft=some d := by
  unfold Phase.won at h
  split at h
  · cases h; rfl
  · cases h

/-- One request moves on over the same objects and tables. -/
theorem Fair.setRequest {s : State} (h : Fair bucket s) {r : ℕ} {x : Phase}
    (hdraft : ∀ d, x.draft=some d → ∀ q e, q≠r → (s.request q).draft=some e →
      e.documentId≠d.documentId ∧ e.versionId≠d.versionId)
    (hlive : ∀ d, x.live=some d → Rowless s.db d)
    (hlosing : ∀ d response, x=.compensating d response → response=conflict)
    (hanswered : ∀ d response, x=.answered d response →
      (response=conflict ∧ Rowless s.db d ∧ s.source d.key=none) ∨
        ∃ eventId, x.won=some (d,eventId) ∧ Recorded s.db d eventId)
    (hwon : ∀ d i, x.won=some (d,i) → ∀ q e j, q≠r → (s.request q).won=some (e,j) →
      ¬(e.upload.tenantId=d.upload.tenantId ∧ e.externalId=d.externalId)) :
    Fair bucket (s.setRequest r x) := by
  have hself : (s.setRequest r x).request r=x := State.setRequest_request s r x
  have hother : ∀ q, q≠r → (s.setRequest r x).request q=s.request q := fun q hq => by
    simp [State.setRequest,hq]
  refine ⟨h.located,?_,?_,?_,?_,?_⟩
  · intro p q d e hpq hd he
    by_cases hp : p=r
    · have hq : q≠r := fun hq => hpq (hp.trans hq.symm)
      rw [hp,hself] at hd
      rw [hother q hq] at he
      exact ⟨(hdraft d hd q e hq he).1.symm,(hdraft d hd q e hq he).2.symm⟩
    · rw [hother p hp] at hd
      by_cases hq : q=r
      · rw [hq,hself] at he
        exact hdraft e he p d hp hd
      · rw [hother q hq] at he
        exact h.distinct p q d e hpq hd he
  · intro q d hd
    by_cases hq : q=r
    · rw [hq,hself] at hd
      exact hlive d hd
    · rw [hother q hq] at hd
      exact h.rowless q d hd
  · intro q d response hd
    by_cases hq : q=r
    · rw [hq,hself] at hd
      exact hlosing d response hd
    · rw [hother q hq] at hd
      exact h.losing q d response hd
  · intro q d response hd
    by_cases hq : q=r
    · rw [hq,hself] at hd ⊢
      exact hanswered d response hd
    · rw [hother q hq] at hd ⊢
      exact h.answered q d response hd
  · intro p q d e i j hpq hd he
    by_cases hp : p=r
    · have hq : q≠r := fun hq => hpq (hp.trans hq.symm)
      rw [hp,hself] at hd
      rw [hother q hq] at he
      exact fun heq => hwon d i hd q e j hq he ⟨heq.1.symm,heq.2.symm⟩
    · rw [hother p hp] at hd
      by_cases hq : q=r
      · rw [hq,hself] at he
        exact hwon e j he p d i hp hd
      · rw [hother q hq] at he
        exact h.winners p q d e i j hpq hd he

/-- A request without a draft from now on. -/
theorem Fair.finish {s : State} (h : Fair bucket s) {r : ℕ} {x : Phase} (hx : x.draft=none) :
    Fair bucket (s.setRequest r x) := by
  refine h.setRequest ?_ ?_ ?_ ?_ ?_
  · intro d hd
    rw [hx] at hd
    cases hd
  · intro d hd
    rw [Phase.draft_of_live hd] at hx
    cases hx
  · rintro d response rfl
    cases hx
  · rintro d response rfl
    cases hx
  · intro d i hd
    rw [Phase.draft_of_won hd] at hx
    cases hx

/-- A request goes on with its draft. -/
theorem Fair.goOn {s : State} (h : Fair bucket s) {r : ℕ} {x : Phase} {d : Draft}
    (hr : (s.request r).live=some d) (hx : x.live=some d)
    (hlosing : ∀ response, x=.compensating d response → response=conflict) :
    Fair bucket (s.setRequest r x) := by
  refine h.setRequest ?_ ?_ ?_ ?_ ?_
  · intro e he q f hq hf
    rw [Phase.draft_of_live hx] at he
    cases he
    exact h.distinct q r f d hq hf (Phase.draft_of_live hr)
  · intro e he
    rw [hx] at he
    cases he
    exact h.rowless r d hr
  · rintro e response rfl
    cases hx
    exact hlosing response rfl
  · rintro e response rfl
    cases hx
  · intro e i he
    unfold Phase.won at he
    split at he
    · cases hx
    · cases he

/-- A live request stores or deletes its object: no finished request has the same key. -/
theorem Fair.setObject {s : State} (h : Fair bucket s) {r : ℕ} {d : Draft} {o : Option StoredObject}
    (hr : (s.request r).live=some d) : Fair bucket (s.setObject d.key o) := by
  refine ⟨h.located,h.distinct,h.rowless,h.losing,?_,h.winners⟩
  intro q e response hq
  have hq : s.request q=.answered e response := hq
  refine (h.answered q e response hq).imp ?_ id
  rintro ⟨hresponse,hrows,hgone⟩
  refine ⟨hresponse,hrows,?_⟩
  have hqr : q≠r := by
    rintro rfl
    rw [hq] at hr
    cases hr
  have hne : e.key≠d.key := by
    intro hkey
    have hids := h.distinct q r e d hqr (by rw [hq]; rfl) (Phase.draft_of_live hr)
    exact hids.1 (sourceObjectKey_injective hkey).2
  simpa [State.setObject,hne] using hgone

/-- The rows of a committed submission are not rows of a draft with other ids. -/
theorem Rowless.commit {db after : Db} {d e : Draft} {eventId : UUID} {occurredAt : PyStr}
    {outboxId : UUID} {now : Time} (h : Rowless db e)
    (hdb : d.submission sha256 bucket eventId occurredAt outboxId now db=.ok after)
    (hne : e.documentId≠d.documentId ∧ e.versionId≠d.versionId) : Rowless after e := by
  obtain ⟨-,rfl⟩ := Draft.submission_eq_ok sha256 bucket hdb
  refine ⟨?_,?_,?_⟩
  · intro x hx
    cases List.mem_append.mp hx with
    | inl hx => exact h.documents x hx
    | inr hx => rw [List.mem_singleton.mp hx]; exact hne.1.symm
  · intro v hv
    cases List.mem_append.mp hv with
    | inl hv => exact h.versions v hv
    | inr hv =>
      rw [List.mem_singleton.mp hv]
      simp only [Draft.version,newVersion]
      exact ⟨hne.1.symm,hne.2.symm⟩
  · intro x hx
    cases List.mem_append.mp hx with
    | inl hx => exact h.outbox x hx
    | inr hx => rw [List.mem_singleton.mp hx]; exact hne.1.symm

theorem Recorded.commit {db after : Db} {d e : Draft} {eventId : UUID} {occurredAt : PyStr}
    {outboxId : UUID} {now : Time} {i : UUID} (h : Recorded db e i)
    (hdb : d.submission sha256 bucket eventId occurredAt outboxId now db=.ok after)
    (hne : e.documentId≠d.documentId) : Recorded after e i := by
  obtain ⟨-,rfl⟩ := Draft.submission_eq_ok sha256 bucket hdb
  obtain ⟨x,hx,hids⟩ := h.document
  obtain ⟨row,hrow,hi⟩ := h.event
  refine ⟨⟨x,List.mem_append_left _ hx,hids⟩,row,?_,hi⟩
  have hnot : announces e (.inserted outboxId (d.event bucket eventId occurredAt) now)=false := by
    apply decide_eq_false
    rintro ⟨-,-,haggregate⟩
    exact hne haggregate.symm
  rw [List.filter_append,hrow,List.filter_cons,if_neg (by simp [hnot])]
  rfl

theorem recorded_of_commit {db after : Db} {d : Draft} {eventId : UUID} {occurredAt : PyStr}
    {outboxId : UUID} {now : Time} (h : Rowless db d)
    (hdb : d.submission sha256 bucket eventId occurredAt outboxId now db=.ok after) :
    Recorded after d eventId := by
  obtain ⟨-,rfl⟩ := Draft.submission_eq_ok sha256 bucket hdb
  refine ⟨⟨d.document now,List.mem_append_right _ (List.mem_singleton_self _),rfl,rfl,rfl⟩,
    .inserted outboxId (d.event bucket eventId occurredAt) now,?_,rfl⟩
  have hold : db.outbox.filter (announces d)=[] := by
    apply List.filter_eq_nil_iff.mpr
    intro x hx hann
    exact h.outbox x hx (of_decide_eq_true hann).2.2
  have hnew : announces d (.inserted outboxId (d.event bucket eventId occurredAt) now)=true :=
    decide_eq_true ⟨rfl,rfl,rfl⟩
  rw [List.filter_append,hold,List.filter_cons,if_pos hnew]
  rfl

/-- A committed submission of a request whose ids no other request has. -/
theorem Fair.commit {s : State} (h : Fair bucket s) {d : Draft} {eventId : UUID}
    {occurredAt : PyStr} {outboxId : UUID} {now : Time} {db : Db}
    (hdb : d.submission sha256 bucket eventId occurredAt outboxId now s.db=.ok db)
    (hne : ∀ q e, (s.request q).draft=some e → e.documentId≠d.documentId ∧ e.versionId≠d.versionId) :
    Fair bucket { s with db := db } := by
  refine ⟨?_,h.distinct,?_,h.losing,?_,h.winners⟩
  · obtain ⟨-,rfl⟩ := Draft.submission_eq_ok sha256 bucket hdb
    intro v hv
    cases List.mem_append.mp hv with
    | inl hv => exact h.located v hv
    | inr hv =>
      rw [List.mem_singleton.mp hv]
      refine ⟨d.upload.filename,?_⟩
      simp only [Draft.version,newVersion,Draft.key]
  · intro q e he
    exact (h.rowless q e he).commit hdb (hne q e (Phase.draft_of_live he))
  · intro q e response hq
    have hq : s.request q=.answered e response := hq
    have hids := hne q e (by rw [hq]; rfl)
    obtain ⟨hresponse,hrows,hgone⟩ | ⟨i,hwon,hrecorded⟩ := h.answered q e response hq
    · exact .inl ⟨hresponse,hrows.commit hdb hids,hgone⟩
    · exact .inr ⟨i,hwon,hrecorded.commit hdb hids.1⟩

/-- The request whose submission is committed. -/
theorem Fair.persist {s : State} (h : Fair bucket s) {r : ℕ} {d : Draft} {eventId : UUID}
    {occurredAt : PyStr} {outboxId : UUID} {now : Time} {db : Db} {uri : PyStr}
    (hr : s.request r=.persisting d)
    (hdb : d.submission sha256 bucket eventId occurredAt outboxId now s.db=.ok db) :
    Fair bucket ({ s with db := db }.setRequest r
      (.answered d (.created d.documentId d.versionId eventId uri))) := by
  have hlive : (s.request r).live=some d := by rw [hr]; rfl
  have hne : ∀ q e, q≠r → (s.request q).draft=some e →
      e.documentId≠d.documentId ∧ e.versionId≠d.versionId :=
    fun q e hq he => h.distinct q r e d hq he (Phase.draft_of_live hlive)
  have hback : ∀ q, q≠r → (s.setRequest r .abandoned).request q=s.request q :=
    fun q hq => by simp [State.setRequest,hq]
  -- the request is left out while the tables change
  have hout : Fair bucket { s.setRequest r .abandoned with db := db } := by
    refine Fair.commit (h.finish rfl) hdb ?_
    intro q e he
    by_cases hq : q=r
    · subst hq
      simp [State.setRequest,Phase.draft,Phase.live] at he
    · rw [hback q hq] at he
      exact hne q e hq he
  have hstate : { s with db := db }.setRequest r
      (.answered d (.created d.documentId d.versionId eventId uri))=
      ({ s.setRequest r .abandoned with db := db } : State).setRequest r
        (.answered d (.created d.documentId d.versionId eventId uri)) := by
    simp [State.setRequest]
  rw [hstate]
  refine hout.setRequest ?_ ?_ ?_ ?_ ?_
  · intro e he q f hq hf
    cases he
    exact hne q f hq (hback q hq ▸ hf)
  · intro e he
    cases he
  · intro e response he
    cases he
  · intro e response he
    cases he
    exact .inr ⟨eventId,rfl,recorded_of_commit (h.rowless r d hlive) hdb⟩
  · intro e i he q f j hq hf heq
    cases he
    have hf : (s.request q).won=some (f,j) := hback q hq ▸ hf
    -- the winner's document is in the table, so the constraint would have raised
    have hrecorded : ∃ x ∈ s.db.documents, x.tenantId=f.upload.tenantId ∧ x.sourceSystem=py "api" ∧
        x.sourceExternalId=f.externalId := by
      unfold Phase.won at hf
      split at hf
      · rename_i g _ _ i _ hq
        cases hf
        obtain ⟨hconflict,-,-⟩ | ⟨_,-,hrecorded⟩ := h.answered q _ _ hq
        · cases hconflict
        · exact hrecorded.document
      · cases hf
    obtain ⟨x,hx,ht,hs,he⟩ := hrecorded
    exact Draft.submission_external hdb x hx ⟨ht.trans heq.1,hs,he.trans heq.2⟩

/-- A request whose drawn ids nobody uses. -/
theorem Fair.receive {s : State} (h : Fair bucket s) {r : ℕ} {d : Draft}
    (hunused : Unused s d.documentId d.versionId) : Fair bucket (s.setRequest r (.uploading d)) := by
  refine h.setRequest ?_ ?_ (fun e response he => nomatch he) (fun e response he => nomatch he)
    (fun e i he => nomatch he)
  · intro e he q f _ hf
    cases he
    exact hunused.drafts q f hf
  · intro e he
    cases he
    exact ⟨hunused.documents,hunused.versions,hunused.outbox⟩

theorem fair_step {s t : State} {a : Action} (h : Fair bucket s) (ok : Faultless s a)
    (ha : step sha256 bucket maxUploadBytes s a=some t) : Fair bucket t := by
  cases clean_of_step ok ha with
  | refuse hr => exact h.finish rfl
  | receive hr => exact h.receive ok
  | put hr =>
    rename_i r d
    have hlive : (s.request r).live=some d := by rw [hr]; rfl
    exact (h.setObject hlive).goOn (r := r) hlive rfl (fun response he => nomatch he)
  | conflict hr =>
    rename_i r d _ _ _ _
    have hlive : (s.request r).live=some d := by rw [hr]; rfl
    refine h.goOn hlive rfl ?_
    intro response he
    cases he
    rfl
  | persist hr hdb => exact h.persist hr hdb
  | delete hr =>
    rename_i r d response
    have hlive : (s.request r).live=some d := by rw [hr]; rfl
    have hconflict := h.losing r d response hr
    subst hconflict
    refine (h.setObject hlive).setRequest ?_ (fun e he => nomatch he)
      (fun e response he => nomatch he) ?_ (fun e i he => nomatch he)
    · intro e he q f hq hf
      cases he
      exact h.distinct q r f d hq hf (Phase.draft_of_live hlive)
    · intro e response he
      cases he
      exact .inl ⟨rfl,h.rowless r d hlive,by simp [State.setObject]⟩
  | abandon => exact h.finish rfl

theorem fair_initial {s : State} (h : Initial s) : Fair bucket s := by
  refine ⟨?_,?_,?_,?_,?_,?_⟩
  · intro v hv
    simp [h.1] at hv
  · intro r q d e _ hd
    simp [h.2 r,Phase.draft,Phase.live] at hd
  · intro r d hd
    simp [h.2 r,Phase.live] at hd
  · intro r d response hd
    simp [h.2 r] at hd
  · intro r d response hd
    simp [h.2 r] at hd
  · intro r q d e i j _ hd
    simp [h.2 r,Phase.won] at hd

theorem fair_reach {s : State} (h : (system sha256 bucket maxUploadBytes).Reach Faultless s) :
    Fair bucket s :=
  h.invariant (fun _ => fair_initial) (fun _ _ _ hs ok ha => fair_step hs ok ha)

/-- The object of a losing request is not one that a committed version names. -/
theorem Fair.unreferenced {s : State} (h : Fair bucket s) {r : ℕ} {d : Draft}
    (hr : (s.request r).live=some d) : Unreferenced bucket s d.key := by
  intro v hv huri
  obtain ⟨filename,hlocated⟩ := h.located v hv
  have hkey := objectUri_injective bucket (hlocated.symm.trans huri)
  exact ((h.rowless r d hr).versions v hv).1 (sourceObjectKey_injective hkey).2

/-- A delete leaves the objects that committed versions name. -/
theorem Fair.delete_spares {s t : State} (h : Fair bucket s) {r : ℕ} {fault : Fault}
    (ha : step sha256 bucket maxUploadBytes s (.delete r fault)=some t) {v : DocumentVersion}
    (hv : v ∈ s.db.versions) {key : PyStr} (huri : v.sourceObjectUri=objectUri bucket key) :
    t.source key=s.source key := by
  cases transition_of_step sha256 bucket maxUploadBytes ha with
  | deleteFails => rfl
  | delete hr =>
    rename_i d response answer _
    have hlive : (s.request r).live=some d := by rw [hr]; rfl
    have hne : key≠d.key := fun hkey => h.unreferenced hlive v hv (hkey ▸ huri)
    simp [State.setRequest,State.setObject,hne]

/-- While no service fails: the requests of a tenant with one external id have at most one 201
among them; a request answered 201 has exactly one outbox row; every other answered request was
answered 409 and has no row and no object; and no delete takes the object of a version. -/
theorem retries_are_safe {s : State}
    (h : (system sha256 bucket maxUploadBytes).Reach Faultless s) :
    (∀ r q d e i j, (s.request r).won=some (d,i) → (s.request q).won=some (e,j) →
        d.upload.tenantId=e.upload.tenantId → ∀ x, x≠[] → d.upload.sourceExternalId=some x →
        e.upload.sourceExternalId=some x → r=q) ∧
      (∀ r d i, (s.request r).won=some (d,i) →
        ∃ x, s.db.outbox.filter (announces d)=[x] ∧ x.event.eventId=i) ∧
      (∀ r d response, s.request r=.answered d response → (s.request r).won=none →
        response=conflict ∧ Rowless s.db d ∧ s.source d.key=none) ∧
      ∀ r fault t, (system sha256 bucket maxUploadBytes).step s (.delete r fault)=some t →
        ∀ v ∈ s.db.versions, ∀ key, v.sourceObjectUri=objectUri bucket key →
          t.source key=s.source key := by
  have hs := fair_reach h
  refine ⟨?_,?_,?_,?_⟩
  · intro r q d e i j hd he htenant x hx hdx hex
    by_contra hne
    refine hs.winners r q d e i j hne hd he ⟨htenant,?_⟩
    simp only [Draft.externalId,hdx,hex,orDefault,if_neg hx]
  · intro r d i hd
    unfold Phase.won at hd
    split at hd
    · rename_i hr
      cases hd
      obtain ⟨hconflict,-,-⟩ | ⟨j,hj,hrecorded⟩ := hs.answered r _ _ hr
      · cases hconflict
      · rw [hr] at hj
        cases hj
        exact hrecorded.event
    · cases hd
  · intro r d response hr hnone
    obtain hlost | ⟨j,hj,-⟩ := hs.answered r d response hr
    · exact hlost
    · rw [hnone] at hj
      cases hj
  · intro r fault t ha v hv key huri
    have ha : step sha256 bucket maxUploadBytes s (.delete r fault)=some t := ha
    exact hs.delete_spares ha hv huri

end

/-- An upload a client repeats under the same external id. -/
def retriedUpload : Upload :=
  ⟨⟨1⟩,py "a.pdf",none,py "internal",some (py "report"),none,[plainSource]⟩

lemma unused_nothingSubmitted (documentId versionId : UUID) :
    Unused nothingSubmitted documentId versionId :=
  ⟨by simp [nothingSubmitted,Db.empty],by simp [nothingSubmitted,Db.empty],
    by simp [nothingSubmitted,Db.empty],by simp [nothingSubmitted,Phase.draft,Phase.live]⟩

/-- Two concurrent requests: the first commits, the second loses and cleans up. -/
theorem second_request_conflicts :
    ∃ s, (system plainSha256 minioSourceBucket 1048576).Reach Faultless s ∧
      (∃ d i, (s.request 0).won=some (d,i)) ∧
      ∃ d, s.request 1=.answered d conflict ∧ Rowless s.db d ∧ s.source d.key=none := by
  let S := system plainSha256 minioSourceBucket 1048576
  let first := nothingSubmitted.setRequest 0 (.uploading ⟨retriedUpload,plainSource,⟨2⟩,⟨3⟩⟩)
  let both := first.setRequest 1 (.uploading ⟨retriedUpload,plainSource,⟨12⟩,⟨13⟩⟩)
  have hfirst : S.Reach Faultless first :=
    .next (.start nothingSubmitted_initial) (show Faultless nothingSubmitted
      (.receive 0 retriedUpload ⟨2⟩ ⟨3⟩) from unused_nothingSubmitted _ _) rfl
  have hunused : Unused first ⟨12⟩ ⟨13⟩ := by
    have h := unused_nothingSubmitted ⟨12⟩ ⟨13⟩
    refine ⟨h.documents,h.versions,h.outbox,?_⟩
    intro q d hd
    by_cases hq : q=0
    · subst hq
      cases hd
      decide
    · refine h.drafts q d ?_
      simpa [first,State.setRequest,hq] using hd
  have hboth : S.Reach Faultless both :=
    .next hfirst (show Faultless first (.receive 1 retriedUpload ⟨12⟩ ⟨13⟩) from hunused) rfl
  have hrun : (S.run both [.put 1 .none,.put 0 .none,.persist 0 ⟨4⟩ [] ⟨5⟩ 0 .none,
      .persist 1 ⟨14⟩ [] ⟨15⟩ 0 .none,.delete 1 .none]).any (fun s =>
        (s.request 0).won.isSome && (s.request 1).won.isNone && (s.request 1).live.isNone &&
        (s.request 1).draft.isSome)=true := by decide +kernel
  obtain ⟨s,hrun,hs⟩ := (Option.any_eq_true _ _).mp hrun
  simp only [Bool.and_eq_true,Option.isNone_iff_eq_none] at hs
  obtain ⟨⟨⟨hwon,hlost⟩,hlive⟩,hdraft⟩ := hs
  have hreach : S.Reach Faultless s := hboth.run (by simp [Faultless]) hrun
  obtain ⟨⟨d,i⟩,hwon⟩ := Option.isSome_iff_exists.mp hwon
  refine ⟨s,hreach,⟨d,i,hwon⟩,?_⟩
  have hanswers := (retries_are_safe hreach).2.2.1
  cases hr : s.request 1 with
  | answered e response =>
    obtain ⟨rfl,hrows,hgone⟩ := hanswers 1 e response hr hlost
    exact ⟨e,rfl,hrows,hgone⟩
  | waiting => simp [hr,Phase.draft,Phase.live] at hdraft
  | refused => simp [hr,Phase.draft,Phase.live] at hdraft
  | abandoned => simp [hr,Phase.draft,Phase.live] at hdraft
  | _ => simp [hr,Phase.live] at hlive

end RagIngestion.Submission
