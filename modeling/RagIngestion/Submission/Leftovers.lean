import RagIngestion.Submission.Retries

/-! What a request that ends in an error leaves behind while deletes succeed: its object after an
upload that raised late, its rows after a commit that raised late, and nothing otherwise. -/
namespace RagIngestion.Submission
open RagIngestion.Python RagIngestion.Domain RagIngestion.Database RagIngestion.Storage
open RagIngestion.Library

/-- The request an action belongs to. -/
def Action.request : Action → ℕ
  | .receive r _ _ _ => r
  | .put r _ => r
  | .persist r _ _ _ _ _ => r
  | .delete r _ => r
  | .abandon r => r

/-- No row of the draft and no object under its key. -/
structure LeavesNothing (s : State) (d : Draft) : Prop where
  rows : Rowless s.db d
  object : s.source d.key=none

/-- The drawn UUIDs are new, with the key they give, and a delete does not fail. -/
def Fresh (s : State) : Action → Prop
  | .receive _ upload documentId versionId => Unused s documentId versionId ∧
      s.source (sourceObjectKey upload.tenantId documentId upload.filename)=none
  | .delete _ fault => fault=.none
  | _ => True

section
variable (sha256 : Bytes → Digest) (bucket : BucketName) (maxUploadBytes : ℕ)

/-- Requests over any database and any source store. -/
def serving : System State Action := ⟨fun s => ∀ r, s.request r=.waiting,step sha256 bucket maxUploadBytes⟩

/-- The upload of the request stored its object and raised. -/
def LostPut (past : List (State × Action)) (r : ℕ) : Prop := ∃ x ∈ past, x.2=.put r .after

/-- In this step the transaction of the request committed and raised. -/
def LosesCommit (r : ℕ) (s : State) (a : Action) : Prop :=
  ∃ d eventId occurredAt outboxId now db, s.request r=.persisting d ∧
    a=.persist r eventId occurredAt outboxId now .after ∧
    d.submission sha256 bucket eventId occurredAt outboxId now s.db=.ok db

def LostCommit (past : List (State × Action)) (r : ℕ) : Prop :=
  ∃ x ∈ past, LosesCommit sha256 bucket r x.1 x.2

/-- The request has called neither the store nor the database. -/
def Untouched (past : List (State × Action)) (r : ℕ) : Prop :=
  ∀ x ∈ past, x.2.request=r → ∃ upload documentId versionId, x.2=.receive r upload documentId versionId

/-- What the stores hold of a request, by where it stands and what it has lost. -/
inductive Tracked (past : List (State × Action)) (s : State) (r : ℕ) : Phase → Prop
  | waiting (h : Untouched past r) : Tracked past s r .waiting
  | refused {response} (h : Untouched past r) : Tracked past s r (.refused response)
  | uploading {d} (h : Untouched past r) (hnothing : LeavesNothing s d) :
      Tracked past s r (.uploading d)
  | persisting {d} (hput : ¬LostPut past r) (hcommit : ¬LostCommit sha256 bucket past r)
      (hrows : Rowless s.db d) : Tracked past s r (.persisting d)
  | compensating {d response} (hput : ¬LostPut past r)
      (hrows : Rowless s.db d ↔ ¬LostCommit sha256 bucket past r) :
      Tracked past s r (.compensating d response)
  | failed {d status detail} (hobject : s.source d.key=none ↔ ¬LostPut past r)
      (hrows : Rowless s.db d ↔ ¬LostCommit sha256 bucket past r) :
      Tracked past s r (.answered d (.error status detail))
  | created {d documentId versionId eventId uri} :
      Tracked past s r (.answered d (.created documentId versionId eventId uri))
  | abandoned : Tracked past s r .abandoned

/-- Requests have different ids. -/
def Distinct (s : State) : Prop :=
  ∀ r q d e, r≠q → (s.request r).draft=some d → (s.request q).draft=some e →
    d.documentId≠e.documentId ∧ d.versionId≠e.versionId

variable {sha256 bucket maxUploadBytes}

lemma lostPut_snoc {past : List (State × Action)} {s : State} {a : Action} {r : ℕ} :
    LostPut (past ++ [(s,a)]) r ↔ LostPut past r ∨ a=.put r .after := by
  simp [LostPut,List.mem_append,or_and_right,exists_or]

lemma lostCommit_snoc {past : List (State × Action)} {s : State} {a : Action} {r : ℕ} :
    LostCommit sha256 bucket (past ++ [(s,a)]) r ↔
      LostCommit sha256 bucket past r ∨ LosesCommit sha256 bucket r s a := by
  simp [LostCommit,List.mem_append,or_and_right,exists_or]

lemma Untouched.lost {past : List (State × Action)} {r : ℕ} (h : Untouched past r) :
    ¬LostPut past r ∧ ¬LostCommit sha256 bucket past r := by
  constructor
  · rintro ⟨x,hx,ha⟩
    obtain ⟨upload,documentId,versionId,hreceive⟩ := h x hx (by rw [ha]; rfl)
    rw [ha] at hreceive
    cases hreceive
  · rintro ⟨x,hx,d,eventId,occurredAt,outboxId,now,db,-,ha,-⟩
    obtain ⟨upload,documentId,versionId,hreceive⟩ := h x hx (by rw [ha]; rfl)
    rw [ha] at hreceive
    cases hreceive

/-- The rows of a committed submission are rows of a draft only if they have its ids. -/
lemma Rowless.commit_iff {db after : Db} {d e : Draft} {eventId : UUID} {occurredAt : PyStr}
    {outboxId : UUID} {now : Time}
    (hdb : d.submission sha256 bucket eventId occurredAt outboxId now db=.ok after)
    (hne : e.documentId≠d.documentId ∧ e.versionId≠d.versionId) : Rowless after e ↔ Rowless db e := by
  refine ⟨fun h => ?_,fun h => h.commit hdb hne⟩
  obtain ⟨-,rfl⟩ := Draft.submission_eq_ok sha256 bucket hdb
  exact ⟨fun x hx => h.documents x (List.mem_append_left _ hx),
    fun v hv => h.versions v (List.mem_append_left _ hv),fun x hx => h.outbox x (List.mem_append_left _ hx)⟩

/-- A committed submission leaves rows of its draft. -/
lemma not_rowless_of_commit {db after : Db} {d : Draft} {eventId : UUID} {occurredAt : PyStr}
    {outboxId : UUID} {now : Time}
    (hdb : d.submission sha256 bucket eventId occurredAt outboxId now db=.ok after) : ¬Rowless after d := by
  obtain ⟨-,rfl⟩ := Draft.submission_eq_ok sha256 bucket hdb
  intro h
  exact h.documents (d.document now) (List.mem_append_right _ (List.mem_singleton_self _)) rfl

/-- Where a request stands after a step, and what the stores then hold of its draft, as far as the
step is one of another request. -/
theorem Transition.others {s t : State} {a : Action} {r : ℕ}
    (h : Transition sha256 bucket maxUploadBytes s a t) (hs : Distinct s) (hr : a.request≠r) :
    t.request r=s.request r ∧ ∀ d, (s.request r).draft=some d →
      (Rowless t.db d ↔ Rowless s.db d) ∧ t.source d.key=s.source d.key := by
  have hkeep : ∀ {u : State} {q : ℕ} {x : Phase}, u.request=s.request → q≠r →
      (u.setRequest q x).request r=s.request r := by
    intro u q x hu hq
    simp [State.setRequest,hu,hq.symm]
  have hids : ∀ {q : ℕ} {d e : Draft}, q≠r → (s.request q).draft=some e → (s.request r).draft=some d →
      d.documentId≠e.documentId ∧ d.versionId≠e.versionId :=
    fun hq he hd => hs _ _ _ _ hq.symm hd he
  have hobject : ∀ {q : ℕ} {e : Draft} {o : Option StoredObject} {x : Phase}, q≠r →
      (s.request q).draft=some e → ∀ d, (s.request r).draft=some d →
        ((s.setObject e.key o).setRequest q x).source d.key=s.source d.key := by
    intro q e o x hq he d hd
    have hne : d.key≠e.key := by
      intro hkey
      exact (hids hq he hd).1 (sourceObjectKey_injective hkey).2
    simp [State.setRequest,State.setObject,hne]
  cases h with
  | refuse | receive | putFails | persistFails | deleteFails | abandon =>
    exact ⟨hkeep rfl hr,fun d hd => ⟨Iff.rfl,rfl⟩⟩
  | putLost h => exact ⟨hkeep rfl hr,fun d hd => ⟨Iff.rfl,hobject hr (congrArg Phase.draft h) d hd⟩⟩
  | put h => exact ⟨hkeep rfl hr,fun d hd => ⟨Iff.rfl,hobject hr (congrArg Phase.draft h) d hd⟩⟩
  | delete h => exact ⟨hkeep rfl hr,fun d hd => ⟨Iff.rfl,hobject hr (congrArg Phase.draft h) d hd⟩⟩
  | persistLost h hdb =>
    exact ⟨hkeep rfl hr,fun d hd => ⟨Rowless.commit_iff hdb (hids hr (congrArg Phase.draft h) hd),rfl⟩⟩
  | persist h hdb =>
    exact ⟨hkeep rfl hr,fun d hd => ⟨Rowless.commit_iff hdb (hids hr (congrArg Phase.draft h) hd),rfl⟩⟩

/-- What a step of another request leaves as it was. -/
lemma Tracked.others {past : List (State × Action)} {s t : State} {a : Action} {r : ℕ} {x : Phase}
    (h : Tracked sha256 bucket past s r x) (hr : a.request≠r) (hstores : ∀ d, x.draft=some d →
      (Rowless t.db d ↔ Rowless s.db d) ∧ t.source d.key=s.source d.key) :
    Tracked sha256 bucket (past ++ [(s,a)]) t r x := by
  have hput : LostPut (past ++ [(s,a)]) r ↔ LostPut past r := by
    rw [lostPut_snoc,or_iff_left]
    rintro rfl
    exact hr rfl
  have hcommit : LostCommit sha256 bucket (past ++ [(s,a)]) r ↔ LostCommit sha256 bucket past r := by
    rw [lostCommit_snoc,or_iff_left]
    rintro ⟨d,eventId,occurredAt,outboxId,now,db,-,rfl,-⟩
    exact hr rfl
  have huntouched : Untouched past r → Untouched (past ++ [(s,a)]) r :=
    fun h => forall_mem_snoc h (fun ha => absurd ha hr)
  cases h with
  | waiting h => exact .waiting (huntouched h)
  | refused h => exact .refused (huntouched h)
  | @uploading d h hnothing =>
    obtain ⟨hrows,hobject⟩ := hstores d rfl
    exact .uploading (huntouched h) ⟨hrows.mpr hnothing.rows,hobject.trans hnothing.object⟩
  | @persisting d hp hc hrowless =>
    exact .persisting (hput.not.mpr hp) (hcommit.not.mpr hc) ((hstores d rfl).1.mpr hrowless)
  | @compensating d response hp hrowless =>
    refine .compensating (hput.not.mpr hp) ?_
    rw [(hstores d rfl).1,hcommit,hrowless]
  | @failed d status detail hobject hrowless =>
    obtain ⟨hrows,hsource⟩ := hstores d rfl
    refine .failed ?_ ?_
    · rw [hsource,hput,hobject]
    · rw [hrows,hcommit,hrowless]
  | created => exact .created
  | abandoned => exact .abandoned

/-- What a request's own transaction can do. -/
lemma persist_eq_some {s t : State} {r : ℕ} {eventId : UUID} {occurredAt : PyStr} {outboxId : UUID}
    {now : Time} {fault : Fault}
    (h : step sha256 bucket maxUploadBytes s (.persist r eventId occurredAt outboxId now fault)=some t) :
    ∃ d, s.request r=.persisting d ∧
      ((∃ response, t=s.setRequest r (.compensating d response) ∧
        ¬LosesCommit sha256 bucket r s (.persist r eventId occurredAt outboxId now fault)) ∨
      ∃ db, d.submission sha256 bucket eventId occurredAt outboxId now s.db=.ok db ∧
        (fault=.after ∧ t={ s with db := db }.setRequest r (.compensating d internalError) ∨
          fault=.none ∧ t={ s with db := db }.setRequest r (.answered d
            (.created d.documentId d.versionId eventId (objectUri bucket d.key))))) := by
  simp only [step] at h
  split at h
  · rename_i d hr
    refine ⟨d,hr,?_⟩
    have hkept : ∀ {e}, d.submission sha256 bucket eventId occurredAt outboxId now s.db=.error e →
        ¬LosesCommit sha256 bucket r s (.persist r eventId occurredAt outboxId now fault) := by
      rintro e he ⟨d',eventId',occurredAt',outboxId',now',db,hr',ha,hdb⟩
      cases hr.symm.trans hr'
      cases ha
      rw [he] at hdb
      cases hdb
    split at h
    · cases h
      refine .inl ⟨_,rfl,?_⟩
      rintro ⟨d',eventId',occurredAt',outboxId',now',db,-,ha,-⟩
      cases ha
    · cases h; exact .inl ⟨_,rfl,hkept ‹_›⟩
    · cases h; exact .inl ⟨_,rfl,hkept ‹_›⟩
    · cases h; exact .inr ⟨_,‹_›,.inl ⟨rfl,rfl⟩⟩
    · cases h; exact .inr ⟨_,‹_›,.inr ⟨rfl,rfl⟩⟩
  · cases h

section
variable {past : List (State × Action)} {s t : State} {r : ℕ}

/-- A request that arrives has used nothing. -/
lemma Tracked.receive {upload : Upload} {documentId versionId : UUID}
    (h : Tracked sha256 bucket past s r (s.request r)) (hfresh : Fresh s (.receive r upload documentId versionId))
    (ha : step sha256 bucket maxUploadBytes s (.receive r upload documentId versionId)=some t) :
    Tracked sha256 bucket (past ++ [(s,.receive r upload documentId versionId)]) t r (t.request r) := by
  have huntouched : s.request r=.waiting →
      Untouched (past ++ [(s,.receive r upload documentId versionId)]) r := by
    intro hr
    rw [hr] at h
    cases h with
    | waiting h => exact forall_mem_snoc h (fun _ => ⟨upload,documentId,versionId,rfl⟩)
  obtain ⟨hunused,hobject⟩ := hfresh
  cases transition_of_step _ _ _ ha with
  | refuse hr =>
    rw [State.setRequest_request]
    exact .refused (huntouched hr)
  | receive hr hname hs =>
    rw [State.setRequest_request]
    exact .uploading (huntouched hr) ⟨⟨hunused.documents,hunused.versions,hunused.outbox⟩,hobject⟩

/-- An upload leaves its object, also where it raises late. -/
lemma Tracked.put {fault : Fault} (h : Tracked sha256 bucket past s r (s.request r))
    (ha : step sha256 bucket maxUploadBytes s (.put r fault)=some t) :
    Tracked sha256 bucket (past ++ [(s,.put r fault)]) t r (t.request r) := by
  have hput : LostPut (past ++ [(s,.put r fault)]) r ↔ LostPut past r ∨ fault=.after := by
    rw [lostPut_snoc,Action.put.injEq]
    simp
  have hcommit : LostCommit sha256 bucket (past ++ [(s,.put r fault)]) r ↔
      LostCommit sha256 bucket past r := by
    rw [lostCommit_snoc,or_iff_left]
    rintro ⟨d,eventId,occurredAt,outboxId,now,db,-,ha,-⟩
    cases ha
  have hbefore : ∀ {d}, s.request r=.uploading d →
      LeavesNothing s d ∧ ¬LostPut past r ∧ ¬LostCommit sha256 bucket past r := by
    intro d hr
    rw [hr] at h
    cases h with
    | uploading h hnothing => exact ⟨hnothing,h.lost⟩
  cases transition_of_step _ _ _ ha with
  | putFails hr =>
    obtain ⟨hnothing,hp,hc⟩ := hbefore hr
    rw [State.setRequest_request]
    refine .failed (iff_of_true hnothing.object ?_) (iff_of_true hnothing.rows (hcommit.not.mpr hc))
    simp [hput,hp]
  | @putLost _ d hr =>
    obtain ⟨hnothing,hp,hc⟩ := hbefore hr
    rw [State.setRequest_request]
    refine .failed (iff_of_false ?_ ?_) (iff_of_true hnothing.rows (hcommit.not.mpr hc))
    · simp [State.setRequest,State.setObject]
    · simp [hput]
  | put hr =>
    obtain ⟨hnothing,hp,hc⟩ := hbefore hr
    rw [State.setRequest_request]
    exact .persisting (by simp [hput,hp]) (hcommit.not.mpr hc) hnothing.rows

/-- A transaction leaves rows exactly when it commits. -/
lemma Tracked.persist {eventId : UUID} {occurredAt : PyStr} {outboxId : UUID} {now : Time} {fault : Fault}
    (h : Tracked sha256 bucket past s r (s.request r))
    (ha : step sha256 bucket maxUploadBytes s (.persist r eventId occurredAt outboxId now fault)=some t) :
    Tracked sha256 bucket (past ++ [(s,.persist r eventId occurredAt outboxId now fault)]) t r
      (t.request r) := by
  have hput : LostPut (past ++ [(s,.persist r eventId occurredAt outboxId now fault)]) r ↔
      LostPut past r := by
    rw [lostPut_snoc,or_iff_left (by simp)]
  obtain ⟨d,hr,hcases⟩ := persist_eq_some ha
  rw [hr] at h
  cases h with
  | persisting hp hc hrows =>
    rcases hcases with ⟨response,rfl,hkept⟩ | ⟨db,hdb,⟨rfl,rfl⟩ | ⟨rfl,rfl⟩⟩
    · rw [State.setRequest_request]
      refine .compensating (hput.not.mpr hp) (iff_of_true hrows ?_)
      rw [lostCommit_snoc]
      exact not_or_intro hc hkept
    · rw [State.setRequest_request]
      refine .compensating (hput.not.mpr hp) (iff_of_false (not_rowless_of_commit hdb) ?_)
      rw [lostCommit_snoc,not_not]
      exact .inr ⟨d,eventId,occurredAt,outboxId,now,db,hr,rfl,hdb⟩
    · rw [State.setRequest_request]
      exact .created

/-- A delete takes the object away and leaves the rows. -/
lemma Tracked.delete {fault : Fault} (h : Tracked sha256 bucket past s r (s.request r))
    (hfault : fault=.none) (ha : step sha256 bucket maxUploadBytes s (.delete r fault)=some t) :
    Tracked sha256 bucket (past ++ [(s,.delete r fault)]) t r (t.request r) := by
  have hput : LostPut (past ++ [(s,.delete r fault)]) r ↔ LostPut past r := by
    rw [lostPut_snoc,or_iff_left (by simp)]
  have hcommit : LostCommit sha256 bucket (past ++ [(s,.delete r fault)]) r ↔
      LostCommit sha256 bucket past r := by
    rw [lostCommit_snoc,or_iff_left]
    rintro ⟨d,eventId,occurredAt,outboxId,now,db,-,ha,-⟩
    cases ha
  cases transition_of_step _ _ _ ha with
  | deleteFails => cases hfault
  | @delete _ d response _ answer hr hf =>
    rw [hr] at h
    cases h with
    | compensating hp hrows =>
      rw [State.setRequest_request]
      cases answer with
      | created => exact .created
      | error status detail =>
        refine .failed (iff_of_true ?_ (hput.not.mpr hp)) ?_
        · simp [State.setRequest,State.setObject]
        · rw [hcommit]
          exact hrows

/-- What a step of the request itself leaves. -/
theorem Tracked.own {a : Action} (h : Tracked sha256 bucket past s a.request (s.request a.request))
    (hfresh : Fresh s a) (ha : step sha256 bucket maxUploadBytes s a=some t) :
    Tracked sha256 bucket (past ++ [(s,a)]) t a.request (t.request a.request) := by
  cases a with
  | receive r upload documentId versionId => exact h.receive hfresh ha
  | put r fault => exact h.put ha
  | persist r eventId occurredAt outboxId now fault => exact h.persist ha
  | delete r fault => exact h.delete hfresh ha
  | abandon r =>
    cases ha
    rw [Action.request,State.setRequest_request]
    exact .abandoned

/-- A draft is made of unused ids, and only by the request itself. -/
lemma draft_of_step {a : Action} (ha : step sha256 bucket maxUploadBytes s a=some t) {q : ℕ} {d : Draft}
    (hd : (t.request q).draft=some d) : (s.request q).draft=some d ∨
      a=.receive q d.upload d.documentId d.versionId := by
  have hmove : ∀ {u : State} {r : ℕ} {x : Phase}, u.request=s.request →
      ((u.setRequest r x).request q).draft=some d → (s.request q).draft=some d ∨ q=r ∧ x.draft=some d := by
    intro u r x hu hd
    by_cases hq : q=r
    · subst hq
      rw [State.setRequest_request] at hd
      exact .inr ⟨rfl,hd⟩
    · exact .inl (by simpa [State.setRequest,hq,hu] using hd)
  have hkept : ∀ {u : State} {r : ℕ} {x : Phase}, u.request=s.request →
      ((u.setRequest r x).request q).draft=some d → x.draft=(s.request r).draft ∨ x.draft=none →
      (s.request q).draft=some d := by
    intro u r x hu hd hx
    obtain hd | ⟨rfl,hx'⟩ := hmove hu hd
    · exact hd
    · cases hx with
      | inl hx => rwa [← hx]
      | inr hx =>
        rw [hx] at hx'
        cases hx'
  cases transition_of_step _ _ _ ha with
  | refuse hr => exact .inl (hkept rfl hd (.inr rfl))
  | receive hr hname hs =>
    obtain hd | ⟨rfl,hx⟩ := hmove rfl hd
    · exact .inl hd
    · cases hx
      exact .inr rfl
  | putFails hr => exact .inl (hkept rfl hd (.inl (congrArg Phase.draft hr).symm))
  | putLost hr => exact .inl (hkept rfl hd (.inl (congrArg Phase.draft hr).symm))
  | put hr => exact .inl (hkept rfl hd (.inl (congrArg Phase.draft hr).symm))
  | persistFails hr => exact .inl (hkept rfl hd (.inl (congrArg Phase.draft hr).symm))
  | persistLost hr hdb => exact .inl (hkept rfl hd (.inl (congrArg Phase.draft hr).symm))
  | persist hr hdb => exact .inl (hkept rfl hd (.inl (congrArg Phase.draft hr).symm))
  | deleteFails hr => exact .inl (hkept rfl hd (.inl (congrArg Phase.draft hr).symm))
  | delete hr hf => exact .inl (hkept rfl hd (.inl (congrArg Phase.draft hr).symm))
  | abandon => exact .inl (hkept rfl hd (.inr rfl))

/-- Drawn ids keep requests apart. -/
lemma Distinct.step {a : Action} (h : Distinct s) (hfresh : Fresh s a)
    (ha : step sha256 bucket maxUploadBytes s a=some t) : Distinct t := by
  intro p q d e hpq hd he
  cases draft_of_step ha hd with
  | inl hd =>
    cases draft_of_step ha he with
    | inl he => exact h p q d e hpq hd he
    | inr hreceive =>
      subst hreceive
      exact hfresh.1.drafts p d hd
  | inr hreceive =>
    subst hreceive
    cases draft_of_step ha he with
    | inl he => exact ⟨(hfresh.1.drafts q e he).1.symm,(hfresh.1.drafts q e he).2.symm⟩
    | inr hreceive =>
      exact absurd (Action.receive.inj hreceive).1 hpq

end

/-- Along every run with new ids and deletes that succeed, the stores hold of each request what
its place and its lost calls say. -/
theorem tracked_traced {past : List (State × Action)} {s : State}
    (h : (serving sha256 bucket maxUploadBytes).Traced past s) (hfresh : ∀ x ∈ past, Fresh x.1 x.2) :
    Distinct s ∧ ∀ r, Tracked sha256 bucket past s r (s.request r) := by
  induction h with
  | start hinit =>
    refine ⟨?_,?_⟩
    · intro r q d e _ hd
      rw [hinit r] at hd
      cases hd
    · intro r
      rw [hinit r]
      refine .waiting ?_
      intro x hx
      cases hx
  | @next past s a t before ha ih =>
    have ha : step sha256 bucket maxUploadBytes s a=some t := ha
    obtain ⟨hdistinct,htracked⟩ := ih (fun x hx => hfresh x (List.mem_append_left _ hx))
    have hnew : Fresh s a := hfresh (s,a) (List.mem_append_right _ (List.mem_singleton_self _))
    refine ⟨hdistinct.step hnew ha,?_⟩
    intro r
    by_cases hr : a.request=r
    · subst hr
      exact (htracked a.request).own hnew ha
    · obtain ⟨hphase,hstores⟩ := (transition_of_step _ _ _ ha).others hdistinct hr
      rw [hphase]
      exact (htracked r).others hr hstores

/-- A request that ends in an error leaves nothing exactly when no upload and no commit of its own
raised after it took effect; a request that is refused has called no service. -/
theorem failed_leaves_nothing_iff {past : List (State × Action)} {s : State}
    (h : (serving sha256 bucket maxUploadBytes).Traced past s) (hfresh : ∀ x ∈ past, Fresh x.1 x.2)
    (r : ℕ) :
    (∀ d status detail, s.request r=.answered d (.error status detail) →
      (LeavesNothing s d ↔ ¬LostPut past r ∧ ¬LostCommit sha256 bucket past r)) ∧
    ∀ response, s.request r=.refused response → Untouched past r := by
  have htracked := (tracked_traced h hfresh).2 r
  refine ⟨?_,?_⟩
  · intro d status detail hr
    rw [hr] at htracked
    cases htracked with
    | failed hobject hrows =>
      exact ⟨fun hnothing => ⟨hobject.mp hnothing.object,hrows.mp hnothing.rows⟩,
        fun hlost => ⟨hrows.mpr hlost.2,hobject.mpr hlost.1⟩⟩
  · intro response hr
    rw [hr] at htracked
    cases htracked with
    | refused h => exact h

end

/-- A request whose upload is about to be stored, and how it came there. -/
def firstUploading : State := nothingSubmitted.setRequest 0 (.uploading smallDraft)

lemma firstUploading_traced : (serving plainSha256 minioSourceBucket 1048576).Traced
    [(nothingSubmitted,.receive 0 smallUpload ⟨2⟩ ⟨3⟩)] firstUploading :=
  .next (.start (fun _ => rfl)) rfl

lemma fresh_firstUploading : Fresh nothingSubmitted (.receive 0 smallUpload ⟨2⟩ ⟨3⟩) :=
  ⟨unused_nothingSubmitted ⟨2⟩ ⟨3⟩,rfl⟩

/-- A request whose upload raised before it stored anything. -/
theorem failed_upload_leaves_nothing : ∃ past s,
    ((serving plainSha256 minioSourceBucket 1048576).Traced past s ∧ ∀ x ∈ past, Fresh x.1 x.2) ∧
    s.request 0=.answered smallDraft storageUnavailable ∧
    (LeavesNothing s smallDraft ↔
      ¬LostPut past 0 ∧ ¬LostCommit plainSha256 minioSourceBucket past 0) := by
  have htraced : (serving plainSha256 minioSourceBucket 1048576).Traced _ _ :=
    .next (a := .put 0 .before) firstUploading_traced rfl
  have hfresh : ∀ x ∈ [(nothingSubmitted,Action.receive 0 smallUpload ⟨2⟩ ⟨3⟩)] ++
      [(firstUploading,.put 0 .before)], Fresh x.1 x.2 :=
    forall_mem_snoc (List.forall_mem_singleton.mpr fresh_firstUploading) trivial
  refine ⟨_,_,⟨htraced,hfresh⟩,rfl,?_⟩
  exact (failed_leaves_nothing_iff htraced hfresh 0).1 smallDraft _ _ rfl

/-- An upload that raises after it stored the object is answered 503, and the object stays. -/
theorem late_upload_leaves_object : ¬∀ past s,
    (serving plainSha256 minioSourceBucket 1048576).Traced past s → (∀ x ∈ past, Fresh x.1 x.2) →
    ∀ r d status detail, s.request r=.answered d (.error status detail) → LeavesNothing s d := by
  intro hall
  have htraced : (serving plainSha256 minioSourceBucket 1048576).Traced _ _ :=
    .next (a := .put 0 .after) firstUploading_traced rfl
  have hfresh : ∀ x ∈ [(nothingSubmitted,Action.receive 0 smallUpload ⟨2⟩ ⟨3⟩)] ++
      [(firstUploading,.put 0 .after)], Fresh x.1 x.2 :=
    forall_mem_snoc (List.forall_mem_singleton.mpr fresh_firstUploading) trivial
  have hobject := (hall _ _ htraced hfresh 0 smallDraft _ _ rfl).object
  simp [State.setRequest,State.setObject] at hobject

end RagIngestion.Submission
