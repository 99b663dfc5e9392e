import RagIngestion.Python.Stream
import RagIngestion.Submission.Api

/-! Whether every committed version still has its source object: the only step that takes it
away is a compensating delete after a commit that took effect. -/
namespace RagIngestion.Submission
open RagIngestion.Python RagIngestion.Domain RagIngestion.Database RagIngestion.Storage
open RagIngestion.Library

variable (sha256 : Bytes → Digest) (bucket : BucketName) (maxUploadBytes : ℕ)

/-- The version names a stored object with its content hash. -/
def HasSource (s : State) (v : DocumentVersion) : Prop :=
  ∃ key o, v.sourceObjectUri=objectUri bucket key ∧ s.source key=some o ∧
    v.contentSha256=hexdigest (sha256 o.body)

def NoDangling (s : State) : Prop := ∀ v ∈ s.db.versions, HasSource sha256 bucket s v

/-- No committed version names this key. -/
def Unreferenced (s : State) (key : PyStr) : Prop :=
  ∀ v ∈ s.db.versions, v.sourceObjectUri≠objectUri bucket key

/-- The drawn document UUID gives a key that nobody uses, and an object is only deleted while
no committed version names it. -/
def Careful (s : State) : Action → Prop
  | .receive _ upload documentId _ =>
    let key := sourceObjectKey upload.tenantId documentId upload.filename
    Unreferenced bucket s key ∧ ∀ q d, (s.request q).live=some d → d.key≠key
  | .delete r fault => fault≠.before → ∀ d, (s.request r).live=some d → Unreferenced bucket s d.key
  | _ => True

structure Sound (s : State) : Prop where
  sources : NoDangling sha256 bucket s
  uploaded : ∀ r d, s.request r=.persisting d → s.source d.key=some (d.object sha256)
  distinct : ∀ r q d e, r≠q → (s.request r).live=some d → (s.request q).live=some e → d.key≠e.key
  unused : ∀ r d, s.request r=.uploading d ∨ s.request r=.persisting d →
    Unreferenced bucket s d.key

variable {sha256 bucket maxUploadBytes}

theorem sound_initial {s : State} (h : Initial s) : Sound sha256 bucket s := by
  refine ⟨?_,?_,?_,?_⟩
  · intro v hv
    simp [h.1] at hv
  · intro r d hr
    simp [h.2 r] at hr
  · intro r q d e _ hr
    simp [h.2 r,Phase.live] at hr
  · intro r d hr
    simp [h.2 r] at hr

/-- A request moves on over the same objects and tables. -/
theorem Sound.setRequest {s : State} (h : Sound sha256 bucket s) {r : ℕ} {x : Phase}
    (hlive : x.live=none ∨ x.live=(s.request r).live)
    (hup : ∀ d, x=.persisting d → s.source d.key=some (d.object sha256))
    (hun : ∀ d, x=.uploading d ∨ x=.persisting d → Unreferenced bucket s d.key) :
    Sound sha256 bucket (s.setRequest r x) := by
  have hself : (s.setRequest r x).request r=x := State.setRequest_request s r x
  have hother : ∀ q, q≠r → (s.setRequest r x).request q=s.request q := fun q hq => by
    simp [State.setRequest,hq]
  have hl : ∀ q d, ((s.setRequest r x).request q).live=some d → (s.request q).live=some d := by
    intro q d hd
    by_cases hq : q=r
    · rw [hq,hself] at hd
      cases hlive with
      | inl hn => rw [hn] at hd; cases hd
      | inr hs => rw [hq,← hs,hd]
    · rwa [hother q hq] at hd
  refine ⟨h.sources,?_,?_,?_⟩
  · intro q d hq
    by_cases hqr : q=r
    · rw [hqr,hself] at hq
      exact hup d hq
    · rw [hother q hqr] at hq
      exact h.uploaded q d hq
  · intro p q d e hne hd he
    exact h.distinct p q d e hne (hl p d hd) (hl q e he)
  · intro q d hq
    by_cases hqr : q=r
    · rw [hqr,hself] at hq
      exact hun d hq
    · rw [hother q hqr] at hq
      exact h.unused q d hq

/-- A request that is over. -/
theorem Sound.finish {s : State} (h : Sound sha256 bucket s) {r : ℕ} {x : Phase}
    (hx : x.live=none) : Sound sha256 bucket (s.setRequest r x) := by
  refine h.setRequest (.inl hx) ?_ ?_
  · rintro d rfl
    cases hx
  · rintro d (rfl | rfl)
    · cases hx
    · cases hx

/-- A request whose key nobody else uses. -/
theorem Sound.receive {s : State} (h : Sound sha256 bucket s) {r : ℕ} {d : Draft}
    (hun : Unreferenced bucket s d.key)
    (hkey : ∀ q e, (s.request q).live=some e → e.key≠d.key) :
    Sound sha256 bucket (s.setRequest r (.uploading d)) := by
  have hself : (s.setRequest r (.uploading d)).request r=.uploading d :=
    State.setRequest_request s r _
  have hother : ∀ q, q≠r → (s.setRequest r (.uploading d)).request q=s.request q := fun q hq => by
    simp [State.setRequest,hq]
  refine ⟨h.sources,?_,?_,?_⟩
  · intro q e hq
    by_cases hqr : q=r
    · rw [hqr,hself] at hq
      cases hq
    · rw [hother q hqr] at hq
      exact h.uploaded q e hq
  · intro p q e f hne he hf
    by_cases hp : p=r
    · have hq : q≠r := fun hq => hne (hp.trans hq.symm)
      rw [hp,hself] at he
      rw [hother q hq] at hf
      cases he
      exact (hkey q f hf).symm
    · rw [hother p hp] at he
      by_cases hq : q=r
      · rw [hq,hself] at hf
        cases hf
        exact hkey p e he
      · rw [hother q hq] at hf
        exact h.distinct p q e f hne he hf
  · intro q e hq
    by_cases hqr : q=r
    · rw [hqr,hself] at hq
      simp only [Phase.uploading.injEq,reduceCtorEq,or_false] at hq
      exact hq ▸ hun
    · rw [hother q hqr] at hq
      exact h.unused q e hq

theorem HasSource.setObject {s : State} {v : DocumentVersion} {key : PyStr} {o : Option StoredObject}
    (h : HasSource sha256 bucket s v) (hkey : v.sourceObjectUri≠objectUri bucket key) :
    HasSource sha256 bucket (s.setObject key o) v := by
  obtain ⟨k,x,huri,hsrc,hsha⟩ := h
  refine ⟨k,x,huri,?_,hsha⟩
  have hne : k≠key := fun hk => hkey (hk ▸ huri)
  simp [State.setObject,hne,hsrc]

/-- An object that no committed version names is stored or deleted by its own request. -/
theorem Sound.setObject {s : State} (h : Sound sha256 bucket s) {r : ℕ} {d : Draft}
    {o : Option StoredObject} (hr : (s.request r).live=some d) (hun : Unreferenced bucket s d.key)
    (hown : ∀ e, s.request r=.persisting e → o=some (e.object sha256)) :
    Sound sha256 bucket (s.setObject d.key o) := by
  refine ⟨fun v hv => (h.sources v hv).setObject (hun v hv),?_,h.distinct,h.unused⟩
  intro q e hq
  by_cases hqr : q=r
  · subst hqr
    have hde : d=e := by
      have hq' : s.request q=.persisting e := hq
      rw [hq'] at hr
      exact (Option.some.inj hr).symm
    subst hde
    simpa [State.setObject] using hown d hq
  · have hq' : s.request q=.persisting e := hq
    have hne : e.key≠d.key := h.distinct q r e d hqr (by rw [hq']; rfl) hr
    simpa [State.setObject,hne] using h.uploaded q e hq'

/-- The version a committed submission adds names the uploaded object. -/
theorem Sound.persist {s : State} (h : Sound sha256 bucket s) {r : ℕ} {d : Draft} {eventId : UUID}
    {occurredAt : PyStr} {outboxId : UUID} {now : Time} {db : Db} {x : Phase}
    (hr : s.request r=.persisting d)
    (hdb : d.submission sha256 bucket eventId occurredAt outboxId now s.db=.ok db)
    (hx : x.live=none ∨ ∃ response, x=.compensating d response) :
    Sound sha256 bucket ({ s with db := db }.setRequest r x) := by
  obtain ⟨-,rfl⟩ := Draft.submission_eq_ok sha256 bucket hdb
  have hwuri : (d.version sha256 bucket now).sourceObjectUri=objectUri bucket d.key := by
    simp only [Draft.version,newVersion]
  have hwsha : (d.version sha256 bucket now).contentSha256=hexdigest (sha256 d.content) := by
    simp only [Draft.version,newVersion]
  have hself : (s.setRequest r x).request r=x := State.setRequest_request s r x
  have hother : ∀ q, q≠r → (s.setRequest r x).request q=s.request q := fun q hq => by
    simp [State.setRequest,hq]
  have hlive : x.live=none ∨ x.live=(s.request r).live := by
    refine hx.imp id ?_
    rintro ⟨response,rfl⟩
    rw [hr]
    rfl
  have hnot : ∀ e, x≠.uploading e ∧ x≠.persisting e := by
    intro e
    obtain hx | ⟨response,rfl⟩ := hx
    · constructor
      · rintro rfl
        cases hx
      · rintro rfl
        cases hx
    · exact ⟨by simp,by simp⟩
  have hs : Sound sha256 bucket (s.setRequest r x) :=
    h.setRequest hlive (fun e he => absurd he (hnot e).2)
      (fun e he => he.elim (fun he => absurd he (hnot e).1) (fun he => absurd he (hnot e).2))
  refine ⟨?_,hs.uploaded,hs.distinct,?_⟩
  · intro v hv
    cases List.mem_append.mp hv with
    | inl hv => exact hs.sources v hv
    | inr hv =>
      rw [List.mem_singleton.mp hv]
      exact ⟨d.key,d.object sha256,hwuri,h.uploaded r d hr,hwsha⟩
  · intro q e hq v hv
    have hqr : q≠r := by
      rintro rfl
      obtain hq | hq := hq
      · exact (hnot e).1 (hself.symm.trans hq)
      · exact (hnot e).2 (hself.symm.trans hq)
    cases List.mem_append.mp hv with
    | inl hv => exact hs.unused q e hq v hv
    | inr hv =>
      rw [List.mem_singleton.mp hv,hwuri]
      intro hkey
      have hq' : s.request q=.uploading e ∨ s.request q=.persisting e := by
        rwa [← hother q hqr]
      refine h.distinct r q d e hqr.symm (by rw [hr]; rfl) ?_ (objectUri_injective bucket hkey)
      obtain hq' | hq' := hq'
      · rw [hq']; rfl
      · rw [hq']; rfl

theorem sound_step {s t : State} {a : Action} (h : Sound sha256 bucket s) (ok : Careful bucket s a)
    (ha : step sha256 bucket maxUploadBytes s a=some t) : Sound sha256 bucket t := by
  cases transition_of_step sha256 bucket maxUploadBytes ha with
  | refuse hr => exact h.finish rfl
  | receive hr hname hs => exact h.receive ok.1 ok.2
  | putFails hr => exact h.finish rfl
  | putLost hr =>
    rename_i r d
    exact (h.setObject (r := r) (by rw [hr]; rfl) (h.unused r d (.inl hr))
      (fun e he => by rw [hr] at he; cases he)).finish rfl
  | put hr =>
    rename_i r d
    have hun := h.unused r d (.inl hr)
    refine (h.setObject (r := r) (by rw [hr]; rfl) hun
      (fun e he => by rw [hr] at he; cases he)).setRequest (.inr ?_) ?_ ?_
    · change _=(s.request r).live
      rw [hr]
      rfl
    · intro e he
      cases he
      simp [State.setObject]
    · rintro e (he | he)
      · cases he
      · cases he
        exact hun
  | persistFails hr =>
    refine h.setRequest (.inr (by rw [hr]; rfl)) (fun e he => nomatch he) ?_
    rintro e (he | he)
    · cases he
    · cases he
  | persistLost hr hdb => exact h.persist hr hdb (.inr ⟨_,rfl⟩)
  | persist hr hdb => exact h.persist hr hdb (.inl rfl)
  | deleteFails hr => exact h.finish rfl
  | delete hr hf =>
    rename_i r d response fault answer
    have hlive : (s.request r).live=some d := by rw [hr]; rfl
    exact (h.setObject hlive (ok hf d hlive) (fun e he => by rw [hr] at he; cases he)).finish rfl
  | abandon => exact h.finish rfl

theorem sound_reach {s : State}
    (h : (system sha256 bucket maxUploadBytes).Reach (Careful bucket) s) : Sound sha256 bucket s :=
  h.invariant (fun _ => sound_initial) (fun _ _ _ hs ok ha => sound_step hs ok ha)

/-- A delete that takes effect while a committed version names its object. -/
theorem dangles_of_delete {s t : State} {r : ℕ} {fault : Fault} (bad : ¬Careful bucket s (.delete r fault))
    (ha : step sha256 bucket maxUploadBytes s (.delete r fault)=some t) : ¬NoDangling sha256 bucket t := by
  intro hall
  simp only [Careful,Unreferenced,not_forall,not_not] at bad
  obtain ⟨hf,d,hlive,v,hv,huri⟩ := bad
  cases transition_of_step sha256 bucket maxUploadBytes ha with
  | deleteFails hr => exact hf rfl
  | delete hr _ =>
    have hd := hlive
    rw [hr] at hd
    cases hd
    obtain ⟨key,o,hkey,hsrc,-⟩ := hall v hv
    have hsame : key=d.key := objectUri_injective bucket (hkey.symm.trans huri)
    simp [State.setRequest,State.setObject,hsame] at hsrc

/-- Along careful runs every committed version has its source object with its hash; in the
states they reach a delete keeps this exactly when it is careful. -/
theorem careful_runs_keep_sources {s : State}
    (h : (system sha256 bucket maxUploadBytes).Reach (Careful bucket) s) :
    NoDangling sha256 bucket s ∧
      ∀ r fault t, (system sha256 bucket maxUploadBytes).step s (.delete r fault)=some t →
        (NoDangling sha256 bucket t ↔ Careful bucket s (.delete r fault)) := by
  have hs := sound_reach h
  refine ⟨hs.sources,?_⟩
  intro r fault t ha
  have ha : step sha256 bucket maxUploadBytes s (.delete r fault)=some t := ha
  refine ⟨fun ht => ?_,fun ok => (sound_step hs ok ha).sources⟩
  by_contra bad
  exact dangles_of_delete bad ha ht

/-- A small upload of the tenant with UUID 1. -/
def smallUpload : Upload := ⟨⟨1⟩,py "a.pdf",none,py "internal",none,none,[plainSource]⟩

def smallDraft : Draft := ⟨smallUpload,plainSource,⟨2⟩,⟨3⟩⟩

def nothingSubmitted : State := ⟨fun _ => none,Db.empty [⟨1⟩],fun _ => .waiting⟩

theorem nothingSubmitted_initial : Initial nothingSubmitted := ⟨rfl,fun _ => rfl⟩

/-- An upload that is stored and committed. -/
theorem small_upload_has_source :
    ∃ s, (system plainSha256 minioSourceBucket 1048576).Reach (Careful minioSourceBucket) s ∧
      s.db.versions≠[] ∧ NoDangling plainSha256 minioSourceBucket s := by
  let S := system plainSha256 minioSourceBucket 1048576
  let first := nothingSubmitted.setRequest 0 (.uploading smallDraft)
  have hfirst : S.Reach (Careful minioSourceBucket) first := by
    refine .next (.start nothingSubmitted_initial)
      (show Careful minioSourceBucket nothingSubmitted (.receive 0 smallUpload ⟨2⟩ ⟨3⟩) from ⟨?_,?_⟩) rfl
    · intro v hv
      cases hv
    · intro q d hd
      cases hd
  have hrun : (S.run first [.put 0 .none,.persist 0 ⟨4⟩ [] ⟨5⟩ 0 .none]).any
      (fun s => !s.db.versions.isEmpty)=true := by decide +kernel
  obtain ⟨s,hrun,hne⟩ := (Option.any_eq_true _ _).mp hrun
  have hreach : S.Reach (Careful minioSourceBucket) s := hfirst.run (by simp [Careful]) hrun
  refine ⟨s,hreach,?_,(careful_runs_keep_sources hreach).1⟩
  simpa using hne

/-- The commit takes effect, its acknowledgement is lost, and the compensating delete removes
the object of the committed version. -/
theorem lost_commit_dangles :
    ¬∀ s, (system plainSha256 minioSourceBucket 1048576).Reachable s →
      NoDangling plainSha256 minioSourceBucket s := by
  intro hall
  let S := system plainSha256 minioSourceBucket 1048576
  have hrun : (S.run nothingSubmitted [.receive 0 smallUpload ⟨2⟩ ⟨3⟩,.put 0 .none,
      .persist 0 ⟨4⟩ [] ⟨5⟩ 0 .after,.delete 0 .none]).any (fun s =>
        (s.db.versions.any fun v =>
          decide (v.sourceObjectUri=objectUri minioSourceBucket smallDraft.key)) &&
        (s.source smallDraft.key).isNone)=true := by decide +kernel
  obtain ⟨s,hrun,hs⟩ := (Option.any_eq_true _ _).mp hrun
  simp only [Bool.and_eq_true,List.any_eq_true,decide_eq_true_eq,Option.isNone_iff_eq_none] at hs
  obtain ⟨⟨v,hv,huri⟩,hgone⟩ := hs
  obtain ⟨key,o,hkey,hsrc,-⟩ := hall s (System.reachable_of_run _ nothingSubmitted_initial hrun) v hv
  rw [objectUri_injective _ (hkey.symm.trans huri),hgone] at hsrc
  cases hsrc

end RagIngestion.Submission
