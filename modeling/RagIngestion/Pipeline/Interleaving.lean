import RagIngestion.Library.Transactions
import RagIngestion.Pipeline.Careful

/-! Any number of the four transactions at once, statement by statement, on one database: what
they commit is what they would have committed one after the other. -/
namespace RagIngestion.Pipeline
open RagIngestion.Python RagIngestion.Domain RagIngestion.Database RagIngestion.Library
open RagIngestion.Extractor (Raised raising raising_eq_ok)

section
variable {ws : List Write} {db : Db}

/-- The versions in view are those committed and those the transaction inserted. -/
lemma versions_applyAll {f : VersionFacts} :
    (∃ v ∈ (engine.applyAll ws db).versions, v.facts=f) ↔
      (∃ v ∈ db.versions, v.facts=f) ∨ ∃ v, .version v ∈ ws ∧ v.facts=f := by
  induction ws generalizing db with
  | nil => simp
  | cons w ws ih =>
    rw [Engine.applyAll_cons,ih]
    have hw : (∃ v ∈ (w.apply db).versions, v.facts=f) ↔
        (∃ v ∈ db.versions, v.facts=f) ∨ ∃ v, .version v=w ∧ v.facts=f := by
      cases w with
      | version x => simp [Write.apply,Write.onVersions,or_and_right,exists_or]
      | updateVersion tenantId id g =>
        have hmap := (Write.alike_updateVersion tenantId id g db).versions
        have hex := exists_mem_of_perm_map hmap (fun y => y=f)
        simpa using hex
      | _ => simp [Write.apply,Write.onVersions]
    change ((∃ v ∈ (w.apply db).versions, v.facts=f) ∨ _) ↔ _
    rw [hw]
    simp only [List.mem_cons,or_and_right,exists_or,or_assoc]

lemma documents_applyAll {f : DocumentFacts} :
    (∃ d ∈ (engine.applyAll ws db).documents, d.facts=f) ↔
      (∃ d ∈ db.documents, d.facts=f) ∨ ∃ d, .document d ∈ ws ∧ d.facts=f := by
  induction ws generalizing db with
  | nil => simp
  | cons w ws ih =>
    rw [Engine.applyAll_cons,ih]
    have hw : (∃ d ∈ (w.apply db).documents, d.facts=f) ↔
        (∃ d ∈ db.documents, d.facts=f) ∨ ∃ d, .document d=w ∧ d.facts=f := by
      cases w with
      | document x => simp [Write.apply,Write.onDocuments,or_and_right,exists_or]
      | updateDocument tenantId id g =>
        have hmap := (Write.alike_updateDocument tenantId id g db).documents
        have hex := exists_mem_of_perm_map hmap (fun y => y=f)
        simpa using hex
      | _ => simp [Write.apply,Write.onDocuments]
    change ((∃ d ∈ (w.apply db).documents, d.facts=f) ∨ _) ↔ _
    rw [hw]
    simp only [List.mem_cons,or_and_right,exists_or,or_assoc]

lemma applyAll_comm {w : Write} (h : ∀ v ∈ ws, Write.Apart v w) :
    Db.Same (engine.applyAll ws (w.apply db)) (w.apply (engine.applyAll ws db)) := by
  induction ws generalizing db with
  | nil => exact Db.same_equivalence.refl _
  | cons v ws ih =>
    rw [List.forall_mem_cons] at h
    have hswap := engine.applyAll_same (Write.apply_comm h.1 db) ws
    exact Db.same_equivalence.trans hswap (ih h.2)

/-- A write leaves an executed statement as it was when it locks other keys and neither is about
a row that the other inserts. -/
theorem independent {e : Executed Statement Answer Write} {w : Write}
    (h : engine.exec e.statement db=.ok (e.result,e.writes)) (hsees : ¬e.statement.Sees w)
    (hkeys : ∀ v ∈ e.writes, List.Disjoint v.keys w.keys) (hchanges : ∀ v ∈ e.writes, ¬w.Changes v) :
    Script.Independent engine e w where
  exec d hd := raising_eq_ok.mpr (Statement.exec_apply (raising_eq_ok.mp hd) hsees hkeys)
  commute d := by
    refine applyAll_comm fun v hv => ⟨hkeys v hv,?_,hchanges v hv⟩
    intro hc
    exact hsees (Statement.sees_of_changes (Statement.exec_writes (raising_eq_ok.mp h) hv) hc)

end

/-- Transactions under way. -/
abbrev Interleaved := Sessions Statement Answer Write Key Db Raised Bool Transaction ℕ

/-- What holds of interleaved transactions that began from `db`. -/
structure Sound (rt : Extractor.Runtime) (db : Db) (s : Interleaved) : Prop where
  locked : Sessions.Locked engine.keys s
  serializable : Sessions.Serializable engine (Transaction.script rt) db s
  settled : ∀ t x, s.running t=some x → x.label.Settled s.committed

section
variable {rt : Extractor.Runtime} {db : Db} {s : Interleaved} {t u : ℕ}
  {x y : Session Statement Answer Write Raised Bool Transaction}

/-- An executed statement: what its transaction had written before, and that it was careful. -/
lemma Sound.executed (h : Sound rt db s) (hx : s.running t=some x)
    {e : Executed Statement Answer Write} (he : e ∈ x.executed) :
    ∃ before ⊆ x.writes, Careful s.committed (engine.applyAll before s.committed) e.statement ∧
      e.statement.exec (engine.applyAll before s.committed)=.ok (e.result,e.writes) := by
  obtain ⟨before,after,hes⟩ := List.append_of_mem he
  obtain ⟨hcareful,hexec⟩ := (h.serializable.follows t x hx).throughout
    (Transaction.script_careful (h.settled t x hx)) hes
  replace hexec : raising (e.statement.exec
      (engine.applyAll (before.flatMap (·.writes)) s.committed))=.ok (e.result,e.writes) := hexec
  refine ⟨before.flatMap (·.writes),?_,hcareful,raising_eq_ok.mp hexec⟩
  intro w hw
  rw [Session.writes,hes,List.flatMap_append]
  exact List.mem_append_left _ hw

lemma mem_writes {w : Write} (hw : w ∈ x.writes) : ∃ e ∈ x.executed, w ∈ e.writes :=
  List.mem_flatMap.mp hw

lemma committed_version (ws : List Write) {v : DocumentVersion} (hv : v ∈ s.committed.versions) :
    ∃ c ∈ (engine.applyAll ws s.committed).versions, c.facts=v.facts :=
  versions_applyAll.mpr (.inl ⟨v,hv,rfl⟩)

lemma committed_document (ws : List Write) {d : Document} (hd : d ∈ s.committed.documents) :
    ∃ c ∈ (engine.applyAll ws s.committed).documents, c.facts=d.facts :=
  documents_applyAll.mpr (.inl ⟨d,hd,rfl⟩)

/-- A document that a transaction under way inserted has an id that no committed one has. -/
lemma Sound.insertedDocument (h : Sound rt db s) (hx : s.running t=some x) {d : Document}
    (hd : .document d ∈ x.writes) : ∀ c ∈ s.committed.documents, c.id≠d.id := by
  obtain ⟨⟨q,r,ws⟩,he,hdws⟩ := mem_writes hd
  obtain ⟨before,-,-,hexec⟩ := h.executed hx he
  have hwrite := Statement.exec_writes hexec hdws
  cases q with
  | insertDocument =>
    cases hwrite
    have hok := (exec_insertDocument _ _).symm.trans hexec
    split at hok
    · rename_i hcheck
      intro c hc hid
      obtain ⟨c',hc',hfacts⟩ := committed_document before hc
      exact (hcheck.2 c' hc').1 ((congrArg DocumentFacts.id hfacts).trans hid)
    · cases hok
  | _ => cases hwrite

/-- A version that a transaction under way inserted has an id that no committed one has, and its
document is one that the transaction inserted. -/
lemma Sound.insertedVersion (h : Sound rt db s) (hx : s.running t=some x) {v : DocumentVersion}
    (hv : .version v ∈ x.writes) : (∀ c ∈ s.committed.versions, c.id≠v.id) ∧
      ∃ d, .document d ∈ x.writes ∧ d.id=v.documentId := by
  obtain ⟨⟨q,r,ws⟩,he,hvws⟩ := mem_writes hv
  obtain ⟨before,hbefore,hcareful,hexec⟩ := h.executed hx he
  have hwrite := Statement.exec_writes hexec hvws
  cases q with
  | insertVersion =>
    cases hwrite
    have hok := (exec_insertVersion _ _).symm.trans hexec
    split at hok
    · rename_i hcheck
      obtain ⟨-,-,-,⟨d,hd,-,hdid⟩,hfresh⟩ := hcheck
      constructor
      · intro c hc hid
        obtain ⟨c',hc',hfacts⟩ := committed_version before hc
        exact (hfresh c' hc').1 ((congrArg VersionFacts.id hfacts).trans hid)
      · obtain ⟨c,hc,hfacts⟩ | ⟨d',hd',hfacts⟩ := documents_applyAll.mp ⟨d,hd,rfl⟩
        · exact absurd ((congrArg DocumentFacts.id hfacts).trans hdid) (hcareful c hc)
        · exact ⟨d',hbefore hd',(congrArg DocumentFacts.id hfacts).trans hdid⟩
    · cases hok
  | _ => cases hwrite

/-- No two transactions under way insert documents or versions with the same id. -/
lemma Sound.documents_apart (h : Sound rt db s) (hx : s.running t=some x) (hy : s.running u=some y)
    (htu : t≠u) {c d : Document} (hc : .document c ∈ x.writes) (hd : .document d ∈ y.writes) :
    c.id≠d.id := by
  intro hid
  refine h.locked.apart hx hy htu hc hd (a := .documentId d.id) ?_ ?_
  · simp [engine,Write.keys,hid]
  · simp [engine,Write.keys]

lemma Sound.versions_apart (h : Sound rt db s) (hx : s.running t=some x) (hy : s.running u=some y)
    (htu : t≠u) {c v : DocumentVersion} (hc : .version c ∈ x.writes) (hv : .version v ∈ y.writes) :
    c.id≠v.id := by
  intro hid
  refine h.locked.apart hx hy htu hc hv (a := .versionId v.id) ?_ ?_
  · simp [engine,Write.keys,hid]
  · simp [engine,Write.keys]

/-- A document in the view of one transaction is not being inserted by another. -/
lemma Sound.document_in_view (h : Sound rt db s) (hx : s.running t=some x) (hy : s.running u=some y)
    (htu : t≠u) {before : List Write} (hbefore : before ⊆ x.writes) {c d : Document}
    (hc : c ∈ (engine.applyAll before s.committed).documents) (hd : .document d ∈ y.writes) :
    c.id≠d.id := by
  obtain ⟨c',hc',hfacts⟩ | ⟨c',hc',hfacts⟩ := documents_applyAll.mp ⟨c,hc,rfl⟩
  · have hid : c'.id=c.id := congrArg DocumentFacts.id hfacts
    rw [← hid]
    exact h.insertedDocument hy hd c' hc'
  · have hid : c'.id=c.id := congrArg DocumentFacts.id hfacts
    rw [← hid]
    exact h.documents_apart hx hy htu (hbefore hc') hd

/-- No statement of a transaction under way would find a row that another one has inserted. -/
theorem Sound.not_sees (h : Sound rt db s) (hx : s.running t=some x) (hy : s.running u=some y)
    (htu : t≠u) {e : Executed Statement Answer Write} (he : e ∈ x.executed) {w : Write}
    (hw : w ∈ y.writes) : ¬e.statement.Sees w := by
  intro hsees
  obtain ⟨before,hbefore,hcareful,-⟩ := h.executed hx he
  generalize e.statement=q at hsees hcareful
  cases q with
  | selectVersion p =>
    cases w with
    | version v =>
      obtain ⟨c,hc,-,hcid⟩ := hcareful v.facts hsees
      obtain ⟨-,d,hd,hdid⟩ := h.insertedVersion hy hw
      exact h.document_in_view hx hy htu hbefore hc hd (hcid.trans hdid.symm)
    | _ => exact hsees
  | updateVersion tenantId id f =>
    cases w with
    | version v =>
      obtain ⟨c,hc,-,hcid⟩ := hcareful
      obtain ⟨c',hc',hfacts⟩ | ⟨c',hc',hfacts⟩ := versions_applyAll.mp ⟨c,hc,rfl⟩
      · refine (h.insertedVersion hy hw).1 c' hc' ?_
        exact (congrArg VersionFacts.id hfacts).trans (hcid.trans hsees.2.symm)
      · refine h.versions_apart hx hy htu (hbefore hc') hw ?_
        exact (congrArg VersionFacts.id hfacts).trans (hcid.trans hsees.2.symm)
    | _ => exact hsees
  | updateDocument tenantId id f =>
    cases w with
    | document d =>
      obtain ⟨c,hc,-,hcid⟩ := hcareful
      exact h.document_in_view hx hy htu hbefore hc hw (hcid.trans hsees.2.symm)
    | _ => exact hsees
  | _ => exact hsees

/-- A commit disturbs no statement of another transaction. -/
theorem Sound.undisturbed (h : Sound rt db s) (a : SessionAction Transaction ℕ) :
    Sessions.Undisturbed engine s a := by
  cases a with
  | commit t =>
    intro x u y hx hy htu e he w hw
    obtain ⟨before,-,-,hexec⟩ := h.executed hy he
    refine independent (raising_eq_ok.mpr hexec) (h.not_sees hy hx htu.symm he hw) ?_ ?_
    · intro v hv
      exact h.locked.apart hy hx htu.symm (List.mem_flatMap.mpr ⟨e,he,hv⟩) hw
    · intro v hv hc
      obtain ⟨e',he',hwe'⟩ := mem_writes hw
      obtain ⟨before',-,-,hexec'⟩ := h.executed hx he'
      have hsees := Statement.sees_of_changes (Statement.exec_writes hexec' hwe') hc
      exact h.not_sees hx hy htu he' (List.mem_flatMap.mpr ⟨e,he,hv⟩) hsees
  | _ => trivial

/-- What an event names stays in the database. -/
lemma Transaction.Settled.applyAll {label : Transaction} (h : label.Settled db) (ws : List Write) :
    label.Settled (engine.applyAll ws db) := by
  have hdoc : ∀ {tenantId id : UUID}, (∃ d ∈ db.documents, d.tenantId=tenantId ∧ d.id=id) →
      ∃ d ∈ (engine.applyAll ws db).documents, d.tenantId=tenantId ∧ d.id=id := by
    rintro tenantId id ⟨d,hd,rfl,rfl⟩
    obtain ⟨c,hc,hfacts⟩ := documents_applyAll.mpr (.inl ⟨d,hd,rfl⟩)
    exact ⟨c,hc,congrArg DocumentFacts.tenantId hfacts,congrArg DocumentFacts.id hfacts⟩
  have hversion : ∀ {tenantId id : UUID}, (∃ v ∈ db.versions, v.tenantId=tenantId ∧ v.id=id) →
      ∃ v ∈ (engine.applyAll ws db).versions, v.tenantId=tenantId ∧ v.id=id := by
    rintro tenantId id ⟨v,hv,rfl,rfl⟩
    obtain ⟨c,hc,hfacts⟩ := versions_applyAll.mpr (.inl ⟨v,hv,rfl⟩)
    exact ⟨c,hc,congrArg VersionFacts.tenantId hfacts,congrArg VersionFacts.id hfacts⟩
  cases label with
  | createSubmission => trivial
  | process => exact fun tenantId ht documentId hd => hdoc (h tenantId ht documentId hd)
  | complete => exact fun ids hids => hdoc (h ids hids)
  | reject => exact fun ids hids => ⟨hdoc (h ids hids).1,hversion (h ids hids).2⟩

/-- A transaction is begun when what its event names is in the database. -/
def Admitted (s : Interleaved) : SessionAction Transaction ℕ → Prop
  | .start _ label => label.Settled s.committed
  | _ => True

instance (s : Interleaved) (a : SessionAction Transaction ℕ) : Decidable (Admitted s a) := by
  unfold Admitted
  split <;> infer_instance

/-- The statements of interleaved transactions. -/
def interleaving (rt : Extractor.Runtime) (db : Db) :
    System Interleaved (SessionAction Transaction ℕ) :=
  Sessions.system engine (Transaction.script rt) db

theorem Sound.step {a : SessionAction Transaction ℕ} {after : Interleaved} (h : Sound rt db s)
    (hadmitted : Admitted s a) (ha : (interleaving rt db).step s a=some after) : Sound rt db after := by
  refine ⟨h.locked.step ha,h.serializable.step (h.undisturbed a) ha,?_⟩
  cases Sessions.transition_of_step ha with
  | start =>
    intro u y hy
    obtain ⟨-,hy⟩ | ⟨-,hy⟩ := Sessions.running_update hy
    · cases hy
      exact hadmitted
    · exact h.settled u y hy
  | @executed t x q next r ws hx =>
    intro u y hy
    obtain ⟨-,rfl⟩ | ⟨-,hy⟩ := Sessions.running_execute hy
    · exact h.settled t x hx
    · exact h.settled u y hy
  | raised => exact fun u y hy => h.settled u y (Sessions.running_finish hy).2
  | committed => exact fun u y hy => (h.settled u y (Sessions.running_finish hy).2).applyAll _
  | rolledBack => exact fun u y hy => h.settled u y (Sessions.running_finish hy).2

theorem sound_of_reach (h : (interleaving rt db).Reach Admitted s) : Sound rt db s :=
  h.invariant
    (fun _ hs => ⟨Sessions.locked_of_initial hs,Sessions.serializable_of_initial hs,
      fun t x hx => by rw [hs.2.2.2 t] at hx; cases hx⟩)
    (fun _ _ _ hs hok ha => hs.step hok ha)

end

/-- Transactions one after the other: what each returned or raised, and the database they leave. -/
def runAll (rt : Extractor.Runtime) : List Transaction → Db → List (Except Raised Bool) × Db
  | [], db => ([],db)
  | t::ts, db => ((t.run rt db).1::(runAll rt ts (t.run rt db).2).1,(runAll rt ts (t.run rt db).2).2)

theorem runAll_snoc (rt : Extractor.Runtime) (ts : List Transaction) (t : Transaction) (db : Db) :
    runAll rt (ts ++ [t]) db=((runAll rt ts db).1 ++ [(t.run rt (runAll rt ts db).2).1],
      (t.run rt (runAll rt ts db).2).2) := by
  induction ts generalizing db with
  | nil => rfl
  | cons u ts ih =>
    simp only [List.cons_append,runAll,ih]

/-- A script that returned did what the transaction as one function does. -/
lemma run_of_alone {rt : Extractor.Runtime} {t : Transaction} {db after : Db} {b : Bool}
    (h : (t.script rt).alone engine db=.ok (b,after)) : t.run rt db=(.ok b,after) := by
  rw [t.script_alone rt db] at h
  obtain ⟨o,ho,hret⟩ := map_eq_ok.mp h
  unfold Transaction.run
  rw [ho]
  cases o with
  | none => cases hret; rfl
  | some committed => cases hret; rfl

/-- However transactions are interleaved that begin once what their event names is committed, the
database is the one that the committed ones leave when run one after the other in the order of
their commits, and each of them returned what it returns there. -/
theorem interleaved_serial {rt : Extractor.Runtime} {db : Db} {s : Interleaved}
    (h : (interleaving rt db).Reach Admitted s) :
    runAll rt (s.history.map (·.1)) db=(s.history.map (fun x => .ok x.2),s.committed) := by
  have hserial := (sound_of_reach h).serializable.serial
  generalize s.history=history at hserial
  generalize s.committed=committed at hserial
  induction hserial with
  | nil => rfl
  | snoc _ halone ih =>
    rw [List.map_append,List.map_append,List.map_singleton,List.map_singleton,runAll_snoc,ih,
      run_of_alone halone]

/-- A small submission; its content hash repeats one digit. -/
def plainSubmission (id : UUID) (digit : PyStr) : Transaction :=
  .createSubmission ⟨1⟩ id id id.str none [] (List.replicate 64 digit).flatten [] [] 0 id
    (buildDocumentSubmittedEvent id [] ⟨1⟩ id [] none) id 0

/-- Two submissions take turns, the second one commits first, and a third one is lost. -/
def takingTurns : List (SessionAction Transaction ℕ) :=
  [.start 0 (plainSubmission ⟨2⟩ (py "a")),.start 1 (plainSubmission ⟨3⟩ (py "b")),
    .start 2 (plainSubmission ⟨4⟩ (py "c"))] ++
  (List.replicate 5 [.advance 0,.advance 1]).flatten ++ [.advance 2,.advance 2,.rollback 2,
    .commit 1,.commit 0]

/-- One tenant, and nothing under way. -/
def oneTenant : Interleaved := ⟨Db.empty [⟨1⟩],[],[],fun _ => none⟩

theorem oneTenant_reach :
    (interleaving Extractor.plainRuntime (Db.empty [⟨1⟩])).Reach Admitted oneTenant :=
  .start ⟨rfl,rfl,rfl,fun _ => rfl⟩

theorem two_submissions_serial : ∃ s : Interleaved,
    (interleaving Extractor.plainRuntime (Db.empty [⟨1⟩])).Reach Admitted s ∧ s.history.length=2 ∧
    runAll Extractor.plainRuntime (s.history.map (·.1)) (Db.empty [⟨1⟩])=
      (s.history.map (fun x => .ok x.2),s.committed) := by
  have hrun : ((interleaving Extractor.plainRuntime (Db.empty [⟨1⟩])).runIf Admitted oneTenant
      takingTurns).any (fun s => decide (s.history.length=2))=true := by decide +kernel
  obtain ⟨s,hrun,hlength⟩ := (Option.any_eq_true _ _).mp hrun
  have hreach := oneTenant_reach.runIf hrun
  exact ⟨s,hreach,of_decide_eq_true hlength,interleaved_serial hreach⟩

/-- Two deliveries of a submitted event are fetched at the same time. -/
def fetchedTwice : List (SessionAction Transaction ℕ) :=
  let payload := buildDocumentSubmittedEvent ⟨2⟩ [] ⟨1⟩ ⟨2⟩ [] none
  [.start 0 (plainSubmission ⟨2⟩ (py "a"))] ++ List.replicate 5 (.advance 0) ++ [.commit 0,
    .start 1 (.process payload none none ⟨⟨5⟩,[],⟨5⟩,1,1,1⟩),
    .start 2 (.process payload none none ⟨⟨6⟩,[],⟨6⟩,1,1,1⟩),
    .advance 1,.advance 2] ++ List.replicate 6 (.advance 1) ++ [.commit 1,.advance 2,.commit 2]

end RagIngestion.Pipeline
