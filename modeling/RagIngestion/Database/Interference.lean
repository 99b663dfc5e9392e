import RagIngestion.Database.Statements

/-! When a write of one transaction leaves a statement of another one as it was: it locks other
keys, and neither of the two is about a row that the other inserts. -/
namespace RagIngestion.Database
open RagIngestion.Python RagIngestion.Domain RagIngestion.Library

/-- The statement would find the row that the write inserts. -/
def Statement.Sees : Statement → Write → Prop
  | .selectVersion p, .version v => p v.facts=true
  | .updateVersion tenantId id _, .version v => v.tenantId=tenantId ∧ v.id=id
  | .updateDocument tenantId id _, .document d => d.tenantId=tenantId ∧ d.id=id
  | _, _ => False

/-- The first write changes the row that the second one inserts. -/
def Write.Changes : Write → Write → Prop
  | .updateVersion tenantId id _, .version v => v.tenantId=tenantId ∧ v.id=id
  | .updateDocument tenantId id _, .document d => d.tenantId=tenantId ∧ d.id=id
  | _, _ => False

/-- The row that a statement may write. -/
def Statement.write? : Statement → Option Write
  | .setConfig _ => none
  | .insertDocument d => some (.document d)
  | .insertVersion v => some (.version v)
  | .insertOutbox id event now => some (.outbox (.inserted id event now))
  | .insertFailure f => some (.failure f)
  | .claimEvent e => some (.processedEvent e)
  | .selectVersion _ => none
  | .updateVersion tenantId id f => some (.updateVersion tenantId id f)
  | .updateDocument tenantId id f => some (.updateDocument tenantId id f)

/-- Writes of different keys, neither of which changes the row of the other. -/
structure Write.Apart (v w : Write) : Prop where
  keys : List.Disjoint v.keys w.keys
  left : ¬v.Changes w
  right : ¬w.Changes v

section
variable {α : Type} {p q : α → Bool} {f g : α → α}

/-- Updates of different rows can be swapped. -/
lemma updateWhere_comm (hf : ∀ r, q (f r)=q r) (hg : ∀ r, p (g r)=p r)
    (hpq : ∀ r, p r=true → q r=false) (rows : List α) :
    updateWhere p f (updateWhere q g rows)=updateWhere q g (updateWhere p f rows) := by
  rw [updateWhere,updateWhere,updateWhere,updateWhere,List.map_map,List.map_map]
  apply List.map_congr_left
  intro r _
  by_cases hpr : p r=true
  · simp [hpr,hpq r hpr,hf]
  · by_cases hqr : q r=true
    · simp [hpr,hqr,hg]
    · simp [hpr,hqr]

lemma updateWhere_append_of_not {x : α} (hx : p x=false) (rows : List α) :
    updateWhere p f (rows ++ [x])=updateWhere p f rows ++ [x] := by
  rw [updateWhere_append]
  congr 1
  simp [updateWhere,hx]

lemma perm_append_swap (rows : List α) (x y : α) :
    (rows ++ [x] ++ [y]).Perm (rows ++ [y] ++ [x]) := by
  rw [List.append_assoc,List.append_assoc]
  exact (List.Perm.swap y x []).append_left rows

end

lemma DocumentUpdate.row (f : DocumentUpdate) (d : Document) :
    (f.set d).tenantId=d.tenantId ∧ (f.set d).id=d.id :=
  ⟨congrArg DocumentFacts.tenantId (f.facts d),congrArg DocumentFacts.id (f.facts d)⟩

lemma VersionUpdate.row (f : VersionUpdate) (v : DocumentVersion) :
    (f.set v).tenantId=v.tenantId ∧ (f.set v).id=v.id :=
  ⟨congrArg VersionFacts.tenantId (f.facts v),congrArg VersionFacts.id (f.facts v)⟩

namespace Write
variable {v w : Write}

lemma onDocuments_comm (h : Apart v w) (rows : List Document) :
    (v.onDocuments (w.onDocuments rows)).Perm (w.onDocuments (v.onDocuments rows)) := by
  cases v with
  | document a =>
    cases w with
    | document b => exact perm_append_swap rows b a
    | updateDocument tenantId id f =>
      have hother : ¬(a.tenantId=tenantId ∧ a.id=id) := h.right
      refine .of_eq (updateWhere_append_of_not ?_ rows).symm
      exact decide_eq_false hother
    | _ => exact .refl _
  | updateDocument tenantId id f =>
    cases w with
    | document b =>
      have hother : ¬(b.tenantId=tenantId ∧ b.id=id) := h.left
      refine .of_eq (updateWhere_append_of_not ?_ rows)
      exact decide_eq_false hother
    | updateDocument tenantId' id' g =>
      refine .of_eq (updateWhere_comm ?_ ?_ ?_ rows)
      · intro r
        simp only [f.row]
      · intro r
        simp only [g.row]
      · intro r hr
        obtain ⟨rfl,rfl⟩ := of_decide_eq_true hr
        apply decide_eq_false
        rintro ⟨ht,hid⟩
        rw [ht,hid] at h
        exact h.keys (List.mem_singleton_self _) (List.mem_singleton_self _)
    | _ => exact .refl _
  | _ => exact .refl _

lemma onVersions_comm (h : Apart v w) (rows : List DocumentVersion) :
    (v.onVersions (w.onVersions rows)).Perm (w.onVersions (v.onVersions rows)) := by
  cases v with
  | version a =>
    cases w with
    | version b => exact perm_append_swap rows b a
    | updateVersion tenantId id f =>
      have hother : ¬(a.tenantId=tenantId ∧ a.id=id) := h.right
      refine .of_eq (updateWhere_append_of_not ?_ rows).symm
      exact decide_eq_false hother
    | _ => exact .refl _
  | updateVersion tenantId id f =>
    cases w with
    | version b =>
      have hother : ¬(b.tenantId=tenantId ∧ b.id=id) := h.left
      refine .of_eq (updateWhere_append_of_not ?_ rows)
      exact decide_eq_false hother
    | updateVersion tenantId' id' g =>
      refine .of_eq (updateWhere_comm ?_ ?_ ?_ rows)
      · intro r
        simp only [f.row]
      · intro r
        simp only [g.row]
      · intro r hr
        obtain ⟨rfl,rfl⟩ := of_decide_eq_true hr
        apply decide_eq_false
        rintro ⟨ht,hid⟩
        rw [ht,hid] at h
        exact h.keys (List.mem_singleton_self _) (List.mem_singleton_self _)
    | _ => exact .refl _
  | _ => exact .refl _

lemma onOutbox_comm (v w : Write) (rows : List OutboxRow) :
    (v.onOutbox (w.onOutbox rows)).Perm (w.onOutbox (v.onOutbox rows)) := by
  cases v with
  | outbox a =>
    cases w with
    | outbox b => exact perm_append_swap rows b a
    | _ => exact .refl _
  | _ => exact .refl _

lemma onProcessedEvents_comm (v w : Write) (rows : List ProcessedEvent) :
    (v.onProcessedEvents (w.onProcessedEvents rows)).Perm
      (w.onProcessedEvents (v.onProcessedEvents rows)) := by
  cases v with
  | processedEvent a =>
    cases w with
    | processedEvent b => exact perm_append_swap rows b a
    | _ => exact .refl _
  | _ => exact .refl _

lemma onFailures_comm (v w : Write) (rows : List IngestionFailure) :
    (v.onFailures (w.onFailures rows)).Perm (w.onFailures (v.onFailures rows)) := by
  cases v with
  | failure a =>
    cases w with
    | failure b => exact perm_append_swap rows b a
    | _ => exact .refl _
  | _ => exact .refl _

theorem apply_comm (h : Apart v w) (db : Db) : Db.Same (v.apply (w.apply db)) (w.apply (v.apply db)) :=
  ⟨rfl,onDocuments_comm h _,onVersions_comm h _,onOutbox_comm v w _,onProcessedEvents_comm v w _,
    onFailures_comm v w _⟩

/-- An update leaves the columns alone by which statements tell contents apart. -/
lemma alike_updateVersion (tenantId id : UUID) (f : VersionUpdate) (db : Db) :
    Alike ((updateVersion tenantId id f).apply db) db :=
  ⟨rfl,.refl _,.of_eq (map_updateWhere (fun v _ => f.facts v) _),.refl _,.refl _⟩

lemma alike_updateDocument (tenantId id : UUID) (f : DocumentUpdate) (db : Db) :
    Alike ((updateDocument tenantId id f).apply db) db :=
  ⟨rfl,.of_eq (map_updateWhere (fun d _ => f.facts d) _),.refl _,.refl _,.refl _⟩

end Write

section
variable {s : Statement} {db : Db} {r : Answer s} {ws : List Write}

/-- A checked statement that succeeded still does if its check still holds. -/
lemma ite_ok_mono {ε α : Type} {p q : Prop} [Decidable p] [Decidable q] {a b : α} {e : ε}
    (h : (if p then Except.ok a else .error e)=.ok b) (hpq : p → q) :
    (if q then Except.ok a else Except.error e)=.ok b := by
  split at h
  · rw [if_pos (hpq ‹_›)]
    exact h
  · cases h

lemma writes_of_ite {ε α : Type} {p : Prop} [Decidable p] {a b : α} {ws vs : List Write} {e : ε}
    (h : (if p then Except.ok (a,vs) else .error e)=.ok (b,ws)) : ws=vs := by
  split at h
  · cases h; rfl
  · cases h

lemma exec_document {x : Document} (h : s.exec db=.ok (r,ws)) (hsees : ¬s.Sees (.document x))
    (hkeys : ∀ v ∈ ws, List.Disjoint v.keys (Write.document x).keys) :
    s.exec ((Write.document x).apply db)=.ok (r,ws) := by
  cases s with
  | insertDocument d =>
    rw [exec_insertDocument] at h ⊢
    have hws := writes_of_ite h
    subst hws
    have hd := hkeys _ (List.mem_singleton_self _)
    refine ite_ok_mono h (And.imp_right fun hall => forall_mem_snoc hall ⟨?_,?_⟩)
    · intro hid
      exact hd (a := .documentId x.id) (by simp [Write.keys,hid]) (by simp [Write.keys])
    · rintro ⟨ht,hs,he⟩
      exact hd (a := .documentSource x.tenantId x.sourceSystem x.sourceExternalId)
        (by simp [Write.keys,ht,hs,he]) (by simp [Write.keys])
  | insertVersion v =>
    rw [exec_insertVersion] at h ⊢
    refine ite_ok_mono h ?_
    rintro ⟨ht,hn,hsha,⟨d,hd,hid⟩,hv⟩
    exact ⟨ht,hn,hsha,⟨d,List.mem_append_left _ hd,hid⟩,hv⟩
  | updateDocument tenantId id f =>
    have hiff : (∃ d ∈ (Write.document x).onDocuments db.documents, d.tenantId=tenantId ∧ d.id=id) ↔
        ∃ d ∈ db.documents, d.tenantId=tenantId ∧ d.id=id := by
      refine ⟨?_,fun ⟨d,hd,hid⟩ => ⟨d,List.mem_append_left _ hd,hid⟩⟩
      rintro ⟨d,hd,hid⟩
      cases List.mem_append.mp hd with
      | inl hd => exact ⟨d,hd,hid⟩
      | inr hd =>
        rw [List.mem_singleton.mp hd] at hid
        exact absurd hid hsees
    rw [← h]
    exact if_congr hiff rfl rfl
  | insertOutbox =>
    rw [exec_insertOutbox] at h ⊢
    exact h
  | insertFailure =>
    rw [exec_insertFailure] at h ⊢
    exact h
  | claimEvent =>
    rw [exec_claimEvent] at h ⊢
    exact h
  | _ => exact h

lemma exec_version {x : DocumentVersion} (h : s.exec db=.ok (r,ws)) (hsees : ¬s.Sees (.version x))
    (hkeys : ∀ v ∈ ws, List.Disjoint v.keys (Write.version x).keys) :
    s.exec ((Write.version x).apply db)=.ok (r,ws) := by
  cases s with
  | insertVersion v =>
    rw [exec_insertVersion] at h ⊢
    have hws := writes_of_ite h
    subst hws
    have hd := hkeys _ (List.mem_singleton_self _)
    refine ite_ok_mono h ?_
    rintro ⟨ht,hn,hsha,hdoc,hall⟩
    refine ⟨ht,hn,hsha,hdoc,forall_mem_snoc hall ⟨?_,?_,?_⟩⟩
    · intro hid
      exact hd (a := .versionId x.id) (by simp [Write.keys,hid]) (by simp [Write.keys])
    · rintro ⟨ht,hdoc,hnum⟩
      exact hd (a := .versionNumber x.tenantId x.documentId x.versionNumber)
        (by simp [Write.keys,ht,hdoc,hnum]) (by simp [Write.keys])
    · rintro ⟨ht,hsha⟩
      exact hd (a := .versionContent x.tenantId x.contentSha256)
        (by simp [Write.keys,ht,hsha]) (by simp [Write.keys])
  | insertFailure f =>
    rw [exec_insertFailure] at h ⊢
    refine ite_ok_mono h ?_
    rintro ⟨ht,v,hv,hid⟩
    exact ⟨ht,v,List.mem_append_left _ hv,hid⟩
  | selectVersion p =>
    have hnot : p x.facts=false := Bool.eq_false_iff.mpr hsees
    have hsame : ((Write.version x).onVersions db.versions).filter (fun v => p v.facts)=
        db.versions.filter (fun v => p v.facts) := by
      rw [Write.onVersions,List.filter_append,List.filter_singleton,hnot]
      exact List.append_nil _
    rw [← h]
    simp only [Statement.exec,Write.apply,hsame]
  | updateVersion tenantId id f =>
    have hiff : (∃ v ∈ (Write.version x).onVersions db.versions, v.tenantId=tenantId ∧ v.id=id) ↔
        ∃ v ∈ db.versions, v.tenantId=tenantId ∧ v.id=id := by
      refine ⟨?_,Exists.imp fun v => And.imp_left (List.mem_append_left _)⟩
      rintro ⟨v,hv,hid⟩
      cases List.mem_append.mp hv with
      | inl hv => exact ⟨v,hv,hid⟩
      | inr hv =>
        rw [List.mem_singleton.mp hv] at hid
        exact absurd hid hsees
    rw [← h]
    exact if_congr hiff rfl rfl
  | updateDocument tenantId id f =>
    by_cases hd : ∃ d ∈ db.documents, d.tenantId=tenantId ∧ d.id=id
    · refine (if_pos hd).trans (ite_ok_mono ((if_pos hd).symm.trans h) ?_)
      cases hv : f.version with
      | none => exact fun _ => trivial
      | some version =>
        rintro ⟨v,hmem,hid⟩
        exact ⟨v,List.mem_append_left _ hmem,hid⟩
    · exact (if_neg hd).trans ((if_neg hd).symm.trans h)
  | insertDocument =>
    rw [exec_insertDocument] at h ⊢
    exact h
  | insertOutbox =>
    rw [exec_insertOutbox] at h ⊢
    exact h
  | claimEvent =>
    rw [exec_claimEvent] at h ⊢
    exact h
  | _ => exact h

lemma exec_outbox {x : OutboxRow} (h : s.exec db=.ok (r,ws))
    (hkeys : ∀ v ∈ ws, List.Disjoint v.keys (Write.outbox x).keys) :
    s.exec ((Write.outbox x).apply db)=.ok (r,ws) := by
  cases s with
  | insertOutbox id event now =>
    rw [exec_insertOutbox] at h ⊢
    have hws := writes_of_ite h
    subst hws
    have hd := hkeys _ (List.mem_singleton_self _)
    refine ite_ok_mono h (And.imp_right fun hall => forall_mem_snoc hall ⟨?_,?_⟩)
    · intro hid
      exact hd (a := .outboxId x.id) (by simp [Write.keys,OutboxRow.inserted,hid]) (by simp [Write.keys])
    · rintro ⟨ht,he⟩
      exact hd (a := .outboxEvent x.event.tenantId x.event.eventId)
        (by simp [Write.keys,OutboxRow.inserted,ht,he]) (by simp [Write.keys])
  | insertDocument =>
    rw [exec_insertDocument] at h ⊢
    exact h
  | insertVersion =>
    rw [exec_insertVersion] at h ⊢
    exact h
  | insertFailure =>
    rw [exec_insertFailure] at h ⊢
    exact h
  | claimEvent =>
    rw [exec_claimEvent] at h ⊢
    exact h
  | _ => exact h

lemma exec_processedEvent {x : ProcessedEvent} (h : s.exec db=.ok (r,ws))
    (hkeys : ∀ v ∈ ws, List.Disjoint v.keys (Write.processedEvent x).keys) :
    s.exec ((Write.processedEvent x).apply db)=.ok (r,ws) := by
  cases s with
  | claimEvent e =>
    rw [exec_claimEvent] at h ⊢
    split at h
    · cases h
    · rename_i ht
      refine (if_neg ht).trans ?_
      split at h
      · rename_i he
        exact (if_pos (List.mem_append_left _ he)).trans h
      · rename_i he
        have hws : [.processedEvent e]=ws := congrArg Prod.snd (Except.ok.inj h)
        have hne : e≠x := by
          rintro rfl
          refine hkeys (.processedEvent e) ?_ (a := .processedEvent e) (List.mem_singleton_self _)
            (List.mem_singleton_self _)
          rw [← hws]
          exact List.mem_singleton_self _
        refine (if_neg ?_).trans h
        intro hmem
        cases List.mem_append.mp hmem with
        | inl hmem => exact he hmem
        | inr hmem => exact hne (List.mem_singleton.mp hmem)
  | insertDocument =>
    rw [exec_insertDocument] at h ⊢
    exact h
  | insertVersion =>
    rw [exec_insertVersion] at h ⊢
    exact h
  | insertOutbox =>
    rw [exec_insertOutbox] at h ⊢
    exact h
  | insertFailure =>
    rw [exec_insertFailure] at h ⊢
    exact h
  | _ => exact h

/-- A statement answers and writes the same after a write that it neither sees nor collides with. -/
theorem Statement.exec_apply {w : Write} (h : s.exec db=.ok (r,ws)) (hsees : ¬s.Sees w)
    (hkeys : ∀ v ∈ ws, List.Disjoint v.keys w.keys) : s.exec (w.apply db)=.ok (r,ws) := by
  cases w with
  | document x => exact exec_document h hsees hkeys
  | version x => exact exec_version h hsees hkeys
  | outbox x => exact exec_outbox h hkeys
  | processedEvent x => exact exec_processedEvent h hkeys
  | failure x =>
    have halike : Alike ((Write.failure x).apply db) db := ⟨rfl,.refl _,.refl _,.refl _,.refl _⟩
    exact (halike.exec s).trans h
  | updateVersion tenantId id f => exact ((Write.alike_updateVersion tenantId id f db).exec s).trans h
  | updateDocument tenantId id f => exact ((Write.alike_updateDocument tenantId id f db).exec s).trans h

/-- A statement writes its own row, if any. -/
theorem Statement.exec_writes (h : s.exec db=.ok (r,ws)) {v : Write} (hv : v ∈ ws) :
    s.write?=some v := by
  cases s with
  | setConfig => cases h; cases hv
  | insertDocument d =>
    rw [exec_insertDocument] at h
    rw [writes_of_ite h,List.mem_singleton] at hv
    rw [hv,write?]
  | insertVersion x =>
    rw [exec_insertVersion] at h
    rw [writes_of_ite h,List.mem_singleton] at hv
    rw [hv,write?]
  | insertOutbox id event now =>
    rw [exec_insertOutbox] at h
    rw [writes_of_ite h,List.mem_singleton] at hv
    rw [hv,write?]
  | insertFailure f =>
    rw [exec_insertFailure] at h
    rw [writes_of_ite h,List.mem_singleton] at hv
    rw [hv,write?]
  | claimEvent e =>
    rw [exec_claimEvent] at h
    split at h
    · cases h
    · split at h
      · cases h; cases hv
      · cases h
        rw [List.mem_singleton.mp hv,write?]
  | selectVersion p =>
    simp only [exec] at h
    split at h
    · cases h; cases hv
    · cases h; cases hv
    · cases h
  | updateVersion tenantId id f =>
    simp only [exec] at h
    split at h
    · cases h
      rw [List.mem_singleton.mp hv,write?]
    · cases h; cases hv
  | updateDocument tenantId id f =>
    simp only [exec] at h
    split at h
    · rw [writes_of_ite h,List.mem_singleton] at hv
      rw [hv,write?]
    · cases h; cases hv

/-- What a statement changes, it sees. -/
theorem Statement.sees_of_changes {v w : Write} (hv : s.write?=some v) (hc : v.Changes w) :
    s.Sees w := by
  cases s with
  | setConfig => cases hv
  | selectVersion => cases hv
  | updateVersion tenantId id f =>
    cases hv
    cases w with
    | version x => exact hc
    | _ => exact hc.elim
  | updateDocument tenantId id f =>
    cases hv
    cases w with
    | document x => exact hc
    | _ => exact hc.elim
  | _ => cases hv; exact hc.elim

end
end RagIngestion.Database
