import RagIngestion.Database.Tenancy
import RagIngestion.Pipeline.Scripts

/-! Row-level security: the policy `tenant_isolation` on every table of a tenant, and the setting
`app.tenant_id` of a transaction that it compares with. Checks of keys bypass the policy. -/
namespace RagIngestion.Pipeline
open RagIngestion.Python RagIngestion.Domain RagIngestion.Database RagIngestion.Library
open RagIngestion.Extractor (Raised raising raising_eq_ok)

/-- `current_setting('app.tenant_id', true)`: never set, a text that is no UUID (such as the empty
text that a committed `set_config` leaves to its connection), or a tenant. -/
inductive Setting
  | missing
  | blank
  | tenant (id : UUID)
  deriving DecidableEq

/-- A statement under the policy. A row that violates `WITH CHECK` raises, a row that violates
`USING` is not there, and a comparison with a text that is no UUID raises. -/
def secured (setting : Setting) : (s : Statement) → Db → Except PyError (Answer s × List Write)
  | .setConfig tenantId, db => (Statement.setConfig tenantId).exec db
  | .insertDocument d, db =>
    if setting=.tenant d.tenantId then (Statement.insertDocument d).exec db
    else .error .databaseError
  | .insertVersion v, db =>
    if setting=.tenant v.tenantId then (Statement.insertVersion v).exec db
    else .error .databaseError
  | .insertOutbox id event now, db =>
    if setting=.tenant event.tenantId then (Statement.insertOutbox id event now).exec db
    else .error .databaseError
  | .insertFailure f, db =>
    if setting=.tenant f.tenantId then (Statement.insertFailure f).exec db
    else .error .databaseError
  | .claimEvent e, db =>
    if setting=.tenant e.tenantId then (Statement.claimEvent e).exec db
    else .error .databaseError
  | .selectVersion p, db =>
    if setting=.blank then .error .databaseError
    else (Statement.selectVersion (fun v => p v && decide (setting=.tenant v.tenantId))).exec db
  | .updateVersion tenantId id f, db =>
    if setting=.tenant tenantId then (Statement.updateVersion tenantId id f).exec db
    else if setting=.blank then .error .databaseError else .ok ((),[])
  | .updateDocument tenantId id f, db =>
    if setting=.tenant tenantId then (Statement.updateDocument tenantId id f).exec db
    else if setting=.blank then .error .databaseError else .ok ((),[])

/-- The setting after a statement. -/
def Setting.after (setting : Setting) : Statement → Setting
  | .setConfig tenantId =>
    match UUID.ofText tenantId with
    | .ok id => .tenant id
    | .error _ => .blank
  | _ => setting

lemma Setting.exists_ne (setting : Setting) : ∃ a, setting≠.tenant a := by
  by_cases h : setting=.tenant ⟨0⟩
  · exact ⟨⟨1⟩,by rw [h]; decide⟩
  · exact ⟨_,h⟩

/-- A script under the policy, from a value of the setting that an earlier transaction left. -/
def runSecured {α : Type} : Sql α → Setting → Db → Except Raised (α × Db)
  | .done a, _, db => .ok (a,db)
  | .raise e, _, _ => .error e
  | .statement s next, setting, db =>
    match raising (secured setting s db) with
    | .error e => .error e
    | .ok (r,ws) => runSecured (next r) (setting.after s) (engine.applyAll ws db)

/-- The script with its `set_config` statements left out. -/
def withoutSetting {α : Type} : Sql α → Sql α
  | .done a => .done a
  | .raise e => .raise e
  | .statement (.setConfig _) next => withoutSetting (next ())
  | .statement s next => .statement s (fun r => withoutSetting (next r))

/-- The statement is about rows of a tenant. -/
def Owned (a : UUID) : Statement → Prop
  | .setConfig tenantId => UUID.ofText tenantId=.ok a
  | .insertDocument d => d.tenantId=a
  | .insertVersion v => v.tenantId=a
  | .insertOutbox _ event _ => event.tenantId=a
  | .insertFailure f => f.tenantId=a
  | .claimEvent e => e.tenantId=a
  | .selectVersion p => ∀ v, p v=true → v.tenantId=a
  | .updateVersion tenantId _ _ => tenantId=a
  | .updateDocument tenantId _ _ => tenantId=a

/-- Under its own tenant's setting a statement does what it does without the policy. -/
theorem secured_of_owned {a : UUID} {s : Statement} (h : Owned a s) (db : Db) :
    secured (.tenant a) s db=s.exec db := by
  cases s with
  | setConfig => rfl
  | selectVersion p =>
    have hp : (fun v : VersionFacts => p v && decide (Setting.tenant a=.tenant v.tenantId))=p := by
      funext v
      cases hv : p v with
      | false => rfl
      | true =>
        rw [h v hv]
        simp
    change (if Setting.tenant a=.blank then .error .databaseError else
      (Statement.selectVersion (fun v => p v && decide (Setting.tenant a=.tenant v.tenantId))).exec db)=_
    rw [if_neg (fun h => by cases h),hp]
  | updateVersion tenantId id f =>
    replace h : tenantId=a := h
    simp only [secured,h,if_true]
  | updateDocument tenantId id f =>
    replace h : tenantId=a := h
    simp only [secured,h,if_true]
  | insertDocument d =>
    replace h : d.tenantId=a := h
    simp only [secured,h,if_true]
  | insertVersion v =>
    replace h : v.tenantId=a := h
    simp only [secured,h,if_true]
  | insertOutbox id event now =>
    replace h : event.tenantId=a := h
    simp only [secured,h,if_true]
  | insertFailure f =>
    replace h : f.tenantId=a := h
    simp only [secured,h,if_true]
  | claimEvent e =>
    replace h : e.tenantId=a := h
    simp only [secured,h,if_true]

lemma Setting.after_of_owned {a : UUID} {s : Statement} (h : Owned a s) :
    (Setting.tenant a).after s=.tenant a := by
  cases s with
  | setConfig tenantId =>
    have htext : UUID.ofText tenantId=.ok a := h
    rw [Setting.after,htext]
  | _ => rfl

section
variable {α β : Type} {a : UUID} {setting : Setting} {db : Db}

theorem runSecured_of_owned {p : Sql α} (h : p.Only (Owned a)) (db : Db) :
    runSecured p (.tenant a) db=p.alone engine db := by
  induction p generalizing db with
  | done b => rfl
  | raise e => rfl
  | statement s next ih =>
    have hexec : engine.exec s db=raising (s.exec db) := rfl
    simp only [runSecured,Script.alone,secured_of_owned h.1,Setting.after_of_owned h.1,hexec]
    cases raising (s.exec db) with
    | error e => rfl
    | ok x => exact ih x.1 (h.2 x.1) _

lemma runSecured_setConfig (u : UUID) (f : Unit → Sql β) :
    runSecured (sql (.setConfig u.str) >>= f) setting db=runSecured (f ()) (.tenant u) db := by
  change runSecured (f ()) (setting.after (.setConfig u.str)) db=_
  rw [Setting.after,UUID.ofText_str]

end

/-- After the computations before it, the script sets the tenant, and all of its statements are about
the tenant's rows; the first one on a table inserts a row. -/
def Guarded {α : Type} (a : UUID) : Sql α → Prop
  | .done _ => False
  | .raise _ => True
  | .statement (.setConfig tenantId) next => UUID.ofText tenantId=.ok a ∧ (next ()).Only (Owned a) ∧
    ∀ setting, setting≠.tenant a → ∀ db, ∃ e, runSecured (withoutSetting (next ())) setting db=.error e
  | .statement _ _ => False

section
variable {α β : Type} {a : UUID} {p : Sql α}

lemma Guarded.call {x : Except PyError α} {f : α → Sql β} (h : ∀ c, x=.ok c → Guarded a (f c)) :
    Guarded a (call x >>= f) := by
  cases x with
  | error e => trivial
  | ok c => exact h c rfl

theorem Guarded.secured (h : Guarded a p) (setting : Setting) (db : Db) :
    runSecured p setting db=p.alone engine db := by
  cases p with
  | done => cases h
  | raise e => rfl
  | statement s next =>
    cases s with
    | setConfig tenantId =>
      obtain ⟨ha,howned,-⟩ := h
      have hafter : setting.after (.setConfig tenantId)=.tenant a := by rw [Setting.after,ha]
      change runSecured (next ()) (setting.after (.setConfig tenantId)) db=(next ()).alone engine db
      rw [hafter]
      exact runSecured_of_owned howned db
    | _ => cases h

theorem Guarded.needed (h : Guarded a p) {setting : Setting} (hsetting : setting≠.tenant a) (db : Db) :
    ∃ e, runSecured (withoutSetting p) setting db=.error e := by
  cases p with
  | done => cases h
  | raise e => exact ⟨e,rfl⟩
  | statement s next =>
    cases s with
    | setConfig tenantId => exact h.2.2 setting hsetting db
    | _ => cases h

end

lemma runSecured_error {α : Type} {s : Statement} {next : Answer s → Sql α} {setting : Setting} {db : Db}
    {e : PyError} (h : secured setting s db=.error e) :
    runSecured (.statement s next) setting db=.error (.other e) := by
  simp only [runSecured,h]
  rfl

lemma payloadIds_ofText {payload : DocumentFetched} {ids : Extractor.Ids}
    (h : Extractor.payloadIds payload=.ok ids) : UUID.ofText payload.tenantId=.ok ids.tenantId := by
  obtain ⟨tenantId,ht,h⟩ := bind_eq_ok.mp h
  obtain ⟨documentId,-,h⟩ := bind_eq_ok.mp h
  obtain ⟨versionId,-,h⟩ := bind_eq_ok.mp h
  obtain ⟨eventId,-,h⟩ := bind_eq_ok.mp h
  cases h
  exact ht

section
variable {a : UUID}

theorem createSubmissionScript_guarded (documentId versionId : UUID) (sourceExternalId : PyStr)
    (title : Option PyStr) (classification contentSha256 sourceObjectUri mimeType : PyStr)
    (byteSize : ℕ) (eventId : UUID) (eventPayload : DocumentSubmitted) (outboxId : UUID) (now : Time) :
    Guarded a (createSubmissionScript a documentId versionId sourceExternalId title classification
      contentSha256 sourceObjectUri mimeType byteSize eventId eventPayload outboxId now) := by
  refine ⟨UUID.ofText_str a,?_,?_⟩
  · exact ⟨rfl,fun _ => ⟨rfl,fun _ => ⟨rfl,fun _ => ⟨rfl,fun _ => trivial⟩⟩⟩⟩
  · intro setting hsetting db
    exact ⟨_,runSecured_error (if_neg hsetting)⟩

section
variable {β : Type}

lemma owned_sql (s : Statement) {f : Answer s → Sql β} (hs : Owned a s)
    (h : ∀ r, (f r).Only (Owned a)) : Script.Only (Owned a) (sql s >>= f) := ⟨hs,h⟩

lemma owned_claim {e : ProcessedEvent} {f : Bool → Sql β} (he : e.tenantId=a)
    (h : ∀ claimed, (f claimed).Only (Owned a)) :
    Script.Only (Owned a) (sql (.claimEvent e) >>= f) := ⟨he,h⟩

lemma owned_select {p : VersionFacts → Bool} {f : Option VersionFacts → Sql β}
    (hp : ∀ v, p v=true → v.tenantId=a) (h : ∀ version, (f version).Only (Owned a)) :
    Script.Only (Owned a) (sql (.selectVersion p) >>= f) := ⟨hp,h⟩

end

lemma owned_enqueueFailure {payload : DocumentSubmitted} {error : Fetcher.FetchValidationError}
    {draws : Draws} (ht : UUID.ofText payload.tenantId=.ok a) :
    (enqueueFailureScript payload error draws).Only (Owned a) := by
  unfold enqueueFailureScript
  rw [ht]
  change Script.Only (Owned a) (call (UUID.ofText payload.documentId) >>= fun documentId => _)
  refine Script.Only.bind (Script.only_lift _) fun documentId => ?_
  refine Script.Only.bind (Script.only_lift _) fun correlationId => ?_
  refine Script.Only.bind (Script.only_lift _) fun causationId => ?_
  exact ⟨rfl,fun _ => trivial⟩

theorem processScript_guarded {payload : DocumentSubmitted}
    {inspection : Option Fetcher.SourceInspection} {error : Option Fetcher.FetchValidationError}
    {draws : Draws} (ht : ∀ b, UUID.ofText payload.tenantId=.ok b → b=a) :
    Guarded a (processScript payload inspection error draws) := by
  refine Guarded.call fun tenantId htenant => ?_
  refine Guarded.call fun documentId _ => ?_
  refine Guarded.call fun eventId _ => ?_
  obtain rfl := ht tenantId htenant
  refine ⟨UUID.ofText_str _,?_,?_⟩
  · refine owned_claim rfl fun claimed => ?_
    cases claimed with
    | false => trivial
    | true =>
      refine owned_select (fun v hv => (of_decide_eq_true hv).1) fun version => ?_
      cases version with
      | none => exact (owned_enqueueFailure htenant).bind fun _ => trivial
      | some version =>
        dsimp only
        split
        · refine owned_sql (.updateVersion _ _ _) rfl fun _ => ?_
          refine owned_sql (.updateDocument _ _ _) rfl fun _ => ?_
          refine owned_sql (.insertFailure _) rfl fun _ => ?_
          exact (owned_enqueueFailure htenant).bind fun _ => trivial
        · split
          · trivial
          · refine owned_sql (.updateVersion _ _ _) rfl fun _ => ?_
            refine owned_sql (.updateDocument _ _ _) rfl fun _ => ?_
            refine (Script.only_lift _).bind fun correlationId => ?_
            exact owned_sql (.insertOutbox _ _ _) rfl fun _ => trivial
  · intro setting hsetting db
    exact ⟨_,runSecured_error (if_neg hsetting)⟩

theorem completeScript_guarded {rt : Extractor.Runtime} {payload : DocumentFetched}
    {result : Extractor.ExtractionResult} {normalizedUri manifestUri : PyStr} {draws : Draws}
    (ht : ∀ b, UUID.ofText payload.tenantId=.ok b → b=a) :
    Guarded a (completeScript rt payload result normalizedUri manifestUri draws) := by
  refine Guarded.call fun ids hids => ?_
  obtain rfl := ht ids.tenantId (payloadIds_ofText hids)
  refine ⟨UUID.ofText_str _,?_,?_⟩
  · refine owned_claim rfl fun claimed => ?_
    cases claimed with
    | false => trivial
    | true =>
      refine owned_select (fun v hv => (of_decide_eq_true hv).1) fun version => ?_
      cases version with
      | none => trivial
      | some version =>
        refine owned_sql (.updateVersion _ _ _) rfl fun _ => ?_
        refine owned_sql (.updateDocument _ _ _) rfl fun _ => ?_
        refine (Script.only_lift _).bind fun correlationId => ?_
        exact owned_sql (.insertOutbox _ _ _) rfl fun _ => trivial
  · intro setting hsetting db
    exact ⟨_,runSecured_error (if_neg hsetting)⟩

theorem rejectScript_guarded {payload : DocumentFetched} {error : Extractor.ExtractionError}
    {draws : Draws} (ht : ∀ b, UUID.ofText payload.tenantId=.ok b → b=a) :
    Guarded a (rejectScript payload error draws) := by
  refine Guarded.call fun ids hids => ?_
  obtain rfl := ht ids.tenantId (payloadIds_ofText hids)
  refine ⟨UUID.ofText_str _,?_,?_⟩
  · refine owned_claim rfl fun claimed => ?_
    cases claimed with
    | false => trivial
    | true =>
      refine owned_sql (.updateVersion _ _ _) rfl fun _ => ?_
      refine owned_sql (.updateDocument _ _ _) rfl fun _ => ?_
      refine (Script.only_lift _).bind fun correlationId => ?_
      exact owned_sql (.insertOutbox _ _ _) rfl fun _ => trivial
  · intro setting hsetting db
    exact ⟨_,runSecured_error (if_neg hsetting)⟩

theorem Transaction.script_guarded (rt : Extractor.Runtime) {t : Transaction}
    (ht : ∀ b, t.tenant=.ok b → b=a) : Guarded a (t.script rt) := by
  cases t with
  | createSubmission tenantId =>
    obtain rfl := ht tenantId rfl
    exact createSubmissionScript_guarded ..
  | process => exact processScript_guarded ht
  | complete => exact completeScript_guarded ht
  | reject => exact rejectScript_guarded ht

end

/-- A transaction does under the policies what it does without them, whatever an earlier transaction
left in the setting of its connection; and it cannot do without its `set_config`. -/
theorem Transaction.row_security_agrees (rt : Extractor.Runtime) (t : Transaction) (setting : Setting)
    (db : Db) :
    runSecured (t.script rt) setting db=(t.statements rt db).map (returned db) ∧
      ((∀ a, t.tenant=.ok a → setting≠.tenant a) →
        ∃ e, runSecured (withoutSetting (t.script rt)) setting db=.error e) := by
  have hguarded : ∀ a, (∀ b, t.tenant=.ok b → b=a) → Guarded a (t.script rt) :=
    fun a => Transaction.script_guarded rt
  cases ht : t.tenant with
  | ok a =>
    have h := hguarded a (fun b hb => Except.ok.inj (hb.symm.trans ht))
    refine ⟨(h.secured setting db).trans (t.script_alone rt db),?_⟩
    exact fun hsetting => h.needed (hsetting a rfl) db
  | error e =>
    obtain ⟨a,ha⟩ := setting.exists_ne
    have h := hguarded a (fun b hb => by cases hb.symm.trans ht)
    exact ⟨(h.secured setting db).trans (t.script_alone rt db),fun _ => h.needed ha db⟩

/-- The script never sets the tenant. -/
def Silent {α : Type} (c : UUID) (p : Sql α) : Prop :=
  p.Only (fun s => ∀ tenantId, s=.setConfig tenantId → UUID.ofText tenantId≠.ok c)

lemma Setting.after_ne {c : UUID} {setting : Setting} {s : Statement} (h : setting≠.tenant c)
    (hs : ∀ tenantId, s=.setConfig tenantId → UUID.ofText tenantId≠.ok c) :
    setting.after s≠.tenant c := by
  cases s with
  | setConfig tenantId =>
    intro hafter
    rw [Setting.after] at hafter
    split at hafter
    · rename_i id hid
      cases hafter
      exact hs tenantId rfl hid
    · cases hafter
  | _ => exact h

/-- The tenant of a written row. -/
def rowTenant : Write → UUID
  | .document d => d.tenantId
  | .version v => v.tenantId
  | .outbox r => r.event.tenantId
  | .failure f => f.tenantId
  | .processedEvent e => e.tenantId
  | .updateVersion tenantId _ _ => tenantId
  | .updateDocument tenantId _ _ => tenantId

lemma restrict_apply {p : UUID → Bool} {w : Write} (hp : p (rowTenant w)=true) (db : Db) :
    (w.apply db).restrict p=w.apply (db.restrict p) := by
  cases w with
  | updateVersion tenantId id f =>
    simp only [Db.restrict,Write.apply,Write.onDocuments,Write.onVersions,Write.onOutbox,
      Write.onProcessedEvents,Write.onFailures,Db.mk.injEq,true_and,and_true]
    exact filter_updateWhere (p := fun v => p v.tenantId) (fun v => congrArg p (f.row v).1) _
  | updateDocument tenantId id f =>
    simp only [Db.restrict,Write.apply,Write.onDocuments,Write.onVersions,Write.onOutbox,
      Write.onProcessedEvents,Write.onFailures,Db.mk.injEq,true_and,and_true]
    exact filter_updateWhere (p := fun d => p d.tenantId) (fun d => congrArg p (f.row d).1) _
  | _ =>
    rw [rowTenant] at hp
    simp [Db.restrict,Write.apply,Write.onDocuments,Write.onVersions,Write.onOutbox,
      Write.onProcessedEvents,Write.onFailures,hp]

lemma restrict_apply_of_not {p : UUID → Bool} {w : Write} (hp : p (rowTenant w)=false) (db : Db) :
    (w.apply db).restrict p=db.restrict p := by
  cases w with
  | updateVersion tenantId id f =>
    simp only [Db.restrict,Write.apply,Write.onDocuments,Write.onVersions,Write.onOutbox,
      Write.onProcessedEvents,Write.onFailures,Db.mk.injEq,true_and,and_true]
    refine filter_updateWhere_of_disjoint (p := fun v => p v.tenantId)
      (fun v => congrArg p (f.row v).1) ?_ _
    intro v hv
    apply decide_eq_false
    rintro ⟨ht,-⟩
    rw [ht] at hv
    cases hv.symm.trans hp
  | updateDocument tenantId id f =>
    simp only [Db.restrict,Write.apply,Write.onDocuments,Write.onVersions,Write.onOutbox,
      Write.onProcessedEvents,Write.onFailures,Db.mk.injEq,true_and,and_true]
    refine filter_updateWhere_of_disjoint (p := fun d => p d.tenantId)
      (fun d => congrArg p (f.row d).1) ?_ _
    intro d hd
    apply decide_eq_false
    rintro ⟨ht,-⟩
    rw [ht] at hd
    cases hd.symm.trans hp
  | _ =>
    rw [rowTenant] at hp
    simp [Db.restrict,Write.apply,Write.onDocuments,Write.onVersions,Write.onOutbox,
      Write.onProcessedEvents,Write.onFailures,hp]

section
variable {c : UUID} {ws : List Write} {db db' : Db}

theorem rowsOf_applyAll (h : ∀ w ∈ ws, rowTenant w≠c) :
    (engine.applyAll ws db).rowsOf c=db.rowsOf c := by
  induction ws generalizing db with
  | nil => rfl
  | cons w ws ih =>
    rw [List.forall_mem_cons] at h
    rw [Engine.applyAll_cons,ih h.2]
    exact restrict_apply_of_not (decide_eq_false h.1) db

theorem othersOf_applyAll (h : db.othersOf c=db'.othersOf c) :
    (engine.applyAll ws db).othersOf c=(engine.applyAll ws db').othersOf c := by
  induction ws generalizing db db' with
  | nil => exact h
  | cons w ws ih =>
    refine ih ?_
    cases hw : decide (rowTenant w≠c) with
    | true => exact (restrict_apply hw db).trans ((congrArg w.apply h).trans (restrict_apply hw db').symm)
    | false =>
      exact (restrict_apply_of_not hw db).trans (h.trans (restrict_apply_of_not hw db').symm)

end

section
variable {c : UUID} {setting : Setting} {s : Statement} {db db' : Db}

lemma ok_of_ite {ε α : Type} {p : Prop} [Decidable p] {x : Except ε α} {e : ε} {y : α}
    (h : (if p then x else .error e)=.ok y) : p ∧ x=.ok y := by
  split at h
  · exact ⟨‹p›,h⟩
  · cases h

lemma ok_of_not_ite {ε α : Type} {p : Prop} [Decidable p] {x : Except ε α} {e : ε} {y : α}
    (h : (if p then .error e else x)=.ok y) : ¬p ∧ x=.ok y := by
  split at h
  · cases h
  · exact ⟨‹¬p›,h⟩

/-- What passes the policy is a statement of the tenant of the setting, or has no writes. -/
theorem secured_tenant {x : Answer s × List Write} (h : secured setting s db=.ok x) :
    ∀ w ∈ x.2, setting=.tenant (rowTenant w) := by
  have hwrite : ∀ {s : Statement} {y : Answer s × List Write}, s.exec db=.ok y → ∀ w ∈ y.2,
      s.write?=some w := fun h w hw => Statement.exec_writes h hw
  cases s with
  | setConfig tenantId => exact fun w hw => by cases hwrite (s := .setConfig tenantId) h w hw
  | selectVersion p =>
    simp only [secured] at h
    split at h
    · cases h
    · exact fun w hw => by cases hwrite (s := .selectVersion _) h w hw
  | updateVersion tenantId id f =>
    simp only [secured] at h
    split at h
    · intro w hw
      cases hwrite h w hw
      assumption
    · cases (ok_of_not_ite h).2
      exact fun w hw => by cases hw
  | updateDocument tenantId id f =>
    simp only [secured] at h
    split at h
    · intro w hw
      cases hwrite h w hw
      assumption
    · cases (ok_of_not_ite h).2
      exact fun w hw => by cases hw
  | _ =>
    intro w hw
    obtain ⟨hsetting,hexec⟩ := ok_of_ite h
    cases hwrite hexec w hw
    exact hsetting

lemma filter_versions_of_others (h : db.othersOf c=db'.othersOf c) {q : DocumentVersion → Bool}
    (hq : ∀ v, q v=true → v.tenantId≠c) : db.versions.filter q=db'.versions.filter q := by
  have hthrough : ∀ rows : List DocumentVersion,
      (rows.filter (fun v => v.tenantId≠c)).filter q=rows.filter q := by
    intro rows
    rw [List.filter_filter]
    apply List.filter_congr
    intro v _
    cases hv : q v with
    | false => simp
    | true => simp [hq v hv]
  have hversions : db.versions.filter (fun v => v.tenantId≠c)=
    db'.versions.filter (fun v => v.tenantId≠c) := congrArg Db.versions h
  rw [← hthrough,hversions,hthrough]

lemma exists_version_of_others (h : db.othersOf c=db'.othersOf c) {tenantId : UUID} (ht : tenantId≠c)
    (id : UUID) : (∃ v ∈ db.versions, v.tenantId=tenantId ∧ v.id=id) ↔
      ∃ v ∈ db'.versions, v.tenantId=tenantId ∧ v.id=id := by
  have hversions : db.versions.filter (fun v => v.tenantId≠c)=
    db'.versions.filter (fun v => v.tenantId≠c) := congrArg Db.versions h
  rw [← exists_mem_filter_iff (p := fun v => v.tenantId≠c) (fun v h => h.1 ▸ ht),hversions,
    exists_mem_filter_iff (fun v h => h.1 ▸ ht)]

/-- Under the setting of another tenant, a statement that passes on two databases that differ in the
rows of a tenant answers and writes the same. -/
theorem secured_agree {x y : Answer s × List Write} (hsetting : setting≠.tenant c)
    (hothers : db.othersOf c=db'.othersOf c) (hx : secured setting s db=.ok x)
    (hy : secured setting s db'=.ok y) : x=y := by
  cases s with
  | setConfig => exact Except.ok.inj (hx.symm.trans hy)
  | selectVersion p =>
    refine Except.ok.inj ((ok_of_not_ite hx).2.symm.trans (Eq.trans ?_ (ok_of_not_ite hy).2))
    simp only [Statement.exec]
    have hfound := filter_versions_of_others hothers
      (q := fun v => p v.facts && decide (setting=.tenant v.facts.tenantId)) ?_
    · rw [hfound]
    · intro v hv
      rw [Bool.and_eq_true,decide_eq_true_eq] at hv
      exact fun h => hsetting (hv.2.trans (congrArg _ h))
  | claimEvent e =>
    obtain ⟨hown,hx⟩ := ok_of_ite hx
    have hy := (ok_of_ite hy).2
    have he : e.tenantId≠c := fun h => hsetting (hown.trans (congrArg _ h))
    have hevents : db.processedEvents.filter (fun e => e.tenantId≠c)=
      db'.processedEvents.filter (fun e => e.tenantId≠c) := congrArg Db.processedEvents hothers
    have htenants : db.tenants=db'.tenants :=
      (congrArg Db.tenants hothers : (db.othersOf c).tenants=(db'.othersOf c).tenants)
    have hmem : e ∈ db.processedEvents ↔ e ∈ db'.processedEvents := by
      have := congrArg (e ∈ ·) hevents
      simpa [he] using this
    rw [exec_claimEvent] at hx hy
    simp only [hmem,htenants] at hx
    exact Except.ok.inj (hx.symm.trans hy)
  | updateVersion tenantId id f =>
    simp only [secured] at hx hy
    split at hx
    · rename_i hown
      rw [if_pos hown] at hy
      have ht : tenantId≠c := fun h => hsetting (hown.trans (congrArg _ h))
      simp only [Statement.exec,exists_version_of_others hothers ht] at hx
      exact Except.ok.inj (hx.symm.trans hy)
    · rename_i hother
      rw [if_neg hother] at hy
      exact Except.ok.inj (hx.symm.trans hy)
  | updateDocument tenantId id f =>
    simp only [secured] at hx hy
    split at hx
    · rename_i hown
      rw [if_pos hown] at hy
      have ht : tenantId≠c := fun h => hsetting (hown.trans (congrArg _ h))
      have hdocument : (∃ d ∈ db.documents, d.tenantId=tenantId ∧ d.id=id) ↔
          ∃ d ∈ db'.documents, d.tenantId=tenantId ∧ d.id=id := by
        have hd : db.documents.filter (fun d => d.tenantId≠c)=
          db'.documents.filter (fun d => d.tenantId≠c) := congrArg Db.documents hothers
        rw [← exists_mem_filter_iff (p := fun d => d.tenantId≠c) (fun d h => h.1 ▸ ht),hd,
          exists_mem_filter_iff (fun d h => h.1 ▸ ht)]
      have hrefers : refersTo tenantId f.version db ↔ refersTo tenantId f.version db' := by
        unfold refersTo
        split
        · rfl
        · exact exists_version_of_others hothers ht _
      simp only [Statement.exec,hdocument,hrefers] at hx
      exact Except.ok.inj (hx.symm.trans hy)
    · rename_i hother
      rw [if_neg hother] at hy
      exact Except.ok.inj (hx.symm.trans hy)
  | insertDocument d =>
    have h := (exec_insertDocument d db).symm.trans (ok_of_ite hx).2
    have h' := (exec_insertDocument d db').symm.trans (ok_of_ite hy).2
    exact Except.ok.inj ((ok_of_ite h).2.symm.trans (ok_of_ite h').2)
  | insertVersion v =>
    have h := (exec_insertVersion v db).symm.trans (ok_of_ite hx).2
    have h' := (exec_insertVersion v db').symm.trans (ok_of_ite hy).2
    exact Except.ok.inj ((ok_of_ite h).2.symm.trans (ok_of_ite h').2)
  | insertOutbox id event now =>
    have h := (exec_insertOutbox id event now db).symm.trans (ok_of_ite hx).2
    have h' := (exec_insertOutbox id event now db').symm.trans (ok_of_ite hy).2
    exact Except.ok.inj ((ok_of_ite h).2.symm.trans (ok_of_ite h').2)
  | insertFailure f =>
    have h := (exec_insertFailure f db).symm.trans (ok_of_ite hx).2
    have h' := (exec_insertFailure f db').symm.trans (ok_of_ite hy).2
    exact Except.ok.inj ((ok_of_ite h).2.symm.trans (ok_of_ite h').2)

end

section
variable {α : Type} {c : UUID} {p : Sql α} {setting : Setting}

theorem runSecured_rowsOf (hp : Silent c p) (hsetting : setting≠.tenant c) {db after : Db} {r : α}
    (h : runSecured p setting db=.ok (r,after)) : after.rowsOf c=db.rowsOf c := by
  induction p generalizing setting db with
  | done a =>
    cases h
    rfl
  | raise e => cases h
  | statement s next ih =>
    rw [runSecured] at h
    cases hs : secured setting s db with
    | error e =>
      rw [hs] at h
      cases h
    | ok x =>
      rw [hs] at h
      refine (ih x.1 (hp.2 x.1) (Setting.after_ne hsetting hp.1) h).trans (rowsOf_applyAll ?_)
      intro w hw hc
      exact hsetting (hc ▸ secured_tenant hs w hw)

theorem runSecured_agree (hp : Silent c p) (hsetting : setting≠.tenant c) {db db' after after' : Db}
    {r r' : α} (hothers : db.othersOf c=db'.othersOf c) (h : runSecured p setting db=.ok (r,after))
    (h' : runSecured p setting db'=.ok (r',after')) : r=r' ∧ after.othersOf c=after'.othersOf c := by
  induction p generalizing setting db db' with
  | done a =>
    cases h
    cases h'
    exact ⟨rfl,hothers⟩
  | raise e => cases h
  | statement s next ih =>
    rw [runSecured] at h h'
    cases hs : secured setting s db with
    | error e =>
      rw [hs] at h
      cases h
    | ok x =>
      cases hs' : secured setting s db' with
      | error e =>
        rw [hs'] at h'
        cases h'
      | ok y =>
        rw [hs] at h
        rw [hs'] at h'
        obtain rfl := secured_agree hsetting hothers hs hs'
        exact ih x.1 (hp.2 x.1) (Setting.after_ne hsetting hp.1) (othersOf_applyAll hothers) h h'

end

/-- Whatever its statements are, a transaction that never sets a tenant leaves the tenant's rows as
they are, and of what it does when it succeeds nothing depends on them. -/
theorem unset_tenant_isolated {α : Type} (c : UUID) (p : Sql α) (hp : Silent c p) (setting : Setting)
    (hsetting : setting≠.tenant c) :
    (∀ db r after, runSecured p setting db=.ok (r,after) → after.rowsOf c=db.rowsOf c) ∧
      ∀ db db' r r' after after', db.othersOf c=db'.othersOf c →
        runSecured p setting db=.ok (r,after) → runSecured p setting db'=.ok (r',after') →
          r=r' ∧ after.othersOf c=after'.othersOf c :=
  ⟨fun _ _ _ h => runSecured_rowsOf hp hsetting h,
    fun _ _ _ _ _ _ hothers h h' => runSecured_agree hp hsetting hothers h h'⟩

/-- A query of the tenant with UUID 1 that forgets to name its tenant. -/
def anyVersion : Sql (Option VersionFacts) :=
  sql (.setConfig (UUID.mk 1).str) >>= fun _ => sql (.selectVersion (fun _ => true))

/-- The other tenant has a version. -/
def twoTenantsOneVersion : Db :=
  { Transaction.twoTenants with versions := [Submission.newVersion ⟨7⟩ ⟨8⟩ ⟨9⟩ (hexdigest (plainSha256 plainSource))
      (py "s3://rag-source/report") (py "application/pdf") 5 0] }

theorem any_version_isolated :
    runSecured anyVersion .missing twoTenantsOneVersion=.ok (none,twoTenantsOneVersion) ∧
      Transaction.twoTenants.othersOf ⟨7⟩=twoTenantsOneVersion.othersOf ⟨7⟩ := by
  have hsilent : Silent ⟨7⟩ anyVersion := by
    refine ⟨?_,fun _ => ⟨fun _ h => (by cases h),fun _ => trivial⟩⟩
    rintro _ ⟨⟩
    rw [UUID.ofText_str]
    exact fun h => absurd (Except.ok.inj h) (by decide)
  have hsetting : Setting.missing≠.tenant ⟨7⟩ := fun h => by cases h
  obtain ⟨-,hagree⟩ := unset_tenant_isolated ⟨7⟩ anyVersion hsilent .missing hsetting
  have hothers : Transaction.twoTenants.othersOf ⟨7⟩=twoTenantsOneVersion.othersOf ⟨7⟩ := rfl
  have h : runSecured anyVersion .missing Transaction.twoTenants=.ok (none,Transaction.twoTenants) :=
    (runSecured_setConfig _ _).trans rfl
  have h' : runSecured anyVersion .missing twoTenantsOneVersion=.ok (none,twoTenantsOneVersion) :=
    (runSecured_setConfig _ _).trans rfl
  exact ⟨h',(hagree _ _ _ _ _ _ hothers h h').2⟩

end RagIngestion.Pipeline
