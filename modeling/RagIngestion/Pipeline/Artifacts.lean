import RagIngestion.Pipeline.Extractions
import RagIngestion.Pipeline.Lifecycle

/-! Whether the artifacts of a version are those of the result it records. Artifact keys depend on the
version and the hash of its content only, artifacts are stored before the event is claimed, and a
store replaces what was there. -/
namespace RagIngestion.Pipeline
open RagIngestion.Python RagIngestion.Domain RagIngestion.Database RagIngestion.Storage
open RagIngestion.Library

/-- The installation that a step uses: every extractor call may run its own release. -/
def Config.installed (c : Config) (rt : ℕ → Extractor.Runtime) : Action → Config
  | .extract t _ => { c with rt := rt t }
  | _ => c

def mixedSystem (c : Config) (rt : ℕ → Extractor.Runtime) : System World Action where
  init := Initial
  step := fun w a => step (c.installed rt a) w a

/-- The last completion of the version of `ids` in the past: of this payload, with this result. -/
def LastCompletion (past : List (World × Action)) (p : DocumentFetched) (ids : Extractor.Ids)
    (result : Extractor.ExtractionResult) : Prop :=
  ∃ before x later, past=before ++ x::later ∧ Completes x.1 x.2 p ids result ∧
    ∀ y ∈ later, ∀ p' ids' r', Completes y.1 y.2 p' ids' r' → ids'.versionId≠ids.versionId

/-- The key holds the JSON of the value. -/
def Holds (w : World) (key : PyStr) (value : List (PyStr × Json)) : Prop :=
  ∃ body, Extractor.artifactBody value=.ok body ∧ w.artifacts key=some body

/-- Both artifacts of a payload are those of the result. -/
def OwnArtifacts (w : World) (p : DocumentFetched) (ids : Extractor.Ids)
    (result : Extractor.ExtractionResult) : Prop :=
  Holds w (Extractor.normalizedKey ids p) result.normalized ∧
    Holds w (Extractor.manifestKey ids p) (Extractor.manifestArtifact p result)

/-- Each completed version has the URIs, the status and the quality summary of the result it was
completed with, and the objects at its URIs are the JSON of that result. -/
def Agreement (bucket : BucketName) (past : List (World × Action)) (w : World) : Prop :=
  ∀ p ids result, LastCompletion past p ids result →
    OwnArtifacts w p ids result ∧
      completedColumns bucket p ids result ∈ w.db.versions.map columns

/-- The step replaces an object that a version records, completes a version although one of its own
objects was replaced, or rejects a completed version. -/
inductive Disturbs (bucket : BucketName) (w : World) (a : Action) : Prop
  | replaces {key body v} (h : Puts w a key body) (hv : v ∈ w.db.versions)
      (huri : v.normalizedObjectUri=some (objectUri bucket key) ∨
        v.extractionManifestUri=some (objectUri bucket key))
      (hne : w.artifacts key≠some body)
  | stale {p ids result} (h : Completes w a p ids result) (hne : ¬OwnArtifacts w p ids result)
  | overrules {ids v} (h : Refuses w a ids) (hv : v ∈ w.db.versions)
      (ht : v.tenantId=ids.tenantId) (hid : v.id=ids.versionId) (huri : v.normalizedObjectUri≠none)

/-- The columns of a version that is not completed, or of one after its last completion. -/
inductive Backed (bucket : BucketName) (past : List (World × Action)) (x : ExtractionColumns) : Prop
  | pending (hn : x.normalizedObjectUri=none) (hm : x.extractionManifestUri=none)
  | completed {p ids result} (h : LastCompletion past p ids result) (hid : x.id=ids.versionId)
      (ht : x.tenantId=ids.tenantId) (hstatus : result.extractionStatus≠.failed)
      (hn : x.normalizedObjectUri=some (objectUri bucket (Extractor.normalizedKey ids p)))
      (hm : x.extractionManifestUri=some (objectUri bucket (Extractor.manifestKey ids p)))

structure Tracked (bucket : BucketName) (past : List (World × Action)) (w : World) : Prop where
  addressed : ∀ t, Addressed bucket (w.extracting t)
  ids : (w.db.versions.map (·.id)).Nodup
  backed : ∀ x ∈ w.db.versions.map columns, Backed bucket past x

variable {bucket : BucketName} {past : List (World × Action)} {w after : World} {a : Action}
  {p : DocumentFetched} {ids : Extractor.Ids} {result : Extractor.ExtractionResult}

theorem lastCompletion_snoc {x : World × Action} :
    LastCompletion (past ++ [x]) p ids result ↔
      Completes x.1 x.2 p ids result ∨ LastCompletion past p ids result ∧
        ∀ p' ids' r', Completes x.1 x.2 p' ids' r' → ids'.versionId≠ids.versionId := by
  constructor
  · rintro ⟨before,y,later,hpast,hy,hlater⟩
    cases later using List.reverseRecOn with
    | nil =>
      obtain ⟨-,hx⟩ := List.append_inj' hpast rfl
      cases hx
      exact .inl hy
    | append_singleton later z =>
      have hsplit : past ++ [x]=(before ++ y::later) ++ [z] := by simpa using hpast
      obtain ⟨hbefore,hx⟩ := List.append_inj' hsplit rfl
      cases hx
      refine .inr ⟨⟨before,y,later,hbefore,hy,?_⟩,hlater x (by simp)⟩
      intro z hz
      exact hlater z (List.mem_append_left _ hz)
  · rintro (hx | ⟨⟨before,y,later,rfl,hy,hlater⟩,hx⟩)
    · exact ⟨past,x,[],rfl,hx,by simp⟩
    · refine ⟨before,y,later ++ [x],by simp,hy,?_⟩
      intro z hz
      cases List.mem_append.mp hz with
      | inl hz => exact hlater z hz
      | inr hz => exact List.mem_singleton.mp hz ▸ hx

/-- A step that completes nothing leaves the last completions as they are. -/
lemma lastCompletion_other (h : ∀ p ids r, ¬Completes w a p ids r) :
    LastCompletion (past ++ [(w,a)]) p ids result ↔ LastCompletion past p ids result := by
  rw [lastCompletion_snoc,or_iff_right (h p ids result)]
  exact and_iff_left (fun p' ids' r' hc => absurd hc (h p' ids' r'))

lemma Puts.not_completes {key : PyStr} {body : Bytes} (h : Puts w a key body) :
    ¬Completes w a p ids result := by
  cases h <;> rintro ⟨⟩

lemma Puts.not_refuses {key : PyStr} {body : Bytes} (h : Puts w a key body) : ¬Refuses w a ids := by
  cases h <;> rintro ⟨⟩

lemma Completes.not_refuses (h : Completes w a p ids result) {ids' : Extractor.Ids} :
    ¬Refuses w a ids' := by
  cases h
  rintro ⟨⟩

lemma Refuses.not_completes (h : Refuses w a ids) {ids' : Extractor.Ids} :
    ¬Completes w a p ids' result := by
  cases h
  rintro ⟨⟩

lemma Holds.congr {key : PyStr} {value : List (PyStr × Json)} (h : w.artifacts key=after.artifacts key) :
    Holds w key value ↔ Holds after key value := by
  rw [Holds,Holds,h]

lemma ownArtifacts_congr (h : after.artifacts=w.artifacts) :
    OwnArtifacts after p ids result ↔ OwnArtifacts w p ids result := by
  rw [OwnArtifacts,OwnArtifacts,Holds.congr (congrFun h _),Holds.congr (congrFun h _)]

/-- Columns that are no less after a step than before it. -/
lemma mem_columns_append {versions : List DocumentVersion} {v : DocumentVersion}
    {x : ExtractionColumns} (h : x ∈ versions.map columns) : x ∈ (versions ++ [v]).map columns := by
  rw [List.map_append]
  exact List.mem_append_left _ h

/-- A row the update does not touch keeps its columns. -/
lemma mem_columns_updateWhere {q : DocumentVersion → Bool} {f : DocumentVersion → DocumentVersion}
    {versions : List DocumentVersion} {x : ExtractionColumns} (h : x ∈ versions.map columns)
    (hx : ∀ v ∈ versions, columns v=x → q v=false) : x ∈ (updateWhere q f versions).map columns := by
  obtain ⟨v,hv,hcolumns⟩ := List.mem_map.mp h
  refine List.mem_map.mpr ⟨v,mem_updateWhere.mpr ⟨v,hv,?_⟩,hcolumns⟩
  rw [hx v hv hcolumns]
  rfl

lemma Agreement.kept (hagree : Agreement bucket past w) (hnone : ∀ p ids r, ¬Completes w a p ids r)
    (hown : ∀ p ids r, LastCompletion past p ids r → OwnArtifacts w p ids r →
      completedColumns bucket p ids r ∈ w.db.versions.map columns → OwnArtifacts after p ids r)
    (hcolumns : ∀ p ids r, completedColumns bucket p ids r ∈ w.db.versions.map columns →
      completedColumns bucket p ids r ∈ after.db.versions.map columns) :
    Agreement bucket (past ++ [(w,a)]) after := by
  intro p ids result h
  have h := (lastCompletion_other hnone).mp h
  obtain ⟨hartifacts,hrow⟩ := hagree p ids result h
  exact ⟨hown p ids result h hartifacts hrow,hcolumns p ids result hrow⟩

/-- A key still holds a value after a store, unless other bytes replaced it. -/
lemma Holds.update {key k : PyStr} {body : Bytes} {value : List (PyStr × Json)}
    (hartifacts : after.artifacts=Function.update w.artifacts key (some body))
    (h : Holds w k value) (hsame : k=key → w.artifacts key=some body) : Holds after k value := by
  by_cases hk : k=key
  · refine (Holds.congr ?_).mp h
    rw [hk,hsame hk,hartifacts,Function.update_self]
  · refine (Holds.congr ?_).mp h
    rw [hartifacts,Function.update_of_ne hk]

/-- If a key holds a value before a store to it and after it, then the store changed nothing. -/
lemma Holds.unchanged {key : PyStr} {body : Bytes} {value : List (PyStr × Json)}
    (hartifacts : after.artifacts=Function.update w.artifacts key (some body))
    (h : Holds w key value) (hafter : Holds after key value) : w.artifacts key=some body := by
  obtain ⟨stored,hstored,hbefore⟩ := h
  obtain ⟨stored',hstored',hnow⟩ := hafter
  cases hstored.symm.trans hstored'
  rw [hartifacts,Function.update_self] at hnow
  rw [hbefore,hnow]

/-- A store disturbs exactly when it replaces an object that a version records. -/
theorem agreement_put {key : PyStr} {body : Bytes} (hs : Tracked bucket past w)
    (hagree : Agreement bucket past w) (h : Puts w a key body)
    (hartifacts : after.artifacts=Function.update w.artifacts key (some body))
    (hversions : after.db.versions=w.db.versions) :
    Agreement bucket (past ++ [(w,a)]) after ↔ ¬Disturbs bucket w a := by
  constructor
  · intro hafter hd
    cases hd with
    | stale hc => exact h.not_completes hc
    | overrules hr => exact h.not_refuses hr
    | @replaces key' body' v h' hv huri hne =>
      obtain ⟨rfl,rfl⟩ := h.unique h'
      cases hs.backed _ (List.mem_map_of_mem hv) with
      | pending hn hm =>
        obtain huri | huri := huri
        · exact absurd (huri.symm.trans hn) (by simp)
        · exact absurd (huri.symm.trans hm) (by simp)
      | @completed p ids result hlast hid ht hstatus hn hm =>
        have hlast' := (lastCompletion_other (a := a) (fun _ _ _ => h.not_completes)).mpr hlast
        obtain ⟨⟨hnormalized,hmanifest⟩,-⟩ := hagree p ids result hlast
        obtain ⟨⟨hnormalized',hmanifest'⟩,-⟩ := hafter p ids result hlast'
        obtain huri | huri := huri
        · have hkey : key=Extractor.normalizedKey ids p :=
            objectUri_injective bucket (Option.some.inj (huri.symm.trans hn))
          rw [← hkey] at hnormalized hnormalized'
          exact hne (hnormalized.unchanged hartifacts hnormalized')
        · have hkey : key=Extractor.manifestKey ids p :=
            objectUri_injective bucket (Option.some.inj (huri.symm.trans hm))
          rw [← hkey] at hmanifest hmanifest'
          exact hne (hmanifest.unchanged hartifacts hmanifest')
  · intro hok
    refine hagree.kept (fun _ _ _ => h.not_completes) ?_ ?_
    · intro p ids r hlast hown hrow
      obtain ⟨v,hv,hcolumns⟩ := List.mem_map.mp hrow
      simp only [columns,completedColumns,ExtractionColumns.mk.injEq] at hcolumns
      obtain ⟨-,-,hn,hm,-,-⟩ := hcolumns
      refine ⟨hown.1.update hartifacts ?_,hown.2.update hartifacts ?_⟩
      · intro hkey
        by_contra hne
        exact hok (.replaces h hv (.inl (by rw [hn,hkey])) hne)
      · intro hkey
        by_contra hne
        exact hok (.replaces h hv (.inr (by rw [hm,hkey])) hne)
    · intro p ids r hrow
      rw [hversions]
      exact hrow

/-- A completion disturbs exactly when one of its own objects was replaced. -/
theorem agreement_complete {f : DocumentVersion → DocumentVersion} (hagree : Agreement bucket past w)
    (h : Completes w a p ids result) (hartifacts : after.artifacts=w.artifacts)
    (hversions : after.db.versions=
      updateWhere (fun v => v.tenantId=ids.tenantId ∧ v.id=ids.versionId) f w.db.versions)
    (hf : ∀ v, v.tenantId=ids.tenantId → v.id=ids.versionId →
      columns (f v)=completedColumns bucket p ids result) :
    Agreement bucket (past ++ [(w,a)]) after ↔ ¬Disturbs bucket w a := by
  constructor
  · intro hafter hd
    cases hd with
    | replaces h' => exact h'.not_completes h
    | overrules hr => exact h.not_refuses hr
    | stale h' hne =>
      obtain ⟨rfl,rfl,rfl⟩ := h.unique h'
      exact hne ((ownArtifacts_congr hartifacts).mp (hafter p ids result
        (lastCompletion_snoc.mpr (.inl h))).1)
  · intro hok p' ids' result' hlast
    rw [ownArtifacts_congr hartifacts,hversions]
    obtain h' | ⟨hlast,hother⟩ := lastCompletion_snoc.mp hlast
    · obtain ⟨rfl,rfl,rfl⟩ := h.unique h'
      refine ⟨?_,?_⟩
      · by_contra hne
        exact hok (.stale h hne)
      · cases h with
        | @mk t p result normalizedUri manifestUri draws fault ids correlationId v ht hfault hn hc hv =>
          have hmem : v ∈ Extractor.currentVersions ids p.contentSha256 w.db := by
            rw [hv]
            exact List.mem_singleton_self v
          obtain ⟨hmem,hfacts⟩ := List.mem_filter.mp hmem
          obtain ⟨htenant,hid,-⟩ := of_decide_eq_true hfacts
          refine List.mem_map.mpr ⟨f v,mem_updateWhere.mpr ⟨v,hmem,?_⟩,hf v htenant hid⟩
          rw [if_pos (by simp [htenant,hid])]
    · obtain ⟨hown,hrow⟩ := hagree p' ids' result' hlast
      refine ⟨hown,mem_columns_updateWhere hrow ?_⟩
      intro v hv hcolumns
      have hid : v.id=ids'.versionId := congrArg ExtractionColumns.id hcolumns
      have hne := hother p ids result h
      simp only [decide_eq_false_iff_not,not_and]
      intro _ heq
      exact hne (heq.symm.trans hid)

/-- A rejection disturbs exactly when the version was completed before. -/
theorem agreement_refuse {error : Extractor.ExtractionError} {clock : Time} (hs : Tracked bucket past w)
    (hagree : Agreement bucket past w) (h : Refuses w a ids) (hartifacts : after.artifacts=w.artifacts)
    (hversions : after.db.versions=
      updateWhere (fun v => v.tenantId=ids.tenantId ∧ v.id=ids.versionId)
        (fun v => (Extractor.markFailed error v).setUpdatedAt clock) w.db.versions) :
    Agreement bucket (past ++ [(w,a)]) after ↔ ¬Disturbs bucket w a := by
  constructor
  · intro hafter hd
    cases hd with
    | replaces h' => exact h'.not_refuses h
    | stale h' => exact h'.not_refuses h
    | @overrules ids' v h' hv ht hid huri =>
      obtain rfl := h.unique h'
      cases hs.backed _ (List.mem_map_of_mem hv) with
      | pending hn => exact huri hn
      | @completed p ids' result hlast hid' ht' hstatus hn hm =>
        have hlast' := (lastCompletion_other (a := a) (fun _ _ _ => h.not_completes)).mpr hlast
        obtain ⟨-,hrow⟩ := hafter p ids' result hlast'
        rw [hversions] at hrow
        obtain ⟨y,hy,hcolumns⟩ := List.mem_map.mp hrow
        obtain ⟨x,hx,rfl⟩ := mem_updateWhere.mp hy
        have hx' : x=v := by
          refine eq_of_key_eq hs.ids hx hv ?_
          have hxid := congrArg ExtractionColumns.id hcolumns
          split at hxid
          · exact hxid.trans hid'.symm
          · exact hxid.trans hid'.symm
        subst hx'
        rw [if_pos (by simp [ht,hid])] at hcolumns
        exact hstatus (congrArg ExtractionColumns.extractionStatus hcolumns).symm
  · intro hok
    refine hagree.kept (fun _ _ _ => h.not_completes) ?_ ?_
    · intro p ids r _ hown _
      exact (ownArtifacts_congr hartifacts).mpr hown
    · intro p ids' r hrow
      rw [hversions]
      refine mem_columns_updateWhere hrow ?_
      intro v hv hcolumns
      have hn : v.normalizedObjectUri=some _ :=
        congrArg ExtractionColumns.normalizedObjectUri hcolumns
      simp only [decide_eq_false_iff_not,not_and]
      intro ht hid
      exact hok (.overrules h hv ht hid (by simp [hn]))

/-- From a state that agrees, a step leads to one that agrees exactly when it disturbs nothing. -/
theorem agreement_step (hs : Tracked bucket past w) (hagree : Agreement bucket past w)
    (he : Effect bucket w a after) :
    Agreement bucket (past ++ [(w,a)]) after ↔ ¬Disturbs bucket w a := by
  cases he with
  | put h hartifacts hversions => exact agreement_put hs hagree h hartifacts hversions
  | complete h hartifacts _ hversions hf => exact agreement_complete hagree h hartifacts hversions hf
  | reject h hartifacts hversions => exact agreement_refuse hs hagree h hartifacts hversions
  | quiet hputs hcompletes hrefuses hartifacts hcolumns =>
    refine iff_of_true ?_ ?_
    · refine hagree.kept hcompletes ?_ ?_
      · intro p ids r _ hown _
        exact (ownArtifacts_congr hartifacts).mpr hown
      · intro p ids r hrow
        obtain hsame | ⟨v,-,-,-,hversions⟩ := hcolumns
        · rw [hsame]
          exact hrow
        · rw [hversions]
          exact mem_columns_append hrow
    · intro hd
      cases hd with
      | replaces h => exact hputs _ _ h
      | stale h => exact hcompletes _ _ _ h
      | overrules h => exact hrefuses _ h

lemma Backed.kept {x : ExtractionColumns} (h : Backed bucket past x)
    (hnone : ∀ p ids r, ¬Completes w a p ids r) : Backed bucket (past ++ [(w,a)]) x := by
  cases h with
  | pending hn hm => exact .pending hn hm
  | completed hlast hid ht hstatus hn hm =>
    exact .completed ((lastCompletion_other hnone).mpr hlast) hid ht hstatus hn hm

lemma ids_of_columns (versions : List DocumentVersion) :
    versions.map (·.id)=(versions.map columns).map ExtractionColumns.id := by
  rw [List.map_map]
  rfl

/-- A completion backs the version it completes; the other versions stay backed. -/
theorem backed_complete {f : DocumentVersion → DocumentVersion} (hs : Tracked bucket past w)
    (h : Completes w a p ids result) (hstatus : result.extractionStatus≠.failed)
    (hf : ∀ v, v.tenantId=ids.tenantId → v.id=ids.versionId →
      columns (f v)=completedColumns bucket p ids result) {x : ExtractionColumns}
    (hx : x ∈ (updateWhere (fun v => v.tenantId=ids.tenantId ∧ v.id=ids.versionId) f
      w.db.versions).map columns) : Backed bucket (past ++ [(w,a)]) x := by
  obtain ⟨y,hy,rfl⟩ := List.mem_map.mp hx
  obtain ⟨v,hv,rfl⟩ := mem_updateWhere.mp hy
  by_cases hfacts : v.tenantId=ids.tenantId ∧ v.id=ids.versionId
  · rw [if_pos (by simpa using hfacts),hf v hfacts.1 hfacts.2]
    exact .completed (lastCompletion_snoc.mpr (.inl h)) rfl rfl hstatus rfl rfl
  · rw [if_neg (by simpa using hfacts)]
    cases hs.backed _ (List.mem_map_of_mem hv) with
    | pending hn hm => exact .pending hn hm
    | @completed p' ids' result' hlast hid ht hstatus' hn hm =>
      refine .completed (lastCompletion_snoc.mpr (.inr ⟨hlast,?_⟩)) hid ht hstatus' hn hm
      intro p₂ ids₂ r₂ h₂ heq
      obtain ⟨-,rfl,-⟩ := h.unique h₂
      -- the row of that id is the completed one
      cases h with
      | @mk t p result normalizedUri manifestUri draws fault ids correlationId v₀ ht₀ hfault hn₀ hc hv₀ =>
        have hmem : v₀ ∈ Extractor.currentVersions ids p.contentSha256 w.db := by
          rw [hv₀]
          exact List.mem_singleton_self v₀
        obtain ⟨hmem,hcurrent⟩ := List.mem_filter.mp hmem
        obtain ⟨htenant,hid₀,-⟩ := of_decide_eq_true hcurrent
        have hsame : v=v₀ :=
          eq_of_key_eq hs.ids hv hmem (hid.trans (heq.symm.trans hid₀.symm))
        exact hfacts (hsame ▸ ⟨htenant,hid₀⟩)

theorem tracked_step (hs : Tracked bucket past w)
    (haddressed : ∀ t, Addressed bucket (after.extracting t)) (he : Effect bucket w a after) :
    Tracked bucket (past ++ [(w,a)]) after := by
  cases he with
  | quiet _ hcompletes _ _ hcolumns =>
    obtain hsame | ⟨v,hn,hm,hfresh,hversions⟩ := hcolumns
    · refine ⟨haddressed,?_,?_⟩
      · rw [ids_of_columns,hsame,← ids_of_columns]
        exact hs.ids
      · rw [hsame]
        intro x hx
        exact (hs.backed x hx).kept hcompletes
    · refine ⟨haddressed,?_,?_⟩
      · rw [hversions]
        exact nodup_map_append_singleton hs.ids hfresh
      · intro x hx
        rw [hversions,List.map_append] at hx
        cases List.mem_append.mp hx with
        | inl hx => exact (hs.backed x hx).kept hcompletes
        | inr hx =>
          rw [List.mem_singleton.mp hx]
          exact .pending hn hm
  | put h _ hversions =>
    refine ⟨haddressed,by rw [hversions]; exact hs.ids,?_⟩
    rw [hversions]
    intro x hx
    exact (hs.backed x hx).kept (fun _ _ _ => h.not_completes)
  | complete h _ hstatus hversions hf =>
    refine ⟨haddressed,?_,?_⟩
    · rw [hversions,map_updateWhere]
      · exact hs.ids
      · intro v hv
        obtain ⟨ht,hid⟩ := of_decide_eq_true hv
        exact (congrArg ExtractionColumns.id (hf v ht hid)).trans hid.symm
    · rw [hversions]
      intro x hx
      exact backed_complete hs h hstatus hf hx
  | reject h _ hversions =>
    refine ⟨haddressed,?_,?_⟩
    · rw [hversions,map_updateWhere]
      · exact hs.ids
      · intro v _
        rfl
    · rw [hversions]
      intro x hx
      obtain ⟨y,hy,rfl⟩ := List.mem_map.mp hx
      obtain ⟨v,hv,rfl⟩ := mem_updateWhere.mp hy
      have hbacked := (hs.backed _ (List.mem_map_of_mem hv)).kept (a := a)
        (fun _ _ _ => h.not_completes)
      split
      · cases hbacked with
        | pending hn hm => exact .pending hn hm
        | completed hlast hid ht hstatus hn hm => exact .completed hlast hid ht hstatus hn hm
      · exact hbacked

variable {c : Config} {rt : ℕ → Extractor.Runtime}

lemma installed_artifactBucket (c : Config) (rt : ℕ → Extractor.Runtime) (a : Action) :
    (c.installed rt a).artifactBucket=c.artifactBucket := by cases a <;> rfl

lemma tracked_initial (h : Initial w) : Tracked bucket [] w := by
  obtain ⟨tenants,hdb⟩ := h.db
  refine ⟨?_,?_,?_⟩
  · intro t
    rw [h.extracting t]
    exact trivial
  · rw [hdb]
    exact List.nodup_nil
  · rw [hdb]
    intro x hx
    cases hx

lemma mixed_effect (hs : Tracked c.artifactBucket past w)
    (ha : (mixedSystem c rt).step w a=some after) :
    Effect c.artifactBucket w a after ∧ ∀ t, Addressed c.artifactBucket (after.extracting t) := by
  have hstep : step (c.installed rt a) w a=some after := ha
  have haddressed := hs.addressed
  rw [← installed_artifactBucket c rt a] at haddressed ⊢
  exact ⟨step_effect haddressed hstep,addressed_step haddressed hstep⟩

theorem tracked_traced (h : (mixedSystem c rt).Traced past w) : Tracked c.artifactBucket past w := by
  refine h.invariant (I := fun past w => Tracked c.artifactBucket past w) ?_ ?_
  · intro w hw
    exact tracked_initial hw
  · intro past w a after hs ha
    obtain ⟨he,haddressed⟩ := mixed_effect hs ha
    exact tracked_step hs haddressed he

/-- Every state of the run agrees. -/
def AgreesThroughout (bucket : BucketName) (past : List (World × Action)) (w : World) : Prop :=
  (∀ before x, before ++ [x] <+: past → Agreement bucket before x.1) ∧ Agreement bucket past w

lemma agreesThroughout_start : AgreesThroughout bucket [] w := by
  refine ⟨?_,?_⟩
  · intro before x h
    simp at h
  · rintro p ids result ⟨before,x,later,hpast,-⟩
    simp at hpast

lemma agreesThroughout_snoc :
    AgreesThroughout bucket (past ++ [(w,a)]) after ↔
      AgreesThroughout bucket past w ∧ Agreement bucket (past ++ [(w,a)]) after := by
  constructor
  · rintro ⟨hbefore,hlast⟩
    refine ⟨⟨?_,hbefore past (w,a) List.prefix_rfl⟩,hlast⟩
    intro before x h
    exact hbefore before x (h.trans (List.prefix_append _ _))
  · rintro ⟨⟨hbefore,hnow⟩,hlast⟩
    refine ⟨?_,hlast⟩
    intro before x h
    obtain h | h := List.prefix_concat_iff.mp h
    · obtain ⟨rfl,hx⟩ := List.append_inj' h rfl
      cases hx
      exact hnow
    · exact hbefore before x h

/-- In every run of extractors of any releases, with any deliveries, overlaps and crashes: a version
with recorded artifacts has a last completion, and all states of the run agree if and only if none of
its steps disturbs a version. -/
theorem artifacts_agree_iff (h : (mixedSystem c rt).Traced past w) :
    ((w.db.versions.map (·.id)).Nodup ∧
      ∀ v ∈ w.db.versions, v.normalizedObjectUri≠none → ∃ p ids result,
        LastCompletion past p ids result ∧ v.id=ids.versionId ∧ v.tenantId=ids.tenantId) ∧
    (AgreesThroughout c.artifactBucket past w ↔ ∀ x ∈ past, ¬Disturbs c.artifactBucket x.1 x.2) := by
  have htracked := tracked_traced h
  refine ⟨⟨htracked.ids,?_⟩,?_⟩
  · intro v hv hrecorded
    cases htracked.backed _ (List.mem_map_of_mem hv) with
    | pending hn => exact absurd hn hrecorded
    | completed hlast hid ht => exact ⟨_,_,_,hlast,hid,ht⟩
  · clear htracked
    induction h with
    | start => exact iff_of_true agreesThroughout_start (by simp)
    | @next past w a after hpast ha ih =>
      have hs := tracked_traced hpast
      rw [agreesThroughout_snoc,List.forall_mem_append,List.forall_mem_singleton,← ih]
      apply and_congr_right
      intro hagrees
      exact agreement_step hs hagrees.2 (mixed_effect hs ha).1

/-- All extractor calls run the release of the configuration. -/
def plainSystem : System World Action := mixedSystem plainConfig (fun _ => plainConfig.rt)

/-- The run of the small upload, with its recorded artifacts. -/
theorem small_artifacts_agree_iff : ∃ past w, plainSystem.Traced past w ∧
    (∃ v ∈ w.db.versions, ∃ p ids result, LastCompletion past p ids result ∧ v.id=ids.versionId) ∧
    (AgreesThroughout plainConfig.artifactBucket past w ↔
      ∀ x ∈ past, ¬Disturbs plainConfig.artifactBucket x.1 x.2) := by
  have hrun : (plainSystem.run plainWorld (smallRun (py "text"))).any
      (fun w => w.db.versions.any (fun v => v.normalizedObjectUri≠none))=true := by
    decide +kernel
  obtain ⟨w,hrun,hrecorded⟩ := (Option.any_eq_true _ _).mp hrun
  simp only [List.any_eq_true,decide_eq_true_eq] at hrecorded
  obtain ⟨v,hv,hrecorded⟩ := hrecorded
  obtain ⟨past,hpast⟩ := System.Traced.run (.start plainWorld_initial) hrun
  obtain ⟨⟨-,hlast⟩,hiff⟩ := artifacts_agree_iff hpast
  obtain ⟨p,ids,result,hlast,hid,-⟩ := hlast v hv hrecorded
  exact ⟨_,w,hpast,⟨v,hv,p,ids,result,hlast,hid⟩,hiff⟩

/-- The fetched event is delivered to two calls, whose conversions find text and no text; the first
is about to complete, and the second to store its first artifact. -/
def overlappingRun : List Action :=
  (smallRun (py "text")).take 18 ++
    [.extract 0 (.deliver smallFetched),.extract 1 (.deliver smallFetched),.extract 0 (.get .none),
      .extract 1 (.get .none),.extract 0 (.extract readAvailable (fun _ => .ok ([],py "text"))),
      .extract 1 (.extract readAvailable (fun _ => .ok ([],[]))),.extract 0 (.putNormalized .none),
      .extract 0 (.putManifest .none)]

def firstCompletes : Action := .extract 0 (.complete ⟨⟨8⟩,[],⟨9⟩,2,2,2⟩ .none)

def secondStores : Action := .extract 1 (.putNormalized .none)

/-- The first call completes, and the second then stores another object for the same payload. -/
def overlaps (s : World) : Bool :=
  match s.extracting 0 with
  | .completing p result _ _ => (plainSystem.step s firstCompletes).any fun s =>
    decide ((events s.db).length=3) && (plainSystem.step s secondStores).isSome &&
      match s.extracting 1 with
      | .extracted q other => decide (q=p) &&
        (Extractor.artifactBody other.normalized).toOption.any (fun body =>
          (Extractor.artifactBody result.normalized).toOption≠some body)
      | _ => false
  | _ => false

lemma overlaps_spec {s : World} (h : overlaps s=true) :
    ∃ p result normalizedUri manifestUri other body s₁ s₂,
      s.extracting 0=.completing p result normalizedUri manifestUri ∧
      plainSystem.step s firstCompletes=some s₁ ∧ (events s₁.db).length=3 ∧
      plainSystem.step s₁ secondStores=some s₂ ∧ s₁.extracting 1=.extracted p other ∧
      Extractor.artifactBody other.normalized=.ok body ∧
      Extractor.artifactBody result.normalized≠.ok body := by
  unfold overlaps at h
  split at h
  · rename_i p result normalizedUri manifestUri ht
    obtain ⟨s₁,hs₁,hfirst⟩ := (Option.any_eq_true _ _).mp h
    simp only [Bool.and_eq_true,decide_eq_true_eq] at hfirst
    obtain ⟨⟨hlength,hsecond⟩,hcalls⟩ := hfirst
    obtain ⟨s₂,hs₂⟩ := Option.isSome_iff_exists.mp hsecond
    split at hcalls
    · rename_i q other ht₁
      simp only [Bool.and_eq_true,decide_eq_true_eq] at hcalls
      obtain ⟨rfl,hbodies⟩ := hcalls
      obtain ⟨body,hbody,hne⟩ := (Option.any_eq_true _ _).mp hbodies
      have hbody : Extractor.artifactBody other.normalized=.ok body := by
        cases hb : Extractor.artifactBody other.normalized with
        | error e =>
          rw [hb] at hbody
          cases hbody
        | ok b =>
          rw [hb] at hbody
          exact congrArg Except.ok (Option.some.inj hbody)
      refine ⟨q,result,_,_,other,body,s₁,s₂,ht,hs₁,hlength,hs₂,ht₁,hbody,?_⟩
      intro heq
      rw [heq] at hne
      simp [Except.toOption] at hne
    · cases hcalls
  · cases h

/-- A call that was overtaken by the completion of its version replaces the recorded artifact. -/
theorem late_store_replaces_artifact :
    ¬∀ (c : Config) (rt : ℕ → Extractor.Runtime) (past : List (World × Action)) (w : World),
      (mixedSystem c rt).Traced past w → (∀ x ∈ past, Genuine x.1 x.2) →
      Agreement c.artifactBucket past w := by
  intro hall
  have hrun : (plainSystem.runIf Genuine plainWorld overlappingRun).any
      (fun s => (events s.db).length=2 ∧ overlaps s)=true := by
    decide +kernel
  obtain ⟨s,hrun,hchecked⟩ := (Option.any_eq_true _ _).mp hrun
  obtain ⟨hlength,hoverlaps⟩ := of_decide_eq_true hchecked
  obtain ⟨p,result,normalizedUri,manifestUri,other,body,s₁,s₂,ht,hfirst,hlength₁,hsecond,ht₁,hbody,
    hother⟩ := overlaps_spec hoverlaps
  obtain ⟨past,hpast,hgenuine⟩ := System.traced_of_runIf plainWorld_initial hrun
  have hpast₁ := hpast.next hfirst
  have hpast₂ := hpast₁.next hsecond
  -- the first call commits
  have hcompletes : ∃ ids, Completes s firstCompletes p ids result := by
    have hstep : step (plainConfig.installed (fun _ => plainConfig.rt) firstCompletes) s firstCompletes=
        some s₁ := hfirst
    obtain hquiet | hcommits := step_commits hstep
    · rw [hquiet.events] at hlength₁
      omega
    · generalize s₁.db=db at hcommits
      cases hcommits with
      | complete ht' hf hn hv hcommit =>
        cases ht.symm.trans ht'
        exact ⟨_,.mk ht hf hn (hcommit.claimable rfl rfl) hv⟩
  obtain ⟨ids,hcompletes⟩ := hcompletes
  have hids : Extractor.payloadIds p=.ok ids := by
    cases hcompletes with
    | mk ht' _ hn _ _ =>
      cases ht.symm.trans ht'
      exact hn.ids
  have hlast : LastCompletion (past ++ [(s,firstCompletes)] ++ [(s₁,secondStores)]) p ids result := by
    refine (lastCompletion_other ?_).mpr (lastCompletion_snoc.mpr (.inl hcompletes))
    rintro p ids r ⟨⟩
  -- the second call replaces the object
  have hputs : Puts s₁ secondStores (Extractor.normalizedKey ids p) body :=
    .normalized ht₁ (by decide) hids hbody
  have hreplaced : s₂.artifacts (Extractor.normalizedKey ids p)=some body := by
    cases (mixed_effect (tracked_traced hpast₁) hsecond).1 with
    | quiet hnone => exact absurd hputs (hnone _ _)
    | complete h => exact absurd h hputs.not_completes
    | reject h => exact absurd h hputs.not_refuses
    | put h hartifacts =>
      obtain ⟨hkey,hsame⟩ := h.unique hputs
      rw [hartifacts,hkey,hsame,Function.update_self]
  have hagrees := hall plainConfig (fun _ => plainConfig.rt) _ s₂ hpast₂ ?_
  · obtain ⟨⟨⟨stored,hstored,hholds⟩,-⟩,-⟩ := hagrees p ids result hlast
    rw [← Option.some.inj (hreplaced.symm.trans hholds)] at hstored
    exact hother hstored
  · intro x hx
    simp only [List.mem_append,List.mem_singleton] at hx
    obtain (hx | rfl) | rfl := hx
    · exact hgenuine x hx
    · exact trivial
    · exact trivial

end RagIngestion.Pipeline
