import RagIngestion.Pipeline.Genuine

/-! The four transactions that add an outbox row, each with the action that commits it. -/
namespace RagIngestion.Pipeline
open RagIngestion.Python RagIngestion.Domain RagIngestion.Database RagIngestion.Storage
open RagIngestion.Library

/-- A step that adds no event and touches no version. -/
structure Quiet (before after : Db) : Prop where
  events : events after=events before
  versions : after.versions=before.versions

variable (c : Config)

/-- The database after an action that commits a transaction. -/
inductive Commits (w : World) : Action → Db → Prop
  | submit {r d eventId occurredAt outboxId now fault after} (hr : w.request r=.persisting d)
      (h : d.submission c.rt.sha256 c.sourceBucket eventId occurredAt outboxId now w.db=.ok after) :
      Commits w (.submit (.persist r eventId occurredAt outboxId now fault)) after
  | fetch {t p i e draws fault ids o after} (ht : w.fetching t=.processing p i e)
      (hf : fault≠.before) (hn : Fetcher.Names p ids) (ho : Fetcher.FetchOutcome p i e ids draws w.db o)
      (h : Committed o draws.outboxId draws.now w.db after) :
      Commits w (.fetch t (.process draws fault)) after
  | complete {t p result normalizedUri manifestUri draws fault ids correlationId v after}
      (ht : w.extracting t=.completing p result normalizedUri manifestUri) (hf : fault≠.before)
      (hn : Extractor.Names p ids correlationId)
      (hv : Extractor.currentVersions ids p.contentSha256 w.db=[v])
      (h : Committed
        (Extractor.completion c.rt p ids correlationId result normalizedUri manifestUri draws)
        draws.outboxId draws.now w.db after) :
      Commits w (.extract t (.complete draws fault)) after
  | reject {t p error draws fault ids correlationId after} (ht : w.extracting t=.rejecting p error)
      (hf : fault≠.before) (hn : Extractor.Names p ids correlationId)
      (h : Committed (Extractor.rejection ids correlationId error draws) draws.outboxId draws.now
        w.db after) :
      Commits w (.extract t (.reject draws fault)) after

/-- The step commits the result for the version its payload names. -/
inductive Completes (w : World) : Action → DocumentFetched → Extractor.Ids →
    Extractor.ExtractionResult → Prop
  | mk {t p result normalizedUri manifestUri draws fault ids correlationId v}
      (ht : w.extracting t=.completing p result normalizedUri manifestUri) (hf : fault≠.before)
      (hn : Extractor.Names p ids correlationId)
      (hc : Claimable ⟨ids.tenantId,ids.eventId,Extractor.consumerName⟩ draws w.db)
      (hv : Extractor.currentVersions ids p.contentSha256 w.db=[v]) :
      Completes w (.extract t (.complete draws fault)) p ids result

/-- The step commits a rejection for the version its payload names. -/
inductive Refuses (w : World) : Action → Extractor.Ids → Prop
  | mk {t p error draws fault ids correlationId} (ht : w.extracting t=.rejecting p error)
      (hf : fault≠.before) (hn : Extractor.Names p ids correlationId)
      (hc : Claimable ⟨ids.tenantId,ids.eventId,Extractor.consumerName⟩ draws w.db) :
      Refuses w (.extract t (.reject draws fault)) ids

variable {c}

theorem Completes.unique {w : World} {a : Action} {p p' : DocumentFetched} {ids ids' : Extractor.Ids}
    {r r' : Extractor.ExtractionResult} (h : Completes w a p ids r) (h' : Completes w a p' ids' r') :
    p=p' ∧ ids=ids' ∧ r=r' := by
  cases h with
  | mk ht hf hn hc hv =>
    cases h' with
    | mk ht' hf' hn' hc' hv' =>
      cases ht.symm.trans ht'
      obtain ⟨rfl,rfl⟩ := hn.unique hn'
      exact ⟨rfl,rfl,rfl⟩

theorem Refuses.unique {w : World} {a : Action} {ids ids' : Extractor.Ids} (h : Refuses w a ids)
    (h' : Refuses w a ids') : ids=ids' := by
  cases h with
  | mk ht hf hn hc =>
    cases h' with
    | mk ht' hf' hn' hc' =>
      cases ht.symm.trans ht'
      exact (hn.unique hn').1

lemma Quiet.refl (db : Db) : Quiet db db := ⟨rfl,rfl⟩

theorem submit_commits {w : World} {a : Submission.Action} {s : Submission.State}
    (h : Submission.step c.rt.sha256 c.sourceBucket c.apiMaxUploadBytes w.submissions a=some s) :
    Quiet w.db s.db ∨ Commits c w (.submit a) s.db := by
  cases Submission.transition_of_step _ _ _ h with
  | persistLost hr hdb => exact .inr (.submit hr hdb)
  | persist hr hdb => exact .inr (.submit hr hdb)
  | _ => exact .inl (.refl _)

theorem fetch_commits {w : World} {t : ℕ} {a : Fetcher.Action} {after : Db} {task : Fetcher.Task}
    (h : Fetcher.Transition c.rt.sha256 c.sourceBucket c.fetcherMaxDocumentBytes w.source w.db
      (w.fetching t) a after task) : Quiet w.db after ∨ Commits c w (.fetch t a) after := by
  generalize ht : w.fetching t=before at h
  cases h with
  | processed hp hf =>
    obtain ⟨-,-,-,-,-,rfl⟩ | ⟨ids,o,after,hn,ho,hcommit,rfl⟩ := Fetcher.process_eq_ok hp
    · exact .inl (.refl _)
    · exact .inr (.fetch ht hf hn ho hcommit)
  | _ => exact .inl (.refl _)

/-- What an extractor call commits, exactly. -/
theorem extract_commits {w : World} {t : ℕ} {a : Extractor.Action} {after : Extractor.Stores}
    {task : Extractor.Task}
    (h : Extractor.Transition c.rt c.sourceBucket c.artifactBucket c.extractionMaxBytes w.source
      w.stores (w.extracting t) a after task) :
    (Quiet w.db after.db ∧ (∀ p ids r, ¬Completes w (.extract t a) p ids r) ∧
      ∀ ids, ¬Refuses w (.extract t a) ids) ∨ Commits c w (.extract t a) after.db := by
  generalize ht : w.extracting t=before at h
  cases h with
  | putNormalized hput =>
    cases hput <;> exact .inl ⟨.refl _,by rintro _ _ _ ⟨⟩,by rintro _ ⟨⟩⟩
  | putManifest hput =>
    cases hput <;> exact .inl ⟨.refl _,by rintro _ _ _ ⟨⟩,by rintro _ ⟨⟩⟩
  | completeFails hfails =>
    refine .inl ⟨.refl _,?_,by rintro _ ⟨⟩⟩
    rintro p ids r ⟨ht',hf,hn,hc,hv⟩
    cases ht.symm.trans ht'
    obtain ⟨db,hdb,-⟩ := Extractor.complete_commits c.rt _ _ _ hn hc hv
    obtain hfault | ⟨error,herror⟩ := hfails
    · exact hf hfault
    · cases hdb.symm.trans herror
  | completeRejects hrejects =>
    refine .inl ⟨.refl _,?_,by rintro _ ⟨⟩⟩
    rintro p ids r ⟨ht',hf,hn,hc,hv⟩
    cases ht.symm.trans ht'
    obtain ⟨db,hdb,-⟩ := Extractor.complete_commits c.rt _ _ _ hn hc hv
    cases hdb.symm.trans hrejects
  | completed hc hf =>
    obtain ⟨ids,hids,hmem,rfl⟩ | ⟨ids,correlationId,version,after,hn,hv,hcommit,rfl⟩ :=
      Extractor.complete_eq_ok hc
    · refine .inl ⟨.refl _,?_,by rintro _ ⟨⟩⟩
      rintro p ids' r ⟨ht',-,hn,hc,-⟩
      cases ht.symm.trans ht'
      rw [← Except.ok.inj (hids.symm.trans hn.ids)] at hc
      exact hc.unclaimed hmem
    · exact .inr (.complete ht hf hn hv hcommit)
  | rejectFails hfails =>
    refine .inl ⟨.refl _,by rintro _ _ _ ⟨⟩,?_⟩
    rintro ids ⟨ht',hf,hn,hc⟩
    cases ht.symm.trans ht'
    obtain ⟨db,hdb,-⟩ := Extractor.reject_commits _ hn hc
    obtain hfault | ⟨error,herror⟩ := hfails
    · exact hf hfault
    · cases hdb.symm.trans herror
  | rejected hr hf =>
    obtain ⟨ids,hids,hmem,rfl⟩ | ⟨ids,correlationId,after,hn,hcommit,rfl⟩ := Extractor.reject_eq_ok hr
    · refine .inl ⟨.refl _,by rintro _ _ _ ⟨⟩,?_⟩
      rintro ids' ⟨ht',-,hn,hc⟩
      cases ht.symm.trans ht'
      rw [← Except.ok.inj (hids.symm.trans hn.ids)] at hc
      exact hc.unclaimed hmem
    · exact .inr (.reject ht hf hn hcommit)
  | _ => exact .inl ⟨.refl _,by rintro _ _ _ ⟨⟩,by rintro _ ⟨⟩⟩

/-- Every step is quiet, or commits one of the four transactions. -/
theorem step_commits {w after : World} {a : Action} (h : step c w a=some after) :
    Quiet w.db after.db ∨ Commits c w a after.db := by
  cases transition_of_step h with
  | submit hs => exact submit_commits hs
  | publish ha hs => exact .inl ⟨(publisher_step_columns ha hs).2,rfl⟩
  | fetch hs => exact fetch_commits hs
  | extract hs =>
    obtain ⟨hquiet,-⟩ | hcommits := extract_commits hs
    · exact .inl hquiet
    · exact .inr hcommits
  | overwrite => exact .inl (.refl _)

/-- A new `DocumentFetched` row is written by the fetcher call that decided on it. -/
theorem fetched_row {w after : World} {a : Action} (ha : step c w a=some after) {e : OutboxEvent}
    (he : e ∈ events after.db) (hnew : e ∉ events w.db) {q : DocumentFetched}
    (hq : e.payload=.documentFetched q) :
    ∃ t p i error draws fault ids v, a=.fetch t (.process draws fault) ∧
      w.fetching t=.processing p (some i) error ∧
      Fetcher.matchingVersions ids.tenantId ids.documentId p.payloadUri w.db=[v] ∧
      Fetcher.verdict v (some i) error=none ∧
      e=Fetcher.fetchedEvent p ids v.id i (Fetcher.fetchedMetadata v i) draws := by
  obtain hquiet | hcommits := step_commits ha
  · exact absurd (hquiet.events ▸ he) hnew
  · generalize after.db=db at he hcommits
    cases hcommits with
    | submit hr h =>
      rw [eq_of_new_row (events_submitted h) he hnew] at hq
      cases hq
    | @fetch t p i error draws fault ids o _ ht hf hn ho h =>
      have he := eq_of_new_row (events_committed h) he hnew
      cases ho with
      | unknown => rw [he] at hq; cases hq
      | invalid => rw [he] at hq; cases hq
      | valid hv hverdict hi =>
        subst hi
        exact ⟨t,p,_,error,draws,fault,ids,_,rfl,ht,hv,hverdict,he⟩
    | complete ht hf hn hv h =>
      rw [eq_of_new_row (events_committed h) he hnew] at hq
      cases hq
    | reject ht hf hn h =>
      rw [eq_of_new_row (events_committed h) he hnew] at hq
      cases hq

/-- A new `ContentExtracted` row is written by the extractor call that holds its result. -/
theorem extracted_row {w after : World} {a : Action} (ha : step c w a=some after) {e : OutboxEvent}
    (he : e ∈ events after.db) (hnew : e ∉ events w.db) {q : ContentExtracted}
    (hq : e.payload=.contentExtracted q) :
    ∃ t p result normalizedUri manifestUri draws fault ids correlationId v,
      a=.extract t (.complete draws fault) ∧
      w.extracting t=.completing p result normalizedUri manifestUri ∧
      Extractor.currentVersions ids p.contentSha256 w.db=[v] ∧
      e=Extractor.extractedEvent c.rt p ids correlationId result normalizedUri manifestUri draws := by
  obtain hquiet | hcommits := step_commits ha
  · exact absurd (hquiet.events ▸ he) hnew
  · generalize after.db=db at he hcommits
    cases hcommits with
    | submit hr h =>
      rw [eq_of_new_row (events_submitted h) he hnew] at hq
      cases hq
    | fetch ht hf hn ho h =>
      rw [eq_of_new_row (events_committed h) he hnew] at hq
      cases ho <;> cases hq
    | complete ht hf hn hv h =>
      exact ⟨_,_,_,_,_,_,_,_,_,_,rfl,ht,hv,eq_of_new_row (events_committed h) he hnew⟩
    | reject ht hf hn h =>
      rw [eq_of_new_row (events_committed h) he hnew] at hq
      cases hq

/-- The columns of a version that are written once. -/
def origin (v : DocumentVersion) : UUID × UUID × PyStr := (v.id,v.tenantId,v.contentSha256)

lemma origins_committed {o : Outcome} {outboxId : UUID} {now : Time} {before after : Db}
    (h : Committed o outboxId now before after)
    (hkept : ∀ id f, o.version=some (id,f) → ∀ v, origin (f v)=origin v) :
    after.versions.map origin=before.versions.map origin := by
  rw [h.result,Outcome.apply_versions,Outcome.applyVersions]
  split
  · rfl
  · rename_i id f hversion
    exact map_updateWhere (f := fun v => (f v).setUpdatedAt o.versionUpdatedAt)
      (fun v _ => hkept id f hversion v) _

/-- Versions are added by submissions, with new ids, and nothing else changes their origins. -/
theorem step_origins {w after : World} {a : Action} (ha : step c w a=some after) :
    after.db.versions.map origin=w.db.versions.map origin ∨
    ∃ r d eventId occurredAt outboxId now fault,
      a=.submit (.persist r eventId occurredAt outboxId now fault) ∧ w.request r=.persisting d ∧
      (∀ v ∈ w.db.versions, v.id≠d.versionId) ∧
      after.db.versions=w.db.versions ++ [d.version c.rt.sha256 c.sourceBucket now] := by
  obtain hquiet | hcommits := step_commits ha
  · exact .inl (by rw [hquiet.versions])
  · generalize after.db=db at hcommits
    cases hcommits with
    | submit hr h =>
      obtain ⟨⟨-,-,hfresh,-⟩,rfl⟩ := Submission.Draft.submission_eq_ok _ _ h
      exact .inr ⟨_,_,_,_,_,_,_,rfl,hr,hfresh,rfl⟩
    | fetch ht hf hn ho h =>
      refine .inl (origins_committed h ?_)
      intro id f hversion v
      cases ho with
      | unknown => cases hversion
      | invalid => cases hversion; rfl
      | valid => cases hversion; rfl
    | complete ht hf hn hv h =>
      refine .inl (origins_committed h ?_)
      intro id f hversion v
      cases hversion
      rfl
    | reject ht hf hn h =>
      refine .inl (origins_committed h ?_)
      intro id f hversion v
      cases hversion
      rfl

end RagIngestion.Pipeline
