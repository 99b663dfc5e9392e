import RagIngestion.Pipeline.Lifecycle
import RagIngestion.Pipeline.Commits

/-! Record keys: the events of a document share one key exactly as long as no row is written for
a version whose id is not that of its document. -/
namespace RagIngestion.Pipeline
open RagIngestion.Python RagIngestion.Domain RagIngestion.Database RagIngestion.Storage
open RagIngestion.Library

/-- The key that the events of a document should share. -/
def documentKey (e : OutboxEvent) : PyStr := e.tenantId.str ++ py ":" ++ e.payload.documentId

/-- Rows of the same tenant and document produce records with the same key, which names both. -/
def SharedKey (events : List OutboxEvent) : Prop :=
  ∀ e ∈ events, ∀ f ∈ events, e.tenantId=f.tenantId → e.payload.documentId=f.payload.documentId →
    ∀ m n, Publisher.kafkaMessage e=.ok m → Publisher.kafkaMessage f=.ok n →
      m.key=n.key ∧ m.key=documentKey e

/-- The step commits a row whose aggregate is a version with another id than its document: a
successful fetch, a completed extraction or a rejected one, each of a new event. -/
inductive VersionKeyed (w : World) : Action → Prop
  | fetch {t p i e ids v draws fault} (ht : w.fetching t=.processing p (some i) e)
      (hf : fault≠.before) (hn : Fetcher.Names p ids)
      (hc : Claimable ⟨ids.tenantId,ids.eventId,Fetcher.consumerName⟩ draws w.db)
      (hv : Fetcher.matchingVersions ids.tenantId ids.documentId p.payloadUri w.db=[v])
      (he : Fetcher.verdict v (some i) e=none) (hne : v.id≠ids.documentId) :
      VersionKeyed w (.fetch t (.process draws fault))
  | complete {t p result normalizedUri manifestUri ids correlationId v draws fault}
      (ht : w.extracting t=.completing p result normalizedUri manifestUri) (hf : fault≠.before)
      (hn : Extractor.Names p ids correlationId)
      (hc : Claimable ⟨ids.tenantId,ids.eventId,Extractor.consumerName⟩ draws w.db)
      (hv : Extractor.currentVersions ids p.contentSha256 w.db=[v])
      (hne : ids.versionId≠ids.documentId) : VersionKeyed w (.extract t (.complete draws fault))
  | reject {t p error ids correlationId draws fault} (ht : w.extracting t=.rejecting p error)
      (hf : fault≠.before) (hn : Extractor.Names p ids correlationId)
      (hc : Claimable ⟨ids.tenantId,ids.eventId,Extractor.consumerName⟩ draws w.db)
      (hne : ids.versionId≠ids.documentId) : VersionKeyed w (.extract t (.reject draws fault))

/-- What a step does to the events: nothing, or one more that has a record, whose aggregate is
its document exactly when the step meets the condition. -/
inductive Written (before after : List OutboxEvent) (bad : Prop) : Prop
  | nothing (h : after=before) (hok : ¬bad)
  | row (e : OutboxEvent) (h : after=before ++ [e]) (hm : ∃ m, Publisher.kafkaMessage e=.ok m)
      (hkey : e.aggregateId.str=e.payload.documentId ↔ ¬bad)

variable {c : Config}

lemma kafkaMessage_key {e : OutboxEvent} {m : Publisher.KafkaMessage}
    (h : Publisher.kafkaMessage e=.ok m) : m.key=e.tenantId.str ++ py ":" ++ e.aggregateId.str := by
  unfold Publisher.kafkaMessage at h
  split at h
  · cases h
  · split at h
    · cases h
    · cases h
      rfl

lemma key_eq_iff {e : OutboxEvent} {m : Publisher.KafkaMessage}
    (h : Publisher.kafkaMessage e=.ok m) :
    m.key=documentKey e ↔ e.aggregateId.str=e.payload.documentId := by
  rw [kafkaMessage_key h,documentKey,List.append_cancel_left_eq]

/-- Records that name their own document are shared by the rows of the document. -/
theorem sharedKey_iff {events : List OutboxEvent} :
    SharedKey events ↔
      ∀ e ∈ events, ∀ m, Publisher.kafkaMessage e=.ok m → m.key=documentKey e := by
  constructor
  · intro h e he m hm
    exact (h e he e he rfl rfl m m hm hm).2
  · intro h e he f hf ht hd m n hm hn
    refine ⟨?_,h e he m hm⟩
    rw [h e he m hm,h f hf n hn,documentKey,documentKey,ht,hd]

theorem Written.sharedKey {before after : List OutboxEvent} {bad : Prop}
    (h : Written before after bad) : SharedKey after ↔ SharedKey before ∧ ¬bad := by
  cases h with
  | nothing h hok => rw [h,and_iff_left hok]
  | row e h hm hkey =>
    obtain ⟨m,hm⟩ := hm
    have hlast : (∀ n, Publisher.kafkaMessage e=.ok n → n.key=documentKey e) ↔ ¬bad := by
      rw [← hkey,← key_eq_iff hm]
      refine ⟨fun h => h m hm,?_⟩
      intro h n hn
      rw [← Except.ok.inj (hm.symm.trans hn)]
      exact h
    rw [h,sharedKey_iff,sharedKey_iff,List.forall_mem_append,List.forall_mem_singleton,hlast]

/-- A committed outcome writes its event. -/
lemma Written.committed {o : Outcome} {outboxId : UUID} {now : Time} {before after : Db} {bad : Prop}
    (h : Committed o outboxId now before after) (hm : ∃ m, Publisher.kafkaMessage o.event=.ok m)
    (hkey : o.event.aggregateId.str=o.event.payload.documentId ↔ ¬bad) :
    Written (events before) (events after) bad :=
  .row o.event (events_committed h) hm hkey

theorem fetch_written {w : World} {t : ℕ} {a : Fetcher.Action} {after : Db} {task : Fetcher.Task}
    (h : Fetcher.Transition c.rt.sha256 c.sourceBucket c.fetcherMaxDocumentBytes w.source w.db
      (w.fetching t) a after task) :
    Written (events w.db) (events after) (VersionKeyed w (.fetch t a)) := by
  generalize ht : w.fetching t=before at h
  cases h with
  | @processFails p inspection error draws fault hfails =>
    refine .nothing rfl ?_
    intro hbad
    cases hbad with
    | @fetch t p i e ids v draws fault ht' hf hn hc hv he hne =>
      cases ht.symm.trans ht'
      have hprocess : ∃ result, Fetcher.process p (some i) error draws w.db=.ok result :=
        Fetcher.process_of_unambiguous hn hc (.inl rfl) (by rw [hv]; exact Nat.le_refl 1)
      obtain ⟨result,hresult⟩ := hprocess
      obtain hfault | ⟨error,herror⟩ := hfails
      · exact hf hfault
      · rw [hresult] at herror
        cases herror
  | processed hp hf =>
    obtain ⟨tenantId,eventId,htenant,hevent,hmem,rfl⟩ | ⟨ids,o,db,hn,ho,hcommit,rfl⟩ :=
      Fetcher.process_eq_ok hp
    · refine .nothing rfl ?_
      intro hbad
      cases hbad with
      | fetch ht' _ hn hc _ _ _ =>
        cases ht.symm.trans ht'
        rw [← Except.ok.inj (htenant.symm.trans hn.tenant),
          ← Except.ok.inj (hevent.symm.trans hn.event)] at hc
        exact hc.unclaimed hmem
    · cases ho with
      | unknown hv =>
        refine Written.committed hcommit ⟨_,rfl⟩ (iff_of_true rfl ?_)
        intro hbad
        cases hbad with
        | fetch ht' _ hn' _ hv' _ _ =>
          cases ht.symm.trans ht'
          rw [hn'.unique hn,hv] at hv'
          cases hv'
      | invalid hv he =>
        refine Written.committed hcommit ⟨_,rfl⟩ (iff_of_true rfl ?_)
        intro hbad
        cases hbad with
        | fetch ht' _ hn' _ hv' he' _ =>
          cases ht.symm.trans ht'
          rw [hn'.unique hn,hv] at hv'
          cases hv'
          rw [he] at he'
          cases he'
      | @valid version i hv he hi =>
        subst hi
        have hclaimable := hcommit.claimable rfl rfl
        refine Written.committed hcommit ⟨_,rfl⟩ ⟨?_,?_⟩
        · intro hkey hbad
          cases hbad with
          | fetch ht' _ hn' _ hv' _ hne =>
            cases ht.symm.trans ht'
            rw [hn'.unique hn] at hv' hne
            rw [hv] at hv'
            cases hv'
            exact hne (UUID.str_injective hkey)
        · intro hok
          by_contra hne
          exact hok (.fetch ht hf hn hclaimable hv he (fun h => hne (congrArg UUID.str h)))
  | _ => exact .nothing rfl (by rintro ⟨⟩)

theorem extract_written {w : World} {t : ℕ} {a : Extractor.Action} {after : Extractor.Stores}
    {task : Extractor.Task}
    (h : Extractor.Transition c.rt c.sourceBucket c.artifactBucket c.extractionMaxBytes w.source
      w.stores (w.extracting t) a after task) :
    Written (events w.db) (events after.db) (VersionKeyed w (.extract t a)) := by
  obtain ⟨hquiet,hcompletes,hrefuses⟩ | hcommits := extract_commits h
  · refine .nothing hquiet.events ?_
    intro hbad
    cases hbad with
    | complete ht hf hn hc hv _ => exact hcompletes _ _ _ (.mk ht hf hn hc hv)
    | reject ht hf hn hc _ => exact hrefuses _ (.mk ht hf hn hc)
  · generalize after.db=db at hcommits ⊢
    cases hcommits with
    | complete ht hf hn hv hcommit =>
      have hclaimable := hcommit.claimable rfl rfl
      refine Written.committed hcommit ⟨_,rfl⟩ ⟨?_,?_⟩
      · intro hkey hbad
        cases hbad with
        | complete ht' _ hn' _ _ hne =>
          cases ht.symm.trans ht'
          rw [(hn'.unique hn).1] at hne
          exact hne (UUID.str_injective hkey)
      · intro hok
        by_contra hne
        exact hok (.complete ht hf hn hclaimable hv (fun h => hne (congrArg UUID.str h)))
    | reject ht hf hn hcommit =>
      have hclaimable := hcommit.claimable rfl rfl
      refine Written.committed hcommit ⟨_,rfl⟩ ⟨?_,?_⟩
      · intro hkey hbad
        cases hbad with
        | reject ht' _ hn' _ hne =>
          cases ht.symm.trans ht'
          rw [(hn'.unique hn).1] at hne
          exact hne (UUID.str_injective hkey)
      · intro hok
        by_contra hne
        exact hok (.reject ht hf hn hclaimable (fun h => hne (congrArg UUID.str h)))

lemma submit_written {w : World} {a : Submission.Action} {s : Submission.State}
    (h : Submission.step c.rt.sha256 c.sourceBucket c.apiMaxUploadBytes w.submissions a=some s) :
    Written (events w.db) (events s.db) (VersionKeyed w (.submit a)) := by
  obtain hquiet | hcommits := submit_commits h
  · exact .nothing hquiet.events (by rintro ⟨⟩)
  · generalize s.db=db at hcommits ⊢
    cases hcommits with
    | submit hr hdb => exact .row _ (events_submitted hdb) ⟨_,rfl⟩ (iff_of_true rfl (by rintro ⟨⟩))

theorem step_written {w after : World} {a : Action} (h : step c w a=some after) :
    Written (events w.db) (events after.db) (VersionKeyed w a) := by
  cases transition_of_step h with
  | submit hs => exact submit_written hs
  | publish ha hs => exact .nothing (publisher_step_columns ha hs).2 (by rintro ⟨⟩)
  | fetch hs => exact fetch_written hs
  | extract hs => exact extract_written hs
  | overwrite => exact .nothing rfl (by rintro ⟨⟩)

/-- After any run, whatever was delivered, the rows of each document share their record key if
and only if no step of the run committed a row for a version with another id than its document. -/
theorem shared_key_iff {past : List (World × Action)} {w : World}
    (h : (system c).Traced past w) :
    SharedKey (events w.db) ↔ ∀ x ∈ past, ¬VersionKeyed x.1 x.2 := by
  induction h with
  | @start w hw =>
    obtain ⟨tenants,hdb⟩ := hw.db
    have hnone : events w.db=[] := by rw [hdb]; rfl
    rw [hnone]
    exact iff_of_true (by simp [SharedKey]) (by simp)
  | next _ ha ih =>
    rw [(step_written ha).sharedKey,ih,List.forall_mem_append,List.forall_mem_singleton]

/-- The small upload is submitted, delivered to the fetcher, and read; its source is a PDF or not. -/
def smallFetchRun (answer : Fetcher.PdfAnswer) : List Action :=
  (smallRun (py "text")).take 11 ++
    [.fetch 0 (.inspect readAvailable (fun _ => answer)),.fetch 0 (.process ⟨⟨6⟩,[],⟨7⟩,1,1,1⟩ .none)]

def recordKey (e : OutboxEvent) : Option PyStr := (Publisher.kafkaMessage e).toOption.map (·.key)

lemma recordKey_eq_some {e : OutboxEvent} {key : PyStr} :
    recordKey e=some key ↔ ∃ m, Publisher.kafkaMessage e=.ok m ∧ m.key=key := by
  cases h : Publisher.kafkaMessage e with
  | error error => simp [recordKey,h,Except.toOption]
  | ok m => simp [recordKey,h,Except.toOption]

/-- A submission and its rejected fetch share their key. -/
theorem rejected_fetch_keys : ∃ past w, (system plainConfig).Traced past w ∧
    (events w.db).length=2 ∧ SharedKey (events w.db) ∧ ∀ x ∈ past, ¬VersionKeyed x.1 x.2 := by
  have hrun : ((system plainConfig).run plainWorld (smallFetchRun .unreadable)).any
      (fun w => (events w.db).length=2 ∧
        (events w.db).all (fun e => recordKey e=some (documentKey e)))=true := by
    decide +kernel
  obtain ⟨w,hrun,hkeys⟩ := (Option.any_eq_true _ _).mp hrun
  obtain ⟨hlength,hall⟩ := of_decide_eq_true hkeys
  obtain ⟨past,hpast⟩ := System.Traced.run (.start plainWorld_initial) hrun
  have hshared : SharedKey (events w.db) := by
    refine sharedKey_iff.mpr ?_
    intro e he m hm
    have hkey := of_decide_eq_true (List.all_eq_true.mp hall e he)
    obtain ⟨n,hn,hkey⟩ := recordKey_eq_some.mp hkey
    cases hm.symm.trans hn
    exact hkey
  exact ⟨_,w,hpast,hlength,hshared,(shared_key_iff hpast).mp hshared⟩

/-- A submission and its successful fetch have the keys of the document and of the version. -/
theorem submission_and_fetch_keys_differ :
    ¬∀ (c : Config) (w : World), (system c).Reach Genuine w → SharedKey (events w.db) := by
  intro h
  have hrun : ((system plainConfig).runIf Genuine plainWorld (smallFetchRun (.pages 1))).any
      (fun w => (events w.db).map (fun e => (e.tenantId,e.payload.documentId,recordKey e))=
        [(⟨1⟩,UUID.str ⟨2⟩,some (UUID.str ⟨1⟩ ++ py ":" ++ UUID.str ⟨2⟩)),
          (⟨1⟩,UUID.str ⟨2⟩,some (UUID.str ⟨1⟩ ++ py ":" ++ UUID.str ⟨3⟩))])=true := by
    decide +kernel
  obtain ⟨w,hrun,hrows⟩ := (Option.any_eq_true _ _).mp hrun
  have hshared := h plainConfig w (.runIf (.start plainWorld_initial) hrun)
  obtain ⟨e,rest,hevents,he,hrest⟩ := List.map_eq_cons_iff.mp (of_decide_eq_true hrows)
  obtain ⟨f,rest,rfl,hf,-⟩ := List.map_eq_cons_iff.mp hrest
  simp only [Prod.mk.injEq] at he hf
  obtain ⟨het,hed,hekey⟩ := he
  obtain ⟨hft,hfd,hfkey⟩ := hf
  obtain ⟨m,hm,hmkey⟩ := recordKey_eq_some.mp hekey
  obtain ⟨n,hn,hnkey⟩ := recordKey_eq_some.mp hfkey
  have hsame := (hshared e (by simp [hevents]) f (by simp [hevents]) (het.trans hft.symm)
    (hed.trans hfd.symm) m n hm hn).1
  rw [hmkey,hnkey] at hsame
  exact absurd hsame (by decide)

end RagIngestion.Pipeline
