import RagIngestion.Pipeline.Interleaving

/-! The four transactions lock in one order, so none of them waits for ever. -/
namespace RagIngestion.Pipeline
open RagIngestion.Python RagIngestion.Domain RagIngestion.Database RagIngestion.Library
open RagIngestion.Extractor (Raised raising raising_eq_ok)

/-- The order in which all four transactions lock. -/
def rank : Key → ℕ
  | .processedEvent _ => 1
  | .documentId _ => 2
  | .documentSource .. => 2
  | .versionId _ => 3
  | .versionNumber .. => 3
  | .versionContent .. => 3
  | .versionRow .. => 4
  | .documentRow .. => 5
  | .outboxId _ => 6
  | .outboxEvent .. => 6

section
variable {α β : Type} {n : ℕ}

/-- A statement whose keys have one rank, above those so far. -/
lemma ascending_sql (next : ℕ) {q : Statement} {f : Answer q → Sql β}
    (hkeys : ∀ w ∈ q.write?, ∀ k ∈ w.keys, rank k=next) (hn : n<next)
    (h : ∀ r, Sessions.Ascending engine rank next (f r)) :
    Sessions.Ascending engine rank n (sql q >>= f) := by
  refine ⟨next,hn.le,?_,h⟩
  intro d r ws hq w hw k hk
  replace hq : raising (q.exec d)=.ok (r,ws) := hq
  rw [hkeys w (Statement.exec_writes (raising_eq_ok.mp hq) hw) k hk]
  exact ⟨hn,le_refl next⟩

/-- A statement that locks nothing. -/
lemma ascending_free {q : Statement} {f : Answer q → Sql β} (hkeys : ∀ w ∈ q.write?, w.keys=[])
    (h : ∀ r, Sessions.Ascending engine rank n (f r)) :
    Sessions.Ascending engine rank n (sql q >>= f) := by
  refine ⟨n,le_refl n,?_,h⟩
  intro d r ws hq w hw k hk
  replace hq : raising (q.exec d)=.ok (r,ws) := hq
  replace hk : k ∈ w.keys := hk
  rw [hkeys w (Statement.exec_writes (raising_eq_ok.mp hq) hw)] at hk
  cases hk

lemma ascending_call {x : Except PyError α} {f : α → Sql β}
    (h : ∀ a, Sessions.Ascending engine rank n (f a)) :
    Sessions.Ascending engine rank n (call x >>= f) := by
  cases x with
  | error e => trivial
  | ok a => exact h a

lemma ascending_insertOutbox {id : UUID} {event : OutboxEvent} {now : Time} {b : Bool} (hn : n<6) :
    Sessions.Ascending (α := Bool) engine rank n (sql (.insertOutbox id event now) >>= fun _ => pure b) := by
  refine ascending_sql 6 ?_ hn fun _ => trivial
  rintro w ⟨⟩ k hk
  simp only [Write.keys,List.mem_cons,List.not_mem_nil,or_false] at hk
  obtain rfl | rfl := hk <;> rfl

lemma ascending_setConfig {tenantId : PyStr} {f : Unit → Sql β}
    (h : Sessions.Ascending engine rank n (f ())) :
    Sessions.Ascending (α := β) engine rank n (sql (.setConfig tenantId) >>= f) :=
  ascending_free (fun _ hw => by cases hw) fun _ => h

lemma ascending_claim {e : ProcessedEvent} {f : Bool → Sql β} (hn : n<1)
    (h : ∀ b, Sessions.Ascending engine rank 1 (f b)) :
    Sessions.Ascending (α := β) engine rank n (sql (.claimEvent e) >>= f) := by
  refine ascending_sql 1 ?_ hn h
  rintro w ⟨⟩ k hk
  rw [List.mem_singleton.mp hk,rank]

lemma ascending_select {p : VersionFacts → Bool} {f : Option VersionFacts → Sql β}
    (h : ∀ o, Sessions.Ascending engine rank n (f o)) :
    Sessions.Ascending (α := β) engine rank n (sql (.selectVersion p) >>= f) :=
  ascending_free (fun _ hw => by cases hw) h

lemma ascending_insertFailure {failure : IngestionFailure} {f : Unit → Sql β}
    (h : Sessions.Ascending engine rank n (f ())) :
    Sessions.Ascending (α := β) engine rank n (sql (.insertFailure failure) >>= f) := by
  refine ascending_free ?_ fun _ => h
  rintro w ⟨⟩
  rfl

lemma ascending_updateVersion {tenantId id : UUID} {update : VersionUpdate} {f : Unit → Sql β}
    (hn : n<4) (h : Sessions.Ascending engine rank 4 (f ())) :
    Sessions.Ascending (α := β) engine rank n (sql (.updateVersion tenantId id update) >>= f) := by
  refine ascending_sql 4 ?_ hn fun _ => h
  rintro w ⟨⟩ k hk
  rw [List.mem_singleton.mp hk,rank]

lemma ascending_updateDocument {tenantId id : UUID} {update : DocumentUpdate} {f : Unit → Sql β}
    (hn : n<5) (h : Sessions.Ascending engine rank 5 (f ())) :
    Sessions.Ascending (α := β) engine rank n (sql (.updateDocument tenantId id update) >>= f) := by
  refine ascending_sql 5 ?_ hn fun _ => h
  rintro w ⟨⟩ k hk
  rw [List.mem_singleton.mp hk,rank]

lemma ascending_enqueueFailure {payload : DocumentSubmitted} {error : Fetcher.FetchValidationError}
    {draws : Draws} {b : Bool} (hn : n<6) : Sessions.Ascending (α := Bool) engine rank n
      (enqueueFailureScript payload error draws >>= fun _ => pure b) := by
  unfold enqueueFailureScript
  cases UUID.ofText payload.tenantId with
  | error e => trivial
  | ok tenantId =>
    cases UUID.ofText payload.documentId with
    | error e => trivial
    | ok documentId =>
      cases UUID.ofText payload.correlationId with
      | error e => trivial
      | ok correlationId =>
        cases UUID.ofText payload.eventId with
        | error e => trivial
        | ok causationId => exact ascending_insertOutbox hn

theorem createSubmissionScript_ascending {tenantId documentId versionId : UUID}
    {sourceExternalId : PyStr} {title : Option PyStr}
    {classification contentSha256 sourceObjectUri mimeType : PyStr} {byteSize : ℕ} {eventId : UUID}
    {eventPayload : DocumentSubmitted} {outboxId : UUID} {now : Time} :
    Sessions.Ascending engine rank 0 (createSubmissionScript tenantId documentId versionId
      sourceExternalId title classification contentSha256 sourceObjectUri mimeType byteSize eventId
      eventPayload outboxId now) := by
  refine ascending_setConfig ?_
  refine ascending_sql 2 ?_ (by omega) fun _ => ascending_sql 3 ?_ (by omega) fun _ => ?_
  · rintro w ⟨⟩ k hk
    simp only [Write.keys,List.mem_cons,List.not_mem_nil,or_false] at hk
    obtain rfl | rfl := hk <;> rfl
  · rintro w ⟨⟩ k hk
    simp only [Write.keys,List.mem_cons,List.not_mem_nil,or_false] at hk
    obtain rfl | rfl | rfl := hk <;> rfl
  · refine ascending_updateDocument (by omega) ?_
    exact ascending_insertOutbox (by omega)

theorem processScript_ascending {payload : DocumentSubmitted}
    {inspection : Option Fetcher.SourceInspection} {error : Option Fetcher.FetchValidationError}
    {draws : Draws} :
    Sessions.Ascending engine rank 0 (processScript payload inspection error draws) := by
  refine ascending_call fun tenantId => ?_
  refine ascending_call fun documentId => ?_
  refine ascending_call fun eventId => ?_
  refine ascending_setConfig ?_
  refine ascending_claim (by omega) ?_
  intro claimed
  cases claimed with
  | false => trivial
  | true =>
    refine ascending_select ?_
    intro version
    cases version with
    | none => exact ascending_enqueueFailure (by omega)
    | some v =>
      dsimp only
      split
      · refine ascending_updateVersion (by omega) ?_
        refine ascending_updateDocument (by omega) ?_
        refine ascending_insertFailure ?_
        exact ascending_enqueueFailure (by omega)
      · split
        · trivial
        · refine ascending_updateVersion (by omega) ?_
          refine ascending_updateDocument (by omega) ?_
          refine ascending_call fun correlationId => ?_
          exact ascending_insertOutbox (by omega)

theorem completeScript_ascending {rt : Extractor.Runtime} {payload : DocumentFetched}
    {result : Extractor.ExtractionResult} {normalizedUri manifestUri : PyStr} {draws : Draws} :
    Sessions.Ascending engine rank 0
      (completeScript rt payload result normalizedUri manifestUri draws) := by
  refine ascending_call fun ids => ?_
  refine ascending_setConfig ?_
  refine ascending_claim (by omega) ?_
  intro claimed
  cases claimed with
  | false => trivial
  | true =>
    refine ascending_select ?_
    intro version
    cases version with
    | none => trivial
    | some v =>
      refine ascending_updateVersion (by omega) ?_
      refine ascending_updateDocument (by omega) ?_
      refine ascending_call fun correlationId => ?_
      exact ascending_insertOutbox (by omega)

theorem rejectScript_ascending {payload : DocumentFetched} {error : Extractor.ExtractionError}
    {draws : Draws} : Sessions.Ascending engine rank 0 (rejectScript payload error draws) := by
  refine ascending_call fun ids => ?_
  refine ascending_setConfig ?_
  refine ascending_claim (by omega) ?_
  intro claimed
  cases claimed with
  | false => trivial
  | true =>
    refine ascending_updateVersion (by omega) ?_
    refine ascending_updateDocument (by omega) ?_
    refine ascending_call fun correlationId => ?_
    exact ascending_insertOutbox (by omega)

theorem Transaction.script_ascending (rt : Extractor.Runtime) (t : Transaction) :
    Sessions.Ascending engine rank 0 (t.script rt) := by
  cases t with
  | createSubmission => exact createSubmissionScript_ascending
  | process => exact processScript_ascending
  | complete => exact completeScript_ascending
  | reject => exact rejectScript_ascending

end

/-- The four transactions cannot deadlock: however their statements were interleaved, while one is
under way, some transaction can execute its next statement, raise or commit. -/
theorem interleaved_never_stuck {rt : Extractor.Runtime} {db : Db} {s : Interleaved}
    (h : (interleaving rt db).Reachable s) {t : ℕ} (ht : s.running t≠none) :
    ∃ u, ((interleaving rt db).step s (.advance u)).isSome ∨
      ((interleaving rt db).step s (.commit u)).isSome := by
  have hinv : Sessions.Locked engine.keys s ∧ Sessions.Ordered engine rank s := by
    refine System.Reachable.invariant (I := fun s => Sessions.Locked engine.keys s ∧
      Sessions.Ordered engine rank s) ?_ ?_ h
    · intro s hs
      refine ⟨Sessions.locked_of_initial hs,?_⟩
      intro t x hx
      rw [hs.2.2.2 t] at hx
      cases hx
    · intro s a after hs ha
      exact ⟨hs.1.step ha,hs.2.step (Transaction.script_ascending rt) ha⟩
  have htop : ∀ k, rank k ≤ 6 := by
    intro k
    cases k <;> simp [rank]
  obtain ⟨x,hx⟩ := Option.ne_none_iff_exists'.mp ht
  have hstep : ∃ u, (Sessions.step engine (Transaction.script rt) s (.advance u)).isSome ∨
      (Sessions.step engine (Transaction.script rt) s (.commit u)).isSome :=
    Sessions.exists_step hinv.1 hinv.2 htop hx
  exact hstep

/-- The second of two fetches waits for the first one, which goes on. -/
theorem fetched_twice_never_stuck : ∃ s : Interleaved, s.running 2≠none ∧
    ((interleaving Extractor.plainRuntime (Db.empty [⟨1⟩])).step s (.advance 2))=none ∧
    ∃ u, ((interleaving Extractor.plainRuntime (Db.empty [⟨1⟩])).step s (.advance u)).isSome ∨
      ((interleaving Extractor.plainRuntime (Db.empty [⟨1⟩])).step s (.commit u)).isSome := by
  have hrun : ((interleaving Extractor.plainRuntime (Db.empty [⟨1⟩])).run oneTenant
      (fetchedTwice.take 12)).any (fun s => (s.running 2).isSome &&
        ((interleaving Extractor.plainRuntime (Db.empty [⟨1⟩])).step s (.advance 2)).isNone)=true := by
    decide +kernel
  obtain ⟨s,hrun,hwaits⟩ := (Option.any_eq_true _ _).mp hrun
  obtain ⟨hrunning,hwaits⟩ := Bool.and_eq_true_iff.mp hwaits
  have hne : s.running 2≠none := Option.isSome_iff_ne_none.mp hrunning
  exact ⟨s,hne,Option.isNone_iff_eq_none.mp hwaits,
    interleaved_never_stuck (System.Reachable.run oneTenant_reach.reachable hrun) hne⟩

end RagIngestion.Pipeline
