import RagIngestion.Publisher.Process
import RagIngestion.Fetcher.Handle
import RagIngestion.Extractor.Handle

/-! The whole pipeline: submissions, outbox publishers, fetcher calls and extractor calls over
one database, one broker and two buckets. A step is one action of one of them. -/
namespace RagIngestion.Pipeline
open RagIngestion.Python RagIngestion.Domain RagIngestion.Database RagIngestion.Storage
open RagIngestion.Library

/-- The settings the components read, and the Python installation. -/
structure Config where
  rt : Extractor.Runtime
  sourceBucket : BucketName
  artifactBucket : BucketName
  apiMaxUploadBytes : ℕ
  fetcherMaxDocumentBytes : ℕ
  extractionMaxBytes : ℕ

structure World where
  source : PyStr → Option StoredObject
  artifacts : PyStr → Option Bytes
  db : Db
  broker : List Publisher.KafkaMessage
  request : ℕ → Submission.Phase
  publisher : ℕ → Publisher.Process
  fetching : ℕ → Fetcher.Task
  extracting : ℕ → Extractor.Task

inductive Action
  | submit (a : Submission.Action)
  | publish (a : Publisher.Action)
  | fetch (t : ℕ) (a : Fetcher.Action)
  | extract (t : ℕ) (a : Extractor.Action)
  /-- Somebody else writes to the source bucket. -/
  | overwrite (key : PyStr) (o : Option StoredObject)

/-- The parts of the world a submission works on. -/
def World.submissions (w : World) : Submission.State := ⟨w.source,w.db,w.request⟩

/-- The parts of the world the publishers work on. -/
def World.publishers (w : World) : Publisher.State := ⟨w.db.outbox,w.broker,w.publisher⟩

def World.stores (w : World) : Extractor.Stores := ⟨w.artifacts,w.db⟩

variable (c : Config)

/-- Rows are inserted by the other components, never by a publisher. -/
def step (w : World) : Action → Option World
  | .submit a =>
    (Submission.step c.rt.sha256 c.sourceBucket c.apiMaxUploadBytes w.submissions a).map fun s =>
      { w with source := s.source, db := s.db, request := s.request }
  | .publish a =>
    if a.process?=none then none
    else (Publisher.step w.publishers a).map fun s =>
      { w with db := { w.db with outbox := s.outbox }, broker := s.broker, publisher := s.process }
  | .fetch t a =>
    (Fetcher.step c.rt.sha256 c.sourceBucket c.fetcherMaxDocumentBytes w.source w.db
      (w.fetching t) a).map fun s =>
        { w with db := s.1, fetching := Function.update w.fetching t s.2 }
  | .extract t a =>
    (Extractor.step c.rt c.sourceBucket c.artifactBucket c.extractionMaxBytes w.source w.stores
      (w.extracting t) a).map fun s =>
        { w with
          artifacts := s.1.artifacts
          db := s.1.db
          extracting := Function.update w.extracting t s.2 }
  | .overwrite key o => some { w with source := Function.update w.source key o }

/-- A database with tenants only, and nothing running. -/
structure Initial (w : World) : Prop where
  db : ∃ tenants, w.db=Db.empty tenants
  broker : w.broker=[]
  request : ∀ r, w.request r=.waiting
  publisher : ∀ p, (w.publisher p).phase=.stopped ∧ (w.publisher p).queue=[]
  fetching : ∀ t, w.fetching t=.idle
  extracting : ∀ t, w.extracting t=.idle

def system : System World Action := ⟨Initial,step c⟩

/-- What each action can do: a step of one component on its parts of the world. -/
inductive Transition (w : World) : Action → World → Prop
  | submit {a s}
      (h : Submission.step c.rt.sha256 c.sourceBucket c.apiMaxUploadBytes w.submissions a=some s) :
      Transition w (.submit a) { w with source := s.source, db := s.db, request := s.request }
  | publish {a s} (ha : a.process?≠none) (h : Publisher.step w.publishers a=some s) :
      Transition w (.publish a)
        { w with db := { w.db with outbox := s.outbox }, broker := s.broker, publisher := s.process }
  | fetch {t a db task}
      (h : Fetcher.Transition c.rt.sha256 c.sourceBucket c.fetcherMaxDocumentBytes w.source w.db
        (w.fetching t) a db task) :
      Transition w (.fetch t a) { w with db := db, fetching := Function.update w.fetching t task }
  | extract {t a stores task}
      (h : Extractor.Transition c.rt c.sourceBucket c.artifactBucket c.extractionMaxBytes w.source
        w.stores (w.extracting t) a stores task) :
      Transition w (.extract t a)
        { w with
          artifacts := stores.artifacts
          db := stores.db
          extracting := Function.update w.extracting t task }
  | overwrite {key o} :
      Transition w (.overwrite key o) { w with source := Function.update w.source key o }

/-- The transactions of the consumers that a world may commit. -/
inductive ConsumerOutcome (w : World) : Outcome → Draws → Prop
  | fetch {t p i e ids draws o} (ht : w.fetching t=.processing p i e) (hn : Fetcher.Names p ids)
      (ho : Fetcher.FetchOutcome p i e ids draws w.db o) : ConsumerOutcome w o draws
  | complete {t p result normalizedUri manifestUri ids correlationId version draws}
      (ht : w.extracting t=.completing p result normalizedUri manifestUri)
      (hn : Extractor.Names p ids correlationId)
      (hv : Extractor.currentVersions ids p.contentSha256 w.db=[version]) :
      ConsumerOutcome w
        (Extractor.completion c.rt p ids correlationId result normalizedUri manifestUri draws) draws
  | reject {t p error ids correlationId draws} (ht : w.extracting t=.rejecting p error)
      (hn : Extractor.Names p ids correlationId) :
      ConsumerOutcome w (Extractor.rejection ids correlationId error draws) draws

/-- What a step can do to the database. -/
inductive DbStep (w : World) : Db → Prop
  | same : DbStep w w.db
  | publish {rows} (hids : rows.map (·.id)=w.db.outbox.map (·.id))
      (hevents : rows.map (·.event)=w.db.outbox.map (·.event)) :
      DbStep w { w.db with outbox := rows }
  | submit {r d eventId occurredAt outboxId now after} (hr : w.request r=.persisting d)
      (h : d.submission c.rt.sha256 c.sourceBucket eventId occurredAt outboxId now w.db=.ok after) :
      DbStep w after
  | consume {o draws after} (ho : ConsumerOutcome c w o draws)
      (h : Committed o draws.outboxId draws.now w.db after) : DbStep w after

variable {c}

theorem transition_of_step {w after : World} {a : Action} (h : step c w a=some after) :
    Transition c w a after := by
  cases a with
  | submit a =>
    obtain ⟨s,hs,rfl⟩ := Option.map_eq_some_iff.mp h
    exact .submit hs
  | publish a =>
    simp only [step] at h
    split at h
    · cases h
    · rename_i ha
      obtain ⟨s,hs,rfl⟩ := Option.map_eq_some_iff.mp h
      exact .publish ha hs
  | fetch t a =>
    obtain ⟨s,hs,rfl⟩ := Option.map_eq_some_iff.mp h
    exact .fetch (Fetcher.transition_of_step _ _ _ hs)
  | extract t a =>
    obtain ⟨s,hs,rfl⟩ := Option.map_eq_some_iff.mp h
    exact .extract (Extractor.transition_of_step _ _ _ _ hs)
  | overwrite key o =>
    cases h
    exact .overwrite

/-- Publishers change no id and no event of the table. -/
theorem publisher_step_columns {s t : Publisher.State} {a : Publisher.Action}
    (ha : a.process?≠none) (h : Publisher.step s a=some t) :
    t.outbox.map (·.id)=s.outbox.map (·.id) ∧ t.outbox.map (·.event)=s.outbox.map (·.event) := by
  cases Publisher.transition_of_step h with
  | insert => exact absurd rfl ha
  | claimLost _ hc => exact ⟨claimOutboxEvents_ids hc,claimOutboxEvents_events hc⟩
  | claimed _ hc => exact ⟨claimOutboxEvents_ids hc,claimOutboxEvents_events hc⟩
  | completeLost _ hc => exact ⟨completeOutboxEvent_ids hc,completeOutboxEvent_events hc⟩
  | completed _ hc => exact ⟨completeOutboxEvent_ids hc,completeOutboxEvent_events hc⟩
  | reportLost _ hc => exact ⟨completeOutboxEvent_ids hc,completeOutboxEvent_events hc⟩
  | reported _ hc => exact ⟨completeOutboxEvent_ids hc,completeOutboxEvent_events hc⟩
  | _ => exact ⟨rfl,rfl⟩

theorem fetch_db {w : World} {t : ℕ} {a : Fetcher.Action} {after : Db} {task : Fetcher.Task}
    (h : Fetcher.Transition c.rt.sha256 c.sourceBucket c.fetcherMaxDocumentBytes w.source w.db
      (w.fetching t) a after task) : DbStep c w after := by
  generalize ht : w.fetching t=before at h
  cases h with
  | processed hp hf =>
    obtain ⟨-,-,-,-,-,rfl⟩ | ⟨ids,o,after,hn,ho,hcommit,rfl⟩ := Fetcher.process_eq_ok hp
    · exact .same
    · exact .consume (.fetch ht hn ho) hcommit
  | _ => exact .same

theorem extract_db {w : World} {t : ℕ} {a : Extractor.Action} {after : Extractor.Stores}
    {task : Extractor.Task}
    (h : Extractor.Transition c.rt c.sourceBucket c.artifactBucket c.extractionMaxBytes w.source
      w.stores (w.extracting t) a after task) : DbStep c w after.db := by
  generalize ht : w.extracting t=before at h
  cases h with
  | putNormalized hput => cases hput <;> exact .same
  | putManifest hput => cases hput <;> exact .same
  | completed hc hf =>
    obtain ⟨-,-,-,rfl⟩ | ⟨ids,correlationId,version,after,hn,hv,hcommit,rfl⟩ :=
      Extractor.complete_eq_ok hc
    · exact .same
    · exact .consume (.complete ht hn hv) hcommit
  | rejected hr hf =>
    obtain ⟨-,-,-,rfl⟩ | ⟨ids,correlationId,after,hn,hcommit,rfl⟩ := Extractor.reject_eq_ok hr
    · exact .same
    · exact .consume (.reject ht hn) hcommit
  | _ => exact .same

theorem submit_db {w : World} {a : Submission.Action} {s : Submission.State}
    (h : Submission.step c.rt.sha256 c.sourceBucket c.apiMaxUploadBytes w.submissions a=some s) :
    DbStep c w s.db := by
  cases Submission.transition_of_step _ _ _ h with
  | persistLost hr hdb => exact .submit hr hdb
  | persist hr hdb => exact .submit hr hdb
  | _ => exact .same

/-- A step changes the database by at most one transaction of one component. -/
theorem step_db {w after : World} {a : Action} (h : step c w a=some after) : DbStep c w after.db := by
  cases transition_of_step h with
  | submit hs => exact submit_db hs
  | publish ha hs =>
    obtain ⟨hids,hevents⟩ := publisher_step_columns ha hs
    exact .publish hids hevents
  | fetch hs => exact fetch_db hs
  | extract hs => exact extract_db hs
  | overwrite => exact .same

/-- A step moves at most the fetcher call it is about. -/
theorem fetching_step {w after : World} {a : Action} (ha : step c w a=some after) (t : ℕ) :
    after.fetching t=w.fetching t ∨ ∃ b, a=.fetch t b ∧
      Fetcher.Transition c.rt.sha256 c.sourceBucket c.fetcherMaxDocumentBytes w.source w.db
        (w.fetching t) b after.db (after.fetching t) := by
  cases transition_of_step ha with
  | @fetch u a db task hs =>
    by_cases ht : t=u
    · subst ht
      simp only [Function.update_self]
      exact .inr ⟨a,rfl,hs⟩
    · exact .inl (Function.update_of_ne ht _ _)
  | _ => exact .inl rfl

/-- A step moves at most the extractor call it is about. -/
theorem extracting_step {w after : World} {a : Action} (ha : step c w a=some after) (t : ℕ) :
    after.extracting t=w.extracting t ∨ ∃ b, a=.extract t b ∧
      Extractor.Transition c.rt c.sourceBucket c.artifactBucket c.extractionMaxBytes w.source w.stores
        (w.extracting t) b after.stores (after.extracting t) := by
  cases transition_of_step ha with
  | @extract u a stores task hs =>
    by_cases ht : t=u
    · subst ht
      simp only [Function.update_self]
      exact .inr ⟨a,rfl,hs⟩
    · exact .inl (Function.update_of_ne ht _ _)
  | _ => exact .inl rfl

end RagIngestion.Pipeline
