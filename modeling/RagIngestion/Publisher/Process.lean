import RagIngestion.Database.OutboxFunctions
import RagIngestion.Library.Runs

/-! Outbox publishers: any number of processes run `publish_batch` over one outbox table,
each with its own producer queue, while rows are inserted and processes are killed. -/
namespace RagIngestion.Publisher
open RagIngestion.Python RagIngestion.Domain RagIngestion.Database RagIngestion.Library

/-- A produced message. Its value is the Avro encoding of `record` under the schema file. -/
structure KafkaMessage where
  topic : PyStr
  key : PyStr
  schemaFile : PyStr
  record : EventPayload
  headers : List (PyStr × PyStr)
  deriving DecidableEq

/-- `EVENT_SCHEMA_FILES`. -/
def eventSchemaFiles : List ((PyStr × PyStr) × PyStr) :=
  [((py "rag.ingestion.v1",py "document-submitted"),py "document-submitted.avsc"),
    ((py "rag.ingestion.v1",py "document-fetched"),py "document-fetched.avsc"),
    ((py "rag.ingestion.v1",py "document-fetch-rejected"),py "document-fetch-rejected.avsc"),
    ((py "rag.ingestion.v1",py "content-extracted"),py "content-extracted.avsc"),
    ((py "rag.ingestion.v1",py "content-extraction-rejected"),py "content-extraction-rejected.avsc")]

/-- `_resolve_contract_metadata`: the contract namespace and the schema name of a row. -/
def resolveContractMetadata (event : OutboxEvent) : Except PyError (PyStr × PyStr) :=
  let contractNamespace :=
    if event.eventContractNamespace=[] then py "rag.ingestion.v1" else event.eventContractNamespace
  if event.eventSchemaName=[] then .error .valueError
  else .ok (contractNamespace,event.eventSchemaName)

/-- The message `_publish_event` produces for a row, unless its contract is unknown. -/
def kafkaMessage (event : OutboxEvent) : Except PyError KafkaMessage :=
  match resolveContractMetadata event with
  | .error e => .error e
  | .ok contract =>
    match eventSchemaFiles.lookup contract with
    | none => .error .valueError
    | some schemaFile => .ok {
        topic := event.kafkaTopic
        key := event.tenantId.str ++ py ":" ++ event.aggregateId.str
        schemaFile := schemaFile
        record := event.payload
        headers := event.headers ++
          [(py "content-type",py "application/vnd.apache.avro.binary"),
            (py "event-contract-namespace",contract.1),
            (py "event-schema-name",contract.2),
            (py "schema-version",event.payload.schemaVersion)] }

/-- A produced message carries the payload of its row, on the topic of the row. -/
theorem kafkaMessage_eq_ok {event : OutboxEvent} {m : KafkaMessage} (h : kafkaMessage event=.ok m) :
    m.record=event.payload ∧ m.topic=event.kafkaTopic := by
  unfold kafkaMessage at h
  split at h
  · cases h
  · split at h
    · cases h
    · cases h; exact ⟨rfl,rfl⟩

/-- Where a process stands in `_run` and `publish_batch`. In the last four phases the first
row is the event in work and the list holds the events still to come. -/
inductive Phase
  | stopped
  | idle
  | publishing (event : OutboxRow) (rest : List OutboxRow)
  | flushing (event : OutboxRow) (rest : List OutboxRow)
  | completing (event : OutboxRow) (rest : List OutboxRow)
  | failing (event : OutboxRow) (rest : List OutboxRow)

/-- The claimed rows a running call of `publish_batch` still has to complete. -/
def Phase.held : Phase → List OutboxRow
  | .stopped => []
  | .idle => []
  | .publishing e es => e::es
  | .flushing e es => e::es
  | .completing e es => e::es
  | .failing e es => e::es

/-- The loop of `publish_batch` goes to the next event, or the call returns. -/
def Phase.loop : List OutboxRow → Phase
  | [] => .idle
  | e::es => .publishing e es

@[simp] theorem Phase.held_loop (es : List OutboxRow) : (Phase.loop es).held=es := by cases es <;> rfl

/-- A process: its settings, its place in the code and its local producer queue. -/
structure Process where
  workerName : PyStr
  batchSize : ℤ
  phase : Phase
  queue : List KafkaMessage

/-- The outbox table, the messages the broker has accepted, and the processes. -/
structure State where
  outbox : List OutboxRow
  broker : List KafkaMessage
  process : ℕ → Process

def State.setProcess (s : State) (p : ℕ) (x : Process) : State :=
  { s with process := Function.update s.process p x }

/-- Stop a process; its local queue is lost. -/
def State.stop (s : State) (p : ℕ) : State :=
  s.setProcess p { s.process p with phase := .stopped, queue := [] }

def State.setPhase (s : State) (p : ℕ) (phase : Phase) : State :=
  s.setProcess p { s.process p with phase := phase }

inductive Action
  /-- Some transaction inserts a row. -/
  | insert (id : UUID) (event : OutboxEvent) (now : Time)
  | start (p : ℕ) (workerName : PyStr) (batchSize : ℤ)
  | kill (p : ℕ)
  /-- `claim_outbox_events`; the order of the returned rows is the server's choice. -/
  | claim (p : ℕ) (now : Time) (locked : List UUID) (returned : List OutboxRow) (fault : Fault)
  /-- `_publish_event` up to `produce`, which may raise for reasons of its own. -/
  | produce (p : ℕ) (raises : Bool)
  /-- The broker accepts a queued message. -/
  | accept (p : ℕ) (i : ℕ)
  /-- A queued message is permanently refused or expires. -/
  | drop (p : ℕ) (i : ℕ)
  /-- `flush(10.0)` returns the number of messages that are still queued, or raises. -/
  | flush (p : ℕ) (raises : Bool)
  /-- `_complete(…, succeeded=True)`. -/
  | complete (p : ℕ) (now : Time) (fault : Fault)
  /-- `_complete(…, succeeded=False)` in the exception handler, at the process's own time. -/
  | report (p : ℕ) (now : Time) (clock : Time) (error : PyStr) (fault : Fault)

/-- `min(300, 2 ** min(attempt_count, 8))` seconds after the process's own time. -/
def retryAt (clock : Time) (attemptCount : ℕ) : Time :=
  clock+1000000*min 300 (2^min attemptCount 8)

def step (s : State) : Action → Option State
  | .insert id event now =>
    if s.outbox.any (fun r => r.id=id) then none
    else some { s with outbox := s.outbox ++ [.inserted id event now] }
  | .start p workerName batchSize =>
    match (s.process p).phase with
    | .stopped => some (s.setProcess p ⟨workerName,batchSize,.idle,[]⟩)
    | _ => none
  | .kill p => some (s.stop p)
  | .claim p now locked returned fault =>
    let x := s.process p
    match x.phase with
    | .idle =>
      match fault, claimOutboxEvents x.workerName x.batchSize now locked s.outbox with
      | .before, _ => some (s.stop p)
      | _, .error _ => some (s.stop p)
      | .after, .ok (_,rows) => some ({ s with outbox := rows }.stop p)
      | .none, .ok (claimed,rows) =>
        if returned.Perm claimed then
          some ({ s with outbox := rows }.setPhase p (.loop returned))
        else none
    | _ => none
  | .produce p raises =>
    match (s.process p).phase with
    | .publishing e es =>
      match raises, kafkaMessage e.event with
      | false, .ok m =>
        let x := s.process p
        some (s.setProcess p { x with phase := .flushing e es, queue := x.queue ++ [m] })
      | _, _ => some (s.setPhase p (.failing e es))
    | _ => none
  | .accept p i =>
    let x := s.process p
    match x.queue[i]? with
    | some m => some ({ s with broker := s.broker ++ [m] }.setProcess p
        { x with queue := x.queue.eraseIdx i })
    | none => none
  | .drop p i =>
    let x := s.process p
    if i<x.queue.length then some (s.setProcess p { x with queue := x.queue.eraseIdx i }) else none
  | .flush p raises =>
    match (s.process p).phase with
    | .flushing e es =>
      if raises=false ∧ (s.process p).queue=[] then some (s.setPhase p (.completing e es))
      else some (s.setPhase p (.failing e es))
    | _ => none
  | .complete p now fault =>
    let x := s.process p
    match x.phase with
    | .completing e es =>
      match fault, completeOutboxEvent e.id x.workerName true none none now s.outbox with
      | .before, _ => some (s.setPhase p (.failing e es))
      | _, .error _ => some (s.setPhase p (.failing e es))
      | .after, .ok rows => some ({ s with outbox := rows }.setPhase p (.failing e es))
      | .none, .ok rows => some ({ s with outbox := rows }.setPhase p (.loop es))
    | _ => none
  | .report p now clock error fault =>
    let x := s.process p
    match x.phase with
    | .failing e es =>
      match fault, completeOutboxEvent e.id x.workerName false (some (error.take 4000))
          (some (retryAt clock e.attemptCount)) now s.outbox with
      | .before, _ => some (s.stop p)
      | _, .error _ => some (s.stop p)
      | .after, .ok rows => some ({ s with outbox := rows }.stop p)
      | .none, .ok rows => some ({ s with outbox := rows }.setPhase p (.loop es))
    | _ => none

/-- Publishers start stopped, over a table whose rows are all freshly inserted. -/
def Initial (s : State) : Prop :=
  (s.outbox.map (·.id)).Nodup ∧ (∀ r ∈ s.outbox, r.status=.pending) ∧
    ∀ p, (s.process p).phase=.stopped ∧ (s.process p).queue=[]

def system : System State Action := ⟨Initial,step⟩

/-- What each action can do: one case for each way through the code. -/
inductive Transition (s : State) : Action → State → Prop
  | insert {id event now} (fresh : ∀ r ∈ s.outbox, r.id≠id) :
      Transition s (.insert id event now) { s with outbox := s.outbox ++ [.inserted id event now] }
  | start {p w n} (h : (s.process p).phase=.stopped) :
      Transition s (.start p w n) (s.setProcess p ⟨w,n,.idle,[]⟩)
  | kill {p} : Transition s (.kill p) (s.stop p)
  | claimRaises {p now locked returned fault} (h : (s.process p).phase=.idle)
      (hc : fault=.before ∨ ∃ e, claimOutboxEvents (s.process p).workerName (s.process p).batchSize
        now locked s.outbox=.error e) :
      Transition s (.claim p now locked returned fault) (s.stop p)
  | claimLost {p now locked returned claimed rows} (h : (s.process p).phase=.idle)
      (hc : claimOutboxEvents (s.process p).workerName (s.process p).batchSize now locked s.outbox=
        .ok (claimed,rows)) :
      Transition s (.claim p now locked returned .after) ({ s with outbox := rows }.stop p)
  | claimed {p now locked returned claimed rows} (h : (s.process p).phase=.idle)
      (hc : claimOutboxEvents (s.process p).workerName (s.process p).batchSize now locked s.outbox=
        .ok (claimed,rows)) (hr : returned.Perm claimed) :
      Transition s (.claim p now locked returned .none)
        ({ s with outbox := rows }.setPhase p (.loop returned))
  | produced {p e es m} (h : (s.process p).phase=.publishing e es) (hm : kafkaMessage e.event=.ok m) :
      Transition s (.produce p false) (s.setProcess p
        { s.process p with phase := .flushing e es, queue := (s.process p).queue ++ [m] })
  | produceFails {p e es raises} (h : (s.process p).phase=.publishing e es) :
      Transition s (.produce p raises) (s.setPhase p (.failing e es))
  | accept {p i m} (h : (s.process p).queue[i]?=some m) :
      Transition s (.accept p i) ({ s with broker := s.broker ++ [m] }.setProcess p
        { s.process p with queue := (s.process p).queue.eraseIdx i })
  | drop {p i} (h : i<(s.process p).queue.length) :
      Transition s (.drop p i)
        (s.setProcess p { s.process p with queue := (s.process p).queue.eraseIdx i })
  | flushed {p e es} (h : (s.process p).phase=.flushing e es) (hq : (s.process p).queue=[]) :
      Transition s (.flush p false) (s.setPhase p (.completing e es))
  | flushFails {p e es raises} (h : (s.process p).phase=.flushing e es) :
      Transition s (.flush p raises) (s.setPhase p (.failing e es))
  | completeFails {p e es now fault} (h : (s.process p).phase=.completing e es) :
      Transition s (.complete p now fault) (s.setPhase p (.failing e es))
  | completeLost {p e es now rows} (h : (s.process p).phase=.completing e es)
      (hc : completeOutboxEvent e.id (s.process p).workerName true none none now s.outbox=.ok rows) :
      Transition s (.complete p now .after) ({ s with outbox := rows }.setPhase p (.failing e es))
  | completed {p e es now rows} (h : (s.process p).phase=.completing e es)
      (hc : completeOutboxEvent e.id (s.process p).workerName true none none now s.outbox=.ok rows) :
      Transition s (.complete p now .none) ({ s with outbox := rows }.setPhase p (.loop es))
  | reportFails {p e es now clock error fault} (h : (s.process p).phase=.failing e es)
      (hc : fault=.before ∨ s.outbox.any (isHeldBy e.id (s.process p).workerName)=false) :
      Transition s (.report p now clock error fault) (s.stop p)
  | reportLost {p e es now clock error rows} (h : (s.process p).phase=.failing e es)
      (hc : completeOutboxEvent e.id (s.process p).workerName false (some (error.take 4000))
        (some (retryAt clock e.attemptCount)) now s.outbox=.ok rows) :
      Transition s (.report p now clock error .after) ({ s with outbox := rows }.stop p)
  | reported {p e es now clock error rows} (h : (s.process p).phase=.failing e es)
      (hc : completeOutboxEvent e.id (s.process p).workerName false (some (error.take 4000))
        (some (retryAt clock e.attemptCount)) now s.outbox=.ok rows) :
      Transition s (.report p now clock error .none) ({ s with outbox := rows }.setPhase p (.loop es))

/-- The process an action belongs to. -/
def Action.process? : Action → Option ℕ
  | .insert .. => none
  | .start p _ _ => some p
  | .kill p => some p
  | .claim p _ _ _ _ => some p
  | .produce p _ => some p
  | .accept p _ => some p
  | .drop p _ => some p
  | .flush p _ => some p
  | .complete p _ _ => some p
  | .report p _ _ _ _ => some p

theorem transition_of_step {s t : State} {a : Action} (h : step s a=some t) : Transition s a t := by
  cases a with
  | insert id event now =>
    simp only [step] at h
    split at h
    · cases h
    · rename_i hfresh
      cases h
      refine .insert fun r hr hid => hfresh ?_
      exact List.any_eq_true.mpr ⟨r,hr,decide_eq_true hid⟩
  | start p w n =>
    simp only [step] at h
    split at h
    · cases h; exact .start ‹_›
    · cases h
  | kill p => cases h; exact .kill
  | claim p now locked returned fault =>
    simp only [step] at h
    split at h
    · rename_i hp
      split at h
      · cases h; exact .claimRaises hp (.inl rfl)
      · cases h; exact .claimRaises hp (.inr ⟨_,‹_›⟩)
      · cases h; exact .claimLost hp ‹_›
      · split at h
        · cases h; exact .claimed hp ‹_› ‹_›
        · cases h
    · cases h
  | produce p raises =>
    simp only [step] at h
    split at h
    · rename_i hp
      split at h
      · cases h; exact .produced hp ‹_›
      · cases h; exact .produceFails hp
    · cases h
  | accept p i =>
    simp only [step] at h
    split at h
    · cases h; exact .accept ‹_›
    · cases h
  | drop p i =>
    simp only [step] at h
    split at h
    · cases h; exact .drop ‹_›
    · cases h
  | flush p raises =>
    simp only [step] at h
    split at h
    · rename_i hp
      split at h
      · rename_i hq
        cases h
        rw [hq.1]
        exact .flushed hp hq.2
      · cases h; exact .flushFails hp
    · cases h
  | complete p now fault =>
    simp only [step] at h
    split at h
    · rename_i hp
      split at h
      · cases h; exact .completeFails hp
      · cases h; exact .completeFails hp
      · cases h; exact .completeLost hp ‹_›
      · cases h; exact .completed hp ‹_›
    · cases h
  | report p now clock error fault =>
    simp only [step] at h
    split at h
    · rename_i hp
      split at h
      · cases h; exact .reportFails hp (.inl rfl)
      · rename_i hc
        cases h
        refine .reportFails hp (.inr ?_)
        exact any_isHeldBy_eq_false hc
      · cases h; exact .reportLost hp ‹_›
      · cases h; exact .reported hp ‹_›
    · cases h

/-- An action changes no process but its own. -/
theorem step_other {s t : State} {a : Action} (h : step s a=some t) {q : ℕ}
    (hq : a.process?≠some q) : t.process q=s.process q := by
  cases transition_of_step h with
  | insert => rfl
  | _ =>
    have hne : q≠_ := fun heq => hq (congrArg some heq.symm)
    simp [State.stop,State.setPhase,State.setProcess,Function.update_of_ne hne]

instance plainEventNeZero : NeZero 100 := ⟨by decide⟩

/-- A submitted event of a tenant, with everything else left empty. -/
def plainEvent (n : Fin 100) : OutboxEvent where
  tenantId := ⟨1⟩
  eventId := ⟨⟨n,by omega⟩⟩
  aggregateType := py "document"
  aggregateId := ⟨2⟩
  eventType := py "DocumentSubmitted"
  kafkaTopic := documentSubmittedTopic
  eventContractNamespace := py "rag.ingestion.v1"
  eventSchemaName := py "document-submitted"
  payload := .documentSubmitted (buildDocumentSubmittedEvent ⟨⟨n,by omega⟩⟩ [] ⟨1⟩ ⟨2⟩ [] none)
  headers := []

def plainRow (n : Fin 100) : OutboxRow := .inserted ⟨⟨n,by omega⟩⟩ (plainEvent n) 0

/-- Two pending rows and no running process. -/
def twoRows : State := ⟨[plainRow 1,plainRow 2],[],fun _ => ⟨[],0,.stopped,[]⟩⟩

theorem twoRows_initial : Initial twoRows := by
  refine ⟨by decide +kernel,?_,fun _ => ⟨rfl,rfl⟩⟩
  intro r hr
  simp only [twoRows,List.mem_cons,List.not_mem_nil,or_false] at hr
  obtain rfl | rfl := hr
  · rfl
  · rfl

end RagIngestion.Publisher
