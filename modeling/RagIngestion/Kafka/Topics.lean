import RagIngestion.Domain.Events
import RagIngestion.Library.Runs

/-! `kafka_topics.py`: the declared topics, and calls of `ensure_pipeline_topics` that run at the
same time against one broker. -/
namespace RagIngestion.Kafka
open RagIngestion.Python RagIngestion.Domain RagIngestion.Library

/-- A pipeline topic and its retention policy. -/
structure TopicSpec where
  name : PyStr
  retentionMs : ℕ
  deriving DecidableEq

def TopicSpec.config (spec : TopicSpec) : List (PyStr × PyStr) :=
  [(py "cleanup.policy",py "delete"),(py "retention.ms",py (toString spec.retentionMs))]

def eventRetentionMs : ℕ := 7*24*60*60*1000
def retryRetentionMs : ℕ := 24*60*60*1000
def dlqRetentionMs : ℕ := 30*24*60*60*1000

def pipelineStages : List PyStr :=
  [py "document-fetcher",py "content-extractor",py "chunker",py "embedder",py "indexer"]

def pipelineTopicSpecs : List TopicSpec :=
  [documentSubmittedTopic,documentFetchedTopic,contentExtractedTopic,chunksCreatedTopic,
      embeddingsGeneratedTopic,documentIndexedTopic].map (⟨·,eventRetentionMs⟩) ++
    pipelineStages.map (fun stage => ⟨retryTopic stage,retryRetentionMs⟩) ++
    pipelineStages.map (fun stage => ⟨deadLetterTopic stage,dlqRetentionMs⟩)

/-- The names a bootstrap returns. -/
def pipelineTopicNames : List PyStr := pipelineTopicSpecs.map (·.name)

/-- The futures of `create_topics` are one for each declared topic: their names differ. -/
theorem pipelineTopicNames_nodup : pipelineTopicNames.Nodup := by decide +kernel

/-- What the broker keeps of a topic, as a `NewTopic` gives it. -/
structure TopicSettings where
  partitions : ℤ
  replicationFactor : ℤ
  config : List (PyStr × PyStr)

/-- How the broker answers for one topic of a request. -/
inductive Answer
  | created | alreadyExists | refused
  deriving DecidableEq

/-- What a call raises. `notPositive` is the `ValueError` about the arguments, `noTopics` the one of
`create_topics` for an empty list, and `exhausted` the `RuntimeError` behind the loop. -/
inductive BootstrapError
  | notPositive
  | noTopics
  | kafkaException
  | unableToCreate (name : PyStr)
  | exhausted

/-- Where a call stands. -/
inductive Phase
  | waiting
  | listing (attempt : ℕ)
  | creating (attempt : ℕ) (missing : List TopicSpec)
  | awaiting
  | returned (names : List PyStr)
  | raised (error : BootstrapError)

def Phase.Ended : Phase → Prop
  | .returned _ => True
  | .raised _ => True
  | _ => False

/-- A call: its arguments, its place in the code, and its futures, each with the topic it is for. -/
structure Call where
  partitions : ℤ
  replicationFactor : ℤ
  attempts : ℤ
  phase : Phase
  futures : List (TopicSpec × Option Answer)

/-- The loop goes to an attempt, or ends. -/
def Call.loop (x : Call) (attempt : ℕ) : Phase :=
  if attempt<x.attempts then .listing attempt else .raised .exhausted

/-- The handler of `KafkaException`. -/
def Call.retry (x : Call) (attempt : ℕ) : Phase :=
  if attempt=x.attempts-1 then .raised .kafkaException else x.loop (attempt+1)

/-- `NewTopic` for a missing topic. -/
def Call.newTopic (x : Call) (spec : TopicSpec) : TopicSettings :=
  ⟨x.partitions,x.replicationFactor,spec.config⟩

/-- The topics of the broker, and the calls. -/
structure State where
  topics : PyStr → Option TopicSettings
  call : ℕ → Call

def State.setCall (s : State) (b : ℕ) (x : Call) : State :=
  { s with call := Function.update s.call b x }

def State.setPhase (s : State) (b : ℕ) (phase : Phase) : State :=
  s.setCall b { s.call b with phase := phase }

@[simp] theorem State.setCall_topics (s : State) (b : ℕ) (x : Call) :
    (s.setCall b x).topics=s.topics := rfl

@[simp] theorem State.setCall_call (s : State) (b : ℕ) (x : Call) : (s.setCall b x).call b=x := by
  simp [State.setCall]

/-- The declared topics that a listing lacks. -/
def missingTopics (topics : PyStr → Option TopicSettings) : List TopicSpec :=
  pipelineTopicSpecs.filter (fun spec => (topics spec.name).isNone)

/-- The loop over the futures: nothing, while it has to wait for one. -/
def awaitFutures : List (TopicSpec × Option Answer) → Option (Except BootstrapError Unit)
  | [] => some (.ok ())
  | (_,none)::_ => none
  | (spec,some .refused)::_ => some (.error (.unableToCreate spec.name))
  | _::futures => awaitFutures futures

inductive Action
  | start (b : ℕ) (partitions replicationFactor attempts : ℤ)
  /-- `list_topics` answers, or raises a `KafkaException`. -/
  | list (b : ℕ) (raises : Bool)
  /-- `create_topics` sends its request, or raises a `KafkaException`. -/
  | create (b : ℕ) (raises : Bool)
  /-- The broker deals with one topic of a request, and may refuse it. -/
  | answer (b : ℕ) (i : ℕ) (refuses : Bool)
  /-- The loop over the futures comes to its end. -/
  | await (b : ℕ)
  /-- Somebody else creates a topic. -/
  | other (name : PyStr) (settings : TopicSettings)

def step (s : State) : Action → Option State
  | .start b partitions replicationFactor attempts =>
    match (s.call b).phase with
    | .waiting =>
      let x : Call := ⟨partitions,replicationFactor,attempts,.waiting,[]⟩
      some (s.setCall b { x with
        phase := if partitions<1 ∨ replicationFactor<1 then .raised .notPositive else x.loop 0 })
    | _ => none
  | .list b raises =>
    match (s.call b).phase with
    | .listing attempt =>
      if raises then some (s.setPhase b ((s.call b).retry attempt))
      else some (s.setPhase b (.creating attempt (missingTopics s.topics)))
    | _ => none
  | .create b raises =>
    match (s.call b).phase with
    | .creating attempt missing =>
      if missing=[] then some (s.setPhase b (.raised .noTopics))
      else if raises then some (s.setPhase b ((s.call b).retry attempt))
      else some (s.setCall b { s.call b with
        phase := .awaiting, futures := missing.map (fun spec => (spec,none)) })
    | _ => none
  | .answer b i refuses =>
    let x := s.call b
    match x.futures[i]? with
    | some (spec,none) =>
      let answered := fun answer => { x with futures := x.futures.set i (spec,some answer) }
      if refuses then some (s.setCall b (answered .refused))
      else
        match s.topics spec.name with
        | some _ => some (s.setCall b (answered .alreadyExists))
        | none => some ({ s with
            topics := Function.update s.topics spec.name (some (x.newTopic spec)) }.setCall b
              (answered .created))
    | _ => none
  | .await b =>
    match (s.call b).phase with
    | .awaiting =>
      match awaitFutures (s.call b).futures with
      | none => none
      | some (.ok _) => some (s.setPhase b (.returned pipelineTopicNames))
      | some (.error e) => some (s.setPhase b (.raised e))
    | _ => none
  | .other name settings =>
    match s.topics name with
    | some _ => none
    | none => some { s with topics := Function.update s.topics name (some settings) }

/-- Any topics may exist; no call has been made. -/
def Initial (s : State) : Prop := ∀ b, (s.call b).phase=.waiting ∧ (s.call b).futures=[]

def system : System State Action := ⟨Initial,step⟩

/-- What each action can do: one case for each way through the code. -/
inductive Transition (s : State) : Action → State → Prop
  | start {b partitions replicationFactor attempts} {x : Call} (h : (s.call b).phase=.waiting)
      (hx : x=⟨partitions,replicationFactor,attempts,.waiting,[]⟩) :
      Transition s (.start b partitions replicationFactor attempts) (s.setCall b { x with
        phase := if partitions<1 ∨ replicationFactor<1 then .raised .notPositive else x.loop 0 })
  | listFails {b attempt} (h : (s.call b).phase=.listing attempt) :
      Transition s (.list b true) (s.setPhase b ((s.call b).retry attempt))
  | listed {b attempt} (h : (s.call b).phase=.listing attempt) :
      Transition s (.list b false) (s.setPhase b (.creating attempt (missingTopics s.topics)))
  | createNone {b attempt raises} (h : (s.call b).phase=.creating attempt []) :
      Transition s (.create b raises) (s.setPhase b (.raised .noTopics))
  | createFails {b attempt missing} (h : (s.call b).phase=.creating attempt missing)
      (hm : missing≠[]) : Transition s (.create b true) (s.setPhase b ((s.call b).retry attempt))
  | create {b attempt missing} (h : (s.call b).phase=.creating attempt missing) (hm : missing≠[]) :
      Transition s (.create b false) (s.setCall b { s.call b with
        phase := .awaiting, futures := missing.map (fun spec => (spec,none)) })
  | refused {b i spec} (h : (s.call b).futures[i]?=some (spec,none)) :
      Transition s (.answer b i true) (s.setCall b { s.call b with
        futures := (s.call b).futures.set i (spec,some .refused) })
  | alreadyExists {b i spec settings} (h : (s.call b).futures[i]?=some (spec,none))
      (ht : s.topics spec.name=some settings) :
      Transition s (.answer b i false) (s.setCall b { s.call b with
        futures := (s.call b).futures.set i (spec,some .alreadyExists) })
  | created {b i spec} (h : (s.call b).futures[i]?=some (spec,none)) (ht : s.topics spec.name=none) :
      Transition s (.answer b i false) ({ s with
        topics := Function.update s.topics spec.name (some ((s.call b).newTopic spec)) }.setCall b
          { s.call b with futures := (s.call b).futures.set i (spec,some .created) })
  | returned {b} (h : (s.call b).phase=.awaiting)
      (hf : awaitFutures (s.call b).futures=some (.ok ())) :
      Transition s (.await b) (s.setPhase b (.returned pipelineTopicNames))
  | awaitFails {b e} (h : (s.call b).phase=.awaiting)
      (hf : awaitFutures (s.call b).futures=some (.error e)) :
      Transition s (.await b) (s.setPhase b (.raised e))
  | other {name settings} (h : s.topics name=none) :
      Transition s (.other name settings)
        { s with topics := Function.update s.topics name (some settings) }

theorem transition_of_step {s t : State} {a : Action} (h : step s a=some t) : Transition s a t := by
  cases a with
  | start b partitions replicationFactor attempts =>
    simp only [step] at h
    split at h
    · cases h; exact .start ‹_› rfl
    · cases h
  | list b raises =>
    simp only [step] at h
    split at h
    · cases raises with
      | true => cases h; exact .listFails ‹_›
      | false => cases h; exact .listed ‹_›
    · cases h
  | create b raises =>
    simp only [step] at h
    split at h
    · rename_i attempt missing hp
      split at h
      · rename_i hm
        cases h
        rw [hm] at hp
        exact .createNone hp
      · cases raises with
        | true => cases h; exact .createFails hp ‹_›
        | false => cases h; exact .create hp ‹_›
    · cases h
  | answer b i refuses =>
    simp only [step] at h
    split at h
    · cases refuses with
      | true => cases h; exact .refused ‹_›
      | false =>
        simp only [Bool.false_eq_true,if_false] at h
        split at h
        · cases h; exact .alreadyExists ‹_› ‹_›
        · cases h; exact .created ‹_› ‹_›
    · cases h
  | await b =>
    simp only [step] at h
    split at h
    · split at h
      · cases h
      · cases h; exact .returned ‹_› ‹_›
      · cases h; exact .awaitFails ‹_› ‹_›
    · cases h
  | other name settings =>
    simp only [step] at h
    split at h
    · cases h
    · cases h; exact .other ‹_›

end RagIngestion.Kafka
