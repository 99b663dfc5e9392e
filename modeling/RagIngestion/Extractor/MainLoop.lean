import RagIngestion.Extractor.Handle

/-! `_run`: the loop that polls messages, runs a task for each of them, and commits the offsets of
the tasks that are done, while tasks advance, partitions are reassigned and the worker dies. -/
namespace RagIngestion.Extractor.MainLoop
open RagIngestion.Python RagIngestion.Domain RagIngestion.Database RagIngestion.Storage
open RagIngestion.Library

/-- Where the consumer stands in a partition it is assigned. -/
structure Cursor where
  position : ℕ
  paused : Bool

/-- An entry of `inflight`: a message and the task that handles it. -/
structure Job where
  id : ℕ
  partition : ℕ
  offset : ℕ
  payload : DocumentFetched
  task : Task

/-- `task.done()`. -/
def Job.done (j : Job) : Bool :=
  match j.task with
  | .returned _ _ => true
  | .raised _ => true
  | _ => false

/-- Where the loop stands. `completed` are the tasks it found done and has not yet popped. -/
inductive Phase
  | stopped
  | collecting
  | reaping (completed : List ℕ)
  | committing (job : Job) (completed : List ℕ)
  | polling
  /-- The `finally` block: the tasks are cancelled and awaited. -/
  | closing

/-- The topic and its committed offsets, the stores, and the locals of the loop. A message is
`none` when its value cannot be decoded. -/
structure State where
  log : ℕ → List (Option DocumentFetched)
  committed : ℕ → ℕ
  source : PyStr → Option StoredObject
  stores : Stores
  phase : Phase
  inflight : List Job
  paused : Bool
  cursor : ℕ → Option Cursor
  spawned : ℕ

/-- The process ends; what it held in memory is lost. -/
def State.stop (s : State) : State :=
  { s with phase := .stopped, inflight := [], paused := false, cursor := fun _ => none }

/-- `consumer.pause` or `consumer.resume` of the whole assignment. -/
def State.setPaused (s : State) (paused : Bool) : State :=
  { s with
    cursor := fun p => (s.cursor p).map (fun c => { c with paused := paused })
    paused := paused }

def State.setCursor (s : State) (p : ℕ) (c : Option Cursor) : State :=
  { s with cursor := Function.update s.cursor p c }

/-- Committing a message sets the offset of its partition to the one after it. -/
def State.commit (s : State) (j : Job) : State :=
  { s with committed := Function.update s.committed j.partition (j.offset+1) }

/-- A new assignment: a partition that was not kept starts unpaused at its committed offset. -/
def State.rebalance (s : State) (assigned kept : List ℕ) : State :=
  { s with cursor := fun p =>
      if p ∈ assigned then
        if p ∈ kept then some ((s.cursor p).getD ⟨s.committed p,false⟩)
        else some ⟨s.committed p,false⟩
      else none }

/-- A task for a polled message. -/
def State.spawn (s : State) (p offset : ℕ) (payload : DocumentFetched) : State :=
  { s with
    inflight := s.inflight ++ [⟨s.spawned,p,offset,payload,.started payload⟩]
    spawned := s.spawned+1 }

inductive Action
  | produce (p : ℕ) (value : Option DocumentFetched)
  /-- Other components write to the source bucket and to the database. -/
  | others (source : PyStr → Option StoredObject) (db : Db)
  | start
  | kill
  /-- A task makes a step, or is cancelled. -/
  | task (id : ℕ) (a : Extractor.Action)
  | collect
  | reap
  | commit (fault : Fault)
  | resume
  /-- A rebalance during a poll: an assigned partition starts unpaused at its committed offset. -/
  | assign (p : ℕ)
  | revoke (p : ℕ)
  /-- The poll returns nothing or the end of a partition. -/
  | pollNothing
  | pollError
  | poll (p : ℕ)
  /-- A poll returns a message, and the assignment changes after it: the partitions assigned then,
  and those of them that were kept. -/
  | pollRebalanced (p : ℕ) (assigned kept : List ℕ)
  | close

section
variable (rt : Runtime) (sourceBucket artifactBucket : BucketName) (maxBytes maxConcurrency : ℕ)

def step (s : State) : Action → Option State
  | .produce p value => some { s with log := Function.update s.log p (s.log p ++ [value]) }
  | .others source db =>
    if s.stores.db.processedEvents ⊆ db.processedEvents then
      some { s with source := source, stores := { s.stores with db := db } }
    else none
  | .start =>
    match s.phase with
    | .stopped => some { s with phase := .collecting }
    | _ => none
  | .kill => some s.stop
  | .task id a =>
    match s.inflight.find? (fun j => j.id=id) with
    | none => none
    | some j =>
      (Extractor.step rt sourceBucket artifactBucket maxBytes s.source s.stores j.task a).map fun r =>
        { s with
          stores := r.1
          inflight := updateWhere (fun x => x.id=id) (fun x => { x with task := r.2 }) s.inflight }
  | .collect =>
    match s.phase with
    | .collecting => some { s with phase := .reaping ((s.inflight.filter (·.done)).map (·.id)) }
    | _ => none
  | .reap =>
    match s.phase with
    | .reaping (id::completed) =>
      match s.inflight.find? (fun j => j.id=id) with
      | none => none
      | some j =>
        let s := { s with inflight := s.inflight.filter (fun x => x.id≠id) }
        match j.task with
        | .returned _ _ => some { s with phase := .committing j completed }
        | _ => some { s with phase := .closing }
    | _ => none
  | .commit fault =>
    match s.phase with
    | .committing j completed =>
      match fault with
      | .none => some { s.commit j with phase := .reaping completed }
      | .before => some { s with phase := .closing }
      | .after => some { s.commit j with phase := .closing }
    | _ => none
  | .resume =>
    match s.phase with
    | .reaping [] =>
      if s.paused=true ∧ s.inflight.length < maxConcurrency then
        some { s.setPaused false with phase := .polling }
      else some { s with phase := .polling }
    | _ => none
  | .assign p =>
    match s.phase, s.cursor p with
    | .polling, none => some (s.setCursor p (some ⟨s.committed p,false⟩))
    | _, _ => none
  | .revoke p =>
    match s.phase with
    | .polling => some (s.setCursor p none)
    | _ => none
  | .pollNothing =>
    match s.phase with
    | .polling => some { s with phase := .collecting }
    | _ => none
  | .pollError =>
    match s.phase with
    | .polling => some { s with phase := .closing }
    | _ => none
  | .poll p =>
    match s.phase, s.cursor p with
    | .polling, some ⟨position,false⟩ =>
      match (s.log p)[position]? with
      | none => none
      | some none => some { s with phase := .closing }
      | some (some payload) =>
        let s := { (s.setCursor p (some ⟨position+1,false⟩)).spawn p position payload with
          phase := .collecting }
        -- the assignment is not empty: it contains the partition of the message
        if maxConcurrency ≤ s.inflight.length then some (s.setPaused true) else some s
    | _, _ => none
  | .pollRebalanced p assigned kept =>
    match s.phase, s.cursor p with
    | .polling, some ⟨position,false⟩ =>
      match (s.log p)[position]? with
      | some (some payload) =>
        let s := { ((s.setCursor p (some ⟨position+1,false⟩)).spawn p position payload).rebalance
          assigned kept with phase := .collecting }
        if maxConcurrency ≤ s.inflight.length then
          -- `if partitions`: with nothing assigned the flag stays as it is
          if assigned=[] then some s else some (s.setPaused true)
        else some s
      | _ => none
    | _, _ => none
  | .close =>
    match s.phase with
    | .closing => if s.inflight.all (·.done) then some s.stop else none
    | _ => none

/-- A worker that was never started, over any topic that nobody consumed. -/
structure Initial (s : State) : Prop where
  phase : s.phase=.stopped
  inflight : s.inflight=[]
  cursor : ∀ p, s.cursor p=none
  committed : ∀ p, s.committed p=0

def system : System State Action :=
  ⟨Initial,step rt sourceBucket artifactBucket maxBytes maxConcurrency⟩

/-- What each action can do: one case for each way through the code. -/
inductive Transition (s : State) : Action → State → Prop
  | produce {p value} :
      Transition s (.produce p value) { s with log := Function.update s.log p (s.log p ++ [value]) }
  | others {source db} (h : s.stores.db.processedEvents ⊆ db.processedEvents) :
      Transition s (.others source db) { s with source := source, stores := { s.stores with db := db } }
  | start (h : s.phase=.stopped) : Transition s .start { s with phase := .collecting }
  | kill : Transition s .kill s.stop
  | task {id a j stores task} (hj : s.inflight.find? (fun j => j.id=id)=some j)
      (h : Extractor.Transition rt sourceBucket artifactBucket maxBytes s.source s.stores j.task a
        stores task) :
      Transition s (.task id a) { s with
        stores := stores
        inflight := updateWhere (fun x => x.id=id) (fun x => { x with task := task }) s.inflight }
  | collect (h : s.phase=.collecting) :
      Transition s .collect { s with phase := .reaping ((s.inflight.filter (·.done)).map (·.id)) }
  | reap {id completed j p b} (h : s.phase=.reaping (id::completed))
      (hj : s.inflight.find? (fun j => j.id=id)=some j) (ht : j.task=.returned p b) :
      Transition s .reap { s with
        inflight := s.inflight.filter (fun x => x.id≠id)
        phase := .committing j completed }
  | reapFails {id completed j} (h : s.phase=.reaping (id::completed))
      (hj : s.inflight.find? (fun j => j.id=id)=some j) :
      Transition s .reap { s with
        inflight := s.inflight.filter (fun x => x.id≠id)
        phase := .closing }
  | commit {j completed fault} (h : s.phase=.committing j completed) (hf : fault≠.before) :
      Transition s (.commit fault)
        { s.commit j with phase := if fault=.none then .reaping completed else .closing }
  | commitFails {j completed} (h : s.phase=.committing j completed) :
      Transition s (.commit .before) { s with phase := .closing }
  | resume (h : s.phase=.reaping []) (hp : s.paused=true ∧ s.inflight.length < maxConcurrency) :
      Transition s .resume { s.setPaused false with phase := .polling }
  | resumeNothing (h : s.phase=.reaping [])
      (hp : ¬(s.paused=true ∧ s.inflight.length < maxConcurrency)) :
      Transition s .resume { s with phase := .polling }
  | assign {p} (h : s.phase=.polling) (hc : s.cursor p=none) :
      Transition s (.assign p) (s.setCursor p (some ⟨s.committed p,false⟩))
  | revoke {p} (h : s.phase=.polling) : Transition s (.revoke p) (s.setCursor p none)
  | pollNothing (h : s.phase=.polling) : Transition s .pollNothing { s with phase := .collecting }
  | pollError (h : s.phase=.polling) : Transition s .pollError { s with phase := .closing }
  | undecodable {p position} (h : s.phase=.polling) (hc : s.cursor p=some ⟨position,false⟩)
      (hm : (s.log p)[position]?=some none) : Transition s (.poll p) { s with phase := .closing }
  | poll {p position payload} (h : s.phase=.polling) (hc : s.cursor p=some ⟨position,false⟩)
      (hm : (s.log p)[position]?=some (some payload)) (hn : s.inflight.length+1 < maxConcurrency) :
      Transition s (.poll p) { (s.setCursor p (some ⟨position+1,false⟩)).spawn p position payload with
        phase := .collecting }
  | pollLast {p position payload} (h : s.phase=.polling) (hc : s.cursor p=some ⟨position,false⟩)
      (hm : (s.log p)[position]?=some (some payload)) (hn : maxConcurrency ≤ s.inflight.length+1) :
      Transition s (.poll p) (State.setPaused
        { (s.setCursor p (some ⟨position+1,false⟩)).spawn p position payload with
          phase := .collecting } true)
  | pollRebalanced {p position payload assigned kept} (h : s.phase=.polling)
      (hc : s.cursor p=some ⟨position,false⟩) (hm : (s.log p)[position]?=some (some payload))
      (hn : s.inflight.length+1 < maxConcurrency ∨ assigned=[]) :
      Transition s (.pollRebalanced p assigned kept)
        { ((s.setCursor p (some ⟨position+1,false⟩)).spawn p position payload).rebalance assigned
          kept with phase := .collecting }
  | pollRebalancedLast {p position payload assigned kept} (h : s.phase=.polling)
      (hc : s.cursor p=some ⟨position,false⟩) (hm : (s.log p)[position]?=some (some payload)) :
      Transition s (.pollRebalanced p assigned kept) (State.setPaused
        { ((s.setCursor p (some ⟨position+1,false⟩)).spawn p position payload).rebalance assigned
          kept with phase := .collecting } true)
  | close (h : s.phase=.closing) (hd : s.inflight.all (·.done)=true) : Transition s .close s.stop

theorem transition_of_step {s t : State} {a : Action}
    (h : step rt sourceBucket artifactBucket maxBytes maxConcurrency s a=some t) :
    Transition rt sourceBucket artifactBucket maxBytes maxConcurrency s a t := by
  cases a with
  | produce p value => cases h; exact .produce
  | others source db =>
    simp only [step] at h
    split at h
    · cases h; exact .others ‹_›
    · cases h
  | start =>
    simp only [step] at h
    split at h
    · cases h; exact .start ‹_›
    · cases h
  | kill => cases h; exact .kill
  | task id a =>
    simp only [step] at h
    split at h
    · cases h
    · rename_i j hj
      obtain ⟨⟨stores,task⟩,hr,rfl⟩ := Option.map_eq_some_iff.mp h
      exact .task hj (Extractor.transition_of_step _ _ _ _ hr)
  | collect =>
    simp only [step] at h
    split at h
    · cases h; exact .collect ‹_›
    · cases h
  | reap =>
    simp only [step] at h
    split at h
    · rename_i hp
      split at h
      · cases h
      · rename_i hj
        split at h
        · cases h; exact .reap hp hj ‹_›
        · cases h; exact .reapFails hp hj
    · cases h
  | commit fault =>
    simp only [step] at h
    split at h
    · rename_i hp
      cases fault with
      | none => cases h; exact .commit hp (by simp)
      | before => cases h; exact .commitFails hp
      | after => cases h; exact .commit hp (by simp)
    · cases h
  | resume =>
    simp only [step] at h
    split at h
    · rename_i hp
      split at h
      · cases h; exact .resume hp ‹_›
      · cases h; exact .resumeNothing hp ‹_›
    · cases h
  | assign p =>
    simp only [step] at h
    split at h
    · cases h; exact .assign ‹_› ‹_›
    · cases h
  | revoke p =>
    simp only [step] at h
    split at h
    · cases h; exact .revoke ‹_›
    · cases h
  | pollNothing =>
    simp only [step] at h
    split at h
    · cases h; exact .pollNothing ‹_›
    · cases h
  | pollError =>
    simp only [step] at h
    split at h
    · cases h; exact .pollError ‹_›
    · cases h
  | poll p =>
    simp only [step] at h
    split at h
    · rename_i hp hc
      split at h
      · cases h
      · cases h; exact .undecodable hp hc ‹_›
      · rename_i hm
        split at h
        · rename_i hn
          cases h
          exact .pollLast hp hc hm (by simpa [State.spawn,State.setCursor] using hn)
        · rename_i hn
          cases h
          exact .poll hp hc hm (by simpa [State.spawn,State.setCursor] using hn)
    · cases h
  | pollRebalanced p assigned kept =>
    simp only [step] at h
    split at h
    · rename_i hp hc
      split at h
      · rename_i hm
        split at h
        · split at h
          · cases h
            exact .pollRebalanced hp hc hm (.inr ‹_›)
          · cases h
            exact .pollRebalancedLast hp hc hm
        · rename_i hn
          cases h
          refine .pollRebalanced hp hc hm (.inl ?_)
          simpa [State.spawn,State.setCursor,State.rebalance] using hn
      · cases h
    · cases h
  | close =>
    simp only [step] at h
    split at h
    · split at h
      · cases h; exact .close ‹_› ‹_›
      · cases h
    · cases h

end
end RagIngestion.Extractor.MainLoop
