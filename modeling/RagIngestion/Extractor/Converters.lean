import RagIngestion.Extractor.Commits
import RagIngestion.Library.Pools
import RagIngestion.Library.Tables

/-! The converters of the extractor: the queue they wait in, the calls that hold them, and the
worker threads that use them, which outlive a cancelled call. -/
namespace RagIngestion.Extractor.Converters
open RagIngestion.Python RagIngestion.Domain RagIngestion.Database RagIngestion.Storage
open RagIngestion.Library

/-- How far a thread is in `extract_pdf`. -/
inductive Stage
  | submitted
  | reading
  | converting
  | normalizing
  deriving DecidableEq

def Stage.next : Stage → Stage
  | .submitted => .reading
  | .reading => .converting
  | .converting => .normalizing
  | .normalizing => .normalizing

/-- `asyncio.to_thread(extract_pdf, …)` for a call. -/
structure Thread (κ : Type) where
  owner : ℕ
  converter : κ
  stage : Stage

def Thread.advance {κ : Type} (t : Thread κ) : Thread κ := { t with stage := t.stage.next }

/-- The process: not running, in `warm` with the converters it took so far, the last of them at
work or not, or in the loop. -/
inductive Service (κ : Type)
  | off
  | warming (taken : List κ) (busy : Bool)
  | serving

structure State (κ : Type) where
  loop : MainLoop.State
  service : Service κ
  pool : Pool ℕ κ
  threads : List (Thread κ)

inductive Action
  /-- `ContentExtractor.__init__`, and the start of `warm`. -/
  | boot
  /-- `warm` takes the next converter, and its thread starts. -/
  | warm
  | warmed
  /-- `warm` puts all converters back, and the loop starts. -/
  | serve
  /-- The loop and the calls, apart from what they do with converters. -/
  | loop (a : MainLoop.Action)
  /-- A call gets a converter and submits its extraction. -/
  | take (id : ℕ)
  | advance (id : ℕ)
  | finish (id : ℕ)
  /-- A cancelled extraction that no thread has begun is dropped. -/
  | drop (id : ℕ)
  /-- A call goes on after its thread is over. -/
  | resume (id : ℕ) (read : Reader Bytes) (convert : Bytes → Conversion)
  /-- A call is cancelled while its thread may go on. -/
  | cancel (id : ℕ)
  | close
  | kill

section
variable {κ : Type}

def State.Closing (s : State κ) : Prop := s.loop.phase=.closing

instance (s : State κ) : Decidable s.Closing := by
  unfold State.Closing
  cases s.loop.phase with
  | closing => exact isTrue rfl
  | _ => exact isFalse MainLoop.Phase.noConfusion

/-- The loop runs and was not shut down. -/
def State.Serving (s : State κ) : Prop := s.service=.serving ∧ ¬s.Closing

instance (s : State κ) : Decidable s.Serving := by
  unfold State.Serving
  cases hs : s.service with
  | serving => exact decidable_of_iff (¬s.Closing) (by simp)
  | _ => exact isFalse (fun h => by cases h.1)

/-- The call with this id is in flight and at its extraction. -/
def Extracting (l : MainLoop.State) (id : ℕ) : Prop :=
  ∃ j p body, l.inflight.find? (fun j => j.id=id)=some j ∧ j.task=.opened p body

/-- The call is at its extraction, as a check. -/
def extracting (l : MainLoop.State) (id : ℕ) : Bool :=
  match l.inflight.find? (fun j => j.id=id) with
  | none => false
  | some j =>
    match j.task with
    | .opened _ _ => true
    | _ => false

lemma extracting_iff {l : MainLoop.State} {id : ℕ} : extracting l id=true ↔ Extracting l id := by
  unfold extracting Extracting
  cases hj : l.inflight.find? (fun j => j.id=id) with
  | none => simp
  | some j => cases ht : j.task <;> simp [ht]

/-- What the loop and the calls do without a converter. -/
def Free (s : State κ) : MainLoop.Action → Prop
  | .start => False
  | .kill => False
  | .close => False
  | .task _ (.extract _ _) => False
  | .task id _ => s.pool.Free id
  | _ => True

instance (s : State κ) (a : MainLoop.Action) : Decidable (Free s a) := by
  unfold Free
  split <;> infer_instance

/-- The converters in use: by a thread that converts, or by `warm`. -/
def State.conversions (s : State κ) : List κ :=
  (match s.service with
    | .warming taken true => taken.getLast?.toList
    | _ => []) ++ (s.threads.filter (fun t => t.stage=.converting)).map (·.converter)

variable (rt : Runtime) (sourceBucket artifactBucket : BucketName) (maxBytes maxConcurrency : ℕ)
  (converters : List κ)

def step (s : State κ) : Action → Option (State κ)
  | .boot =>
    match s.service with
    | .off =>
      if converters≠[] ∧ s.threads=[] then
        some { s with service := .warming [] false, pool := ⟨converters,[]⟩ }
      else none
    | _ => none
  | .warm =>
    match s.service, s.pool.idle with
    | .warming taken false, c::rest =>
      some { s with service := .warming (taken ++ [c]) true, pool := { s.pool with idle := rest } }
    | _, _ => none
  | .warmed =>
    match s.service with
    | .warming taken true => some { s with service := .warming taken false }
    | _ => none
  | .serve =>
    match s.service, s.pool.idle with
    | .warming taken false, [] =>
      (MainLoop.step rt sourceBucket artifactBucket maxBytes maxConcurrency s.loop .start).map
        (fun l => { s with loop := l, service := .serving, pool := { s.pool with idle := taken } })
    | _, _ => none
  | .loop a =>
    if Free s a then
      (MainLoop.step rt sourceBucket artifactBucket maxBytes maxConcurrency s.loop a).map
        (fun l => { s with loop := l })
    else none
  | .take id =>
    -- in a shutdown every call is cancelled before one runs again, also those that wait in `get`
    if s.Serving ∧ extracting s.loop id=true ∧ s.pool.Free id then
      (s.pool.lend id).map
        (fun r => { s with pool := r.2, threads := s.threads ++ [⟨id,r.1,.submitted⟩] })
    else none
  | .advance id =>
    some { s with threads := updateWhere (fun t => t.owner=id) Thread.advance s.threads }
  | .finish id =>
    if ∀ t ∈ s.threads, t.owner=id → t.stage≠.submitted then
      some { s with threads := s.threads.filter (fun t => t.owner≠id) }
    else none
  | .drop id =>
    if s.Closing ∧ s.pool.Free id ∧ ∀ t ∈ s.threads, t.owner=id → t.stage=.submitted then
      some { s with threads := s.threads.filter (fun t => t.owner≠id) }
    else none
  | .resume id read convert =>
    if s.Serving ∧ ∀ t ∈ s.threads, t.owner≠id then
      (s.pool.giveBack id).bind (fun pool =>
        (MainLoop.step rt sourceBucket artifactBucket maxBytes maxConcurrency s.loop
          (.task id (.extract read convert))).map (fun l => { s with loop := l, pool := pool }))
    else none
  | .cancel id =>
    if s.Closing then
      (s.pool.giveBack id).bind (fun pool =>
        (MainLoop.step rt sourceBucket artifactBucket maxBytes maxConcurrency s.loop
          (.task id .abandon)).map (fun l => { s with loop := l, pool := pool }))
    else none
  | .close =>
    (MainLoop.step rt sourceBucket artifactBucket maxBytes maxConcurrency s.loop .close).map
      (fun l => { s with loop := l, service := .off, pool := ⟨[],[]⟩ })
  | .kill => some ⟨s.loop.stop,.off,⟨[],[]⟩,[]⟩

/-- A worker that was never started. -/
structure Initial (s : State κ) : Prop where
  loop : MainLoop.Initial s.loop
  service : s.service=.off
  pool : s.pool=⟨[],[]⟩
  threads : s.threads=[]

def system : System (State κ) Action :=
  ⟨Initial,step rt sourceBucket artifactBucket maxBytes maxConcurrency converters⟩

/-- What a step does. -/
inductive Transition (s : State κ) : Action → State κ → Prop
  | boot (h : s.service=.off) (hsome : converters≠[]) (hthreads : s.threads=[]) :
      Transition s .boot { s with service := .warming [] false, pool := ⟨converters,[]⟩ }
  | warm {taken c rest} (h : s.service=.warming taken false) (hidle : s.pool.idle=c::rest) :
      Transition s .warm { s with
        service := .warming (taken ++ [c]) true
        pool := { s.pool with idle := rest } }
  | warmed {taken} (h : s.service=.warming taken true) :
      Transition s .warmed { s with service := .warming taken false }
  | serve {taken l} (h : s.service=.warming taken false) (hidle : s.pool.idle=[])
      (hl : MainLoop.step rt sourceBucket artifactBucket maxBytes maxConcurrency s.loop .start=some l) :
      Transition s .serve { s with
        loop := l
        service := .serving
        pool := { s.pool with idle := taken } }
  | loop {a l} (hfree : Free s a)
      (hl : MainLoop.step rt sourceBucket artifactBucket maxBytes maxConcurrency s.loop a=some l) :
      Transition s (.loop a) { s with loop := l }
  | take {id c pool} (hserving : s.Serving) (hextracting : Extracting s.loop id)
      (hfree : s.pool.Free id) (hlend : s.pool.lend id=some (c,pool)) :
      Transition s (.take id) { s with pool := pool, threads := s.threads ++ [⟨id,c,.submitted⟩] }
  | advance {id} : Transition s (.advance id)
      { s with threads := updateWhere (fun t => t.owner=id) Thread.advance s.threads }
  | finish {id} (hbegun : ∀ t ∈ s.threads, t.owner=id → t.stage≠.submitted) :
      Transition s (.finish id) { s with threads := s.threads.filter (fun t => t.owner≠id) }
  | drop {id} (hclosing : s.Closing) (hfree : s.pool.Free id)
      (hsubmitted : ∀ t ∈ s.threads, t.owner=id → t.stage=.submitted) :
      Transition s (.drop id) { s with threads := s.threads.filter (fun t => t.owner≠id) }
  | resume {id read convert pool l} (hserving : s.Serving) (hover : ∀ t ∈ s.threads, t.owner≠id)
      (hpool : s.pool.giveBack id=some pool)
      (hl : MainLoop.step rt sourceBucket artifactBucket maxBytes maxConcurrency s.loop
        (.task id (.extract read convert))=some l) :
      Transition s (.resume id read convert) { s with loop := l, pool := pool }
  | cancel {id pool l} (hclosing : s.Closing) (hpool : s.pool.giveBack id=some pool)
      (hl : MainLoop.step rt sourceBucket artifactBucket maxBytes maxConcurrency s.loop
        (.task id .abandon)=some l) :
      Transition s (.cancel id) { s with loop := l, pool := pool }
  | close {l}
      (hl : MainLoop.step rt sourceBucket artifactBucket maxBytes maxConcurrency s.loop .close=some l) :
      Transition s .close { s with loop := l, service := .off, pool := ⟨[],[]⟩ }
  | kill : Transition s .kill ⟨s.loop.stop,.off,⟨[],[]⟩,[]⟩

theorem transition_of_step {s t : State κ} {a : Action}
    (h : step rt sourceBucket artifactBucket maxBytes maxConcurrency converters s a=some t) :
    Transition rt sourceBucket artifactBucket maxBytes maxConcurrency converters s a t := by
  cases a with
  | boot =>
    simp only [step] at h
    split at h
    · rename_i hoff
      split at h
      · rename_i hboot
        cases h
        exact .boot hoff hboot.1 hboot.2
      · cases h
    · cases h
  | warm =>
    simp only [step] at h
    split at h
    · rename_i hw hidle
      cases h
      exact .warm hw hidle
    · cases h
  | warmed =>
    simp only [step] at h
    split at h
    · rename_i hw
      cases h
      exact .warmed hw
    · cases h
  | serve =>
    simp only [step] at h
    split at h
    · rename_i hw hidle
      obtain ⟨l,hl,rfl⟩ := Option.map_eq_some_iff.mp h
      exact .serve hw hidle hl
    · cases h
  | loop a =>
    simp only [step] at h
    split at h
    · obtain ⟨l,hl,rfl⟩ := Option.map_eq_some_iff.mp h
      exact .loop ‹_› hl
    · cases h
  | take id =>
    simp only [step] at h
    split at h
    · rename_i htake
      obtain ⟨⟨c,pool⟩,hlend,rfl⟩ := Option.map_eq_some_iff.mp h
      exact .take htake.1 (extracting_iff.mp htake.2.1) htake.2.2 hlend
    · cases h
  | advance id =>
    cases h
    exact .advance
  | finish id =>
    simp only [step] at h
    split at h
    · cases h
      exact .finish ‹_›
    · cases h
  | drop id =>
    simp only [step] at h
    split at h
    · rename_i hdrop
      cases h
      exact .drop hdrop.1 hdrop.2.1 hdrop.2.2
    · cases h
  | resume id read convert =>
    simp only [step] at h
    split at h
    · rename_i hresume
      obtain ⟨pool,hpool,h⟩ := Option.bind_eq_some_iff.mp h
      obtain ⟨l,hl,rfl⟩ := Option.map_eq_some_iff.mp h
      exact .resume hresume.1 hresume.2 hpool hl
    · cases h
  | cancel id =>
    simp only [step] at h
    split at h
    · obtain ⟨pool,hpool,h⟩ := Option.bind_eq_some_iff.mp h
      obtain ⟨l,hl,rfl⟩ := Option.map_eq_some_iff.mp h
      exact .cancel ‹_› hpool hl
    · cases h
  | close =>
    obtain ⟨l,hl,rfl⟩ := Option.map_eq_some_iff.mp h
    exact .close hl
  | kill =>
    cases h
    exact .kill

/-- The converters that are lent belong to calls at their extraction, and the threads to those. -/
structure Working (s : State κ) : Prop where
  all : s.pool.all.Perm converters
  holders : (s.pool.lent.map Prod.fst).Nodup
  held : ∀ x ∈ s.pool.lent, Extracting s.loop x.1
  threads : ∀ t ∈ s.threads, (t.owner,t.converter) ∈ s.pool.lent

structure Sound (s : State κ) : Prop where
  distinct : (s.threads.map (·.converter)).Nodup
  warming : ∀ taken busy, s.service=.warming taken busy → taken ++ s.pool.idle=converters ∧
    s.pool.lent=[] ∧ s.threads=[]
  working : s.Serving → Working converters s

variable {rt sourceBucket artifactBucket maxBytes maxConcurrency converters}

/-- A shutdown ends only with the process. -/
lemma closing_kept {l m : MainLoop.State} {a : MainLoop.Action}
    (h : MainLoop.Transition rt sourceBucket artifactBucket maxBytes maxConcurrency l a m)
    (hp : l.phase=.closing) (hkill : a≠.kill) (hclose : a≠.close) : m.phase=.closing := by
  cases h with
  | kill => exact absurd rfl hkill
  | close => exact absurd rfl hclose
  | produce => exact hp
  | others => exact hp
  | task => exact hp
  | reapFails => rfl
  | commitFails => rfl
  | pollError => rfl
  | undecodable => rfl
  | start h => rw [hp] at h; cases h
  | collect h => rw [hp] at h; cases h
  | reap h => rw [hp] at h; cases h
  | commit h => rw [hp] at h; cases h
  | resume h => rw [hp] at h; cases h
  | resumeNothing h => rw [hp] at h; cases h
  | assign h => rw [hp] at h; cases h
  | revoke h => rw [hp] at h; cases h
  | pollNothing h => rw [hp] at h; cases h
  | poll h => rw [hp] at h; cases h
  | pollLast h => rw [hp] at h; cases h
  | pollRebalanced h => rw [hp] at h; cases h
  | pollRebalancedLast h => rw [hp] at h; cases h

/-- Until a shutdown, a call at its extraction stays there unless it makes a step itself. -/
lemma extracting_kept {l m : MainLoop.State} {a : MainLoop.Action}
    (h : MainLoop.Transition rt sourceBucket artifactBucket maxBytes maxConcurrency l a m)
    (hp : m.phase≠.closing) (hkill : a≠.kill) (hclose : a≠.close) {id : ℕ}
    (ha : ∀ b, a≠.task id b) (he : Extracting l id) : Extracting m id := by
  obtain ⟨j,p,body,hj,ht⟩ := he
  cases h with
  | kill => exact absurd rfl hkill
  | close => exact absurd rfl hclose
  | @task id' b j' stores task hj' h =>
    have hne : id'≠id := by
      rintro rfl
      exact ha b rfl
    refine ⟨j,p,body,?_,ht⟩
    rw [← hj]
    refine find?_updateWhere (fun x hx => ?_) l.inflight
    have hx := of_decide_eq_true hx
    exact ⟨decide_eq_false (hx.trans_ne hne),decide_eq_false (hx.trans_ne hne)⟩
  | @reap id' completed j' p' b h hj' ht' =>
    refine ⟨j,p,body,?_,ht⟩
    have hne : id'≠id := by
      rintro rfl
      rw [hj] at hj'
      cases hj'
      rw [ht] at ht'
      cases ht'
    rw [← hj]
    refine find?_filter_of_imp (fun x hx => ?_) l.inflight
    exact decide_eq_true ((of_decide_eq_true hx).trans_ne hne.symm)
  | reapFails => exact absurd rfl hp
  | commitFails => exact absurd rfl hp
  | pollError => exact absurd rfl hp
  | undecodable => exact absurd rfl hp
  | poll =>
    refine ⟨j,p,body,?_,ht⟩
    simp [MainLoop.State.spawn,MainLoop.State.setCursor,List.find?_append,hj]
  | pollLast =>
    refine ⟨j,p,body,?_,ht⟩
    simp [MainLoop.State.spawn,MainLoop.State.setCursor,MainLoop.State.setPaused,List.find?_append,hj]
  | pollRebalanced =>
    refine ⟨j,p,body,?_,ht⟩
    simp [MainLoop.State.spawn,MainLoop.State.setCursor,MainLoop.State.rebalance,List.find?_append,hj]
  | pollRebalancedLast =>
    refine ⟨j,p,body,?_,ht⟩
    simp [MainLoop.State.spawn,MainLoop.State.setCursor,MainLoop.State.rebalance,
      MainLoop.State.setPaused,List.find?_append,hj]
  | _ => exact ⟨j,p,body,hj,ht⟩

/-- Steps of the loop and of calls that hold no converter. -/
lemma Sound.loop {s : State κ} (hs : Sound converters s) {a : MainLoop.Action} {l : MainLoop.State}
    (hfree : Free s a)
    (h : MainLoop.step rt sourceBucket artifactBucket maxBytes maxConcurrency s.loop a=some l) :
    Sound converters { s with loop := l } := by
  have htransition := MainLoop.transition_of_step _ _ _ _ _ h
  have hkill : a≠.kill := by rintro rfl; exact hfree
  have hclose : a≠.close := by rintro rfl; exact hfree
  refine ⟨hs.distinct,hs.warming,fun hserving => ?_⟩
  have hbefore : s.Serving :=
    ⟨hserving.1,fun hclosing => hserving.2 (closing_kept htransition hclosing hkill hclose)⟩
  have hworking := hs.working hbefore
  refine ⟨hworking.all,hworking.holders,fun x hx => ?_,hworking.threads⟩
  refine extracting_kept htransition hserving.2 hkill hclose ?_ (hworking.held x hx)
  rintro b rfl
  cases b with
  | extract => exact hfree
  | _ => exact hfree x hx rfl

/-- A thread is never submitted for a converter that another thread uses. -/
lemma Sound.take {s : State κ} (hnodup : converters.Nodup) (hs : Sound converters s) {id : ℕ} {c : κ}
    {pool : Pool ℕ κ} (hserving : s.Serving) (hextracting : Extracting s.loop id)
    (hfree : s.pool.Free id) (h : s.pool.lend id=some (c,pool)) :
    Sound converters { s with pool := pool, threads := s.threads ++ [⟨id,c,.submitted⟩] } := by
  have hworking := hs.working hserving
  obtain ⟨hperm,hlent,hidle⟩ := Pool.lend_eq_some h
  refine ⟨?_,?_,fun _ => ⟨hperm.trans hworking.all,?_,?_,?_⟩⟩
  · refine nodup_map_append_singleton hs.distinct ?_
    intro t ht heq
    refine Pool.not_mem_lent (hworking.all.nodup_iff.mpr hnodup) hidle ?_
    exact List.mem_map.mpr ⟨_,hworking.threads t ht,heq⟩
  · intro taken busy hw
    rw [hserving.1] at hw
    cases hw
  · dsimp only
    rw [hlent]
    exact Pool.holders_lend hworking.holders hfree
  · intro x hx
    dsimp only at hx
    rw [hlent] at hx
    cases List.mem_append.mp hx with
    | inl hx => exact hworking.held x hx
    | inr hx =>
      cases List.mem_singleton.mp hx
      exact hextracting
  · intro t ht
    dsimp only
    rw [hlent]
    cases List.mem_append.mp ht with
    | inl ht => exact List.mem_append_left _ (hworking.threads t ht)
    | inr ht =>
      cases List.mem_singleton.mp ht
      exact List.mem_append_right _ (List.mem_singleton_self _)

/-- Threads go on and end. -/
lemma Sound.threads {s : State κ} (hs : Sound converters s) {threads : List (Thread κ)}
    (h : (threads.map (fun t => (t.owner,t.converter))).Sublist
      (s.threads.map (fun t => (t.owner,t.converter)))) :
    Sound converters { s with threads := threads } := by
  have hconverters : (threads.map (·.converter)).Sublist (s.threads.map (·.converter)) := by
    have hmap := h.map Prod.snd
    rwa [List.map_map,List.map_map] at hmap
  refine ⟨hconverters.nodup hs.distinct,?_,?_⟩
  · intro taken busy hw
    obtain ⟨hall,hlent,hthreads⟩ := hs.warming taken busy hw
    refine ⟨hall,hlent,?_⟩
    rw [hthreads] at h
    exact List.map_eq_nil_iff.mp (List.sublist_nil.mp h)
  · intro hserving
    have hworking := hs.working hserving
    refine ⟨hworking.all,hworking.holders,hworking.held,fun t ht => ?_⟩
    obtain ⟨u,hu,heq⟩ := List.mem_map.mp (h.subset (List.mem_map_of_mem ht))
    exact heq ▸ hworking.threads u hu

/-- A call that goes on gives back its converter, which its thread is done with. -/
lemma Sound.resume {s : State κ} (hs : Sound converters s) {id : ℕ} {a : Extractor.Action}
    {pool : Pool ℕ κ} {l : MainLoop.State} (hserving : s.Serving) (hover : ∀ t ∈ s.threads, t.owner≠id)
    (hpool : s.pool.giveBack id=some pool)
    (h : MainLoop.step rt sourceBucket artifactBucket maxBytes maxConcurrency s.loop (.task id a)=
      some l) : Sound converters { s with loop := l, pool := pool } := by
  have hworking := hs.working hserving
  have htransition := MainLoop.transition_of_step _ _ _ _ _ h
  have hlent := fun x => Pool.mem_lent_giveBack (x := x) hworking.holders hpool
  refine ⟨hs.distinct,?_,fun hafter => ⟨(Pool.giveBack_all hpool).trans hworking.all,
    Pool.holders_giveBack hworking.holders hpool,?_,?_⟩⟩
  · intro taken busy hw
    rw [hserving.1] at hw
    cases hw
  · intro x hx
    obtain ⟨hx,hne⟩ := (hlent x).mp hx
    refine extracting_kept htransition hafter.2 (fun h => by cases h) (fun h => by cases h) ?_
      (hworking.held x hx)
    intro b heq
    cases heq
    exact hne rfl
  · intro t ht
    exact (hlent _).mpr ⟨hworking.threads t ht,hover t ht⟩

/-- A shutdown starts no thread, so it cannot make two share a converter. -/
lemma Sound.ending {s : State κ} (hs : Sound converters s) {l : MainLoop.State} {service : Service κ}
    {pool : Pool ℕ κ} (hwarming : ∀ taken busy, service≠.warming taken busy)
    (hnot : ¬(service=.serving ∧ l.phase≠.closing)) :
    Sound converters ⟨l,service,pool,s.threads⟩ :=
  ⟨hs.distinct,fun taken busy h => absurd h (hwarming taken busy),fun h => absurd h hnot⟩

theorem sound_step (hnodup : converters.Nodup) (s : State κ) (a : Action) (t : State κ)
    (hs : Sound converters s)
    (h : step rt sourceBucket artifactBucket maxBytes maxConcurrency converters s a=some t) :
    Sound converters t := by
  cases transition_of_step _ _ _ _ _ _ h with
  | boot _ _ hthreads =>
    refine ⟨hs.distinct,?_,fun hserving => by cases hserving.1⟩
    intro taken busy hw
    cases hw
    exact ⟨rfl,rfl,hthreads⟩
  | warm hw hidle =>
    obtain ⟨hall,hlent,hthreads⟩ := hs.warming _ _ hw
    refine ⟨hs.distinct,?_,fun hserving => by cases hserving.1⟩
    intro taken' busy hw'
    cases hw'
    rw [hidle] at hall
    exact ⟨by simpa using hall,hlent,hthreads⟩
  | warmed hw =>
    refine ⟨hs.distinct,?_,fun hserving => by cases hserving.1⟩
    intro taken' busy hw'
    cases hw'
    exact hs.warming _ _ hw
  | serve hw hidle =>
    obtain ⟨hall,hlent,hthreads⟩ := hs.warming _ _ hw
    rw [hidle,List.append_nil] at hall
    refine ⟨hs.distinct,fun taken busy hw' => ?_,fun _ => ⟨?_,?_,?_,?_⟩⟩
    · cases hw'
    · simp [Pool.all,hall,hlent]
    · simp [hlent]
    · simp [hlent]
    · simp [hthreads]
  | loop hfree hl => exact hs.loop hfree hl
  | take hserving hextracting hfree hlend => exact hs.take hnodup hserving hextracting hfree hlend
  | advance =>
    refine hs.threads ?_
    rw [map_updateWhere (fun t _ => by simp only [Thread.advance])]
  | finish => exact hs.threads (List.filter_sublist.map _)
  | drop => exact hs.threads (List.filter_sublist.map _)
  | resume hserving hover hpool hl => exact hs.resume hserving hover hpool hl
  | cancel hclosing hpool hl =>
    have hstill := closing_kept (MainLoop.transition_of_step _ _ _ _ _ hl) hclosing
      (fun h => by cases h) (fun h => by cases h)
    refine hs.ending (fun taken busy hw => ?_) (fun hserving => hserving.2 hstill)
    obtain ⟨c,before,after,hlent,-⟩ := Pool.giveBack_split hpool
    rw [(hs.warming taken busy hw).2.1] at hlent
    exact absurd hlent.symm (by simp)
  | close => exact hs.ending (fun taken busy hw => by cases hw) (fun hserving => by cases hserving.1)
  | kill =>
    refine ⟨List.nodup_nil,fun taken busy hw => ?_,fun hserving => ?_⟩
    · cases hw
    · cases hserving.1

theorem sound_reach (hnodup : converters.Nodup) {s : State κ}
    (h : (system rt sourceBucket artifactBucket maxBytes maxConcurrency converters).Reachable s) :
    Sound converters s := by
  refine h.invariant ?_ (sound_step hnodup)
  intro s hs
  refine ⟨?_,?_,?_⟩
  · simp [hs.threads]
  · intro taken busy hw
    rw [hs.service] at hw
    cases hw
  · intro hserving
    have hoff := hserving.1
    rw [hs.service] at hoff
    cases hoff

/-- Whatever happens with converters, the loop makes its own steps. -/
lemma loop_step {s t : State κ} {a : Action}
    (h : step rt sourceBucket artifactBucket maxBytes maxConcurrency converters s a=some t) :
    t.loop=s.loop ∨ ∃ b, MainLoop.step rt sourceBucket artifactBucket maxBytes maxConcurrency s.loop b=
      some t.loop := by
  cases transition_of_step _ _ _ _ _ _ h with
  | serve _ _ hl => exact .inr ⟨_,hl⟩
  | loop _ hl => exact .inr ⟨_,hl⟩
  | resume _ _ _ hl => exact .inr ⟨_,hl⟩
  | cancel _ _ hl => exact .inr ⟨_,hl⟩
  | close hl => exact .inr ⟨_,hl⟩
  | kill => exact .inr ⟨.kill,rfl⟩
  | _ => exact .inl rfl

/-- The loop with its converters runs as the loop does. -/
theorem loop_reachable {s : State κ}
    (h : (system rt sourceBucket artifactBucket maxBytes maxConcurrency converters).Reachable s) :
    (MainLoop.system rt sourceBucket artifactBucket maxBytes maxConcurrency).Reachable s.loop := by
  refine System.Reachable.invariant (I := fun s : State κ =>
    (MainLoop.system rt sourceBucket artifactBucket maxBytes maxConcurrency).Reachable s.loop) ?_ ?_ h
  · intro s hs
    exact .start hs.loop
  · intro s a t hs ha
    cases loop_step ha with
    | inl heq => exact heq ▸ hs
    | inr hstep =>
      obtain ⟨b,hb⟩ := hstep
      exact .next hs trivial hb

/-- At most one conversion at a time uses a converter. -/
lemma Sound.conversions {s : State κ} (hs : Sound converters s) : s.conversions.Nodup := by
  have hthreads : ((s.threads.filter (fun t => t.stage=.converting)).map (·.converter)).Nodup :=
    (List.filter_sublist.map _).nodup hs.distinct
  unfold State.conversions
  split
  · rename_i taken hw
    rw [(hs.warming _ _ hw).2.2]
    cases taken.getLast? with
    | none => simp
    | some c => simp
  · simpa using hthreads

/-- No converter is ever in two conversions, and until a shutdown each is in the queue or with one
call at its extraction, after `warm` had them all. -/
theorem converters_never_shared (hnodup : converters.Nodup) {s : State κ}
    (h : (system rt sourceBucket artifactBucket maxBytes maxConcurrency converters).Reachable s) :
    s.conversions.Nodup ∧
      (s.Serving → (s.pool.idle ++ s.pool.lent.map Prod.snd).Perm converters ∧
        (s.pool.lent.map Prod.fst).Nodup ∧ ∀ x ∈ s.pool.lent, Extracting s.loop x.1) ∧
      ∀ taken busy, s.service=.warming taken busy →
        taken ++ s.pool.idle=converters ∧ s.pool.lent=[] := by
  have hs := sound_reach hnodup h
  refine ⟨hs.conversions,fun hserving => ?_,fun taken busy hw => ?_⟩
  · have hworking := hs.working hserving
    exact ⟨hworking.all,hworking.holders,hworking.held⟩
  · obtain ⟨hall,hlent,-⟩ := hs.warming taken busy hw
    exact ⟨hall,hlent⟩

/-- A worker with two converters, before it is started. -/
def idleWorker : State ℕ := ⟨MainLoop.twoMessages,.off,⟨[],[]⟩,[]⟩

/-- A call opens its source, gets a converter, and its thread reads the source. -/
def convertTask (id : ℕ) : List Action :=
  [.loop (.task id (.get .none)),.take id,.advance id,.advance id]

theorem two_calls_convert : ∃ s : State ℕ,
    (system plainRuntime minioSourceBucket minioArtifactBucket 1048576 2 [7,8]).Reachable s ∧
      s.conversions=[7,8] ∧ s.conversions.Nodup := by
  have hrun : ((system plainRuntime minioSourceBucket minioArtifactBucket 1048576 2 [7,8]).run
      idleWorker ([.boot,.warm,.warmed,.warm,.warmed,.serve] ++
        (MainLoop.pollBoth.tail).map .loop ++ convertTask 0 ++ convertTask 1)).any
      (fun s => s.conversions=[7,8])=true := by decide +kernel
  obtain ⟨s,hrun,hconversions⟩ := (Option.any_eq_true _ _).mp hrun
  have hinit : Initial idleWorker := ⟨MainLoop.twoMessages_initial,rfl,rfl,rfl⟩
  have hreach := System.reachable_of_run _ hinit hrun
  exact ⟨s,hreach,of_decide_eq_true hconversions,(converters_never_shared (by decide) hreach).1⟩

end
end RagIngestion.Extractor.Converters
