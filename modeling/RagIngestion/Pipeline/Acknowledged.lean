import RagIngestion.Pipeline.Outcomes
import RagIngestion.Library.Offsets

/-! The document fetchers of one consumer group: their loops, the offsets they commit, and the
pipeline around them, while processes crash, partitions move and messages are delivered again. -/
namespace RagIngestion.Pipeline.Group
open RagIngestion.Python RagIngestion.Domain RagIngestion.Database RagIngestion.Storage
open RagIngestion.Library

/-- Where the loop of a process stands: it handles a message with a call, or commits its offset. -/
inductive Phase
  | stopped
  | polling
  | handling (partition offset call : ℕ)
  | committing (partition offset : ℕ)

/-- A process, and the next offset it reads of each partition it is assigned. -/
structure Worker where
  phase : Phase
  cursor : ℕ → Option ℕ

/-- The pipeline, the topic and the group's committed offsets, and the processes. A message is
`none` when its value cannot be decoded. -/
structure State where
  world : World
  log : ℕ → List (Option DocumentSubmitted)
  committed : ℕ → ℕ
  worker : ℕ → Worker
  calls : ℕ

def State.setWorker (s : State) (n : ℕ) (w : Worker) : State :=
  { s with worker := Function.update s.worker n w }

/-- The process ends; what it held in memory is lost, and its call never goes on. -/
def State.stop (s : State) (n : ℕ) : State := s.setWorker n ⟨.stopped,fun _ => none⟩

def State.setPhase (s : State) (n : ℕ) (phase : Phase) : State :=
  s.setWorker n { s.worker n with phase := phase }

def State.setCursor (s : State) (n p : ℕ) (o : Option ℕ) : State :=
  s.setWorker n { s.worker n with cursor := Function.update (s.worker n).cursor p o }

/-- Committing a message sets the offset of its partition to the one after it. -/
def State.commit (s : State) (p o : ℕ) : State :=
  { s with committed := Function.update s.committed p (o+1) }

inductive Action
  | produce (p : ℕ) (value : Option DocumentSubmitted)
  /-- A step of the pipeline that is not one of a fetcher call. -/
  | world (a : Pipeline.Action)
  | start (n : ℕ)
  /-- The process is killed, or an exception leaves its loop. -/
  | crash (n : ℕ)
  | assign (n p : ℕ)
  | revoke (n p : ℕ)
  | poll (n p : ℕ)
  /-- The call of a process makes a step. -/
  | call (n : ℕ) (a : Fetcher.Action)
  /-- `handle` has returned. -/
  | handled (n : ℕ)
  | commit (n : ℕ) (fault : Fault)

variable (c : Config)

def step (s : State) : Action → Option State
  | .produce p value => some { s with log := Function.update s.log p (s.log p ++ [value]) }
  | .world a =>
    match a with
    | .fetch _ _ => none
    | a => (Pipeline.step c s.world a).map (fun w => { s with world := w })
  | .start n =>
    match (s.worker n).phase with
    | .stopped => some (s.setPhase n .polling)
    | _ => none
  | .crash n => some (s.stop n)
  | .assign n p =>
    match (s.worker n).phase with
    | .stopped => none
    | _ => some (s.setCursor n p (some (s.committed p)))
  | .revoke n p => some (s.setCursor n p none)
  | .poll n p =>
    match (s.worker n).phase, (s.worker n).cursor p with
    | .polling, some o =>
      match (s.log p)[o]? with
      | none => none
      -- `deserialize` raises
      | some none => some (s.stop n)
      | some (some payload) =>
        (Pipeline.step c s.world (.fetch s.calls (.deliver payload))).map fun w =>
          State.setWorker { s with world := w, calls := s.calls+1 } n
            ⟨.handling p o s.calls,Function.update (s.worker n).cursor p (some (o+1))⟩
    | _, _ => none
  | .call n a =>
    match (s.worker n).phase, a with
    | .handling _ _ _, .deliver _ => none
    | .handling _ _ t, a => (Pipeline.step c s.world (.fetch t a)).map (fun w => { s with world := w })
    | _, _ => none
  | .handled n =>
    match (s.worker n).phase with
    | .handling p o t =>
      match s.world.fetching t with
      | .returned _ _ => some (s.setPhase n (.committing p o))
      | _ => none
    | _ => none
  | .commit n fault =>
    match (s.worker n).phase with
    | .committing p o =>
      match fault with
      | .none => some ((s.commit p o).setPhase n .polling)
      | .before => some (s.stop n)
      | .after => some ((s.commit p o).stop n)
    | _ => none

/-- A topic nobody consumed yet, and no process running. -/
structure Initial (s : State) : Prop where
  world : Pipeline.Initial s.world
  committed : ∀ p, s.committed p=0
  worker : ∀ n, (s.worker n).phase=.stopped ∧ ∀ p, (s.worker n).cursor p=none
  calls : s.calls=0

def system : System State Action := ⟨Initial,step c⟩

/-- What a step does. -/
inductive Transition (s : State) : Action → State → Prop
  | produce {p value} :
      Transition s (.produce p value) { s with log := Function.update s.log p (s.log p ++ [value]) }
  | world {a w} (hfetch : ∀ u b, a≠.fetch u b) (hw : Pipeline.step c s.world a=some w) :
      Transition s (.world a) { s with world := w }
  | start {n} (h : (s.worker n).phase=.stopped) : Transition s (.start n) (s.setPhase n .polling)
  | crash {n} : Transition s (.crash n) (s.stop n)
  | assign {n p} (h : (s.worker n).phase≠.stopped) :
      Transition s (.assign n p) (s.setCursor n p (some (s.committed p)))
  | revoke {n p} : Transition s (.revoke n p) (s.setCursor n p none)
  | undecodable {n p o} (h : (s.worker n).phase=.polling) (hc : (s.worker n).cursor p=some o)
      (hm : (s.log p)[o]?=some none) : Transition s (.poll n p) (s.stop n)
  | poll {n p o payload w} (h : (s.worker n).phase=.polling) (hc : (s.worker n).cursor p=some o)
      (hm : (s.log p)[o]?=some (some payload))
      (hw : Pipeline.step c s.world (.fetch s.calls (.deliver payload))=some w) :
      Transition s (.poll n p) (State.setWorker { s with world := w, calls := s.calls+1 } n
        ⟨.handling p o s.calls,Function.update (s.worker n).cursor p (some (o+1))⟩)
  | call {n a p o u w} (h : (s.worker n).phase=.handling p o u) (hdeliver : ∀ m, a≠.deliver m)
      (hw : Pipeline.step c s.world (.fetch u a)=some w) :
      Transition s (.call n a) { s with world := w }
  | handled {n p o u payload b} (h : (s.worker n).phase=.handling p o u)
      (hu : s.world.fetching u=.returned payload b) :
      Transition s (.handled n) (s.setPhase n (.committing p o))
  | committed {n p o} (h : (s.worker n).phase=.committing p o) :
      Transition s (.commit n .none) ((s.commit p o).setPhase n .polling)
  | refused {n p o} (h : (s.worker n).phase=.committing p o) :
      Transition s (.commit n .before) (s.stop n)
  | lost {n p o} (h : (s.worker n).phase=.committing p o) :
      Transition s (.commit n .after) ((s.commit p o).stop n)

theorem transition_of_step {s t : State} {a : Action} (h : step c s a=some t) :
    Transition c s a t := by
  cases a with
  | produce p value =>
    cases h
    exact .produce
  | world a =>
    simp only [step] at h
    split at h
    · cases h
    · rename_i hfetch
      obtain ⟨w,hw,rfl⟩ := Option.map_eq_some_iff.mp h
      exact .world hfetch hw
  | start n =>
    simp only [step] at h
    split at h
    · cases h
      exact .start ‹_›
    · cases h
  | crash n =>
    cases h
    exact .crash
  | assign n p =>
    simp only [step] at h
    split at h
    · cases h
    · cases h
      exact .assign ‹_›
  | revoke n p =>
    cases h
    exact .revoke
  | poll n p =>
    simp only [step] at h
    split at h
    · rename_i o hphase hc
      split at h
      · cases h
      · rename_i hm
        cases h
        exact .undecodable hphase hc hm
      · rename_i payload hm
        obtain ⟨w,hw,rfl⟩ := Option.map_eq_some_iff.mp h
        exact .poll hphase hc hm hw
    · cases h
  | call n a =>
    simp only [step] at h
    split at h
    · cases h
    · rename_i p o u hphase hdeliver
      obtain ⟨w,hw,rfl⟩ := Option.map_eq_some_iff.mp h
      exact .call hphase hdeliver hw
    · cases h
  | handled n =>
    simp only [step] at h
    split at h
    · rename_i p o u hphase
      split at h
      · rename_i hu
        cases h
        exact .handled hphase hu
      · cases h
    · cases h
  | commit n fault =>
    simp only [step] at h
    split at h
    · rename_i p o hphase
      cases fault with
      | none => cases h; exact .committed hphase
      | before => cases h; exact .refused hphase
      | after => cases h; exact .lost hphase
    · cases h

/-- The message at the offset exists and was processed. -/
def Settled (s : State) (p o : ℕ) : Prop :=
  ∃ payload, (s.log p)[o]?=some (some payload) ∧ Fetcher.Processed s.world.db payload

/-- The process handles the message at the offset. -/
def Worker.Pending (w : Worker) (p o : ℕ) : Prop := ∃ t, w.phase=.handling p o t

/-- What a process knows: it has read nothing over an unprocessed message, but for the one in hand. -/
structure Worker.Sound (s : State) (w : Worker) : Prop where
  cursor : ∀ p o, w.cursor p=some o → Covered (Settled s p) (w.Pending p) o
  handling : ∀ p o t, w.phase=.handling p o t → Safe (Settled s p) o ∧ t<s.calls ∧
    ∃ payload, (s.log p)[o]?=some (some payload) ∧ (s.world.fetching t).payload=some payload
  committing : ∀ p o, w.phase=.committing p o → Safe (Settled s p) (o+1)

structure Sound (s : State) : Prop where
  world : (Pipeline.system c).Reachable s.world
  fresh : ∀ t, s.calls ≤ t → s.world.fetching t=.idle
  safe : ∀ p, Safe (Settled s p) (s.committed p)
  worker : ∀ n, (s.worker n).Sound s

/-- The log, the processed events and the calls only grow from one state to the other, and calls
keep their payloads. -/
structure Grows (s t : State) : Prop where
  log : ∀ p, s.log p <+: t.log p
  processed : s.world.db.processedEvents ⊆ t.world.db.processedEvents
  calls : s.calls ≤ t.calls
  payload : ∀ u p, (s.world.fetching u).payload=some p → (t.world.fetching u).payload=some p

variable {c} {s t : State}

lemma Grows.message (h : Grows s t) {p o : ℕ} {value : Option DocumentSubmitted}
    (hm : (s.log p)[o]?=some value) : (t.log p)[o]?=some value := by
  obtain ⟨more,hmore⟩ := h.log p
  rw [← hmore,List.getElem?_append_left (List.getElem?_eq_some_iff.mp hm).1]
  exact hm

lemma Settled.mono (h : Grows s t) {p o : ℕ} (hs : Settled s p o) : Settled t p o := by
  obtain ⟨payload,hm,hp⟩ := hs
  exact ⟨payload,h.message hm,hp.mono h.processed⟩

/-- What a process knows stays true. -/
lemma Worker.Sound.mono {w : Worker} (hw : w.Sound s) (h : Grows s t) : w.Sound t := by
  refine ⟨fun p o hc => ?_,fun p o u hp => ?_,fun p o hp => ?_⟩
  · exact (hw.cursor p o hc).mono (fun _ hs => hs.mono h) (fun _ hp => .inr hp)
  · obtain ⟨hsafe,hcalls,payload,hm,hpayload⟩ := hw.handling p o u hp
    exact ⟨hsafe.mono (fun _ hs => hs.mono h),lt_of_lt_of_le hcalls h.calls,payload,h.message hm,
      h.payload u payload hpayload⟩
  · exact (hw.committing p o hp).mono (fun _ hs => hs.mono h)

/-- A stopped process knows nothing. -/
lemma Worker.Sound.stopped : Worker.Sound s ⟨.stopped,fun _ => none⟩ :=
  ⟨fun _ _ hc => (by cases hc),fun _ _ _ hp => (by cases hp),fun _ _ hp => (by cases hp)⟩

/-- No transaction withdraws a claim. -/
lemma processedEvents_subset {w : World} {after : Db} (h : DbStep c w after) :
    w.db.processedEvents ⊆ after.processedEvents := by
  cases h with
  | same => exact List.Subset.refl _
  | publish => exact List.Subset.refl _
  | submit hr hdb =>
    obtain ⟨-,rfl⟩ := Submission.Draft.submission_eq_ok _ _ hdb
    exact List.Subset.refl _
  | consume ho hc =>
    rw [hc.result]
    exact List.subset_append_left _ _

lemma payload_step {w after : World} {a : Pipeline.Action} (h : Pipeline.step c w a=some after)
    {u : ℕ} {p : DocumentSubmitted} (hp : (w.fetching u).payload=some p) :
    (after.fetching u).payload=some p := by
  cases fetching_step h u with
  | inl hsame => rw [hsame]; exact hp
  | inr hstep =>
    obtain ⟨b,-,htransition⟩ := hstep
    exact htransition.payload _ _ _ hp

lemma delivered_step {w after : World} {u : ℕ} {p : DocumentSubmitted}
    (h : Pipeline.step c w (.fetch u (.deliver p))=some after) :
    (after.fetching u).payload=some p := by
  cases Pipeline.transition_of_step h with
  | fetch htransition =>
    generalize w.fetching u=before at htransition
    cases htransition
    simp only [Function.update_self]
    rfl

/-- A fetcher call that has returned has its event processed. -/
theorem returned_processed {w : World} (h : (Pipeline.system c).Reachable w) {u : ℕ}
    {p : DocumentSubmitted} {b : Bool} (hu : w.fetching u=.returned p b) :
    Fetcher.Processed w.db p := by
  refine System.Reachable.invariant (I := fun w : World => ∀ u p b, w.fetching u=.returned p b →
    Fetcher.Processed w.db p) ?_ ?_ h u p b hu
  · intro w hw u p b hu
    rw [hw.fetching] at hu
    cases hu
  · intro w a after hw ha u p b hu
    have ha : Pipeline.step c w a=some after := ha
    cases fetching_step ha u with
    | inl hsame => exact (hw u p b (hsame ▸ hu)).mono (processedEvents_subset (step_db ha))
    | inr hstep =>
      obtain ⟨b',-,htransition⟩ := hstep
      rw [hu] at htransition
      exact htransition.returned_processed

/-- A step of the pipeline that is not the start of a call. -/
lemma Sound.world_step (hs : Sound c s) {a : Pipeline.Action} {w : World}
    (h : Pipeline.step c s.world a=some w) (ha : ∀ u b, a=.fetch u b → u<s.calls) :
    Sound c { s with world := w } := by
  have hgrows : Grows s { s with world := w } :=
    ⟨fun _ => List.prefix_rfl,processedEvents_subset (step_db h),le_rfl,fun _ _ hp => payload_step h hp⟩
  refine ⟨.next hs.world trivial h,fun u hu => ?_,?_,fun n => (hs.worker n).mono hgrows⟩
  · cases fetching_step h u with
    | inl hsame => exact hsame.trans (hs.fresh u hu)
    | inr hstep =>
      obtain ⟨b,hb,-⟩ := hstep
      exact absurd (ha u b hb) (not_lt.mpr hu)
  · exact fun p => (hs.safe p).mono (fun _ ho => ho.mono hgrows)

/-- A call that was not started yet may be counted. -/
lemma Sound.new_call (hs : Sound c s) : Sound c { s with calls := s.calls+1 } := by
  have hgrows : Grows s { s with calls := s.calls+1 } :=
    ⟨fun _ => List.prefix_rfl,List.Subset.refl _,Nat.le_succ _,fun _ _ hp => hp⟩
  refine ⟨hs.world,fun u hu => hs.fresh u ?_,?_,fun n => (hs.worker n).mono hgrows⟩
  · exact (Nat.le_succ _).trans hu
  · exact fun p => (hs.safe p).mono (fun _ ho => ho.mono hgrows)

/-- A step of one process. -/
lemma Sound.worker_step (hs : Sound c s) {n : ℕ} {w : Worker} (hw : w.Sound s) :
    Sound c (s.setWorker n w) := by
  have hgrows : Grows s (s.setWorker n w) :=
    ⟨fun _ => List.prefix_rfl,List.Subset.refl _,le_rfl,fun _ _ hp => hp⟩
  refine ⟨hs.world,hs.fresh,fun p => (hs.safe p).mono (fun _ ho => ho.mono hgrows),fun m => ?_⟩
  by_cases hm : m=n
  · subst hm
    simpa only [State.setWorker,Function.update_self] using hw.mono hgrows
  · simpa only [State.setWorker,Function.update_of_ne hm] using (hs.worker m).mono hgrows

/-- An offset is committed that is safe. -/
lemma Sound.commit (hs : Sound c s) {p o : ℕ} (h : Safe (Settled s p) (o+1)) :
    Sound c (s.commit p o) := by
  have hgrows : Grows s (s.commit p o) :=
    ⟨fun _ => List.prefix_rfl,List.Subset.refl _,le_rfl,fun _ _ hp => hp⟩
  refine ⟨hs.world,hs.fresh,fun q => ?_,fun n => (hs.worker n).mono hgrows⟩
  by_cases hq : q=p
  · subst hq
    simp only [State.commit,Function.update_self]
    exact h.mono (fun _ ho => ho.mono hgrows)
  · simp only [State.commit,Function.update_of_ne hq]
    exact (hs.safe q).mono (fun _ ho => ho.mono hgrows)

/-- A process between two messages may read on from any safe offset. -/
lemma Worker.Sound.setCursor {w : Worker} (hw : w.Sound s) {p : ℕ} {o : Option ℕ}
    (h : ∀ n, o=some n → Safe (Settled s p) n) :
    Worker.Sound s { w with cursor := Function.update w.cursor p o } := by
  refine ⟨fun q n hc => ?_,hw.handling,hw.committing⟩
  by_cases hq : q=p
  · subst hq
    simp only [Function.update_self] at hc
    exact (h n hc).covered
  · simp only [Function.update_of_ne hq] at hc
    exact hw.cursor q n hc

/-- A process that handles no message has read over processed ones only. -/
lemma Worker.Sound.safe {w : Worker} (hw : w.Sound s) (hphase : ∀ p o u, w.phase≠.handling p o u)
    {p o : ℕ} (hc : w.cursor p=some o) : Safe (Settled s p) o := by
  refine (hw.cursor p o hc).safe_iff.mpr (fun o' _ hpending => ?_)
  obtain ⟨u,hu⟩ := hpending
  exact absurd hu (hphase _ _ _)

/-- A process goes on between two messages. -/
lemma Worker.Sound.setPolling {w : Worker} (hw : w.Sound s)
    (hphase : ∀ p o u, w.phase≠.handling p o u) : Worker.Sound s { w with phase := .polling } :=
  ⟨fun _ _ hc => (hw.safe hphase hc).covered,fun _ _ _ hp => (by cases hp),fun _ _ hp => (by cases hp)⟩

/-- A process takes the next message in hand. -/
lemma Worker.Sound.poll {w : Worker} (hw : w.Sound s) (hphase : w.phase=.polling) {p o u : ℕ}
    (hc : w.cursor p=some o) (hu : u<s.calls) {payload : DocumentSubmitted}
    (hm : (s.log p)[o]?=some (some payload)) (hcall : (s.world.fetching u).payload=some payload) :
    Worker.Sound s ⟨.handling p o u,Function.update w.cursor p (some (o+1))⟩ := by
  have hpolling : ∀ q n v, w.phase≠.handling q n v := fun q n v h => by rw [hphase] at h; cases h
  have hsafe := hw.safe hpolling hc
  refine ⟨fun q n hq => ?_,fun q n v hv => ?_,fun _ _ hp => (by cases hp)⟩
  · by_cases hqp : q=p
    · subst hqp
      simp only [Function.update_self,Option.some.injEq] at hq
      subst hq
      exact Covered.succ hsafe.covered ⟨u,rfl⟩
    · simp only [Function.update_of_ne hqp] at hq
      exact (hw.safe hpolling hq).covered
  · cases hv
    exact ⟨hsafe,hu,payload,hm,hcall⟩

/-- A call that has returned settles its message. -/
lemma Worker.Sound.handled {w : Worker} (hw : w.Sound s)
    (hreach : (Pipeline.system c).Reachable s.world) {p o u : ℕ} (hphase : w.phase=.handling p o u)
    {payload : DocumentSubmitted} {b : Bool} (hu : s.world.fetching u=.returned payload b) :
    Worker.Sound s { w with phase := .committing p o } := by
  obtain ⟨hsafe,-,message,hm,hpayload⟩ := hw.handling p o u hphase
  rw [hu] at hpayload
  have heq : payload=message := Option.some.inj hpayload
  have hsettled : Settled s p o := ⟨message,hm,heq ▸ returned_processed hreach hu⟩
  refine ⟨fun q n hq => ?_,fun _ _ _ hp => (by cases hp),fun q n hp => ?_⟩
  · refine Safe.covered ((hw.cursor q n hq).safe_iff.mpr (fun o' _ hpending => ?_))
    obtain ⟨v,hv⟩ := hpending
    rw [hphase] at hv
    cases hv
    exact hsettled
  · cases hp
    exact hsafe.succ hsettled

theorem sound_step (s : State) (a : Action) (t : State) (hs : Sound c s) (h : step c s a=some t) :
    Sound c t := by
  cases transition_of_step c h with
  | @produce p value =>
    have hgrows : Grows s { s with log := Function.update s.log p (s.log p ++ [value]) } := by
      refine ⟨fun q => ?_,List.Subset.refl _,le_rfl,fun _ _ hp => hp⟩
      by_cases hq : q=p
      · subst hq
        simp only [Function.update_self]
        exact List.prefix_append _ _
      · simp only [Function.update_of_ne hq]
        exact List.prefix_rfl
    exact ⟨hs.world,hs.fresh,fun q => (hs.safe q).mono (fun _ ho => ho.mono hgrows),
      fun n => (hs.worker n).mono hgrows⟩
  | world hfetch hw => exact hs.world_step hw (fun u b ha => absurd ha (hfetch u b))
  | @start n hphase =>
    exact hs.worker_step ((hs.worker n).setPolling (fun p o u hp => by rw [hphase] at hp; cases hp))
  | crash => exact hs.worker_step .stopped
  | @assign n p =>
    refine hs.worker_step ((hs.worker n).setCursor (fun o ho => ?_))
    cases ho
    exact hs.safe p
  | @revoke n p => exact hs.worker_step ((hs.worker n).setCursor (fun o ho => by cases ho))
  | undecodable => exact hs.worker_step .stopped
  | @poll n _ _ _ _ hphase hc hm hw =>
    have hnew := hs.new_call.world_step hw (fun u b ha => by cases ha; exact Nat.lt_succ_self _)
    exact hnew.worker_step ((hnew.worker n).poll hphase hc (Nat.lt_succ_self _) hm (delivered_step hw))
  | @call n _ _ _ _ _ hphase _ hw =>
    refine hs.world_step hw (fun v b ha => ?_)
    cases ha
    exact ((hs.worker n).handling _ _ _ hphase).2.1
  | @handled n _ _ _ _ _ hphase hu =>
    exact hs.worker_step ((hs.worker n).handled hs.world hphase hu)
  | @committed n p o hphase =>
    have hcommitted := hs.commit ((hs.worker n).committing p o hphase)
    refine hcommitted.worker_step ((hcommitted.worker n).setPolling (fun q m u hp => ?_))
    have hp : (s.worker n).phase=.handling q m u := hp
    rw [hphase] at hp
    cases hp
  | refused => exact hs.worker_step .stopped
  | @lost n p o hphase => exact (hs.commit ((hs.worker n).committing p o hphase)).worker_step .stopped

theorem sound_reach (h : (system c).Reachable s) : Sound c s := by
  refine h.invariant ?_ sound_step
  intro s hs
  refine ⟨.start hs.world,fun u _ => hs.world.fetching u,fun p o ho => ?_,fun n => ⟨?_,?_,?_⟩⟩
  · rw [hs.committed p] at ho
    exact absurd ho (Nat.not_lt_zero o)
  · intro p o hc
    rw [(hs.worker n).2 p] at hc
    cases hc
  · intro p o u hp
    rw [(hs.worker n).1] at hp
    cases hp
  · intro p o hp
    rw [(hs.worker n).1] at hp
    cases hp

/-- The rows of outcomes of an event in the outbox. -/
def State.outcomes (s : State) (e : ProcessedEvent) : ℕ :=
  s.world.db.outbox.countP (fun r => isOutcomeOf e r.event)

/-- No event has two outcomes, and one that is processed has one. -/
lemma Sound.outcomes (hs : Sound c s) (e : ProcessedEvent) :
    s.outcomes e ≤ 1 ∧ (e ∈ s.world.db.processedEvents → s.outcomes e=1) := by
  obtain ⟨⟨log,hlog⟩,hnodup⟩ := replays_reachable hs.world
  rw [State.outcomes,hlog.count e]
  have hle := List.nodup_iff_count_le_one.mp hnodup e
  refine ⟨hle,fun he => ?_⟩
  have hpos := List.count_pos_iff.mpr he
  omega

/-- Whatever the group does, the pipeline makes its own steps. -/
lemma pipeline_step {a : Action} (h : step c s a=some t) :
    t.world=s.world ∨ ∃ b, Pipeline.step c s.world b=some t.world := by
  cases transition_of_step c h with
  | world _ hw => exact .inr ⟨_,hw⟩
  | poll _ _ _ hw => exact .inr ⟨_,hw⟩
  | call _ _ hw => exact .inr ⟨_,hw⟩
  | _ => exact .inl rfl

/-- No step of the group withdraws a claim. -/
lemma processedEvents_step {a : Action} (h : step c s a=some t) :
    s.world.db.processedEvents ⊆ t.world.db.processedEvents := by
  cases pipeline_step h with
  | inl hsame =>
    rw [hsame]
    exact List.Subset.refl _
  | inr hstep =>
    obtain ⟨b,hb⟩ := hstep
    exact processedEvents_subset (step_db hb)

/-- Every message below a committed offset was decoded and processed, with one outcome in the
outbox; no event ever has two, and one that is processed keeps its one in whatever follows. -/
theorem acknowledged_processed (h : (system c).Reachable s) :
    (∀ p o value, o<s.committed p → (s.log p)[o]?=some value → ∃ payload tenantId eventId,
        value=some payload ∧ UUID.ofText payload.tenantId=.ok tenantId ∧
        UUID.ofText payload.eventId=.ok eventId ∧
        ⟨tenantId,eventId,Fetcher.consumerName⟩ ∈ s.world.db.processedEvents ∧
        s.outcomes ⟨tenantId,eventId,Fetcher.consumerName⟩=1) ∧
      (∀ e, s.outcomes e ≤ 1) ∧
      ∀ e ∈ s.world.db.processedEvents, ∀ as t, (system c).run s as=some t → t.outcomes e=1 := by
  have hs := sound_reach h
  refine ⟨fun p o value ho hm => ?_,fun e => (hs.outcomes e).1,fun e he as t hrun => ?_⟩
  · obtain ⟨payload,hm',tenantId,eventId,ht,hid,hmem⟩ := hs.safe p o ho
    refine ⟨payload,tenantId,eventId,?_,ht,hid,hmem,(hs.outcomes _).2 hmem⟩
    exact Option.some.inj (hm.symm.trans hm')
  · have hkept : e ∈ t.world.db.processedEvents :=
      System.run_invariant (I := fun u : State => e ∈ u.world.db.processedEvents)
        (fun _ _ _ he ha => processedEvents_step ha he) he hrun
    exact ((sound_reach (System.Reachable.run h hrun)).outcomes e).2 hkept

/-- A group over a topic with one message that nobody submitted. -/
def strayGroup : State where
  world := plainWorld
  log := fun p => if p=0 then [some { strayPayload with eventType := [] }] else []
  committed := fun _ => 0
  worker := fun _ => ⟨.stopped,fun _ => none⟩
  calls := 0

/-- A process polls the message and its call returns. -/
def handleStray (n : ℕ) (draws : Draws) : List Action :=
  [.start n,.assign n 0,.poll n 0,.call n (.get .none),.call n (.process draws .none),.handled n]

/-- A process crashes before its commit, and another one acknowledges the message. -/
theorem stray_acknowledged : ∃ s : State, (system plainConfig).Reachable s ∧ s.committed 0=1 ∧
    ∀ e, s.outcomes e ≤ 1 := by
  have hrun : ((system plainConfig).run strayGroup (handleStray 0 ⟨⟨5⟩,[],⟨6⟩,0,0,0⟩ ++
      [.commit 0 .before] ++ handleStray 1 ⟨⟨7⟩,[],⟨8⟩,1,1,1⟩ ++ [.commit 1 .none])).any
        (fun s => s.committed 0=1)=true := by decide +kernel
  obtain ⟨s,hrun,hone⟩ := (Option.any_eq_true _ _).mp hrun
  have hinit : Initial strayGroup := ⟨plainWorld_initial,fun _ => rfl,fun _ => ⟨rfl,fun _ => rfl⟩,rfl⟩
  have hreach := System.reachable_of_run _ hinit hrun
  exact ⟨s,hreach,of_decide_eq_true hone,(acknowledged_processed hreach).2.1⟩

end RagIngestion.Pipeline.Group
