import RagIngestion.Publisher.Ownership

/-! What the status recorded for an attempt depends on: the message of the attempt is followed
through the shared producer queue, from `produce` to the end of the flush. -/
namespace RagIngestion.Publisher
open RagIngestion.Python RagIngestion.Domain RagIngestion.Database RagIngestion.Library

/-- What has become of the message of an attempt: it was not produced, it waits in the queue at some
place, the broker has accepted it, or it was refused or has expired. -/
inductive Fate
  | unsent
  | queued (i : ℕ)
  | accepted
  | dropped

namespace Fate

/-- The message at a place leaves the queue. -/
def removed (fate : Fate) (j : ℕ) (gone : Fate) : Fate :=
  match fate with
  | .queued i => if j=i then gone else .queued (if j < i then i-1 else i)
  | fate => fate

def after (p : ℕ) (fate : Fate) : Action → Fate
  | .accept q j => if q=p then fate.removed j .accepted else fate
  | .drop q j => if q=p then fate.removed j .dropped else fate
  | _ => fate

/-- What is left in the queue at the end of the flush tells whether the message was accepted: nothing
if it was, and something if not. A message that was refused or has expired leaves nothing itself, so
only one of another event tells there. -/
def Isolated (queue : List KafkaMessage) : Fate → Prop
  | .accepted => queue=[]
  | .dropped => queue≠[]
  | _ => True

end Fate

/-- A process has produced the message of an event and waits in its flush. -/
inductive Sent (p : ℕ) (e : OutboxRow) (es : List OutboxRow) : State → Fate → Prop
  | produced {s t} (hs : system.Reachable s) (hp : (s.process p).phase=.publishing e es)
      (ha : step s (.produce p false)=some t) (ht : (t.process p).phase=.flushing e es) :
      Sent p e es t (.queued (s.process p).queue.length)
  | later {s t a fate} (before : Sent p e es s fate) (ha : step s a=some t)
      (ht : (t.process p).phase=.flushing e es) : Sent p e es t (fate.after p a)

/-- Steps during which a process stays where it is in the code. -/
inductive Stays (p : ℕ) : State → State → Prop
  | refl {s} : Stays p s s
  | next {s t u a} (before : Stays p s t) (h : step t a=some u)
      (hp : (u.process p).phase=(t.process p).phase) : Stays p s u

/-- A call of `_complete` that is answered. -/
inductive Action.Records (p : ℕ) : Action → Prop
  | complete {now} : Records p (.complete p now .none)
  | report {now clock error} : Records p (.report p now clock error .none)

/-- The process records a status for the event and goes on. -/
structure Recorded (p : ℕ) (e : OutboxRow) (es : List OutboxRow) (s t : State)
    (status : OutboxStatus) : Prop where
  call : ∃ a, a.Records p ∧ step s a=some t
  returned : (t.process p).phase=.loop es
  row : ∃ r ∈ t.outbox, r.id=e.id ∧ r.status=status

/-- An attempt of an event: the fate of its message and the queue at the end of the flush, and the
status recorded for it. -/
inductive Attempt (p : ℕ) (e : OutboxRow) : Fate → List KafkaMessage → OutboxStatus → Prop
  | unsent {es s t u v raises status} (hs : system.Reachable s)
      (hp : (s.process p).phase=.publishing e es) (ha : step s (.produce p raises)=some t)
      (ht : (t.process p).phase=.failing e es) (stays : Stays p t u)
      (recorded : Recorded p e es u v status) : Attempt p e .unsent (t.process p).queue status
  | flushed {es s t u v fate status} (sent : Sent p e es s fate)
      (ha : step s (.flush p false)=some t) (stays : Stays p t u)
      (recorded : Recorded p e es u v status) : Attempt p e fate (s.process p).queue status

theorem Stays.phase {p : ℕ} {s t : State} (h : Stays p s t) :
    (t.process p).phase=(s.process p).phase := by
  induction h with
  | refl => rfl
  | next _ _ hp ih => exact hp.trans ih

theorem Stays.reachable {p : ℕ} {s t : State} (h : Stays p s t) (hs : system.Reachable s) :
    system.Reachable t := by
  induction h with
  | refl => exact hs
  | @next t u a _ ha _ ih =>
    have ha : system.step t a=some u := ha
    exact .next ih trivial ha

theorem Sent.reachable {p : ℕ} {e : OutboxRow} {es : List OutboxRow} {s : State} {fate : Fate}
    (h : Sent p e es s fate) : system.Reachable s := by
  induction h with
  | @produced s t hs _ ha _ =>
    have ha : system.step s (.produce p false)=some t := ha
    exact .next hs trivial ha
  | @later s t a _ _ ha _ ih =>
    have ha : system.step s a=some t := ha
    exact .next ih trivial ha

/-- The broker keeps what it has accepted. -/
lemma broker_subset {s t : State} {a : Action} (ha : step s a=some t) : s.broker ⊆ t.broker := by
  cases transition_of_step ha with
  | accept => exact List.subset_append_left _ _
  | _ => exact List.Subset.refl _

lemma Fate.after_other {p : ℕ} {a : Action} (h : a.process?≠some p) (fate : Fate) :
    fate.after p a=fate := by
  cases a with
  | accept q j => exact if_neg (fun hq => h (congrArg some hq))
  | drop q j => exact if_neg (fun hq => h (congrArg some hq))
  | _ => rfl

/-- What a step can do to the queue of a process that waits in its flush. -/
lemma queue_of_flushing {p : ℕ} {e : OutboxRow} {es : List OutboxRow} {s t : State} {a : Action}
    (ha : step s a=some t) (hs : (s.process p).phase=.flushing e es)
    (ht : (t.process p).phase=.flushing e es) :
    (∃ j m, a=.accept p j ∧ (s.process p).queue[j]?=some m ∧ m ∈ t.broker ∧
        (t.process p).queue=(s.process p).queue.eraseIdx j) ∨
      (∃ j, a=.drop p j ∧ (t.process p).queue=(s.process p).queue.eraseIdx j) ∨
      (∀ fate : Fate, fate.after p a=fate) ∧ (t.process p).queue=(s.process p).queue := by
  by_cases hp : a.process?=some p
  · cases transition_of_step ha with
    | accept h =>
      cases Option.some.inj hp
      exact .inl ⟨_,_,rfl,h,by simp [State.setProcess],by simp [State.setProcess]⟩
    | drop h =>
      cases Option.some.inj hp
      exact .inr (.inl ⟨_,rfl,by simp [State.setProcess]⟩)
    | insert => cases hp
    | _ =>
      -- every other step of the process starts or ends elsewhere in the code
      cases Option.some.inj hp
      simp_all [State.setPhase,State.stop,State.setProcess]
  · exact .inr (.inr ⟨Fate.after_other hp,by rw [step_other ha hp]⟩)

/-- The message is where its fate says: at its place in the queue, or with the broker. -/
structure Tracks (e : OutboxRow) (queue broker : List KafkaMessage) (fate : Fate) : Prop where
  sent : fate≠.unsent
  queued : ∀ i, fate=.queued i → ∃ m, kafkaMessage e.event=.ok m ∧ queue[i]?=some m
  accepted : fate=.accepted → ∃ m, kafkaMessage e.event=.ok m ∧ m ∈ broker

/-- An item keeps its place in a list but for those that leave before it. -/
lemma getElem?_eraseIdx_shift {α : Type} {l : List α} {i j : ℕ} (h : j≠i) :
    (l.eraseIdx j)[if j < i then i-1 else i]?=l[i]? := by
  rw [List.getElem?_eraseIdx]
  by_cases hji : j < i
  · rw [if_pos hji,if_neg (by omega),Nat.sub_add_cancel (by omega)]
  · rw [if_neg hji,if_pos (by omega)]

/-- A message that leaves the queue is another one, or that of the attempt. -/
lemma Tracks.removed {e : OutboxRow} {queue broker more : List KafkaMessage} {fate gone : Fate}
    (h : Tracks e queue broker fate) (hmore : broker ⊆ more) {j : ℕ} (hg : ∀ i, gone≠.queued i)
    (hs : gone≠.unsent)
    (ha : gone=.accepted → ∃ m, queue[j]?=some m ∧ m ∈ more) :
    Tracks e (queue.eraseIdx j) more (fate.removed j gone) := by
  cases fate with
  | unsent => exact absurd rfl h.sent
  | accepted =>
    obtain ⟨m,hm,hmem⟩ := h.accepted rfl
    exact ⟨by simp [Fate.removed],by simp [Fate.removed],fun _ => ⟨m,hm,hmore hmem⟩⟩
  | dropped => exact ⟨by simp [Fate.removed],by simp [Fate.removed],by simp [Fate.removed]⟩
  | queued i =>
    obtain ⟨m,hm,hi⟩ := h.queued i rfl
    by_cases hj : j=i
    · simp only [Fate.removed,if_pos hj]
      refine ⟨hs,fun i' hi' => absurd hi' (hg i'),?_⟩
      intro hacc
      obtain ⟨m',hm',hmem⟩ := ha hacc
      rw [hj,hi] at hm'
      cases hm'
      exact ⟨m,hm,hmem⟩
    · simp only [Fate.removed,if_neg hj]
      refine ⟨by simp,?_,by simp⟩
      intro i' hi'
      cases hi'
      refine ⟨m,hm,?_⟩
      exact (getElem?_eraseIdx_shift hj).trans hi

/-- Until the flush ends the message is where its fate says. -/
lemma Sent.tracks {p : ℕ} {e : OutboxRow} {es : List OutboxRow} {s : State} {fate : Fate}
    (h : Sent p e es s fate) : (s.process p).phase=.flushing e es ∧
      Tracks e (s.process p).queue s.broker fate := by
  induction h with
  | @produced s t hs hp ha ht =>
    refine ⟨ht,by simp,?_,by simp⟩
    intro i hi
    cases hi
    cases transition_of_step ha with
    | @produced p e es m hp' hm =>
      obtain ⟨rfl,rfl⟩ := Phase.publishing.inj (hp.symm.trans hp')
      exact ⟨m,hm,by simp [State.setProcess]⟩
    | produceFails hp' => simp [State.setPhase,State.setProcess] at ht
  | @later s t a fate before ha ht ih =>
    obtain ⟨hs,htracks⟩ := ih
    refine ⟨ht,?_⟩
    have hbroker := broker_subset ha
    obtain ⟨j,m,rfl,hj,hm,hqueue⟩ | ⟨j,rfl,hqueue⟩ | ⟨hfate,hqueue⟩ := queue_of_flushing ha hs ht
    · rw [hqueue,Fate.after,if_pos rfl]
      exact htracks.removed hbroker (by simp) (by simp) (fun _ => ⟨m,hj,hm⟩)
    · rw [hqueue,Fate.after,if_pos rfl]
      exact htracks.removed hbroker (by simp) (by simp) (by simp)
    · rw [hfate fate,hqueue]
      refine ⟨htracks.sent,htracks.queued,?_⟩
      intro hacc
      obtain ⟨m,hm,hmem⟩ := htracks.accepted hacc
      exact ⟨m,hm,hbroker hmem⟩

section
variable {p : ℕ} {e : OutboxRow} {es : List OutboxRow} {s t : State} {status : OutboxStatus}

/-- After a flush that left nothing the event is recorded as published. -/
lemma Recorded.published (h : Recorded p e es s t status) (hs : system.Reachable s)
    (hp : (s.process p).phase=.completing e es) : status=.published := by
  obtain ⟨⟨a,hrecords,ha⟩,hreturned,r,hr,hid,rfl⟩ := h
  cases hrecords with
  | complete =>
    cases transition_of_step ha with
    | completeFails =>
      simp only [State.setPhase,State.setProcess,Function.update_self] at hreturned
      cases es <;> cases hreturned
    | completed hp' hc =>
      obtain ⟨rfl,rfl⟩ := Phase.completing.inj (hp.symm.trans hp')
      exact completeOutboxEvent_status (owned_reachable hs).unique hc hr hid
  | report =>
    cases transition_of_step ha with
    | reportFails hp' => rw [hp] at hp'; cases hp'
    | reported hp' => rw [hp] at hp'; cases hp'

/-- In the failure handler it is recorded as failed. -/
lemma Recorded.failed (h : Recorded p e es s t status) (hs : system.Reachable s)
    (hp : (s.process p).phase=.failing e es) : status=.failed := by
  obtain ⟨⟨a,hrecords,ha⟩,hreturned,r,hr,hid,rfl⟩ := h
  cases hrecords with
  | complete =>
    cases transition_of_step ha with
    | completeFails hp' => rw [hp] at hp'; cases hp'
    | completed hp' => rw [hp] at hp'; cases hp'
  | report =>
    cases transition_of_step ha with
    | reportFails =>
      simp only [State.stop,State.setProcess,Function.update_self] at hreturned
      cases es <;> cases hreturned
    | reported hp' hc =>
      obtain ⟨rfl,rfl⟩ := Phase.failing.inj (hp.symm.trans hp')
      exact completeOutboxEvent_status (owned_reachable hs).unique hc hr hid

variable {fate : Fate} {queue : List KafkaMessage}

/-- The status of an attempt tells whether its flush left the queue empty. -/
lemma Attempt.status_iff (h : Attempt p e fate queue status) :
    (status=.published ∨ status=.failed) ∧
      (status=.published ↔ fate≠.unsent ∧ queue=[]) ∧ (∀ i, fate=.queued i → queue≠[]) := by
  cases h with
  | unsent hs hp ha ht stays recorded =>
    have ha : system.step _ (.produce p _)=some _ := ha
    have hu := stays.reachable (.next hs trivial ha)
    rw [recorded.failed hu (stays.phase.trans ht)]
    simp
  | @flushed es s t u v fate status sent ha stays recorded =>
    obtain ⟨hp,htracks⟩ := sent.tracks
    have hreach := sent.reachable
    have hqueued : ∀ i, fate=.queued i → (s.process p).queue≠[] := by
      intro i hi hempty
      obtain ⟨m,-,hm⟩ := htracks.queued i hi
      rw [hempty] at hm
      cases hm
    have hstep : system.step s (.flush p false)=some t := ha
    have hu := stays.reachable (.next hreach trivial hstep)
    by_cases hempty : (s.process p).queue=[]
    · have ht : (t.process p).phase=.completing e es := by
        simp only [step,hp,hempty,and_self,if_true,Option.some.injEq] at ha
        simp [← ha,State.setPhase,State.setProcess]
      rw [recorded.published hu (stays.phase.trans ht)]
      exact ⟨.inl rfl,by simp [htracks.sent,hempty],hqueued⟩
    · have ht : (t.process p).phase=.failing e es := by
        simp only [step,hp,hempty,and_false,if_false,Option.some.injEq] at ha
        simp [← ha,State.setPhase,State.setProcess]
      rw [recorded.failed hu (stays.phase.trans ht)]
      exact ⟨.inr rfl,by simp [hempty],hqueued⟩

/-- An attempt is isolated exactly when its status tells the fate of its message. -/
lemma Attempt.isolated_iff (h : Attempt p e fate queue status) :
    fate.Isolated queue ↔ (status=.published ↔ fate=.accepted) := by
  obtain ⟨-,hpublished,hqueued⟩ := h.status_iff
  rw [hpublished]
  cases fate with
  | unsent => simp [Fate.Isolated]
  | queued i => simpa [Fate.Isolated] using hqueued i rfl
  | accepted => simp [Fate.Isolated]
  | dropped => simp [Fate.Isolated]

end

/-- The states of an attempt that follows a run: after it, with the message produced, accepted, the
flush over, and the status recorded. -/
def acceptedStates (before : List Action) (j : ℕ) (record : Action) :
    Option (State × State × State × State × State) :=
  (system.run twoRows before).bind fun s =>
    (step s (.produce 0 false)).bind fun t =>
      (step t (.accept 0 j)).bind fun u =>
        (step u (.flush 0 false)).bind fun v =>
          (step v record).bind fun w => some (s,t,u,v,w)

/-- The message was the last of the queue, its event the last of the batch, and its row has this
status. -/
def AcceptedLast (j : ℕ) (e : OutboxRow) (status : OutboxStatus) :
    State × State × State × State × State → Bool
  | (s,t,_,_,w) =>
    (match (t.process 0).phase with | .flushing _ _ => true | _ => false) &&
      (match (w.process 0).phase with | .idle => true | _ => false) &&
      decide ((s.process 0).queue.length=j) && decide ((s.process 0).phase.held=[e]) &&
      w.outbox.any (fun r => r.id=e.id ∧ r.status=status)

/-- Such a run holds an attempt with an accepted message. -/
lemma attempt_of_states (before : List Action) (j : ℕ) {record : Action} {e : OutboxRow}
    {status : OutboxStatus} (hrecord : record.Records 0)
    (h : (acceptedStates before j record).any (AcceptedLast j e status)=true) :
    ∃ queue, Attempt 0 e .accepted queue status := by
  obtain ⟨⟨s,t,u,v,w⟩,hrun,hcheck⟩ := (Option.any_eq_true _ _).mp h
  obtain ⟨s',hs,hrun⟩ := Option.bind_eq_some_iff.mp hrun
  obtain ⟨t',ht,hrun⟩ := Option.bind_eq_some_iff.mp hrun
  obtain ⟨u',hu,hrun⟩ := Option.bind_eq_some_iff.mp hrun
  obtain ⟨v',hv,hrun⟩ := Option.bind_eq_some_iff.mp hrun
  obtain ⟨w',hw,hrun⟩ := Option.bind_eq_some_iff.mp hrun
  cases hrun
  simp only [AcceptedLast,Bool.and_eq_true,decide_eq_true_eq,List.any_eq_true] at hcheck
  obtain ⟨⟨⟨⟨hflushing,hidle⟩,hlength⟩,hheld⟩,r,hr,hid,hstatus⟩ := hcheck
  have hreach : system.Reachable s := System.reachable_of_run _ twoRows_initial hs
  cases transition_of_step ht with
  | produceFails => simp [State.setPhase,State.setProcess] at hflushing
  | @produced p e' es m hp hm =>
    rw [hp] at hheld
    cases hheld
    have hsent := Sent.produced hreach hp ht (by simp [State.setProcess])
    have hlater : Sent 0 e [] u .accepted := by
      have huphase : (u.process 0).phase=.flushing e [] := by
        cases transition_of_step hu
        simp [State.setProcess]
      have hafter := hsent.later hu huphase
      rwa [Fate.after,if_pos rfl,Fate.removed,if_pos hlength.symm] at hafter
    have hloop : (w.process 0).phase=.loop [] := by
      cases hw' : (w.process 0).phase with
      | idle => rfl
      | _ => rw [hw'] at hidle; cases hidle
    exact ⟨_,.flushed hlater hv .refl ⟨⟨record,hrecord,hw⟩,hloop,r,hr,hid,hstatus⟩⟩

/-- Two attempts whose messages meet the same fate are recorded with the same status exactly when
what else is in the queue disturbs both of them or neither. -/
theorem same_fate_same_status_iff {p q : ℕ} {e f : OutboxRow} {fate fate' : Fate}
    {queue queue' : List KafkaMessage} {status status' : OutboxStatus}
    (h : Attempt p e fate queue status) (h' : Attempt q f fate' queue' status')
    (hsame : fate=.accepted ↔ fate'=.accepted) :
    status=status' ↔ (fate.Isolated queue ↔ fate'.Isolated queue') := by
  rw [h.isolated_iff,h'.isolated_iff,hsame]
  obtain ⟨hstatus,-⟩ := h.status_iff
  obtain ⟨hstatus',-⟩ := h'.status_iff
  by_cases hacc : fate'=.accepted <;>
    obtain rfl | rfl := hstatus <;> obtain rfl | rfl := hstatus' <;> simp [hacc]

/-- A process claims two rows and delivers the first, or gives it up after the time limit. -/
def firstDelivered : List Action :=
  [.start 0 [] 2,.claim 0 1 [] [(plainRow 1).claimedBy [] 1,(plainRow 2).claimedBy [] 1] .none,
    .produce 0 false,.accept 0 0,.flush 0 false,.complete 0 2 .none]

def firstLeft : List Action :=
  [.start 0 [] 2,.claim 0 1 [] [(plainRow 1).claimedBy [] 1,(plainRow 2).claimedBy [] 1] .none,
    .produce 0 false,.flush 0 false,.report 0 2 2 [] .none]

lemma second_published :
    ∃ queue, Attempt 0 ((plainRow 2).claimedBy [] 1) .accepted queue .published :=
  attempt_of_states firstDelivered 0 (show Action.Records 0 (.complete 0 3 .none) from .complete)
    (by decide +kernel)

lemma second_failed : ∃ queue, Attempt 0 ((plainRow 2).claimedBy [] 1) .accepted queue .failed :=
  attempt_of_states firstLeft 1 (show Action.Records 0 (.report 0 3 3 [] .none) from .report)
    (by decide +kernel)

/-- The two attempts of the second row differ in what the first one left. -/
theorem second_row_disturbed : ∃ queue queue',
    Attempt 0 ((plainRow 2).claimedBy [] 1) .accepted queue .published ∧
    Attempt 0 ((plainRow 2).claimedBy [] 1) .accepted queue' .failed ∧
    ¬(Fate.accepted.Isolated queue ↔ Fate.accepted.Isolated queue') := by
  obtain ⟨queue,h⟩ := second_published
  obtain ⟨queue',h'⟩ := second_failed
  refine ⟨queue,queue',h,h',?_⟩
  rw [← same_fate_same_status_iff h h' Iff.rfl]
  simp

/-- A message left over from another event makes an accepted one look failed. -/
theorem leftover_fails_accepted : ¬∀ (p q : ℕ) (e : OutboxRow) (fate fate' : Fate)
    (queue queue' : List KafkaMessage) (status status' : OutboxStatus),
    Attempt p e fate queue status → Attempt q e fate' queue' status' →
      (fate=.accepted ↔ fate'=.accepted) → status=status' := by
  intro hall
  obtain ⟨queue,h⟩ := second_published
  obtain ⟨queue',h'⟩ := second_failed
  cases hall _ _ _ _ _ _ _ _ _ h h' Iff.rfl

end RagIngestion.Publisher
