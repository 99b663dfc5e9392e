import RagIngestion.Kafka.Bootstrap
import RagIngestion.Library.Progress

/-! A bootstrap that was started comes to an end: until then its next step can be taken, and there
are only so many of them, whatever other calls do. -/
namespace RagIngestion.Kafka
open RagIngestion.Python RagIngestion.Domain RagIngestion.Library

/-- The steps of an attempt: a listing, a request, an answer for each declared topic and the end of
the loop over them. -/
def attemptSteps : ℕ := pipelineTopicSpecs.length+3

/-- How many steps a place in the code is away from the end, apart from the answers outstanding. -/
def Call.stages (x : Call) : ℕ :=
  match x.phase with
  | .listing attempt => (x.attempts-attempt).toNat*attemptSteps+attemptSteps
  | .creating attempt missing => (x.attempts-attempt).toNat*attemptSteps+missing.length+2
  | .awaiting => 1
  | _ => 0

/-- The answers outstanding. -/
def unanswered (futures : List (TopicSpec × Option Answer)) : ℕ :=
  futures.countP (fun f => f.2.isNone)

/-- A bound on the steps that a started call can still make. -/
def Call.remaining (x : Call) : ℕ := x.stages+unanswered x.futures

lemma unanswered_set {futures : List (TopicSpec × Option Answer)} {i : ℕ} {spec : TopicSpec}
    (h : futures[i]?=some (spec,none)) (answer : Answer) :
    unanswered (futures.set i (spec,some answer))<unanswered futures := by
  induction futures generalizing i with
  | nil => cases h
  | cons f futures ih =>
    cases i with
    | zero =>
      cases h
      simp [unanswered]
    | succ i =>
      have hrest := ih (i := i) h
      simp only [unanswered,List.set_cons_succ,List.countP_cons] at hrest ⊢
      omega

lemma unanswered_new (missing : List TopicSpec) :
    unanswered (missing.map (fun spec => (spec,(none : Option Answer))))=missing.length := by
  simp [unanswered,List.countP_map,Function.comp_def]

/-- Where the loop over the futures waits, an answer is outstanding. -/
lemma unanswered_of_waits {futures : List (TopicSpec × Option Answer)}
    (h : awaitFutures futures=none) : ∃ (i : ℕ) (spec : TopicSpec), futures[i]?=some (spec,none) := by
  fun_induction awaitFutures futures with
  | case1 => cases h
  | case2 spec futures => exact ⟨0,spec,rfl⟩
  | case3 => cases h
  | case4 f futures _ _ ih =>
    obtain ⟨i,spec,hi⟩ := ih h
    exact ⟨i+1,spec,hi⟩

lemma length_missingTopics (topics : PyStr → Option TopicSettings) :
    (missingTopics topics).length ≤ pipelineTopicSpecs.length := List.length_filter_le _ _

/-- An attempt that fails leaves the attempts after it. -/
lemma Call.stages_retry (x : Call) (attempt : ℕ) :
    Call.stages { x with phase := x.retry attempt } ≤ (x.attempts-attempt).toNat*attemptSteps := by
  unfold Call.retry
  split
  · exact Nat.zero_le _
  · unfold Call.loop
    split
    · rename_i hmore
      have hnext : (x.attempts-attempt).toNat=(x.attempts-(attempt+1 : ℕ)).toNat+1 := by omega
      rw [hnext,Nat.succ_mul]
      exact le_refl _
    · exact Nat.zero_le _

section
variable {s t : State} {a : Action} {b : ℕ}

/-- A step that changes the place in the code only. -/
lemma remaining_setPhase {phase : Phase}
    (h : Call.stages { s.call b with phase := phase }<(s.call b).stages) :
    ((s.setPhase b phase).call b).remaining<(s.call b).remaining := by
  rw [State.setPhase,State.setCall_call]
  exact Nat.add_lt_add_right h _

/-- Every step of a started call brings it closer to its end. -/
theorem remaining_step (h : step s a=some t) (ha : a.call?=some b)
    (hstarted : (s.call b).phase≠.waiting) : (t.call b).remaining<(s.call b).remaining := by
  have hpos : 0<attemptSteps := Nat.succ_pos _
  cases transition_of_step h with
  | other => cases ha
  | start hp => cases Option.some.inj ha; exact absurd hp hstarted
  | @listFails _ attempt hp =>
    cases Option.some.inj ha
    apply remaining_setPhase
    refine lt_of_le_of_lt ((s.call b).stages_retry attempt) ?_
    simp only [Call.stages,hp]
    omega
  | @listed _ attempt hp =>
    cases Option.some.inj ha
    apply remaining_setPhase
    have hmissing := length_missingTopics s.topics
    simp only [Call.stages,hp,attemptSteps]
    omega
  | createNone hp =>
    cases Option.some.inj ha
    apply remaining_setPhase
    simp only [Call.stages,hp]
    omega
  | @createFails _ attempt missing hp =>
    cases Option.some.inj ha
    apply remaining_setPhase
    refine lt_of_le_of_lt ((s.call b).stages_retry attempt) ?_
    simp only [Call.stages,hp]
    omega
  | @create _ attempt missing hp =>
    cases Option.some.inj ha
    rw [State.setCall_call]
    simp only [Call.remaining,Call.stages,hp,unanswered_new]
    omega
  | refused hi =>
    cases Option.some.inj ha
    rw [State.setCall_call]
    exact Nat.add_lt_add_left (unanswered_set hi _) _
  | alreadyExists hi =>
    cases Option.some.inj ha
    rw [State.setCall_call]
    exact Nat.add_lt_add_left (unanswered_set hi _) _
  | created hi =>
    cases Option.some.inj ha
    rw [State.setCall_call]
    exact Nat.add_lt_add_left (unanswered_set hi _) _
  | returned hp =>
    cases Option.some.inj ha
    apply remaining_setPhase
    simp only [Call.stages,hp]
    omega
  | awaitFails hp =>
    cases Option.some.inj ha
    apply remaining_setPhase
    simp only [Call.stages,hp]
    omega

lemma Call.loop_started (x : Call) (attempt : ℕ) : x.loop attempt≠.waiting := by
  unfold Call.loop
  split
  · simp
  · simp

lemma Call.retry_started (x : Call) (attempt : ℕ) : x.retry attempt≠.waiting := by
  unfold Call.retry
  split
  · simp
  · exact x.loop_started _

lemma started_step (h : step s a=some t) (hstarted : (s.call b).phase≠.waiting) :
    (t.call b).phase≠.waiting := by
  by_cases ha : a.call?=some b
  · cases transition_of_step h with
    | other => cases ha
    | start hp => cases Option.some.inj ha; exact absurd hp hstarted
    | listFails =>
      cases Option.some.inj ha
      rw [State.setPhase,State.setCall_call]
      exact Call.retry_started _ _
    | createFails =>
      cases Option.some.inj ha
      rw [State.setPhase,State.setCall_call]
      exact Call.retry_started _ _
    | refused => cases Option.some.inj ha; rw [State.setCall_call]; exact hstarted
    | alreadyExists => cases Option.some.inj ha; rw [State.setCall_call]; exact hstarted
    | created => cases Option.some.inj ha; rw [State.setCall_call]; exact hstarted
    | _ => cases Option.some.inj ha; simp [State.setPhase]
  · rw [call_other h ha]
    exact hstarted

/-- A call that was started and has not ended can make its next step, without a failure. -/
theorem next_step (hstarted : (s.call b).phase≠.waiting) (hends : ¬(s.call b).phase.Ended) :
    ∃ a t, a.call?=some b ∧ Transient s a ∧ step s a=some t := by
  cases hp : (s.call b).phase with
  | waiting => exact absurd hp hstarted
  | returned => rw [hp] at hends; exact absurd trivial hends
  | raised => rw [hp] at hends; exact absurd trivial hends
  | listing attempt =>
    have hstep : step s (.list b false)=
        some (s.setPhase b (.creating attempt (missingTopics s.topics))) := by
      simp only [step,hp]
      rfl
    have hok : Transient s (.list b false) := fun h => (by cases h)
    exact ⟨_,_,rfl,hok,hstep⟩
  | creating attempt missing =>
    refine ⟨.create b false,?_⟩
    by_cases hm : missing=[]
    · exact ⟨_,rfl,rfl,by simp only [step,hp]; exact if_pos hm⟩
    · exact ⟨_,rfl,rfl,by simp only [step,hp]; exact if_neg hm⟩
  | awaiting =>
    cases hf : awaitFutures (s.call b).futures with
    | none =>
      obtain ⟨i,spec,hi⟩ := unanswered_of_waits hf
      refine ⟨.answer b i false,?_⟩
      cases ht : s.topics spec.name with
      | none => exact ⟨_,rfl,rfl,by simp only [step,hi,ht]; rfl⟩
      | some => exact ⟨_,rfl,rfl,by simp only [step,hi,ht]; rfl⟩
    | some r =>
      refine ⟨.await b,?_⟩
      cases r with
      | ok => exact ⟨_,rfl,trivial,by simp only [step,hp,hf]; rfl⟩
      | error => exact ⟨_,rfl,trivial,by simp only [step,hp,hf]; rfl⟩

/-- The steps of one call, at which nothing fails for good. -/
def OwnStep (b : ℕ) (s : State) (a : Action) : Prop := a.call?=some b ∧ Transient s a

/-- Whatever has happened so far, a started call can be brought to its end by its own steps. -/
theorem call_ends (hstarted : (s.call b).phase≠.waiting) :
    ∃ t, system.Leads (OwnStep b) s t ∧ (t.call b).phase.Ended := by
  have hgo : ∀ s : State, (s.call b).phase≠.waiting → ¬(s.call b).phase.Ended →
      ∃ t, system.Leads (OwnStep b) s t ∧ (t.call b).phase≠.waiting ∧
        (t.call b).remaining<(s.call b).remaining := by
    intro s hstarted hends
    obtain ⟨a,t,ha,hok,hstep⟩ := next_step hstarted hends
    have hmove : system.Leads (OwnStep b) s t := .step (a := a) ⟨ha,hok⟩ hstep .refl
    exact ⟨t,hmove,started_step hstep hstarted,remaining_step hstep ha hstarted⟩
  obtain ⟨t,hleads,-,hends⟩ := System.leads_to (fun s : State => (s.call b).remaining) hgo hstarted
  exact ⟨t,hleads,hends⟩

/-- No run has more steps of a started call than its bound, whatever is interleaved with them. -/
theorem own_steps_bounded {as : List Action} (hstarted : (s.call b).phase≠.waiting)
    (hrun : system.run s as=some t) :
    as.countP (fun a => a.call?=some b)+(t.call b).remaining ≤ (s.call b).remaining := by
  refine System.run_countP (I := fun s => (s.call b).phase≠.waiting) (fun s => (s.call b).remaining)
    _ ?_ hstarted hrun
  intro s a t hstarted hstep
  refine ⟨started_step hstep hstarted,?_⟩
  by_cases ha : a.call?=some b
  · have hless := remaining_step hstep ha hstarted
    simp only [ha,decide_true,if_true]
    omega
  · rw [call_other hstep ha]
    simp [ha]

end
end RagIngestion.Kafka
