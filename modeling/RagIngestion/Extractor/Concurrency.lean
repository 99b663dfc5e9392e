import RagIngestion.Extractor.Commits

/-! How many tasks the extractor has in flight. The loop holds the bound by pausing the partitions
it is assigned, while rebalances change the assignment under it. -/
namespace RagIngestion.Extractor.Concurrency
open RagIngestion.Python RagIngestion.Domain RagIngestion.Database RagIngestion.Storage
open RagIngestion.Library MainLoop

section
variable (maxConcurrency : ℕ)

/-- No partition is assigned in a poll that begins with all tasks in flight. -/
def NotAssignedAtFull (s : State) : MainLoop.Action → Prop
  | .assign _ => s.inflight.length < maxConcurrency
  | .pollRebalanced _ _ _ => s.inflight.length < maxConcurrency
  | _ => True

instance (s : State) (a : MainLoop.Action) : Decidable (NotAssignedAtFull maxConcurrency s a) := by
  unfold NotAssignedAtFull
  split <;> infer_instance

/-- The bound holds, and the consumer is paused where it is reached. -/
structure Bounded (s : State) : Prop where
  bound : s.inflight.length ≤ maxConcurrency
  full : maxConcurrency ≤ s.inflight.length → ∀ p c, s.cursor p=some c → c.paused=true

/-- Without the flag nothing is paused. -/
def Flagged (s : State) : Prop := s.paused=false → ∀ p c, s.cursor p=some c → c.paused=false

variable {maxConcurrency} {rt : Runtime} {sourceBucket artifactBucket : BucketName} {maxBytes : ℕ}
  {s t : State} {a : MainLoop.Action}

lemma setCursor_cases {q p : ℕ} {o : Option Cursor} {c : Cursor}
    (h : (s.setCursor q o).cursor p=some c) : (p=q ∧ o=some c) ∨ s.cursor p=some c := by
  by_cases hp : p=q
  · subst hp
    exact .inl ⟨rfl,by simpa [State.setCursor] using h⟩
  · exact .inr (by simpa [State.setCursor,Function.update_of_ne hp] using h)

/-- A partition that yields a message is not paused, so there is room for its task. -/
lemma Bounded.room (hs : Bounded maxConcurrency s) {p position : ℕ}
    (hc : s.cursor p=some ⟨position,false⟩) : s.inflight.length < maxConcurrency := by
  by_contra hfull
  have hpaused := hs.full (not_lt.mp hfull) p _ hc
  cases hpaused

lemma Bounded.of_room (h : s.inflight.length < maxConcurrency) : Bounded maxConcurrency s :=
  ⟨h.le,fun hfull => absurd hfull (not_le.mpr h)⟩

/-- Steps that add no task and assign no partition. -/
lemma Bounded.fewer (hs : Bounded maxConcurrency s) (hlength : t.inflight.length ≤ s.inflight.length)
    (hcursor : ∀ p c, t.cursor p=some c → s.cursor p=some c) : Bounded maxConcurrency t :=
  ⟨hlength.trans hs.bound,fun hfull p c hc => hs.full (hfull.trans hlength) p c (hcursor p c hc)⟩

lemma Bounded.stopped (hpos : 1 ≤ maxConcurrency) : Bounded maxConcurrency s.stop :=
  Bounded.of_room hpos

/-- What is assigned after a message from an unpaused partition is unpaused or as before. -/
lemma polled_cursor {p position : ℕ} {payload : DocumentFetched} {assigned kept : List ℕ} {q : ℕ}
    {c : Cursor} (h : (((s.setCursor p (some ⟨position+1,false⟩)).spawn p position payload).rebalance
      assigned kept).cursor q=some c) : q ∈ assigned ∧ (c.paused=false ∨ s.cursor q=some c) := by
  obtain ⟨hassigned,rfl | hkept⟩ := rebalance_cursor h
  · exact ⟨hassigned,.inl rfl⟩
  · cases setCursor_cases hkept with
    | inl h => cases h.2; exact ⟨hassigned,.inl rfl⟩
    | inr h => exact ⟨hassigned,.inr h⟩

theorem bounded_step (hpos : 1 ≤ maxConcurrency) (hs : Bounded maxConcurrency s)
    (ok : NotAssignedAtFull maxConcurrency s a)
    (h : MainLoop.Transition rt sourceBucket artifactBucket maxBytes maxConcurrency s a t) :
    Bounded maxConcurrency t := by
  cases h with
  | kill => exact Bounded.stopped hpos
  | close => exact Bounded.stopped hpos
  | task => exact hs.fewer (by simp [updateWhere]) (fun _ _ h => h)
  | reap => exact hs.fewer (List.length_filter_le _ _) (fun _ _ h => h)
  | reapFails => exact hs.fewer (List.length_filter_le _ _) (fun _ _ h => h)
  | resume h hp => exact Bounded.of_room hp.2
  | assign => exact Bounded.of_room ok
  | revoke =>
    refine hs.fewer le_rfl (fun p c hc => ?_)
    cases setCursor_cases hc with
    | inl h => cases h.2
    | inr h => exact h
  | poll h hc hm hn =>
    apply Bounded.of_room
    simpa [State.spawn,State.setCursor] using hn
  | pollLast h hc hm hn =>
    have hroom := hs.room hc
    refine ⟨?_,fun _ _ _ hpaused => setPaused_cursor hpaused⟩
    simpa [State.spawn,State.setCursor,State.setPaused] using hroom
  | pollRebalanced h hc hm hn =>
    cases hn with
    | inl hn =>
      apply Bounded.of_room
      simpa [State.spawn,State.setCursor,State.rebalance] using hn
    | inr hnone =>
      have hroom := hs.room hc
      refine ⟨?_,fun _ q c hq => ?_⟩
      · simpa [State.spawn,State.setCursor,State.rebalance] using hroom
      · have hassigned := (polled_cursor hq).1
        rw [hnone] at hassigned
        cases hassigned
  | pollRebalancedLast h hc hm =>
    have hroom := hs.room hc
    refine ⟨?_,fun _ _ _ hpaused => setPaused_cursor hpaused⟩
    simpa [State.spawn,State.setCursor,State.rebalance,State.setPaused] using hroom
  | _ => exact hs.fewer le_rfl (fun _ _ h => h)

theorem flagged_step (hs : Flagged s)
    (h : MainLoop.Transition rt sourceBucket artifactBucket maxBytes maxConcurrency s a t) :
    Flagged t := by
  cases h with
  | kill => intro _ p c hc; cases hc
  | close => intro _ p c hc; cases hc
  | resume => exact fun _ _ _ hc => setPaused_cursor hc
  | assign =>
    intro hflag p c hc
    cases setCursor_cases hc with
    | inl h => cases h.2; rfl
    | inr h => exact hs hflag p c h
  | revoke =>
    intro hflag p c hc
    cases setCursor_cases hc with
    | inl h => cases h.2
    | inr h => exact hs hflag p c h
  | poll =>
    intro hflag p c hc
    cases setCursor_cases hc with
    | inl h => cases h.2; rfl
    | inr h => exact hs hflag p c h
  | pollLast => intro hflag; cases hflag
  | pollRebalanced =>
    intro hflag p c hc
    cases (polled_cursor hc).2 with
    | inl hfresh => exact hfresh
    | inr hold => exact hs hflag p c hold
  | pollRebalancedLast => intro hflag; cases hflag
  | _ => exact hs

theorem flagged_reach
    (h : (MainLoop.system rt sourceBucket artifactBucket maxBytes maxConcurrency).Reachable s) :
    Flagged s := by
  refine h.invariant ?_ ?_
  · intro s hs _ p c hc
    rw [hs.cursor] at hc
    cases hc
  · intro s a t hs ha
    exact flagged_step hs (MainLoop.transition_of_step _ _ _ _ _ ha)

/-- After the completion step, room for a task means that nothing is paused. -/
theorem resumed_unpaused (hs : Flagged s)
    (h : MainLoop.step rt sourceBucket artifactBucket maxBytes maxConcurrency s .resume=some t)
    (hroom : t.inflight.length < maxConcurrency) {p : ℕ} {c : Cursor} (hc : t.cursor p=some c) :
    c.paused=false := by
  cases MainLoop.transition_of_step _ _ _ _ _ h with
  | resume => exact setPaused_cursor hc
  | resumeNothing hphase hp =>
    refine hs ?_ p c hc
    cases hflag : s.paused with
    | false => rfl
    | true => exact absurd ⟨hflag,hroom⟩ hp

/-- A partition assigned while every task is in flight yields one message more. -/
theorem assigned_at_full_exceeds {p : ℕ} {payload : DocumentFetched} (hphase : s.phase=.polling)
    (hc : s.cursor p=none) (hm : (s.log p)[s.committed p]?=some (some payload))
    (hfull : maxConcurrency ≤ s.inflight.length) : ∃ t u,
      MainLoop.step rt sourceBucket artifactBucket maxBytes maxConcurrency s (.assign p)=some t ∧
      MainLoop.step rt sourceBucket artifactBucket maxBytes maxConcurrency t (.poll p)=some u ∧
      maxConcurrency < u.inflight.length := by
  have hassign : MainLoop.step rt sourceBucket artifactBucket maxBytes maxConcurrency s (.assign p)=
      some (s.setCursor p (some ⟨s.committed p,false⟩)) := by
    simp only [MainLoop.step,hphase,hc]
  let t := s.setCursor p (some ⟨s.committed p,false⟩)
  let u := { (t.setCursor p (some ⟨s.committed p+1,false⟩)).spawn p (s.committed p) payload with
    phase := Phase.collecting }
  have hmore : maxConcurrency < u.inflight.length := by
    simp only [u,t,State.spawn,State.setCursor,List.length_append,List.length_singleton]
    omega
  have hpoll : MainLoop.step rt sourceBucket artifactBucket maxBytes maxConcurrency t (.poll p)=
      some (u.setPaused true) := by
    have hphase' : t.phase=.polling := hphase
    have hc' : t.cursor p=some ⟨s.committed p,false⟩ := Function.update_self _ _ _
    have hm' : (t.log p)[s.committed p]?=some (some payload) := hm
    simp only [MainLoop.step,hphase',hc',hm']
    exact if_pos hmore.le
  exact ⟨t,u.setPaused true,hassign,hpoll,hmore⟩

/-- The bound holds in runs in which no partition is assigned while it is reached, and in every run
a completion step that leaves room leaves nothing paused. -/
theorem concurrency_bounded (hpos : 1 ≤ maxConcurrency) :
    (∀ s, (MainLoop.system rt sourceBucket artifactBucket maxBytes maxConcurrency).Reach
        (NotAssignedAtFull maxConcurrency) s → s.inflight.length ≤ maxConcurrency) ∧
      ∀ s t, (MainLoop.system rt sourceBucket artifactBucket maxBytes maxConcurrency).Reachable s →
        MainLoop.step rt sourceBucket artifactBucket maxBytes maxConcurrency s .resume=some t →
          t.inflight.length < maxConcurrency → ∀ p c, t.cursor p=some c → c.paused=false := by
  refine ⟨fun s hs => ?_,fun s t hs h hroom p c hc => resumed_unpaused (flagged_reach hs) h hroom hc⟩
  refine (hs.invariant (fun s hs => ?_)
    (fun _ _ _ hs ok ha => bounded_step hpos hs ok (MainLoop.transition_of_step _ _ _ _ _ ha))).bound
  refine ⟨?_,fun _ p c hc => ?_⟩
  · rw [hs.inflight]
    exact Nat.zero_le _
  · rw [hs.cursor] at hc
    cases hc

/-- With one slot and no rebalance, the second message waits. -/
theorem one_task_in_flight : ∃ s : State,
    (MainLoop.system plainRuntime minioSourceBucket minioArtifactBucket 1048576 1).Reach
      (NotAssignedAtFull 1) s ∧
      s.inflight.length=1 ∧ s.inflight.length ≤ 1 := by
  have hrun : ((MainLoop.system plainRuntime minioSourceBucket minioArtifactBucket 1048576 1).runIf
      (NotAssignedAtFull 1) twoMessages
      [.start,.collect,.resume,.assign 0,.poll 0,.collect,.resume]).any
        (fun s => s.inflight.length=1)=true := by decide +kernel
  obtain ⟨s,hrun,hone⟩ := (Option.any_eq_true _ _).mp hrun
  have hreach := System.Reach.runIf (.start twoMessages_initial) hrun
  exact ⟨s,hreach,of_decide_eq_true hone,(concurrency_bounded (by decide)).1 s hreach⟩

/-- With one slot and a rebalance while its task is in flight, a second task starts. -/
theorem rebalance_exceeds : ∃ s,
    (MainLoop.system plainRuntime minioSourceBucket minioArtifactBucket 1048576 1).Reachable s ∧
      1<s.inflight.length := by
  have hrun : ((MainLoop.system plainRuntime minioSourceBucket minioArtifactBucket 1048576 1).run
      twoMessages [.start,.collect,.resume,.assign 0,.poll 0,.collect,.resume,.revoke 0,.assign 0,
        .poll 0]).any (fun s => decide (1<s.inflight.length))=true := by decide +kernel
  obtain ⟨s,hrun,htwo⟩ := (Option.any_eq_true _ _).mp hrun
  exact ⟨s,System.reachable_of_run _ twoMessages_initial hrun,of_decide_eq_true htwo⟩

end
end RagIngestion.Extractor.Concurrency
