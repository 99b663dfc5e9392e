import RagIngestion.Publisher.Ownership

/-! From the producer's queue to the broker: when a published row was really delivered. -/
namespace RagIngestion.Publisher
open RagIngestion.Python RagIngestion.Domain RagIngestion.Database RagIngestion.Library

/-- Some message of the list carries the row's payload. -/
def Carried (messages : List KafkaMessage) (r : OutboxRow) : Prop :=
  ∃ m ∈ messages, m.record=r.event.payload

instance (messages : List KafkaMessage) (r : OutboxRow) : Decidable (Carried messages r) :=
  inferInstanceAs (Decidable (∃ m ∈ messages, m.record=r.event.payload))

/-- Every published row's payload was accepted by the broker. -/
def Delivered (s : State) : Prop :=
  ∀ r ∈ s.outbox, r.status=.published → Carried s.broker r

/-- What a call may rely on at its place in the code. -/
def Phase.Sent (broker queue : List KafkaMessage) : Phase → Prop
  | .flushing e _ => Carried (broker ++ queue) e
  | .completing e _ => Carried broker e
  | _ => True

/-- While a call flushes, its message may only be lost if another copy of it is not. -/
def Phase.SpareCopy (broker queue : List KafkaMessage) : Phase → Prop
  | .flushing e _ => Carried (broker ++ queue) e
  | _ => True

instance (broker queue : List KafkaMessage) : ∀ x : Phase, Decidable (x.SpareCopy broker queue)
  | .flushing e _ => inferInstanceAs (Decidable (Carried (broker ++ queue) e))
  | .stopped | .idle | .publishing .. | .completing .. | .failing .. => inferInstanceAs (Decidable True)

def Reliable (s : State) : Action → Prop
  | .drop p i => (s.process p).phase.SpareCopy s.broker ((s.process p).queue.eraseIdx i)
  | _ => True

instance (s : State) : ∀ a, Decidable (Reliable s a)
  | .drop p i => inferInstanceAs (Decidable
      ((s.process p).phase.SpareCopy s.broker ((s.process p).queue.eraseIdx i)))
  | .insert .. | .start .. | .kill .. | .claim .. | .produce .. | .accept .. | .flush ..
  | .complete .. | .report .. => inferInstanceAs (Decidable True)

structure Sending (s : State) : Prop where
  delivered : Delivered s
  sent : ∀ p, (s.process p).phase.Sent s.broker (s.process p).queue

theorem Carried.mono {xs ys : List KafkaMessage} (h : ∀ m ∈ xs, m ∈ ys) {r : OutboxRow}
    (hc : Carried xs r) : Carried ys r := by
  obtain ⟨m,hm,hr⟩ := hc
  exact ⟨m,h m hm,hr⟩

theorem Phase.Sent.mono {xs ys q r : List KafkaMessage} (hb : ∀ m ∈ xs, m ∈ ys)
    (hq : ∀ m ∈ q, m ∈ ys ++ r) {x : Phase} (h : x.Sent xs q) : x.Sent ys r := by
  cases x with
  | flushing e es =>
    refine Carried.mono ?_ h
    intro m hm
    cases List.mem_append.mp hm with
    | inl hm => exact List.mem_append_left _ (hb m hm)
    | inr hm => exact hq m hm
  | completing e es => exact Carried.mono hb h
  | _ => trivial

theorem sending_initial {s : State} (h : Initial s) : Sending s := by
  refine ⟨?_,?_⟩
  · intro r hr hs
    rw [h.2.1 r hr] at hs
    cases hs
  · intro p
    rw [(h.2.2 p).1]
    trivial

/-- One process is replaced, over the same table and broker. -/
theorem Sending.setProcess {s : State} (h : Sending s) {p : ℕ} {x : Process}
    (hx : x.phase.Sent s.broker x.queue) : Sending (s.setProcess p x) := by
  refine ⟨h.delivered,?_⟩
  intro q
  by_cases hq : q=p
  · subst hq
    simpa [State.setProcess] using hx
  · simpa [State.setProcess,hq] using h.sent q

/-- A statement that publishes no row. -/
theorem Sending.setOutbox {s : State} (h : Sending s) {rows : List OutboxRow}
    (hrows : ∀ r ∈ rows, r.status=.published → Carried s.broker r) :
    Sending { s with outbox := rows } := ⟨hrows,h.sent⟩

theorem Sending.insert {s : State} (h : Sending s) (id : UUID) (event : OutboxEvent) (now : Time) :
    Sending { s with outbox := s.outbox ++ [.inserted id event now] } := by
  refine h.setOutbox ?_
  intro r hr hs
  cases List.mem_append.mp hr with
  | inl hr => exact h.delivered r hr hs
  | inr hr =>
    rw [List.mem_singleton.mp hr] at hs
    cases hs

theorem Sending.claim {s : State} (h : Sending s) {w : PyStr} {n : ℤ} {now : Time}
    {locked : List UUID} {claimed rows : List OutboxRow}
    (hc : claimOutboxEvents w n now locked s.outbox=.ok (claimed,rows)) :
    Sending { s with outbox := rows } := by
  refine h.setOutbox ?_
  rw [(claimOutboxEvents_eq_ok hc).2]
  intro r hr hs
  obtain ⟨y,hy,hr⟩ := mem_updateWhere.mp hr
  split at hr
  · subst hr
    cases hs
  · subst hr
    exact h.delivered y hy hs

/-- A completion publishes only the row of its event. -/
theorem Sending.complete {s : State} (h : Sending s) (ho : Owned s) {p : ℕ} {e : OutboxRow}
    (he : e ∈ (s.process p).phase.held) {succeeded : Bool} {errorMessage : Option PyStr}
    {retryAt : Option Time} {now : Time} {rows : List OutboxRow}
    (hc : completeOutboxEvent e.id (s.process p).workerName succeeded errorMessage retryAt now
      s.outbox=.ok rows)
    (hsent : succeeded=true → Carried s.broker e) : Sending { s with outbox := rows } := by
  refine h.setOutbox ?_
  rw [(completeOutboxEvent_eq_ok hc).2]
  intro r hr hs
  obtain ⟨y,hy,hr⟩ := mem_updateWhere.mp hr
  split at hr
  · rename_i hheld
    subst hr
    cases succeeded with
    | false => cases hs
    | true =>
      obtain ⟨z,hz,hb⟩ := ho.backed p e he
      have hyz : y=z := eq_of_key_eq ho.unique hy hz ((of_decide_eq_true hheld).1.trans hb.1.symm)
      obtain ⟨m,hm,hrec⟩ := hsent rfl
      refine ⟨m,hm,hrec.trans ?_⟩
      change e.event.payload=y.event.payload
      rw [hyz,hb.2.1]
  · subst hr
    exact h.delivered y hy hs

theorem Sending.accept {s : State} (h : Sending s) {p i : ℕ} {m : KafkaMessage}
    (hm : (s.process p).queue[i]?=some m) :
    Sending ({ s with broker := s.broker ++ [m] }.setProcess p
      { s.process p with queue := (s.process p).queue.eraseIdx i }) := by
  have hb : Sending { s with broker := s.broker ++ [m] } := by
    refine ⟨?_,?_⟩
    · intro r hr hs
      exact (h.delivered r hr hs).mono (fun x hx => List.mem_append_left _ hx)
    · intro q
      exact (h.sent q).mono (fun x hx => List.mem_append_left _ hx)
        (fun x hx => List.mem_append_right _ hx)
  refine hb.setProcess ((h.sent p).mono (fun x hx => List.mem_append_left _ hx) ?_)
  intro x hx
  obtain ⟨j,hj⟩ := List.mem_iff_getElem?.mp hx
  by_cases hji : j=i
  · rw [hji,hm] at hj
    cases hj
    simp
  · refine List.mem_append_right _ (List.mem_eraseIdx_iff_getElem?.mpr ⟨j,hji,hj⟩)

theorem sent_loop (broker queue : List KafkaMessage) (es : List OutboxRow) :
    (Phase.loop es).Sent broker queue := by
  cases es with
  | nil => trivial
  | cons e es => trivial

theorem sending_step {s t : State} {a : Action} (h : Sending s) (ho : Owned s) (ok : Reliable s a)
    (ha : step s a=some t) : Sending t := by
  cases transition_of_step ha with
  | insert hfresh => exact h.insert _ _ _
  | start hp => exact h.setProcess trivial
  | kill => exact h.setProcess trivial
  | claimRaises => exact h.setProcess trivial
  | claimLost hp hc => exact (h.claim hc).setProcess trivial
  | claimed hp hc hr => exact (h.claim hc).setProcess (sent_loop _ _ _)
  | produced hp hm =>
    refine h.setProcess ⟨_,?_,(kafkaMessage_eq_ok hm).1⟩
    simp
  | produceFails hp => exact h.setProcess trivial
  | accept hm => exact h.accept hm
  | drop hi =>
    rename_i p i
    refine h.setProcess ?_
    have hs := h.sent p
    simp only [Reliable] at ok
    cases hx : (s.process p).phase with
    | flushing e es =>
      rw [hx] at ok
      exact ok
    | completing e es =>
      rw [hx] at hs
      exact hs
    | _ => trivial
  | flushed hp hq =>
    rename_i p e es
    have hs := h.sent p
    simp only [hp,hq,Phase.Sent,List.append_nil] at hs
    exact h.setProcess hs
  | flushFails hp => exact h.setProcess trivial
  | completeFails hp => exact h.setProcess trivial
  | completeLost hp hc =>
    rename_i p e es now rows
    have hs := h.sent p
    simp only [hp,Phase.Sent] at hs
    exact (h.complete ho (by rw [hp]; exact List.mem_cons_self) hc (fun _ => hs)).setProcess trivial
  | completed hp hc =>
    rename_i p e es now rows
    have hs := h.sent p
    simp only [hp,Phase.Sent] at hs
    exact (h.complete ho (by rw [hp]; exact List.mem_cons_self) hc (fun _ => hs)).setProcess
      (sent_loop _ _ _)
  | reportFails hp hc => exact h.setProcess trivial
  | reportLost hp hc =>
    exact (h.complete ho (by rw [hp]; exact List.mem_cons_self) hc (fun hf => nomatch hf)).setProcess
      trivial
  | reported hp hc =>
    exact (h.complete ho (by rw [hp]; exact List.mem_cons_self) hc (fun hf => nomatch hf)).setProcess
      (sent_loop _ _ _)

/-- A call flushes while no copy of its message is left, so the broker need only accept the
rest of the queue for the row to be published undelivered. -/
theorem publishes_undelivered {s : State} (ho : Owned s) {p : ℕ} {e : OutboxRow}
    {es : List OutboxRow} (hp : (s.process p).phase=.flushing e es)
    (hnone : ¬Carried (s.broker ++ (s.process p).queue) e) :
    ∃ as t, system.run s as=some t ∧ ¬Delivered t := by
  induction hq : (s.process p).queue generalizing s with
  | nil =>
    obtain ⟨r,hr,hid,hevent,hs⟩ := ho.backed p e (by rw [hp]; exact List.mem_cons_self)
    have hbroker : ∀ x : OutboxRow, x.event=e.event → ¬Carried s.broker x := by
      intro x hx hc
      apply hnone
      rw [hq,List.append_nil]
      obtain ⟨m,hm,hrec⟩ := hc
      exact ⟨m,hm,by rw [hrec,hx]⟩
    cases hs with
    | inl hpub =>
      exact ⟨[],s,rfl,fun hd => hbroker r hevent (hd r hr hpub)⟩
    | inr hpub =>
      have hheld : isHeldBy e.id (s.process p).workerName r=true :=
        decide_eq_true ⟨hid,hpub.1,hpub.2⟩
      let rows := updateWhere (isHeldBy e.id (s.process p).workerName)
        (·.completed true none none 0) s.outbox
      have hc : completeOutboxEvent e.id (s.process p).workerName true none none 0 s.outbox=
          .ok rows := by
        unfold completeOutboxEvent
        rw [if_pos (List.any_eq_true.mpr ⟨r,hr,hheld⟩)]
      let s' : State := s.setPhase p (.completing e es)
      have hp' : s'.process p={ s.process p with phase := .completing e es } := by
        simp [s',State.setPhase,State.setProcess]
      have hflush : step s (.flush p false)=some s' := by
        simp [step,hp,hq,s']
      have hcomplete : step s' (.complete p 0 .none)=
          some ({ s' with outbox := rows }.setPhase p (.loop es)) := by
        have hc : completeOutboxEvent e.id (s.process p).workerName true none none 0 s'.outbox=
          .ok rows := hc
        simp only [step,hp',hc]
      refine ⟨[.flush p false,.complete p 0 .none],
        { s' with outbox := rows }.setPhase p (.loop es),?_,?_⟩
      · simp only [System.run,system,hflush,Option.bind_some,hcomplete]
      · intro hd
        refine hbroker (r.completed true none none 0) hevent (hd _ ?_ rfl)
        exact mem_updateWhere.mpr ⟨r,hr,by rw [if_pos hheld]⟩
  | cons m ms ih =>
    let x : Process := { s.process p with queue := (s.process p).queue.eraseIdx 0 }
    let t : State := { s with broker := s.broker ++ [m] }.setProcess p x
    have ht : step s (.accept p 0)=some t := by
      simp only [step,hq,List.getElem?_cons_zero]
      simp [t,x,hq]
    have hx : t.process p=x := by simp [t,State.setProcess]
    have hqt : (t.process p).queue=ms := by rw [hx]; simp [x,hq]
    obtain ⟨as,u,hu,hbad⟩ := ih (s := t) (owned_step ho ht) (by rw [hx]; exact hp) (by
      rw [hqt]
      intro hc
      apply hnone
      rw [hq]
      exact hc.mono (by simp [t,State.setProcess])) hqt
    refine ⟨.accept p 0::as,u,?_,hbad⟩
    simp only [System.run,system,ht,Option.bind_some]
    exact hu

/-- Along reliable runs every published row's payload was accepted by the broker; any other
loss of a message lets the run go on to a published row nobody received. -/
theorem reliable_runs_publish_delivered {s : State} (h : system.Reach Reliable s) :
    (∀ r ∈ s.outbox, r.status=.published → ∃ m ∈ s.broker, m.record=r.event.payload) ∧
      ∀ p i t, system.step s (.drop p i)=some t → ¬Reliable s (.drop p i) →
        ∃ as u, system.run t as=some u ∧ ¬Delivered u := by
  have ho : Owned s := owned_reachable h.reachable
  have hs : Sending s := by
    induction h with
    | start h => exact sending_initial h
    | next before ok h ih =>
      have hb := owned_reachable before.reachable
      exact sending_step (ih hb) hb ok h
  refine ⟨hs.delivered,?_⟩
  intro p i t ht bad
  have ht : step s (.drop p i)=some t := ht
  have hot : Owned t := owned_step ho ht
  cases transition_of_step ht with
  | drop hi =>
    simp only [Reliable] at bad
    cases hx : (s.process p).phase with
    | flushing e es =>
      rw [hx] at bad
      have hp : (s.setProcess p { s.process p with
          queue := (s.process p).queue.eraseIdx i }).process p=
          { s.process p with queue := (s.process p).queue.eraseIdx i } := by simp [State.setProcess]
      refine publishes_undelivered hot (show _=Phase.flushing e es by rw [hp]; exact hx) ?_
      rw [hp]
      exact bad
    | _ =>
      rw [hx] at bad
      exact absurd trivial bad

/-- A process claims one row; the broker refuses the message of the first attempt after the
call has given up, and accepts that of the second. -/
theorem retried_row_delivered :
    ∃ s, system.runIf Reliable twoRows [.start 0 [] 1,
      .claim 0 1 [] [(plainRow 1).claimedBy [] 1] .none,.produce 0 false,.flush 0 false,
      .drop 0 0,.report 0 2 2 [] .none,
      .claim 0 3000000 [(plainRow 2).id] [{ (plainRow 1).claimedBy [] 3000000 with
        attemptCount := 2, availableAt := 2000002, lastError := some [] }] .none,
      .produce 0 false,.accept 0 0,.flush 0 false,.complete 0 3000001 .none]=some s ∧
      ∀ r ∈ s.outbox, r.status=.published → ∃ m ∈ s.broker, m.record=r.event.payload := by
  have hrun : (system.runIf Reliable twoRows [.start 0 [] 1,
      .claim 0 1 [] [(plainRow 1).claimedBy [] 1] .none,.produce 0 false,.flush 0 false,
      .drop 0 0,.report 0 2 2 [] .none,
      .claim 0 3000000 [(plainRow 2).id] [{ (plainRow 1).claimedBy [] 3000000 with
        attemptCount := 2, availableAt := 2000002, lastError := some [] }] .none,
      .produce 0 false,.accept 0 0,.flush 0 false,.complete 0 3000001 .none]).isSome=true := by
    decide +kernel
  obtain ⟨s,hs⟩ := Option.isSome_iff_exists.mp hrun
  exact ⟨s,hs,(reliable_runs_publish_delivered (.runIf (.start twoRows_initial) hs)).1⟩

/-- The broker refuses the only message while the call waits in its flush: nothing is left in
the queue, and the row is published. -/
theorem refused_message_published : ¬∀ s, system.Reachable s → Delivered s := by
  intro hall
  have hrun : (system.run twoRows [.start 0 [] 1,
      .claim 0 1 [] [(plainRow 1).claimedBy [] 1] .none,.produce 0 false,.drop 0 0,.flush 0 false,
      .complete 0 2 .none]).any (fun s =>
        decide (∃ r ∈ s.outbox, r.status=.published ∧ ¬Carried s.broker r))=true := by
    decide +kernel
  obtain ⟨s,hrun,hs⟩ := (Option.any_eq_true _ _).mp hrun
  obtain ⟨r,hr,hpub,hnone⟩ := of_decide_eq_true hs
  exact hnone (hall s (System.reachable_of_run _ twoRows_initial hrun) r hr hpub)

end RagIngestion.Publisher
