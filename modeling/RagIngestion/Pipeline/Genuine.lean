import RagIngestion.Pipeline.Outcomes

/-! Runs in which the consumers handle only messages of their topics, as the broker holds them:
every payload in work is then the payload of an outbox row. -/
namespace RagIngestion.Pipeline
open RagIngestion.Python RagIngestion.Domain RagIngestion.Database RagIngestion.Storage
open RagIngestion.Library

/-- A consumer is given a message the broker accepted on its topic, any number of times and in
any order. -/
def Genuine (w : World) : Action → Prop
  | .fetch _ (.deliver p) =>
    ∃ m ∈ w.broker, m.topic=documentSubmittedTopic ∧ m.record=.documentSubmitted p
  | .extract _ (.deliver p) =>
    ∃ m ∈ w.broker, m.topic=documentFetchedTopic ∧ m.record=.documentFetched p
  | _ => True

instance (w : World) (a : Action) : Decidable (Genuine w a) := by
  unfold Genuine
  split <;> infer_instance

/-- The events of the outbox, in the order of their insertion. -/
def events (db : Db) : List OutboxEvent := db.outbox.map (·.event)

/-- What one more row adds is that row. -/
lemma eq_of_new_row {before after : List OutboxEvent} {e row : OutboxEvent} (h : after=before ++ [row])
    (he : e ∈ after) (hnew : e ∉ before) : e=row := by
  rw [h] at he
  cases List.mem_append.mp he with
  | inl he => exact absurd he hnew
  | inr he => exact List.mem_singleton.mp he

/-- A submission adds its event. -/
lemma events_submitted {d : Submission.Draft} {sha256 : Bytes → Digest} {bucket : BucketName}
    {eventId : UUID} {occurredAt : PyStr} {outboxId : UUID} {now : Time} {before after : Db}
    (h : d.submission sha256 bucket eventId occurredAt outboxId now before=.ok after) :
    events after=events before ++ [d.event bucket eventId occurredAt] := by
  rw [(Submission.Draft.submission_eq_ok _ _ h).2]
  simp [events,OutboxRow.inserted]

/-- A committed outcome adds its event. -/
lemma events_committed {o : Outcome} {outboxId : UUID} {now : Time} {before after : Db}
    (h : Committed o outboxId now before after) : events after=events before ++ [o.event] := by
  rw [h.result]
  simp [events,Outcome.apply,OutboxRow.inserted]

/-- A message made from a row. -/
def Announced (events : List OutboxEvent) (m : Publisher.KafkaMessage) : Prop :=
  ∃ e ∈ events, Publisher.kafkaMessage e=.ok m

/-- What the publishers hold, have queued and have delivered comes from the outbox. -/
structure Relayed (events : List OutboxEvent) (broker : List Publisher.KafkaMessage)
    (process : ℕ → Publisher.Process) : Prop where
  broker : ∀ m ∈ broker, Announced events m
  queue : ∀ p, ∀ m ∈ (process p).queue, Announced events m
  held : ∀ p, ∀ r ∈ (process p).phase.held, r.event ∈ events

lemma Announced.mono {events more : List OutboxEvent} {m : Publisher.KafkaMessage}
    (h : Announced events m) (hsub : events ⊆ more) : Announced more m := by
  obtain ⟨e,he,hm⟩ := h
  exact ⟨e,hsub he,hm⟩

theorem Relayed.mono {events more : List OutboxEvent} {broker : List Publisher.KafkaMessage}
    {process : ℕ → Publisher.Process} (h : Relayed events broker process) (hsub : events ⊆ more) :
    Relayed more broker process :=
  ⟨fun m hm => (h.broker m hm).mono hsub,fun p m hm => (h.queue p m hm).mono hsub,
    fun p r hr => hsub (h.held p r hr)⟩

theorem Relayed.setProcess {events : List OutboxEvent} {broker : List Publisher.KafkaMessage}
    {process : ℕ → Publisher.Process} (h : Relayed events broker process) {p : ℕ}
    {x : Publisher.Process} (hq : ∀ m ∈ x.queue, Announced events m)
    (hh : ∀ r ∈ x.phase.held, r.event ∈ events) :
    Relayed events broker (Function.update process p x) := by
  refine ⟨h.broker,?_,?_⟩
  · intro q
    by_cases hqp : q=p
    · subst hqp
      simpa using hq
    · simpa [hqp] using h.queue q
  · intro q
    by_cases hqp : q=p
    · subst hqp
      simpa using hh
    · simpa [hqp] using h.held q

theorem Relayed.setPhase {events : List OutboxEvent} {broker : List Publisher.KafkaMessage}
    {process : ℕ → Publisher.Process} (h : Relayed events broker process) {p : ℕ}
    {phase : Publisher.Phase} (hh : ∀ r ∈ phase.held, r.event ∈ events) :
    Relayed events broker (Function.update process p { process p with phase := phase }) :=
  h.setProcess (h.queue p) hh

/-- A process goes on with rows it already holds. -/
theorem Relayed.goOn {events : List OutboxEvent} {broker : List Publisher.KafkaMessage}
    {process : ℕ → Publisher.Process} (h : Relayed events broker process) {p : ℕ}
    {phase next : Publisher.Phase} (hp : (process p).phase=phase) (hsub : next.held ⊆ phase.held) :
    Relayed events broker (Function.update process p { process p with phase := next }) := by
  apply h.setPhase
  intro r hr
  apply h.held p
  rw [hp]
  exact hsub hr

theorem Relayed.stop {events : List OutboxEvent} {broker : List Publisher.KafkaMessage}
    {process : ℕ → Publisher.Process} (h : Relayed events broker process) {p : ℕ} :
    Relayed events broker
      (Function.update process p { process p with phase := .stopped, queue := [] }) :=
  h.setProcess (fun _ hm => absurd hm List.not_mem_nil) (fun _ hr => absurd hr List.not_mem_nil)

/-- A claim hands out rows of the table. -/
theorem claimed_events {w : PyStr} {n : ℤ} {now : Time} {locked : List UUID}
    {rows claimed after : List OutboxRow}
    (h : claimOutboxEvents w n now locked rows=.ok (claimed,after)) {r : OutboxRow}
    (hr : r ∈ claimed) : r.event ∈ rows.map (·.event) := by
  rw [(claimOutboxEvents_eq_ok h).1] at hr
  obtain ⟨x,hx,rfl⟩ := List.mem_map.mp hr
  exact List.mem_map.mpr ⟨x,(mem_selected hx).1,rfl⟩

theorem relayed_step {s t : Publisher.State} {a : Publisher.Action}
    (h : Relayed (s.outbox.map (·.event)) s.broker s.process) (ha : a.process?≠none)
    (hstep : Publisher.step s a=some t) :
    Relayed (t.outbox.map (·.event)) t.broker t.process := by
  rw [(publisher_step_columns ha hstep).2]
  cases Publisher.transition_of_step hstep with
  | insert => exact absurd rfl ha
  | start => exact h.setProcess (by simp) (by simp [Publisher.Phase.held])
  | kill => exact h.stop
  | claimRaises => exact h.stop
  | claimLost => exact h.stop
  | claimed _ hc hperm =>
    refine h.setPhase fun r hr => ?_
    rw [Publisher.Phase.held_loop] at hr
    exact claimed_events hc (hperm.mem_iff.mp hr)
  | produced hp hm =>
    rename_i p e es m
    have hheld := h.held p
    rw [hp] at hheld
    refine h.setProcess ?_ hheld
    intro x hx
    cases List.mem_append.mp hx with
    | inl hx => exact h.queue p x hx
    | inr hx => exact ⟨e.event,hheld e List.mem_cons_self,List.mem_singleton.mp hx ▸ hm⟩
  | accept hm =>
    rename_i p i m
    refine Relayed.setProcess ⟨?_,h.queue,h.held⟩ ?_ (h.held p)
    · intro x hx
      cases List.mem_append.mp hx with
      | inl hx => exact h.broker x hx
      | inr hx => exact List.mem_singleton.mp hx ▸ h.queue p m (List.mem_of_getElem? hm)
    · intro x hx
      exact h.queue p x (List.mem_of_mem_eraseIdx hx)
  | drop =>
    rename_i p i hi
    exact h.setProcess (fun x hx => h.queue p x (List.mem_of_mem_eraseIdx hx)) (h.held p)
  | produceFails hp => exact h.goOn hp (List.Subset.refl _)
  | flushed hp _ => exact h.goOn hp (List.Subset.refl _)
  | flushFails hp => exact h.goOn hp (List.Subset.refl _)
  | completeFails hp => exact h.goOn hp (List.Subset.refl _)
  | completeLost hp _ => exact h.goOn hp (List.Subset.refl _)
  | completed hp _ =>
    refine h.goOn hp ?_
    rw [Publisher.Phase.held_loop]
    exact List.subset_cons_self _ _
  | reportFails => exact h.stop
  | reportLost => exact h.stop
  | reported hp _ =>
    refine h.goOn hp ?_
    rw [Publisher.Phase.held_loop]
    exact List.subset_cons_self _ _

/-- Every message and every payload in work is that of an outbox row of its topic, and every
result in work is graded by its markdown. -/
structure Known (w : World) : Prop where
  relayed : Relayed (events w.db) w.broker w.publisher
  fetching : ∀ t p, (w.fetching t).active=some p →
    ∃ e ∈ events w.db, e.kafkaTopic=documentSubmittedTopic ∧ e.payload=.documentSubmitted p
  extracting : ∀ t p, (w.extracting t).active=some p →
    ∃ e ∈ events w.db, e.kafkaTopic=documentFetchedTopic ∧ e.payload=.documentFetched p
  results : ∀ t r, (w.extracting t).result=some r →
    r.extractionStatus=if r.blank then .needsReview else .succeeded

variable {c : Config}

/-- No step removes or changes an event. -/
theorem DbStep.events_subset {w : World} {after : Db} (h : DbStep c w after) :
    events w.db ⊆ events after := by
  cases h with
  | same => exact List.Subset.refl _
  | publish hids hevents =>
    rw [events,← hevents]
    exact List.Subset.refl _
  | submit hr hdb =>
    obtain ⟨-,rfl⟩ := Submission.Draft.submission_eq_ok _ _ hdb
    simp [events]
  | consume ho hc =>
    obtain ⟨rfl,-,-,-⟩ := hc
    simp [events,Outcome.apply]

theorem Known.initial {w : World} (h : Initial w) : Known w := by
  refine ⟨⟨?_,?_,?_⟩,?_,?_,?_⟩
  · simp [h.broker]
  · simp [h.publisher]
  · simp [h.publisher,Publisher.Phase.held]
  · simp [h.fetching,Fetcher.Task.active]
  · simp [h.extracting,Extractor.Task.active]
  · simp [h.extracting,Extractor.Task.result]

/-- A delivered message was made from an outbox row. -/
theorem Known.delivered {w : World} (h : Known w) {topic : PyStr} {payload : EventPayload}
    (hm : ∃ m ∈ w.broker, m.topic=topic ∧ m.record=payload) :
    ∃ e ∈ events w.db, e.kafkaTopic=topic ∧ e.payload=payload := by
  obtain ⟨m,hm,rfl,rfl⟩ := hm
  obtain ⟨e,he,hk⟩ := h.relayed.broker m hm
  obtain ⟨hrecord,htopic⟩ := Publisher.kafkaMessage_eq_ok hk
  exact ⟨e,he,htopic.symm,hrecord.symm⟩

theorem relayed_world_step {w after : World} {a : Action}
    (h : Relayed (events w.db) w.broker w.publisher) (ha : step c w a=some after) :
    Relayed (events after.db) after.broker after.publisher := by
  have hsub := (step_db ha).events_subset
  cases transition_of_step ha with
  | publish hne hs => exact relayed_step (s := w.publishers) h hne hs
  | _ => exact h.mono hsub

theorem known_step {w after : World} {a : Action} (h : Known w) (ok : Genuine w a)
    (ha : step c w a=some after) : Known after := by
  have hsub := (step_db ha).events_subset
  refine ⟨relayed_world_step h.relayed ha,?_,?_,?_⟩
  · intro t p hp
    have hsource : ∃ e ∈ events w.db, e.kafkaTopic=documentSubmittedTopic ∧
        e.payload=.documentSubmitted p := by
      obtain hsame | ⟨b,rfl,ht⟩ := fetching_step ha t
      · exact h.fetching t p (hsame ▸ hp)
      · obtain hp | rfl := ht.active _ _ _ hp
        · exact h.fetching t p hp
        · exact h.delivered ok
    obtain ⟨e,he,hsource⟩ := hsource
    exact ⟨e,hsub he,hsource⟩
  · intro t p hp
    have hsource : ∃ e ∈ events w.db, e.kafkaTopic=documentFetchedTopic ∧
        e.payload=.documentFetched p := by
      obtain hsame | ⟨b,rfl,ht⟩ := extracting_step ha t
      · exact h.extracting t p (hsame ▸ hp)
      · obtain hp | rfl := ht.active _ _ _ _ hp
        · exact h.extracting t p hp
        · exact h.delivered ok
    obtain ⟨e,he,hsource⟩ := hsource
    exact ⟨e,hsub he,hsource⟩
  · intro t r hr
    obtain hsame | ⟨b,rfl,ht⟩ := extracting_step ha t
    · exact h.results t r (hsame ▸ hr)
    · obtain hr | ⟨p,body,read,convert,-,-,hr⟩ := ht.result _ _ _ _ hr
      · exact h.results t r hr
      · exact Extractor.extractPdf_status hr

end RagIngestion.Pipeline
