import RagIngestion.Library.Progress
import RagIngestion.Publisher.Ownership

/-! Whatever happened to the publishers before, one that is started now and meets no failure gets
every waiting row out: published if its contract is known, put off if not. -/
namespace RagIngestion.Publisher
open RagIngestion.Python RagIngestion.Domain RagIngestion.Database RagIngestion.Library

/-- A step of a publisher at which nothing goes wrong outside of it: no call to the database or to
the producer fails, the broker refuses nothing, no row is locked by somebody else. -/
def Faultless (_ : State) : Action → Prop
  | .start .. => True
  | .claim _ _ locked _ fault => locked=[] ∧ fault=.none
  | .produce _ raises => raises=false
  | .accept .. => True
  | .flush _ raises => raises=false
  | .complete _ _ fault => fault=.none
  | .report _ _ _ _ fault => fault=.none
  | _ => False

/-- The step is one of this publisher, at which nothing goes wrong. -/
def FaultlessBy (p : ℕ) (s : State) (a : Action) : Prop := a.process?=some p ∧ Faultless s a

/-- What becomes of the row of an event: published, with its message at the broker; if its contract
is unknown it is put off to a later time. -/
def Handled (broker : List KafkaMessage) (now : Time) (event : OutboxEvent) (r : OutboxRow) : Prop :=
  match kafkaMessage event with
  | .ok m => r.status=.published ∧ m ∈ broker
  | .error _ => r.status=.failed ∧ now<r.availableAt

lemma Handled.mono {xs ys : List KafkaMessage} {now : Time} {event : OutboxEvent} {r : OutboxRow}
    (h : Handled xs now event r) (hsub : xs ⊆ ys) : Handled ys now event r := by
  unfold Handled at h ⊢
  split
  · rename_i m hm
    rw [hm] at h
    exact ⟨h.1,hsub h.2⟩
  · rename_i e he
    rw [he] at h
    exact h

/-- The state with a publisher at a place of its code, over a table and a broker. -/
def State.place (s : State) (p : ℕ) (workerName : PyStr) (batchSize : ℤ) (phase : Phase)
    (queue : List KafkaMessage) (outbox : List OutboxRow) (broker : List KafkaMessage) : State :=
  ⟨outbox,broker,Function.update s.process p ⟨workerName,batchSize,phase,queue⟩⟩

/-! The steps of one publisher that nothing disturbs. -/
section
variable {s : State} {p : ℕ} {name : PyStr} {n : ℤ} {q : List KafkaMessage} {rows : List OutboxRow}
  {b : List KafkaMessage} {e : OutboxRow} {es : List OutboxRow}

@[simp] lemma place_process (x : Phase) :
    (s.place p name n x q rows b).process p=⟨name,n,x,q⟩ := Function.update_self ..

@[simp] lemma place_setProcess (x : Phase) (y : Process) :
    (s.place p name n x q rows b).setProcess p y=
      s.place p y.workerName y.batchSize y.phase y.queue rows b := by
  simp [State.place,State.setProcess]

/-- A statement, and then the next place in the code. -/
lemma place_goOn (x y : Phase) (after : List OutboxRow) :
    State.setPhase { s.place p name n x q rows b with outbox := after } p y=
      s.place p name n y q after b := by
  simp [State.setPhase,State.setProcess,State.place]

lemma place_claim {now : Time} {claimed after : List OutboxRow}
    (h : claimOutboxEvents name n now [] rows=.ok (claimed,after)) :
    step (s.place p name n .idle [] rows b) (.claim p now [] claimed .none)=
      some (s.place p name n (.loop claimed) [] after b) := by
  have htable : (s.place p name n .idle [] rows b).outbox=rows := rfl
  simp only [step,place_process,htable,h,List.Perm.refl,if_true]
  exact congrArg some (place_goOn ..)

lemma place_produce {m : KafkaMessage} (h : kafkaMessage e.event=.ok m) :
    step (s.place p name n (.publishing e es) [] rows b) (.produce p false)=
      some (s.place p name n (.flushing e es) [m] rows b) := by
  simp only [step,place_process,h,place_setProcess,List.nil_append]

lemma place_accept {x : Phase} {m : KafkaMessage} :
    step (s.place p name n x [m] rows b) (.accept p 0)=
      some (s.place p name n x [] rows (b ++ [m])) := by
  simp [step,State.place,State.setProcess]

lemma place_flush : step (s.place p name n (.flushing e es) [] rows b) (.flush p false)=
    some (s.place p name n (.completing e es) [] rows b) := by
  simp [step,State.setPhase]

lemma place_complete {now : Time} {after : List OutboxRow}
    (h : completeOutboxEvent e.id name true none none now rows=.ok after) :
    step (s.place p name n (.completing e es) [] rows b) (.complete p now .none)=
      some (s.place p name n (.loop es) [] after b) := by
  have htable : (s.place p name n (.completing e es) [] rows b).outbox=rows := rfl
  simp only [step,place_process,htable,h]
  exact congrArg some (place_goOn ..)

lemma place_fail {error : PyError} (h : kafkaMessage e.event=.error error) :
    step (s.place p name n (.publishing e es) [] rows b) (.produce p false)=
      some (s.place p name n (.failing e es) [] rows b) := by
  simp [step,h,State.setPhase]

lemma place_report {now clock : Time} {error : PyStr} {after : List OutboxRow}
    (h : completeOutboxEvent e.id name false (some (error.take 4000))
      (some (retryAt clock e.attemptCount)) now rows=.ok after) :
    step (s.place p name n (.failing e es) [] rows b) (.report p now clock error .none)=
      some (s.place p name n (.loop es) [] after b) := by
  have htable : (s.place p name n (.failing e es) [] rows b).outbox=rows := rfl
  simp only [step,place_process,htable,h]
  exact congrArg some (place_goOn ..)

end

/-- The events were handled, and no other row was touched. -/
structure Served (es : List OutboxRow) (now : Time) (rows after : List OutboxRow)
    (b b' : List KafkaMessage) : Prop where
  broker : b ⊆ b'
  ids : after.map (·.id)=rows.map (·.id)
  events : after.map (·.event)=rows.map (·.event)
  rest : ∀ r ∈ rows, (∀ e ∈ es, e.id≠r.id) → r ∈ after
  handled : ∀ e ∈ es, ∃ r ∈ after, r.id=e.id ∧ Handled b' now e.event r

/-- A completion of a held row. -/
lemma complete_held {e : OutboxRow} {name : PyStr} {rows : List OutboxRow}
    (h : rows.any (isHeldBy e.id name)=true) (succeeded : Bool) (error : Option PyStr)
    (retryAt : Option Time) (now : Time) :
    ∃ after, completeOutboxEvent e.id name succeeded error retryAt now rows=.ok after ∧
      (∀ r ∈ rows, e.id≠r.id → r ∈ after) ∧
      ∃ r ∈ after, r.id=e.id ∧ (r.status=if succeeded then .published else .failed) ∧
        ∀ later, retryAt=some later → r.availableAt=later := by
  obtain ⟨x,hx,hheld⟩ := List.any_eq_true.mp h
  refine ⟨_,if_pos h,?_,x.completed succeeded error retryAt now,?_,?_,rfl,?_⟩
  · intro r hr hne
    refine mem_updateWhere.mpr ⟨r,hr,if_neg ?_⟩
    intro hr'
    exact hne (of_decide_eq_true hr').1.symm
  · exact mem_updateWhere.mpr ⟨x,hx,if_pos hheld⟩
  · exact (of_decide_eq_true hheld).1
  · rintro later rfl
    rfl

lemma lt_retryAt (clock : Time) (attemptCount : ℕ) : clock<retryAt clock attemptCount := by
  have hwait : 0 < min 300 (2^min attemptCount 8) := lt_min (by decide) (Nat.two_pow_pos _)
  exact Nat.lt_add_of_pos_right (Nat.mul_pos (by decide) hwait)

section
variable (s : State) (p : ℕ) (name : PyStr) (n : ℤ)

/-- A publisher handles the event in work. -/
lemma serve_one {rows : List OutboxRow} {e : OutboxRow} (es : List OutboxRow)
    (hheld : rows.any (isHeldBy e.id name)=true) (now : Time) (b : List KafkaMessage) :
    ∃ after b', system.Leads (FaultlessBy p) (s.place p name n (.publishing e es) [] rows b)
      (s.place p name n (.loop es) [] after b') ∧ Served [e] now rows after b b' := by
  cases hm : kafkaMessage e.event with
  | ok m =>
    obtain ⟨after,hafter,hrest,r,hr,hid,hstatus,-⟩ := complete_held hheld true none none now
    refine ⟨after,b ++ [m],?_,?_⟩
    · refine .step (a := .produce p false) ⟨rfl,rfl⟩ (place_produce hm) ?_
      refine .step (a := .accept p 0) ⟨rfl,trivial⟩ place_accept ?_
      refine .step (a := .flush p false) ⟨rfl,rfl⟩ place_flush ?_
      exact .step (a := .complete p now .none) ⟨rfl,rfl⟩ (place_complete hafter) .refl
    · refine ⟨List.subset_append_left _ _,completeOutboxEvent_ids hafter,
        completeOutboxEvent_events hafter,?_,?_⟩
      · exact fun r hr hne => hrest r hr (hne e (List.mem_singleton_self e))
      · intro x hx
        rw [List.mem_singleton.mp hx]
        refine ⟨r,hr,hid,?_⟩
        rw [Handled,hm]
        exact ⟨hstatus,List.mem_append_right _ (List.mem_singleton_self m)⟩
  | error error =>
    obtain ⟨after,hafter,hrest,r,hr,hid,hstatus,hlater⟩ :=
      complete_held hheld false (some ([] : PyStr)) (some (retryAt now e.attemptCount)) now
    refine ⟨after,b,?_,?_⟩
    · refine .step (a := .produce p false) ⟨rfl,rfl⟩ (place_fail hm) ?_
      exact .step (a := .report p now now [] .none) ⟨rfl,rfl⟩ (place_report hafter) .refl
    · refine ⟨List.Subset.refl b,completeOutboxEvent_ids hafter,
        completeOutboxEvent_events hafter,?_,?_⟩
      · exact fun r hr hne => hrest r hr (hne e (List.mem_singleton_self e))
      · intro x hx
        rw [List.mem_singleton.mp hx]
        refine ⟨r,hr,hid,?_⟩
        rw [Handled,hm]
        refine ⟨hstatus,?_⟩
        rw [hlater _ rfl]
        exact lt_retryAt now e.attemptCount

/-- A publisher handles the events of a batch one after the other. -/
lemma serve {es rows : List OutboxRow} (hids : (es.map (·.id)).Nodup)
    (hheld : ∀ e ∈ es, rows.any (isHeldBy e.id name)=true) (now : Time) (b : List KafkaMessage) :
    ∃ after b', system.Leads (FaultlessBy p) (s.place p name n (.loop es) [] rows b)
      (s.place p name n .idle [] after b') ∧ Served es now rows after b b' := by
  induction es generalizing rows b with
  | nil =>
    refine ⟨rows,b,.refl,List.Subset.refl b,rfl,rfl,fun r hr _ => hr,?_⟩
    intro e he
    cases he
  | cons e es ih =>
    rw [List.map_cons,List.nodup_cons] at hids
    rw [List.forall_mem_cons] at hheld
    obtain ⟨rows₁,b₁,hfirst,h₁⟩ := serve_one s p name n es hheld.1 now b
    have hstill : ∀ x ∈ es, rows₁.any (isHeldBy x.id name)=true := by
      intro x hx
      obtain ⟨r,hr,hxr⟩ := List.any_eq_true.mp (hheld.2 x hx)
      refine List.any_eq_true.mpr ⟨r,h₁.rest r hr ?_,hxr⟩
      intro y hy heq
      rw [List.mem_singleton.mp hy] at heq
      exact hids.1 (List.mem_map.mpr ⟨x,hx,(of_decide_eq_true hxr).1.symm.trans heq.symm⟩)
    obtain ⟨rows₂,b₂,hothers,h₂⟩ := ih hids.2 hstill b₁
    refine ⟨rows₂,b₂,hfirst.trans hothers,fun m hm => h₂.broker (h₁.broker hm),
      h₂.ids.trans h₁.ids,h₂.events.trans h₁.events,?_,?_⟩
    · intro r hr hne
      rw [List.forall_mem_cons] at hne
      refine h₂.rest r (h₁.rest r hr ?_) hne.2
      intro x hx
      rw [List.mem_singleton.mp hx]
      exact hne.1
    · intro x hx
      cases List.mem_cons.mp hx with
      | inl hx =>
        subst hx
        obtain ⟨r,hr,hid,hdone⟩ := h₁.handled x (List.mem_singleton_self x)
        refine ⟨r,h₂.rest r hr ?_,hid,hdone.mono h₂.broker⟩
        intro y hy heq
        exact hids.1 (List.mem_map.mpr ⟨y,hy,heq.trans hid⟩)
      | inr hx => exact h₂.handled x hx

/-- A publisher polls: it handles the rows it selects and is idle again. -/
lemma poll {rows : List OutboxRow} (hrows : (rows.map (·.id)).Nodup) (hpos : 1 ≤ n) (hbound : n ≤ 1000)
    (now : Time) (b : List KafkaMessage) :
    ∃ after b', system.Leads (FaultlessBy p) (s.place p name n .idle [] rows b)
      (s.place p name n .idle [] after b') ∧ Served (selected n now [] rows) now rows after b b' := by
  have hclaim : claimOutboxEvents name n now [] rows=
      .ok ((selected n now [] rows).map (·.claimedBy name now),
        updateWhere (fun r => r.id ∈ (selected n now [] rows).map (·.id)) (·.claimedBy name now) rows) :=
    if_neg (by omega)
  generalize hchosen : selected n now [] rows=chosen at hclaim
  have hids : ((chosen.map (·.claimedBy name now)).map (·.id)).Nodup := by
    rw [List.map_map,← hchosen]
    exact selected_ids_nodup hrows
  have hheld : ∀ e ∈ chosen.map (·.claimedBy name now),
      (updateWhere (fun r => r.id ∈ chosen.map (·.id)) (·.claimedBy name now) rows).any
        (isHeldBy e.id name)=true := by
    intro e he
    obtain ⟨r,hr,rfl⟩ := List.mem_map.mp he
    refine List.any_eq_true.mpr ⟨r.claimedBy name now,mem_updateWhere.mpr ⟨r,?_,?_⟩,?_⟩
    · rw [← hchosen] at hr
      exact (mem_selected hr).1
    · exact if_pos (decide_eq_true (List.mem_map_of_mem hr))
    · exact decide_eq_true ⟨rfl,rfl,rfl⟩
  obtain ⟨after,b',hserve,h⟩ := serve s p name n hids hheld now b
  refine ⟨after,b',.step (a := .claim p now [] _ .none) ⟨rfl,rfl,rfl⟩ (place_claim hclaim) hserve,
    h.broker,h.ids.trans (claimOutboxEvents_ids hclaim),
    h.events.trans (claimOutboxEvents_events hclaim),?_,?_⟩
  · intro r hr hne
    have hother : r.id ∉ chosen.map (·.id) := by
      intro hmem
      obtain ⟨x,hx,hid⟩ := List.mem_map.mp hmem
      exact hne x hx hid
    refine h.rest r (mem_of_not_selected hr hother) ?_
    intro e he
    obtain ⟨x,hx,rfl⟩ := List.mem_map.mp he
    exact hne x hx
  · intro e he
    exact h.handled (e.claimedBy name now) (List.mem_map_of_mem he)

end

/-- What polls make of a table: rows that could be claimed are handled or still as they were, and
no other row was touched. -/
structure Drained (now : Time) (rows after : List OutboxRow) (b b' : List KafkaMessage) : Prop where
  broker : b ⊆ b'
  ids : after.map (·.id)=rows.map (·.id)
  events : after.map (·.event)=rows.map (·.event)
  row : ∀ r ∈ rows, r ∈ after ∨ r ∈ claimable now [] rows ∧
    ∃ x ∈ after, x.id=r.id ∧ Handled b' now r.event x

lemma mem_claimable {now : Time} {rows : List OutboxRow} {r : OutboxRow} :
    r ∈ claimable now [] rows ↔
      r ∈ rows ∧ (r.status=.pending ∨ r.status=.failed) ∧ r.availableAt ≤ now := by
  simp [claimable]

/-- A handled row cannot be claimed again at that time. -/
lemma Handled.not_claimable {broker : List KafkaMessage} {now : Time} {event : OutboxEvent}
    {r : OutboxRow} (h : Handled broker now event r) (rows : List OutboxRow) :
    r ∉ claimable now [] rows := by
  intro hr
  obtain ⟨-,hstatus,hnow⟩ := mem_claimable.mp hr
  unfold Handled at h
  split at h
  · rw [h.1] at hstatus
    simp at hstatus
  · exact absurd hnow (Nat.not_le.mpr h.2)

/-- A poll that finds a row leaves fewer rows to claim. -/
lemma Served.fewer {n : ℤ} {now : Time} {rows after : List OutboxRow} {b b' : List KafkaMessage}
    (h : Served (selected n now [] rows) now rows after b b') (hrows : (rows.map (·.id)).Nodup)
    (hpos : 1 ≤ n) (hsome : 0<(claimable now [] rows).length) :
    (claimable now [] after).length<(claimable now [] rows).length := by
  have hafter : (after.map (·.id)).Nodup := h.ids ▸ hrows
  -- who can still be claimed could be claimed before and was not selected
  have hstill : ∀ r ∈ claimable now [] after, r ∈ claimable now [] rows ∧
      ∀ e ∈ selected n now [] rows, e.id≠r.id := by
    intro r hr
    obtain ⟨hmem,hwaiting⟩ := mem_claimable.mp hr
    have hne : ∀ e ∈ selected n now [] rows, e.id≠r.id := by
      intro e he heq
      obtain ⟨x,hx,hid,hdone⟩ := h.handled e he
      have hxr := eq_of_key_eq hafter hx hmem (hid.trans heq)
      exact hdone.not_claimable after (hxr ▸ hr)
    obtain ⟨y,hy,hid⟩ : ∃ y ∈ rows, y.id=r.id :=
      List.mem_map.mp (h.ids ▸ List.mem_map_of_mem (f := (·.id)) hmem)
    have hyr := eq_of_key_eq hafter (h.rest y hy (hid ▸ hne)) hmem hid
    exact ⟨mem_claimable.mpr ⟨hyr ▸ hy,hwaiting⟩,hne⟩
  obtain ⟨e,he⟩ : ∃ e, e ∈ selected n now [] rows := by
    apply List.exists_mem_of_length_pos
    rw [selected,List.length_take,List.length_insertionSort]
    omega
  have hclaimable : e ∈ claimable now [] rows :=
    (List.mem_insertionSort claimsBefore).mp (List.mem_of_mem_take he)
  have hnodup : (claimable now [] after).Nodup :=
    (List.Nodup.of_map _ hafter).sublist List.filter_sublist
  have hcons : (e::claimable now [] after).Nodup :=
    List.nodup_cons.mpr ⟨fun hmem => (hstill e hmem).2 e he rfl,hnodup⟩
  have hsub : e::claimable now [] after ⊆ claimable now [] rows := by
    rw [List.cons_subset]
    exact ⟨hclaimable,fun r hr => (hstill r hr).1⟩
  have hlength := (hcons.subperm hsub).length_le
  rw [List.length_cons] at hlength
  omega

/-- A drained table stays so when a poll follows. -/
lemma Drained.serve {n : ℤ} {now : Time} {rows mid after : List OutboxRow} {b c d : List KafkaMessage}
    (h : Drained now rows mid b c) (hrows : (rows.map (·.id)).Nodup)
    (hs : Served (selected n now [] mid) now mid after c d) : Drained now rows after b d := by
  have hmid : (mid.map (·.id)).Nodup := h.ids ▸ hrows
  have hselected : ∀ e ∈ selected n now [] mid, e ∈ claimable now [] mid := fun e he =>
    (List.mem_insertionSort claimsBefore).mp (List.mem_of_mem_take he)
  refine ⟨fun m hm => hs.broker (h.broker hm),hs.ids.trans h.ids,hs.events.trans h.events,?_⟩
  intro r hr
  cases h.row r hr with
  | inl hmem =>
    by_cases hchosen : ∃ e ∈ selected n now [] mid, e.id=r.id
    · obtain ⟨e,he,hid⟩ := hchosen
      have her := eq_of_key_eq hmid (mem_claimable.mp (hselected e he)).1 hmem hid
      subst her
      exact .inr ⟨mem_claimable.mpr ⟨hr,(mem_claimable.mp (hselected e he)).2⟩,hs.handled e he⟩
    · refine .inl (hs.rest r hmem ?_)
      exact fun e he hid => hchosen ⟨e,he,hid⟩
  | inr hdone =>
    obtain ⟨hclaimable,x,hx,hid,hhandled⟩ := hdone
    refine .inr ⟨hclaimable,x,hs.rest x hx ?_,hid,hhandled.mono hs.broker⟩
    intro e he heq
    have hex := eq_of_key_eq hmid (mem_claimable.mp (hselected e he)).1 hx heq
    exact hhandled.not_claimable mid (hex ▸ hselected e he)

/-- An idle publisher handles every row that can be claimed. -/
theorem drain (s : State) (p : ℕ) (name : PyStr) {n : ℤ} {rows : List OutboxRow}
    (hrows : (rows.map (·.id)).Nodup) (hpos : 1 ≤ n) (hbound : n ≤ 1000) (now : Time)
    (b : List KafkaMessage) :
    ∃ after b', system.Leads (FaultlessBy p) (s.place p name n .idle [] rows b)
      (s.place p name n .idle [] after b') ∧ Drained now rows after b b' ∧
        claimable now [] after=[] := by
  let I (t : State) : Prop :=
    ∃ after b', t=s.place p name n .idle [] after b' ∧ Drained now rows after b b'
  have hpoll : ∀ t, I t → claimable now [] t.outbox≠[] → ∃ u, system.Leads (FaultlessBy p) t u ∧
      I u ∧ (claimable now [] u.outbox).length<(claimable now [] t.outbox).length := by
    rintro t ⟨mid,c,rfl,hmid⟩ hsome
    have hleft := List.length_pos_iff.mpr hsome
    have hids : (mid.map (·.id)).Nodup := hmid.ids ▸ hrows
    obtain ⟨after,d,hpoll,hserved⟩ := poll s p name n hids hpos hbound now c
    exact ⟨_,hpoll,⟨after,d,rfl,hmid.serve hrows hserved⟩,hserved.fewer hids hpos hleft⟩
  obtain ⟨t,hleads,⟨after,b',rfl,hdrained⟩,hnone⟩ := System.leads_to
    (fun t : State => (claimable now [] t.outbox).length) hpoll
    ⟨rows,b,rfl,List.Subset.refl b,rfl,rfl,fun r hr => .inl hr⟩
  exact ⟨after,b',hleads,hdrained,hnone⟩

/-- Only finitely many processes have ever been started. -/
lemma stopped_from {s : State} (h : system.Reachable s) :
    ∃ k, ∀ p, k ≤ p → (s.process p).phase=.stopped := by
  refine System.Reachable.invariant
    (I := fun s => ∃ k, ∀ p, k ≤ p → (s.process p).phase=.stopped) ?_ ?_ h
  · exact fun s hs => ⟨0,fun p _ => (hs.2.2 p).1⟩
  rintro s a t ⟨k,hk⟩ hstep
  cases hp : a.process? with
  | none =>
    refine ⟨k,fun p hle => ?_⟩
    rw [step_other hstep (by rw [hp]; exact fun h => by cases h)]
    exact hk p hle
  | some q =>
    refine ⟨max k (q+1),fun p hle => ?_⟩
    rw [step_other hstep (by rw [hp,ne_eq,Option.some.injEq]; omega)]
    exact hk p (by omega)

/-- Rows with the same id keep their event. -/
lemma event_of_id {rows after : List OutboxRow} (hrows : (rows.map (·.id)).Nodup)
    (hids : after.map (·.id)=rows.map (·.id)) (hevents : after.map (·.event)=rows.map (·.event))
    {r x : OutboxRow} (hr : r ∈ rows) (hx : x ∈ after) (h : x.id=r.id) : x.event=r.event := by
  have hzip : after.map (fun r => (r.id,r.event))=rows.map (fun r => (r.id,r.event)) := by
    have hpairs : ∀ l : List OutboxRow,
        l.map (fun r => (r.id,r.event))=(l.map (·.id)).zip (l.map (·.event)) := by
      intro l
      rw [List.zip_map']
    rw [hpairs,hpairs,hids,hevents]
  have hmem : (x.id,x.event) ∈ rows.map (fun r => (r.id,r.event)) :=
    hzip ▸ List.mem_map.mpr ⟨x,hx,rfl⟩
  obtain ⟨y,hy,hxy⟩ := List.mem_map.mp hmem
  obtain ⟨hid,hevent⟩ := Prod.mk.inj hxy
  rw [← hevent,eq_of_key_eq hrows hy hr (hid.trans h)]

/-- One more publisher handles every row that can be claimed. -/
theorem another_drains {s : State} (hrows : (s.outbox.map (·.id)).Nodup) {p : ℕ}
    (hp : (s.process p).phase=.stopped) (now : Time) :
    ∃ t, system.Leads (FaultlessBy p) s t ∧ Drained now s.outbox t.outbox s.broker t.broker ∧
      claimable now [] t.outbox=[] := by
  obtain ⟨after,b,hleads,hdrained,hnone⟩ := drain s p [] (n := 50) hrows (by decide) (by decide) now
    s.broker
  have hstart : step s (.start p [] 50)=some (s.place p [] 50 .idle [] s.outbox s.broker) := by
    simp only [step,hp]
    rfl
  exact ⟨_,.step (a := .start p [] 50) ⟨rfl,trivial⟩ hstart hleads,hdrained,hnone⟩

/-- From every state that publishers can reach, the steps of one publisher that is not yet started and
meets no failure lead to a state in which every row that waited has been handled and all other rows
are as they were. -/
theorem waiting_rows_handled {s : State} (h : system.Reachable s) (now : Time) :
    ∃ p t, (s.process p).phase=.stopped ∧ system.Leads (FaultlessBy p) s t ∧ s.broker ⊆ t.broker ∧
      t.outbox.map (·.id)=s.outbox.map (·.id) ∧
      ∀ r ∈ s.outbox, if r ∈ claimable now [] s.outbox
        then ∃ x ∈ t.outbox, x.id=r.id ∧ x.event=r.event ∧ Handled t.broker now r.event x
        else r ∈ t.outbox := by
  have hrows := (owned_reachable h).unique
  obtain ⟨p,hp⟩ := stopped_from h
  have hstopped := hp p (Nat.le_refl p)
  obtain ⟨t,hleads,hdrained,hnone⟩ := another_drains hrows hstopped now
  refine ⟨p,t,hstopped,hleads,hdrained.broker,hdrained.ids,?_⟩
  intro r hr
  split
  · rename_i hwaiting
    cases hdrained.row r hr with
    | inl hmem =>
      have hstill := mem_claimable.mpr ⟨hmem,(mem_claimable.mp hwaiting).2⟩
      rw [hnone] at hstill
      cases hstill
    | inr hdone =>
      obtain ⟨-,x,hx,hid,hhandled⟩ := hdone
      exact ⟨x,hx,hid,event_of_id hrows hdrained.ids hdrained.events hr hx hid,hhandled⟩
  · rename_i hwaiting
    exact (hdrained.row r hr).resolve_right (fun hdone => hwaiting hdone.1)

/-- The first of two rows is claimed for a publisher that never learns of it. -/
def strandFirst : List Action := [.start 0 (py "a") 1,.claim 0 0 [] [] .after]

theorem second_row_handled : ∃ s p t, system.run twoRows strandFirst=some s ∧
    (s.process p).phase=.stopped ∧ system.Leads (FaultlessBy p) s t ∧ (plainRow 1).claimedBy (py "a") 0 ∈ t.outbox ∧
      ∃ x ∈ t.outbox, x.id=(plainRow 2).id ∧ x.status=.published := by
  have hrun : (system.run twoRows strandFirst).any (fun s =>
      decide (s.outbox=[(plainRow 1).claimedBy (py "a") 0,plainRow 2]))=true := by decide +kernel
  obtain ⟨s,hs,hrows⟩ := (Option.any_eq_true _ _).mp hrun
  replace hrows := of_decide_eq_true hrows
  obtain ⟨p,t,hp,hleads,-,-,hall⟩ := waiting_rows_handled (System.reachable_of_run _ twoRows_initial hs) 0
  rw [hrows,List.forall_mem_cons,List.forall_mem_singleton,if_neg (by decide),if_pos (by decide)] at hall
  obtain ⟨hfirst,x,hx,hid,-,hhandled⟩ := hall
  exact ⟨s,p,t,hs,hp,hleads,hfirst,x,hx,hid,hhandled.1⟩

end RagIngestion.Publisher
