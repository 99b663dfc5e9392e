import RagIngestion.Publisher.Process

/-! Who holds which row: in every run each event a process still has to complete is held by
that process alone and is backed by one row of the table. -/
namespace RagIngestion.Publisher
open RagIngestion.Python RagIngestion.Domain RagIngestion.Database RagIngestion.Library

/-- The table row behind an event of a process: published, or publishing under its name. -/
def Backs (workerName : PyStr) (e r : OutboxRow) : Prop :=
  r.id=e.id ∧ r.event=e.event ∧
    (r.status=.published ∨ (r.status=.publishing ∧ r.lockedBy=some workerName))

structure Owned (s : State) : Prop where
  unique : (s.outbox.map (·.id)).Nodup
  distinct : ∀ p, ((s.process p).phase.held.map (·.id)).Nodup
  disjoint : ∀ p q, p≠q → ∀ x ∈ (s.process p).phase.held, ∀ y ∈ (s.process q).phase.held, x.id≠y.id
  backed : ∀ p, ∀ e ∈ (s.process p).phase.held, ∃ r ∈ s.outbox, Backs (s.process p).workerName e r

theorem held_of_stopped {x : Phase} (h : x=.stopped) : x.held=[] := by rw [h]; rfl

theorem held_of_idle {x : Phase} (h : x=.idle) : x.held=[] := by rw [h]; rfl

theorem owned_initial {s : State} (h : Initial s) : Owned s := by
  have hheld : ∀ p, (s.process p).phase.held=[] := fun p => held_of_stopped (h.2.2 p).1
  refine ⟨h.1,?_,?_,?_⟩
  · intro p
    simp [hheld p]
  · intro p q _ x hx
    simp [hheld p] at hx
  · intro p e he
    simp [hheld p] at he

/-- A claim does not select a row that is published or publishing. -/
theorem not_selected {batchSize : ℤ} {now : Time} {locked : List UUID} {rows : List OutboxRow}
    (hu : (rows.map (·.id)).Nodup) {r : OutboxRow} (hr : r ∈ rows)
    (hs : r.status=.published ∨ r.status=.publishing) :
    r.id ∉ (selected batchSize now locked rows).map (·.id) := by
  intro hmem
  obtain ⟨c,hc,hid⟩ := List.mem_map.mp hmem
  obtain ⟨hcr,hcs,-⟩ := mem_selected hc
  have hsame : c=r := eq_of_key_eq hu hcr hr hid
  subst hsame
  cases hcs with
  | inl h => simp [h] at hs
  | inr h => simp [h] at hs

theorem mem_of_not_selected {workerName : PyStr} {now : Time} {chosen rows : List OutboxRow}
    {r : OutboxRow} (hr : r ∈ rows) (h : r.id ∉ chosen.map (·.id)) :
    r ∈ updateWhere (fun x => x.id ∈ chosen.map (·.id)) (·.claimedBy workerName now) rows := by
  refine mem_updateWhere.mpr ⟨r,hr,?_⟩
  rw [if_neg]
  simpa using h

theorem Backs.spared {workerName : PyStr} {e r : OutboxRow} (h : Backs workerName e r) :
    r.status=.published ∨ r.status=.publishing := h.2.2.imp id (·.1)

/-- A completion of another row, or a successful one, leaves an event backed. -/
theorem Backs.completed {w w' : PyStr} {outboxId : UUID} {succeeded : Bool}
    {errorMessage : Option PyStr} {retryAt : Option Time} {now : Time} {rows : List OutboxRow}
    {e r : OutboxRow} (h : Backs w e r) (hr : r ∈ rows) (hid : e.id≠outboxId ∨ succeeded=true) :
    ∃ x ∈ updateWhere (isHeldBy outboxId w') (·.completed succeeded errorMessage retryAt now) rows,
      Backs w e x := by
  refine ⟨_,mem_updateWhere.mpr ⟨r,hr,rfl⟩,?_⟩
  cases hh : isHeldBy outboxId w' r with
  | false => simpa [hh] using h
  | true =>
    cases hid with
    | inl hid =>
      have hr' : r.id=outboxId := (of_decide_eq_true hh).1
      exact absurd (h.1.symm.trans hr') hid
    | inr hok => exact ⟨h.1,h.2.1,.inl (by simp [OutboxRow.completed,hok])⟩

/-- Ownership is kept by a step after which nobody holds more, and what is held is backed. -/
theorem Owned.shrink {s t : State} (h : Owned s) (hu : (t.outbox.map (·.id)).Nodup)
    (hheld : ∀ q, ((t.process q).phase.held).Sublist (s.process q).phase.held)
    (hback : ∀ q, ∀ e ∈ (t.process q).phase.held, ∀ r ∈ s.outbox,
      Backs (s.process q).workerName e r → ∃ x ∈ t.outbox, Backs (t.process q).workerName e x) :
    Owned t := by
  refine ⟨hu,?_,?_,?_⟩
  · intro p
    exact (h.distinct p).sublist ((hheld p).map _)
  · intro p q hpq x hx y hy
    exact h.disjoint p q hpq x ((hheld p).subset hx) y ((hheld q).subset hy)
  · intro p e he
    obtain ⟨r,hr,hb⟩ := h.backed p e ((hheld p).subset he)
    exact hback p e he r hr hb

/-- The table is as before and one process is replaced by one that holds no more. -/
theorem Owned.setProcess {s : State} (h : Owned s) {p : ℕ} {x : Process}
    (hheld : x.phase.held.Sublist (s.process p).phase.held)
    (hname : x.phase.held=[] ∨ x.workerName=(s.process p).workerName) : Owned (s.setProcess p x) := by
  refine h.shrink h.unique ?_ ?_
  · intro q
    by_cases hq : q=p
    · subst hq
      simpa [State.setProcess] using hheld
    · simp [State.setProcess,hq]
  · intro q e he r hr hb
    refine ⟨r,hr,?_⟩
    by_cases hq : q=p
    · subst hq
      simp only [State.setProcess,Function.update_self] at he ⊢
      cases hname with
      | inl hnil => simp [hnil] at he
      | inr hname => rwa [hname]
    · simpa [State.setProcess,hq] using hb

theorem Owned.stop {s : State} (h : Owned s) (p : ℕ) : Owned (s.stop p) :=
  h.setProcess (List.nil_sublist _) (.inl rfl)

theorem Owned.setPhase {s : State} (h : Owned s) {p : ℕ} {x : Phase}
    (hheld : x.held.Sublist (s.process p).phase.held) : Owned (s.setPhase p x) :=
  h.setProcess hheld (.inr rfl)

theorem Owned.setBroker {s : State} (h : Owned s) (broker : List KafkaMessage) :
    Owned { s with broker := broker } := ⟨h.unique,h.distinct,h.disjoint,h.backed⟩

theorem Owned.insert {s : State} (h : Owned s) {id : UUID} {event : OutboxEvent} {now : Time}
    (hfresh : ∀ r ∈ s.outbox, r.id≠id) :
    Owned { s with outbox := s.outbox ++ [.inserted id event now] } := by
  refine h.shrink (nodup_map_append_singleton h.unique hfresh) (fun q => List.Sublist.refl _) ?_
  intro q e _ r hr hb
  exact ⟨r,List.mem_append_left _ hr,hb⟩

/-- The table after a claim, with the claimed rows still held by nobody. -/
theorem Owned.claimTable {s : State} (h : Owned s) {workerName : PyStr} {batchSize : ℤ} {now : Time}
    {locked : List UUID} {claimed rows : List OutboxRow}
    (hc : claimOutboxEvents workerName batchSize now locked s.outbox=.ok (claimed,rows)) :
    Owned { s with outbox := rows } := by
  have hu : (rows.map (·.id)).Nodup := by
    rw [claimOutboxEvents_ids hc]
    exact h.unique
  obtain ⟨-,rfl⟩ := claimOutboxEvents_eq_ok hc
  refine h.shrink hu (fun q => List.Sublist.refl _) ?_
  intro q e _ r hr hb
  exact ⟨r,mem_of_not_selected hr (not_selected h.unique hr hb.spared),hb⟩

/-- A process that held nothing takes over the rows its claim returned. -/
theorem Owned.take {s : State} (h : Owned s) {p : ℕ} {now : Time} {locked : List UUID}
    {returned claimed rows : List OutboxRow}
    (hc : claimOutboxEvents (s.process p).workerName (s.process p).batchSize now locked s.outbox=
      .ok (claimed,rows)) (hr : returned.Perm claimed) :
    Owned ({ s with outbox := rows }.setPhase p (.loop returned)) := by
  have ht : Owned { s with outbox := rows } := h.claimTable hc
  obtain ⟨hclaimed,hrows⟩ := claimOutboxEvents_eq_ok hc
  let chosen := selected (s.process p).batchSize now locked s.outbox
  have hmem : ∀ x ∈ returned, ∃ c ∈ chosen, c.claimedBy (s.process p).workerName now=x := by
    intro x hx
    have hx' := hr.mem_iff.mp hx
    rw [hclaimed] at hx'
    exact List.mem_map.mp hx'
  have hother : ∀ q, q≠p → ∀ x ∈ returned, ∀ y ∈ (s.process q).phase.held, x.id≠y.id := by
    intro q _ x hx y hy heq
    obtain ⟨c,hc,rfl⟩ := hmem x hx
    obtain ⟨r,hr,hb⟩ := h.backed q y hy
    have hin : r.id ∈ chosen.map (·.id) :=
      List.mem_map.mpr ⟨c,hc,heq.trans hb.1.symm⟩
    exact not_selected h.unique hr hb.spared hin
  have hself : (({ s with outbox := rows }.setPhase p (.loop returned)).process p).phase.held=
      returned := by simp [State.setPhase,State.setProcess]
  have hrest : ∀ q, q≠p → (({ s with outbox := rows }.setPhase p (.loop returned)).process q)=
      s.process q := fun q hq => by simp [State.setPhase,State.setProcess,hq]
  refine ⟨ht.unique,?_,?_,?_⟩
  · intro q
    by_cases hq : q=p
    · rw [hq,hself]
      refine (hr.map _).nodup_iff.mpr ?_
      rw [hclaimed,List.map_map]
      exact selected_ids_nodup h.unique
    · rw [hrest q hq]
      exact h.distinct q
  · intro q q' hne x hx y hy
    by_cases hq : q=p
    · have hq' : q'≠p := fun h => hne (hq.trans h.symm)
      rw [hq,hself] at hx
      rw [hrest q' hq'] at hy
      exact hother q' hq' x hx y hy
    · rw [hrest q hq] at hx
      by_cases hq' : q'=p
      · rw [hq',hself] at hy
        exact (hother q hq y hy x hx).symm
      · rw [hrest q' hq'] at hy
        exact h.disjoint q q' hne x hx y hy
  · intro q e he
    by_cases hq : q=p
    · rw [hq,hself] at he
      obtain ⟨c,hc,rfl⟩ := hmem e he
      refine ⟨c.claimedBy (s.process p).workerName now,?_,rfl,rfl,.inr ⟨rfl,?_⟩⟩
      · change _ ∈ rows
        rw [hrows]
        refine mem_updateWhere.mpr ⟨c,(mem_selected hc).1,?_⟩
        rw [if_pos (decide_eq_true (List.mem_map_of_mem hc))]
      · simp [OutboxRow.claimedBy,State.setPhase,State.setProcess,hq]
    · rw [hrest q hq] at he ⊢
      exact ht.backed q e he

/-- A completed event leaves the list of its process, or stays there if it was published. -/
theorem Owned.complete {s : State} (h : Owned s) {p : ℕ} {e : OutboxRow} {es : List OutboxRow}
    {succeeded : Bool} {errorMessage : Option PyStr} {retryAt : Option Time} {now : Time}
    {rows : List OutboxRow} {x : Process}
    (hheld : (s.process p).phase.held=e::es)
    (hc : completeOutboxEvent e.id (s.process p).workerName succeeded errorMessage retryAt now
      s.outbox=.ok rows)
    (hx : x.phase.held.Sublist es ∨ (succeeded=true ∧ x.phase.held=e::es))
    (hname : x.phase.held=[] ∨ x.workerName=(s.process p).workerName) :
    Owned ({ s with outbox := rows }.setProcess p x) := by
  have hu : (rows.map (·.id)).Nodup := by
    rw [completeOutboxEvent_ids hc]
    exact h.unique
  obtain ⟨-,rfl⟩ := completeOutboxEvent_eq_ok hc
  have hdist := h.distinct p
  rw [hheld,List.map_cons,List.nodup_cons] at hdist
  have hsub : x.phase.held.Sublist (s.process p).phase.held := by
    rw [hheld]
    cases hx with
    | inl hx => exact hx.cons e
    | inr hx => rw [hx.2]
  refine (h.setProcess hsub hname).shrink hu (fun q => List.Sublist.refl _) ?_
  intro q y hy r hr hb
  refine hb.completed hr ?_
  by_cases hq : q=p
  · subst hq
    simp only [State.setProcess,Function.update_self] at hy
    cases hx with
    | inl hx =>
      left
      intro heq
      exact hdist.1 (heq ▸ List.mem_map_of_mem (hx.subset hy))
    | inr hx => exact .inr hx.1
  · left
    simp only [State.setProcess,Function.update_of_ne hq] at hy
    exact h.disjoint q p hq y hy e (hheld ▸ List.mem_cons_self)

theorem owned_step {s t : State} {a : Action} (h : Owned s) (ha : step s a=some t) : Owned t := by
  cases transition_of_step ha with
  | insert hfresh => exact h.insert hfresh
  | start hp => exact h.setProcess (List.nil_sublist _) (.inl rfl)
  | kill => exact h.stop _
  | claimRaises => exact h.stop _
  | claimLost hp hc => exact (h.claimTable hc).stop _
  | claimed hp hc hr => exact h.take hc hr
  | produced hp hm => exact h.setProcess (by rw [hp]; exact List.Sublist.refl _) (.inr rfl)
  | produceFails hp => exact h.setPhase (by rw [hp]; exact List.Sublist.refl _)
  | accept hm => exact (h.setBroker _).setProcess (List.Sublist.refl _) (.inr rfl)
  | drop hi => exact h.setProcess (List.Sublist.refl _) (.inr rfl)
  | flushed hp hq => exact h.setPhase (by rw [hp]; exact List.Sublist.refl _)
  | flushFails hp => exact h.setPhase (by rw [hp]; exact List.Sublist.refl _)
  | completeFails hp => exact h.setPhase (by rw [hp]; exact List.Sublist.refl _)
  | completeLost hp hc =>
    exact h.complete (by rw [hp]; rfl) hc (.inr ⟨rfl,rfl⟩) (.inr rfl)
  | completed hp hc =>
    refine h.complete (by rw [hp]; rfl) hc (.inl ?_) (.inr rfl)
    rw [Phase.held_loop]
  | reportFails hp => exact h.stop _
  | reportLost hp hc =>
    exact h.complete (by rw [hp]; rfl) hc (.inl (List.nil_sublist _)) (.inl rfl)
  | reported hp hc =>
    refine h.complete (by rw [hp]; rfl) hc (.inl ?_) (.inr rfl)
    rw [Phase.held_loop]

theorem owned_reachable {s : State} (h : system.Reachable s) : Owned s :=
  h.invariant (fun _ => owned_initial) (fun _ _ _ => owned_step)

end RagIngestion.Publisher
