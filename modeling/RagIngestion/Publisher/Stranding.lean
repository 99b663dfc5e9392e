import RagIngestion.Publisher.Ownership

/-! Rows left `publishing` with nobody to complete them: exactly which steps cause this. -/
namespace RagIngestion.Publisher
open RagIngestion.Python RagIngestion.Domain RagIngestion.Database RagIngestion.Library

/-- A row that is done, can be claimed, or is in the list of a running `publish_batch`. -/
def Kept (s : State) (r : OutboxRow) : Prop :=
  r.status=.published ∨ r.status=.pending ∨ r.status=.failed ∨
    (r.status=.publishing ∧ ∃ p, ∃ e ∈ (s.process p).phase.held, e.id=r.id)

def NoneStranded (s : State) : Prop := ∀ r ∈ s.outbox, Kept s r

/-- The rows of none of these events are `publishing`. -/
def Settled (s : State) (events : List OutboxRow) : Prop :=
  ∀ e ∈ events, ∀ r ∈ s.outbox, r.id=e.id → r.status≠.publishing

instance (s : State) (events : List OutboxRow) : Decidable (Settled s events) :=
  inferInstanceAs (Decidable (∀ e ∈ events, ∀ r ∈ s.outbox, r.id=e.id → r.status≠.publishing))

/-- An exception of the failure handler's own database call ends the batch. -/
def ReportOrderly (s : State) (fault : Fault) : Phase → Prop
  | .failing e es => Settled s (e::es) ∨ (fault≠.before ∧ Settled s es) ∨
      (fault=.none ∧ ¬Settled s [e])
  | _ => True

instance (s : State) (fault : Fault) : ∀ x, Decidable (ReportOrderly s fault x)
  | .failing e es => inferInstanceAs (Decidable (Settled s (e::es) ∨
      (fault≠.before ∧ Settled s es) ∨ (fault=.none ∧ ¬Settled s [e])))
  | .stopped | .idle | .publishing .. | .flushing .. | .completing .. => inferInstanceAs (Decidable True)

/-- A step that does not end a call, or its claim, while a row of it is `publishing`. -/
def Orderly (s : State) : Action → Prop
  | .kill p => Settled s (s.process p).phase.held
  | .claim p now locked _ fault =>
    fault=.after → 1 ≤ (s.process p).batchSize → (s.process p).batchSize ≤ 1000 →
      selected (s.process p).batchSize now locked s.outbox=[]
  | .report p _ _ _ fault => ReportOrderly s fault (s.process p).phase
  | _ => True

instance (s : State) : ∀ a, Decidable (Orderly s a)
  | .kill p => inferInstanceAs (Decidable (Settled s (s.process p).phase.held))
  | .claim p now locked _ fault => inferInstanceAs (Decidable (fault=.after →
      1 ≤ (s.process p).batchSize → (s.process p).batchSize ≤ 1000 →
        selected (s.process p).batchSize now locked s.outbox=[]))
  | .report p _ _ _ fault => inferInstanceAs (Decidable (ReportOrderly s fault (s.process p).phase))
  | .insert .. | .start .. | .produce .. | .accept .. | .drop .. | .flush .. | .complete .. =>
    inferInstanceAs (Decidable True)

theorem noneStranded_initial {s : State} (h : Initial s) : NoneStranded s := by
  intro r hr
  exact .inr (.inl (h.2.1 r hr))

theorem Settled.cons {s : State} {e : OutboxRow} {es : List OutboxRow} :
    Settled s (e::es) ↔ Settled s [e] ∧ Settled s es := by
  simp [Settled]

/-- A completion raises exactly when the row of a held event is no longer `publishing`. -/
theorem Owned.any_isHeldBy {s : State} (h : Owned s) {p : ℕ} {e : OutboxRow}
    (he : e ∈ (s.process p).phase.held) :
    s.outbox.any (isHeldBy e.id (s.process p).workerName)=true ↔ ¬Settled s [e] := by
  obtain ⟨r,hr,hb⟩ := h.backed p e he
  constructor
  · intro hany hset
    obtain ⟨x,hx,hheld⟩ := List.any_eq_true.mp hany
    obtain ⟨hid,hs,-⟩ := of_decide_eq_true hheld
    exact hset e (by simp) x hx hid hs
  · intro hset
    cases hb.2.2 with
    | inl hpub =>
      exfalso
      apply hset
      intro y hy x hx hid hs
      rw [List.mem_singleton.mp hy] at hid
      have hsame : x=r := eq_of_key_eq h.unique hx hr (hid.trans hb.1.symm)
      rw [hsame,hpub] at hs
      cases hs
    | inr hpub => exact List.any_eq_true.mpr ⟨r,hr,decide_eq_true ⟨hb.1,hpub⟩⟩

/-- A step of one process over the same table, which drops no event that is `publishing`. -/
theorem NoneStranded.setProcess {s : State} (h : NoneStranded s) {p : ℕ} {x : Process}
    (hheld : ∀ e ∈ (s.process p).phase.held, e ∈ x.phase.held ∨ Settled s [e]) :
    NoneStranded (s.setProcess p x) := by
  intro r hr
  have hk : Kept s r := h r hr
  refine hk.imp id (Or.imp id (Or.imp id ?_))
  intro hpub
  obtain ⟨hs,q,e,he,hid⟩ := hpub
  refine ⟨hs,q,e,?_,hid⟩
  by_cases hq : q=p
  · subst hq
    simp only [State.setProcess,Function.update_self]
    cases hheld e he with
    | inl hmem => exact hmem
    | inr hset => exact absurd hs (hset e (by simp) r hr hid.symm)
  · simpa [State.setProcess,hq] using he

theorem NoneStranded.setPhase {s : State} (h : NoneStranded s) {p : ℕ} {x : Phase}
    (hheld : x.held=(s.process p).phase.held) : NoneStranded (s.setPhase p x) :=
  h.setProcess (fun e he => .inl (by rwa [← hheld] at he))

theorem NoneStranded.stop {s : State} (h : NoneStranded s) {p : ℕ}
    (hset : Settled s (s.process p).phase.held) : NoneStranded (s.stop p) := by
  refine h.setProcess fun e he => .inr ?_
  intro y hy
  rw [List.mem_singleton.mp hy]
  exact hset e he

/-- A committed claim strands no row when the caller holds what it claimed. -/
theorem NoneStranded.claim {s : State} (h : NoneStranded s) {p : ℕ} {w : PyStr} {n : ℤ} {now : Time}
    {locked : List UUID} {claimed rows : List OutboxRow} {x : Process}
    (hp : (s.process p).phase.held=[])
    (hc : claimOutboxEvents w n now locked s.outbox=.ok (claimed,rows))
    (hx : ∀ c ∈ claimed, c ∈ x.phase.held) :
    NoneStranded ({ s with outbox := rows }.setProcess p x) := by
  obtain ⟨hclaimed,hrows⟩ := claimOutboxEvents_eq_ok hc
  intro r hr
  change r ∈ rows at hr
  rw [hrows] at hr
  obtain ⟨y,hy,hr⟩ := mem_updateWhere.mp hr
  split at hr
  · rename_i hsel
    obtain ⟨c,hc,hid⟩ := List.mem_map.mp (of_decide_eq_true hsel)
    subst hr
    refine .inr (.inr (.inr ⟨rfl,p,c.claimedBy w now,?_,hid⟩))
    simp only [State.setProcess,Function.update_self]
    apply hx
    rw [hclaimed]
    exact List.mem_map_of_mem hc
  · subst hr
    refine (h y hy).imp id (Or.imp id (Or.imp id ?_))
    intro hpub
    obtain ⟨hs,q,e,he,hid⟩ := hpub
    refine ⟨hs,q,e,?_,hid⟩
    by_cases hq : q=p
    · rw [hq,hp] at he
      cases he
    · simpa [State.setProcess,hq] using he

/-- A committed completion strands no row when the caller keeps the events after it. -/
theorem NoneStranded.complete {s : State} (h : NoneStranded s) (ho : Owned s) {p : ℕ} {e : OutboxRow}
    {es : List OutboxRow} {succeeded : Bool} {errorMessage : Option PyStr} {retryAt : Option Time}
    {now : Time} {rows : List OutboxRow} {x : Process}
    (hheld : (s.process p).phase.held=e::es)
    (hc : completeOutboxEvent e.id (s.process p).workerName succeeded errorMessage retryAt now
      s.outbox=.ok rows)
    (hx : ∀ y ∈ es, y ∈ x.phase.held ∨ Settled s [y]) :
    NoneStranded ({ s with outbox := rows }.setProcess p x) := by
  obtain ⟨-,rfl⟩ := completeOutboxEvent_eq_ok hc
  have he : e ∈ (s.process p).phase.held := hheld ▸ List.mem_cons_self
  intro r hr
  obtain ⟨y,hy,hr⟩ := mem_updateWhere.mp hr
  split at hr
  · subst hr
    cases succeeded with
    | true => exact .inl rfl
    | false => exact .inr (.inr (.inl rfl))
  · rename_i hnot
    subst hr
    refine (h y hy).imp id (Or.imp id (Or.imp id ?_))
    intro hpub
    obtain ⟨hs,q,d,hd,hid⟩ := hpub
    refine ⟨hs,q,d,?_,hid⟩
    by_cases hq : q=p
    · subst hq
      rw [hheld] at hd
      simp only [State.setProcess,Function.update_self]
      cases List.mem_cons.mp hd with
      | inl hde =>
        exfalso
        have hset : ¬Settled s [e] := fun hset => hset e (by simp) y hy (by rw [← hid,hde]) hs
        obtain ⟨z,hz,hh⟩ := List.any_eq_true.mp ((ho.any_isHeldBy he).mpr hset)
        have hzy : z=y := eq_of_key_eq ho.unique hz hy
          ((of_decide_eq_true hh).1.trans (by rw [← hid,hde]))
        exact hnot (hzy ▸ hh)
      | inr hdes =>
        cases hx d hdes with
        | inl hmem => exact hmem
        | inr hset => exact absurd hs (hset d (by simp) y hy hid.symm)
    · simpa [State.setProcess,hq] using hd

theorem selected_eq_nil_of_orderly {s : State} {p : ℕ} {now : Time} {locked : List UUID}
    {returned claimed rows : List OutboxRow}
    (ok : Orderly s (.claim p now locked returned .after))
    (hc : claimOutboxEvents (s.process p).workerName (s.process p).batchSize now locked s.outbox=
      .ok (claimed,rows)) : claimed=[] := by
  have hclaimed := (claimOutboxEvents_eq_ok hc).1
  unfold claimOutboxEvents at hc
  split at hc
  · cases hc
  · rename_i hn
    rw [hclaimed,ok rfl (by omega) (by omega)]
    rfl

/-- A failure handler whose call raises has no row left to lose, if it was orderly. -/
theorem Owned.settled_of_raise {s : State} (h : Owned s) {p : ℕ} {e : OutboxRow}
    {es : List OutboxRow} {fault : Fault} (hheld : (s.process p).phase.held=e::es)
    (ok : ReportOrderly s fault (.failing e es))
    (hc : fault=.before ∨ s.outbox.any (isHeldBy e.id (s.process p).workerName)=false) :
    Settled s (e::es) := by
  have hany := h.any_isHeldBy (p := p) (e := e) (hheld ▸ List.mem_cons_self)
  obtain hall | ⟨hf,hes⟩ | ⟨hf,he⟩ := ok
  · exact hall
  · cases hc with
    | inl hb => exact absurd hb hf
    | inr hb =>
      rw [hb] at hany
      exact Settled.cons.mpr ⟨not_not.mp (fun hn => Bool.false_ne_true (hany.mpr hn)),hes⟩
  · cases hc with
    | inl hb => rw [hf] at hb; cases hb
    | inr hb =>
      rw [hb] at hany
      exact absurd (hany.mpr he) Bool.false_ne_true

theorem noneStranded_step {s t : State} {a : Action} (h : NoneStranded s) (ho : Owned s)
    (ok : Orderly s a) (ha : step s a=some t) : NoneStranded t := by
  cases transition_of_step ha with
  | insert hfresh =>
    intro r hr
    cases List.mem_append.mp hr with
    | inl hr => exact h r hr
    | inr hr =>
      rw [List.mem_singleton.mp hr]
      exact .inr (.inl rfl)
  | start hp =>
    refine h.setProcess fun e he => ?_
    rw [held_of_stopped hp] at he
    cases he
  | kill => exact h.stop ok
  | claimRaises hp =>
    refine h.stop ?_
    rw [held_of_idle hp]
    intro e he
    cases he
  | claimLost hp hc =>
    refine h.claim (held_of_idle hp) hc ?_
    rw [selected_eq_nil_of_orderly ok hc]
    intro c hmem
    cases hmem
  | claimed hp hc hr =>
    refine h.claim (held_of_idle hp) hc fun c hmem => ?_
    rw [Phase.held_loop]
    exact hr.mem_iff.mpr hmem
  | produced hp hm => exact h.setProcess (fun e he => .inl (by rwa [hp] at he))
  | produceFails hp => exact h.setPhase (by rw [hp]; rfl)
  | accept hm =>
    have hb : NoneStranded { s with broker := _ } := h
    exact hb.setProcess (fun e he => .inl he)
  | drop hi => exact h.setProcess (fun e he => .inl he)
  | flushed hp hq => exact h.setPhase (by rw [hp]; rfl)
  | flushFails hp => exact h.setPhase (by rw [hp]; rfl)
  | completeFails hp => exact h.setPhase (by rw [hp]; rfl)
  | completeLost hp hc =>
    exact h.complete ho (by rw [hp]; rfl) hc (fun y hy => .inl (List.mem_cons_of_mem _ hy))
  | completed hp hc =>
    exact h.complete ho (by rw [hp]; rfl) hc (fun y hy => .inl (by rwa [Phase.held_loop]))
  | reportFails hp hc =>
    simp only [Orderly,hp] at ok
    refine h.stop ?_
    rw [hp]
    exact ho.settled_of_raise (by rw [hp]; rfl) ok hc
  | reportLost hp hc =>
    rename_i p e es now clock error rows
    simp only [Orderly,hp] at ok
    have hes : Settled s es := by
      obtain hall | ⟨-,hes⟩ | ⟨hf,-⟩ := ok
      · exact (Settled.cons.mp hall).2
      · exact hes
      · cases hf
    refine h.complete ho (by rw [hp]; rfl) hc (fun y hy => .inr ?_)
    intro z hz
    rw [List.mem_singleton.mp hz]
    exact hes y hy
  | reported hp hc =>
    exact h.complete ho (by rw [hp]; rfl) hc (fun y hy => .inl (by rwa [Phase.held_loop]))

/-- A row that is `publishing` for a process which no longer holds it is stranded. -/
theorem Owned.strands {s t : State} (h : Owned s) {p : ℕ} {events : List OutboxRow}
    (hsub : events.Sublist (s.process p).phase.held) (hset : ¬Settled s events)
    (hrow : ∀ e ∈ events, ∀ r ∈ s.outbox, r.id=e.id → r ∈ t.outbox)
    (hp : (t.process p).phase.held=[]) (hother : ∀ q, q≠p → t.process q=s.process q) :
    ¬NoneStranded t := by
  intro hall
  simp only [Settled,not_forall,not_not] at hset
  obtain ⟨e,he,r,hr,hid,hs⟩ := hset
  have hk := hall r (hrow e he r hr hid)
  simp only [Kept,hs,reduceCtorEq,false_or,true_and] at hk
  obtain ⟨q,y,hy,hyid⟩ := hk
  by_cases hq : q=p
  · rw [hq,hp] at hy
    cases hy
  · rw [hother q hq] at hy
    exact h.disjoint q p hq y hy e (hsub.subset he) (hyid.trans hid)

theorem stop_held (s : State) (p : ℕ) : ((s.stop p).process p).phase.held=[] := by
  simp [State.stop,State.setProcess,Phase.held]

theorem stop_other (s : State) (p : ℕ) : ∀ q, q≠p → (s.stop p).process q=s.process q := by
  intro q hq
  simp [State.stop,State.setProcess,hq]

/-- A claim whose answer is lost strands what it claimed. -/
theorem Owned.strands_claim {s : State} (h : Owned s) {p : ℕ} {w : PyStr} {n : ℤ} {now : Time}
    {locked : List UUID} {claimed rows : List OutboxRow}
    (hc : claimOutboxEvents w n now locked s.outbox=.ok (claimed,rows))
    (hne : selected n now locked s.outbox≠[]) : ¬NoneStranded ({ s with outbox := rows }.stop p) := by
  intro hall
  obtain ⟨c,hc'⟩ := List.exists_mem_of_ne_nil _ hne
  have hmem : c.claimedBy w now ∈ rows := by
    rw [(claimOutboxEvents_eq_ok hc).2]
    refine mem_updateWhere.mpr ⟨c,(mem_selected hc').1,?_⟩
    rw [if_pos (decide_eq_true (List.mem_map_of_mem hc'))]
  have hk := hall _ hmem
  simp only [Kept,OutboxRow.claimedBy,reduceCtorEq,false_or,true_and] at hk
  obtain ⟨q,y,hy,hid⟩ := hk
  by_cases hq : q=p
  · rw [hq,stop_held] at hy
    cases hy
  · rw [stop_other _ p q hq] at hy
    obtain ⟨r,hr,hb⟩ := h.backed q y hy
    apply not_selected h.unique hr hb.spared
    exact List.mem_map.mpr ⟨c,hc',hid.symm.trans hb.1.symm⟩

/-- A step that is not orderly strands a row. -/
theorem strands_of_not_orderly {s t : State} {a : Action} (ho : Owned s) (bad : ¬Orderly s a)
    (ha : step s a=some t) : ¬NoneStranded t := by
  cases transition_of_step ha with
  | kill =>
    exact ho.strands (List.Sublist.refl _) bad (fun _ _ r hr _ => hr) (stop_held s _) (stop_other s _)
  | claimRaises hp hc =>
    simp only [Orderly,not_forall] at bad
    obtain ⟨hf,hlo,hhi,-⟩ := bad
    exfalso
    cases hc with
    | inl hb => rw [hf] at hb; cases hb
    | inr he =>
      obtain ⟨e,he⟩ := he
      unfold claimOutboxEvents at he
      split at he
      · omega
      · cases he
  | claimLost hp hc =>
    simp only [Orderly,not_forall] at bad
    obtain ⟨-,-,-,hne⟩ := bad
    exact ho.strands_claim hc hne
  | claimed => exact absurd (fun hf => nomatch hf) bad
  | reportFails hp hc =>
    rename_i p e es now clock error fault
    simp only [Orderly,hp] at bad
    have hset : ¬Settled s (e::es) := fun hset => bad (.inl hset)
    refine ho.strands ?_ hset (fun _ _ r hr _ => hr) (stop_held s p) (stop_other s p)
    rw [hp]
    exact List.Sublist.refl _
  | reportLost hp hc =>
    rename_i p e es now clock error rows
    simp only [Orderly,hp] at bad
    have hset : ¬Settled s es := fun hset => bad (.inr (.inl ⟨by simp,hset⟩))
    have hdist := ho.distinct p
    simp only [hp,Phase.held,List.map_cons,List.nodup_cons] at hdist
    refine ho.strands ?_ hset ?_ (stop_held _ p) (stop_other _ p)
    · rw [hp]
      exact List.sublist_cons_self e es
    · intro y hy r hr hid
      change r ∈ rows
      rw [(completeOutboxEvent_eq_ok hc).2]
      refine mem_updateWhere.mpr ⟨r,hr,?_⟩
      rw [if_neg]
      intro hheld
      apply hdist.1
      rw [← (of_decide_eq_true hheld).1,hid]
      exact List.mem_map_of_mem hy
  | reported hp hc =>
    rename_i p e es now clock error rows
    simp only [Orderly,hp] at bad
    exfalso
    apply bad
    refine .inr (.inr ⟨rfl,?_⟩)
    refine (ho.any_isHeldBy (p := p) ?_).mp (completeOutboxEvent_eq_ok hc).1
    rw [hp]
    exact List.mem_cons_self
  | _ => exact absurd trivial bad

/-- Along orderly runs no row is stranded; in the states they reach a step strands a row exactly
when it is not orderly, and an orderly end of a call leaves no row of it `publishing`. -/
theorem orderly_runs_strand_nothing {s : State} (h : system.Reach Orderly s) :
    NoneStranded s ∧
      (∀ a t, system.step s a=some t → (NoneStranded t ↔ Orderly s a)) ∧
      ∀ a t p, system.step s a=some t → Orderly s a → (t.process p).phase.held=[] →
        Settled t (s.process p).phase.held := by
  have ho : Owned s := owned_reachable h.reachable
  have hs : NoneStranded s := by
    induction h with
    | start h => exact noneStranded_initial h
    | next before ok h ih =>
      have hb := owned_reachable before.reachable
      exact noneStranded_step (ih hb) hb ok h
  refine ⟨hs,?_,?_⟩
  · intro a t ha
    refine ⟨fun ht => ?_,fun ok => noneStranded_step hs ho ok ha⟩
    by_contra bad
    exact strands_of_not_orderly ho bad ha ht
  · intro a t p ha ok hend e he r hr hid hpub
    have hk := noneStranded_step hs ho ok ha r hr
    simp only [Kept,hpub,reduceCtorEq,false_or,true_and] at hk
    obtain ⟨q,y,hy,hyid⟩ := hk
    have hp : a.process?=some p := by
      by_contra hne
      rw [step_other ha hne] at hend
      rw [hend] at he
      cases he
    by_cases hq : q=p
    · rw [hq,hend] at hy
      cases hy
    · have hne : a.process?≠some q := by
        rw [hp]
        exact fun heq => hq (Option.some.inj heq).symm
      rw [step_other ha hne] at hy
      exact ho.disjoint q p hq y hy e he (hyid.trans hid)

/-- One process claims both rows and delivers the first. -/
def deliverFirst : List Action :=
  [.start 0 [] 2,.claim 0 1 [] [(plainRow 1).claimedBy [] 1,(plainRow 2).claimedBy [] 1] .none,
    .produce 0 false,.accept 0 0,.flush 0 false]

/-- The run goes on: the first row is completed and so is the second. -/
theorem two_rows_completed :
    ∃ s, system.runIf Orderly twoRows (deliverFirst ++ [.complete 0 2 .none,.produce 0 false,
      .accept 0 0,.flush 0 false,.complete 0 3 .none])=some s ∧ NoneStranded s := by
  have hrun : (system.runIf Orderly twoRows (deliverFirst ++ [.complete 0 2 .none,.produce 0 false,
      .accept 0 0,.flush 0 false,.complete 0 3 .none])).isSome=true := by decide +kernel
  obtain ⟨s,hs⟩ := Option.isSome_iff_exists.mp hrun
  exact ⟨s,hs,(orderly_runs_strand_nothing (.runIf (.start twoRows_initial) hs)).1⟩

/-- The acknowledgement of the first completion is lost, the failure handler's own call then
raises, and the batch ends with the second row still `publishing`. -/
theorem lost_acknowledgement_strands :
    ¬∀ s, system.Reachable s → NoneStranded s := by
  intro hall
  have hrun : (system.run twoRows (deliverFirst ++ [.complete 0 2 .after])).any
      (fun s => decide (¬Orderly s (.report 0 3 3 [] .none)) &&
        (step s (.report 0 3 3 [] .none)).isSome)=true := by decide +kernel
  obtain ⟨s,hrun,hs⟩ := (Option.any_eq_true _ _).mp hrun
  simp only [Bool.and_eq_true,decide_eq_true_eq] at hs
  obtain ⟨t,ht⟩ := Option.isSome_iff_exists.mp hs.2
  have ht : system.step s (.report 0 3 3 [] .none)=some t := ht
  have hreach : system.Reachable s := System.reachable_of_run _ twoRows_initial hrun
  exact strands_of_not_orderly (owned_reachable hreach) hs.1 ht (hall t (.next hreach trivial ht))

end RagIngestion.Publisher
