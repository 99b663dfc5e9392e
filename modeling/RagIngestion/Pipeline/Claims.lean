import RagIngestion.Pipeline.Interleaving

/-! Two transactions that claim one event at the same time: the second waits for the first, and
finds the event claimed. -/
namespace RagIngestion.Pipeline
open RagIngestion.Python RagIngestion.Domain RagIngestion.Database RagIngestion.Library
open RagIngestion.Extractor (Raised raising raising_eq_ok)

/-- The event a consumer's transaction claims. -/
def Transaction.claim : Transaction → Option ProcessedEvent
  | .createSubmission .. => none
  | .process payload _ _ _ =>
    match UUID.ofText payload.tenantId, UUID.ofText payload.eventId with
    | .ok tenantId, .ok eventId => some ⟨tenantId,eventId,Fetcher.consumerName⟩
    | _, _ => none
  | .complete payload _ _ _ _ => (Extractor.payloadIds payload).toOption.map
      (fun ids => ⟨ids.tenantId,ids.eventId,Extractor.consumerName⟩)
  | .reject payload _ _ => (Extractor.payloadIds payload).toOption.map
      (fun ids => ⟨ids.tenantId,ids.eventId,Extractor.consumerName⟩)

/-- The statement by which `e` is claimed, and its answer. -/
def Claims (e : ProcessedEvent) : (s : Statement) → Answer s → Prop
  | .claimEvent x, claimed => x=e ∧ claimed=true
  | _, _ => False

section
variable {rt : Extractor.Runtime} {e : ProcessedEvent}

lemma unless_claim {f : Bool → Sql Bool} (h : (f false).Unless (Claims e) (·=false)) :
    Script.Unless (Claims e) (·=false) (sql (.claimEvent e) >>= f) := by
  refine Script.unless_execute fun (claimed : Bool) => ?_
  cases claimed with
  | true => exact .inl ⟨rfl,rfl⟩
  | false => exact .inr h

/-- The beginning that the two transactions of the extractor have in common. -/
lemma unless_extract {payload : DocumentFetched} {f : Extractor.Ids → Bool → Sql Bool}
    (h : (Extractor.payloadIds payload).toOption.map
      (fun ids => (⟨ids.tenantId,ids.eventId,Extractor.consumerName⟩ : ProcessedEvent))=some e)
    (hf : ∀ ids, (f ids false).Unless (Claims e) (·=false)) :
    Script.Unless (Claims e) (·=false) (call (Extractor.payloadIds payload) >>= fun ids =>
      sql (.setConfig ids.tenantId.str) >>= fun _ =>
      sql (.claimEvent ⟨ids.tenantId,ids.eventId,Extractor.consumerName⟩) >>= f ids) := by
  refine Script.unless_lift fun ids hids => ?_
  refine Script.unless_bind fun _ => ?_
  have hclaim : (⟨ids.tenantId,ids.eventId,Extractor.consumerName⟩ : ProcessedEvent)=e := by
    simpa [raising_eq_ok.mp hids,Except.toOption] using h
  subst hclaim
  exact unless_claim (hf ids)

/-- A consumer's transaction returns `False` unless it claims its event. -/
theorem Transaction.script_claims {t : Transaction} (h : t.claim=some e) :
    (t.script rt).Unless (Claims e) (·=false) := by
  cases t with
  | createSubmission => cases h
  | process payload inspection error draws =>
    refine Script.unless_lift fun tenantId ht => ?_
    refine Script.unless_bind fun documentId => ?_
    refine Script.unless_lift fun eventId he => ?_
    refine Script.unless_bind fun _ => ?_
    have hclaim : (⟨tenantId,eventId,Fetcher.consumerName⟩ : ProcessedEvent)=e := by
      simpa [Transaction.claim,raising_eq_ok.mp ht,raising_eq_ok.mp he] using h
    subst hclaim
    exact unless_claim rfl
  | complete => exact unless_extract h fun _ => rfl
  | reject => exact unless_extract h fun _ => rfl

end

section
variable {ws : List Write} {db : Db} {e : ProcessedEvent}

/-- The claims in view are those committed and those the transaction made. -/
lemma processedEvents_applyAll : e ∈ (engine.applyAll ws db).processedEvents ↔
    e ∈ db.processedEvents ∨ .processedEvent e ∈ ws := by
  induction ws generalizing db with
  | nil => simp
  | cons w ws ih =>
    rw [Engine.applyAll_cons,ih]
    change (e ∈ (w.apply db).processedEvents ∨ _) ↔ _
    cases w with
    | processedEvent x => simp [Write.apply,Write.onProcessedEvents,or_assoc]
    | _ => simp [Write.apply,Write.onProcessedEvents]

/-- Only an event that nobody has claimed yet can be claimed. -/
lemma unclaimed_of_exec {q : Statement} {r : Answer q} (h : q.exec db=.ok (r,ws))
    (he : .processedEvent e ∈ ws) : e ∉ db.processedEvents := by
  have hwrite := Statement.exec_writes h he
  cases q with
  | claimEvent x =>
    cases hwrite
    have hok := (exec_claimEvent _ _).symm.trans h
    split at hok
    · cases hok
    · split at hok
      · cases hok
        cases he
      · assumption
  | _ => cases hwrite

lemma claim_written {q : Statement} {r : Answer q} (h : q.exec db=.ok (r,ws)) (hr : Claims e q r) :
    .processedEvent e ∈ ws := by
  cases q with
  | claimEvent x =>
    obtain ⟨rfl,rfl⟩ := hr
    have hok := (exec_claimEvent _ _).symm.trans h
    split at hok
    · cases hok
    · split at hok
      · cases hok
      · cases hok
        exact List.mem_singleton_self _
  | _ => cases hr

end

/-- No two committed transactions returned `True` for one event. -/
def ClaimedOnce (history : List (Transaction × Bool)) : Prop :=
  history.Pairwise (fun x y => x.2=true → y.2=true → ∀ e, x.1.claim=some e → y.1.claim≠some e)

/-- What holds of the claims of interleaved transactions. -/
structure Claimed (s : Interleaved) : Prop where
  locked : Sessions.Locked engine.keys s
  once : ClaimedOnce s.history
  committed : ∀ x ∈ s.history, x.2=true → ∀ e, x.1.claim=some e → e ∈ s.committed.processedEvents
  /-- A transaction under way has claimed its event, or will return `False` if it does not. -/
  running : ∀ t x, s.running t=some x → ∀ e, x.label.claim=some e →
    .processedEvent e ∈ x.writes ∨ x.rest.Unless (Claims e) (·=false)
  fresh : ∀ t x, s.running t=some x → ∀ e, .processedEvent e ∈ x.writes →
    e ∉ s.committed.processedEvents

section
variable {rt : Extractor.Runtime} {db : Db} {s after : Interleaved} {t : ℕ}

lemma claimed_of_initial (h : Sessions.Initial db s) : Claimed s where
  locked := Sessions.locked_of_initial h
  once := by rw [h.2.1]; exact .nil
  committed x hx := by rw [h.2.1] at hx; cases hx
  running t x hx := by rw [h.2.2.2 t] at hx; cases hx
  fresh t x hx := by rw [h.2.2.2 t] at hx; cases hx

/-- A transaction that is given up leaves the claims of the others as they are. -/
lemma Claimed.finish (h : Claimed s) (hlocked : Sessions.Locked engine.keys (s.finish t)) :
    Claimed (s.finish t) where
  locked := hlocked
  once := h.once
  committed := h.committed
  running u y hy := h.running u y (Sessions.running_finish hy).2
  fresh u y hy := h.fresh u y (Sessions.running_finish hy).2

/-- A transaction begins without claims. -/
lemma Claimed.start {label : Transaction} (h : Claimed s) (hlocked : Sessions.Locked engine.keys
      { s with running := Function.update s.running t (some ⟨label,[],label.script rt⟩) }) :
    Claimed { s with running := Function.update s.running t (some ⟨label,[],label.script rt⟩) } := by
  refine ⟨hlocked,h.once,h.committed,?_,?_⟩
  · intro u y hy e he
    obtain ⟨-,hy⟩ | ⟨-,hy⟩ := Sessions.running_update hy
    · cases hy
      exact .inr (Transaction.script_claims he)
    · exact h.running u y hy e he
  · intro u y hy e he
    obtain ⟨-,hy⟩ | ⟨-,hy⟩ := Sessions.running_update hy
    · cases hy
      cases he
    · exact h.fresh u y hy e he

/-- A statement that claims the transaction's event adds the claim to its writes, and no statement
claims what is claimed already. -/
lemma Claimed.executed {x : Session Statement Answer Write Raised Bool Transaction} {q : Statement}
    {next : Answer q → Sql Bool} {r : Answer q} {ws : List Write} (h : Claimed s)
    (hx : s.running t=some x) (hr : x.rest=.statement q next) (hq : q.exec (s.view engine x)=.ok (r,ws))
    (hlocked : Sessions.Locked engine.keys (s.execute engine.keys t x ⟨q,r,ws⟩ (next r))) :
    Claimed (s.execute engine.keys t x ⟨q,r,ws⟩ (next r)) := by
  refine ⟨hlocked,h.once,h.committed,?_,?_⟩
  · intro u y hy e he
    obtain ⟨-,rfl⟩ | ⟨-,hy⟩ := Sessions.running_execute hy
    · rw [Sessions.Session.writes_execute,List.mem_append]
      obtain hclaimed | hrest := h.running t x hx e he
      · exact .inl (.inl hclaimed)
      · rw [hr] at hrest
        obtain hclaims | hnext := hrest r
        · exact .inl (.inr (claim_written hq hclaims))
        · exact .inr hnext
    · exact h.running u y hy e he
  · intro u y hy e he
    obtain ⟨-,rfl⟩ | ⟨-,hy⟩ := Sessions.running_execute hy
    · rw [Sessions.Session.writes_execute,List.mem_append] at he
      obtain he | he := he
      · exact h.fresh t x hx e he
      · intro hcommitted
        exact unclaimed_of_exec hq he (processedEvents_applyAll.mpr (.inl hcommitted))
    · exact h.fresh u y hy e he

/-- A transaction that returned `True` has written its claim. -/
lemma Claimed.claimed {x : Session Statement Answer Write Raised Bool Transaction} (h : Claimed s)
    (hx : s.running t=some x) (hr : x.rest=.done true) {e : ProcessedEvent}
    (he : x.label.claim=some e) : .processedEvent e ∈ x.writes := by
  obtain hclaimed | hrest := h.running t x hx e he
  · exact hclaimed
  · rw [hr] at hrest
    have hfalse : true=false := hrest
    cases hfalse

/-- The claim that a commit adds was nobody's, and the locks keep it from those under way. -/
lemma Claimed.commit {x : Session Statement Answer Write Raised Bool Transaction} {b : Bool}
    (h : Claimed s) (hx : s.running t=some x) (hr : x.rest=.done b)
    (hlocked : Sessions.Locked engine.keys
      ({ s with committed := s.view engine x, history := s.history ++ [(x.label,b)] }.finish t)) :
    Claimed ({ s with committed := s.view engine x, history := s.history ++ [(x.label,b)] }.finish t) := by
  have hclaim : b=true → ∀ e, x.label.claim=some e → .processedEvent e ∈ x.writes :=
    fun hb e he => h.claimed hx (hb ▸ hr) he
  refine ⟨hlocked,?_,?_,?_,?_⟩
  · refine List.pairwise_append.mpr ⟨h.once,List.pairwise_singleton _ _,?_⟩
    intro y hy z hz hyb hzb e hye hze
    rw [List.mem_singleton.mp hz] at hzb hze
    exact h.fresh t x hx e (hclaim hzb e hze) (h.committed y hy hyb e hye)
  · refine forall_mem_snoc ?_ ?_
    · intro y hy hyb e he
      exact processedEvents_applyAll.mpr (.inl (h.committed y hy hyb e he))
    · intro hb e he
      exact processedEvents_applyAll.mpr (.inr (hclaim hb e he))
  · intro u y hy
    exact h.running u y (Sessions.running_finish hy).2
  · intro u y hy e he hcommitted
    obtain ⟨hne,hy⟩ := Sessions.running_finish hy
    obtain hcommitted | hwritten := processedEvents_applyAll.mp hcommitted
    · exact h.fresh u y hy e he hcommitted
    · exact h.locked.apart hy hx hne he hwritten (List.mem_singleton_self _)
        (List.mem_singleton_self _)

theorem Claimed.step {a : SessionAction Transaction ℕ} (h : Claimed s)
    (ha : (interleaving rt db).step s a=some after) : Claimed after := by
  have hlocked := h.locked.step ha
  cases Sessions.transition_of_step ha with
  | start => exact h.start hlocked
  | executed hx hr hq => exact h.executed hx hr (raising_eq_ok.mp hq) hlocked
  | raised => exact h.finish hlocked
  | committed hx hr => exact h.commit hx hr hlocked
  | rolledBack => exact h.finish hlocked

theorem claimed_of_reachable (h : (interleaving rt db).Reachable s) : Claimed s :=
  h.invariant (fun _ hs => claimed_of_initial hs) (fun _ _ _ hs ha => hs.step ha)

/-- However the deliveries of an event are processed at the same time, at most one committed
transaction of each consumer returns `True` for it; the others return `False`. -/
theorem interleaved_claims_once (h : (interleaving rt db).Reachable s) :
    s.history.Pairwise (fun x y => x.2=true → y.2=true →
      ∀ e, x.1.claim=some e → y.1.claim≠some e) :=
  (claimed_of_reachable h).once

end

theorem fetched_twice_claims_once : ∃ s : Interleaved,
    (interleaving Extractor.plainRuntime (Db.empty [⟨1⟩])).Reachable s ∧
    s.history.map (·.2)=[true,true,false] ∧
    s.history.Pairwise (fun x y => x.2=true → y.2=true →
      ∀ e, x.1.claim=some e → y.1.claim≠some e) := by
  have hrun : ((interleaving Extractor.plainRuntime (Db.empty [⟨1⟩])).run oneTenant fetchedTwice).any
      (fun s => decide (s.history.map (·.2)=[true,true,false]))=true := by
    decide +kernel
  obtain ⟨s,hrun,hhistory⟩ := (Option.any_eq_true _ _).mp hrun
  have hreach := System.Reachable.run oneTenant_reach.reachable hrun
  exact ⟨s,hreach,of_decide_eq_true hhistory,interleaved_claims_once hreach⟩

end RagIngestion.Pipeline
