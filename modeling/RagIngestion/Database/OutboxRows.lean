import RagIngestion.Database.OutboxFunctions
import RagIngestion.Library.Runs

/-! The life of an outbox row: inserts, claims and completions by any workers in any order, each
one transaction, and what every row tells about the operations so far. -/
namespace RagIngestion.Database.OutboxRows
open RagIngestion.Python RagIngestion.Library

inductive Operation
  | insert (id : UUID) (event : OutboxEvent) (now : Time)
  | claim (workerName : PyStr) (batchSize : ℤ) (now : Time) (locked : List UUID)
  | complete (outboxId : UUID) (workerName : PyStr) (succeeded : Bool) (errorMessage : Option PyStr)
      (retryAt : Option Time) (now : Time)

/-- A statement that raises leaves the database as it was. -/
def step (db : Db) : Operation → Option Db
  | .insert id event now =>
    match db.insertOutbox id event now with
    | .ok after => some after
    | .error _ => some db
  | .claim workerName batchSize now locked =>
    match claimOutboxEvents workerName batchSize now locked db.outbox with
    | .ok (_,rows) => some { db with outbox := rows }
    | .error _ => some db
  | .complete outboxId workerName succeeded errorMessage retryAt now =>
    match completeOutboxEvent outboxId workerName succeeded errorMessage retryAt now db.outbox with
    | .ok rows => some { db with outbox := rows }
    | .error _ => some db

/-- Every row is as its insert left it. -/
def Initial (db : Db) : Prop :=
  (db.outbox.map (·.id)).Nodup ∧ ∀ r ∈ db.outbox, r=.inserted r.id r.event r.createdAt

def system : System Db Operation := ⟨Initial,step⟩

/-- The rows an operation returns to its worker. -/
def returned (x : Db × Operation) : List OutboxRow :=
  match x.2 with
  | .claim workerName batchSize now locked =>
    match claimOutboxEvents workerName batchSize now locked x.1.outbox with
    | .ok (claimed,_) => claimed
    | .error _ => []
  | _ => []

/-- The operation is a claim that returns the row. -/
def claims (id : UUID) (x : Db × Operation) : Bool := (returned x).any (fun r => r.id=id)

/-- The operation is a completion of the row that does not raise. -/
def completes (id : UUID) (x : Db × Operation) : Bool :=
  match x.2 with
  | .complete outboxId workerName _ _ _ _ =>
    decide (outboxId=id) && x.1.outbox.any (isHeldBy outboxId workerName)
  | _ => false

/-- What an operation does to a row. -/
inductive Change (db : Db) (op : Operation) (r : OutboxRow) : OutboxRow → Prop
  | untouched (hc : claims r.id (db,op)=false) (hd : completes r.id (db,op)=false) : Change db op r r
  | claimed {workerName batchSize now locked} (hop : op=.claim workerName batchSize now locked)
      (hc : claims r.id (db,op)=true) (hs : r.status=.pending ∨ r.status=.failed)
      (ha : r.availableAt ≤ now) : Change db op r (r.claimedBy workerName now)
  | completed {workerName succeeded errorMessage retryAt now}
      (hop : op=.complete r.id workerName succeeded errorMessage retryAt now)
      (hh : isHeldBy r.id workerName r=true) :
      Change db op r (r.completed succeeded errorMessage retryAt now)

/-- An operation changes the rows of the table one by one, and an insert adds one. -/
structure Changes (db : Db) (op : Operation) (after : Db) (change : OutboxRow → OutboxRow)
    (new : List OutboxRow) : Prop where
  rows : after.outbox=db.outbox.map change ++ new
  old : ∀ r ∈ db.outbox, Change db op r (change r)
  fresh : new=[] ∨ ∃ id event now, new=[.inserted id event now] ∧ ∀ r ∈ db.outbox, r.id≠id

lemma Change.id_eq {db : Db} {op : Operation} {r r' : OutboxRow} (h : Change db op r r') :
    r'.id=r.id := by
  cases h with
  | untouched => rfl
  | claimed => rfl
  | completed => rfl

lemma claims_claim {id : UUID} {db : Db} {workerName : PyStr} {batchSize : ℤ} {now : Time}
    {locked : List UUID} {claimed rows : List OutboxRow}
    (h : claimOutboxEvents workerName batchSize now locked db.outbox=.ok (claimed,rows)) :
    claims id (db,.claim workerName batchSize now locked)=true ↔
      id ∈ (selected batchSize now locked db.outbox).map (·.id) := by
  have hreturned : returned (db,.claim workerName batchSize now locked)=claimed := by
    simp only [returned,h]
  rw [claims,hreturned,(claimOutboxEvents_eq_ok h).1,List.any_eq_true]
  simp only [List.mem_map,decide_eq_true_eq]
  constructor
  · rintro ⟨r,⟨x,hx,rfl⟩,hid⟩
    exact ⟨x,hx,hid⟩
  · rintro ⟨x,hx,hid⟩
    exact ⟨_,⟨x,hx,rfl⟩,hid⟩

/-- A row with a returned id was there, waiting and due. -/
theorem claimed_row {id : UUID} {db : Db} {op : Operation} (h : claims id (db,op)=true) :
    ∃ r ∈ db.outbox, r.id=id ∧ (r.status=.pending ∨ r.status=.failed) := by
  cases op with
  | claim workerName batchSize now locked =>
    cases hc : claimOutboxEvents workerName batchSize now locked db.outbox with
    | error e => simp [claims,returned,hc] at h
    | ok result =>
      obtain ⟨claimed,rows⟩ := result
      obtain ⟨r,hr,hid⟩ := List.mem_map.mp ((claims_claim hc).mp h)
      exact ⟨r,(mem_selected hr).1,hid,(mem_selected hr).2.1⟩
  | _ => simp [claims,returned] at h

theorem changes_of_claim {db : Db} {workerName : PyStr} {batchSize : ℤ} {now : Time}
    {locked : List UUID} {claimed rows : List OutboxRow} (hids : (db.outbox.map (·.id)).Nodup)
    (h : claimOutboxEvents workerName batchSize now locked db.outbox=.ok (claimed,rows)) :
    Changes db (.claim workerName batchSize now locked) { db with outbox := rows }
      (fun r => if r.id ∈ (selected batchSize now locked db.outbox).map (·.id) then
        r.claimedBy workerName now else r) [] := by
  refine ⟨?_,?_,.inl rfl⟩
  · simp only [(claimOutboxEvents_eq_ok h).2,updateWhere,decide_eq_true_eq,List.append_nil]
  · intro r hr
    by_cases hc : r.id ∈ (selected batchSize now locked db.outbox).map (·.id)
    · obtain ⟨x,hx,hid⟩ := List.mem_map.mp hc
      have hsel := mem_selected hx
      have hxr := eq_of_key_eq hids hsel.1 hr hid
      subst hxr
      simp only [hc,if_true]
      exact .claimed rfl ((claims_claim h).mpr hc) hsel.2.1 hsel.2.2
    · simp only [hc,if_false]
      exact .untouched (Bool.eq_false_iff.mpr (fun hcl => hc ((claims_claim h).mp hcl))) rfl

theorem changes_of_complete {db : Db} {outboxId : UUID} {workerName : PyStr} {succeeded : Bool}
    {errorMessage : Option PyStr} {retryAt : Option Time} {now : Time} {rows : List OutboxRow}
    (h : completeOutboxEvent outboxId workerName succeeded errorMessage retryAt now db.outbox=.ok rows)
    (hids : (db.outbox.map (·.id)).Nodup) :
    Changes db (.complete outboxId workerName succeeded errorMessage retryAt now)
      { db with outbox := rows } (fun r => if isHeldBy outboxId workerName r then
        r.completed succeeded errorMessage retryAt now else r) [] := by
  obtain ⟨hany,hrows⟩ := completeOutboxEvent_eq_ok h
  refine ⟨?_,?_,.inl rfl⟩
  · simp only [hrows,updateWhere,List.append_nil]
  · intro r hr
    by_cases hh : isHeldBy outboxId workerName r=true
    · have hid : r.id=outboxId := (of_decide_eq_true hh).1
      subst hid
      simp only [hh,if_true]
      exact .completed rfl hh
    · simp only [hh]
      refine .untouched rfl ?_
      simp only [completes,Bool.and_eq_false_iff,decide_eq_false_iff_not]
      left
      rintro rfl
      obtain ⟨x,hx,hheld⟩ := List.any_eq_true.mp hany
      have hxr := eq_of_key_eq hids hx hr (of_decide_eq_true hheld).1
      exact hh (hxr ▸ hheld)

lemma Changes.none {db : Db} {op : Operation} (h : ∀ r ∈ db.outbox, claims r.id (db,op)=false ∧
    completes r.id (db,op)=false) : Changes db op db id [] := by
  refine ⟨by simp,?_,.inl rfl⟩
  intro r hr
  exact .untouched (h r hr).1 (h r hr).2

theorem changes_of_step {db after : Db} {op : Operation} (hids : (db.outbox.map (·.id)).Nodup)
    (h : step db op=some after) : ∃ change new, Changes db op after change new := by
  cases op with
  | insert id event now =>
    simp only [step] at h
    split at h
    · rename_i hins
      cases h
      obtain ⟨⟨-,hfresh⟩,rfl⟩ := Db.insertOutbox_eq_ok hins
      refine ⟨(fun r => r),[.inserted id event now],by simp,?_,?_⟩
      · exact fun r _ => .untouched rfl rfl
      · exact .inr ⟨id,event,now,rfl,fun r hr => (hfresh r hr).1⟩
    · cases h
      exact ⟨_,_,.none fun _ _ => ⟨rfl,rfl⟩⟩
  | claim workerName batchSize now locked =>
    simp only [step] at h
    split at h
    · cases h
      exact ⟨_,_,changes_of_claim hids ‹_›⟩
    · rename_i e he
      cases h
      refine ⟨_,_,.none fun r _ => ⟨?_,rfl⟩⟩
      simp [claims,returned,he]
  | complete outboxId workerName succeeded errorMessage retryAt now =>
    simp only [step] at h
    split at h
    · cases h
      exact ⟨_,_,changes_of_complete ‹_› hids⟩
    · rename_i e he
      cases h
      refine ⟨_,_,.none fun r _ => ⟨rfl,?_⟩⟩
      simp [completes,any_isHeldBy_eq_false he]

/-- What a row tells about the operations so far. -/
structure Consistent (history : List (Db × Operation)) (r : OutboxRow) : Prop where
  locked : r.status=.publishing → r.lockedBy.isSome=true ∧ r.lockedAt.isSome=true
  unlocked : r.status≠.publishing → r.lockedBy=none ∧ r.lockedAt=none
  published : r.publishedAt.isSome=true ↔ r.status=.published
  attempts : r.attemptCount=history.countP (claims r.id)

/-- Every row is consistent; a row that was claimed and not completed since is still publishing. -/
structure Kept (history : List (Db × Operation)) (db : Db) : Prop where
  ids : (db.outbox.map (·.id)).Nodup
  rows : ∀ r ∈ db.outbox, Consistent history r
  known : ∀ x ∈ history, ∀ id, claims id x=true → ∃ r ∈ db.outbox, r.id=id
  held : ∀ before x after id, history=before ++ x::after → claims id x=true →
    (∀ y ∈ after, completes id y=false) → ∃ r ∈ db.outbox, r.id=id ∧ r.status=.publishing

theorem consistent_inserted {history : List (Db × Operation)} {id : UUID} {event : OutboxEvent}
    {now : Time} (h : ∀ x ∈ history, claims id x=false) :
    Consistent history (.inserted id event now) := by
  refine ⟨(fun hs => nomatch hs),fun _ => ⟨rfl,rfl⟩,by simp [OutboxRow.inserted],?_⟩
  have hcount : history.countP (claims id)=0 :=
    List.countP_eq_zero.mpr (fun x hx => by simp [h x hx])
  exact hcount.symm

theorem Consistent.change {history : List (Db × Operation)} {db : Db} {op : Operation}
    {r r' : OutboxRow} (h : Consistent history r) (hc : Change db op r r') :
    Consistent (history ++ [(db,op)]) r' := by
  cases hc with
  | untouched hcl hd =>
    exact ⟨h.locked,h.unlocked,h.published,by simp [h.attempts,hcl]⟩
  | claimed hop hcl hs ha =>
    refine ⟨fun _ => ⟨rfl,rfl⟩,fun hne => absurd rfl hne,?_,?_⟩
    · have hnot : r.status≠.published := by
        obtain hs | hs := hs
        · simp [hs]
        · simp [hs]
      have hnone := mt h.published.mp hnot
      simpa [OutboxRow.claimedBy] using hnone
    · have hid : ∀ w now, (r.claimedBy w now).id=r.id := fun _ _ => rfl
      rw [hid,List.countP_append,← h.attempts]
      simp [hcl,OutboxRow.claimedBy]
  | completed hop hh =>
    rename_i workerName succeeded errorMessage retryAt now
    have hcl : claims r.id (db,op)=false := by
      rw [hop]
      rfl
    refine ⟨?_,fun _ => ⟨rfl,rfl⟩,?_,?_⟩
    · cases succeeded <;> exact fun hs => nomatch hs
    · cases succeeded <;> simp [OutboxRow.completed]
    · have hid : (r.completed succeeded errorMessage retryAt now).id=r.id := rfl
      rw [hid,List.countP_append,← h.attempts]
      simp [hcl,OutboxRow.completed]

/-- Rows stay in the table. -/
theorem Changes.id_mem {db after : Db} {op : Operation} {change : OutboxRow → OutboxRow}
    {new : List OutboxRow} (h : Changes db op after change new) {r : OutboxRow} (hr : r ∈ db.outbox) :
    ∃ r' ∈ after.outbox, r'.id=r.id := by
  refine ⟨change r,?_,(h.old r hr).id_eq⟩
  rw [h.rows]
  exact List.mem_append_left _ (List.mem_map_of_mem hr)

theorem Changes.ids_nodup {db after : Db} {op : Operation} {change : OutboxRow → OutboxRow}
    {new : List OutboxRow} (h : Changes db op after change new)
    (hids : (db.outbox.map (·.id)).Nodup) : (after.outbox.map (·.id)).Nodup := by
  have hold : (db.outbox.map change).map (·.id)=db.outbox.map (·.id) := by
    rw [List.map_map]
    apply List.map_congr_left
    intro r hr
    exact (h.old r hr).id_eq
  obtain hnew | ⟨id,event,now,hnew,hfresh⟩ := h.fresh
  · rw [h.rows,hnew,List.append_nil,hold]
    exact hids
  · rw [h.rows,hnew]
    apply nodup_map_append_singleton (hold ▸ hids)
    intro r hr
    obtain ⟨x,hx,rfl⟩ := List.mem_map.mp hr
    rw [(h.old x hx).id_eq]
    exact hfresh x hx

/-- A row that is publishing stays so until it is completed. -/
theorem Change.publishing {db : Db} {op : Operation} {r r' : OutboxRow} (h : Change db op r r')
    (hr : r ∈ db.outbox) (hs : r.status=.publishing) (hd : completes r.id (db,op)=false) :
    r'.status=.publishing := by
  cases h with
  | untouched => exact hs
  | claimed => rfl
  | completed hop hh =>
    rw [hop] at hd
    simp only [completes,decide_true,Bool.true_and] at hd
    rw [List.any_eq_true.mpr ⟨r,hr,hh⟩] at hd
    cases hd

theorem kept_step {history : List (Db × Operation)} {db after : Db} {op : Operation}
    (h : Kept history db) (hstep : step db op=some after) : Kept (history ++ [(db,op)]) after := by
  obtain ⟨change,new,hc⟩ := changes_of_step h.ids hstep
  refine ⟨hc.ids_nodup h.ids,?_,?_,?_⟩
  · intro r hr
    rw [hc.rows] at hr
    cases List.mem_append.mp hr with
    | inl hr =>
      obtain ⟨x,hx,rfl⟩ := List.mem_map.mp hr
      exact (h.rows x hx).change (hc.old x hx)
    | inr hr =>
      obtain hnew | ⟨id,event,now,hnew,hfresh⟩ := hc.fresh
      · rw [hnew] at hr
        cases hr
      · rw [hnew,List.mem_singleton] at hr
        subst hr
        apply consistent_inserted
        intro x hx
        rw [Bool.eq_false_iff]
        intro hcl
        have hold : ∃ r ∈ db.outbox, r.id=id := by
          cases List.mem_append.mp hx with
          | inl hx => exact h.known x hx id hcl
          | inr hx =>
            cases List.mem_singleton.mp hx
            obtain ⟨r,hr,hid,-⟩ := claimed_row hcl
            exact ⟨r,hr,hid⟩
        obtain ⟨r,hr,hid⟩ := hold
        exact hfresh r hr hid
  · intro x hx id hcl
    have hold : ∃ r ∈ db.outbox, r.id=id := by
      cases List.mem_append.mp hx with
      | inl hx => exact h.known x hx id hcl
      | inr hx =>
        cases List.mem_singleton.mp hx
        obtain ⟨r,hr,hid,-⟩ := claimed_row hcl
        exact ⟨r,hr,hid⟩
    obtain ⟨r,hr,rfl⟩ := hold
    exact hc.id_mem hr
  · intro before x rest id hsplit hcl hopen
    cases rest using List.reverseRecOn with
    | nil =>
      -- the last operation is the claim itself
      have hlast := List.append_inj_right' hsplit rfl
      cases hlast
      obtain ⟨r,hr,hid,-⟩ := claimed_row hcl
      refine ⟨change r,?_,(hc.old r hr).id_eq.trans hid,?_⟩
      · rw [hc.rows]
        exact List.mem_append_left _ (List.mem_map_of_mem hr)
      · have hchange := hc.old r hr
        generalize change r=r' at hchange
        subst hid
        cases hchange with
        | untouched hno => rw [hno] at hcl; cases hcl
        | claimed => rfl
        | completed hop => rw [hop] at hcl; cases hcl
    | append_singleton rest y =>
      have hsplit' : history ++ [(db,op)]=(before ++ x::rest) ++ [y] := by simpa using hsplit
      obtain ⟨hhistory,hy⟩ := List.append_inj' hsplit' rfl
      cases hy
      obtain ⟨r,hr,rfl,hs⟩ := h.held before x rest id hhistory hcl
        (fun z hz => hopen z (List.mem_append_left _ hz))
      have hd := hopen (db,op) (List.mem_append_right _ (List.mem_singleton_self _))
      refine ⟨change r,?_,(hc.old r hr).id_eq,(hc.old r hr).publishing hr hs hd⟩
      rw [hc.rows]
      exact List.mem_append_left _ (List.mem_map_of_mem hr)

theorem kept_initial {db : Db} (h : Initial db) : Kept [] db := by
  refine ⟨h.1,?_,?_,?_⟩
  · intro r hr
    rw [h.2 r hr]
    exact consistent_inserted (fun x hx => absurd hx List.not_mem_nil)
  · exact fun x hx => absurd hx List.not_mem_nil
  · intro before x after id hsplit
    simp at hsplit

theorem kept_traced {history : List (Db × Operation)} {db : Db} (h : system.Traced history db) :
    Kept history db :=
  h.invariant (fun _ => kept_initial) (fun _ _ _ _ hs ha => kept_step hs ha)

/-- No operation changes a published row. -/
theorem published_stays {db after : Db} {op : Operation} {r : OutboxRow}
    (hids : (db.outbox.map (·.id)).Nodup) (hr : r ∈ db.outbox) (hs : r.status=.published)
    (h : step db op=some after) : r ∈ after.outbox := by
  obtain ⟨change,new,hc⟩ := changes_of_step hids h
  have hchange := hc.old r hr
  have hsame : change r=r := by
    generalize change r=r' at hchange
    cases hchange with
    | untouched => rfl
    | claimed _ _ hwaiting => simp [hs] at hwaiting
    | completed _ hh => simp [isHeldBy,hs] at hh
  rw [hc.rows]
  exact List.mem_append_left _ (List.mem_map.mpr ⟨r,hr,hsame⟩)

theorem published_terminal {history : List (Db × Operation)} {db : Db}
    (h : system.Traced history db) {x : Db × Operation} (hx : x ∈ history) {r : OutboxRow}
    (hr : r ∈ x.1.outbox) (hs : r.status=.published) : r ∈ db.outbox := by
  obtain ⟨before,-,hpast⟩ := h.past hx
  have hkept : r ∈ db.outbox ∧ (db.outbox.map (·.id)).Nodup := by
    refine h.kept (P := fun db => r ∈ db.outbox ∧ (db.outbox.map (·.id)).Nodup) ?_ hx
      ⟨hr,(kept_traced hpast).ids⟩
    intro db op after hdb hstep
    obtain ⟨change,new,hc⟩ := changes_of_step hdb.2 hstep
    exact ⟨published_stays hdb.2 hdb.1 hs hstep,hc.ids_nodup hdb.2⟩
  exact hkept.1

/-- Between two claims of a row there is a completion of it. -/
theorem claims_exclusive {history : List (Db × Operation)} {db : Db} (h : system.Traced history db)
    {before middle after : List (Db × Operation)} {x y : Db × Operation} {id : UUID}
    (hsplit : history=before ++ x::(middle ++ y::after)) (hx : claims id x=true)
    (hy : claims id y=true) : ∃ z ∈ middle, completes id z=true := by
  induction h generalizing after with
  | start => simp at hsplit
  | @next history db op _ hpast hstep ih =>
    cases after using List.reverseRecOn with
    | nil =>
      have hsplit' : history ++ [(db,op)]=(before ++ x::middle) ++ [y] := by simpa using hsplit
      obtain ⟨hhistory,hlast⟩ := List.append_inj' hsplit' rfl
      cases hlast
      by_contra hnone
      simp only [not_exists,not_and,Bool.not_eq_true] at hnone
      -- the row is still publishing, and only waiting rows are claimed
      obtain ⟨r,hr,hid,hs⟩ := (kept_traced hpast).held before x middle id hhistory hx hnone
      obtain ⟨r',hr',hid',hwaiting⟩ := claimed_row hy
      have hsame := eq_of_key_eq (kept_traced hpast).ids hr hr' (hid.trans hid'.symm)
      subst hsame
      simp [hs] at hwaiting
    | append_singleton after z =>
      have hsplit' : history ++ [(db,op)]=(before ++ x::(middle ++ y::after)) ++ [z] := by
        simpa using hsplit
      exact ih (List.append_inj' hsplit' rfl).1

theorem returned_available {db : Db} {workerName : PyStr} {batchSize : ℤ} {now : Time}
    {locked : List UUID} {r : OutboxRow}
    (hr : r ∈ returned (db,.claim workerName batchSize now locked)) : r.availableAt ≤ now := by
  simp only [returned] at hr
  split at hr
  · rename_i claimed rows hc
    rw [(claimOutboxEvents_eq_ok hc).1] at hr
    obtain ⟨x,hx,rfl⟩ := List.mem_map.mp hr
    exact (mem_selected hx).2.2
  · cases hr

/-- A completion of a row that is not publishing under that name raises. -/
theorem complete_raises {db : Db} {outboxId : UUID} {workerName : PyStr} (succeeded : Bool)
    (errorMessage : Option PyStr) (retryAt : Option Time) (now : Time)
    (h : ∀ r ∈ db.outbox, ¬(r.id=outboxId ∧ r.status=.publishing ∧ r.lockedBy=some workerName)) :
    completeOutboxEvent outboxId workerName succeeded errorMessage retryAt now db.outbox=
        .error .databaseError ∧
      step db (.complete outboxId workerName succeeded errorMessage retryAt now)=some db := by
  have hnone : ¬db.outbox.any (isHeldBy outboxId workerName)=true := by
    intro hany
    obtain ⟨r,hr,hh⟩ := List.any_eq_true.mp hany
    exact h r hr (of_decide_eq_true hh)
  have hraises : completeOutboxEvent outboxId workerName succeeded errorMessage retryAt now db.outbox=
      .error .databaseError := if_neg hnone
  exact ⟨hraises,by simp only [step,hraises]⟩

/-- In every interleaving every row tells its lock, its publication and the number of its claims;
published rows stay as they are; two claims of a row have a completion between them; claims return
only rows that are due; and completions of rows held under no or another name raise. -/
theorem outbox_rows_consistent {history : List (Db × Operation)} {db : Db}
    (h : system.Traced history db) :
    (∀ r ∈ db.outbox, Consistent history r) ∧
      (∀ x ∈ history, ∀ r ∈ x.1.outbox, r.status=.published → r ∈ db.outbox) ∧
      (∀ before x middle y after id, history=before ++ x::(middle ++ y::after) →
        claims id x=true → claims id y=true → ∃ z ∈ middle, completes id z=true) ∧
      (∀ workerName batchSize now locked,
        ∀ r ∈ returned (db,.claim workerName batchSize now locked), r.availableAt ≤ now) ∧
      ∀ outboxId workerName succeeded errorMessage retryAt now,
        (∀ r ∈ db.outbox, ¬(r.id=outboxId ∧ r.status=.publishing ∧ r.lockedBy=some workerName)) →
        completeOutboxEvent outboxId workerName succeeded errorMessage retryAt now db.outbox=
            .error .databaseError ∧
          step db (.complete outboxId workerName succeeded errorMessage retryAt now)=some db := by
  refine ⟨(kept_traced h).rows,?_,?_,?_,?_⟩
  · exact fun x hx r hr hs => published_terminal h hx hr hs
  · exact fun before x middle y after id hsplit hx hy => claims_exclusive h hsplit hx hy
  · exact fun workerName batchSize now locked r hr => returned_available hr
  · exact fun outboxId workerName succeeded errorMessage retryAt now hnot =>
      complete_raises succeeded errorMessage retryAt now hnot

/-- An event of the tenant with UUID 1. -/
def firstEvent : OutboxEvent where
  tenantId := ⟨1⟩
  eventId := ⟨4⟩
  aggregateType := py "document"
  aggregateId := ⟨2⟩
  eventType := py "DocumentSubmitted"
  kafkaTopic := Domain.documentSubmittedTopic
  eventContractNamespace := py "rag.ingestion.v1"
  eventSchemaName := py "document-submitted"
  payload := .documentSubmitted (Domain.buildDocumentSubmittedEvent ⟨4⟩ [] ⟨1⟩ ⟨2⟩ [] none)
  headers := []

/-- A row that fails once and is published at the second claim. -/
theorem row_published_at_second_claim :
    ∃ history db, system.Traced history db ∧
      (∃ r ∈ db.outbox, r.status=.published ∧ r.attemptCount=2) ∧
      ∀ r ∈ db.outbox, Consistent history r := by
  have hrun : (system.run (Db.empty [⟨1⟩]) [.insert ⟨5⟩ firstEvent 0,.claim [] 10 0 [],
      .complete ⟨5⟩ [] false none (some 3) 1,.claim [] 10 3 [],
      .complete ⟨5⟩ [] true none none 4]).any (fun db => db.outbox.any (fun r =>
        r.status=.published ∧ r.attemptCount=2))=true := by decide +kernel
  obtain ⟨db,hrun,hpublished⟩ := (Option.any_eq_true _ _).mp hrun
  simp only [List.any_eq_true,decide_eq_true_eq] at hpublished
  have hstart : system.Traced [] (Db.empty [⟨1⟩]) :=
    .start ⟨List.nodup_nil,fun r hr => absurd hr List.not_mem_nil⟩
  obtain ⟨history,htraced⟩ := hstart.run hrun
  exact ⟨_,db,htraced,hpublished,(outbox_rows_consistent htraced).1⟩

end RagIngestion.Database.OutboxRows
