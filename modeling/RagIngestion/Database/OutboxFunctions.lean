import RagIngestion.Database.Schema
import Mathlib.Data.List.Sort

/-! The security-definer functions of migration 002 over the outbox table. -/
namespace RagIngestion.Database
open RagIngestion.Python RagIngestion.Library

/-- The order in which rows are claimed. -/
def claimsBefore (a b : OutboxRow) : Prop :=
  a.availableAt<b.availableAt ∨ (a.availableAt=b.availableAt ∧ a.createdAt ≤ b.createdAt)

instance (a b : OutboxRow) : Decidable (claimsBefore a b) := inferInstanceAs (Decidable (_ ∨ _))

/-- Rows the common table expression of a claim may lock; `locked` are the rows other
transactions hold, which are skipped. -/
def claimable (now : Time) (locked : List UUID) (rows : List OutboxRow) : List OutboxRow :=
  rows.filter (fun r => (r.status=.pending ∨ r.status=.failed) ∧ r.availableAt ≤ now ∧ r.id ∉ locked)

/-- The claimed rows, before their update. -/
def selected (batchSize : ℤ) (now : Time) (locked : List UUID) (rows : List OutboxRow) :
    List OutboxRow :=
  ((claimable now locked rows).insertionSort claimsBefore).take batchSize.toNat

def OutboxRow.claimedBy (workerName : PyStr) (now : Time) (r : OutboxRow) : OutboxRow :=
  { r with
    status := .publishing
    lockedAt := some now
    lockedBy := some workerName
    attemptCount := r.attemptCount+1 }

/-- `rag.claim_outbox_events`: the returned rows and the table after the claim. -/
def claimOutboxEvents (workerName : PyStr) (batchSize : ℤ) (now : Time) (locked : List UUID)
    (rows : List OutboxRow) : Except PyError (List OutboxRow × List OutboxRow) :=
  if batchSize<1 ∨ 1000<batchSize then .error .databaseError
  else
    let chosen := selected batchSize now locked rows
    .ok (chosen.map (·.claimedBy workerName now),
      updateWhere (fun r => r.id ∈ chosen.map (·.id)) (·.claimedBy workerName now) rows)

/-- The row a completion updates. -/
def isHeldBy (outboxId : UUID) (workerName : PyStr) (r : OutboxRow) : Bool :=
  decide (r.id=outboxId ∧ r.status=.publishing ∧ r.lockedBy=some workerName)

def OutboxRow.completed (succeeded : Bool) (errorMessage : Option PyStr) (retryAt : Option Time)
    (now : Time) (r : OutboxRow) : OutboxRow :=
  { r with
    status := if succeeded then .published else .failed
    publishedAt := if succeeded then some now else none
    availableAt := retryAt.getD r.availableAt
    lastError := if succeeded then none else errorMessage
    lockedAt := none
    lockedBy := none }

/-- `rag.complete_outbox_event`. -/
def completeOutboxEvent (outboxId : UUID) (workerName : PyStr) (succeeded : Bool)
    (errorMessage : Option PyStr) (retryAt : Option Time) (now : Time) (rows : List OutboxRow) :
    Except PyError (List OutboxRow) :=
  if rows.any (isHeldBy outboxId workerName) then
    .ok (updateWhere (isHeldBy outboxId workerName) (·.completed succeeded errorMessage retryAt now) rows)
  else .error .databaseError

/-- A completion raises only when the row is not held under that name. -/
theorem any_isHeldBy_eq_false {outboxId : UUID} {workerName : PyStr} {succeeded : Bool}
    {errorMessage : Option PyStr} {retryAt : Option Time} {now : Time} {rows : List OutboxRow}
    {e : PyError}
    (h : completeOutboxEvent outboxId workerName succeeded errorMessage retryAt now rows=.error e) :
    rows.any (isHeldBy outboxId workerName)=false := by
  unfold completeOutboxEvent at h
  split at h
  · cases h
  · exact Bool.eq_false_iff.mpr ‹_›

/-- A completion updates exactly the rows held under that name, of which there is one. -/
theorem completeOutboxEvent_eq_ok {outboxId : UUID} {workerName : PyStr} {succeeded : Bool}
    {errorMessage : Option PyStr} {retryAt : Option Time} {now : Time} {rows after : List OutboxRow}
    (h : completeOutboxEvent outboxId workerName succeeded errorMessage retryAt now rows=.ok after) :
    rows.any (isHeldBy outboxId workerName)=true ∧
      after=updateWhere (isHeldBy outboxId workerName)
        (·.completed succeeded errorMessage retryAt now) rows := by
  unfold completeOutboxEvent at h
  split at h
  · cases h; exact ⟨‹_›,rfl⟩
  · cases h

theorem claimOutboxEvents_eq_ok {workerName : PyStr} {batchSize : ℤ} {now : Time}
    {locked : List UUID} {rows claimed after : List OutboxRow}
    (h : claimOutboxEvents workerName batchSize now locked rows=.ok (claimed,after)) :
    claimed=(selected batchSize now locked rows).map (·.claimedBy workerName now) ∧
      after=updateWhere (fun r => r.id ∈ (selected batchSize now locked rows).map (·.id))
        (·.claimedBy workerName now) rows := by
  unfold claimOutboxEvents at h
  split at h
  · cases h
  · cases h; exact ⟨rfl,rfl⟩

/-- Neither function changes the id column or the columns of the event. -/
theorem claimOutboxEvents_ids {workerName : PyStr} {batchSize : ℤ} {now : Time}
    {locked : List UUID} {rows claimed after : List OutboxRow}
    (h : claimOutboxEvents workerName batchSize now locked rows=.ok (claimed,after)) :
    after.map (·.id)=rows.map (·.id) := by
  rw [(claimOutboxEvents_eq_ok h).2]
  apply map_updateWhere
  intro r _
  rfl

theorem claimOutboxEvents_events {workerName : PyStr} {batchSize : ℤ} {now : Time}
    {locked : List UUID} {rows claimed after : List OutboxRow}
    (h : claimOutboxEvents workerName batchSize now locked rows=.ok (claimed,after)) :
    after.map (·.event)=rows.map (·.event) := by
  rw [(claimOutboxEvents_eq_ok h).2]
  apply map_updateWhere
  intro r _
  rfl

theorem completeOutboxEvent_ids {outboxId : UUID} {workerName : PyStr} {succeeded : Bool}
    {errorMessage : Option PyStr} {retryAt : Option Time} {now : Time} {rows after : List OutboxRow}
    (h : completeOutboxEvent outboxId workerName succeeded errorMessage retryAt now rows=.ok after) :
    after.map (·.id)=rows.map (·.id) := by
  rw [(completeOutboxEvent_eq_ok h).2]
  apply map_updateWhere
  intro r _
  rfl

theorem completeOutboxEvent_events {outboxId : UUID} {workerName : PyStr} {succeeded : Bool}
    {errorMessage : Option PyStr} {retryAt : Option Time} {now : Time} {rows after : List OutboxRow}
    (h : completeOutboxEvent outboxId workerName succeeded errorMessage retryAt now rows=.ok after) :
    after.map (·.event)=rows.map (·.event) := by
  rw [(completeOutboxEvent_eq_ok h).2]
  apply map_updateWhere
  intro r _
  rfl

/-- The row a completion was called for has the status it was called with. -/
theorem completeOutboxEvent_status {outboxId : UUID} {workerName : PyStr} {succeeded : Bool}
    {errorMessage : Option PyStr} {retryAt : Option Time} {now : Time} {rows after : List OutboxRow}
    (hids : (rows.map (·.id)).Nodup)
    (h : completeOutboxEvent outboxId workerName succeeded errorMessage retryAt now rows=.ok after)
    {r : OutboxRow} (hr : r ∈ after) (hid : r.id=outboxId) :
    r.status=if succeeded then .published else .failed := by
  obtain ⟨hany,rfl⟩ := completeOutboxEvent_eq_ok h
  obtain ⟨x,hx,hheld⟩ := List.any_eq_true.mp hany
  obtain ⟨y,hy,rfl⟩ := mem_updateWhere.mp hr
  have hyid : y.id=outboxId := by
    rw [← hid]
    split <;> rfl
  have hsame : y=x := eq_of_key_eq hids hy hx (hyid.trans (of_decide_eq_true hheld).1.symm)
  rw [hsame,if_pos hheld]
  rfl

theorem mem_selected {batchSize : ℤ} {now : Time} {locked : List UUID} {rows : List OutboxRow}
    {r : OutboxRow} (h : r ∈ selected batchSize now locked rows) :
    r ∈ rows ∧ (r.status=.pending ∨ r.status=.failed) ∧ r.availableAt ≤ now := by
  have hr : r ∈ claimable now locked rows :=
    (List.mem_insertionSort claimsBefore).mp (List.mem_of_mem_take h)
  simp only [claimable,List.mem_filter,decide_eq_true_eq] at hr
  exact ⟨hr.1,hr.2.1,hr.2.2.1⟩

/-- A claim hands out each row once. -/
theorem selected_ids_nodup {batchSize : ℤ} {now : Time} {locked : List UUID} {rows : List OutboxRow}
    (h : (rows.map (·.id)).Nodup) : ((selected batchSize now locked rows).map (·.id)).Nodup := by
  have hc : ((claimable now locked rows).map (·.id)).Nodup :=
    h.sublist (List.filter_sublist.map _)
  have hp : ((claimable now locked rows).insertionSort claimsBefore).Perm (claimable now locked rows) :=
    List.perm_insertionSort _ _
  exact ((hp.map _).nodup_iff.mpr hc).sublist ((List.take_sublist _ _).map _)

end RagIngestion.Database
