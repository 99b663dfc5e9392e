import RagIngestion.Fetcher.Repository
import RagIngestion.Submission.Api

/-! One call of `DocumentFetcher.handle`, step by step, over the source bucket and the database. -/
namespace RagIngestion.Fetcher
open RagIngestion.Python RagIngestion.Domain RagIngestion.Database RagIngestion.Storage
open RagIngestion.Library RagIngestion.Submission

/-- Where a call stands. -/
inductive Task
  | idle
  | started (payload : DocumentSubmitted)
  | opened (payload : DocumentSubmitted) (body : Bytes)
  | processing (payload : DocumentSubmitted) (inspection : Option SourceInspection)
      (error : Option FetchValidationError)
  | returned (payload : DocumentSubmitted) (processed : Bool)
  | raised (payload : DocumentSubmitted)

/-- The payload of a call that has not ended. -/
def Task.active : Task → Option DocumentSubmitted
  | .started p => some p
  | .opened p _ => some p
  | .processing p _ _ => some p
  | _ => none

/-- The payload a call was made with. -/
def Task.payload : Task → Option DocumentSubmitted
  | .returned p _ => some p
  | .raised p => some p
  | task => task.active

inductive Action
  | deliver (payload : DocumentSubmitted)
  /-- The check of the event type and `SourceObjectStore.get`. -/
  | get (fault : Fault)
  /-- `inspect_pdf` over the opened body. -/
  | inspect (read : Reader Bytes) (pdfReader : Bytes → PdfAnswer)
  /-- `DocumentFetcherRepository.process`. -/
  | process (draws : Draws) (fault : Fault)
  /-- The call is cancelled, its process is killed, or it raises for another reason. -/
  | abandon

section
variable (sha256 : Bytes → Digest) (bucket : BucketName) (maxDocumentBytes : ℕ)

/-- The database after the action, and the call's next state. -/
def step (source : PyStr → Option StoredObject) (db : Db) (task : Task) : Action → Option (Db × Task)
  | .deliver payload =>
    match task with
    | .idle => some (db,.started payload)
    | _ => none
  | .get fault =>
    match task with
    | .started p =>
      if p.eventType≠py "DocumentSubmitted" then
        some (db,.processing p none (some unexpectedEventType))
      else
        match fault, getObject bucket source p.payloadUri with
        | .none, .ok o => some (db,.opened p o.body)
        | _, _ => some (db,.raised p)
    | _ => none
  | .inspect read pdfReader =>
    match task with
    | .opened p body =>
      match inspectPdf sha256 pdfReader read body none maxDocumentBytes with
      | .ok inspection => some (db,.processing p (some inspection) none)
      | .error (.validation e) => some (db,.processing p none (some e))
      | .error (.other _) => some (db,.raised p)
    | _ => none
  | .process draws fault =>
    match task with
    | .processing p inspection error =>
      match fault, process p inspection error draws db with
      | .before, _ => some (db,.raised p)
      | _, .error _ => some (db,.raised p)
      | .after, .ok after => some (after.getD db,.raised p)
      | .none, .ok after => some (after.getD db,.returned p after.isSome)
    | _ => none
  | .abandon =>
    match task.active with
    | some p => some (db,.raised p)
    | none => none

/-- What each action can do: one case for each way through the code. -/
inductive Transition (source : PyStr → Option StoredObject) (db : Db) :
    Task → Action → Db → Task → Prop
  | deliver {p} : Transition source db .idle (.deliver p) db (.started p)
  | wrongType {p fault} (h : p.eventType≠py "DocumentSubmitted") :
      Transition source db (.started p) (.get fault) db (.processing p none (some unexpectedEventType))
  | getFails {p fault} (h : p.eventType=py "DocumentSubmitted")
      (hf : fault≠.none ∨ ∃ e, getObject bucket source p.payloadUri=.error e) :
      Transition source db (.started p) (.get fault) db (.raised p)
  | get {p o} (h : p.eventType=py "DocumentSubmitted")
      (ho : getObject bucket source p.payloadUri=.ok o) :
      Transition source db (.started p) (.get .none) db (.opened p o.body)
  | inspected {p body read pdfReader inspection}
      (h : inspectPdf sha256 pdfReader read body none maxDocumentBytes=.ok inspection) :
      Transition source db (.opened p body) (.inspect read pdfReader) db
        (.processing p (some inspection) none)
  | invalid {p body read pdfReader e}
      (h : inspectPdf sha256 pdfReader read body none maxDocumentBytes=.error (.validation e)) :
      Transition source db (.opened p body) (.inspect read pdfReader) db (.processing p none (some e))
  | inspectFails {p body read pdfReader e}
      (h : inspectPdf sha256 pdfReader read body none maxDocumentBytes=.error (.other e)) :
      Transition source db (.opened p body) (.inspect read pdfReader) db (.raised p)
  | processFails {p inspection error draws fault}
      (h : fault=.before ∨ ∃ e, process p inspection error draws db=.error e) :
      Transition source db (.processing p inspection error) (.process draws fault) db (.raised p)
  | processed {p inspection error draws fault result}
      (h : process p inspection error draws db=.ok result) (hf : fault≠.before) :
      Transition source db (.processing p inspection error) (.process draws fault) (result.getD db)
        (if fault=.none then .returned p result.isSome else .raised p)
  | abandon {task p} (h : task.active=some p) :
      Transition source db task .abandon db (.raised p)

theorem transition_of_step {source : PyStr → Option StoredObject} {db after : Db} {task next : Task}
    {a : Action} (h : step sha256 bucket maxDocumentBytes source db task a=some (after,next)) :
    Transition sha256 bucket maxDocumentBytes source db task a after next := by
  cases a with
  | deliver p =>
    cases task with
    | idle => cases h; exact .deliver
    | _ => cases h
  | get fault =>
    cases task with
    | started p =>
      simp only [step] at h
      split at h
      · cases h; exact .wrongType ‹_›
      · rename_i ht
        have ht := not_not.mp ht
        cases fault with
        | none =>
          cases hget : getObject bucket source p.payloadUri with
          | error e =>
            rw [hget] at h
            cases h
            exact .getFails ht (.inr ⟨e,hget⟩)
          | ok o =>
            rw [hget] at h
            cases h
            exact .get ht hget
        | before => cases h; exact .getFails ht (.inl (by simp))
        | after => cases h; exact .getFails ht (.inl (by simp))
    | _ => cases h
  | inspect read pdfReader =>
    cases task with
    | opened p body =>
      simp only [step] at h
      split at h
      · cases h; exact .inspected ‹_›
      · cases h; exact .invalid ‹_›
      · cases h; exact .inspectFails ‹_›
    | _ => cases h
  | process draws fault =>
    cases task with
    | processing p inspection error =>
      simp only [step] at h
      split at h
      · cases h; exact .processFails (.inl rfl)
      · cases h; exact .processFails (.inr ⟨_,‹_›⟩)
      · cases h; exact .processed ‹_› (by simp)
      · cases h; exact .processed ‹_› (by simp)
    | _ => cases h
  | abandon =>
    simp only [step] at h
    split at h
    · cases h; exact .abandon ‹_›
    · cases h

/-- A call works on the payload it was started with. -/
theorem Transition.active {source : PyStr → Option StoredObject} {db after : Db} {task next : Task}
    {a : Action} {p : DocumentSubmitted}
    (h : Transition sha256 bucket maxDocumentBytes source db task a after next)
    (hp : next.active=some p) : task.active=some p ∨ a=.deliver p := by
  cases h with
  | deliver =>
    cases hp
    exact .inr rfl
  | processed _ _ =>
    split at hp
    · cases hp
    · cases hp
  | wrongType => exact .inl hp
  | get => exact .inl hp
  | inspected => exact .inl hp
  | invalid => exact .inl hp
  | _ => cases hp

/-- A call keeps its payload to the end. -/
theorem Transition.payload {source : PyStr → Option StoredObject} {db after : Db} {task next : Task}
    {a : Action} {p : DocumentSubmitted}
    (h : Transition sha256 bucket maxDocumentBytes source db task a after next)
    (hp : task.payload=some p) : next.payload=some p := by
  cases h with
  | deliver => cases hp
  | processed =>
    split
    · exact hp
    · exact hp
  | @abandon task q hq =>
    cases task with
    | idle => cases hq
    | returned => cases hq
    | raised => cases hq
    | _ => exact hq.symm.trans hp
  | _ => exact hp

/-- A call that returns has its event processed. -/
theorem Transition.returned_processed {source : PyStr → Option StoredObject} {db after : Db} {task : Task}
    {a : Action} {p : DocumentSubmitted} {b : Bool}
    (h : Transition sha256 bucket maxDocumentBytes source db task a after (.returned p b)) :
    Processed after p := by
  generalize hn : Task.returned p b=next at h
  cases h with
  | processed hp hf =>
    split at hn
    · cases hn
      exact process_processed hp
    · cases hn
  | _ => cases hn

end
end RagIngestion.Fetcher
