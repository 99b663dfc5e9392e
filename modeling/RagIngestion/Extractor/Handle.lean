import RagIngestion.Extractor.Repository
import RagIngestion.Submission.Api

/-! One call of `ContentExtractor.handle`, step by step, over the source bucket, the artifact
bucket and the database. -/
namespace RagIngestion.Extractor
open RagIngestion.Python RagIngestion.Domain RagIngestion.Database RagIngestion.Storage
open RagIngestion.Library RagIngestion.Submission

def unexpectedEventType : ExtractionError :=
  ⟨py "unexpected_event_type",py "Extractor accepts only DocumentFetched events."⟩
def unsupportedSource : ExtractionError :=
  ⟨py "unsupported_source",py "Only fetch-validated PDFs are supported by this extractor."⟩

/-- The checks `handle` makes on a payload before it reads the source. -/
def payloadError (payload : DocumentFetched) : Option ExtractionError :=
  if payload.eventType≠py "DocumentFetched" then some unexpectedEventType
  else if payload.inspectionStatus≠py "valid" ∨ payload.detectedMimeType≠py "application/pdf" then
    some unsupportedSource
  else none

/-- The body `ArtifactStore.put_json` sends. -/
def artifactBody (value : List (PyStr × Json)) : Except PyError Bytes :=
  match encode (jsonDumps ⟨false,true,true⟩ (.dict value)) with
  | none => .error .unicodeEncodeError
  | some body => .ok body

def artifactPrefix (ids : Ids) (payload : DocumentFetched) : PyStr :=
  ids.tenantId.str ++ py "/" ++ ids.versionId.str ++ py "/extracted/" ++ payload.contentSha256

def normalizedKey (ids : Ids) (payload : DocumentFetched) : PyStr :=
  artifactPrefix ids payload ++ py "/normalized.json"

def manifestKey (ids : Ids) (payload : DocumentFetched) : PyStr :=
  artifactPrefix ids payload ++ py "/manifest.json"

/-- `{**result.manifest, …}`. -/
def manifestArtifact (payload : DocumentFetched) (result : ExtractionResult) : List (PyStr × Json) :=
  Json.set (py "extraction_status") (.str result.extractionStatus.text)
    (Json.set (py "source_content_sha256") (.str payload.contentSha256) result.manifest)

/-- Where a call stands. -/
inductive Task
  | idle
  | started (payload : DocumentFetched)
  | opened (payload : DocumentFetched) (body : Bytes)
  | extracted (payload : DocumentFetched) (result : ExtractionResult)
  | stored (payload : DocumentFetched) (result : ExtractionResult) (normalizedUri : PyStr)
  | completing (payload : DocumentFetched) (result : ExtractionResult)
      (normalizedUri manifestUri : PyStr)
  | rejecting (payload : DocumentFetched) (error : ExtractionError)
  | returned (payload : DocumentFetched) (processed : Bool)
  | raised (payload : DocumentFetched)

/-- The payload of a call that has not ended. -/
def Task.active : Task → Option DocumentFetched
  | .started p => some p
  | .opened p _ => some p
  | .extracted p _ => some p
  | .stored p _ _ => some p
  | .completing p _ _ _ => some p
  | .rejecting p _ => some p
  | _ => none

/-- The payload a call was made with. -/
def Task.payload : Task → Option DocumentFetched
  | .returned p _ => some p
  | .raised p => some p
  | task => task.active

/-- The extraction result a call has and has not recorded yet. -/
def Task.result : Task → Option ExtractionResult
  | .extracted _ r => some r
  | .stored _ r _ => some r
  | .completing _ r _ _ => some r
  | _ => none

inductive Action
  | deliver (payload : DocumentFetched)
  /-- The checks of the payload and `SourceObjectStore.get`. -/
  | get (fault : Fault)
  /-- `extract_pdf` over the opened body, with the converter's answer. -/
  | extract (read : Reader Bytes) (convert : Bytes → Conversion)
  /-- `put_json` of the normalised content. -/
  | putNormalized (fault : Fault)
  /-- `put_json` of the manifest. -/
  | putManifest (fault : Fault)
  | complete (draws : Draws) (fault : Fault)
  | reject (draws : Draws) (fault : Fault)
  /-- The call is cancelled, its process is killed, or it raises for another reason. -/
  | abandon

/-- The two stores a call writes to. -/
structure Stores where
  artifacts : PyStr → Option Bytes
  db : Db

/-- `put_object` for a key. -/
def Stores.put (w : Stores) (key : PyStr) (body : Bytes) : Stores :=
  { w with artifacts := Function.update w.artifacts key (some body) }

section
variable (rt : Runtime) (sourceBucket artifactBucket : BucketName) (maxBytes : ℕ)

/-- `put_json` under a key: the stores afterwards, and the next state if it returned. -/
def putJson (w : Stores) (payload : DocumentFetched) (key : Except PyError PyStr)
    (value : List (PyStr × Json)) (fault : Fault) (next : PyStr → Task) : Stores × Task :=
  match fault, key, artifactBody value with
  | .none, .ok key, .ok body => (w.put key body,next (objectUri artifactBucket key))
  | .after, .ok key, .ok body => (w.put key body,.raised payload)
  | _, _, _ => (w,.raised payload)

def step (source : PyStr → Option StoredObject) (w : Stores) (task : Task) :
    Action → Option (Stores × Task)
  | .deliver payload =>
    match task with
    | .idle => some (w,.started payload)
    | _ => none
  | .get fault =>
    match task with
    | .started p =>
      match payloadError p with
      | some e => some (w,.rejecting p e)
      | none =>
        match fault, getObject sourceBucket source p.payloadUri with
        | .none, .ok o => some (w,.opened p o.body)
        | _, _ => some (w,.raised p)
    | _ => none
  | .extract read convert =>
    match task with
    | .opened p body =>
      match extractPdf rt read body maxBytes p.contentSha256 convert with
      | .ok result => some (w,.extracted p result)
      | .error (.extraction e) => some (w,.rejecting p e)
      | .error (.other _) => some (w,.raised p)
    | _ => none
  | .putNormalized fault =>
    match task with
    | .extracted p result =>
      some (putJson artifactBucket w p ((payloadIds p).map (fun ids => normalizedKey ids p))
        result.normalized fault (fun uri => .stored p result uri))
    | _ => none
  | .putManifest fault =>
    match task with
    | .stored p result normalizedUri =>
      some (putJson artifactBucket w p ((payloadIds p).map (fun ids => manifestKey ids p))
        (manifestArtifact p result) fault (fun uri => .completing p result normalizedUri uri))
    | _ => none
  | .complete draws fault =>
    match task with
    | .completing p result normalizedUri manifestUri =>
      match fault, complete rt p result normalizedUri manifestUri draws w.db with
      | .before, _ => some (w,.raised p)
      | _, .error (.extraction e) => some (w,.rejecting p e)
      | _, .error (.other _) => some (w,.raised p)
      | .after, .ok after => some ({ w with db := after.getD w.db },.raised p)
      | .none, .ok after => some ({ w with db := after.getD w.db },.returned p after.isSome)
    | _ => none
  | .reject draws fault =>
    match task with
    | .rejecting p error =>
      match fault, reject p error draws w.db with
      | .before, _ => some (w,.raised p)
      | _, .error _ => some (w,.raised p)
      | .after, .ok after => some ({ w with db := after.getD w.db },.raised p)
      | .none, .ok after => some ({ w with db := after.getD w.db },.returned p after.isSome)
    | _ => none
  | .abandon =>
    match task.active with
    | some p => some (w,.raised p)
    | none => none

/-- What a call of `put_json` can do. -/
inductive Put (w : Stores) (payload : DocumentFetched) (key : Except PyError PyStr)
    (value : List (PyStr × Json)) (fault : Fault) (next : PyStr → Task) : Stores → Task → Prop
  | fails (h : fault=.before ∨ (∃ e, key=.error e) ∨ ∃ e, artifactBody value=.error e) :
      Put w payload key value fault next w (.raised payload)
  | lost {k body} (hk : key=.ok k) (hb : artifactBody value=.ok body) (hf : fault=.after) :
      Put w payload key value fault next (w.put k body) (.raised payload)
  | stored {k body} (hk : key=.ok k) (hb : artifactBody value=.ok body) (hf : fault=.none) :
      Put w payload key value fault next (w.put k body) (next (objectUri artifactBucket k))

theorem put_of_putJson {w after : Stores} {payload : DocumentFetched} {key : Except PyError PyStr}
    {value : List (PyStr × Json)} {fault : Fault} {next : PyStr → Task} {task : Task}
    (h : putJson artifactBucket w payload key value fault next=(after,task)) :
    Put artifactBucket w payload key value fault next after task := by
  cases key with
  | error e =>
    have hw : putJson artifactBucket w payload (.error e) value fault next=(w,.raised payload) := by
      cases fault <;> rfl
    rw [hw] at h
    cases h
    exact .fails (.inr (.inl ⟨e,rfl⟩))
  | ok k =>
    cases hb : artifactBody value with
    | error e =>
      have hw : putJson artifactBucket w payload (.ok k) value fault next=(w,.raised payload) := by
        cases fault <;> simp [putJson,hb]
      rw [hw] at h
      cases h
      exact .fails (.inr (.inr ⟨e,hb⟩))
    | ok body =>
      cases fault with
      | none =>
        simp only [putJson,hb] at h
        cases h
        exact .stored rfl hb rfl
      | before => cases h; exact .fails (.inl rfl)
      | after =>
        simp only [putJson,hb] at h
        cases h
        exact .lost rfl hb rfl

/-- What each action can do: one case for each way through the code. -/
inductive Transition (source : PyStr → Option StoredObject) (w : Stores) :
    Task → Action → Stores → Task → Prop
  | deliver {p} : Transition source w .idle (.deliver p) w (.started p)
  | refuse {p fault e} (h : payloadError p=some e) :
      Transition source w (.started p) (.get fault) w (.rejecting p e)
  | getFails {p fault} (h : payloadError p=none)
      (hf : fault≠.none ∨ ∃ e, getObject sourceBucket source p.payloadUri=.error e) :
      Transition source w (.started p) (.get fault) w (.raised p)
  | get {p o} (h : payloadError p=none) (ho : getObject sourceBucket source p.payloadUri=.ok o) :
      Transition source w (.started p) (.get .none) w (.opened p o.body)
  | extracted {p body read convert result}
      (h : extractPdf rt read body maxBytes p.contentSha256 convert=.ok result) :
      Transition source w (.opened p body) (.extract read convert) w (.extracted p result)
  | extractRejects {p body read convert e}
      (h : extractPdf rt read body maxBytes p.contentSha256 convert=.error (.extraction e)) :
      Transition source w (.opened p body) (.extract read convert) w (.rejecting p e)
  | extractFails {p body read convert e}
      (h : extractPdf rt read body maxBytes p.contentSha256 convert=.error (.other e)) :
      Transition source w (.opened p body) (.extract read convert) w (.raised p)
  | putNormalized {p result fault after task}
      (h : Put artifactBucket w p ((payloadIds p).map (fun ids => normalizedKey ids p))
        result.normalized fault (fun uri => .stored p result uri) after task) :
      Transition source w (.extracted p result) (.putNormalized fault) after task
  | putManifest {p result normalizedUri fault after task}
      (h : Put artifactBucket w p ((payloadIds p).map (fun ids => manifestKey ids p))
        (manifestArtifact p result) fault (fun uri => .completing p result normalizedUri uri)
        after task) :
      Transition source w (.stored p result normalizedUri) (.putManifest fault) after task
  | completeFails {p result normalizedUri manifestUri draws fault}
      (h : fault=.before ∨
        ∃ e, complete rt p result normalizedUri manifestUri draws w.db=.error (.other e)) :
      Transition source w (.completing p result normalizedUri manifestUri) (.complete draws fault) w
        (.raised p)
  | completeRejects {p result normalizedUri manifestUri draws fault e}
      (h : complete rt p result normalizedUri manifestUri draws w.db=.error (.extraction e)) :
      Transition source w (.completing p result normalizedUri manifestUri) (.complete draws fault) w
        (.rejecting p e)
  | completed {p result normalizedUri manifestUri draws fault committed}
      (h : complete rt p result normalizedUri manifestUri draws w.db=.ok committed)
      (hf : fault≠.before) :
      Transition source w (.completing p result normalizedUri manifestUri) (.complete draws fault)
        { w with db := committed.getD w.db }
        (if fault=.none then .returned p committed.isSome else .raised p)
  | rejectFails {p error draws fault} (h : fault=.before ∨ ∃ e, reject p error draws w.db=.error e) :
      Transition source w (.rejecting p error) (.reject draws fault) w (.raised p)
  | rejected {p error draws fault committed} (h : reject p error draws w.db=.ok committed)
      (hf : fault≠.before) :
      Transition source w (.rejecting p error) (.reject draws fault)
        { w with db := committed.getD w.db }
        (if fault=.none then .returned p committed.isSome else .raised p)
  | abandon {task p} (h : task.active=some p) : Transition source w task .abandon w (.raised p)

theorem transition_of_step {source : PyStr → Option StoredObject} {w after : Stores} {task next : Task}
    {a : Action} (h : step rt sourceBucket artifactBucket maxBytes source w task a=some (after,next)) :
    Transition rt sourceBucket artifactBucket maxBytes source w task a after next := by
  cases a with
  | deliver p =>
    cases task with
    | idle => cases h; exact .deliver
    | _ => cases h
  | get fault =>
    cases task with
    | started p =>
      simp only [step] at h
      split at h
      · cases h; exact .refuse ‹_›
      · rename_i hp
        cases fault with
        | none =>
          cases hget : getObject sourceBucket source p.payloadUri with
          | error e =>
            rw [hget] at h
            cases h
            exact .getFails hp (.inr ⟨e,hget⟩)
          | ok o =>
            rw [hget] at h
            cases h
            exact .get hp hget
        | before => cases h; exact .getFails hp (.inl (by simp))
        | after => cases h; exact .getFails hp (.inl (by simp))
    | _ => cases h
  | extract read convert =>
    cases task with
    | opened p body =>
      simp only [step] at h
      split at h
      · cases h; exact .extracted ‹_›
      · cases h; exact .extractRejects ‹_›
      · cases h; exact .extractFails ‹_›
    | _ => cases h
  | putNormalized fault =>
    cases task with
    | extracted p result => exact .putNormalized (put_of_putJson artifactBucket (Option.some.inj h))
    | _ => cases h
  | putManifest fault =>
    cases task with
    | stored p result normalizedUri =>
      exact .putManifest (put_of_putJson artifactBucket (Option.some.inj h))
    | _ => cases h
  | complete draws fault =>
    cases task with
    | completing p result normalizedUri manifestUri =>
      simp only [step] at h
      split at h
      · cases h; exact .completeFails (.inl rfl)
      · cases h; exact .completeRejects ‹_›
      · cases h; exact .completeFails (.inr ⟨_,‹_›⟩)
      · cases h; exact .completed ‹_› (by simp)
      · cases h; exact .completed ‹_› (by simp)
    | _ => cases h
  | reject draws fault =>
    cases task with
    | rejecting p error =>
      simp only [step] at h
      split at h
      · cases h; exact .rejectFails (.inl rfl)
      · cases h; exact .rejectFails (.inr ⟨_,‹_›⟩)
      · cases h; exact .rejected ‹_› (by simp)
      · cases h; exact .rejected ‹_› (by simp)
    | _ => cases h
  | abandon =>
    simp only [step] at h
    split at h
    · cases h; exact .abandon ‹_›
    · cases h

/-- A call works on the payload it was started with. -/
theorem Transition.active {source : PyStr → Option StoredObject} {w after : Stores} {task next : Task}
    {a : Action} {p : DocumentFetched}
    (h : Transition rt sourceBucket artifactBucket maxBytes source w task a after next)
    (hp : next.active=some p) : task.active=some p ∨ a=.deliver p := by
  cases h with
  | deliver =>
    cases hp
    exact .inr rfl
  | refuse => exact .inl hp
  | get => exact .inl hp
  | extracted => exact .inl hp
  | extractRejects => exact .inl hp
  | putNormalized h =>
    cases h with
    | stored => exact .inl hp
    | _ => cases hp
  | putManifest h =>
    cases h with
    | stored => exact .inl hp
    | _ => cases hp
  | completeRejects => exact .inl hp
  | completed _ _ =>
    split at hp
    · cases hp
    · cases hp
  | rejected _ _ =>
    split at hp
    · cases hp
    · cases hp
  | _ => cases hp

/-- A call's result is one `extract_pdf` returned to it. -/
theorem Transition.result {source : PyStr → Option StoredObject} {w after : Stores} {task next : Task}
    {a : Action} {r : ExtractionResult}
    (h : Transition rt sourceBucket artifactBucket maxBytes source w task a after next)
    (hr : next.result=some r) : task.result=some r ∨
      ∃ p body read convert, task=.opened p body ∧ a=.extract read convert ∧
        extractPdf rt read body maxBytes p.contentSha256 convert=.ok r := by
  cases h with
  | extracted h =>
    cases hr
    exact .inr ⟨_,_,_,_,rfl,rfl,h⟩
  | putNormalized h =>
    cases h with
    | stored => exact .inl hr
    | _ => cases hr
  | putManifest h =>
    cases h with
    | stored => exact .inl hr
    | _ => cases hr
  | completed _ _ =>
    split at hr
    · cases hr
    · cases hr
  | rejected _ _ =>
    split at hr
    · cases hr
    · cases hr
  | _ => cases hr

lemma Task.payload_of_active {task : Task} {p : DocumentFetched} (h : task.active=some p) :
    task.payload=some p := by
  cases task with
  | idle => cases h
  | returned => cases h
  | raised => cases h
  | _ => exact h

/-- A call keeps its payload. -/
theorem Transition.payload {source : PyStr → Option StoredObject} {w after : Stores} {task next : Task}
    {a : Action} {p : DocumentFetched}
    (h : Transition rt sourceBucket artifactBucket maxBytes source w task a after next)
    (hp : task.payload=some p) : next.payload=some p := by
  cases h with
  | deliver => cases hp
  | putNormalized h => cases h <;> exact hp
  | putManifest h => cases h <;> exact hp
  | completed => split <;> exact hp
  | rejected => split <;> exact hp
  | abandon h => exact (Task.payload_of_active h).symm.trans hp
  | _ => exact hp

/-- A claim is never withdrawn. -/
theorem Transition.processedEvents {source : PyStr → Option StoredObject} {w after : Stores}
    {task next : Task} {a : Action}
    (h : Transition rt sourceBucket artifactBucket maxBytes source w task a after next) :
    w.db.processedEvents ⊆ after.db.processedEvents := by
  cases h with
  | putNormalized h => cases h <;> exact List.Subset.refl _
  | putManifest h => cases h <;> exact List.Subset.refl _
  | completed hc => exact (complete_processed hc).2
  | rejected hr => exact (reject_processed hr).2
  | _ => exact List.Subset.refl _

/-- A call that returns has its event processed. -/
theorem Transition.processed {source : PyStr → Option StoredObject} {w after : Stores}
    {task : Task} {a : Action} {p : DocumentFetched} {b : Bool}
    (h : Transition rt sourceBucket artifactBucket maxBytes source w task a after (.returned p b)) :
    Processed after.db p := by
  generalize hn : Task.returned p b=next at h
  cases h with
  | putNormalized h => cases h <;> cases hn
  | putManifest h => cases h <;> cases hn
  | completed hc =>
    split at hn
    · cases hn
      exact (complete_processed hc).1
    · cases hn
  | rejected hr =>
    split at hn
    · cases hn
      exact (reject_processed hr).1
    · cases hn
  | _ => cases hn

end
end RagIngestion.Extractor
