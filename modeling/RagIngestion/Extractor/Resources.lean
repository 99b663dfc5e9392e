import RagIngestion.Extractor.Handling
import RagIngestion.Library.Finally

/-! What an extraction takes from its worker and gives back: the temporary file of `extract_pdf`,
and in `handle` the body of the source object and a converter. -/
namespace RagIngestion.Extractor
open RagIngestion.Python RagIngestion.Domain RagIngestion.Database RagIngestion.Storage
open RagIngestion.Library

/-- The files of a worker, the source bodies it has open, and the converters no call has. -/
structure Worker where
  files : PyStr → Option Bytes
  bodies : List ℕ
  pool : List (Bytes → Conversion)

namespace Worker

/-- `NamedTemporaryFile(delete=False)`. -/
def create (path : PyStr) (w : Worker) : Worker :=
  { w with files := Function.update w.files path (some []) }

/-- `temporary.write`. -/
def write (path : PyStr) (chunk : Bytes) (w : Worker) : Worker :=
  { w with files := Function.update w.files path ((w.files path).map (· ++ chunk)) }

/-- `unlink(missing_ok=True)`. -/
def unlink (path : PyStr) (w : Worker) : Worker :=
  { w with files := Function.update w.files path none }

def openBody (body : ℕ) (w : Worker) : Worker := { w with bodies := body::w.bodies }

/-- `body.close()`. -/
def close (body : ℕ) (w : Worker) : Worker := { w with bodies := w.bodies.erase body }

/-- `put_nowait`. -/
def putBack (convert : Bytes → Conversion) (w : Worker) : Worker :=
  { w with pool := w.pool ++ [convert] }

/-- The worker with a file of this content. -/
def holding (path : PyStr) (content : Bytes) (w : Worker) : Worker :=
  { w with files := Function.update w.files path (some content) }

@[simp] theorem create_eq (path : PyStr) (w : Worker) : w.create path=w.holding path [] := rfl

@[simp] theorem write_holding (path : PyStr) (content chunk : Bytes) (w : Worker) :
    (w.holding path content).write path chunk=w.holding path (content ++ chunk) := by
  simp [write,holding]

@[simp] theorem holding_files (path : PyStr) (content : Bytes) (w : Worker) :
    (w.holding path content).files path=some content := by
  simp [holding]

/-- A temporary file that is removed leaves no trace. -/
theorem unlink_holding {path : PyStr} {w : Worker} (h : w.files path=none) (content : Bytes) :
    (w.holding path content).unlink path=w := by
  simp [unlink,holding,← h]

@[simp] theorem close_openBody (body : ℕ) (w : Worker) : (w.openBody body).close body=w := by
  simp [close,openBody]

end Worker

/-- The read loop, with the temporary file. -/
def copySource {σ : Type} (read : Reader σ) (maxBytes : ℕ) (path : PyStr) (source : σ)
    (content : Bytes) : Program Worker Raised Bytes :=
  match read source chunkSize with
  | ([],_) => pure content
  | (b::bs,source) =>
    if maxBytes<content.length+(bs.length+1) then throw (.extraction sourceTooLarge)
    else do
      modify (Worker.write path (b::bs))
      copySource read maxBytes path source (content ++ b::bs)
termination_by maxBytes-content.length
decreasing_by simp only [List.length_append,List.length_cons]; omega

/-- `converter.convert(path)`. -/
def convertFile (convert : Bytes → Conversion) (path : PyStr) (w : Worker) : Conversion :=
  match w.files path with
  | some content => convert content
  | none => .error (.extraction doclingConversionFailed)

/-- The part of `extract_pdf` that its `finally` guards. -/
def convertSource {σ : Type} (read : Reader σ) (source : σ) (maxBytes : ℕ) (path : PyStr)
    (convert : Bytes → Conversion) :
    Program Worker Raised (Bytes × List (PyKey × PyVal) × PyStr) := do
  let content ← copySource read maxBytes path source []
  if content=[] then throw (.extraction emptySource)
  let (exported,markdown) ← Program.asks (convertFile convert path)
  pure (content,exported,markdown)

section
variable (rt : Runtime)

/-- `extract_pdf`, with the temporary file. -/
def extractPdfFile {σ : Type} (read : Reader σ) (source : σ) (maxBytes : ℕ) (expectedSha256 : PyStr)
    (path : PyStr) (convert : Bytes → Conversion) : Program Worker Raised ExtractionResult := do
  modify (Worker.create path)
  let (content,exported,markdown) ←
    try
      convertSource read source maxBytes path convert
    finally
      modify (Worker.unlink path)
  let exported := withoutBinaryDict exported
  if hexdigest (rt.sha256 content)≠expectedSha256 then throw (.extraction sourceChecksumMismatch)
  pure (extractionResult rt content exported markdown)

/-- `handle` around `extract_pdf`, once it has a body and a converter. -/
def extractBody {σ : Type} (read : Reader σ) (source : σ) (maxBytes : ℕ) (expectedSha256 : PyStr)
    (path : PyStr) (body : ℕ) (convert : Bytes → Conversion) :
    Program Worker Raised ExtractionResult :=
  try
    extractPdfFile rt read source maxBytes expectedSha256 path convert
  finally
    modify (fun w => (w.close body).putBack convert)

end

/-- What the read loop leaves in the temporary file, however it ends. -/
theorem copySource_exec {σ : Type} (read : Reader σ) (maxBytes : ℕ) (path : PyStr) (w : Worker)
    (source : σ) (content : Bytes) :
    ∃ written, Program.exec (copySource read maxBytes path source content) (w.holding path content)=
        ((readSource read maxBytes source content).mapError Raised.extraction,w.holding path written) ∧
      ∀ all, readSource read maxBytes source content=.ok all → written=all := by
  fun_induction readSource read maxBytes source content with
  | case1 source content rest hread =>
    refine ⟨content,?_,?_⟩
    · rw [copySource,hread]
      rfl
    · intro all h
      cases h
      rfl
  | case2 source content b bs rest hread htoo =>
    refine ⟨content,?_,?_⟩
    · rw [copySource,hread]
      simp only [htoo,if_true]
      rfl
    · intro all h
      cases h
  | case3 source content b bs rest hread hfits ih =>
    obtain ⟨written,hexec,hwritten⟩ := ih
    refine ⟨written,?_,hwritten⟩
    rw [copySource,hread]
    simp only [hfits,if_false]
    rw [Program.exec_bind_ok (Program.exec_modify _ _),Worker.write_holding]
    exact hexec

/-- The converter is given the bytes that were read, if they are there and not too many. -/
theorem convertSource_exec {σ : Type} (read : Reader σ) (source : σ) (maxBytes : ℕ) (path : PyStr)
    (convert : Bytes → Conversion) (w : Worker) : ∃ written,
    Program.exec (convertSource read source maxBytes path convert) (w.holding path [])=
      (match readSource read maxBytes source [] with
        | .error e => .error (.extraction e)
        | .ok content =>
          if content=[] then .error (.extraction emptySource)
          else (convert content).map (fun converted => (content,converted)),
        w.holding path written) := by
  obtain ⟨written,hcopy,hwritten⟩ := copySource_exec read maxBytes path w source []
  refine ⟨written,?_⟩
  unfold convertSource
  cases hread : readSource read maxBytes source [] with
  | error e =>
    rw [hread] at hcopy
    exact Program.exec_bind_error hcopy _
  | ok content =>
    rw [hread] at hcopy
    rw [Program.exec_bind_ok hcopy,hwritten content hread]
    dsimp only
    split
    · rfl
    · have hasks : Program.exec (Program.asks (convertFile convert path)) (w.holding path content)=
          (convert content,w.holding path content) := by
        simp only [Program.exec_asks,convertFile,Worker.holding_files]
      cases hconvert : convert content with
      | error e =>
        rw [hconvert] at hasks
        exact Program.exec_bind_error hasks _
      | ok converted =>
        rw [hconvert] at hasks
        exact Program.exec_bind_ok hasks _

section
variable {rt : Runtime} {σ : Type} {read : Reader σ} {source : σ} {maxBytes : ℕ}
  {expectedSha256 path : PyStr} {convert : Bytes → Conversion} {w : Worker}

/-- `extract_pdf` removes its temporary file, whatever happens. -/
theorem extractPdfFile_exec (hpath : w.files path=none) :
    Program.exec (extractPdfFile rt read source maxBytes expectedSha256 path convert) w=
      (extractPdf rt read source maxBytes expectedSha256 convert,w) := by
  obtain ⟨written,hconverted⟩ := convertSource_exec read source maxBytes path convert w
  have hguarded := Program.exec_finally hconverted (Worker.unlink path)
  rw [Worker.unlink_holding hpath] at hguarded
  unfold extractPdfFile extractPdf
  rw [Program.exec_bind_ok (Program.exec_modify _ _),Worker.create_eq]
  cases hread : readSource read maxBytes source [] with
  | error e =>
    rw [hread] at hguarded
    exact Program.exec_bind_error hguarded _
  | ok content =>
    rw [hread] at hguarded
    dsimp only at hguarded ⊢
    split at hguarded
    · rename_i hempty
      rw [if_pos hempty]
      exact Program.exec_bind_error hguarded _
    · rename_i hne
      rw [if_neg hne]
      cases hconvert : convert content with
      | error e =>
        rw [hconvert] at hguarded
        exact Program.exec_bind_error hguarded _
      | ok converted =>
        rw [hconvert] at hguarded
        rw [Program.exec_bind_ok hguarded]
        dsimp only
        split <;> rfl

/-- `handle` gives the converter back and closes the body, whatever `extract_pdf` does. -/
theorem extractBody_exec (hpath : w.files path=none) (body : ℕ) :
    Program.exec (extractBody rt read source maxBytes expectedSha256 path body convert)
        (w.openBody body)=
      (extractPdf rt read source maxBytes expectedSha256 convert,w.putBack convert) := by
  have hextract : Program.exec (extractPdfFile rt read source maxBytes expectedSha256 path convert)
      (w.openBody body)=(extractPdf rt read source maxBytes expectedSha256 convert,w.openBody body) :=
    extractPdfFile_exec hpath
  have hguarded := Program.exec_finally hextract (fun w => (w.close body).putBack convert)
  rw [Worker.close_openBody] at hguarded
  exact hguarded

end

/-- Where the outcome of the extraction takes the call. -/
def afterExtract (payload : DocumentFetched) : Except Raised ExtractionResult → Task
  | .ok result => .extracted payload result
  | .error (.extraction e) => .rejecting payload e
  | .error (.other _) => .raised payload

/-- Nothing is left of a call in the worker: the same files and open bodies, and the same
converters to take. -/
structure Worker.Released (before after : Worker) : Prop where
  files : after.files=before.files
  bodies : after.bodies=before.bodies
  pool : after.pool.Perm before.pool

theorem Worker.released_self (w : Worker) : w.Released w := ⟨rfl,rfl,.refl _⟩

namespace Call
variable (c : Call) (path : PyStr) (body : ℕ)

/-- One step of a call in its worker: it opens a body, extracts from it with the converter that is
next in the pool, once there is one, or leaves the worker alone. -/
def workerNext (s : (Stores × Task) × Worker) : Option ((Stores × Task) × Worker) :=
  match s.1.2 with
  | .opened p source =>
    match s.2.pool with
    | [] => none
    | convert::rest =>
      let (result,w) := Program.exec
        (extractBody c.rt c.read source c.maxBytes p.contentSha256 path body convert)
        { s.2 with pool := rest }
      some ((s.1.1,afterExtract p result),w)
  | _ =>
    (c.next s.1).map (fun t =>
      match t.2 with
      | .opened _ _ => (t,s.2.openBody body)
      | _ => (t,s.2))

/-- `handle` in a worker. -/
def attempt (w : Worker) : (Stores × Task) × Worker :=
  follow (c.workerNext path body) 6 ((c.stores,.started c.payload),w)

variable {c path body}

/-- What a call at each point has changed in the worker. -/
def Holds (body : ℕ) (before : Worker) : Task → Worker → Prop
  | .started _, w => w=before
  | .opened _ _, w => w=before.openBody body
  | _, w => before.Released w

lemma next_opened (s : Stores) (p : DocumentFetched) (source : Bytes) :
    c.next (s,.opened p source)=
      some (s,afterExtract p (extractPdf c.rt c.read source c.maxBytes p.contentSha256 c.convert)) := by
  simp only [next,action,Option.bind_some,step]
  split
  · rename_i h; rw [h]; rfl
  · rename_i h; rw [h]; rfl
  · rename_i h; rw [h]; rfl

/-- Only the first step opens a body. -/
lemma next_later {s t : Stores × Task} (h : c.next s=some t) (hs : ∀ p, s.2≠.started p) :
    (∀ p, t.2≠.started p) ∧ ∀ p source, t.2≠.opened p source := by
  obtain ⟨s,task⟩ := s
  obtain ⟨after,next⟩ := t
  obtain ⟨a,haction,ha⟩ := Option.bind_eq_some_iff.mp h
  cases transition_of_step _ _ _ _ ha with
  | deliver => cases haction
  | refuse => exact absurd rfl (hs _)
  | getFails => exact absurd rfl (hs _)
  | get => exact absurd rfl (hs _)
  | putNormalized h => cases h <;> simp
  | putManifest h => cases h <;> simp
  | completed => dsimp only; split <;> simp
  | rejected => dsimp only; split <;> simp
  | _ => simp

lemma holds_of_released {before w : Worker} {task : Task} (h : before.Released w)
    (hs : ∀ p, task≠.started p) (ho : ∀ p source, task≠.opened p source) :
    Holds body before task w := by
  cases task with
  | started p => exact absurd rfl (hs p)
  | opened p source => exact absurd rfl (ho p source)
  | _ => exact h

lemma released_of_holds {before w : Worker} {task : Task} (h : Holds body before task w)
    (ho : ∀ p source, task≠.opened p source) : before.Released w := by
  cases task with
  | started p => exact h ▸ before.released_self
  | opened p source => exact absurd rfl (ho p source)
  | _ => exact h

/-- The extraction in a worker, with the converter it is given. -/
lemma workerNext_opened {stores : Stores} {p : DocumentFetched} {source : Bytes} {w : Worker}
    {convert : Bytes → Conversion} {rest : List (Bytes → Conversion)} (hpath : w.files path=none)
    (hpool : w.pool=convert::rest) :
    c.workerNext path body ((stores,.opened p source),w.openBody body)=
      some ((stores,afterExtract p
          (extractPdf c.rt c.read source c.maxBytes p.contentSha256 convert)),
        { w with pool := rest ++ [convert] }) := by
  have hexec : Program.exec (extractBody c.rt c.read source c.maxBytes p.contentSha256 path body convert)
      { w.openBody body with pool := rest }=
        (extractPdf c.rt c.read source c.maxBytes p.contentSha256 convert,
          { w with pool := rest ++ [convert] }) :=
    extractBody_exec (w := { w with pool := rest }) hpath body
  have hopened : (w.openBody body).pool=convert::rest := hpool
  unfold workerNext
  simp only
  rw [hopened]
  simp only [hexec]

section
variable (body) {w : Worker} {rest : List (Bytes → Conversion)}
  (hpath : w.files path=none) (hpool : w.pool=c.convert::rest)
include hpath hpool

/-- The call and the call in its worker take each step together. -/
lemma workerNext_together (s : Stores × Task) (t : (Stores × Task) × Worker)
    (h : t.1=s ∧ Holds body w s.2 t.2) :
    Option.Rel (fun s t => t.1=s ∧ Holds body w s.2 t.2) (c.next s) (c.workerNext path body t) := by
  obtain ⟨t,now⟩ := t
  obtain ⟨rfl,hholds⟩ := h
  obtain ⟨stores,task⟩ := t
  cases task with
  | started p =>
    obtain rfl : now=w := hholds
    simp only [workerNext]
    cases c.next (stores,.started p) with
    | none => exact .none
    | some u =>
      obtain ⟨after,task⟩ := u
      refine .some ?_
      cases task with
      | started p => exact ⟨rfl,rfl⟩
      | opened p source => exact ⟨rfl,rfl⟩
      | _ => exact ⟨rfl,now.released_self⟩
  | opened p source =>
    obtain rfl : now=w.openBody body := hholds
    rw [next_opened,workerNext_opened hpath hpool]
    refine .some ⟨rfl,holds_of_released ⟨rfl,rfl,?_⟩ ?_ ?_⟩
    · rw [hpool]
      exact List.perm_append_singleton c.convert rest
    · unfold afterExtract
      split <;> simp
    · unfold afterExtract
      split <;> simp
  | _ =>
    simp only [workerNext]
    cases hnext : c.next _ with
    | none => exact .none
    | some u =>
      obtain ⟨hs,ho⟩ := next_later hnext (by simp)
      obtain ⟨after,task⟩ := u
      refine .some ?_
      cases task with
      | started p => exact absurd rfl (hs p)
      | opened p source => exact absurd rfl (ho p source)
      | _ => exact ⟨rfl,hholds⟩

/-- In a worker with a converter for it a call ends as it does by itself, and nothing of it is left
in the worker once it is past its extraction. -/
theorem attempt_spec : (c.attempt path body w).1=c.handle ∧
    ((∀ p source, c.handle.2≠.opened p source) → w.Released (c.attempt path body w).2) := by
  obtain ⟨hsame,hholds⟩ := follow_simulates (workerNext_together body hpath hpool) 6
    (s := (c.stores,.started c.payload)) (t := ((c.stores,.started c.payload),w)) ⟨rfl,rfl⟩
  exact ⟨hsame,released_of_holds hholds⟩

end

end Call
end RagIngestion.Extractor
