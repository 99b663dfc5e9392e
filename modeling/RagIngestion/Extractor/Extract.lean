import RagIngestion.Extractor.Sanitise
import RagIngestion.Python.Stream
import RagIngestion.Database.Schema

/-! `extract_pdf`: the bounded read of the source, the conversion, and the normalised result. -/
namespace RagIngestion.Extractor
open RagIngestion.Python RagIngestion.Database

/-- A deterministic, safe-to-report extraction error. -/
structure ExtractionError where
  code : PyStr
  detail : PyStr
  deriving DecidableEq

/-- An exception on the way through the extractor. -/
inductive Raised
  | extraction (error : ExtractionError)
  | other (error : PyError)
  deriving DecidableEq

/-- What the extractor takes from the Python installation. -/
structure Runtime where
  sha256 : Bytes → Digest
  isPrintable : CodePoint → Bool
  doclingVersion : PyStr

/-- An installation, as far as ASCII text goes. -/
def plainRuntime : Runtime where
  sha256 := plainSha256
  isPrintable := fun c => decide (32 ≤ c.val ∧ c.val<127)
  doclingVersion := py "2.0.0"

/-- What a converter answers for a file with these bytes: a dictionary and text, or it raises. -/
abbrev Conversion := Except Raised (List (PyKey × PyVal) × PyStr)

structure ExtractionResult where
  normalized : List (PyStr × Json)
  manifest : List (PyStr × Json)
  extractionStatus : ExtractionStatus

/-- `result.manifest["quality"]`. -/
def ExtractionResult.quality (result : ExtractionResult) : Json :=
  (result.manifest.lookup (py "quality")).getD .null

def sourceTooLarge : ExtractionError :=
  ⟨py "source_too_large",py "Document exceeds the extraction size limit."⟩
def emptySource : ExtractionError := ⟨py "empty_source",py "Document has no bytes to extract."⟩
def sourceChecksumMismatch : ExtractionError :=
  ⟨py "source_checksum_mismatch",py "Source bytes do not match the fetched checksum."⟩

/-- The read loop; `content` is what the digest and the temporary file hold so far. -/
def readSource {σ : Type} (read : Reader σ) (maxBytes : ℕ) (source : σ) (content : Bytes) :
    Except ExtractionError Bytes :=
  match read source chunkSize with
  | ([],_) => .ok content
  | (b::bs,source) =>
    if maxBytes<content.length+(bs.length+1) then .error sourceTooLarge
    else readSource read maxBytes source (content ++ b::bs)
termination_by maxBytes-content.length
decreasing_by simp only [List.length_append,List.length_cons]; omega

/-- Content within the limit is read to its end. -/
theorem readSource_of_fits {σ : Type} {read : Reader σ} {remaining : σ → Bytes}
    (hlaw : Lawful read remaining) {maxBytes : ℕ} {source : σ} {content : Bytes}
    (h : content.length+(remaining source).length ≤ maxBytes) :
    readSource read maxBytes source content=.ok (content ++ remaining source) := by
  fun_induction readSource read maxBytes source content with
  | case1 source content rest hread =>
    have hend := hlaw.ends source chunkSize (by decide) (by rw [hread])
    rw [hend,List.append_nil]
  | case2 source content b bs rest hread htoo =>
    have hnext := congrArg List.length (hlaw.reads source chunkSize)
    simp only [hread,List.length_append,List.length_cons] at hnext
    omega
  | case3 source content b bs rest hread hfits ih =>
    have hnext := hlaw.reads source chunkSize
    rw [hread] at hnext
    have hlength := congrArg List.length hnext
    simp only [List.length_append,List.length_cons] at hlength
    rw [ih (by simp only [List.length_append,List.length_cons]; omega),List.append_assoc,hnext]

/-- What the read returns is all the content, and within the limit. -/
theorem readSource_eq_ok {σ : Type} {read : Reader σ} {remaining : σ → Bytes}
    (hlaw : Lawful read remaining) {maxBytes : ℕ} {source : σ} {content all : Bytes}
    (hcontent : content.length ≤ maxBytes) (h : readSource read maxBytes source content=.ok all) :
    all=content ++ remaining source ∧ all.length ≤ maxBytes := by
  fun_induction readSource read maxBytes source content with
  | case1 source content rest hread =>
    cases h
    have hend := hlaw.ends source chunkSize (by decide) (by rw [hread])
    rw [hend,List.append_nil]
    exact ⟨rfl,hcontent⟩
  | case2 source content b bs rest hread htoo => cases h
  | case3 source content b bs rest hread hfits ih =>
    have hnext := hlaw.reads source chunkSize
    rw [hread] at hnext
    obtain ⟨rfl,hlength⟩ := ih (by simp only [List.length_append,List.length_cons]; omega) h
    refine ⟨?_,hlength⟩
    rw [List.append_assoc,hnext]

/-- All of the content is read, exactly when it fits. -/
theorem readSource_eq_ok_iff {σ : Type} {read : Reader σ} {remaining : σ → Bytes}
    (hlaw : Lawful read remaining) {maxBytes : ℕ} {source : σ} {all : Bytes} :
    readSource read maxBytes source []=.ok all ↔
      all=remaining source ∧ (remaining source).length ≤ maxBytes := by
  constructor
  · intro h
    obtain ⟨rfl,hlength⟩ := readSource_eq_ok hlaw (Nat.zero_le _) h
    exact ⟨rfl,hlength⟩
  · rintro ⟨rfl,hfits⟩
    exact readSource_of_fits hlaw (by simpa using hfits)

lemma read_plainSource : readSource readAvailable 1048576 plainSource []=.ok plainSource :=
  readSource_of_fits lawful_readAvailable (by decide)

/-- The read fails only at the limit. -/
theorem readSource_eq_error {σ : Type} {read : Reader σ} {maxBytes : ℕ} {source : σ} {content : Bytes}
    {e : ExtractionError} (h : readSource read maxBytes source content=.error e) : e=sourceTooLarge := by
  fun_induction readSource read maxBytes source content with
  | case1 => cases h
  | case2 => cases h; rfl
  | case3 source content b bs rest hread hfits ih => exact ih h

def extractionQuality (content : Bytes) (exported : List (PyStr × Json)) (figures : List Json)
    (markdown : PyStr) : List (PyStr × Json) :=
  let textLength := (strip isSpace markdown).length
  [(py "source_bytes",.int content.length),
    (py "text_characters",.int textLength),
    (py "table_count",.int (match (exported.lookup (py "tables")).getD (.list []) with
      | .list tables => tables.length
      | _ => 0)),
    (py "figure_count",.int figures.length),
    (py "empty_text",.bool (decide (textLength=0))),
    (py "visual_interpretation",.str (py "not_performed"))]

def doclingConversionFailed : ExtractionError :=
  ⟨py "docling_conversion_failed",py "Docling could not normalize this PDF."⟩
def invalidDoclingOutput : ExtractionError :=
  ⟨py "invalid_docling_output",py "Docling did not produce a structured document."⟩

/-- What Docling does with a file: it is not installed, it raises, or it exports. -/
inductive DoclingAnswer
  | importError
  | raises
  | exports (exported : PyVal) (markdown : PyStr)

/-- `DoclingPdfConverter.convert`. -/
def doclingConvert : DoclingAnswer → Conversion
  | .importError => .error (.other .runtimeError)
  | .raises => .error (.extraction doclingConversionFailed)
  | .exports (.dict items) markdown => .ok (toPy.toPyItems (withoutBinaryDict items),markdown)
  | .exports _ _ => .error (.extraction invalidDoclingOutput)

/-- Docling's own errors are about the conversion. -/
theorem doclingConvert_eq_extraction {answer : DoclingAnswer} {e : ExtractionError}
    (h : doclingConvert answer=.error (.extraction e)) :
    e=doclingConversionFailed ∨ e=invalidDoclingOutput := by
  cases answer with
  | importError => cases h
  | raises => cases h; exact .inl rfl
  | exports exported markdown =>
    cases exported with
    | dict => cases h
    | _ => cases h; exact .inr rfl

/-- Docling answers with a dictionary only. -/
theorem doclingConvert_eq_ok {answer : DoclingAnswer} {pair : List (PyKey × PyVal) × PyStr}
    (h : doclingConvert answer=.ok pair) : ∃ items markdown, answer=.exports (.dict items) markdown := by
  cases answer with
  | exports exported markdown =>
    cases exported with
    | dict items => exact ⟨items,markdown,rfl⟩
    | _ => cases h
  | _ => cases h

section
variable (rt : Runtime)

/-- The result for a sanitised export. -/
def extractionResult (content : Bytes) (exported : List (PyStr × Json)) (markdown : PyStr) :
    ExtractionResult :=
  let figures := figureEvidence rt.isPrintable exported
  { normalized := [
      (py "schema_version",.str (py "1.0.0")),
      (py "format",.str (py "pdf")),
      (py "markdown",.str markdown),
      (py "document",.dict exported),
      (py "figures",.list figures),
      (py "visual_interpretation",.str (py "not_performed"))]
    manifest := [
      (py "extractor",.str (py "docling")),
      (py "extractor_version",.str rt.doclingVersion),
      (py "quality",.dict (extractionQuality content exported figures markdown))]
    extractionStatus := if strip isSpace markdown=[] then .needsReview else .succeeded }

/-- `extract_pdf` with the worker's converter. -/
def extractPdf {σ : Type} (read : Reader σ) (source : σ) (maxBytes : ℕ) (expectedSha256 : PyStr)
    (convert : Bytes → Conversion) : Except Raised ExtractionResult :=
  match readSource read maxBytes source [] with
  | .error e => .error (.extraction e)
  | .ok content =>
    if content=[] then .error (.extraction emptySource)
    else
      match convert content with
      | .error e => .error e
      | .ok (exported,markdown) =>
        let exported := withoutBinaryDict exported
        if hexdigest (rt.sha256 content)≠expectedSha256 then
          .error (.extraction sourceChecksumMismatch)
        else .ok (extractionResult rt content exported markdown)

variable {rt}

/-- A successful extraction read a nonempty source with the expected hash and converted it. -/
theorem extractPdf_eq_ok {σ : Type} {read : Reader σ} {source : σ} {maxBytes : ℕ}
    {expectedSha256 : PyStr} {convert : Bytes → Conversion} {result : ExtractionResult}
    (h : extractPdf rt read source maxBytes expectedSha256 convert=.ok result) :
    ∃ content exported markdown, readSource read maxBytes source []=.ok content ∧ content≠[] ∧
      convert content=.ok (exported,markdown) ∧ hexdigest (rt.sha256 content)=expectedSha256 ∧
      result=extractionResult rt content (withoutBinaryDict exported) markdown := by
  unfold extractPdf at h
  split at h
  · cases h
  · rename_i content hread
    split at h
    · cases h
    · rename_i hne
      split at h
      · cases h
      · rename_i exported markdown hconvert
        dsimp only at h
        split at h
        · cases h
        · rename_i hsha
          cases h
          exact ⟨content,exported,markdown,hread,hne,hconvert,not_not.mp hsha,rfl⟩

theorem extractPdf_of_read {σ : Type} {read : Reader σ} {source : σ} {maxBytes : ℕ}
    {convert : Bytes → Conversion} {content : Bytes} {exported : List (PyKey × PyVal)}
    {markdown : PyStr} (hread : readSource read maxBytes source []=.ok content) (hne : content≠[])
    (hconvert : convert content=.ok (exported,markdown)) :
    extractPdf rt read source maxBytes (hexdigest (rt.sha256 content)) convert=
      .ok (extractionResult rt content (withoutBinaryDict exported) markdown) := by
  simp [extractPdf,hread,hne,hconvert]

/-- Only the converter raises another error. -/
theorem extractPdf_eq_other {σ : Type} {read : Reader σ} {source : σ} {maxBytes : ℕ}
    {expectedSha256 : PyStr} {convert : Bytes → Conversion} {e : PyError}
    (h : extractPdf rt read source maxBytes expectedSha256 convert=.error (.other e)) :
    ∃ content, convert content=.error (.other e) := by
  unfold extractPdf at h
  split at h
  · cases h
  · rename_i content _
    split at h
    · cases h
    · split at h
      · rename_i hconvert
        cases h
        exact ⟨content,hconvert⟩
      · dsimp only at h
        split at h
        · cases h
        · cases h

/-- An extraction fails by its size, as empty, by the converter, or by its hash. -/
theorem extractPdf_eq_extraction {σ : Type} {read : Reader σ} {source : σ} {maxBytes : ℕ}
    {expectedSha256 : PyStr} {convert : Bytes → Conversion} {e : ExtractionError}
    (h : extractPdf rt read source maxBytes expectedSha256 convert=.error (.extraction e)) :
    readSource read maxBytes source []=.error e ∨
      ∃ content, readSource read maxBytes source []=.ok content ∧
        (e=emptySource ∨ convert content=.error (.extraction e) ∨
          e=sourceChecksumMismatch ∧ hexdigest (rt.sha256 content)≠expectedSha256) := by
  unfold extractPdf at h
  split at h
  · rename_i hread
    cases h
    exact .inl hread
  · rename_i content hread
    refine .inr ⟨content,hread,?_⟩
    split at h
    · cases h; exact .inl rfl
    · split at h
      · cases h; exact .inr (.inl ‹_›)
      · dsimp only at h
        split at h
        · cases h; exact .inr (.inr ⟨rfl,‹_›⟩)
        · cases h

/-- The markdown of the result has no character that is not whitespace. -/
def ExtractionResult.blank (result : ExtractionResult) : Bool :=
  match result.normalized.lookup (py "markdown") with
  | some (.str markdown) => decide (strip isSpace markdown=[])
  | _ => false

/-- The extraction status grades the markdown of the result. -/
theorem extractPdf_status {σ : Type} {read : Reader σ} {source : σ} {maxBytes : ℕ}
    {expectedSha256 : PyStr} {convert : Bytes → Conversion} {result : ExtractionResult}
    (h : extractPdf rt read source maxBytes expectedSha256 convert=.ok result) :
    result.extractionStatus=if result.blank then .needsReview else .succeeded := by
  obtain ⟨content,exported,markdown,-,-,-,-,rfl⟩ := extractPdf_eq_ok h
  have hmarkdown : (extractionResult rt content (withoutBinaryDict exported) markdown).normalized.lookup
      (py "markdown")=some (.str markdown) := rfl
  simp only [ExtractionResult.blank,hmarkdown,decide_eq_true_eq]
  rfl

end

def plainHash : PyStr := hexdigest (plainRuntime.sha256 plainSource)

/-- The extraction of the plain source with a given answer of the converter. -/
theorem extractPdf_plainSource (exported : List (PyKey × PyVal)) (markdown : PyStr) :
    extractPdf plainRuntime readAvailable plainSource 1048576 plainHash
        (fun _ => .ok (exported,markdown))=
      .ok (extractionResult plainRuntime plainSource (withoutBinaryDict exported) markdown) :=
  extractPdf_of_read read_plainSource (by simp [plainSource]) rfl

end RagIngestion.Extractor
