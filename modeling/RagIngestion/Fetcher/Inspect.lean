import RagIngestion.Python.Stream
import RagIngestion.Python.Value

/-! `inspect_pdf`: the bounded read of the source, its signature, and the PDF reader's answer. -/
namespace RagIngestion.Fetcher
open RagIngestion.Python

/-- A deterministic source-object problem that must not be retried. -/
structure FetchValidationError where
  code : PyStr
  detail : PyStr
  metadata : List (PyStr × Json)

structure SourceInspection where
  detectedMimeType : PyStr
  contentSha256 : PyStr
  byteSize : ℕ
  metadata : List (PyStr × Json)

/-- What `PdfReader` makes of a buffer: it is encrypted, it has pages, it raises one of the
four errors the inspector catches, or it raises another one. -/
inductive PdfAnswer
  | encrypted
  | pages (count : ℕ)
  | unreadable
  | raises (error : PyError)

/-- An exception on the way through the fetcher. -/
inductive Raised
  | validation (error : FetchValidationError)
  | other (error : PyError)

def permittedMimeTypes : List PyStr := [py "application/pdf",py "application/octet-stream"]

def declaredMimeTypeMismatch : FetchValidationError :=
  ⟨py "declared_mime_type_mismatch",
    py "The submitted MIME type is not permitted by the PDF-first fetcher.",[]⟩
def invalidPdfSignature : FetchValidationError :=
  ⟨py "invalid_pdf_signature",py "Object does not start with a PDF signature.",[]⟩
def encryptedPdfUnsupported : FetchValidationError :=
  ⟨py "encrypted_pdf_unsupported",py "Encrypted PDFs are not supported by this pipeline.",[]⟩
def corruptPdf : FetchValidationError :=
  ⟨py "corrupt_pdf",py "PDF could not be read by the PDF inspector.",[]⟩

def documentTooLarge (maxDocumentBytes observed : ℕ) : FetchValidationError :=
  ⟨py "document_too_large",py "PDF exceeds the configured document byte limit.",
    [(py "max_document_bytes",.int maxDocumentBytes),
      (py "observed_bytes_at_rejection",.int observed)]⟩

/-- `b"%PDF-"`. -/
def pdfSignature : Bytes := [37,80,68,70,45]

/-- The read loop; `content` is what the digest and the buffer hold so far. -/
def inspectLoop {σ : Type} (read : Reader σ) (maxDocumentBytes : ℕ) (chunk : Bytes) (source : σ)
    (content : Bytes) : Except FetchValidationError Bytes :=
  match chunk with
  | [] => .ok content
  | b::bs =>
    if maxDocumentBytes<content.length+(bs.length+1) then
      .error (documentTooLarge maxDocumentBytes (content.length+(bs.length+1)))
    else
      let (chunk,source) := read source
        (min chunkSize (maxDocumentBytes-(content.length+(bs.length+1))+1))
      inspectLoop read maxDocumentBytes chunk source (content ++ b::bs)
termination_by maxDocumentBytes-content.length
decreasing_by simp only [List.length_append,List.length_cons]; omega

/-- Content within the limit is read to its end. -/
theorem inspectLoop_of_fits {σ : Type} {read : Reader σ} {remaining : σ → Bytes}
    (hlaw : Lawful read remaining) {maxDocumentBytes : ℕ} {chunk : Bytes} {source : σ}
    {content : Bytes} (hend : chunk=[] → remaining source=[])
    (h : content.length+chunk.length+(remaining source).length ≤ maxDocumentBytes) :
    inspectLoop read maxDocumentBytes chunk source content=
      .ok (content ++ chunk ++ remaining source) := by
  fun_induction inspectLoop read maxDocumentBytes chunk source content with
  | case1 source content => simp [hend rfl]
  | case2 source content b bs htoo =>
    simp only [List.length_cons] at h
    omega
  | case3 source content b bs hfits chunk rest hread ih =>
    have hnext := hlaw.reads source (min chunkSize (maxDocumentBytes-(content.length+(bs.length+1))+1))
    rw [hread] at hnext
    have hlength := congrArg List.length hnext
    simp only [List.length_append,List.length_cons] at hlength h
    have hrest : chunk=[] → remaining rest=[] := by
      rintro rfl
      rw [← List.nil_append (remaining rest),hnext]
      refine hlaw.ends source _ ?_ (by rw [hread])
      exact lt_min (by decide) (Nat.succ_pos _)
    rw [ih hrest (by simp only [List.length_append,List.length_cons]; omega),
      List.append_assoc (content ++ b::bs),hnext]

/-- What the loop returns is all the content, and within the limit. -/
theorem inspectLoop_eq_ok {σ : Type} {read : Reader σ} {remaining : σ → Bytes}
    (hlaw : Lawful read remaining) {maxDocumentBytes : ℕ} {chunk : Bytes} {source : σ}
    {content all : Bytes} (hend : chunk=[] → remaining source=[])
    (hcontent : content.length ≤ maxDocumentBytes)
    (h : inspectLoop read maxDocumentBytes chunk source content=.ok all) :
    all=content ++ chunk ++ remaining source ∧ all.length ≤ maxDocumentBytes := by
  fun_induction inspectLoop read maxDocumentBytes chunk source content with
  | case1 source content =>
    cases h
    simpa [hend rfl] using hcontent
  | case2 source content b bs htoo => cases h
  | case3 source content b bs hfits chunk rest hread ih =>
    have hnext := hlaw.reads source (min chunkSize (maxDocumentBytes-(content.length+(bs.length+1))+1))
    rw [hread] at hnext
    have hrest : chunk=[] → remaining rest=[] := by
      rintro rfl
      rw [← List.nil_append (remaining rest),hnext]
      refine hlaw.ends source _ ?_ (by rw [hread])
      exact lt_min (by decide) (Nat.succ_pos _)
    obtain ⟨rfl,hlength⟩ := ih hrest (by simp only [List.length_append,List.length_cons]; omega) h
    refine ⟨?_,hlength⟩
    rw [List.append_assoc (content ++ b::bs),hnext]

/-- The loop fails only at the limit. -/
theorem inspectLoop_eq_error {σ : Type} {read : Reader σ} {maxDocumentBytes : ℕ} {chunk : Bytes}
    {source : σ} {content : Bytes} {e : FetchValidationError}
    (h : inspectLoop read maxDocumentBytes chunk source content=.error e) :
    ∃ observed, e=documentTooLarge maxDocumentBytes observed := by
  fun_induction inspectLoop read maxDocumentBytes chunk source content with
  | case1 => cases h
  | case2 => cases h; exact ⟨_,rfl⟩
  | case3 source content b bs hfits chunk rest hread ih => exact ih h

/-- The inspection of a buffer the PDF reader could open. -/
def sourceInspection (sha256 : Bytes → Digest) (declaredMimeType : Option PyStr)
    (maxDocumentBytes : ℕ) (content : Bytes) (pageCount : ℕ) : SourceInspection where
  detectedMimeType := py "application/pdf"
  contentSha256 := hexdigest (sha256 content)
  byteSize := content.length
  metadata := [
    (py "declared_mime_type",match declaredMimeType with | none => .null | some t => .str t),
    (py "detected_mime_type",.str (py "application/pdf")),
    (py "format",.str (py "pdf")),
    (py "preliminary_page_count",.int pageCount),
    (py "max_document_bytes",.int maxDocumentBytes),
    (py "is_encrypted",.bool false)]

lemma sourceInspection_contentSha256 (sha256 : Bytes → Digest) (declaredMimeType : Option PyStr)
    (maxDocumentBytes : ℕ) (content : Bytes) (pageCount : ℕ) :
    (sourceInspection sha256 declaredMimeType maxDocumentBytes content pageCount).contentSha256=
      hexdigest (sha256 content) := by
  simp only [sourceInspection]

/-- `inspect_pdf`. -/
def inspectPdf {σ : Type} (sha256 : Bytes → Digest) (pdfReader : Bytes → PdfAnswer)
    (read : Reader σ) (source : σ) (declaredMimeType : Option PyStr) (maxDocumentBytes : ℕ) :
    Except Raised SourceInspection :=
  let declared := declaredMimeType.getD []
  if declared≠[] ∧ declared ∉ permittedMimeTypes then .error (.validation declaredMimeTypeMismatch)
  else
    let (firstChunk,source) := read source (min chunkSize (maxDocumentBytes+1))
    if ¬pdfSignature <+: firstChunk then .error (.validation invalidPdfSignature)
    else
      match inspectLoop read maxDocumentBytes firstChunk source [] with
      | .error e => .error (.validation e)
      | .ok content =>
        match pdfReader content with
        | .encrypted => .error (.validation encryptedPdfUnsupported)
        | .unreadable => .error (.validation corruptPdf)
        | .raises e => .error (.other e)
        | .pages count => .ok (sourceInspection sha256 declaredMimeType maxDocumentBytes content count)

/-- The bytes `inspect_pdf` reads from a source. -/
def inspectedBytes {σ : Type} (read : Reader σ) (source : σ) (maxDocumentBytes : ℕ) :
    Except FetchValidationError Bytes :=
  let (firstChunk,source) := read source (min chunkSize (maxDocumentBytes+1))
  inspectLoop read maxDocumentBytes firstChunk source []

/-- All of the content is read, exactly when it fits. -/
theorem inspectedBytes_eq_ok_iff {σ : Type} {read : Reader σ} {remaining : σ → Bytes}
    (hlaw : Lawful read remaining) {source : σ} {maxDocumentBytes : ℕ} {all : Bytes} :
    inspectedBytes read source maxDocumentBytes=.ok all ↔
      all=remaining source ∧ (remaining source).length ≤ maxDocumentBytes := by
  let n := min chunkSize (maxDocumentBytes+1)
  have hnext := hlaw.reads source n
  have hend : (read source n).1=[] → remaining (read source n).2=[] := by
    intro h
    have hdone := hlaw.ends source n (lt_min (by decide) (Nat.succ_pos _)) h
    rw [h,List.nil_append] at hnext
    rw [hnext,hdone]
  constructor
  · intro h
    obtain ⟨rfl,hlength⟩ := inspectLoop_eq_ok hlaw hend (Nat.zero_le _) h
    rw [List.nil_append,hnext] at hlength ⊢
    exact ⟨rfl,hlength⟩
  · rintro ⟨rfl,hfits⟩
    have hlength := congrArg List.length hnext
    rw [List.length_append] at hlength
    have hloop := inspectLoop_of_fits hlaw hend
      (show ([] : Bytes).length+_+_ ≤ maxDocumentBytes by simp only [List.length_nil]; omega)
    rwa [List.nil_append,hnext] at hloop

/-- A returned inspection describes the bytes it was made from. -/
theorem inspectPdf_eq_ok {σ : Type} {sha256 : Bytes → Digest} {pdfReader : Bytes → PdfAnswer}
    {read : Reader σ} {source : σ} {declaredMimeType : Option PyStr} {maxDocumentBytes : ℕ}
    {inspection : SourceInspection}
    (h : inspectPdf sha256 pdfReader read source declaredMimeType maxDocumentBytes=.ok inspection) :
    ∃ content count, inspectedBytes read source maxDocumentBytes=.ok content ∧
      pdfReader content=.pages count ∧
      inspection=sourceInspection sha256 declaredMimeType maxDocumentBytes content count := by
  unfold inspectPdf at h
  dsimp only at h
  split at h
  · cases h
  · split at h
    · cases h
    · split at h
      · cases h
      · rename_i content hloop
        split at h
        · cases h
        · cases h
        · cases h
        · rename_i count hpages
          cases h
          exact ⟨content,count,hloop,hpages,rfl⟩

/-- The errors of an inspection. -/
theorem inspectPdf_eq_validation {σ : Type} {sha256 : Bytes → Digest} {pdfReader : Bytes → PdfAnswer}
    {read : Reader σ} {source : σ} {declaredMimeType : Option PyStr} {maxDocumentBytes : ℕ}
    {e : FetchValidationError} (h : inspectPdf sha256 pdfReader read source declaredMimeType
      maxDocumentBytes=.error (.validation e)) :
    e ∈ [declaredMimeTypeMismatch,invalidPdfSignature,encryptedPdfUnsupported,corruptPdf] ∨
      ∃ observed, e=documentTooLarge maxDocumentBytes observed := by
  unfold inspectPdf at h
  dsimp only at h
  split at h
  · cases h; simp
  · split at h
    · cases h; simp
    · split at h
      · rename_i hloop
        cases h
        exact .inr (inspectLoop_eq_error hloop)
      · split at h
        · cases h; simp
        · cases h; simp
        · cases h
        · cases h

/-- Of content within the limit, an inspection describes all of it. -/
theorem inspectPdf_of_fits {σ : Type} (sha256 : Bytes → Digest) (pdfReader : Bytes → PdfAnswer)
    {read : Reader σ} {remaining : σ → Bytes} (hlaw : Lawful read remaining) {source : σ}
    (declaredMimeType : Option PyStr) {maxDocumentBytes : ℕ}
    (hfits : (remaining source).length ≤ maxDocumentBytes) :
    (∃ count, inspectPdf sha256 pdfReader read source declaredMimeType maxDocumentBytes=
      .ok (sourceInspection sha256 declaredMimeType maxDocumentBytes (remaining source) count)) ∨
    (∃ e ∈ [declaredMimeTypeMismatch,invalidPdfSignature,encryptedPdfUnsupported,corruptPdf],
      inspectPdf sha256 pdfReader read source declaredMimeType maxDocumentBytes=
        .error (.validation e)) ∨
    ∃ e, pdfReader (remaining source)=.raises e ∧
      inspectPdf sha256 pdfReader read source declaredMimeType maxDocumentBytes=.error (.other e) := by
  have hloop : inspectLoop read maxDocumentBytes (read source (min chunkSize (maxDocumentBytes+1))).1
      (read source (min chunkSize (maxDocumentBytes+1))).2 []=.ok (remaining source) :=
    (inspectedBytes_eq_ok_iff hlaw).mpr ⟨rfl,hfits⟩
  unfold inspectPdf
  dsimp only
  split
  · exact .inr (.inl ⟨_,by simp,rfl⟩)
  · split
    · exact .inr (.inl ⟨_,by simp,rfl⟩)
    · rw [hloop]
      dsimp only
      cases hanswer : pdfReader (remaining source) with
      | encrypted => exact .inr (.inl ⟨_,by simp,rfl⟩)
      | unreadable => exact .inr (.inl ⟨_,by simp,rfl⟩)
      | raises e => exact .inr (.inr ⟨e,rfl,rfl⟩)
      | pages count => exact .inl ⟨count,rfl⟩

/-- With a limit of at least one chunk, a returned inspection is one of a whole PDF within the
limit that the PDF reader opens. -/
theorem inspectPdf_eq_ok_iff {sha256 : Bytes → Digest} {pdfReader : Bytes → PdfAnswer} {content : Bytes}
    {maxDocumentBytes : ℕ} {inspection : SourceInspection} (hlimit : chunkSize ≤ maxDocumentBytes) :
    inspectPdf sha256 pdfReader readAvailable content none maxDocumentBytes=.ok inspection ↔
      pdfSignature <+: content ∧ content.length ≤ maxDocumentBytes ∧ ∃ count,
        pdfReader content=.pages count ∧
          inspection=sourceInspection sha256 none maxDocumentBytes content count := by
  have hfirst : pdfSignature <+: (readAvailable content (min chunkSize (maxDocumentBytes+1))).1 ↔
      pdfSignature <+: content := by
    rw [Nat.min_eq_left (by omega),readAvailable,List.prefix_take_iff]
    exact and_iff_left (by decide)
  constructor
  · intro h
    obtain ⟨all,count,hread,hpages,rfl⟩ := inspectPdf_eq_ok h
    obtain ⟨rfl,hfits⟩ := (inspectedBytes_eq_ok_iff lawful_readAvailable).mp hread
    refine ⟨?_,hfits,count,hpages,rfl⟩
    by_contra hnot
    simp [inspectPdf,hfirst,hnot] at h
  · rintro ⟨hsignature,hfits,count,hpages,rfl⟩
    have hloop : inspectLoop readAvailable maxDocumentBytes
        (readAvailable content (min chunkSize (maxDocumentBytes+1))).1
        (readAvailable content (min chunkSize (maxDocumentBytes+1))).2 []=.ok content :=
      (inspectedBytes_eq_ok_iff lawful_readAvailable).mpr ⟨rfl,hfits⟩
    simp [inspectPdf,hfirst,hsignature,hloop,hpages]

/-- Only the PDF reader raises another error. -/
theorem inspectPdf_eq_other {σ : Type} {sha256 : Bytes → Digest} {pdfReader : Bytes → PdfAnswer}
    {read : Reader σ} {source : σ} {declaredMimeType : Option PyStr} {maxDocumentBytes : ℕ}
    {e : PyError}
    (h : inspectPdf sha256 pdfReader read source declaredMimeType maxDocumentBytes=.error (.other e)) :
    ∃ content, pdfReader content=.raises e := by
  unfold inspectPdf at h
  dsimp only at h
  split at h
  · cases h
  · split at h
    · cases h
    · split at h
      · cases h
      · rename_i content _
        split at h
        · cases h
        · cases h
        · rename_i hraises
          cases h
          exact ⟨content,hraises⟩
        · cases h

end RagIngestion.Fetcher
