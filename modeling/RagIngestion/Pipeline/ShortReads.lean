import RagIngestion.Fetcher.Streams
import RagIngestion.Extractor.Extract

/-! Two streams of the same content, cut into reads in different ways, and what the inspection and
the extraction make of them. -/
namespace RagIngestion.Pipeline
open RagIngestion.Python RagIngestion.Fetcher

/-- Equal inspections, or the same error code. -/
def SameVerdict : Except Fetcher.Raised SourceInspection → Except Fetcher.Raised SourceInspection → Prop
  | .ok i,.ok j => i=j
  | .error (.validation e),.error (.validation e') => e.code=e'.code
  | .error (.other e),.error (.other e') => e=e'
  | _,_ => False

@[simp] lemma SameVerdict.refl (r : Except Fetcher.Raised SourceInspection) : SameVerdict r r := by
  cases r with
  | ok i => rfl
  | error e =>
    cases e with
    | validation e => rfl
    | other e => rfl

/-- The content starts with the signature, and the first read does not hold all of it. -/
def Cut {σ : Type} (read : Reader σ) (remaining : σ → Bytes) (source : σ) (maxDocumentBytes : ℕ) :
    Prop :=
  pdfSignature <+: remaining source ∧
    ¬pdfSignature <+: (read source (min chunkSize (maxDocumentBytes+1))).1

/-- What an inspection makes of a stream: its first read decides on the signature. -/
theorem inspectPdf_of_permitted {σ : Type} (sha256 : Bytes → Digest) (pdfReader : Bytes → PdfAnswer)
    (read : Reader σ) (source : σ) {declaredMimeType : Option PyStr} (maxDocumentBytes : ℕ)
    (hdeclared : ¬(declaredMimeType.getD []≠[] ∧ declaredMimeType.getD [] ∉ permittedMimeTypes)) :
    inspectPdf sha256 pdfReader read source declaredMimeType maxDocumentBytes=
      if pdfSignature <+: (read source (min chunkSize (maxDocumentBytes+1))).1 then
        match inspectedBytes read source maxDocumentBytes with
        | .error e => .error (.validation e)
        | .ok content => inspected sha256 pdfReader declaredMimeType maxDocumentBytes content
      else .error (.validation invalidPdfSignature) := by
  unfold inspectPdf
  rw [if_neg hdeclared]
  dsimp only
  by_cases h : pdfSignature <+: (read source (min chunkSize (maxDocumentBytes+1))).1
  · rw [if_pos h,if_neg (not_not.mpr h)]
    rfl
  · rw [if_neg h,if_pos h]

section
variable {σ τ : Type} {read : Reader σ} {remaining : σ → Bytes} {read' : Reader τ}
  {remaining' : τ → Bytes} {source : σ} {source' : τ} {maxDocumentBytes : ℕ}

/-- A first read that starts with the signature is one of content that does. -/
lemma prefix_of_first (hlaw : Lawful read remaining) {n : ℕ}
    (h : pdfSignature <+: (read source n).1) : pdfSignature <+: remaining source := by
  rw [← hlaw.reads source n]
  exact h.trans (List.prefix_append _ _)

lemma prefix_first_iff (hlaw : Lawful read remaining)
    (h : ¬Cut read remaining source maxDocumentBytes) :
    pdfSignature <+: (read source (min chunkSize (maxDocumentBytes+1))).1 ↔
      pdfSignature <+: remaining source := by
  constructor
  · exact prefix_of_first hlaw
  · intro hcontent
    by_contra hfirst
    exact h ⟨hcontent,hfirst⟩

/-- Content over the limit is too large, however it is cut. -/
lemma inspectedBytes_of_long (hlaw : Lawful read remaining)
    (h : maxDocumentBytes<(remaining source).length) : ∃ observed,
      inspectedBytes read source maxDocumentBytes=.error (documentTooLarge maxDocumentBytes observed) := by
  cases hread : inspectedBytes read source maxDocumentBytes with
  | ok all => exact absurd ((inspectedBytes_eq_ok_iff hlaw).mp hread).2 (by omega)
  | error e =>
    obtain ⟨observed,rfl⟩ := inspectLoop_eq_error hread
    exact ⟨observed,rfl⟩

/-- Past the signature, the verdict is one of the content. -/
lemma sameVerdict_read (sha256 : Bytes → Digest) (pdfReader : Bytes → PdfAnswer)
    (declaredMimeType : Option PyStr) (hlaw : Lawful read remaining) (hlaw' : Lawful read' remaining')
    (hsame : remaining source=remaining' source') : SameVerdict
      (match inspectedBytes read source maxDocumentBytes with
        | .error e => .error (.validation e)
        | .ok content => inspected sha256 pdfReader declaredMimeType maxDocumentBytes content)
      (match inspectedBytes read' source' maxDocumentBytes with
        | .error e => .error (.validation e)
        | .ok content => inspected sha256 pdfReader declaredMimeType maxDocumentBytes content) := by
  by_cases hfits : (remaining source).length ≤ maxDocumentBytes
  · rw [(inspectedBytes_eq_ok_iff hlaw).mpr ⟨rfl,hfits⟩,
      (inspectedBytes_eq_ok_iff hlaw').mpr ⟨rfl,hsame ▸ hfits⟩,hsame]
    exact SameVerdict.refl _
  · have hlong : maxDocumentBytes<(remaining source).length := not_le.mp hfits
    have hlong' : maxDocumentBytes<(remaining' source').length := hsame ▸ hlong
    obtain ⟨observed,ho⟩ := inspectedBytes_of_long hlaw hlong
    obtain ⟨observed',ho'⟩ := inspectedBytes_of_long hlaw' hlong'
    rw [ho,ho']
    rfl

/-- An inspection past the signature does not complain about it. -/
lemma not_sameVerdict_read (sha256 : Bytes → Digest) (pdfReader : Bytes → PdfAnswer)
    (declaredMimeType : Option PyStr) : ¬SameVerdict (.error (.validation invalidPdfSignature))
      (match inspectedBytes read source maxDocumentBytes with
        | .error e => .error (.validation e)
        | .ok content => inspected sha256 pdfReader declaredMimeType maxDocumentBytes content) := by
  cases hread : inspectedBytes read source maxDocumentBytes with
  | error e =>
    obtain ⟨observed,rfl⟩ := inspectLoop_eq_error hread
    exact (by decide : py "invalid_pdf_signature"≠py "document_too_large")
  | ok content =>
    intro h
    dsimp only at h
    cases hresult : inspected sha256 pdfReader declaredMimeType maxDocumentBytes content with
    | ok i => rw [hresult] at h; exact h
    | error e =>
      rw [hresult] at h
      cases e with
      | validation e => exact not_refuses_inspected (.head _) ⟨e,hresult,h.symm⟩
      | other e => exact h

lemma SameVerdict.symm {r r' : Except Fetcher.Raised SourceInspection} (h : SameVerdict r r') :
    SameVerdict r' r := by
  cases r with
  | ok i =>
    cases r' with
    | ok j => exact Eq.symm h
    | error e => exact h.elim
  | error e =>
    cases e with
    | validation e =>
      cases r' with
      | ok j => exact h.elim
      | error e' =>
        cases e' with
        | validation e' => exact Eq.symm h
        | other e' => exact h.elim
    | other e =>
      cases r' with
      | ok j => exact h.elim
      | error e' =>
        cases e' with
        | validation e' => exact h.elim
        | other e' => exact Eq.symm h

/-- The inspections of two streams of the same content agree exactly when the signature is cut by
both first reads or by neither. -/
theorem sameVerdict_inspectPdf_iff (sha256 : Bytes → Digest) (pdfReader : Bytes → PdfAnswer)
    {declaredMimeType : Option PyStr} (hlaw : Lawful read remaining) (hlaw' : Lawful read' remaining')
    (hsame : remaining source=remaining' source')
    (hdeclared : ¬(declaredMimeType.getD []≠[] ∧ declaredMimeType.getD [] ∉ permittedMimeTypes)) :
    SameVerdict (inspectPdf sha256 pdfReader read source declaredMimeType maxDocumentBytes)
        (inspectPdf sha256 pdfReader read' source' declaredMimeType maxDocumentBytes) ↔
      (Cut read remaining source maxDocumentBytes ↔ Cut read' remaining' source' maxDocumentBytes) := by
  rw [inspectPdf_of_permitted _ _ _ _ _ hdeclared,inspectPdf_of_permitted _ _ _ _ _ hdeclared]
  by_cases hc : Cut read remaining source maxDocumentBytes
  · rw [if_neg hc.2]
    by_cases hc' : Cut read' remaining' source' maxDocumentBytes
    · rw [if_neg hc'.2]
      exact iff_of_true (SameVerdict.refl _) (iff_of_true hc hc')
    · rw [if_pos ((prefix_first_iff hlaw' hc').mpr (hsame ▸ hc.1))]
      exact iff_of_false (not_sameVerdict_read _ _ _) (fun h => hc' (h.mp hc))
  · by_cases hc' : Cut read' remaining' source' maxDocumentBytes
    · rw [if_neg hc'.2,if_pos ((prefix_first_iff hlaw hc).mpr (hsame ▸ hc'.1))]
      exact iff_of_false (fun h => not_sameVerdict_read _ _ _ h.symm) (fun h => hc (h.mpr hc'))
    · refine iff_of_true ?_ (iff_of_false hc hc')
      by_cases hp : pdfSignature <+: remaining source
      · rw [if_pos ((prefix_first_iff hlaw hc).mpr hp),
          if_pos ((prefix_first_iff hlaw' hc').mpr (hsame ▸ hp))]
        exact sameVerdict_read _ _ _ hlaw hlaw' hsame
      · rw [if_neg (fun h => hp (prefix_of_first hlaw h)),
          if_neg (fun h => hp (hsame ▸ prefix_of_first hlaw' h))]
        exact SameVerdict.refl _

/-- The extraction does not see how its source is cut. -/
theorem extractPdf_reads (rt : Extractor.Runtime) (maxBytes : ℕ) (expectedSha256 : PyStr)
    (convert : Bytes → Extractor.Conversion) (hlaw : Lawful read remaining)
    (hlaw' : Lawful read' remaining') (hsame : remaining source=remaining' source') :
    Extractor.extractPdf rt read source maxBytes expectedSha256 convert=
      Extractor.extractPdf rt read' source' maxBytes expectedSha256 convert := by
  have hread : Extractor.readSource read maxBytes source []=
      Extractor.readSource read' maxBytes source' [] := by
    cases h : Extractor.readSource read maxBytes source [] with
    | ok all =>
      obtain ⟨hall,hfits⟩ := (Extractor.readSource_eq_ok_iff hlaw).mp h
      rw [hsame] at hall hfits
      exact ((Extractor.readSource_eq_ok_iff hlaw').mpr ⟨hall,hfits⟩).symm
    | error e =>
      cases h' : Extractor.readSource read' maxBytes source' [] with
      | ok all =>
        obtain ⟨hall,hfits⟩ := (Extractor.readSource_eq_ok_iff hlaw').mp h'
        rw [← hsame] at hall hfits
        rw [(Extractor.readSource_eq_ok_iff hlaw).mpr ⟨hall,hfits⟩] at h
        cases h
      | error e' =>
        rw [Extractor.readSource_eq_error h,Extractor.readSource_eq_error h']
  unfold Extractor.extractPdf
  rw [hread]

end

/-- The two workers reach the same verdicts on two streams of the same content exactly when the
declared type is refused, or the signature is cut by both first reads or by neither. -/
theorem verdicts_of_short_reads {σ τ : Type} (read : Reader σ) (remaining : σ → Bytes)
    (read' : Reader τ) (remaining' : τ → Bytes) (hlaw : Lawful read remaining)
    (hlaw' : Lawful read' remaining') (source : σ) (source' : τ)
    (hsame : remaining source=remaining' source') (sha256 : Bytes → Digest)
    (pdfReader : Bytes → PdfAnswer) (declaredMimeType : Option PyStr) (maxDocumentBytes : ℕ)
    (rt : Extractor.Runtime) (maxBytes : ℕ) (expectedSha256 : PyStr)
    (convert : Bytes → Extractor.Conversion) :
    (SameVerdict (inspectPdf sha256 pdfReader read source declaredMimeType maxDocumentBytes)
        (inspectPdf sha256 pdfReader read' source' declaredMimeType maxDocumentBytes) ∧
      Extractor.extractPdf rt read source maxBytes expectedSha256 convert=
        Extractor.extractPdf rt read' source' maxBytes expectedSha256 convert) ↔
      (declaredMimeType.getD []≠[] ∧ declaredMimeType.getD [] ∉ permittedMimeTypes) ∨
        (Cut read remaining source maxDocumentBytes ↔
          Cut read' remaining' source' maxDocumentBytes) := by
  rw [and_iff_left (extractPdf_reads rt maxBytes expectedSha256 convert hlaw hlaw' hsame)]
  by_cases hdeclared : declaredMimeType.getD []≠[] ∧ declaredMimeType.getD [] ∉ permittedMimeTypes
  · refine iff_of_true ?_ (.inl hdeclared)
    simp only [inspectPdf,if_pos hdeclared,SameVerdict.refl]
  · rw [or_iff_right hdeclared]
    exact sameVerdict_inspectPdf_iff sha256 pdfReader hlaw hlaw' hsame hdeclared

/-- A stream that returns at most so many bytes a read. -/
def readAtMost (most : ℕ) : Reader Bytes := fun source n => readAvailable source (min most n)

lemma lawful_readAtMost {most : ℕ} (hmost : 0 < most) : Lawful (readAtMost most) id :=
  ⟨fun source n => lawful_readAvailable.reads source (min most n),
    fun source n hn h => lawful_readAvailable.ends source (min most n) (lt_min hmost hn) h⟩

/-- Fourteen bytes, of which two reads return eight and six. -/
def longerSource : Bytes := plainSource ++ [49,46,55,10,37,37,69,79,70]

theorem short_reads_of_longer_source : Lawful (readAtMost 8) id ∧ Lawful readAvailable id ∧
    readAtMost 8 longerSource 1048576=(longerSource.take 8,longerSource.drop 8) ∧
    SameVerdict (inspectPdf plainSha256 (fun _ => .pages 1) (readAtMost 8) longerSource none 1048576)
      (inspectPdf plainSha256 (fun _ => .pages 1) readAvailable longerSource none 1048576) := by
  refine ⟨lawful_readAtMost (by decide),lawful_readAvailable,rfl,?_⟩
  refine ((verdicts_of_short_reads (readAtMost 8) id readAvailable id (lawful_readAtMost (by decide))
    lawful_readAvailable longerSource longerSource rfl plainSha256 (fun _ => .pages 1) none 1048576
    Extractor.plainRuntime 1048576 [] (fun _ => .ok ([],[]))).mpr (.inr ?_)).1
  exact iff_of_false (fun h => h.2 (by decide)) (fun h => h.2 (by decide))

/-- A first read of four bytes makes a refused object of a PDF. -/
theorem short_first_read_refused : Lawful (readAtMost 4) id ∧ Lawful readAvailable id ∧
    inspectPdf plainSha256 (fun _ => .pages 1) (readAtMost 4) plainSource none 1048576=
      .error (.validation invalidPdfSignature) ∧
    ¬SameVerdict (inspectPdf plainSha256 (fun _ => .pages 1) (readAtMost 4) plainSource none 1048576)
      (inspectPdf plainSha256 (fun _ => .pages 1) readAvailable plainSource none 1048576) := by
  have hrefused : inspectPdf plainSha256 (fun _ => .pages 1) (readAtMost 4) plainSource none 1048576=
      .error (.validation invalidPdfSignature) := by
    rw [inspectPdf_of_permitted _ _ _ _ _ (by simp)]
    exact if_neg (by decide)
  refine ⟨lawful_readAtMost (by decide),lawful_readAvailable,hrefused,?_⟩
  rw [hrefused,inspectPdf_of_permitted _ _ _ _ _ (by simp),if_pos (by decide)]
  exact not_sameVerdict_read _ _ _

end RagIngestion.Pipeline
