import RagIngestion.Extractor.Extract

/-! Which error a source with the wrong bytes is reported with: the hash is compared after the
conversion, so what the converter raises on these bytes comes first. -/
namespace RagIngestion.Extractor
open RagIngestion.Python RagIngestion.Database

/-- The extraction fails with the code of a wrong hash. -/
def ReportsMismatch (extraction : Except Raised ExtractionResult) : Prop :=
  ∃ e, extraction=.error (.extraction e) ∧ e.code=sourceChecksumMismatch.code

/-- The source is not empty, within the limit, and not what the event is about. -/
structure Tampered (rt : Runtime) (content : Bytes) (maxBytes : ℕ) (expectedSha256 : PyStr) : Prop where
  nonempty : 0<content.length
  fits : content.length ≤ maxBytes
  mismatch : hexdigest (rt.sha256 content)≠expectedSha256

section
variable {rt : Runtime} {σ : Type} {read : Reader σ} {remaining : σ → Bytes} {source : σ} {maxBytes : ℕ}
  {expectedSha256 : PyStr}

/-- A tampered source gives what the converter raises, or the wrong hash. -/
lemma Tampered.extractPdf (hlaw : Lawful read remaining)
    (h : Tampered rt (remaining source) maxBytes expectedSha256) (convert : Bytes → Conversion) :
    extractPdf rt read source maxBytes expectedSha256 convert=
      (convert (remaining source)).bind (fun _ => .error (.extraction sourceChecksumMismatch)) := by
  have hread : readSource read maxBytes source []=.ok (remaining source) :=
    readSource_of_fits hlaw (by simpa using h.fits)
  have hne : remaining source≠[] := List.ne_nil_of_length_pos h.nonempty
  simp only [Extractor.extractPdf,hread,if_neg hne]
  cases convert (remaining source) with
  | error e => rfl
  | ok pair => exact if_pos h.mismatch

/-- A tampered source is reported as such exactly when the converter raises nothing on its bytes
but possibly that code itself. -/
theorem tampering_reported_iff (hlaw : Lawful read remaining)
    (h : Tampered rt (remaining source) maxBytes expectedSha256) (convert : Bytes → Conversion) :
    ReportsMismatch (extractPdf rt read source maxBytes expectedSha256 convert) ↔
      ∀ raised, convert (remaining source)=.error raised →
        ∃ e, raised=.extraction e ∧ e.code=sourceChecksumMismatch.code := by
  rw [h.extractPdf hlaw]
  cases convert (remaining source) with
  | error raised =>
    constructor
    · rintro ⟨e,he,hcode⟩ raised' hraised
      cases hraised
      exact ⟨e,Except.error.inj he,hcode⟩
    · intro hraises
      obtain ⟨e,he,hcode⟩ := hraises raised rfl
      exact ⟨e,congrArg Except.error he,hcode⟩
  | ok pair =>
    refine iff_of_true ⟨_,rfl,rfl⟩ ?_
    intro raised hraised
    cases hraised

/-- With Docling, a tampered source is reported as such exactly when Docling makes a dictionary
of it. -/
theorem docling_reports_tampering_iff (hlaw : Lawful read remaining)
    (h : Tampered rt (remaining source) maxBytes expectedSha256) (answer : Bytes → DoclingAnswer) :
    ReportsMismatch (extractPdf rt read source maxBytes expectedSha256 (fun b => doclingConvert (answer b))) ↔
      ∃ items markdown, answer (remaining source)=.exports (.dict items) markdown := by
  rw [h.extractPdf hlaw]
  constructor
  · rintro ⟨e,he,hcode⟩
    cases hconvert : doclingConvert (answer (remaining source)) with
    | error raised =>
      rw [hconvert] at he
      cases he
      cases doclingConvert_eq_extraction hconvert with
      | inl hfailed => exact absurd (hfailed ▸ hcode) (by decide)
      | inr hinvalid => exact absurd (hinvalid ▸ hcode) (by decide)
    | ok pair => exact doclingConvert_eq_ok hconvert
  · rintro ⟨items,markdown,hanswer⟩
    rw [hanswer]
    exact ⟨_,rfl,rfl⟩

end

/-- The bytes `%PDF-` and a hash that is not theirs. -/
lemma tampered_plainSource : Tampered plainRuntime plainSource 1048576 [] :=
  ⟨by decide,by decide,by decide⟩

theorem converted_tampering_reported : (Tampered plainRuntime plainSource 1048576 [] ∧
    Lawful readAvailable id) ∧
    (ReportsMismatch (extractPdf plainRuntime readAvailable plainSource 1048576 [] (fun _ => .ok ([],[]))) ↔
      ∀ raised, (.ok ([],[]) : Conversion)=.error raised →
        ∃ e, raised=.extraction e ∧ e.code=sourceChecksumMismatch.code) :=
  ⟨⟨tampered_plainSource,lawful_readAvailable⟩,
    tampering_reported_iff lawful_readAvailable tampered_plainSource (fun _ => .ok ([],[]))⟩

/-- Where Docling cannot read the wrong bytes, the failure is reported as one of Docling. -/
theorem tampering_blamed_on_docling : ¬∀ (rt : Runtime) (σ : Type) (read : Reader σ)
    (remaining : σ → Bytes) (source : σ) (maxBytes : ℕ) (expectedSha256 : PyStr)
    (convert : Bytes → Conversion), Lawful read remaining →
    Tampered rt (remaining source) maxBytes expectedSha256 →
    ReportsMismatch (extractPdf rt read source maxBytes expectedSha256 convert) := by
  intro hall
  obtain ⟨e,he,hcode⟩ := hall plainRuntime Bytes readAvailable id plainSource 1048576 []
    (fun _ => doclingConvert .raises) lawful_readAvailable tampered_plainSource
  have hraises : extractPdf plainRuntime readAvailable plainSource 1048576 []
      (fun _ => doclingConvert .raises)=.error (.extraction doclingConversionFailed) :=
    Tampered.extractPdf lawful_readAvailable tampered_plainSource (fun _ => doclingConvert .raises)
  rw [hraises] at he
  cases he
  exact absurd hcode (by decide)

end RagIngestion.Extractor
