import RagIngestion.Fetcher.Inspect
import RagIngestion.Library.Sequences

/-! How much `inspect_pdf` reads of a stream that may never end, and what it makes of it. -/
namespace RagIngestion.Fetcher
open RagIngestion.Python RagIngestion.Library

/-- `inspectLoop`, with the source as it leaves it. -/
def inspectLoopFrom {σ : Type} (read : Reader σ) (maxDocumentBytes : ℕ) (chunk : Bytes) (source : σ)
    (content : Bytes) : Except FetchValidationError Bytes × σ :=
  match chunk with
  | [] => (.ok content,source)
  | b::bs =>
    if maxDocumentBytes<content.length+(bs.length+1) then
      (.error (documentTooLarge maxDocumentBytes (content.length+(bs.length+1))),source)
    else
      let (chunk,source) := read source
        (min chunkSize (maxDocumentBytes-(content.length+(bs.length+1))+1))
      inspectLoopFrom read maxDocumentBytes chunk source (content ++ b::bs)
termination_by maxDocumentBytes-content.length
decreasing_by simp only [List.length_append,List.length_cons]; omega

lemma inspectLoopFrom_fst {σ : Type} (read : Reader σ) (maxDocumentBytes : ℕ) (chunk : Bytes)
    (source : σ) (content : Bytes) : (inspectLoopFrom read maxDocumentBytes chunk source content).1=
      inspectLoop read maxDocumentBytes chunk source content := by
  fun_induction inspectLoopFrom read maxDocumentBytes chunk source content with
  | case1 source content => rw [inspectLoop]
  | case2 source content b bs htoo => rw [inspectLoop,if_pos htoo]
  | case3 source content b bs hfits chunk rest hread ih =>
    rw [ih]
    conv_rhs => rw [inspectLoop,if_neg hfits,hread]

/-- What the inspection makes of the bytes it has read. -/
def inspected (sha256 : Bytes → Digest) (pdfReader : Bytes → PdfAnswer)
    (declaredMimeType : Option PyStr) (maxDocumentBytes : ℕ) (content : Bytes) :
    Except Raised SourceInspection :=
  match pdfReader content with
  | .encrypted => .error (.validation encryptedPdfUnsupported)
  | .unreadable => .error (.validation corruptPdf)
  | .raises e => .error (.other e)
  | .pages count => .ok (sourceInspection sha256 declaredMimeType maxDocumentBytes content count)

/-- `inspectPdf`, with the source as it leaves it. -/
def inspectPdfFrom {σ : Type} (sha256 : Bytes → Digest) (pdfReader : Bytes → PdfAnswer)
    (read : Reader σ) (source : σ) (declaredMimeType : Option PyStr) (maxDocumentBytes : ℕ) :
    Except Raised SourceInspection × σ :=
  let declared := declaredMimeType.getD []
  if declared≠[] ∧ declared ∉ permittedMimeTypes then
    (.error (.validation declaredMimeTypeMismatch),source)
  else
    let (firstChunk,source) := read source (min chunkSize (maxDocumentBytes+1))
    if ¬pdfSignature <+: firstChunk then (.error (.validation invalidPdfSignature),source)
    else
      let (content,source) := inspectLoopFrom read maxDocumentBytes firstChunk source []
      match content with
      | .error e => (.error (.validation e),source)
      | .ok content => (inspected sha256 pdfReader declaredMimeType maxDocumentBytes content,source)

theorem inspectPdfFrom_fst {σ : Type} (sha256 : Bytes → Digest) (pdfReader : Bytes → PdfAnswer)
    (read : Reader σ) (source : σ) (declaredMimeType : Option PyStr) (maxDocumentBytes : ℕ) :
    (inspectPdfFrom sha256 pdfReader read source declaredMimeType maxDocumentBytes).1=
      inspectPdf sha256 pdfReader read source declaredMimeType maxDocumentBytes := by
  unfold inspectPdfFrom inspectPdf
  dsimp only
  split
  · rfl
  · split
    · rfl
    · rw [← inspectLoopFrom_fst]
      generalize inspectLoopFrom read maxDocumentBytes _ _ []=looped
      obtain ⟨content,rest⟩ := looped
      cases content with
      | error e => rfl
      | ok content => rfl

/-- What the loop has read is a prefix of the stream, and one read more is at most one byte over
the limit. -/
theorem inspectLoopFrom_read {s : Stream'.Seq UInt8} {maxDocumentBytes : ℕ} {chunk : Bytes}
    {source : Cursor UInt8} {content : Bytes} (hsource : source=⟨s,(content ++ chunk).length⟩)
    (hread : content ++ chunk=s.take (content ++ chunk).length)
    (hlimit : (content ++ chunk).length ≤ maxDocumentBytes+1)
    (hend : chunk=[] → s.get? content.length=none) (hcontent : content.length ≤ maxDocumentBytes) :
    inspectLoopFrom Cursor.read maxDocumentBytes chunk source content=
      (if (s.get? maxDocumentBytes).isSome then
          .error (documentTooLarge maxDocumentBytes (maxDocumentBytes+1))
        else .ok (s.take maxDocumentBytes),⟨s,(s.take (maxDocumentBytes+1)).length⟩) := by
  fun_induction inspectLoopFrom Cursor.read maxDocumentBytes chunk source content with
  | case1 source content =>
    have hnone := hend rfl
    rw [List.append_nil] at hsource hread
    have hover := take_eq_of_get?_eq_none (hcontent.trans (Nat.le_succ _)) hnone
    rw [take_eq_of_get?_eq_none hcontent hnone,hover,← hread,s.le_stable hcontent hnone,hsource]
    rfl
  | case2 source content b bs htoo =>
    have hlength := congrArg List.length hread
    simp only [List.length_append,List.length_cons] at hsource hlength hlimit
    have hat : content.length+(bs.length+1)=maxDocumentBytes+1 := by omega
    rw [hat] at hsource hlength
    have hsome : (s.get? maxDocumentBytes).isSome := by
      by_contra hnone
      rw [Option.not_isSome_iff_eq_none] at hnone
      rw [take_eq_of_get?_eq_none (Nat.le_succ _) hnone] at hlength
      have := Stream'.Seq.length_take_le (s := s) (n := maxDocumentBytes)
      omega
    rw [if_pos hsome,← hlength,hat,hsource]
  | case3 source content b bs hfits chunk rest hnext ih =>
    have hlength : (content ++ b::bs).length=content.length+(bs.length+1) := by
      rw [List.length_append,List.length_cons]
    obtain ⟨hrest,hchunk⟩ : rest=⟨s,(content ++ b::bs ++ chunk).length⟩ ∧
        chunk=(s.drop (content ++ b::bs).length).take
          (min chunkSize (maxDocumentBytes-(content ++ b::bs).length+1)) := by
      rw [hsource,← hlength,Cursor.read_mk] at hnext
      obtain ⟨rfl,rfl⟩ := Prod.mk.inj hnext
      exact ⟨by rw [@List.length_append _ _ (Stream'.Seq.take _ _)],rfl⟩
    have hbudget : chunk.length ≤ maxDocumentBytes-(content ++ b::bs).length+1 := by
      rw [hchunk]
      exact Stream'.Seq.length_take_le.trans (min_le_right _ _)
    apply ih hrest
    · rw [hchunk]
      exact append_read hread _
    · rw [List.length_append]
      omega
    · intro hempty
      rw [hempty] at hchunk
      exact get?_eq_none_of_read (lt_min (by decide) (Nat.succ_pos _)) hchunk.symm
    · omega

/-- The loop after a first read of a whole chunk. -/
theorem inspectLoopFrom_start (s : Stream'.Seq UInt8) {maxDocumentBytes : ℕ}
    (hlimit : chunkSize ≤ maxDocumentBytes) :
    inspectLoopFrom Cursor.read maxDocumentBytes (s.take chunkSize) ⟨s,(s.take chunkSize).length⟩ []=
      (if (s.get? maxDocumentBytes).isSome then
          .error (documentTooLarge maxDocumentBytes (maxDocumentBytes+1))
        else .ok (s.take maxDocumentBytes),⟨s,(s.take (maxDocumentBytes+1)).length⟩) := by
  have hlength := Stream'.Seq.length_take_le (s := s) (n := chunkSize)
  apply inspectLoopFrom_read
  · rw [List.nil_append]
  · rw [List.nil_append,take_length_take]
  · rw [List.nil_append]
    omega
  · intro hempty
    exact get?_eq_none_of_read (m := 0) (by decide) hempty
  · exact Nat.zero_le _

/-- The run of `inspect_pdf` on a permitted declared type. -/
theorem inspectPdfFrom_start (sha256 : Bytes → Digest) (pdfReader : Bytes → PdfAnswer)
    (s : Stream'.Seq UInt8) {declaredMimeType : Option PyStr} {maxDocumentBytes : ℕ}
    (hdeclared : declaredMimeType.getD []=[] ∨ declaredMimeType.getD [] ∈ permittedMimeTypes)
    (hlimit : chunkSize ≤ maxDocumentBytes) :
    inspectPdfFrom sha256 pdfReader Cursor.read (Cursor.start s) declaredMimeType maxDocumentBytes=
      if s.take pdfSignature.length=pdfSignature then
        (if (s.get? maxDocumentBytes).isSome then
            .error (.validation (documentTooLarge maxDocumentBytes (maxDocumentBytes+1)))
          else inspected sha256 pdfReader declaredMimeType maxDocumentBytes (s.take maxDocumentBytes),
          ⟨s,(s.take (maxDocumentBytes+1)).length⟩)
      else (.error (.validation invalidPdfSignature),⟨s,(s.take chunkSize).length⟩) := by
  have hpermitted : ¬(declaredMimeType.getD []≠[] ∧ declaredMimeType.getD [] ∉ permittedMimeTypes) := by
    tauto
  have hfirst : (Cursor.start s).read (min chunkSize (maxDocumentBytes+1))=
      (s.take chunkSize,⟨s,(s.take chunkSize).length⟩) := by
    rw [Nat.min_eq_left (by omega),Cursor.start,Cursor.read_mk,Stream'.Seq.drop_zero,Nat.zero_add]
  have hsignature : pdfSignature <+: s.take chunkSize ↔
      s.take pdfSignature.length=pdfSignature := by
    rw [List.prefix_iff_eq_take,take_take,Nat.min_eq_left (by decide),eq_comm]
  unfold inspectPdfFrom
  rw [if_neg hpermitted,hfirst]
  dsimp only
  by_cases h : s.take pdfSignature.length=pdfSignature
  · rw [if_pos h,if_neg (not_not.mpr (hsignature.mpr h)),inspectLoopFrom_start s hlimit]
    by_cases hlong : (s.get? maxDocumentBytes).isSome
    · simp only [if_pos hlong]
    · simp only [if_neg hlong]
  · rw [if_neg h,if_pos (fun hp => h (hsignature.mp hp))]

/-- The call raises the validation error of this code. -/
def Refuses (result : Except Raised SourceInspection) (code : PyStr) : Prop :=
  ∃ e, result=.error (.validation e) ∧ e.code=code

lemma refuses_validation {e : FetchValidationError} {code : PyStr} :
    Refuses (.error (.validation e)) code ↔ e.code=code := by
  constructor
  · intro h
    obtain ⟨e',he,hcode⟩ := h
    cases he
    exact hcode
  · intro h
    exact ⟨e,rfl,h⟩

/-- Neither error of the read loop comes from the PDF reader. -/
lemma not_refuses_inspected {sha256 : Bytes → Digest} {pdfReader : Bytes → PdfAnswer}
    {declaredMimeType : Option PyStr} {maxDocumentBytes : ℕ} {content : Bytes} {code : PyStr}
    (h : code ∈ [py "invalid_pdf_signature",py "document_too_large"]) :
    ¬Refuses (inspected sha256 pdfReader declaredMimeType maxDocumentBytes content) code := by
  intro hrefuses
  obtain ⟨e,he,rfl⟩ := hrefuses
  unfold inspected at he
  cases hanswer : pdfReader content with
  | encrypted => rw [hanswer] at he; cases he; revert h; decide
  | unreadable => rw [hanswer] at he; cases he; revert h; decide
  | raises error => rw [hanswer] at he; cases he
  | pages count => rw [hanswer] at he; cases he

lemma inspected_eq_ok {sha256 : Bytes → Digest} {pdfReader : Bytes → PdfAnswer}
    {declaredMimeType : Option PyStr} {maxDocumentBytes : ℕ} {content : Bytes}
    {inspection : SourceInspection}
    (h : inspected sha256 pdfReader declaredMimeType maxDocumentBytes content=.ok inspection) :
    inspection.byteSize=content.length ∧ inspection.contentSha256=hexdigest (sha256 content) := by
  unfold inspected at h
  cases hanswer : pdfReader content with
  | encrypted => rw [hanswer] at h; cases h
  | unreadable => rw [hanswer] at h; cases h
  | raises error => rw [hanswer] at h; cases h
  | pages count =>
    rw [hanswer] at h
    cases h
    exact ⟨rfl,sourceInspection_contentSha256 _ _ _ _ _⟩

/-- An inspection reads at most one byte over the limit, of whatever stream. It refuses what does
not start as a PDF, then what is longer than the limit, and gives the PDF reader all the rest. -/
theorem inspection_bounded_exact (sha256 : Bytes → Digest) (pdfReader : Bytes → PdfAnswer)
    (s : Stream'.Seq UInt8) (declaredMimeType : Option PyStr) (maxDocumentBytes : ℕ)
    (hdeclared : declaredMimeType.getD []=[] ∨ declaredMimeType.getD [] ∈ permittedMimeTypes)
    (hlimit : chunkSize ≤ maxDocumentBytes) :
    let result := inspectPdf sha256 pdfReader Cursor.read (Cursor.start s) declaredMimeType
      maxDocumentBytes
    (inspectPdfFrom sha256 pdfReader Cursor.read (Cursor.start s) declaredMimeType
        maxDocumentBytes).2.position ≤ maxDocumentBytes+1 ∧
      (Refuses result (py "invalid_pdf_signature") ↔ s.take pdfSignature.length≠pdfSignature) ∧
      (s.take pdfSignature.length=pdfSignature →
        (Refuses result (py "document_too_large") ↔ (maxDocumentBytes : ℕ∞)<s.length') ∧
        ((maxDocumentBytes : ℕ∞)<s.length' →
          result=.error (.validation (documentTooLarge maxDocumentBytes (maxDocumentBytes+1)))) ∧
        (s.length' ≤ maxDocumentBytes → ∃ content, s=Stream'.Seq.ofList content ∧
          result=inspected sha256 pdfReader declaredMimeType maxDocumentBytes content ∧
          ∀ inspection, result=.ok inspection → inspection.byteSize=content.length ∧
            inspection.contentSha256=hexdigest (sha256 content))) := by
  intro result
  have hrun := inspectPdfFrom_start sha256 pdfReader s hdeclared hlimit
  have hresult : result=(inspectPdfFrom sha256 pdfReader Cursor.read (Cursor.start s)
      declaredMimeType maxDocumentBytes).1 := (inspectPdfFrom_fst _ _ _ _ _ _).symm
  have hlong : (maxDocumentBytes : ℕ∞)<s.length' ↔ (s.get? maxDocumentBytes).isSome := by
    rw [Stream'.Seq.lt_length'_iff,Option.isSome_iff_exists]
    rfl
  rw [hrun] at hresult ⊢
  by_cases h : s.take pdfSignature.length=pdfSignature
  · rw [if_pos h] at hresult ⊢
    refine ⟨Stream'.Seq.length_take_le,?_,fun _ => ?_⟩
    · refine iff_of_false ?_ (not_not.mpr h)
      rw [hresult]
      split
      · rw [refuses_validation]
        exact (by decide : py "document_too_large"≠py "invalid_pdf_signature")
      · exact not_refuses_inspected (by simp)
    · by_cases hlonger : (s.get? maxDocumentBytes).isSome
      · rw [hresult,hlong]
        dsimp only
        rw [if_pos hlonger]
        refine ⟨iff_of_true (refuses_validation.mpr rfl) hlonger,fun _ => rfl,fun hle => ?_⟩
        exact absurd (hlong.mpr hlonger) (not_lt.mpr hle)
      · rw [hresult,hlong]
        dsimp only
        rw [if_neg hlonger]
        refine ⟨iff_of_false (not_refuses_inspected (by simp)) hlonger,
          fun hl => absurd hl hlonger,fun _ => ⟨s.take maxDocumentBytes,?_,rfl,?_⟩⟩
        · exact (ofList_take_of_get?_eq_none (Option.not_isSome_iff_eq_none.mp hlonger)).symm
        · intro inspection hok
          exact inspected_eq_ok hok
  · rw [if_neg h] at hresult ⊢
    refine ⟨Stream'.Seq.length_take_le.trans (by omega),?_,fun hs => absurd hs h⟩
    rw [hresult]
    exact iff_of_true (refuses_validation.mpr rfl) h

/-- A PDF that never ends. -/
def endlessPdf : Stream'.Seq UInt8 := ⟨fun n => some (plainSource.getD n 0),by intro n h; cases h⟩

theorem endless_pdf_refused : chunkSize ≤ 1048576 ∧
    inspectPdf plainSha256 (fun _ => .unreadable) Cursor.read (Cursor.start endlessPdf)
        (some (py "application/pdf")) 1048576=
      .error (.validation (documentTooLarge 1048576 1048577)) ∧
    (inspectPdfFrom plainSha256 (fun _ => .unreadable) Cursor.read (Cursor.start endlessPdf)
      (some (py "application/pdf")) 1048576).2.position ≤ 1048577 := by
  have hexact := inspection_bounded_exact plainSha256 (fun _ => .unreadable) endlessPdf
    (some (py "application/pdf")) 1048576 (.inr (by decide)) (by decide)
  refine ⟨by decide,(hexact.2.2 rfl).2.1 ?_,hexact.1⟩
  exact Stream'.Seq.lt_length'_iff.mpr ⟨_,rfl⟩

end RagIngestion.Fetcher
