import RagIngestion.Extractor.Readback
import RagIngestion.Library.Progress
import RagIngestion.Pipeline.Integrity

/-! Over every run, what reaches the artifact bucket can be read back. -/
namespace RagIngestion.Pipeline
open RagIngestion.Python RagIngestion.Domain RagIngestion.Database RagIngestion.Storage
open RagIngestion.Library

/-- A converter's floats are Python's: `json.dumps` writes them so that `float` reads them back. -/
def Exact (decimal : PyStr → String) : Action → Prop
  | .extract _ (.extract _ convert) => ∀ content exported markdown,
      convert content=.ok (exported,markdown) → (PyVal.dict exported).Floats decimal
  | _ => True

/-- What an artifact holds: the normalised content of a result, or its manifest. -/
inductive Artifact (p : DocumentFetched) (result : Extractor.ExtractionResult) :
    PyStr → List (PyStr × Json) → Prop
  | normalized {ids} (hids : Extractor.payloadIds p=.ok ids) :
      Artifact p result (Extractor.normalizedKey ids p) result.normalized
  | manifest {ids} (hids : Extractor.payloadIds p=.ok ids) :
      Artifact p result (Extractor.manifestKey ids p) (Extractor.manifestArtifact p result)

variable {c : Config} {decimal : PyStr → String} {past : List (World × Action)} {w : World}

/-- The result of a call that read a source can be written and read back. -/
lemma loadable_extracted (hexact : ∀ x ∈ past, Exact decimal x.2) {t : ℕ} {p : DocumentFetched}
    {result : Extractor.ExtractionResult} {content : Bytes} (h : Extracted c past t p result content) :
    result.Loadable decimal := by
  obtain ⟨s,body,read,convert,hin,-,-,hextract⟩ := h
  obtain ⟨bytes,exported,markdown,-,-,hconvert,-,rfl⟩ := Extractor.extractPdf_eq_ok hextract
  have hfloats := hexact _ hin bytes exported markdown hconvert
  exact Extractor.loadable_extractionResult c.rt bytes markdown (Extractor.loadable_withoutBinary hfloats)

/-- In every run, an object of the artifact bucket that changes at a step is from then on the JSON
text, in UTF-8, of the normalised content or the manifest of a result that the call which stored it
had extracted from a source: decoded and loaded it has the same entries. -/
theorem artifacts_read_back (h : (system c).Traced past w) (hexact : ∀ x ∈ past, Exact decimal x.2)
    {s after : World} {a : Action} (hin : (s,a) ∈ past) (ha : step c s a=some after) {key : PyStr}
    (hchanged : after.artifacts key≠s.artifacts key) :
    ∃ t p result content body value, after.artifacts key=some body ∧
      Extracted c past t p result content ∧ Artifact p result key value ∧
      Extractor.ReadsBack decimal body value := by
  obtain ⟨t,p,result,body,hstored,hbody⟩ := artifacts_step hin ha hchanged
  have hresult : ∀ {u : World} {b : Action}, (u,b) ∈ past → (u.extracting t).active=some p →
      (u.extracting t).result=some result → ∃ content, Extracted c past t p result content := by
    intro u b hb hp hr
    obtain ⟨before,hpast,htraced⟩ := h.past hb
    obtain ⟨content,hextracted,-⟩ := extracted_of_result htraced hp hr
    exact ⟨content,hextracted.mono (fun x hx => hpast.subset (List.mem_append_left _ hx))⟩
  cases hstored with
  | normalized hb ht _ hids hwritten =>
    obtain ⟨content,hextracted⟩ := hresult hb (by rw [ht]; rfl) (by rw [ht]; rfl)
    exact ⟨t,p,result,content,body,_,hbody,hextracted,.normalized hids,
      Extractor.readsBack_artifactBody hwritten (loadable_extracted hexact hextracted).normalized⟩
  | manifest hb ht _ hids hwritten =>
    obtain ⟨content,hextracted⟩ := hresult hb (by rw [ht]; rfl) (by rw [ht]; rfl)
    exact ⟨t,p,result,content,body,_,hbody,hextracted,.manifest hids,
      Extractor.readsBack_artifactBody hwritten
        (Extractor.loadable_manifestArtifact p (loadable_extracted hexact hextracted))⟩

/-- A conversion that exports a number with a point. -/
def measured : Bytes → Extractor.Conversion := fun _ =>
  .ok ([(.str (py "width"),.float "1.5")],py "text")

def measuredRun : List Action :=
  (smallRun (py "text")).take 18 ++ [.extract 0 (.deliver smallFetched),.extract 0 (.get .none),
    .extract 0 (.extract readAvailable measured)]

def measuredStores : Action := .extract 0 (.putNormalized .none)

/-- `float` and `repr` on a text that is one already. -/
def sameText (s : PyStr) : String := String.ofList (s.map (fun c => Char.ofNat c.val))

lemma floatText_measured : FloatText sameText "1.5" := by
  refine .inr ⟨[],[49],[46,53],[],⟨.inl rfl,.inr ⟨⟨by simp,?_⟩,by simp⟩,.inr ⟨[53],⟨by simp,?_⟩,rfl⟩,.inl rfl⟩,
    by simp,rfl,by decide +kernel⟩
  · exact List.forall_mem_singleton.mpr rfl
  · exact List.forall_mem_singleton.mpr rfl

lemma exact_of_no_extract {a : Action} (h : ∀ t b, a≠.extract t b) : Exact decimal a := by
  cases a with
  | extract t b => exact absurd rfl (h t b)
  | _ => trivial

lemma exact_measuredRun : ∀ a ∈ measuredRun, Exact sameText a := by
  have hmeasured : Exact sameText (.extract 0 (.extract readAvailable measured)) := by
    intro content exported markdown h
    cases h
    exact ⟨floatText_measured,trivial⟩
  have hearlier : ∀ a ∈ (smallRun (py "text")).take 18, Exact sameText a := by
    simp only [smallRun,relay,List.cons_append,List.nil_append,List.take_succ_cons,List.take_zero,
      List.forall_mem_cons]
    refine ⟨?_,?_,?_,?_,?_,?_,?_,?_,?_,?_,?_,?_,?_,?_,?_,?_,?_,?_,fun a ha => (by cases ha)⟩ <;>
      exact exact_of_no_extract (fun _ _ h => (by cases h))
  rw [measuredRun,List.forall_mem_append]
  refine ⟨hearlier,?_⟩
  simp only [List.forall_mem_cons]
  exact ⟨trivial,trivial,hmeasured,fun a ha => (by cases ha)⟩

/-- The document with a measure is stored, and read back with it. -/
theorem measured_artifact_read_back : ∃ past s after key body value,
    (system plainConfig).Traced past after ∧ (s,measuredStores) ∈ past ∧
      s.artifacts key=none ∧ after.artifacts key=some body ∧
      Extractor.ReadsBack sameText body value := by
  have hrun : ((system plainConfig).run plainWorld measuredRun).any (fun s =>
      (step plainConfig s measuredStores).any (fun after =>
        (Extractor.payloadIds smallFetched).toOption.any (fun ids =>
          decide (s.artifacts (Extractor.normalizedKey ids smallFetched)=none) &&
            (after.artifacts (Extractor.normalizedKey ids smallFetched)).isSome)))=true := by
    decide +kernel
  obtain ⟨s,hs,hstores⟩ := (Option.any_eq_true _ _).mp hrun
  obtain ⟨after,hafter,hkey⟩ := (Option.any_eq_true _ _).mp hstores
  obtain ⟨ids,-,hchanged⟩ := (Option.any_eq_true _ _).mp hkey
  rw [Bool.and_eq_true,decide_eq_true_eq,Option.isSome_iff_exists] at hchanged
  obtain ⟨hnone,body,hbody⟩ := hchanged
  obtain ⟨past,hpast,hactions⟩ := System.Traced.run_actions (.start plainWorld_initial) hs
  rw [List.nil_append] at hpast
  have hexact : ∀ x ∈ past ++ [(s,measuredStores)], Exact sameText x.2 := by
    rw [List.forall_mem_append,List.forall_mem_singleton]
    refine ⟨fun x hx => exact_measuredRun x.2 ?_,trivial⟩
    exact hactions ▸ List.mem_map_of_mem hx
  have hnext : (system plainConfig).Traced (past ++ [(s,measuredStores)]) after :=
    hpast.next (a := measuredStores) hafter
  have hin : (s,measuredStores) ∈ past ++ [(s,measuredStores)] := by simp
  obtain ⟨t,p,result,content,body',value,hbody',-,-,hread⟩ :=
    artifacts_read_back hnext hexact hin hafter (by rw [hnone,hbody]; simp)
  exact ⟨_,s,after,_,body',value,hnext,hin,hnone,hbody',hread⟩

end RagIngestion.Pipeline
