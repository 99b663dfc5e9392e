import RagIngestion.Extractor.Extract

/-! Figure evidence: sanitising a document a second time changes nothing, so each entry of
`figures` says of a picture what the stored document says, at the index of that picture. -/
namespace RagIngestion.Extractor
open RagIngestion.Python

/-- No dictionary in the value has a binary key, or one key twice. -/
inductive Clean : Json → Prop
  | null : Clean .null
  | bool {b} : Clean (.bool b)
  | int {i} : Clean (.int i)
  | float {r} : Clean (.float r)
  | str {s} : Clean (.str s)
  | list {xs} (hxs : ∀ x ∈ xs, Clean x) : Clean (.list xs)
  | dict {items} (hkeys : (items.map Prod.fst).Nodup) (hnames : ∀ kv ∈ items, isBinaryKey kv.1=false)
      (hitems : ∀ kv ∈ items, Clean kv.2) : Clean (.dict items)

/-- A sanitised value is clean. -/
theorem clean_withoutBinary (v : PyVal) : Clean (withoutBinary v) := by
  induction v using PyVal.ind with
  | none => exact .null
  | bool b => exact .bool
  | int i => exact .int
  | float r => exact .float
  | str s => exact .str
  | bytes b => exact .str
  | other t => exact .str
  | list xs ih =>
    refine .list ?_
    intro y hy
    rw [withoutBinaryList_eq_map] at hy
    obtain ⟨x,hx,rfl⟩ := List.mem_map.mp hy
    exact ih x hx
  | dict items ih =>
    refine .dict (Json.ofItems_keys_nodup _) ?_ ?_
    · intro kv hkv
      exact withoutBinaryDict_keys hkv
    · intro kv hkv
      obtain ⟨-,x,hx,rfl⟩ := mem_withoutBinaryItems (Json.mem_ofItems hkv)
      exact ih x hx

lemma toPyList_eq_map (xs : List Json) : toPy.toPyList xs=xs.map toPy := by
  induction xs with
  | nil => rfl
  | cons x xs ih => rw [toPy.toPyList,ih,List.map_cons]

/-- Items that are kept with their values are the items again. -/
lemma withoutBinaryItems_toPyItems {items : List (PyStr × Json)}
    (hnames : ∀ kv ∈ items, isBinaryKey kv.1=false)
    (hitems : ∀ kv ∈ items, withoutBinary (toPy kv.2)=kv.2) :
    withoutBinary.withoutBinaryItems (toPy.toPyItems items)=items := by
  induction items with
  | nil => rfl
  | cons kv items ih =>
    have hname : ¬isBinaryKey (PyKey.str kv.1).text=true := by
      rw [PyKey.text,hnames kv List.mem_cons_self]
      exact Bool.false_ne_true
    rw [toPy.toPyItems,withoutBinary.withoutBinaryItems,if_neg hname,hitems kv List.mem_cons_self,
      ih (fun x hx => hnames x (List.mem_cons_of_mem _ hx))
        (fun x hx => hitems x (List.mem_cons_of_mem _ hx))]
    rfl

/-- The sanitiser keeps what is clean. -/
theorem Clean.kept {v : Json} (h : Clean v) : withoutBinary (toPy v)=v := by
  induction h with
  | @list xs hxs ih =>
    have hmap : (xs.map toPy).map withoutBinary=xs := by
      rw [List.map_map]
      exact (List.map_congr_left ih).trans (List.map_id xs)
    rw [toPy,toPyList_eq_map,withoutBinary,withoutBinaryList_eq_map,hmap]
  | dict hkeys hnames hitems ih =>
    rw [toPy,withoutBinary,withoutBinaryItems_toPyItems hnames ih,Json.ofItems_eq_self hkeys]
  | _ => rfl

/-- Sanitising twice is sanitising once. -/
theorem withoutBinary_idempotent (v : PyVal) :
    withoutBinary (toPy (withoutBinary v))=withoutBinary v := (clean_withoutBinary v).kept

/-- That Docling's converter sanitises its export already makes no difference. -/
theorem extractPdf_docling (rt : Runtime) {σ : Type} (read : Reader σ) (source : σ) (maxBytes : ℕ)
    (expectedSha256 : PyStr) (items : List (PyKey × PyVal)) (markdown : PyStr) :
    extractPdf rt read source maxBytes expectedSha256
        (fun _ => doclingConvert (.exports (.dict items) markdown))=
      extractPdf rt read source maxBytes expectedSha256 (fun _ => .ok (items,markdown)) := by
  have htwice : withoutBinaryDict (toPy.toPyItems (withoutBinaryDict items))=withoutBinaryDict items :=
    Json.dict.inj (withoutBinary_idempotent (.dict items))
  simp only [extractPdf,doclingConvert,htwice]

lemma Clean.of_mem {items : List (PyStr × Json)} (h : Clean (.dict items)) {kv : PyStr × Json}
    (hkv : kv ∈ items) : Clean kv.2 := by
  cases h with
  | dict _ _ hitems => exact hitems kv hkv

lemma Clean.of_lookup {items : List (PyStr × Json)} (h : Clean (.dict items)) {key : PyStr}
    {value : Json} (hvalue : items.lookup key=some value) : Clean value := by
  obtain ⟨before,after,hitems,-⟩ := List.lookup_eq_some_iff.mp hvalue
  have hmem : (key,value) ∈ items := by simp [hitems]
  exact h.of_mem hmem

/-- `document["pictures"]`, or nothing where it is absent or not a list. -/
def pictures (document : List (PyStr × Json)) : List Json :=
  match document.lookup (py "pictures") with
  | some (.list xs) => xs
  | _ => []

lemma Clean.of_pictures {document : List (PyStr × Json)} (h : Clean (.dict document)) {x : Json}
    (hx : x ∈ pictures document) : Clean x := by
  unfold pictures at hx
  split at hx
  · rename_i xs hlookup
    cases h.of_lookup hlookup with
    | list hxs => exact hxs x hx
  · cases hx

/-- What the document says of the picture at an index. -/
def pictureEvidence (isPrintable : CodePoint → Bool) (index : ℕ) (picture : List (PyStr × Json)) :
    Json :=
  .dict [
    (py "figure_index",.int index),
    (py "self_ref",.str (((picture.lookup (py "self_ref")).getD (.str [])).pyStr isPrintable)),
    (py "captions",(picture.lookup (py "captions")).getD (.list [])),
    (py "provenance",(picture.lookup (py "prov")).getD (.list []))]

/-- There is one figure for each picture that is a dictionary, in their order: `indices` are the
places of these pictures. -/
structure Evidence (isPrintable : CodePoint → Bool) (pictures : List Json) (indices : List ℕ)
    (figures : List Json) : Prop where
  increasing : indices.Pairwise (· < ·)
  complete : ∀ i, i ∈ indices ↔ ∃ picture, pictures[i]?=some (.dict picture)
  entries : List.Forall₂ (fun i figure => ∃ picture, pictures[i]?=some (.dict picture) ∧
    figure=pictureEvidence isPrintable i picture) indices figures

section
variable {isPrintable : CodePoint → Bool}

/-- The entry of a clean picture says what the picture says. -/
lemma figureEntry_of_clean {picture : List (PyStr × Json)} (h : Clean (.dict picture)) (index : ℕ) :
    figureEntry isPrintable index picture=pictureEvidence isPrintable index picture := by
  have hget : ∀ key, withoutBinary (toPy ((picture.lookup key).getD (.list [])))=
      (picture.lookup key).getD (.list []) := by
    intro key
    cases hvalue : picture.lookup key with
    | none => rfl
    | some value => exact (h.of_lookup hvalue).kept
  rw [figureEntry,hget,hget]
  rfl

lemma figureEntries_append (n : ℕ) (xs ys : List Json) :
    figureEntries isPrintable n (xs ++ ys)=
      figureEntries isPrintable n xs ++ figureEntries isPrintable (n+xs.length) ys := by
  induction xs generalizing n with
  | nil => rfl
  | cons x xs ih =>
    have hlength : n+(x::xs).length=n+1+xs.length := by
      rw [List.length_cons]
      omega
    rw [hlength]
    cases x with
    | dict picture => simp only [List.cons_append,figureEntries,ih]
    | _ => simp only [List.cons_append,figureEntries,ih]

lemma Evidence.lt_length {pictures figures : List Json} {indices : List ℕ}
    (h : Evidence isPrintable pictures indices figures) {i : ℕ} (hi : i ∈ indices) :
    i<pictures.length := by
  obtain ⟨picture,hpicture⟩ := (h.complete i).mp hi
  exact (List.getElem?_eq_some_iff.mp hpicture).1

/-- Later pictures change nothing about the entries so far. -/
lemma Evidence.entries_mono {pictures figures : List Json} {indices : List ℕ}
    (h : Evidence isPrintable pictures indices figures) (more : List Json) :
    List.Forall₂ (fun i figure => ∃ picture, (pictures ++ more)[i]?=some (.dict picture) ∧
      figure=pictureEvidence isPrintable i picture) indices figures := by
  refine h.entries.imp ?_
  rintro i figure ⟨picture,hpicture,hfigure⟩
  have hlt := (List.getElem?_eq_some_iff.mp hpicture).1
  exact ⟨picture,by rw [List.getElem?_append_left hlt,hpicture],hfigure⟩

/-- One more picture that is a dictionary adds its entry. -/
lemma Evidence.snoc {pictures figures : List Json} {indices : List ℕ}
    (h : Evidence isPrintable pictures indices figures) (picture : List (PyStr × Json)) :
    Evidence isPrintable (pictures ++ [.dict picture]) (indices ++ [pictures.length])
      (figures ++ [pictureEvidence isPrintable pictures.length picture]) where
  increasing := by
    rw [List.pairwise_append]
    refine ⟨h.increasing,List.pairwise_singleton _ _,?_⟩
    intro i hi j hj
    rw [List.mem_singleton.mp hj]
    exact h.lt_length hi
  complete := by
    intro i
    rw [List.mem_append,List.mem_singleton,h.complete]
    by_cases hi : i<pictures.length
    · rw [List.getElem?_append_left hi,or_iff_left (by omega)]
    · rw [List.getElem?_append_right (by omega),List.getElem?_eq_none (by omega)]
      by_cases heq : i=pictures.length
      · simp [heq]
      · rw [List.getElem?_eq_none (by simp only [List.length_singleton]; omega)]
        simp [heq]
  entries := by
    refine List.rel_append (h.entries_mono _) (.cons ⟨picture,?_,rfl⟩ .nil)
    simp

/-- Anything else adds nothing. -/
lemma Evidence.skip {pictures figures : List Json} {indices : List ℕ}
    (h : Evidence isPrintable pictures indices figures) {x : Json} (hx : ∀ picture, x≠.dict picture) :
    Evidence isPrintable (pictures ++ [x]) indices figures where
  increasing := h.increasing
  complete := by
    intro i
    rw [h.complete]
    by_cases hi : i<pictures.length
    · rw [List.getElem?_append_left hi]
    · rw [List.getElem?_append_right (by omega),List.getElem?_eq_none (by omega)]
      by_cases heq : i=pictures.length
      · simp [heq,hx]
      · rw [List.getElem?_eq_none (by simp only [List.length_singleton]; omega)]
  entries := h.entries_mono _

/-- The loop over clean pictures collects their evidence. -/
theorem evidence_figureEntries {pictures : List Json} (h : ∀ x ∈ pictures, Clean x) :
    ∃ indices, Evidence isPrintable pictures indices (figureEntries isPrintable 0 pictures) := by
  induction pictures using List.reverseRecOn with
  | nil => exact ⟨[],List.Pairwise.nil,by simp,.nil⟩
  | append_singleton pictures x ih =>
    obtain ⟨indices,hevidence⟩ := ih (fun y hy => h y (List.mem_append_left _ hy))
    rw [figureEntries_append,Nat.zero_add]
    cases x with
    | dict picture =>
      rw [figureEntries,figureEntry_of_clean (h _ (by simp)),figureEntries]
      exact ⟨_,hevidence.snoc picture⟩
    | _ =>
      rw [figureEntries,figureEntries,List.append_nil]
      · exact ⟨_,hevidence.skip (by simp)⟩
      · simp

lemma figureEvidence_eq (document : List (PyStr × Json)) :
    figureEvidence isPrintable document=figureEntries isPrintable 0 (pictures document) := by
  unfold figureEvidence pictures
  cases document.lookup (py "pictures") with
  | none => rfl
  | some value => cases value <;> rfl

/-- `_figure_evidence` of a clean document. -/
theorem evidence_of_clean {document : List (PyStr × Json)} (h : Clean (.dict document)) :
    ∃ indices, Evidence isPrintable (pictures document) indices
      (figureEvidence isPrintable document) := by
  rw [figureEvidence_eq]
  exact evidence_figureEntries (fun _ hx => h.of_pictures hx)

end

/-- The figures of an extraction are the evidence of the pictures in its document, whatever was
exported, and are counted in its quality. -/
theorem figures_point_at_pictures {rt : Runtime} {σ : Type} {read : Reader σ} {source : σ}
    {maxBytes : ℕ} {expectedSha256 : PyStr} {convert : Bytes → Conversion} {result : ExtractionResult}
    (h : extractPdf rt read source maxBytes expectedSha256 convert=.ok result) :
    ∃ document figures indices, result.normalized.lookup (py "document")=some (.dict document) ∧
      result.normalized.lookup (py "figures")=some (.list figures) ∧
      Evidence rt.isPrintable (pictures document) indices figures ∧
      result.quality.get (py "figure_count")=some (.int figures.length) := by
  obtain ⟨content,exported,markdown,-,-,-,-,rfl⟩ := extractPdf_eq_ok h
  have hclean : Clean (.dict (withoutBinaryDict exported)) := clean_withoutBinary (.dict exported)
  obtain ⟨indices,hevidence⟩ := @evidence_of_clean rt.isPrintable _ hclean
  exact ⟨_,_,indices,rfl,rfl,hevidence,rfl⟩

/-- An export whose second picture is a dictionary, with an image. -/
def twoPictures : List (PyKey × PyVal) :=
  [(.str (py "pictures"),.list [.str (py "cover"),
    .dict [(.str (py "self_ref"),.str (py "#/pictures/1")),(.str (py "image"),.bytes [255])]])]

theorem one_figure_indexed : ∃ result, extractPdf plainRuntime readAvailable plainSource 1048576
      plainHash (fun _ => .ok (twoPictures,py "text"))=.ok result ∧
    ∃ document figures indices, result.normalized.lookup (py "document")=some (.dict document) ∧
      result.normalized.lookup (py "figures")=some (.list figures) ∧
      Evidence plainRuntime.isPrintable (pictures document) indices figures ∧
      result.quality.get (py "figure_count")=some (.int figures.length) :=
  ⟨_,extractPdf_plainSource _ _,figures_point_at_pictures (extractPdf_plainSource _ _)⟩

/-- Sanitising is idempotent: Docling's converter and `extract_pdf` together do what one of them
does, and the third time changes nothing about the parts of a picture. -/
theorem sanitised_once (rt : Runtime) {σ : Type} (read : Reader σ) (source : σ) (maxBytes : ℕ)
    (expectedSha256 : PyStr) (items : List (PyKey × PyVal)) (markdown : PyStr) :
    (∀ v, withoutBinary (toPy (withoutBinary v))=withoutBinary v) ∧
      extractPdf rt read source maxBytes expectedSha256
          (fun _ => doclingConvert (.exports (.dict items) markdown))=
        extractPdf rt read source maxBytes expectedSha256 (fun _ => .ok (items,markdown)) ∧
      ∀ picture index, .dict picture ∈ pictures (withoutBinaryDict items) →
        figureEntry rt.isPrintable index picture=pictureEvidence rt.isPrintable index picture := by
  refine ⟨withoutBinary_idempotent,extractPdf_docling rt read source _ _ items markdown,?_⟩
  intro picture index hpicture
  have hdocument : Clean (.dict (withoutBinaryDict items)) := clean_withoutBinary (.dict items)
  exact figureEntry_of_clean (hdocument.of_pictures hpicture) index

/-- The image of the second picture is gone after the first time. -/
theorem second_picture_kept :
    figureEntry plainRuntime.isPrintable 1 [(py "self_ref",.str (py "#/pictures/1"))]=
      pictureEvidence plainRuntime.isPrintable 1 [(py "self_ref",.str (py "#/pictures/1"))] :=
  (sanitised_once plainRuntime readAvailable plainSource 1048576 plainHash twoPictures
    (py "text")).2.2 _ 1 (List.mem_cons_of_mem _ List.mem_cons_self)

end RagIngestion.Extractor
