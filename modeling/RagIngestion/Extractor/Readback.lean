import RagIngestion.Domain.Contracts
import RagIngestion.Extractor.Handle
import RagIngestion.Python.DumpsLoads

/-! An artifact that `put_json` stores is read back by `decode` and `json.loads`: nothing of the
normalised content or the manifest is lost but the order of the keys. -/
namespace RagIngestion.Python

/-- The floats of an exported object have texts that `float` reads as themselves. -/
def PyVal.Floats (decimal : PyStr → String) : PyVal → Prop
  | .float r => FloatText decimal r
  | .list xs => floatsList xs
  | .dict items => floatsItems items
  | _ => True
where
  floatsList : List PyVal → Prop
    | [] => True
    | x::xs => x.Floats decimal ∧ floatsList xs
  floatsItems : List (PyKey × PyVal) → Prop
    | [] => True
    | (_,x)::items => x.Floats decimal ∧ floatsItems items

lemma PyVal.floatsList_iff (decimal : PyStr → String) (xs : List PyVal) :
    PyVal.Floats.floatsList decimal xs ↔ ∀ x ∈ xs, x.Floats decimal := by
  induction xs with
  | nil => simp [PyVal.Floats.floatsList]
  | cons x xs ih => rw [PyVal.Floats.floatsList,ih,List.forall_mem_cons]

lemma PyVal.floatsItems_iff (decimal : PyStr → String) (items : List (PyKey × PyVal)) :
    PyVal.Floats.floatsItems decimal items ↔ ∀ kv ∈ items, kv.2.Floats decimal := by
  induction items with
  | nil => simp [PyVal.Floats.floatsItems]
  | cons kv items ih => rw [PyVal.Floats.floatsItems,ih,List.forall_mem_cons]

namespace Json

lemma lookup_mem {key : PyStr} {value : Json} {items : List (PyStr × Json)}
    (h : items.lookup key=some value) : (key,value) ∈ items := by
  obtain ⟨before,after,hitems,-⟩ := List.lookup_eq_some_iff.mp h
  simp [hitems]

/-- A dictionary in another order answers alike. -/
lemma lookup_of_perm {items other : List (PyStr × Json)} (hkeys : (items.map Prod.fst).Nodup)
    (hperm : other.Perm items) (key : PyStr) : other.lookup key=items.lookup key := by
  cases h : items.lookup key with
  | some value => exact Library.lookup_of_perm hkeys hperm _ (lookup_mem h)
  | none =>
    cases hother : other.lookup key with
    | none => rfl
    | some value =>
      have hmem := hperm.mem_iff.mp (lookup_mem hother)
      rw [Library.lookup_of_mem hkeys hmem] at h
      cases h

lemma lookup_map (f : Json → Json) (items : List (PyStr × Json)) (key : PyStr) :
    (items.map (fun kv => (kv.1,f kv.2))).lookup key=(items.lookup key).map f := by
  induction items with
  | nil => rfl
  | cons kv items ih =>
    rw [List.map_cons,lookup_cons_eq,lookup_cons_eq,ih]
    split <;> rfl

/-- The entries of a dictionary that was written and read. -/
theorem get_arranged {items : List (PyStr × Json)} (hkeys : (items.map Prod.fst).Nodup)
    (sortKeys : Bool) (key : PyStr) :
    ((Json.dict items).arranged sortKeys).get key=(items.lookup key).map (arranged sortKeys) := by
  rw [arranged,arrangedItems_eq_map,get,← lookup_map]
  refine lookup_of_perm ?_ (inOrder_perm sortKeys _) key
  rw [List.map_map]
  exact hkeys

end Json
end RagIngestion.Python

namespace RagIngestion.Extractor
open RagIngestion.Python RagIngestion.Domain RagIngestion.Database RagIngestion.Storage

section
variable {decimal : PyStr → String}

lemma loadable_dict {items : List (PyStr × Json)} (hkeys : (items.map Prod.fst).Nodup)
    (h : ∀ kv ∈ items, kv.2.Loadable decimal false) : (Json.dict items).Loadable decimal false := by
  refine ⟨hkeys,(Json.loadableItems_iff decimal false items).mpr ?_⟩
  exact fun kv hkv => ⟨fun hfalse => (by cases hfalse),h kv hkv⟩

lemma loadable_entries {items : List (PyStr × Json)} (h : (Json.dict items).Loadable decimal false) :
    ∀ kv ∈ items, kv.2.Loadable decimal false :=
  fun kv hkv => ((Json.loadableItems_iff decimal false items).mp h.2 kv hkv).2

lemma loadable_lookup {key : PyStr} {default : Json} {items : List (PyStr × Json)}
    (h : (Json.dict items).Loadable decimal false) (hdefault : default.Loadable decimal false) :
    ((items.lookup key).getD default).Loadable decimal false := by
  cases hl : items.lookup key with
  | none => exact hdefault
  | some value => exact loadable_entries h _ (Json.lookup_mem hl)

lemma loadable_set {key : PyStr} {value : Json} {items : List (PyStr × Json)}
    (hvalue : value.Loadable decimal false) (h : (Json.dict items).Loadable decimal false) :
    (Json.dict (Json.set key value items)).Loadable decimal false := by
  refine loadable_dict (Json.set_keys_nodup key value h.1) ?_
  intro kv hkv
  cases Json.mem_set hkv with
  | inl hnew => rw [hnew]; exact hvalue
  | inr hold => exact loadable_entries h kv hold

/-- A sanitised value can be written and read back: its dictionaries are built key by key. -/
theorem loadable_withoutBinary {v : PyVal} (h : v.Floats decimal) :
    (withoutBinary v).Loadable decimal false := by
  induction v using PyVal.ind with
  | float r => exact h
  | str s => exact fun hfalse => (by cases hfalse)
  | bytes b => exact fun hfalse => (by cases hfalse)
  | other t => exact fun hfalse => (by cases hfalse)
  | list xs ih =>
    rw [withoutBinary,withoutBinaryList_eq_map]
    refine (Json.loadableList_iff decimal false _).mpr ?_
    intro y hy
    obtain ⟨x,hx,rfl⟩ := List.mem_map.mp hy
    exact ih x hx ((PyVal.floatsList_iff decimal xs).mp h x hx)
  | dict items ih =>
    refine loadable_dict (Json.ofItems_keys_nodup _) ?_
    intro kv hkv
    obtain ⟨-,x,hx,rfl⟩ := mem_withoutBinaryItems (Json.mem_ofItems hkv)
    exact ih x hx ((PyVal.floatsItems_iff decimal items).mp h x hx)
  | _ => trivial

/-- What was read is an object tree again. -/
lemma floats_toPy {v : Json} (h : v.Loadable decimal false) : (toPy v).Floats decimal := by
  induction v using Json.ind with
  | float r => exact h
  | list xs ih =>
    refine (PyVal.floatsList_iff decimal _).mpr ?_
    replace h := (Json.loadableList_iff decimal false xs).mp h
    induction xs with
    | nil => exact fun x hx => (by cases hx)
    | cons x xs ihxs =>
      rw [List.forall_mem_cons] at h ih
      exact List.forall_mem_cons.mpr ⟨ih.1 h.1,ihxs ih.2 h.2⟩
  | dict items ih =>
    refine (PyVal.floatsItems_iff decimal _).mpr ?_
    replace h := loadable_entries h
    induction items with
    | nil => exact fun x hx => (by cases hx)
    | cons kv items ihitems =>
      rw [List.forall_mem_cons] at h ih
      exact List.forall_mem_cons.mpr ⟨ih.1 h.1,ihitems ih.2 h.2⟩
  | _ => trivial

lemma loadable_str (s : PyStr) : (Json.str s).Loadable decimal false := fun hfalse => (by cases hfalse)

lemma loadable_figureEntry (isPrintable : CodePoint → Bool) (index : ℕ) {figure : List (PyStr × Json)}
    (h : (Json.dict figure).Loadable decimal false) :
    (figureEntry isPrintable index figure).Loadable decimal false := by
  have hempty : (Json.list []).Loadable decimal false := trivial
  have hkeys : ([py "figure_index",py "self_ref",py "captions",py "provenance"] : List PyStr).Nodup := by
    decide +kernel
  refine loadable_dict hkeys ?_
  simp only [List.forall_mem_cons]
  refine ⟨trivial,loadable_str _,?_,?_,fun x hx => (by cases hx)⟩
  · exact loadable_withoutBinary (floats_toPy (loadable_lookup h hempty))
  · exact loadable_withoutBinary (floats_toPy (loadable_lookup h hempty))

lemma loadable_figureEntries (isPrintable : CodePoint → Bool) {figures : List Json}
    (h : ∀ x ∈ figures, x.Loadable decimal false) (index : ℕ) :
    ∀ x ∈ figureEntries isPrintable index figures, x.Loadable decimal false := by
  induction figures generalizing index with
  | nil => exact fun x hx => (by cases hx)
  | cons figure figures ih =>
    rw [List.forall_mem_cons] at h
    cases figure with
    | dict figure => exact List.forall_mem_cons.mpr ⟨loadable_figureEntry _ _ h.1,ih h.2 (index+1)⟩
    | _ => exact ih h.2 (index+1)

lemma loadable_figureEvidence (isPrintable : CodePoint → Bool) {document : List (PyStr × Json)}
    (h : (Json.dict document).Loadable decimal false) :
    (Json.list (figureEvidence isPrintable document)).Loadable decimal false := by
  refine (Json.loadableList_iff decimal false _).mpr ?_
  have hempty : (Json.list []).Loadable decimal false := trivial
  have hpictures : ((document.lookup (py "pictures")).getD (.list [])).Loadable decimal false :=
    loadable_lookup h hempty
  unfold figureEvidence
  split
  · rename_i figures heq
    rw [heq] at hpictures
    exact loadable_figureEntries isPrintable ((Json.loadableList_iff decimal false figures).mp hpictures) 0
  · exact fun x hx => (by cases hx)

/-- Both artifacts of a result can be written and read back. -/
structure ExtractionResult.Loadable (decimal : PyStr → String) (result : ExtractionResult) : Prop where
  normalized : (Json.dict result.normalized).Loadable decimal false
  manifest : (Json.dict result.manifest).Loadable decimal false

lemma loadable_quality (content : Bytes) (exported : List (PyStr × Json)) (figures : List Json)
    (markdown : PyStr) :
    (Json.dict (extractionQuality content exported figures markdown)).Loadable decimal false := by
  have hkeys : ([py "source_bytes",py "text_characters",py "table_count",py "figure_count",
      py "empty_text",py "visual_interpretation"] : List PyStr).Nodup := by decide +kernel
  refine loadable_dict hkeys ?_
  simp only [extractionQuality,List.forall_mem_cons]
  exact ⟨trivial,trivial,trivial,trivial,trivial,loadable_str _,fun x hx => (by cases hx)⟩

theorem loadable_extractionResult (rt : Runtime) (content : Bytes) {exported : List (PyStr × Json)}
    (markdown : PyStr) (h : (Json.dict exported).Loadable decimal false) :
    (extractionResult rt content exported markdown).Loadable decimal := by
  have hnormalized : ([py "schema_version",py "format",py "markdown",py "document",py "figures",
      py "visual_interpretation"] : List PyStr).Nodup := by decide +kernel
  have hmanifest : ([py "extractor",py "extractor_version",py "quality"] : List PyStr).Nodup := by
    decide +kernel
  refine ⟨loadable_dict hnormalized ?_,loadable_dict hmanifest ?_⟩
  · simp only [extractionResult,List.forall_mem_cons]
    exact ⟨loadable_str _,loadable_str _,loadable_str _,h,loadable_figureEvidence _ h,loadable_str _,
      fun x hx => (by cases hx)⟩
  · simp only [extractionResult,List.forall_mem_cons]
    exact ⟨loadable_str _,loadable_str _,loadable_quality _ _ _ _,fun x hx => (by cases hx)⟩

lemma loadable_manifestArtifact (payload : DocumentFetched) {result : ExtractionResult}
    (h : result.Loadable decimal) :
    (Json.dict (manifestArtifact payload result)).Loadable decimal false :=
  loadable_set (loadable_str _) (loadable_set (loadable_str _) h.manifest)

/-- Whoever decodes the bytes and loads their text has the value, with its keys in order. -/
structure ReadsBack (decimal : PyStr → String) (body : Bytes) (value : List (PyStr × Json)) : Prop where
  loads : ∃ text, decode body=some text ∧
    jsonLoads decimal text=some ((Json.dict value).arranged true)
  entries : ∀ key, ((Json.dict value).arranged true).get key=(value.lookup key).map (Json.arranged true)

theorem readsBack_artifactBody {value : List (PyStr × Json)} {body : Bytes}
    (h : artifactBody value=.ok body) (hvalue : (Json.dict value).Loadable decimal false) :
    ReadsBack decimal body value := by
  unfold artifactBody at h
  split at h
  · cases h
  · rename_i bytes hbytes
    cases h
    have hloads := jsonLoads_jsonDumps decimal ⟨false,true,true⟩ hvalue
    exact ⟨⟨_,decode_encode hbytes,hloads⟩,Json.get_arranged hvalue.1 true⟩

end
end RagIngestion.Extractor
