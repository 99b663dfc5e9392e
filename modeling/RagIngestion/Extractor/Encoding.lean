import RagIngestion.Extractor.Handle

/-! Which artifacts `put_json` can encode: the export and the markdown decide, what the
extractor adds to them always can be. -/
namespace RagIngestion.Extractor
open RagIngestion.Python RagIngestion.Domain RagIngestion.Database RagIngestion.Storage

theorem artifactBody_of_scalar {value : List (PyStr × Json)} (h : (Json.dict value).ScalarText) :
    ∃ body, artifactBody value=.ok body := by
  have hdumps : Scalar (jsonDumps ⟨false,true,true⟩ (.dict value)) :=
    (scalar_jsonDumps rfl (.dict value)).mpr h
  obtain ⟨body,hbody⟩ := Option.isSome_iff_exists.mp ((encode_isSome_iff _).mpr hdumps)
  exact ⟨body,by simp only [artifactBody,hbody]⟩

theorem artifactBody_of_not_scalar {value : List (PyStr × Json)} (h : ¬(Json.dict value).ScalarText) :
    artifactBody value=.error .unicodeEncodeError := by
  have hdumps : ¬Scalar (jsonDumps ⟨false,true,true⟩ (.dict value)) :=
    fun hs => h ((scalar_jsonDumps rfl (.dict value)).mp hs)
  have hnone : encode (jsonDumps ⟨false,true,true⟩ (.dict value))=none := by
    rw [← Option.not_isSome_iff_eq_none,encode_isSome_iff]
    exact hdumps
  simp only [artifactBody,hnone]

/-- `put_json` stores a value that can be encoded, and raises for another. -/
theorem putJson_of_scalar (bucket : BucketName) (w : Stores) (payload : DocumentFetched) (key : PyStr)
    {value : List (PyStr × Json)} (next : PyStr → Task) (h : (Json.dict value).ScalarText) :
    ∃ body, putJson bucket w payload (.ok key) value .none next=
      (w.put key body,next (objectUri bucket key)) := by
  obtain ⟨body,hbody⟩ := artifactBody_of_scalar h
  exact ⟨body,by simp only [putJson,hbody]⟩

theorem putJson_of_not_scalar (bucket : BucketName) (w : Stores) (payload : DocumentFetched)
    (key : PyStr) {value : List (PyStr × Json)} (next : PyStr → Task)
    (h : ¬(Json.dict value).ScalarText) :
    putJson bucket w payload (.ok key) value .none next=(w,.raised payload) := by
  simp only [putJson,artifactBody_of_not_scalar h]

lemma scalar_set {key : PyStr} {value : Json} {d : List (PyStr × Json)} (hk : Scalar key)
    (hv : value.ScalarText) (h : (Json.dict d).ScalarText) :
    (Json.dict (Json.set key value d)).ScalarText := by
  apply (Json.scalarItems_iff _).mpr
  intro kv hkv
  cases Json.mem_set hkv with
  | inl hnew => rw [hnew]; exact ⟨hk,hv⟩
  | inr hold => exact (Json.scalarItems_iff d).mp h kv hold

lemma scalar_lookup {key : PyStr} {default : Json} {d : List (PyStr × Json)}
    (h : (Json.dict d).ScalarText) (hdefault : default.ScalarText) :
    ((d.lookup key).getD default).ScalarText := by
  cases hl : d.lookup key with
  | none => exact hdefault
  | some value =>
    obtain ⟨before,after,hd,-⟩ := List.lookup_eq_some_iff.mp hl
    exact ((Json.scalarItems_iff d).mp h (key,value) (by simp [hd])).2

mutual
/-- What is left of a JSON value has no strings that the value does not have. -/
theorem scalar_withoutBinary : (v : Json) → v.ScalarText → (withoutBinary (toPy v)).ScalarText
  | .null, _ => trivial
  | .bool _, _ => trivial
  | .int _, _ => trivial
  | .float _, _ => trivial
  | .str _, h => h
  | .list xs, h => scalar_withoutBinaryList xs h
  | .dict items, h => (Json.scalarItems_iff _).mpr
      (fun kv hkv => scalar_withoutBinaryItems items h kv (Json.mem_ofItems hkv))
theorem scalar_withoutBinaryList : (xs : List Json) → Json.ScalarText.scalarList xs →
    Json.ScalarText.scalarList (withoutBinary.withoutBinaryList (toPy.toPyList xs))
  | [], _ => trivial
  | x::xs, h => ⟨scalar_withoutBinary x h.1,scalar_withoutBinaryList xs h.2⟩
theorem scalar_withoutBinaryItems : (items : List (PyStr × Json)) →
    Json.ScalarText.scalarItems items →
    ∀ kv ∈ withoutBinary.withoutBinaryItems (toPy.toPyItems items), Scalar kv.1 ∧ kv.2.ScalarText
  | [], _ => by simp [toPy.toPyItems,withoutBinary.withoutBinaryItems]
  | (k,x)::items, h => by
    intro kv hkv
    simp only [toPy.toPyItems,withoutBinary.withoutBinaryItems] at hkv
    split at hkv
    · exact scalar_withoutBinaryItems items h.2.2 kv hkv
    · cases List.mem_cons.mp hkv with
      | inl hkv => rw [hkv]; exact ⟨h.1,scalar_withoutBinary x h.2.1⟩
      | inr hkv => exact scalar_withoutBinaryItems items h.2.2 kv hkv
end

lemma scalar_figureEntry (isPrintable : CodePoint → Bool) (index : ℕ) {figure : List (PyStr × Json)}
    (h : (Json.dict figure).ScalarText) : (figureEntry isPrintable index figure).ScalarText :=
  ⟨scalar_py _,trivial,scalar_py _,Json.scalar_pyStr isPrintable (scalar_lookup h scalar_nil),
    scalar_py _,scalar_withoutBinary _ (scalar_lookup h trivial),
    scalar_py _,scalar_withoutBinary _ (scalar_lookup h trivial),trivial⟩

lemma scalar_figureEntries (isPrintable : CodePoint → Bool) (index : ℕ) {figures : List Json}
    (h : Json.ScalarText.scalarList figures) :
    Json.ScalarText.scalarList (figureEntries isPrintable index figures) := by
  induction figures generalizing index with
  | nil => trivial
  | cons figure figures ih =>
    cases figure with
    | dict entries => exact ⟨scalar_figureEntry isPrintable index h.1,ih (index+1) h.2⟩
    | _ => exact ih (index+1) h.2

/-- The figure evidence of an export that can be encoded can be encoded. -/
theorem scalar_figureEvidence (isPrintable : CodePoint → Bool) {document : List (PyStr × Json)}
    (h : (Json.dict document).ScalarText) :
    Json.ScalarText.scalarList (figureEvidence isPrintable document) := by
  have hpictures : ((document.lookup (py "pictures")).getD (.list [])).ScalarText :=
    scalar_lookup h trivial
  unfold figureEvidence
  split
  · rename_i figures hfigures
    rw [hfigures] at hpictures
    exact scalar_figureEntries isPrintable 0 hpictures
  · trivial

/-- What a converter's export and markdown leave to be encoded can be. -/
def Encodable (exported : List (PyKey × PyVal)) (markdown : PyStr) : Prop :=
  Scalar markdown ∧ (Json.dict (withoutBinaryDict exported)).ScalarText

/-- All text of an object tree can be encoded: its strings, its keys, and what `str` makes of
objects of other types. -/
inductive Utf8Tree : PyVal → Prop
  | none : Utf8Tree .none
  | bool {b} : Utf8Tree (.bool b)
  | int {i} : Utf8Tree (.int i)
  | float {r} : Utf8Tree (.float r)
  | str {s} (h : Scalar s) : Utf8Tree (.str s)
  | bytes {b} : Utf8Tree (.bytes b)
  | list {xs} (h : ∀ x ∈ xs, Utf8Tree x) : Utf8Tree (.list xs)
  | dict {items} (hk : ∀ kv ∈ items, Scalar kv.1.text) (h : ∀ kv ∈ items, Utf8Tree kv.2) :
      Utf8Tree (.dict items)
  | other {t} (h : Scalar t) : Utf8Tree (.other t)

theorem Utf8Tree.withoutBinary {v : PyVal} (h : Utf8Tree v) : (withoutBinary v).ScalarText := by
  induction h with
  | str h => exact h
  | bytes => exact (scalar_cons _ _).mpr ⟨by decide,scalar_reprStr _ _⟩
  | list _ ih =>
    apply (Json.scalarList_iff _).mpr
    rw [withoutBinaryList_eq_map]
    exact List.forall_mem_map.mpr ih
  | dict hk _ ih =>
    apply (Json.scalarItems_iff _).mpr
    intro kv hkv
    obtain ⟨-,x,hx,rfl⟩ := mem_withoutBinaryItems (Json.mem_ofItems hkv)
    exact ⟨hk x hx,ih x hx⟩
  | other h => exact h
  | _ => trivial

/-- What a converter makes of a file can be encoded when all its text can. -/
theorem encodable_of_utf8 {exported : List (PyKey × PyVal)} {markdown : PyStr}
    (hm : Scalar markdown) (h : Utf8Tree (.dict exported)) : Encodable exported markdown :=
  ⟨hm,h.withoutBinary⟩

section
variable (rt : Runtime) (content : Bytes) (exported : List (PyKey × PyVal)) (markdown : PyStr)

/-- The normalised content can be encoded exactly when markdown and export can. -/
theorem scalar_normalized_iff :
    (Json.dict (extractionResult rt content (withoutBinaryDict exported) markdown).normalized).ScalarText ↔
      Encodable exported markdown := by
  constructor
  · intro h
    have h := (Json.scalarItems_iff _).mp h
    exact ⟨(h (py "markdown",.str markdown) (by simp [extractionResult])).2,
      (h (py "document",.dict (withoutBinaryDict exported)) (by simp [extractionResult])).2⟩
  · intro h
    exact ⟨scalar_py _,scalar_py _,scalar_py _,scalar_py _,scalar_py _,h.1,scalar_py _,h.2,
      scalar_py _,scalar_figureEvidence rt.isPrintable h.2,scalar_py _,scalar_py _,trivial⟩

lemma scalar_status (s : ExtractionStatus) : Scalar s.text := by
  cases s <;> exact scalar_py _

/-- The manifest of an extraction can always be encoded. -/
theorem scalar_manifest (hversion : Scalar rt.doclingVersion) {payload : DocumentFetched}
    (hsha : Scalar payload.contentSha256) :
    (Json.dict (manifestArtifact payload
      (extractionResult rt content (withoutBinaryDict exported) markdown))).ScalarText := by
  have hquality : (Json.dict (extractionQuality content (withoutBinaryDict exported)
      (figureEvidence rt.isPrintable (withoutBinaryDict exported)) markdown)).ScalarText :=
    ⟨scalar_py _,trivial,scalar_py _,trivial,scalar_py _,trivial,scalar_py _,trivial,
      scalar_py _,trivial,scalar_py _,scalar_py _,trivial⟩
  refine scalar_set (scalar_py _) ?_ (scalar_set (scalar_py _) ?_ ?_)
  · exact scalar_status _
  · exact hsha
  · exact ⟨scalar_py _,scalar_py _,scalar_py _,hversion,scalar_py _,hquality,trivial⟩

end
end RagIngestion.Extractor
