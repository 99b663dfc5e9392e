import RagIngestion.Python.Repr

/-! What the extractor keeps of an exported document tree: `_without_binary` and the figure
evidence taken from its result. -/
namespace RagIngestion.Extractor
open RagIngestion.Python

/-- Keys whose entries `_without_binary` drops. -/
def binaryKeys : List PyStr :=
  [py "image",py "image_data",py "data",py "binary",py "base64",py "pixels"]

/-- `str(key).lower()` is a binary key. No character outside ASCII lowers to a letter of one. -/
def isBinaryKey (key : PyStr) : Bool := binaryKeys.contains (lowerAscii key)

/-- `_without_binary`. -/
def withoutBinary : PyVal → Json
  | .none => .null
  | .bool b => .bool b
  | .int i => .int i
  | .float r => .float r
  | .str s => .str s
  | .bytes b => .str (reprBytes b)
  | .other t => .str t
  | .list xs => .list (withoutBinaryList xs)
  | .dict items => .dict (Json.ofItems (withoutBinaryItems items))
where
  withoutBinaryList : List PyVal → List Json
    | [] => []
    | x::xs => withoutBinary x::withoutBinaryList xs
  withoutBinaryItems : List (PyKey × PyVal) → List (PyStr × Json)
    | [] => []
    | (k,x)::items =>
      if isBinaryKey k.text then withoutBinaryItems items
      else (k.text,withoutBinary x)::withoutBinaryItems items

/-- `_without_binary` of a dictionary. -/
def withoutBinaryDict (items : List (PyKey × PyVal)) : List (PyStr × Json) :=
  Json.ofItems (withoutBinary.withoutBinaryItems items)

/-- A JSON value as the object tree it is. -/
def toPy : Json → PyVal
  | .null => .none
  | .bool b => .bool b
  | .int i => .int i
  | .float r => .float r
  | .str s => .str s
  | .list xs => .list (toPyList xs)
  | .dict items => .dict (toPyItems items)
where
  toPyList : List Json → List PyVal
    | [] => []
    | x::xs => toPy x::toPyList xs
  toPyItems : List (PyStr × Json) → List (PyKey × PyVal)
    | [] => []
    | (k,x)::items => (.str k,toPy x)::toPyItems items

/-- The entry of one picture. -/
def figureEntry (isPrintable : CodePoint → Bool) (index : ℕ) (figure : List (PyStr × Json)) : Json :=
  .dict [
    (py "figure_index",.int index),
    (py "self_ref",.str (((figure.lookup (py "self_ref")).getD (.str [])).pyStr isPrintable)),
    (py "captions",withoutBinary (toPy ((figure.lookup (py "captions")).getD (.list [])))),
    (py "provenance",withoutBinary (toPy ((figure.lookup (py "prov")).getD (.list []))))]

/-- The loop of `_figure_evidence` from a position on. -/
def figureEntries (isPrintable : CodePoint → Bool) : ℕ → List Json → List Json
  | _, [] => []
  | index, .dict figure::figures =>
    figureEntry isPrintable index figure::figureEntries isPrintable (index+1) figures
  | index, _::figures => figureEntries isPrintable (index+1) figures

/-- `_figure_evidence`. -/
def figureEvidence (isPrintable : CodePoint → Bool) (document : List (PyStr × Json)) : List Json :=
  match (document.lookup (py "pictures")).getD (.list []) with
  | .list figures => figureEntries isPrintable 0 figures
  | _ => []

@[simp] theorem withoutBinaryList_eq_map (xs : List PyVal) :
    withoutBinary.withoutBinaryList xs=xs.map withoutBinary := by
  induction xs with
  | nil => rfl
  | cons x xs ih => rw [withoutBinary.withoutBinaryList,ih,List.map_cons]

theorem mem_withoutBinaryItems {kv : PyStr × Json} {items : List (PyKey × PyVal)}
    (h : kv ∈ withoutBinary.withoutBinaryItems items) :
    isBinaryKey kv.1=false ∧ ∃ x ∈ items, kv=(x.1.text,withoutBinary x.2) := by
  induction items with
  | nil => cases h
  | cons x items ih =>
    obtain ⟨k,x⟩ := x
    simp only [withoutBinary.withoutBinaryItems] at h
    split at h
    · obtain ⟨hk,y,hy,heq⟩ := ih h
      exact ⟨hk,y,List.mem_cons_of_mem _ hy,heq⟩
    · rename_i hk
      cases List.mem_cons.mp h with
      | inl h => exact ⟨by rw [h]; exact Bool.eq_false_iff.mpr hk,(k,x),List.mem_cons_self,h⟩
      | inr h =>
        obtain ⟨hk,y,hy,heq⟩ := ih h
        exact ⟨hk,y,List.mem_cons_of_mem _ hy,heq⟩

/-- No entry of a sanitised dictionary has a binary key. -/
theorem withoutBinaryDict_keys {kv : PyStr × Json} {items : List (PyKey × PyVal)}
    (h : kv ∈ withoutBinaryDict items) : isBinaryKey kv.1=false :=
  (mem_withoutBinaryItems (Json.mem_ofItems h)).1

/-- A sanitised value has no entry under a binary key. -/
theorem get_withoutBinary {key : PyStr} (hkey : isBinaryKey key=true) (v : PyVal) :
    (withoutBinary v).get key=none := by
  cases v with
  | dict items =>
    change (withoutBinaryDict items).lookup key=none
    rw [List.lookup_eq_none_iff]
    intro kv hkv
    have hk := withoutBinaryDict_keys hkv
    rw [bne_iff_ne]
    rintro rfl
    rw [hkey] at hk
    cases hk
  | _ => rfl

/-- An entry of a sanitised dictionary is a sanitised value. -/
theorem lookup_withoutBinaryDict {items : List (PyKey × PyVal)} {key : PyStr} {value : Json}
    (h : (withoutBinaryDict items).lookup key=some value) : ∃ x, value=withoutBinary x := by
  obtain ⟨before,after,hitems,-⟩ := List.lookup_eq_some_iff.mp h
  have hmem : (key,value) ∈ withoutBinaryDict items := by simp [hitems]
  obtain ⟨-,x,-,hx⟩ := mem_withoutBinaryItems (Json.mem_ofItems hmem)
  exact ⟨x.2,congrArg Prod.snd hx⟩

end RagIngestion.Extractor
