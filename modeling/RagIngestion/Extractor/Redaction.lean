import RagIngestion.Extractor.Figures

/-! Which bytes of an export reach the stored artifact: two exports that differ only inside bytes
values normalise identically exactly when the sanitiser keeps none of these values. -/
namespace RagIngestion.Extractor
open RagIngestion.Python

/-- The tree with a function applied to its bytes values. -/
def mapBytes (f : Bytes → Bytes) : PyVal → PyVal
  | .bytes b => .bytes (f b)
  | .list xs => .list (mapList xs)
  | .dict items => .dict (mapItems items)
  | v => v
where
  mapList : List PyVal → List PyVal
    | [] => []
    | x::xs => mapBytes f x::mapList xs
  mapItems : List (PyKey × PyVal) → List (PyKey × PyVal)
    | [] => []
    | (k,x)::items => (k,mapBytes f x)::mapItems items

/-- Two trees that are the same but for the contents of their bytes values. -/
def SameButBytes (v w : PyVal) : Prop := mapBytes (fun _ => []) v=mapBytes (fun _ => []) w

/-- A bytes value that the sanitiser keeps: on no way to it is a binary key, or an entry whose
key a later entry writes again. -/
inductive ExposesBytes : PyVal → Prop
  | bytes {b} : ExposesBytes (.bytes b)
  | list {xs x} (hx : x ∈ xs) (h : ExposesBytes x) : ExposesBytes (.list xs)
  | dict {before k x after} (hname : isBinaryKey k.text=false)
      (hlast : ∀ kv ∈ after, PyKey.text (Prod.fst kv)≠k.text) (h : ExposesBytes x) :
      ExposesBytes (.dict (before ++ (k,x)::after))

lemma mapList_eq_map (f : Bytes → Bytes) (xs : List PyVal) :
    mapBytes.mapList f xs=xs.map (mapBytes f) := by
  induction xs with
  | nil => rfl
  | cons x xs ih => rw [mapBytes.mapList,ih,List.map_cons]

lemma mapItems_eq_map (f : Bytes → Bytes) (items : List (PyKey × PyVal)) :
    mapBytes.mapItems f items=items.map (fun kv => (kv.1,mapBytes f kv.2)) := by
  induction items with
  | nil => rfl
  | cons kv items ih => rw [mapBytes.mapItems,ih,List.map_cons]

/-- Only the last change of the bytes counts. -/
lemma mapBytes_mapBytes (f g : Bytes → Bytes) (v : PyVal) :
    mapBytes f (mapBytes g v)=mapBytes (fun b => f (g b)) v := by
  induction v using PyVal.ind with
  | list xs ih =>
    simp only [mapBytes,mapList_eq_map,List.map_map,PyVal.list.injEq]
    exact List.map_congr_left ih
  | dict items ih =>
    simp only [mapBytes,mapItems_eq_map,List.map_map,PyVal.dict.injEq]
    exact List.map_congr_left (fun kv hkv => congrArg (Prod.mk kv.1) (ih kv hkv))
  | _ => rfl

/-- Changing bytes gives a tree that is the same but for them. -/
lemma sameButBytes_mapBytes (f : Bytes → Bytes) (v : PyVal) : SameButBytes v (mapBytes f v) :=
  (mapBytes_mapBytes (fun _ => []) f v).symm

lemma withoutBinaryItems_append (items more : List (PyKey × PyVal)) :
    withoutBinary.withoutBinaryItems (items ++ more)=
      withoutBinary.withoutBinaryItems items ++ withoutBinary.withoutBinaryItems more := by
  induction items with
  | nil => rfl
  | cons kv items ih =>
    obtain ⟨k,x⟩ := kv
    simp only [List.cons_append,withoutBinary.withoutBinaryItems,ih]
    split <;> rfl

/-- The last entry of a key that is not binary is the one that is kept. -/
lemma lookup_withoutBinaryDict_last (before : List (PyKey × PyVal)) {k : PyKey} (x : PyVal)
    {after : List (PyKey × PyVal)} (hname : isBinaryKey k.text=false)
    (hlast : ∀ kv ∈ after, kv.1.text≠k.text) :
    (withoutBinaryDict (before ++ (k,x)::after)).lookup k.text=some (withoutBinary x) := by
  have hname : ¬isBinaryKey k.text=true := by simp [hname]
  rw [withoutBinaryDict,withoutBinaryItems_append,withoutBinary.withoutBinaryItems,if_neg hname]
  refine Json.lookup_ofItems_last _ ?_
  intro kv hkv
  obtain ⟨-,y,hy,rfl⟩ := mem_withoutBinaryItems hkv
  exact hlast y hy

/-- Every written key has a last entry. -/
lemma exists_last_entry {items : List (PyKey × PyVal)} {key : PyStr}
    (h : ∃ kv ∈ items, kv.1.text=key) : ∃ before k x after, items=before ++ (k,x)::after ∧
      k.text=key ∧ ∀ kv ∈ after, kv.1.text≠key := by
  induction items with
  | nil => simp at h
  | cons kv items ih =>
    by_cases hmore : ∃ kv ∈ items, kv.1.text=key
    · obtain ⟨before,k,x,after,rfl,hk,hlast⟩ := ih hmore
      exact ⟨kv::before,k,x,after,rfl,hk,hlast⟩
    · simp only [not_exists,not_and] at hmore
      obtain ⟨x,hx,hkey⟩ := h
      cases List.mem_cons.mp hx with
      | inl hx => exact ⟨[],kv.1,kv.2,items,rfl,hx ▸ hkey,hmore⟩
      | inr hx => exact absurd hkey (hmore x hx)

lemma keys_withoutBinaryItems_map (g : PyVal → PyVal) (items : List (PyKey × PyVal)) :
    (withoutBinary.withoutBinaryItems (items.map (fun kv => (kv.1,g kv.2)))).map Prod.fst=
      (withoutBinary.withoutBinaryItems items).map Prod.fst := by
  induction items with
  | nil => rfl
  | cons kv items ih =>
    obtain ⟨k,x⟩ := kv
    simp only [List.map_cons,withoutBinary.withoutBinaryItems]
    split
    · exact ih
    · rw [List.map_cons,List.map_cons,ih]

/-- A value whose bytes are all dropped is sanitised as without them. -/
theorem withoutBinary_mapBytes (f : Bytes → Bytes) {v : PyVal} (h : ¬ExposesBytes v) :
    withoutBinary (mapBytes f v)=withoutBinary v := by
  induction v using PyVal.ind with
  | bytes b => exact absurd .bytes h
  | list xs ih =>
    simp only [mapBytes,withoutBinary,mapList_eq_map,withoutBinaryList_eq_map,List.map_map,
      Json.list.injEq]
    exact List.map_congr_left (fun x hx => ih x hx (fun hexposed => h (.list hx hexposed)))
  | dict items ih =>
    rw [mapBytes,mapItems_eq_map]
    change Json.dict (withoutBinaryDict _)=Json.dict (withoutBinaryDict items)
    refine congrArg Json.dict (Json.eq_of_lookup_eq (Json.ofItems_keys_nodup _) ?_ ?_)
    · exact Json.keys_ofItems_congr (keys_withoutBinaryItems_map _ items)
    · intro key
      by_cases hkept : (∃ kv ∈ items, kv.1.text=key) ∧ isBinaryKey key=false
      · obtain ⟨hkey,hname⟩ := hkept
        obtain ⟨before,k,x,after,rfl,rfl,hlast⟩ := exists_last_entry hkey
        have hx := ih (k,x) (by simp) (fun hexposed => h (.dict hname hlast hexposed))
        rw [lookup_withoutBinaryDict_last before x hname hlast,List.map_append,List.map_cons,
          lookup_withoutBinaryDict_last _ _ hname,hx]
        intro kv hkv
        obtain ⟨y,hy,rfl⟩ := List.mem_map.mp hkv
        exact hlast y hy
      · have hnone : ∀ g : PyVal → PyVal,
            (withoutBinaryDict (items.map (fun kv => (kv.1,g kv.2)))).lookup key=none := by
          intro g
          refine Json.lookup_ofItems_of_new ?_
          rintro kv hkv rfl
          obtain ⟨hname,y,hy,heq⟩ := mem_withoutBinaryItems hkv
          obtain ⟨z,hz,rfl⟩ := List.mem_map.mp hy
          exact hkept ⟨⟨z,hz,(congrArg Prod.fst heq).symm⟩,hname⟩
        have hid := hnone id
        simp only [id,List.map_id'] at hid
        rw [hnone,hid]
  | _ => rfl

/-- One more letter at the end of bytes shows in their `repr`. -/
lemma reprBytes_append_letter (b : Bytes) : reprBytes (b ++ [97])≠reprBytes b := by
  intro h
  have hq : ∀ single double : Bool, reprChar (fun _ => false) (reprQuote single double) 97=[97] := by
    decide
  have hlength := congrArg List.length h
  simp only [reprBytes,Python.reprStr,List.map_append,List.map_cons,List.map_nil] at hlength
  have hletter : (⟨UInt8.toNat 97,by decide⟩ : CodePoint)=97 := rfl
  rw [hletter] at hlength
  have h39 : ∀ s : PyStr, (s ++ [97]).contains 39=s.contains 39 := by
    intro s
    simp
  have h34 : ∀ s : PyStr, (s ++ [97]).contains 34=s.contains 34 := by
    intro s
    simp
  rw [h39,h34,List.flatMap_append,List.flatMap_singleton,hq] at hlength
  simp only [List.length_cons,List.length_append,List.length_nil] at hlength
  omega

/-- A bytes value that is kept can be changed so that the sanitised value changes. -/
theorem ExposesBytes.visible {v : PyVal} (h : ExposesBytes v) :
    withoutBinary (mapBytes (fun b => b ++ [97]) v)≠withoutBinary v := by
  induction h with
  | @bytes b =>
    intro heq
    exact reprBytes_append_letter b (Json.str.inj heq)
  | @list xs x hx _ ih =>
    intro heq
    simp only [mapBytes,withoutBinary,mapList_eq_map,withoutBinaryList_eq_map,List.map_map,
      Json.list.injEq] at heq
    exact ih (List.map_inj_left.mp heq x hx)
  | @dict before k x after hname hlast _ ih =>
    intro heq
    rw [mapBytes,mapItems_eq_map] at heq
    have hitems : withoutBinaryDict _=withoutBinaryDict _ := Json.dict.inj heq
    have hlookup := congrArg (List.lookup k.text) hitems
    rw [lookup_withoutBinaryDict_last before x hname hlast,List.map_append,List.map_cons,
      lookup_withoutBinaryDict_last _ _ hname] at hlookup
    · exact ih (Option.some.inj hlookup)
    · intro kv hkv
      obtain ⟨y,hy,rfl⟩ := List.mem_map.mp hkv
      exact hlast y hy

/-- Which bytes values are kept does not depend on what is in them. -/
lemma ExposesBytes.mapBytes (f : Bytes → Bytes) {v : PyVal} (h : ExposesBytes v) :
    ExposesBytes (mapBytes f v) := by
  induction h with
  | bytes => exact .bytes
  | list hx _ ih =>
    rw [Extractor.mapBytes,mapList_eq_map]
    exact .list (List.mem_map_of_mem hx) ih
  | dict hname hlast _ ih =>
    rw [Extractor.mapBytes,mapItems_eq_map,List.map_append,List.map_cons]
    refine .dict hname ?_ ih
    intro kv hkv
    obtain ⟨y,hy,rfl⟩ := List.mem_map.mp hkv
    exact hlast y hy

/-- Two trees that are the same but for bytes values that are all dropped are sanitised alike. -/
theorem SameButBytes.withoutBinary_eq {v w : PyVal} (hsame : SameButBytes v w)
    (h : ¬ExposesBytes v) : withoutBinary v=withoutBinary w := by
  have hw : ¬ExposesBytes w := by
    intro hexposed
    have hvisible := (hexposed.mapBytes (fun _ => [])).visible
    rw [← hsame,mapBytes_mapBytes,withoutBinary_mapBytes _ h,withoutBinary_mapBytes _ h] at hvisible
    exact hvisible rfl
  rw [← withoutBinary_mapBytes (fun _ => []) h,hsame,withoutBinary_mapBytes _ hw]

/-- Whatever the source, the limit and the markdown, an export and every other that is the same
but for its bytes values give the same document and the same figures. -/
def BinaryFree (rt : Runtime) (exported : List (PyKey × PyVal)) : Prop :=
  ∀ other, SameButBytes (.dict exported) (.dict other) →
    ∀ {σ : Type} (read : Reader σ) (source : σ) (maxBytes : ℕ) (expectedSha256 markdown : PyStr)
      (result result' : ExtractionResult),
      extractPdf rt read source maxBytes expectedSha256 (fun _ => .ok (exported,markdown))=.ok result →
      extractPdf rt read source maxBytes expectedSha256 (fun _ => .ok (other,markdown))=.ok result' →
      result.normalized.lookup (py "document")=result'.normalized.lookup (py "document") ∧
        result.normalized.lookup (py "figures")=result'.normalized.lookup (py "figures")

/-- No bytes reach the document and the figures exactly when the sanitiser keeps no bytes value. -/
theorem binaryFree_iff (rt : Runtime) (exported : List (PyKey × PyVal)) :
    BinaryFree rt exported ↔ ¬ExposesBytes (.dict exported) := by
  constructor
  · intro hfree hexposed
    let other := mapBytes.mapItems (fun b => b ++ [97]) exported
    have hread : readSource readAvailable 1048576 plainSource []=.ok plainSource := read_plainSource
    have hdocument := (hfree other (sameButBytes_mapBytes _ _) readAvailable plainSource 1048576
      (hexdigest (rt.sha256 plainSource)) [] _ _
      (extractPdf_of_read hread (by decide) rfl) (extractPdf_of_read hread (by decide) rfl)).1
    exact hexposed.visible (Option.some.inj hdocument).symm
  · intro hhidden other hsame σ read source maxBytes expectedSha256 markdown result result' h h'
    obtain ⟨content,_,_,-,-,hconvert,-,rfl⟩ := extractPdf_eq_ok h
    cases hconvert
    obtain ⟨content',_,_,-,-,hconvert,-,rfl⟩ := extractPdf_eq_ok h'
    cases hconvert
    have hdocument : withoutBinaryDict exported=withoutBinaryDict other :=
      Json.dict.inj (hsame.withoutBinary_eq hhidden)
    rw [hdocument]
    exact ⟨rfl,rfl⟩

/-- Bytes under a key that is not listed are written into the document. -/
theorem thumbnail_bytes_stored : ¬∀ (rt : Runtime) (exported : List (PyKey × PyVal)),
    BinaryFree rt exported := by
  intro hall
  have hsame : SameButBytes (.dict [(.str (py "thumbnail"),.bytes [1])])
      (.dict [(.str (py "thumbnail"),.bytes [2])]) := rfl
  have hdocument := (hall plainRuntime _ _ hsame readAvailable plainSource 1048576 plainHash (py "text")
    _ _ (extractPdf_plainSource _ _) (extractPdf_plainSource _ _)).1
  have hvalues := Json.dict.inj (Option.some.inj hdocument)
  have hreprs : [Json.str (reprBytes [1])]=[Json.str (reprBytes [2])] :=
    congrArg (List.map Prod.snd) hvalues
  exact absurd (Json.str.inj (List.cons.inj hreprs).1) (by decide)

end RagIngestion.Extractor
