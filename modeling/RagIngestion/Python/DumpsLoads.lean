import RagIngestion.Python.JsonText

/-! What `json.dumps` writes is a text of the value, so `json.loads` reads the value back: with its
keys sorted, where the call asks for that. -/
namespace RagIngestion.Python

/-- Induction on a JSON value, with the hypothesis for every element and every entry. -/
@[elab_as_elim]
theorem Json.ind {motive : Json → Prop} (null : motive .null) (bool : ∀ b, motive (.bool b))
    (int : ∀ i, motive (.int i)) (float : ∀ r, motive (.float r)) (str : ∀ s, motive (.str s))
    (list : ∀ xs, (∀ x ∈ xs, motive x) → motive (.list xs))
    (dict : ∀ items, (∀ kv ∈ items, motive kv.2) → motive (.dict items)) (v : Json) : motive v := by
  refine @Json.rec motive (fun xs => ∀ x ∈ xs, motive x) (fun items => ∀ kv ∈ items, motive kv.2)
    (fun kv => motive kv.2) null bool int float str list dict ?_ ?_ ?_ ?_ ?_ v
  · intro x hx
    cases hx
  · intro x xs hx hxs
    exact List.forall_mem_cons.mpr ⟨hx,hxs⟩
  · intro kv hkv
    cases hkv
  · intro kv items hkv hitems
    exact List.forall_mem_cons.mpr ⟨hkv,hitems⟩
  · intro k x hx
    exact hx

/-! Strings. -/

lemma mapM_hexDigit (ds : List (Fin 16)) :
    (ds.map hexDigit).mapM asciiHexValue=some (ds.map Fin.val) := by
  have hdigit : ∀ d : Fin 16, asciiHexValue (hexDigit d)=some d.val := by
    intro d
    fin_cases d <;> rfl
  induction ds with
  | nil => rfl
  | cons d ds ih => simp [List.mapM_cons,hdigit,ih]

lemma scanUnit_hexText {n : ℕ} (hn : n<0x10000) : scanUnit (hexText 4 n)=some (n,[]) := by
  have hvalue := hexDigits_value 4 n 0
  rw [scanUnit,if_neg (by simp),List.take_of_length_le (by simp),List.drop_of_length_le (by simp),
    hexText,mapM_hexDigit,Option.map_some,List.foldl_map,hvalue]
  norm_num
  exact hn

lemma charText_escapeUnit {c : CodePoint} (hc : isSurrogate c=false) (hlt : c.val<0x10000) :
    CharText c (escapeUnit c.val) := .unit hc (scanUnit_hexText hlt)

/-- A character outside the first plane is two code units. -/
lemma ofUnits_split {c : CodePoint} (hc : 0x10000 ≤ c.val) :
    ofUnits (0xD800+(c.val-0x10000)/1024) (0xDC00+(c.val-0x10000)%1024)=c := by
  have hlt := c.isLt
  have hvalue : 0x10000+(0xD800+(c.val-0x10000)/1024-0xD800)*1024+
      (0xDC00+(c.val-0x10000)%1024-0xDC00)=c.val := by omega
  rw [ofUnits,hvalue,ofUnit,Fin.ofNat_val_eq_self]

lemma charText_escapeChar {ensureAscii : Bool} {c : CodePoint}
    (h : ensureAscii=true → isSurrogate c=false) : CharText c (escapeChar ensureAscii c) := by
  unfold escapeChar
  split
  · next e he =>
    have hc : e.1=c := by simpa using List.find?_some he
    rw [← hc]
    exact .short (List.mem_cons_of_mem _ (List.mem_of_find?_eq_some he))
  · next hnone =>
    have hlt := c.isLt
    split_ifs with h1 h2 h3
    · exact charText_escapeUnit (isSurrogate_of_lt (by omega)) (by omega)
    · exact charText_escapeUnit (h h2.1) h3
    · have hhigh : 0xD800+(c.val-0x10000)/1024<0x10000 := by omega
      have hlow : 0xDC00+(c.val-0x10000)%1024<0x10000 := by omega
      have hpair := CharText.pair (by omega) (by omega) (scanUnit_hexText hhigh) (scanUnit_hexText hlow)
      rw [ofUnits_split (by omega)] at hpair
      exact hpair
    · rw [List.find?_eq_none] at hnone
      refine .plain (by omega) ?_ ?_
      · rintro rfl
        exact hnone (34,34) (by simp [shortEscapes]) rfl
      · rintro rfl
        exact hnone (92,92) (by simp [shortEscapes]) rfl

lemma stringText_escape {ensureAscii : Bool} {s : PyStr} (h : ensureAscii=true → Scalar s) :
    StringText s (s.flatMap (escapeChar ensureAscii)) := by
  induction s with
  | nil => exact .nil
  | cons c s ih =>
    rw [List.flatMap_cons]
    refine .cons (charText_escapeChar ?_) (ih ?_)
    · exact fun ha => ((scalar_cons c s).mp (h ha)).1
    · exact fun ha => ((scalar_cons c s).mp (h ha)).2

/-! Numbers. -/

lemma py_append (s t : String) : py (s ++ t)=py s ++ py t := by simp [py]

lemma isDigit_of_char {c : Char} (h : c.isDigit=true) : isDigit ⟨c.toNat,char_lt c⟩=true := by
  simp only [Char.isDigit,Bool.and_eq_true,decide_eq_true_eq] at h
  exact decide_eq_true ⟨UInt32.le_iff_toNat_le.mp h.1,UInt32.le_iff_toNat_le.mp h.2⟩

lemma toDigits_head {n : ℕ} (hn : 0 < n) : (Nat.toDigits 10 n).head?≠some '0' := by
  induction n using Nat.strong_induction_on with
  | _ n ih =>
    by_cases hlt : n<10
    · rw [Nat.toDigits_of_lt_base hlt]
      interval_cases n <;> decide
    · rw [Nat.toDigits_of_base_le (by decide) (by omega),List.head?_append_of_ne_nil _
        Nat.toDigits_ne_nil]
      exact ih (n/10) (by omega) (by omega)

lemma digits_natRepr (n : ℕ) : Digits (py n.repr) ∧ natOfDigits (py n.repr)=n ∧
    (py n.repr=[48] ∨ (py n.repr).head?≠some 48) := by
  rw [py,Nat.toList_repr]
  refine ⟨⟨?_,?_⟩,?_,?_⟩
  · rw [ne_eq,List.map_eq_nil_iff]
    exact Nat.toDigits_ne_nil
  · intro d hd
    obtain ⟨c,hc,rfl⟩ := List.mem_map.mp hd
    exact isDigit_of_char (Nat.isDigit_of_mem_toDigits (by decide) (by decide) hc)
  · have hvalue := Nat.ofDigitChars_ten_toDigits (n := n)
    rw [Nat.ofDigitChars_eq_foldl] at hvalue
    rw [natOfDigits,List.foldl_map]
    exact hvalue
  · cases n.eq_zero_or_pos with
    | inl h => exact .inl (by rw [h]; rfl)
    | inr h =>
      right
      rw [List.head?_map]
      intro hhead
      obtain ⟨c,hc,hval⟩ := Option.map_eq_some_iff.mp hhead
      refine toDigits_head h ?_
      rw [hc]
      have hzero : c.toNat=48 := congrArg (fun d : CodePoint => d.val) hval
      exact congrArg some (Char.toNat_inj.mp hzero)

section
variable (decimal : PyStr → String)

lemma written_int (i : ℤ) : Written decimal (.value (.int i)) (py (toString i)) := by
  have hdigits : ∀ n : ℕ, py n.repr=[48] ∨ Digits (py n.repr) ∧ (py n.repr).head?≠some 48 := by
    intro n
    obtain ⟨hrun,-,hhead⟩ := digits_natRepr n
    exact hhead.imp_right (fun h => ⟨hrun,h⟩)
  cases i with
  | ofNat n =>
    have hnumber : NumberText [] (py n.repr) [] [] := ⟨.inl rfl,hdigits n,.inl rfl,.inl rfl⟩
    have h : Written decimal _ _ := .number hnumber
    rw [numberValue,if_pos ⟨rfl,rfl⟩,if_pos rfl,(digits_natRepr n).2.1,List.append_nil,
      List.append_nil] at h
    exact h
  | negSucc n =>
    have hnumber : NumberText [45] (py (n+1).repr) [] [] :=
      ⟨.inr rfl,hdigits (n+1),.inl rfl,.inl rfl⟩
    have h : Written decimal _ _ := .number hnumber
    rw [numberValue,if_pos ⟨rfl,rfl⟩,if_neg (by simp),(digits_natRepr (n+1)).2.1,List.append_nil,
      List.append_nil] at h
    have htext : py (toString (Int.negSucc n))=[45] ++ py (n+1).repr := py_append "-" _
    rw [htext]
    exact h

lemma written_bool (b : Bool) (style : JsonStyle) :
    Written decimal (.value (.bool b)) (jsonDumps style (.bool b)) := by
  cases b with
  | true => exact .constant (by simp [jsonConstants,jsonDumps])
  | false => exact .constant (by simp [jsonConstants,jsonDumps])

/-- What is written between the brackets of an array. -/
lemma written_elements {gap : PyStr} (hgap : Blank gap) (parts : List (Json × PyStr))
    (h : ∀ p ∈ parts, Written decimal (.value p.1) p.2) (hne : parts≠[]) :
    Written decimal (.elements (parts.map Prod.fst)) (join (44::gap) (parts.map Prod.snd) ++ [93]) := by
  have hnil : Blank [] := fun c hc => (by cases hc)
  induction parts with
  | nil => exact absurd rfl hne
  | cons p parts ih =>
    rw [List.forall_mem_cons] at h
    cases parts with
    | nil => exact .lastElement h.1 hnil
    | cons q parts =>
      have hmore := ih h.2 (List.cons_ne_nil q parts)
      have htext : join (44::gap) ((p::q::parts).map Prod.snd) ++ [93]=
          p.2 ++ ([] ++ 44::(gap ++ (join (44::gap) ((q::parts).map Prod.snd) ++ [93]))) := by
        simp [join]
      rw [htext]
      exact .nextElement h.1 hnil hgap hmore

/-- What is written between the brackets of an object: a key, its value and the value's text. -/
lemma written_members (ensureAscii : Bool) {gap : PyStr} (hgap : Blank gap)
    (parts : List (PyStr × Json × PyStr)) (hkeys : ∀ p ∈ parts, ensureAscii=true → Scalar p.1)
    (h : ∀ p ∈ parts, Written decimal (.value p.2.1) p.2.2) (hne : parts≠[]) :
    Written decimal (.members (parts.map (fun p => (p.1,p.2.1))))
      (join (44::gap) (parts.map (fun p => quote ensureAscii p.1 ++ 58::gap ++ p.2.2)) ++ [125]) := by
  have hnil : Blank [] := fun c hc => (by cases hc)
  induction parts with
  | nil => exact absurd rfl hne
  | cons p parts ih =>
    rw [List.forall_mem_cons] at h hkeys
    cases parts with
    | nil =>
      have hmember := Written.lastMember (stringText_escape hkeys.1) hnil hgap h.1 hnil
      have htext : join (44::gap) ([p].map (fun p => quote ensureAscii p.1 ++ 58::gap ++ p.2.2)) ++ [125]=
          34::(p.1.flatMap (escapeChar ensureAscii) ++
            34::([] ++ 58::(gap ++ (p.2.2 ++ ([] ++ [125]))))) := by
        simp [join,quote]
      rw [htext]
      exact hmember
    | cons q parts =>
      have hmore := ih hkeys.2 h.2 (List.cons_ne_nil q parts)
      have hmember := Written.nextMember (stringText_escape hkeys.1) hnil hgap h.1 hnil hgap hmore
      have htext : join (44::gap) ((p::q::parts).map
            (fun p => quote ensureAscii p.1 ++ 58::gap ++ p.2.2)) ++ [125]=
          34::(p.1.flatMap (escapeChar ensureAscii) ++ 34::([] ++ 58::(gap ++ (p.2.2 ++ ([] ++
            44::(gap ++ (join (44::gap) ((q::parts).map
              (fun p => quote ensureAscii p.1 ++ 58::gap ++ p.2.2)) ++ [125]))))))) := by
        simp [join,quote]
      rw [htext]
      exact hmember

end

/-- A float's text as `json.dumps` writes it: a name, or digits that `float` reads as they are. -/
def FloatText (decimal : PyStr → String) (r : String) : Prop :=
  (jsonFloat r,Json.float r) ∈ jsonConstants ∨
    ∃ sign digits fraction exponent, NumberText sign digits fraction exponent ∧
      ¬(fraction=[] ∧ exponent=[]) ∧ jsonFloat r=sign ++ digits ++ fraction ++ exponent ∧
      decimal (jsonFloat r)=r

namespace Json

/-- A value that Python can hold and that loses nothing in writing: keys differ, floats have
their own text, and where characters are escaped there are no lone surrogates. -/
def Loadable (decimal : PyStr → String) (ensureAscii : Bool) : Json → Prop
  | .float r => FloatText decimal r
  | .str s => ensureAscii=true → Scalar s
  | .list xs => loadableList xs
  | .dict items => (items.map Prod.fst).Nodup ∧ loadableItems items
  | _ => True
where
  loadableList : List Json → Prop
    | [] => True
    | x::xs => x.Loadable decimal ensureAscii ∧ loadableList xs
  loadableItems : List (PyStr × Json) → Prop
    | [] => True
    | (k,x)::items =>
      (ensureAscii=true → Scalar k) ∧ x.Loadable decimal ensureAscii ∧ loadableItems items

/-- The entries in the order in which they are written. -/
def inOrder {α : Type*} (sortKeys : Bool) (items : List (PyStr × α)) : List (PyStr × α) :=
  if sortKeys then items.insertionSort (fun a b => a.1 ≤ b.1) else items

/-- The value with the entries of its dictionaries in the order in which they are written. -/
def arranged (sortKeys : Bool) : Json → Json
  | .list xs => .list (arrangedList xs)
  | .dict items => .dict (inOrder sortKeys (arrangedItems items))
  | v => v
where
  arrangedList : List Json → List Json
    | [] => []
    | x::xs => x.arranged sortKeys::arrangedList xs
  arrangedItems : List (PyStr × Json) → List (PyStr × Json)
    | [] => []
    | (k,x)::items => (k,x.arranged sortKeys)::arrangedItems items

lemma loadableList_iff (decimal : PyStr → String) (ensureAscii : Bool) (xs : List Json) :
    Loadable.loadableList decimal ensureAscii xs ↔ ∀ x ∈ xs, x.Loadable decimal ensureAscii := by
  induction xs with
  | nil => simp [Loadable.loadableList]
  | cons x xs ih => rw [Loadable.loadableList,ih,List.forall_mem_cons]

lemma loadableItems_iff (decimal : PyStr → String) (ensureAscii : Bool) (items : List (PyStr × Json)) :
    Loadable.loadableItems decimal ensureAscii items ↔
      ∀ kv ∈ items, (ensureAscii=true → Scalar kv.1) ∧ kv.2.Loadable decimal ensureAscii := by
  induction items with
  | nil => simp [Loadable.loadableItems]
  | cons kv items ih => rw [Loadable.loadableItems,ih,List.forall_mem_cons,and_assoc]

lemma arrangedList_eq_map (sortKeys : Bool) (xs : List Json) :
    arranged.arrangedList sortKeys xs=xs.map (arranged sortKeys) := by
  induction xs with
  | nil => rfl
  | cons x xs ih => rw [arranged.arrangedList,ih,List.map_cons]

lemma arrangedItems_eq_map (sortKeys : Bool) (items : List (PyStr × Json)) :
    arranged.arrangedItems sortKeys items=items.map (fun kv => (kv.1,kv.2.arranged sortKeys)) := by
  induction items with
  | nil => rfl
  | cons kv items ih => rw [arranged.arrangedItems,ih,List.map_cons]

/-- Without sorting nothing is moved. -/
theorem arranged_false (v : Json) : v.arranged false=v := by
  induction v using Json.ind with
  | list xs ih =>
    rw [arranged,arrangedList_eq_map]
    exact congrArg Json.list ((List.map_congr_left ih).trans (List.map_id xs))
  | dict items ih =>
    rw [arranged,arrangedItems_eq_map]
    refine congrArg Json.dict ((List.map_congr_left ?_).trans (List.map_id items))
    exact fun kv hkv => Prod.ext rfl (ih kv hkv)
  | _ => rfl

lemma inOrder_perm {α : Type*} (sortKeys : Bool) (items : List (PyStr × α)) :
    (inOrder sortKeys items).Perm items := by
  cases sortKeys with
  | true => exact List.perm_insertionSort _ items
  | false => exact .refl items

/-- Only the keys decide the order. -/
lemma inOrder_map {α β : Type*} (sortKeys : Bool) (f : α → β) (items : List (PyStr × α)) :
    inOrder sortKeys (items.map (fun kv => (kv.1,f kv.2)))=
      (inOrder sortKeys items).map (fun kv => (kv.1,f kv.2)) := by
  cases sortKeys with
  | true =>
    exact (List.map_insertionSort (fun a b : PyStr × α => a.1 ≤ b.1) (fun a b : PyStr × β => a.1 ≤ b.1)
      (fun kv => (kv.1,f kv.2)) items (fun _ _ _ _ => Iff.rfl)).symm
  | false => rfl

end Json

lemma dumpsList_eq_map (style : JsonStyle) (xs : List Json) :
    jsonDumps.dumpsList style xs=xs.map (jsonDumps style) := by
  induction xs with
  | nil => rfl
  | cons x xs ih => rw [jsonDumps.dumpsList,ih,List.map_cons]

lemma dumpsItems_eq_map (style : JsonStyle) (items : List (PyStr × Json)) :
    jsonDumps.dumpsItems style items=items.map (fun kv => (kv.1,jsonDumps style kv.2)) := by
  induction items with
  | nil => rfl
  | cons kv items ih => rw [jsonDumps.dumpsItems,ih,List.map_cons]

/-- The blank after a comma or a colon. -/
def JsonStyle.gap (style : JsonStyle) : PyStr := if style.compact then [] else [32]

lemma JsonStyle.blank_gap (style : JsonStyle) : Blank style.gap := by
  intro c hc
  unfold gap at hc
  split at hc
  · cases hc
  · rw [List.mem_singleton.mp hc]
    rfl

lemma jsonDumps_list (style : JsonStyle) (xs : List Json) : jsonDumps style (.list xs)=
    91::(join (44::style.gap) (xs.map (jsonDumps style)) ++ [93]) := by
  rw [jsonDumps,dumpsList_eq_map,JsonStyle.gap]
  cases style.compact <;> rfl

lemma jsonDumps_dict (style : JsonStyle) (items : List (PyStr × Json)) :
    jsonDumps style (.dict items)=123::(join (44::style.gap) ((Json.inOrder style.sortKeys items).map
      (fun kv => quote style.ensureAscii kv.1 ++ 58::style.gap ++ jsonDumps style kv.2)) ++ [125]) := by
  have horder := Json.inOrder_map style.sortKeys (jsonDumps style) items
  rw [jsonDumps,dumpsItems_eq_map]
  change 123::(join _ ((Json.inOrder style.sortKeys _).map _) ++ [125])=_
  rw [horder,List.map_map,JsonStyle.gap]
  cases style.compact <;> rfl

section
variable (decimal : PyStr → String)

/-- `json.dumps` writes a text of the value. -/
theorem written_jsonDumps (style : JsonStyle) {v : Json} (h : v.Loadable decimal style.ensureAscii) :
    Written decimal (.value (v.arranged style.sortKeys)) (jsonDumps style v) := by
  have hnil : Blank [] := fun c hc => (by cases hc)
  induction v using Json.ind with
  | null => exact .constant (by simp [jsonConstants,jsonDumps,Json.arranged])
  | bool b => exact written_bool decimal b style
  | int i => exact written_int decimal i
  | float r =>
    rcases h with h | ⟨sign,digits,fraction,exponent,hnumber,hfloat,htext,hdecimal⟩
    · exact .constant h
    · have hwritten : Written decimal _ _ := .number hnumber
      rw [numberValue,if_neg hfloat,← htext,hdecimal] at hwritten
      exact hwritten
  | str s => exact .string (stringText_escape h)
  | list xs ih =>
    replace h := (Json.loadableList_iff decimal _ xs).mp h
    rw [jsonDumps_list,Json.arranged,Json.arrangedList_eq_map]
    cases xs with
    | nil => exact .emptyArray hnil
    | cons x xs =>
      have hparts := written_elements decimal style.blank_gap
        ((x::xs).map (fun x => (x.arranged style.sortKeys,jsonDumps style x))) (by
          intro p hp
          obtain ⟨y,hy,rfl⟩ := List.mem_map.mp hp
          exact ih y hy (h y hy)) (by simp)
      rw [List.map_map,List.map_map] at hparts
      have hwritten := Written.array hnil hparts
      exact hwritten
  | dict items ih =>
    obtain ⟨hkeys,hitems⟩ := h
    replace hitems := (Json.loadableItems_iff decimal _ items).mp hitems
    have hperm := Json.inOrder_perm style.sortKeys items
    rw [jsonDumps_dict,Json.arranged,Json.arrangedItems_eq_map,Json.inOrder_map]
    generalize Json.inOrder style.sortKeys items=sorted at hperm
    have hnodup : ((sorted.map (fun kv => (kv.1,kv.2.arranged style.sortKeys))).map Prod.fst).Nodup := by
      rw [List.map_map]
      exact (hperm.map Prod.fst).nodup_iff.mpr hkeys
    rw [← Json.ofItems_eq_self hnodup]
    cases sorted with
    | nil => exact .emptyObject hnil
    | cons kv sorted =>
      have hparts := written_members decimal style.ensureAscii style.blank_gap
        ((kv::sorted).map (fun kv => (kv.1,kv.2.arranged style.sortKeys,jsonDumps style kv.2))) (by
          intro p hp
          obtain ⟨y,hy,rfl⟩ := List.mem_map.mp hp
          exact (hitems y (hperm.mem_iff.mp hy)).1) (by
          intro p hp
          obtain ⟨y,hy,rfl⟩ := List.mem_map.mp hp
          exact ih y (hperm.mem_iff.mp hy) (hitems y (hperm.mem_iff.mp hy)).2) (by simp)
      rw [List.map_map,List.map_map] at hparts
      have hwritten := Written.object hnil hparts
      exact hwritten

/-- `json.loads(json.dumps(value))`. -/
theorem jsonLoads_jsonDumps (style : JsonStyle) {v : Json} (h : v.Loadable decimal style.ensureAscii) :
    jsonLoads decimal (jsonDumps style v)=some (v.arranged style.sortKeys) :=
  jsonLoads_text decimal (written_jsonDumps decimal style h)

end
end RagIngestion.Python
