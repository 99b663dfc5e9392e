import RagIngestion.Python.Hex
import Mathlib.Data.List.Sort

/-! Python object trees as a converter may export them, JSON values, and `json.dumps`. -/
namespace RagIngestion.Python

/-- A dictionary key: a string, or another hashable object given by its `str`. -/
inductive PyKey
  | str (s : PyStr)
  | other (text : PyStr)
  deriving DecidableEq

/-- `str(key)`. -/
def PyKey.text : PyKey → PyStr
  | .str s => s
  | .other t => t

/-- An exported object. Numbers with a point are given by their `repr`, objects of other
types by their `str`. -/
inductive PyVal
  | none
  | bool (b : Bool)
  | int (i : ℤ)
  | float (repr : String)
  | str (s : PyStr)
  | bytes (b : Bytes)
  | list (xs : List PyVal)
  | dict (items : List (PyKey × PyVal))
  | other (text : PyStr)

/-- Induction on an object tree, with the hypothesis for every element and every entry. -/
@[elab_as_elim]
theorem PyVal.ind {motive : PyVal → Prop} (none : motive .none) (bool : ∀ b, motive (.bool b))
    (int : ∀ i, motive (.int i)) (float : ∀ r, motive (.float r)) (str : ∀ s, motive (.str s))
    (bytes : ∀ b, motive (.bytes b)) (list : ∀ xs, (∀ x ∈ xs, motive x) → motive (.list xs))
    (dict : ∀ items, (∀ kv ∈ items, motive kv.2) → motive (.dict items))
    (other : ∀ t, motive (.other t)) (v : PyVal) : motive v := by
  refine @PyVal.rec motive (fun xs => ∀ x ∈ xs, motive x) (fun items => ∀ kv ∈ items, motive kv.2)
    (fun kv => motive kv.2) none bool int float str bytes list dict other ?_ ?_ ?_ ?_ ?_ v
  · simp
  · intro x xs hx hxs y hy
    cases List.mem_cons.mp hy with
    | inl h => exact h ▸ hx
    | inr h => exact hxs y h
  · simp
  · intro kv items hkv hitems y hy
    cases List.mem_cons.mp hy with
    | inl h => exact h ▸ hkv
    | inr h => exact hitems y h
  · intro k x hx
    exact hx

/-- A value `json.dumps` can write: string keys, and nothing but JSON types. -/
inductive Json
  | null
  | bool (b : Bool)
  | int (i : ℤ)
  | float (repr : String)
  | str (s : PyStr)
  | list (xs : List Json)
  | dict (items : List (PyStr × Json))

namespace Json

/-- `value.get(key)` of a dictionary; other values have no items. -/
def get (key : PyStr) : Json → Option Json
  | .dict items => items.lookup key
  | _ => none

/-- Assign a key: an existing entry keeps its place and takes the new value. -/
def set (key : PyStr) (value : Json) : List (PyStr × Json) → List (PyStr × Json)
  | [] => [(key,value)]
  | (k,v)::items => if k=key then (k,value)::items else (k,v)::set key value items

/-- The dictionary a comprehension builds from its items in order. -/
def ofItems (items : List (PyStr × Json)) : List (PyStr × Json) :=
  items.foldl (fun d kv => set kv.1 kv.2 d) []

theorem mem_set {kv : PyStr × Json} {key : PyStr} {value : Json} {d : List (PyStr × Json)}
    (h : kv ∈ set key value d) : kv=(key,value) ∨ kv ∈ d := by
  induction d with
  | nil => left; simpa [set] using h
  | cons a d ih =>
    by_cases ha : a.1=key
    · simp only [set,ha,if_true,List.mem_cons] at h
      rcases h with h | h
      · exact Or.inl h
      · exact Or.inr (by simp [h])
    · simp only [set,ha,if_false,List.mem_cons] at h
      rcases h with h | h
      · exact Or.inr (by simp [h])
      · exact (ih h).imp_right (List.mem_cons_of_mem a)

theorem set_keys_nodup {d : List (PyStr × Json)} (key : PyStr) (value : Json)
    (h : (d.map Prod.fst).Nodup) : ((set key value d).map Prod.fst).Nodup := by
  induction d with
  | nil => simp [set]
  | cons a d ih =>
    rw [List.map_cons,List.nodup_cons] at h
    by_cases ha : a.1=key
    · simpa [set,ha] using h
    · simp only [set,ha,if_false,List.map_cons,List.nodup_cons]
      refine ⟨?_,ih h.2⟩
      intro hm
      obtain ⟨kv,hkv,hk⟩ := List.mem_map.mp hm
      rcases mem_set hkv with rfl | hkv
      · exact ha hk.symm
      · exact h.1 (List.mem_map.mpr ⟨kv,hkv,hk⟩)

lemma set_of_new_key {d : List (PyStr × Json)} {key : PyStr} {value : Json}
    (h : key ∉ d.map Prod.fst) : set key value d=d ++ [(key,value)] := by
  induction d with
  | nil => rfl
  | cons a d ih =>
    rw [List.map_cons,List.mem_cons,not_or] at h
    simp [set,Ne.symm h.1,ih h.2]

lemma mem_foldl_set {kv : PyStr × Json} {items d : List (PyStr × Json)}
    (h : kv ∈ items.foldl (fun d a => set a.1 a.2 d) d) : kv ∈ d ∨ kv ∈ items := by
  induction items generalizing d with
  | nil => exact Or.inl h
  | cons a items ih =>
    rcases ih h with h | h
    · rcases mem_set h with rfl | h
      · exact Or.inr (by simp)
      · exact Or.inl h
    · exact Or.inr (by simp [h])

lemma foldl_set_keys_nodup {d : List (PyStr × Json)} (items : List (PyStr × Json))
    (h : (d.map Prod.fst).Nodup) :
    ((items.foldl (fun d a => set a.1 a.2 d) d).map Prod.fst).Nodup := by
  induction items generalizing d with
  | nil => exact h
  | cons a items ih => exact ih (set_keys_nodup _ _ h)

lemma foldl_set_of_new_keys {d items : List (PyStr × Json)}
    (h : ((d ++ items).map Prod.fst).Nodup) :
    items.foldl (fun d a => set a.1 a.2 d) d=d ++ items := by
  induction items generalizing d with
  | nil => simp
  | cons a items ih =>
    have ha : a.1 ∉ d.map Prod.fst := by
      intro hm
      rw [List.map_append,List.nodup_append] at h
      exact h.2.2 _ hm _ (by simp) rfl
    rw [List.foldl_cons,set_of_new_key ha,ih (by simpa using h)]
    simp

/-- A built dictionary holds only pairs it was given. -/
theorem mem_ofItems {kv : PyStr × Json} {items : List (PyStr × Json)} (h : kv ∈ ofItems items) :
    kv ∈ items := (mem_foldl_set h).resolve_left (by simp)

/-- A built dictionary holds each key once. -/
theorem ofItems_keys_nodup (items : List (PyStr × Json)) : ((ofItems items).map Prod.fst).Nodup :=
  foldl_set_keys_nodup items (by simp)

/-- Keys that are all different are kept as they are. -/
theorem ofItems_eq_self {items : List (PyStr × Json)} (h : (items.map Prod.fst).Nodup) :
    ofItems items=items := by simpa [ofItems] using foldl_set_of_new_keys (d := []) (by simpa using h)

lemma lookup_cons_eq (k : PyStr) (a : PyStr × Json) (d : List (PyStr × Json)) :
    (a::d).lookup k=if k=a.1 then some a.2 else d.lookup k := by
  by_cases hk : k=a.1
  · rw [hk,if_pos rfl]
    exact List.lookup_cons_self
  · have hbeq : (k==a.1)=false := beq_false_of_ne hk
    obtain ⟨key,value⟩ := a
    rw [List.lookup_cons,hbeq,if_neg hk]

lemma lookup_set (key : PyStr) (value : Json) (d : List (PyStr × Json)) (k : PyStr) :
    (set key value d).lookup k=if k=key then some value else d.lookup k := by
  induction d with
  | nil => rw [set,lookup_cons_eq]
  | cons a d ih =>
    by_cases ha : a.1=key
    · simp only [set,ha,if_true,lookup_cons_eq]
      split <;> rfl
    · simp only [set,ha,if_false,lookup_cons_eq,ih]
      by_cases hk : k=a.1
      · have hne : ¬k=key := fun h => ha (hk.symm.trans h)
        simp [hk,ha]
      · simp [hk]

lemma lookup_foldl_set_of_new {key : PyStr} {items : List (PyStr × Json)}
    (h : ∀ kv ∈ items, kv.1≠key) (d : List (PyStr × Json)) :
    (items.foldl (fun d a => set a.1 a.2 d) d).lookup key=d.lookup key := by
  induction items generalizing d with
  | nil => rfl
  | cons a items ih =>
    rw [List.foldl_cons,ih (fun kv hkv => h kv (List.mem_cons_of_mem _ hkv)),lookup_set,
      if_neg (h a List.mem_cons_self).symm]

/-- A built dictionary has no entry for a key it was not given. -/
theorem lookup_ofItems_of_new {key : PyStr} {items : List (PyStr × Json)}
    (h : ∀ kv ∈ items, kv.1≠key) : (ofItems items).lookup key=none := lookup_foldl_set_of_new h []

/-- The last value given for a key is the one a built dictionary has. -/
theorem lookup_ofItems_last {key : PyStr} {value : Json} (before : List (PyStr × Json))
    {after : List (PyStr × Json)} (h : ∀ kv ∈ after, kv.1≠key) :
    (ofItems (before ++ (key,value)::after)).lookup key=some value := by
  rw [ofItems,List.foldl_append,List.foldl_cons,lookup_foldl_set_of_new h,lookup_set,if_pos rfl]

lemma keys_set (key : PyStr) (value : Json) (d : List (PyStr × Json)) :
    (set key value d).map Prod.fst=
      if key ∈ d.map Prod.fst then d.map Prod.fst else d.map Prod.fst ++ [key] := by
  induction d with
  | nil => rfl
  | cons a d ih =>
    by_cases ha : a.1=key
    · simp [set,ha]
    · have hne : ¬key=a.1 := fun h => ha h.symm
      simp only [set,ha,if_false,List.map_cons,ih,List.mem_cons,hne,false_or]
      split <;> rfl

/-- The keys of a built dictionary depend on the given keys only. -/
theorem keys_ofItems_congr {items other : List (PyStr × Json)}
    (h : items.map Prod.fst=other.map Prod.fst) :
    (ofItems items).map Prod.fst=(ofItems other).map Prod.fst := by
  have hfold : ∀ (items d : List (PyStr × Json)),
      (items.foldl (fun d a => set a.1 a.2 d) d).map Prod.fst=
        (items.map Prod.fst).foldl (fun ks k => if k ∈ ks then ks else ks ++ [k]) (d.map Prod.fst) := by
    intro items
    induction items with
    | nil => intro d; rfl
    | cons a items ih => intro d; rw [List.foldl_cons,ih,keys_set,List.map_cons,List.foldl_cons]
  rw [ofItems,ofItems,hfold,hfold,h]

/-- Dictionaries with the same keys in the same order and the same values are equal. -/
theorem eq_of_lookup_eq {d e : List (PyStr × Json)} (hd : (d.map Prod.fst).Nodup)
    (hkeys : d.map Prod.fst=e.map Prod.fst) (h : ∀ key, d.lookup key=e.lookup key) : d=e := by
  induction d generalizing e with
  | nil => exact (List.map_eq_nil_iff.mp hkeys.symm).symm
  | cons a d ih =>
    obtain ⟨b,e,rfl,hab,htail⟩ := List.map_eq_cons_iff.mp hkeys.symm
    rw [List.map_cons,List.nodup_cons] at hd
    have hvalue := h a.1
    simp only [lookup_cons_eq,hab,if_true,Option.some.injEq] at hvalue
    have hrest : d=e := by
      refine ih hd.2 htail.symm ?_
      intro key
      by_cases hkey : key=a.1
      · have hnone : ∀ f : List (PyStr × Json), f.map Prod.fst=d.map Prod.fst → f.lookup key=none := by
          intro f hf
          rw [List.lookup_eq_none_iff]
          intro kv hkv
          rw [bne_iff_ne,hkey]
          exact fun heq => hd.1 (hf ▸ List.mem_map.mpr ⟨kv,hkv,heq.symm⟩)
        rw [hnone d rfl,hnone e htail]
      · have hother := h key
        rwa [lookup_cons_eq,lookup_cons_eq,hab,if_neg hkey,if_neg hkey] at hother
    rw [hrest,Prod.ext hab.symm hvalue]

/-- Every string and key of the value can be encoded. -/
def ScalarText : Json → Prop
  | .str s => Scalar s
  | .list xs => scalarList xs
  | .dict items => scalarItems items
  | _ => True
where
  scalarList : List Json → Prop
    | [] => True
    | x::xs => x.ScalarText ∧ scalarList xs
  scalarItems : List (PyStr × Json) → Prop
    | [] => True
    | (k,x)::items => Scalar k ∧ x.ScalarText ∧ scalarItems items

theorem scalarList_iff (xs : List Json) :
    ScalarText.scalarList xs ↔ ∀ x ∈ xs, x.ScalarText := by
  induction xs with
  | nil => simp [ScalarText.scalarList]
  | cons x xs ih => rw [ScalarText.scalarList,ih,List.forall_mem_cons]

theorem scalarItems_iff (items : List (PyStr × Json)) :
    ScalarText.scalarItems items ↔ ∀ kv ∈ items, Scalar kv.1 ∧ kv.2.ScalarText := by
  induction items with
  | nil => simp [ScalarText.scalarItems]
  | cons kv items ih => rw [ScalarText.scalarItems,ih,List.forall_mem_cons,and_assoc]

end Json

/-- The escapes and layout a call of `json.dumps` asks for. -/
structure JsonStyle where
  ensureAscii : Bool
  sortKeys : Bool
  compact : Bool

/-- Four hexadecimal digits after a backslash and a `u`. -/
def escapeUnit (n : ℕ) : PyStr := 92::117::hexText 4 n

/-- Characters with an escape of their own, each with the letter after its backslash. -/
def shortEscapes : List (CodePoint × CodePoint) :=
  [(34,34),(92,92),(10,110),(13,114),(9,116),(8,98),(12,102)]

def escapeChar (ensureAscii : Bool) (c : CodePoint) : PyStr :=
  match shortEscapes.find? (fun e => e.1==c) with
  | some e => [92,e.2]
  | none =>
    if c.val<32 then escapeUnit c.val
    else if ensureAscii=true ∧ 126<c.val then
      if c.val<0x10000 then escapeUnit c.val
      else escapeUnit (0xD800+(c.val-0x10000)/1024) ++ escapeUnit (0xDC00+(c.val-0x10000)%1024)
    else [c]

def quote (ensureAscii : Bool) (s : PyStr) : PyStr :=
  34::(s.flatMap (escapeChar ensureAscii) ++ [34])

/-- How the JSON encoder writes a float of this `repr`. -/
def jsonFloat (repr : String) : PyStr :=
  if repr="nan" then py "NaN"
  else if repr="inf" then py "Infinity"
  else if repr="-inf" then py "-Infinity"
  else py repr

/-- `json.dumps(value)`. An integer is written whatever its size; the interpreter's limit of 4300
digits is not modelled. -/
def jsonDumps (style : JsonStyle) : Json → PyStr
  | .null => py "null"
  | .bool true => py "true"
  | .bool false => py "false"
  | .int i => py (toString i)
  | .float r => jsonFloat r
  | .str s => quote style.ensureAscii s
  | .list xs => 91::(join (if style.compact then [44] else [44,32]) (dumpsList xs) ++ [93])
  | .dict items =>
    let written := dumpsItems items
    let sorted := if style.sortKeys then written.insertionSort (fun a b => a.1 ≤ b.1) else written
    123::(join (if style.compact then [44] else [44,32])
      (sorted.map (fun kv => quote style.ensureAscii kv.1 ++
        (if style.compact then [58] else [58,32]) ++ kv.2)) ++ [125])
where
  dumpsList : List Json → List PyStr
    | [] => []
    | x::xs => jsonDumps style x::dumpsList xs
  dumpsItems : List (PyStr × Json) → List (PyStr × PyStr)
    | [] => []
    | (k,x)::items => (k,jsonDumps style x)::dumpsItems items

lemma scalar_jsonFloat (r : String) : Scalar (jsonFloat r) := by
  unfold jsonFloat
  split_ifs
  all_goals exact scalar_py _

lemma scalar_escapeUnit (n : ℕ) : Scalar (escapeUnit n) := by
  intro c hc
  apply isSurrogate_of_lt
  simp only [escapeUnit,List.mem_cons] at hc
  rcases hc with rfl | rfl | hc
  · decide
  · decide
  · obtain ⟨d,rfl⟩ := mem_hexText hc
    exact hexDigit_lt d

lemma shortEscapes_lt : ∀ e ∈ shortEscapes, e.1.val<0xD800 ∧ e.2.val<0xD800 := by
  simp [shortEscapes]

/-- Without ASCII escapes a character is written so that it keeps its surrogate, if it is one. -/
lemma scalar_escapeChar (c : CodePoint) : Scalar (escapeChar false c) ↔ isSurrogate c=false := by
  unfold escapeChar
  split
  · next e he =>
    obtain ⟨h1,h2⟩ := shortEscapes_lt e (List.mem_of_find?_eq_some he)
    have hc : e.1=c := by simpa using List.find?_some he
    rw [hc] at h1
    have h92 : isSurrogate 92=false := isSurrogate_of_lt (by decide)
    simp [isSurrogate_of_lt h1,isSurrogate_of_lt h2,h92]
  · split_ifs with h1 h2
    · exact iff_of_true (scalar_escapeUnit _) (isSurrogate_of_lt (by omega))
    · exact absurd h2.1 (by simp)
    · exact absurd h2.1 (by simp)
    · simp

lemma scalar_quote (s : PyStr) : Scalar (quote false s) ↔ Scalar s := by
  have h : Scalar (s.flatMap (escapeChar false)) ↔ Scalar s := by
    induction s with
    | nil => simp
    | cons c s ih => rw [List.flatMap_cons,scalar_append,scalar_cons,scalar_escapeChar,ih]
  have h34 : isSurrogate 34=false := by decide
  simp [quote,h,h34]

mutual
/-- Unescaped JSON text can be encoded exactly when all strings of the value can. -/
theorem scalar_jsonDumps {style : JsonStyle} (hs : style.ensureAscii=false) :
    (v : Json) → (Scalar (jsonDumps style v) ↔ v.ScalarText)
  | .null => iff_of_true (scalar_py _) trivial
  | .bool true => iff_of_true (scalar_py _) trivial
  | .bool false => iff_of_true (scalar_py _) trivial
  | .int _ => iff_of_true (scalar_py _) trivial
  | .float _ => iff_of_true (scalar_jsonFloat _) trivial
  | .str s => by simpa only [jsonDumps,hs,Json.ScalarText] using scalar_quote s
  | .list xs => by
    have hsep : Scalar (if style.compact then [44] else [44,32]) := by split_ifs <;> decide
    have h91 : isSurrogate 91=false := by decide
    have h93 : Scalar [93] := by decide
    rw [jsonDumps,scalar_cons,scalar_append,scalar_join hsep,scalar_dumpsList hs xs]
    simp [h91,h93,Json.ScalarText]
  | .dict items => by
    have hsep : Scalar (if style.compact then [44] else [44,32]) := by split_ifs <;> decide
    have hcolon : Scalar (if style.compact then [58] else [58,32]) := by split_ifs <;> decide
    have h123 : isSurrogate 123=false := by decide
    have h125 : Scalar [125] := by decide
    have hsort : ∀ kv, kv ∈ (if style.sortKeys then (jsonDumps.dumpsItems style items).insertionSort
        (fun a b => a.1 ≤ b.1) else jsonDumps.dumpsItems style items) ↔
          kv ∈ jsonDumps.dumpsItems style items := by
      intro kv
      split_ifs
      · exact List.mem_insertionSort _
      · rfl
    rw [jsonDumps,scalar_cons,scalar_append,scalar_join hsep]
    simp only [List.forall_mem_map,scalar_append,hs,scalar_quote,hcolon,and_true,hsort]
    rw [scalar_dumpsItems hs items]
    simp [h123,h125,Json.ScalarText]
theorem scalar_dumpsList {style : JsonStyle} (hs : style.ensureAscii=false) :
    (xs : List Json) →
      ((∀ t ∈ jsonDumps.dumpsList style xs, Scalar t) ↔ Json.ScalarText.scalarList xs)
  | [] => by simp [jsonDumps.dumpsList,Json.ScalarText.scalarList]
  | x::xs => by
    rw [jsonDumps.dumpsList,List.forall_mem_cons,scalar_jsonDumps hs x,scalar_dumpsList hs xs,
      Json.ScalarText.scalarList]
theorem scalar_dumpsItems {style : JsonStyle} (hs : style.ensureAscii=false) :
    (items : List (PyStr × Json)) →
      ((∀ kv ∈ jsonDumps.dumpsItems style items, Scalar kv.1 ∧ Scalar kv.2) ↔
        Json.ScalarText.scalarItems items)
  | [] => by simp [jsonDumps.dumpsItems,Json.ScalarText.scalarItems]
  | (k,x)::items => by
    rw [jsonDumps.dumpsItems,List.forall_mem_cons,scalar_jsonDumps hs x,scalar_dumpsItems hs items,
      Json.ScalarText.scalarItems,and_assoc]
end

/-- With ASCII escapes every character is written as ASCII. -/
lemma scalar_escapeChar_ascii (c : CodePoint) : Scalar (escapeChar true c) := by
  unfold escapeChar
  split
  · next e he =>
    obtain ⟨-,h2⟩ := shortEscapes_lt e (List.mem_of_find?_eq_some he)
    have h92 : isSurrogate 92=false := isSurrogate_of_lt (by decide)
    simp [isSurrogate_of_lt h2,h92]
  · split_ifs with h1 h2 h3
    · exact scalar_escapeUnit _
    · exact scalar_escapeUnit _
    · exact (scalar_append _ _).mpr ⟨scalar_escapeUnit _,scalar_escapeUnit _⟩
    · have hlow : ¬126<c.val := fun h => h2 ⟨rfl,h⟩
      have hc : isSurrogate c=false := isSurrogate_of_lt (by omega)
      simp [hc]

lemma scalar_quote_ascii (s : PyStr) : Scalar (quote true s) := by
  have h : Scalar (s.flatMap (escapeChar true)) := by
    induction s with
    | nil => simp
    | cons c s ih => rw [List.flatMap_cons,scalar_append]; exact ⟨scalar_escapeChar_ascii c,ih⟩
  have h34 : isSurrogate 34=false := by decide
  simp [quote,h,h34]

mutual
/-- Escaped JSON text can be encoded, whatever the value. -/
theorem scalar_jsonDumps_ascii {style : JsonStyle} (hs : style.ensureAscii=true) :
    (v : Json) → Scalar (jsonDumps style v)
  | .null => scalar_py _
  | .bool true => scalar_py _
  | .bool false => scalar_py _
  | .int _ => scalar_py _
  | .float _ => scalar_jsonFloat _
  | .str s => by simpa only [jsonDumps,hs] using scalar_quote_ascii s
  | .list xs => by
    have hsep : Scalar (if style.compact then [44] else [44,32]) := by split_ifs <;> decide
    have h91 : isSurrogate 91=false := by decide
    have h93 : Scalar [93] := by decide
    rw [jsonDumps,scalar_cons,scalar_append,scalar_join hsep]
    exact ⟨h91,scalar_dumpsList_ascii hs xs,h93⟩
  | .dict items => by
    have hsep : Scalar (if style.compact then [44] else [44,32]) := by split_ifs <;> decide
    have hcolon : Scalar (if style.compact then [58] else [58,32]) := by split_ifs <;> decide
    have h123 : isSurrogate 123=false := by decide
    have h125 : Scalar [125] := by decide
    have hsort : ∀ kv, kv ∈ (if style.sortKeys then (jsonDumps.dumpsItems style items).insertionSort
        (fun a b => a.1 ≤ b.1) else jsonDumps.dumpsItems style items) →
          kv ∈ jsonDumps.dumpsItems style items := by
      intro kv hkv
      split_ifs at hkv
      · exact (List.mem_insertionSort _).mp hkv
      · exact hkv
    rw [jsonDumps,scalar_cons,scalar_append,scalar_join hsep]
    refine ⟨h123,?_,h125⟩
    simp only [List.forall_mem_map,scalar_append,hs,hcolon,and_true]
    exact fun kv hkv => ⟨scalar_quote_ascii _,scalar_dumpsItems_ascii hs items kv (hsort kv hkv)⟩
theorem scalar_dumpsList_ascii {style : JsonStyle} (hs : style.ensureAscii=true) :
    (xs : List Json) → ∀ t ∈ jsonDumps.dumpsList style xs, Scalar t
  | [] => by simp [jsonDumps.dumpsList]
  | x::xs => by
    rw [jsonDumps.dumpsList,List.forall_mem_cons]
    exact ⟨scalar_jsonDumps_ascii hs x,scalar_dumpsList_ascii hs xs⟩
theorem scalar_dumpsItems_ascii {style : JsonStyle} (hs : style.ensureAscii=true) :
    (items : List (PyStr × Json)) → ∀ kv ∈ jsonDumps.dumpsItems style items, Scalar kv.2
  | [] => by simp [jsonDumps.dumpsItems]
  | (k,x)::items => by
    rw [jsonDumps.dumpsItems,List.forall_mem_cons]
    exact ⟨scalar_jsonDumps_ascii hs x,scalar_dumpsItems_ascii hs items⟩
end

end RagIngestion.Python
