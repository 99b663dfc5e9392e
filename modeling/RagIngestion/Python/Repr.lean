import RagIngestion.Python.Value

/-! `str` and `repr` of JSON values and of bytes. Which characters outside ASCII are printable
is the Unicode database's choice. -/
namespace RagIngestion.Python

/-- The quote a `repr` uses: a double one only for text with single and no double quotes. -/
def reprQuote (single double : Bool) : CodePoint := if single && !double then 34 else 39

/-- The escape of a character that is not printed. -/
def reprEscape (c : CodePoint) : PyStr :=
  if c.val ≤ 0xff then 92::120::hexText 2 c.val
  else if c.val ≤ 0xffff then 92::117::hexText 4 c.val
  else 92::85::hexText 8 c.val

def reprChar (isPrintable : CodePoint → Bool) (q c : CodePoint) : PyStr :=
  if c=q ∨ c=92 then [92,c]
  else if c=9 then [92,116]
  else if c=10 then [92,110]
  else if c=13 then [92,114]
  else if c.val<32 ∨ c.val=127 then reprEscape c
  else if c.val<127 ∨ (isPrintable c=true ∧ isSurrogate c=false) then [c]
  else reprEscape c

def reprStr (isPrintable : CodePoint → Bool) (s : PyStr) : PyStr :=
  let q := reprQuote (s.contains 39) (s.contains 34)
  q::(s.flatMap (reprChar isPrintable q) ++ [q])

/-- `repr` of bytes: as of text, with every byte from 127 on escaped. -/
def reprBytes (b : Bytes) : PyStr :=
  let s : PyStr := b.map (fun n => ⟨n.toNat,by have := n.toNat_lt; omega⟩)
  98::reprStr (fun _ => false) s

namespace Json

/-- `repr(value)`. -/
def pyRepr (isPrintable : CodePoint → Bool) : Json → PyStr
  | .null => py "None"
  | .bool true => py "True"
  | .bool false => py "False"
  | .int i => py (toString i)
  | .float r => py r
  | .str s => reprStr isPrintable s
  | .list xs => 91::(join [44,32] (reprList xs) ++ [93])
  | .dict items => 123::(join [44,32] (reprItems items) ++ [125])
where
  reprList : List Json → List PyStr
    | [] => []
    | x::xs => x.pyRepr isPrintable::reprList xs
  reprItems : List (PyStr × Json) → List PyStr
    | [] => []
    | (k,x)::items => (reprStr isPrintable k ++ [58,32] ++ x.pyRepr isPrintable)::reprItems items

/-- `str(value)`. -/
def pyStr (isPrintable : CodePoint → Bool) : Json → PyStr
  | .str s => s
  | v => v.pyRepr isPrintable

end Json

lemma isSurrogate_ascii {c : CodePoint} (h : c.val<128) : isSurrogate c=false :=
  isSurrogate_of_lt (by omega)

lemma scalar_hexText (w n : ℕ) : Scalar (hexText w n) := by
  intro c hc
  obtain ⟨d,rfl⟩ := mem_hexText hc
  exact isSurrogate_of_lt (hexDigit_lt d)

lemma scalar_reprEscape (c : CodePoint) : Scalar (reprEscape c) := by
  unfold reprEscape
  split_ifs
  · simp [scalar_hexText,isSurrogate_ascii (c := 92) (by decide),isSurrogate_ascii (c := 120) (by decide)]
  · simp [scalar_hexText,isSurrogate_ascii (c := 92) (by decide),isSurrogate_ascii (c := 117) (by decide)]
  · simp [scalar_hexText,isSurrogate_ascii (c := 92) (by decide),isSurrogate_ascii (c := 85) (by decide)]

/-- A `repr` never holds a surrogate: those are not printable. -/
lemma scalar_reprChar (isPrintable : CodePoint → Bool) {q : CodePoint} (hq : isSurrogate q=false)
    (c : CodePoint) : Scalar (reprChar isPrintable q c) := by
  have h92 : isSurrogate 92=false := isSurrogate_ascii (by decide)
  unfold reprChar
  split_ifs with h1 h2 h3 h4 h5 h6
  · cases h1 with
    | inl h => simp [h,hq,h92]
    | inr h => simp [h,h92]
  · decide
  · decide
  · decide
  · exact scalar_reprEscape c
  · cases h6 with
    | inl h => simp [isSurrogate_ascii (show c.val<128 by omega)]
    | inr h => simp [h.2]
  · exact scalar_reprEscape c

theorem scalar_reprStr (isPrintable : CodePoint → Bool) (s : PyStr) :
    Scalar (reprStr isPrintable s) := by
  have hq : ∀ a b, isSurrogate (reprQuote a b)=false := by decide
  have hs : ∀ q, isSurrogate q=false → Scalar (s.flatMap (reprChar isPrintable q)) := by
    intro q hq
    induction s with
    | nil => simp
    | cons c s ih =>
      rw [List.flatMap_cons,scalar_append]
      exact ⟨scalar_reprChar isPrintable hq c,ih⟩
  simp [reprStr,hq,hs]

mutual
theorem Json.scalar_pyRepr (isPrintable : CodePoint → Bool) :
    (v : Json) → Scalar (v.pyRepr isPrintable)
  | .null => scalar_py _
  | .bool true => scalar_py _
  | .bool false => scalar_py _
  | .int _ => scalar_py _
  | .float _ => scalar_py _
  | .str s => scalar_reprStr isPrintable s
  | .list xs => by
    have hsep : Scalar [44,32] := by decide
    rw [Json.pyRepr,scalar_cons,scalar_append,scalar_join hsep]
    exact ⟨by decide,Json.scalar_reprList isPrintable xs,by decide⟩
  | .dict items => by
    have hsep : Scalar [44,32] := by decide
    rw [Json.pyRepr,scalar_cons,scalar_append,scalar_join hsep]
    exact ⟨by decide,Json.scalar_reprItems isPrintable items,by decide⟩
theorem Json.scalar_reprList (isPrintable : CodePoint → Bool) :
    (xs : List Json) → ∀ t ∈ Json.pyRepr.reprList isPrintable xs, Scalar t
  | [] => by simp [Json.pyRepr.reprList]
  | x::xs => by
    rw [Json.pyRepr.reprList,List.forall_mem_cons]
    exact ⟨Json.scalar_pyRepr isPrintable x,Json.scalar_reprList isPrintable xs⟩
theorem Json.scalar_reprItems (isPrintable : CodePoint → Bool) :
    (items : List (PyStr × Json)) → ∀ t ∈ Json.pyRepr.reprItems isPrintable items, Scalar t
  | [] => by simp [Json.pyRepr.reprItems]
  | (k,x)::items => by
    have hsep : Scalar [58,32] := by decide
    rw [Json.pyRepr.reprItems,List.forall_mem_cons,scalar_append,scalar_append]
    exact ⟨⟨⟨scalar_reprStr isPrintable k,hsep⟩,Json.scalar_pyRepr isPrintable x⟩,
      Json.scalar_reprItems isPrintable items⟩
end

theorem Json.scalar_pyStr (isPrintable : CodePoint → Bool) {v : Json} (h : v.ScalarText) :
    Scalar (v.pyStr isPrintable) := by
  cases v with
  | str s => exact h
  | _ => exact Json.scalar_pyRepr isPrintable _

end RagIngestion.Python
