import RagIngestion.Python.Hex

/-! Python's `uuid.UUID`: the canonical text of a value and the parser of its constructor,
with the spellings that `int(text, 16)` admits. -/
namespace RagIngestion.Python

/-- A UUID is its 128-bit integer. -/
structure UUID where
  int : Fin (2^128)
  deriving DecidableEq

instance uuidNeZero : NeZero (2^128) := ⟨by decide⟩

/-- The code points of the digit zero in every decimal digit block of Unicode. -/
def decimalZeros : List ℕ :=
  [0x30,0x660,0x6f0,0x7c0,0x966,0x9e6,0xa66,0xae6,0xb66,0xbe6,0xc66,0xce6,0xd66,0xde6,0xe50,
    0xed0,0xf20,0x1040,0x1090,0x17e0,0x1810,0x1946,0x19d0,0x1a80,0x1a90,0x1b50,0x1bb0,0x1c40,
    0x1c50,0xa620,0xa8d0,0xa900,0xa9d0,0xa9f0,0xaa50,0xabf0,0xff10,0x104a0,0x10d30,0x11066,
    0x110f0,0x11136,0x111d0,0x112f0,0x11450,0x114d0,0x11650,0x116c0,0x11730,0x118e0,0x11950,
    0x11c50,0x11d50,0x11da0,0x16a60,0x16ac0,0x16b50,0x1d7ce,0x1d7d8,0x1d7e2,0x1d7ec,0x1d7f6,
    0x1e140,0x1e2f0,0x1e950,0x1fbf0]

/-- The value of a digit in base 16, decimal digits of any script included. -/
def hexValue (c : CodePoint) : Option ℕ :=
  if 97 ≤ c.val ∧ c.val ≤ 102 then some (c.val-87)
  else if 65 ≤ c.val ∧ c.val ≤ 70 then some (c.val-55)
  else (decimalZeros.find? (fun z => z ≤ c.val ∧ c.val<z+10)).map (fun z => c.val-z)

lemma hexValue_hexDigit (d : Fin 16) : hexValue (hexDigit d)=some d.val := by
  fin_cases d <;> rfl

/-- Read digits; an underscore may stand between two of them, as the flag remembers. -/
def intDigits : Bool → ℕ → PyStr → Option ℕ
  | last, n, [] => if last then some n else none
  | last, n, c::s =>
    match hexValue c with
    | some d => intDigits true (16*n+d) s
    | none => if c=95 ∧ last then intDigits false n s else none

/-- The text after one given character, where it starts with it. -/
def dropHead (c : CodePoint) (s : PyStr) : PyStr := if s.head?=some c then s.tail else s

/-- The white space that `int` skips: of `str.isspace`, not the four separators of ASCII. -/
def isIntSpace (c : CodePoint) : Bool := isSpace c && !decide (28 ≤ c.val ∧ c.val ≤ 31)

/-- `int(text, 16)` for text without a minus sign. The zero of a prefix may be of any script too. -/
def intBase16 (text : PyStr) : Option ℕ :=
  let s := dropHead 43 (strip isIntSpace text)
  if s[0]?.bind hexValue=some 0 ∧ (s[1]?=some 120 ∨ s[1]?=some 88) then intDigits false 0 (dropHead 95 (s.drop 2))
  else intDigits false 0 s

lemma intDigits_map (ds : List (Fin 16)) (n : ℕ) :
    intDigits true n (ds.map hexDigit)=some (ds.foldl (fun k d => 16*k+d.val) n) := by
  induction ds generalizing n with
  | nil => rfl
  | cons d ds ih =>
    rw [List.map_cons,intDigits,hexValue_hexDigit,List.foldl_cons]
    exact ih _

lemma intDigits_digit (d : Fin 16) (ds : List (Fin 16)) :
    intDigits false 0 ((d::ds).map hexDigit)=some ((d::ds).foldl (fun k d => 16*k+d.val) 0) := by
  rw [List.map_cons,intDigits,hexValue_hexDigit,List.foldl_cons]
  exact intDigits_map ds _

lemma isIntSpace_hexDigit (d : Fin 16) : isIntSpace (hexDigit d)=false := by fin_cases d <;> rfl

/-- Plain digits, at least two, are read as a number. -/
theorem intBase16_map (d e : Fin 16) (ds : List (Fin 16)) :
    intBase16 ((d::e::ds).map hexDigit)=some ((d::e::ds).foldl (fun k d => 16*k+d.val) 0) := by
  have hs : strip isIntSpace ((d::e::ds).map hexDigit)=(d::e::ds).map hexDigit := by
    apply strip_eq_self
    intro c hc
    obtain ⟨x,_,rfl⟩ := List.mem_map.mp hc
    exact isIntSpace_hexDigit x
  have h43 : dropHead 43 ((d::e::ds).map hexDigit)=(d::e::ds).map hexDigit := by
    rw [dropHead,if_neg]
    simpa using hexDigit_ne (by decide) d
  have hx : ¬(hexDigit e=120 ∨ hexDigit e=88) := by
    rintro (h | h)
    · exact hexDigit_ne (by decide) e h
    · exact hexDigit_ne (by decide) e h
  rw [intBase16,hs,h43,if_neg,intDigits_digit]
  simpa using fun _ => hx

theorem intBase16_hexText (n : ℕ) : intBase16 (hexText 32 n)=some (n%2^128) := by
  have hl := hexDigits_length 32 n
  have hv := hexDigits_value 32 n 0
  unfold hexText
  match hd : hexDigits 32 n with
  | [] => simp [hd] at hl
  | [_] => simp [hd] at hl
  | d::e::ds =>
    rw [intBase16_map,← hd,hv]
    norm_num

namespace UUID

/-- `str(uuid)`: the canonical 8-4-4-4-12 spelling. -/
def str (u : UUID) : PyStr :=
  let h := hexText 32 u.int.val
  h.take 8 ++ 45::((h.drop 8).take 4 ++ 45::((h.drop 12).take 4 ++
    45::((h.drop 16).take 4 ++ 45::h.drop 20)))

/-- `UUID(text)`; `none` is its `ValueError`. -/
def parse (text : PyStr) : Option UUID :=
  let hex := replace (py "uuid:") [] (replace (py "urn:") [] text)
  let hex := (strip (fun c => c==123 || c==125) hex).filter (fun c => c≠45)
  if hex.length=32 then (intBase16 hex).bind (fun n => if h : n<2^128 then some ⟨⟨n,h⟩⟩ else none)
  else none

lemma str_eq (u : UUID) : ∃ a b c d e : List (Fin 16), a++b++c++d++e=hexDigits 32 u.int.val ∧
    u.str=a.map hexDigit ++ 45::(b.map hexDigit ++ 45::(c.map hexDigit ++
      45::(d.map hexDigit ++ 45::e.map hexDigit))) := by
  let h := hexDigits 32 u.int.val
  refine ⟨h.take 8,(h.drop 8).take 4,(h.drop 12).take 4,(h.drop 16).take 4,h.drop 20,?_,?_⟩
  · have h4 : (h.drop 16).take 4 ++ h.drop 20=h.drop 16 := by
      simpa using List.take_append_drop 4 (h.drop 16)
    have h3 : (h.drop 12).take 4 ++ h.drop 16=h.drop 12 := by
      simpa using List.take_append_drop 4 (h.drop 12)
    have h2 : (h.drop 8).take 4 ++ h.drop 12=h.drop 8 := by
      simpa using List.take_append_drop 4 (h.drop 8)
    rw [List.append_assoc,h4,List.append_assoc,h3,List.append_assoc,h2,List.take_append_drop]
  · simp [str,hexText,h,List.map_take,List.map_drop]

/-- Canonical text consists of lowercase hexadecimal digits and hyphens. -/
theorem mem_str {u : UUID} {c : CodePoint} (h : c ∈ u.str) : c=45 ∨ ∃ d, c=hexDigit d := by
  obtain ⟨a,b,e,f,g,_,hs⟩ := u.str_eq
  simp only [hs,List.mem_append,List.mem_cons,List.mem_map] at h
  rcases h with ⟨d,_,rfl⟩ | rfl | ⟨d,_,rfl⟩ | rfl | ⟨d,_,rfl⟩ | rfl | ⟨d,_,rfl⟩ | rfl | ⟨d,_,rfl⟩ <;>
    simp

theorem not_mem_str {c : CodePoint} (h : c.val<45 ∨ (45<c.val ∧ c.val<48) ∨
    (57<c.val ∧ c.val<97) ∨ 102<c.val) (u : UUID) : c ∉ u.str := by
  intro hc
  rcases mem_str hc with rfl | ⟨d,rfl⟩
  · simp at h
  · exact hexDigit_ne (c := hexDigit d) (by omega) d rfl

theorem scalar_str (u : UUID) : Scalar u.str := by
  intro c hc
  obtain rfl | ⟨d,rfl⟩ := mem_str hc
  · rfl
  · exact isSurrogate_of_lt (hexDigit_lt d)

@[simp] theorem str_length (u : UUID) : u.str.length=36 := by simp [str]

/-- The constructor reads back what `str` wrote. -/
@[simp] theorem parse_str (u : UUID) : parse u.str=some u := by
  have hu : replace (py "uuid:") [] (replace (py "urn:") [] u.str)=u.str := by
    have h := not_mem_str (c := 117) (by decide) u
    rw [show py "urn:"=117::py "rn:" from rfl,replace_eq_self _ _ _ _ h,
      show py "uuid:"=117::py "uid:" from rfl,replace_eq_self _ _ _ _ h]
  have hs : strip (fun c => c==123 || c==125) u.str=u.str := by
    apply strip_eq_self
    intro c hc
    have h1 := not_mem_str (c := 123) (by decide) u
    have h2 := not_mem_str (c := 125) (by decide) u
    rw [Bool.or_eq_false_iff,beq_eq_false_iff_ne,beq_eq_false_iff_ne]
    exact ⟨fun h => h1 (h ▸ hc),fun h => h2 (h ▸ hc)⟩
  have hf : u.str.filter (fun c => c≠45)=hexText 32 u.int.val := by
    obtain ⟨a,b,c,d,e,he,hstr⟩ := u.str_eq
    have hm : ∀ l : List (Fin 16), (l.map hexDigit).filter (fun c => decide (c≠45))=l.map hexDigit := by
      intro l
      rw [List.filter_eq_self]
      intro x hx
      obtain ⟨y,_,rfl⟩ := List.mem_map.mp hx
      exact decide_eq_true (hexDigit_ne (by decide) y)
    simp only [hstr,List.filter_append,List.filter_cons,hm]
    simp [hexText,← he]
  simp only [parse,hu,hs,hf,hexText_length,if_true,intBase16_hexText,Option.bind_some,
    Nat.mod_eq_of_lt u.int.isLt,u.int.isLt,dif_pos]

/-- The constructor `UUID(text)`. -/
def ofText (text : PyStr) : Except PyError UUID :=
  match parse text with
  | none => .error .valueError
  | some u => .ok u

@[simp] theorem ofText_str (u : UUID) : ofText u.str=.ok u := by simp [ofText]

lemma ofText_eq_error {text : PyStr} {e : PyError} (h : ofText text=.error e) : e=.valueError := by
  unfold ofText at h
  split at h
  · cases h; rfl
  · cases h

/-- Different UUIDs have different texts. -/
theorem str_injective : Function.Injective str := by
  intro u v h
  have hp : parse u.str=parse v.str := by rw [h]
  simpa using hp

end UUID
end RagIngestion.Python
