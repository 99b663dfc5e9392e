import Mathlib.Data.List.Basic
import Mathlib.Data.List.TakeWhile
import Mathlib.Data.Char
import Mathlib.Tactic

/-! Python strings and the string methods the pipeline calls. A `str` is a list of code
points, lone surrogates included, so that encoding can fail as it does in Python. -/
namespace RagIngestion.Python

abbrev Bytes := List UInt8
abbrev CodePoint := Fin 0x110000
abbrev PyStr := List CodePoint

/-- Numerals are code points, and equal strings are the same string. -/
instance codePointNeZero : NeZero 0x110000 := ⟨by decide⟩
instance pyStrLawfulBEq : LawfulBEq PyStr := inferInstance

lemma char_lt (c : Char) : c.toNat<0x110000 := by
  have h := c.valid
  unfold UInt32.isValidChar Nat.isValidChar at h
  change c.val.toNat<0x110000
  omega

/-- The Python string of a source literal. -/
def py (s : String) : PyStr := s.toList.map (fun c => ⟨c.toNat,char_lt c⟩)

/-- Code points that no encoding accepts. -/
def isSurrogate (c : CodePoint) : Bool := decide (0xD800 ≤ c.val ∧ c.val ≤ 0xDFFF)

/-- Text without lone surrogates. -/
def Scalar (s : PyStr) : Prop := ∀ c ∈ s, isSurrogate c=false

instance (s : PyStr) : Decidable (Scalar s) :=
  decidable_of_iff (s.all (fun c => !isSurrogate c)=true) (by simp [Scalar])

@[simp] theorem scalar_nil : Scalar [] := by simp [Scalar]

@[simp] theorem scalar_cons (c : CodePoint) (s : PyStr) :
    Scalar (c::s) ↔ isSurrogate c=false ∧ Scalar s := by simp [Scalar]

@[simp] theorem scalar_append (s t : PyStr) : Scalar (s++t) ↔ Scalar s ∧ Scalar t := by
  simp only [Scalar,List.mem_append]
  constructor
  · intro h; exact ⟨fun c hc => h c (Or.inl hc),fun c hc => h c (Or.inr hc)⟩
  · rintro ⟨hs,ht⟩ c (hc | hc)
    · exact hs c hc
    · exact ht c hc

lemma isSurrogate_of_lt {c : CodePoint} (h : c.val<0xD800) : isSurrogate c=false := by
  simp only [isSurrogate,decide_eq_false_iff_not]
  omega

theorem scalar_py (s : String) : Scalar (py s) := by
  intro c hc
  obtain ⟨d,_,rfl⟩ := List.mem_map.mp hc
  have h := d.valid
  unfold UInt32.isValidChar Nat.isValidChar at h
  simp only [isSurrogate,decide_eq_false_iff_not]
  change ¬(0xD800 ≤ d.val.toNat ∧ d.val.toNat ≤ 0xDFFF)
  omega

/-- `sep.join(parts)`. -/
def join (sep : PyStr) : List PyStr → PyStr
  | [] => []
  | [x] => x
  | x::y::xs => x ++ sep ++ join sep (y::xs)

theorem scalar_join {sep : PyStr} (hsep : Scalar sep) (xs : List PyStr) :
    Scalar (join sep xs) ↔ ∀ x ∈ xs, Scalar x := by
  induction xs with
  | nil => simp [join]
  | cons x xs ih =>
    cases xs with
    | nil => simp [join]
    | cons y xs => simp only [join,scalar_append,ih,hsep,and_true,List.forall_mem_cons]

/-- The characters `str.isspace` accepts, which `str.strip` removes. -/
def isSpace (c : CodePoint) : Bool :=
  decide ((9 ≤ c.val ∧ c.val ≤ 13) ∨ (28 ≤ c.val ∧ c.val ≤ 32) ∨ c.val=0x85 ∨ c.val=0xA0 ∨
    c.val=0x1680 ∨ (0x2000 ≤ c.val ∧ c.val ≤ 0x200A) ∨ c.val=0x2028 ∨ c.val=0x2029 ∨
    c.val=0x202F ∨ c.val=0x205F ∨ c.val=0x3000)

/-- `s.lstrip(chars)` for a class of characters. -/
def lstrip (p : CodePoint → Bool) (s : PyStr) : PyStr := s.dropWhile p

/-- `s.strip(chars)` for a class of characters. -/
def strip (p : CodePoint → Bool) (s : PyStr) : PyStr :=
  ((s.dropWhile p).reverse.dropWhile p).reverse

/-- Text that neither starts nor ends with a stripped character stays. -/
theorem strip_eq_self (p : CodePoint → Bool) (s : PyStr) (h : ∀ c ∈ s, p c=false) :
    strip p s=s := by
  have hl : s.dropWhile p=s := by
    cases s with
    | nil => rfl
    | cons c s => simp [h c (by simp)]
  have hr : s.reverse.dropWhile p=s.reverse := by
    cases hs : s.reverse with
    | nil => rfl
    | cons c t =>
      have hc : c ∈ s := by rw [← List.mem_reverse,hs]; simp
      simp [h c hc]
  rw [strip,hl,hr,List.reverse_reverse]

/-- `s.replace(a, b)` for single characters. -/
def replaceChar (a b : CodePoint) (s : PyStr) : PyStr := s.map (fun c => if c=a then b else c)

/-- `s.replace(old, new)`; the counter skips the rest of an occurrence just replaced. -/
def replaceFrom (old new : PyStr) : ℕ → PyStr → PyStr
  | _, [] => []
  | k+1, _::s => replaceFrom old new k s
  | 0, c::s =>
    if old.isPrefixOf (c::s) then new ++ replaceFrom old new (old.length-1) s
    else c::replaceFrom old new 0 s

def replace (old new s : PyStr) : PyStr := replaceFrom old new 0 s

/-- Replacing changes nothing where the first character of the pattern does not occur. -/
theorem replace_eq_self (a : CodePoint) (old new s : PyStr) (h : a ∉ s) :
    replace (a::old) new s=s := by
  unfold replace
  induction s with
  | nil => rfl
  | cons c s ih =>
    have hc : (a::old).isPrefixOf (c::s)=false := by
      have hne : (a==c)=false := by
        rw [beq_eq_false_iff_ne]
        rintro rfl
        exact h (by simp)
      simp [List.isPrefixOf,hne]
    rw [replaceFrom,hc]
    simp only [Bool.false_eq_true,if_false]
    rw [ih (fun hs => h (by simp [hs]))]

/-- `s.lower()` on the ASCII letters. -/
def lowerAscii (s : PyStr) : PyStr :=
  s.map (fun c => if h : 65 ≤ c.val ∧ c.val ≤ 90 then ⟨c.val+32,by omega⟩ else c)

/-- The UTF-8 bytes of one code point. -/
def utf8 (c : CodePoint) : Bytes :=
  let n := c.val
  if n<0x80 then [n.toUInt8]
  else if n<0x800 then [(0xC0+n/64).toUInt8,(0x80+n%64).toUInt8]
  else if n<0x10000 then
    [(0xE0+n/4096).toUInt8,(0x80+n/64%64).toUInt8,(0x80+n%64).toUInt8]
  else
    [(0xF0+n/262144).toUInt8,(0x80+n/4096%64).toUInt8,(0x80+n/64%64).toUInt8,
      (0x80+n%64).toUInt8]

/-- `s.encode()`: `none` is the `UnicodeEncodeError` of a lone surrogate. -/
def encode (s : PyStr) : Option Bytes :=
  if s.any isSurrogate then none else some (s.flatMap utf8)

theorem encode_isSome_iff (s : PyStr) : (encode s).isSome=true ↔ Scalar s := by
  unfold encode Scalar
  by_cases h : s.any isSurrogate=true
  · rw [if_pos h]
    obtain ⟨c,hc,hs⟩ := List.any_eq_true.mp h
    simp only [Option.isSome_none,Bool.false_eq_true,false_iff,not_forall]
    exact ⟨c,hc,by simp [hs]⟩
  · rw [if_neg h]
    simpa using h

/-- The exceptions that reach the pipeline's handlers. -/
inductive PyError
  | valueError
  | unicodeEncodeError
  | assertionError
  | multipleResultsFound
  | integrityError
  | databaseError
  | clientError
  | runtimeError
  deriving DecidableEq

end RagIngestion.Python
