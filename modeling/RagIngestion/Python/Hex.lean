import RagIngestion.Python.Text

/-! Lowercase hexadecimal text of fixed width. -/
namespace RagIngestion.Python

def hexDigit (d : Fin 16) : CodePoint :=
  if d.val<10 then ⟨48+d.val,by omega⟩ else ⟨87+d.val,by omega⟩

lemma hexDigit_ne {c : CodePoint} (h : c.val<48 ∨ (57<c.val ∧ c.val<97) ∨ 102<c.val) (d : Fin 16) :
    hexDigit d≠c := by
  rintro rfl
  unfold hexDigit at h
  split at h <;> simp only at h <;> omega

/-- The `w` low hexadecimal digits of a number, most significant first. -/
def hexDigits : ℕ → ℕ → List (Fin 16)
  | 0, _ => []
  | w+1, n => hexDigits w (n/16) ++ [⟨n%16,Nat.mod_lt _ (by decide)⟩]

def hexText (w n : ℕ) : PyStr := (hexDigits w n).map hexDigit

@[simp] theorem hexDigits_length (w n : ℕ) : (hexDigits w n).length=w := by
  induction w generalizing n with
  | zero => rfl
  | succ w ih => simp [hexDigits,ih]

@[simp] theorem hexText_length (w n : ℕ) : (hexText w n).length=w := by simp [hexText]

theorem hexDigits_value (w n m : ℕ) :
    (hexDigits w n).foldl (fun k d => 16*k+d.val) m=m*16^w+n%16^w := by
  induction w generalizing n with
  | zero => simp [hexDigits,Nat.mod_one]
  | succ w ih =>
    have hn : n%16^(w+1)=16*(n/16%16^w)+n%16 := by
      rw [pow_succ,Nat.mul_comm (16^w),Nat.mod_mul]
      omega
    simp only [hexDigits,List.foldl_append,List.foldl_cons,List.foldl_nil,ih,hn]
    ring

lemma hexDigit_lt (d : Fin 16) : (hexDigit d).val<0xD800 := by fin_cases d <;> decide

theorem mem_hexText {w n : ℕ} {c : CodePoint} (h : c ∈ hexText w n) : ∃ d, c=hexDigit d := by
  obtain ⟨d,_,rfl⟩ := List.mem_map.mp h
  exact ⟨d,rfl⟩

/-- The character class `[0-9a-f]`. -/
def isLowerHexDigit (c : CodePoint) : Bool :=
  decide ((48 ≤ c.val ∧ c.val ≤ 57) ∨ (97 ≤ c.val ∧ c.val ≤ 102))

lemma isLowerHexDigit_hexDigit (d : Fin 16) : isLowerHexDigit (hexDigit d)=true := by
  fin_cases d <;> rfl

/-- A SHA-256 digest. -/
abbrev Digest := BitVec 256

def hexdigest (d : Digest) : PyStr := hexText 64 d.toNat

end RagIngestion.Python
