import RagIngestion.Python.Hex

/-! Byte streams that are read in bounded chunks. -/
namespace RagIngestion.Python

/-- `read(n)` of a byte stream. -/
abbrev Reader (σ : Type) := σ → ℕ → Bytes × σ

/-- `CHUNK_SIZE`. -/
def chunkSize : ℕ := 1024*1024

/-- A stream that has what is asked for as long as there is content. -/
def readAvailable : Reader Bytes := fun source n => (source.take n,source.drop n)

/-- A stream of known content: a read takes the next bytes, and is empty only at the end. -/
structure Lawful {σ : Type} (read : Reader σ) (remaining : σ → Bytes) : Prop where
  reads : ∀ source n, (read source n).1 ++ remaining (read source n).2=remaining source
  ends : ∀ source n, 0<n → (read source n).1=[] → remaining source=[]

theorem lawful_readAvailable : Lawful readAvailable id := by
  refine ⟨fun source n => List.take_append_drop n source,?_⟩
  intro source n hn h
  cases List.take_eq_nil_iff.mp h with
  | inl h => omega
  | inr h => exact h

/-- The bytes a PDF starts with, and a hash function that is right about them. -/
def plainSource : Bytes := [37,80,68,70,45]

def plainSha256 : Bytes → Digest :=
  fun _ => 0x38523c087796e5d5dd1cf9bad1fb026781a838dd9dd2cf8af58b9f6502a46778

end RagIngestion.Python
