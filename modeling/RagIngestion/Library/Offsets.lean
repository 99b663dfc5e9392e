import Mathlib.Data.Nat.Notation
import Mathlib.Tactic.ByContra

/-! The offsets of a partition. A bound is covered when every offset below it is settled or
pending, and safe when all of them are settled. -/
namespace RagIngestion.Library

def Covered (settled pending : ℕ → Prop) (n : ℕ) : Prop := ∀ o, o<n → settled o ∨ pending o

def Safe (settled : ℕ → Prop) (n : ℕ) : Prop := ∀ o, o<n → settled o

variable {settled settled' pending pending' : ℕ → Prop} {n : ℕ}

theorem Safe.covered (h : Safe settled n) : Covered settled pending n := fun o ho => .inl (h o ho)

theorem Safe.mono (h : Safe settled n) (hs : ∀ o, settled o → settled' o) : Safe settled' n :=
  fun o ho => hs o (h o ho)

/-- A safe bound moves on over a settled offset. -/
theorem Safe.succ (h : Safe settled n) (hn : settled n) : Safe settled (n+1) := by
  intro o ho
  by_cases heq : o=n
  · exact heq ▸ hn
  · exact h o (by omega)

/-- What is pending may settle, and what is settled stays so. -/
theorem Covered.mono (h : Covered settled pending n) (hs : ∀ o, settled o → settled' o)
    (hp : ∀ o, pending o → settled' o ∨ pending' o) : Covered settled' pending' n := by
  intro o ho
  cases h o ho with
  | inl h => exact .inl (hs o h)
  | inr h => exact hp o h

/-- A covered bound moves on over a pending offset. -/
theorem Covered.succ (h : Covered settled pending n) (hn : pending n) :
    Covered settled pending (n+1) := by
  intro o ho
  by_cases heq : o=n
  · exact .inr (heq ▸ hn)
  · exact h o (by omega)

/-- A covered bound is safe exactly when nothing unsettled is pending below it. -/
theorem Covered.safe_iff (h : Covered settled pending n) :
    Safe settled n ↔ ∀ o, o<n → pending o → settled o := by
  constructor
  · intro hs o ho _
    exact hs o ho
  · intro hp o ho
    cases h o ho with
    | inl h => exact h
    | inr h => exact hp o ho h

end RagIngestion.Library
