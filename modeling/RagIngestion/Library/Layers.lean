import Mathlib.Data.List.Basic
import Mathlib.Tactic

/-! Layers that each give some keys a value, stacked so that a later layer overrides an earlier
one. -/
namespace RagIngestion.Library

abbrev Layer (α β : Type) := α → Option β

namespace Layer
variable {α β γ : Type}

/-- The last layer that gives the key a value decides. -/
def stack : List (Layer α β) → Layer α β
  | [],_ => none
  | l::above,k => (stack above k).or (l k)

@[simp] theorem stack_nil (k : α) : stack ([] : List (Layer α β)) k=none := rfl

@[simp] theorem stack_cons (l : Layer α β) (above : List (Layer α β)) (k : α) :
    stack (l::above) k=(stack above k).or (l k) := rfl

/-- Two layers give the key values that differ under `p`, and no layer above decides. -/
def Disputed (p : Option β → γ) (a b : Layer α β) (above : List (Layer α β)) (k : α) : Prop :=
  stack above k=none ∧ ∃ x y, a k=some x ∧ b k=some y ∧ p (some x)≠p (some y)

/-- Exchanging the two lowest layers shows exactly at the keys they dispute. -/
theorem stack_swap_iff (p : Option β → γ) (a b : Layer α β) (above : List (Layer α β)) (k : α) :
    p (stack (a::b::above) k)=p (stack (b::a::above) k) ↔ ¬Disputed p a b above k := by
  simp only [stack_cons]
  cases habove : stack above k with
  | some z => simp [Disputed,habove]
  | none =>
    cases ha : a k with
    | none => simp [Disputed,ha]
    | some x =>
      cases hb : b k with
      | none => simp [Disputed,hb]
      | some y =>
        constructor
        · intro h ⟨_,x',y',hx,hy,hne⟩
          rw [ha,Option.some.injEq] at hx
          rw [hb,Option.some.injEq] at hy
          subst hx hy
          exact hne h.symm
        · intro h
          by_contra hne
          exact h ⟨habove,x,y,ha,hb,fun heq => hne heq.symm⟩

/-- The order of the layers decides on no key whether it has a value. -/
theorem isSome_stack_swap (a b : Layer α β) (above : List (Layer α β)) (k : α) :
    (stack (a::b::above) k).isSome=(stack (b::a::above) k).isSome := by
  simp only [stack_cons,Option.isSome_or,Bool.or_assoc]
  rw [Bool.or_comm (b k).isSome]

/-- Two layers with values at the same keys give a list of keys the same first value exactly when
they agree at the first key that has one. -/
theorem findSome?_agree_iff {f g : Layer α β} (h : ∀ k, (f k).isSome=(g k).isSome)
    (p : Option β → γ) (keys : List α) :
    p (keys.findSome? f)=p (keys.findSome? g) ↔
      ∀ k, keys.find? (fun k => (f k).isSome)=some k → p (f k)=p (g k) := by
  induction keys with
  | nil => simp
  | cons k keys ih =>
    cases hf : f k with
    | none =>
      have hg : g k=none := by
        rw [← Option.isNone_iff_eq_none,← Option.not_isSome,← h k,hf]
        rfl
      simpa [hf,hg] using ih
    | some x =>
      obtain ⟨y,hg⟩ := Option.isSome_iff_exists.mp ((h k).symm.trans (congrArg _ hf))
      simp [hf,hg]

end Layer
end RagIngestion.Library
