import Mathlib.Data.Seq.Basic

/-! A sequence that may never end, read from a position on. -/
namespace RagIngestion.Library
open Stream'

/-- A place in a sequence. -/
structure Cursor (α : Type) where
  content : Seq α
  position : ℕ

namespace Cursor
variable {α : Type}

/-- A read takes what is asked for as long as there is any. -/
def read (c : Cursor α) (n : ℕ) : List α × Cursor α :=
  let items := (c.content.drop c.position).take n
  (items,{ c with position := c.position+items.length })

def start (s : Seq α) : Cursor α := ⟨s,0⟩

lemma read_mk (s : Seq α) (position n : ℕ) : read ⟨s,position⟩ n=
    ((s.drop position).take n,⟨s,position+((s.drop position).take n).length⟩) := rfl

end Cursor

variable {α : Type}

/-- A longer prefix is a prefix and what is taken after it. -/
theorem take_append_take_drop (s : Seq α) (m n : ℕ) : s.take m ++ (s.drop m).take n=s.take (m+n) := by
  induction m generalizing s with
  | zero => simp
  | succ m ih =>
    cases s with
    | nil => simp
    | cons x s => rw [Nat.succ_add]; simp [ih]

theorem take_take (s : Seq α) (m n : ℕ) : (s.take n).take m=s.take (min m n) := by
  apply List.ext_getElem?
  intro i
  rw [List.getElem?_take,Seq.getElem?_take,Seq.getElem?_take]
  by_cases him : i < m
  · simp [him]
  · simp [him]

/-- What a read returns is the prefix of its own length. -/
theorem take_length_take (s : Seq α) (n : ℕ) : s.take (s.take n).length=s.take n := by
  apply List.ext_getElem?
  intro i
  rw [Seq.getElem?_take]
  by_cases hi : i < (s.take n).length
  · rw [if_pos hi,Seq.getElem?_take,if_pos (hi.trans_le Seq.length_take_le)]
  · rw [if_neg hi,List.getElem?_eq_none (by omega)]

/-- A prefix stays one when the next read is added to it. -/
theorem append_read {s : Seq α} {items : List α} (h : items=s.take items.length) (n : ℕ) :
    items ++ (s.drop items.length).take n=
      s.take (items ++ (s.drop items.length).take n).length := by
  rw [List.length_append,← take_append_take_drop,← h,take_length_take]

/-- A prefix is short only at the end of the sequence. -/
theorem take_eq_of_get?_eq_none {s : Seq α} {m n : ℕ} (hmn : m ≤ n) (h : s.get? m=none) :
    s.take n=s.take m := by
  apply List.ext_getElem?
  intro i
  rw [Seq.getElem?_take,Seq.getElem?_take]
  by_cases him : i < m
  · rw [if_pos him,if_pos (by omega)]
  · rw [if_neg him,s.le_stable (by omega) h]
    exact ite_self none

/-- A sequence within a length is the list of its prefix. -/
theorem ofList_take_of_get?_eq_none {s : Seq α} {n : ℕ} (h : s.get? n=none) :
    (Seq.ofList (s.take n))=s := by
  apply Seq.ext
  intro i
  rw [Seq.ofList_get?,Seq.getElem?_take]
  by_cases hi : i < n
  · exact if_pos hi
  · rw [if_neg hi,s.le_stable (by omega) h]

/-- What is read next is empty only at the end. -/
theorem get?_eq_none_of_read {s : Seq α} {m n : ℕ} (hn : 0<n) (h : (s.drop m).take n=[]) :
    s.get? m=none := by
  have hzero := Seq.getElem?_take 0 n (s.drop m)
  rwa [h,if_pos hn,Seq.drop_get?,Nat.add_zero,List.getElem?_nil,eq_comm] at hzero

end RagIngestion.Library
