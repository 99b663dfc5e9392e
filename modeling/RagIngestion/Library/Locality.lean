import RagIngestion.Library.Tables

/-! Programs over a state that has a part of interest: a program is local when it does on the part
alone what it does there on the whole. States with the same part then cannot be told apart. -/
namespace RagIngestion.Library

/-- Run on the part of the state, the program gives the part of what it gives on the whole. -/
def LocalAt {σ ε τ : Type} (part : σ → σ) (out : τ → τ) (f : σ → Except ε τ) (s : σ) : Prop :=
  f (part s)=(f s).map out

namespace LocalAt
variable {σ ε κ τ υ : Type} {part : σ → σ} {mid : υ → υ} {out : τ → τ} {s t : σ}

/-- Two states with the same part: same errors, and results with the same part. -/
theorem agree {f : σ → Except ε τ} (hs : LocalAt part out f s) (ht : LocalAt part out f t)
    (h : part s=part t) : (f s).map out=(f t).map out := by
  rw [← hs,← ht,h]

/-- A sequence is local when its steps are. -/
theorem bind {f : σ → Except ε υ} {g : υ → Except ε τ} (hf : LocalAt part mid f s)
    (hg : ∀ u, f s=.ok u → LocalAt mid out g u) : LocalAt part out (fun s => f s >>= g) s := by
  have hf : f (part s)=(f s).map mid := hf
  change f (part s) >>= g=(f s >>= g).map out
  rw [hf]
  cases h : f s with
  | error e => rfl
  | ok u => exact hg u h

/-- A value that does not depend on the state may be computed first. -/
theorem pureBind {x : Except ε κ} {g : κ → σ → Except ε τ}
    (hg : ∀ k, x=.ok k → LocalAt part out (g k) s) : LocalAt part out (fun s => x >>= fun k => g k s) s := by
  cases h : x with
  | error e => rfl
  | ok k => exact hg k h

/-- A change of the state that commutes with taking the part. -/
theorem change {f : σ → σ} {g : σ → Except ε τ} (hf : f (part s)=part (f s))
    (hg : LocalAt part out g (f s)) : LocalAt part out (fun s => g (f s)) s := by
  change g (f (part s))=(g (f s)).map out
  rw [hf]
  exact hg

end LocalAt

section
variable {α : Type*} {p q : α → Prop} [DecidablePred p] {l : List α}

/-- What holds outside a selection holds everywhere when it holds in the selection. -/
theorem forall_mem_filter_iff (h : ∀ x ∈ l, ¬p x → q x) :
    (∀ x ∈ l.filter p, q x) ↔ ∀ x ∈ l, q x := by
  constructor
  · intro hall x hx
    by_cases hp : p x
    · exact hall x (List.mem_filter.mpr ⟨hx,decide_eq_true hp⟩)
    · exact h x hx hp
  · exact fun hall x hx => hall x (List.mem_of_mem_filter hx)

/-- Whoever is looked for inside a selection only is found there. -/
theorem exists_mem_filter_iff (h : ∀ x, q x → p x) : (∃ x ∈ l.filter p, q x) ↔ ∃ x ∈ l, q x := by
  constructor
  · rintro ⟨x,hx,hq⟩
    exact ⟨x,List.mem_of_mem_filter hx,hq⟩
  · rintro ⟨x,hx,hq⟩
    exact ⟨x,List.mem_filter.mpr ⟨hx,decide_eq_true (h x hq)⟩,hq⟩

end

/-- An update that keeps what a selection looks at may be made before or after it. -/
theorem filter_updateWhere {α : Type*} {p q : α → Bool} {f : α → α} (h : ∀ r, p (f r)=p r)
    (rows : List α) : (updateWhere q f rows).filter p=updateWhere q f (rows.filter p) := by
  induction rows with
  | nil => rfl
  | cons r rows ih =>
    have hr : p (if q r then f r else r)=p r := by
      split
      · exact h r
      · rfl
    simp only [updateWhere,List.map_cons,List.filter_cons,hr] at ih ⊢
    split
    · rw [List.map_cons,ih]
    · exact ih

/-- An update inside a selection leaves what is outside of it. -/
theorem filter_updateWhere_of_disjoint {α : Type*} {p q : α → Bool} {f : α → α}
    (h : ∀ r, p (f r)=p r) (hpq : ∀ r, p r=true → q r=false) (rows : List α) :
    (updateWhere q f rows).filter p=rows.filter p := by
  rw [filter_updateWhere h]
  apply updateWhere_eq_self
  intro r hr
  exact hpq r (List.mem_filter.mp hr).2

end RagIngestion.Library
