import RagIngestion.Library.Runs
import Mathlib.Logic.Relation
import Mathlib.Tactic

/-! Where a system can still get to: moves that meet a condition, chained from any state. -/
namespace RagIngestion.Library
namespace System
variable {σ α : Type*} (S : System σ α)

/-- A step that meets the condition. -/
def Move (allowed : σ → α → Prop) (s t : σ) : Prop := ∃ a, allowed s a ∧ S.step s a=some t

/-- Some moves lead from one state to the other. -/
def Leads (allowed : σ → α → Prop) : σ → σ → Prop := Relation.ReflTransGen (S.Move allowed)

variable {S} {allowed : σ → α → Prop} {s t u : σ}

theorem Leads.refl : S.Leads allowed s s := Relation.ReflTransGen.refl

theorem Leads.trans (h : S.Leads allowed s t) (g : S.Leads allowed t u) : S.Leads allowed s u :=
  Relation.ReflTransGen.trans h g

/-- A move, and then more of them. -/
theorem Leads.step {a : α} (ok : allowed s a) (h : S.step s a=some t) (more : S.Leads allowed t u) :
    S.Leads allowed s u := Relation.ReflTransGen.head ⟨a,ok,h⟩ more

/-- While the goal is not reached, some moves come closer to it: so some moves reach it. -/
theorem leads_to {I goal : σ → Prop} (left : σ → ℕ)
    (hless : ∀ s, I s → ¬goal s → ∃ t, S.Leads allowed s t ∧ I t ∧ left t<left s) {s : σ} (h : I s) :
    ∃ t, S.Leads allowed s t ∧ I t ∧ goal t := by
  generalize hn : left s=n
  induction n using Nat.strong_induction_on generalizing s with
  | _ n ih =>
    subst hn
    by_cases hgoal : goal s
    · exact ⟨s,.refl,h,hgoal⟩
    · obtain ⟨t,hst,ht,hlt⟩ := hless s h hgoal
      obtain ⟨u,htu,hu⟩ := ih (left t) hlt ht rfl
      exact ⟨u,hst.trans htu,hu⟩

/-- When some steps lower a measure and no step raises it, a run has no more of them than the
measure allows. -/
theorem run_countP {I : σ → Prop} (left : σ → ℕ) (own : α → Bool)
    (hstep : ∀ s a t, I s → S.step s a=some t → I t ∧ left t+(if own a then 1 else 0) ≤ left s)
    {s t : σ} {as : List α} (h : I s) (hrun : S.run s as=some t) : as.countP own+left t ≤ left s := by
  induction as generalizing s with
  | nil =>
    cases hrun
    simp
  | cons a as ih =>
    obtain ⟨u,hu,ht⟩ := Option.bind_eq_some_iff.mp hrun
    obtain ⟨hiu,hless⟩ := hstep s a u h hu
    have hrest := ih hiu ht
    rw [List.countP_cons]
    omega

/-- A closed run goes on with a history of its actions. -/
theorem Traced.run_actions {S : System σ α} {history : List (σ × α)} {s t : σ} {as : List α}
    (hs : S.Traced history s) (h : S.run s as=some t) :
    ∃ more, S.Traced (history ++ more) t ∧ more.map Prod.snd=as := by
  induction as generalizing history s with
  | nil => exact ⟨[],by rw [List.append_nil]; exact Option.some.inj h ▸ hs,rfl⟩
  | cons a as ih =>
    obtain ⟨u,hu,ht⟩ := Option.bind_eq_some_iff.mp h
    obtain ⟨more,hmore,hactions⟩ := ih (.next hs hu) ht
    exact ⟨(s,a)::more,by simpa using hmore,by rw [List.map_cons,hactions]⟩

end System
end RagIngestion.Library
