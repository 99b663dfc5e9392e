import Mathlib.Data.List.Basic
import Mathlib.Data.Option.Basic

/-! Systems given by a partial step for each action, their runs, and the invariant rule.
A run may be restricted to steps that meet a condition on the state and the action. -/
namespace RagIngestion.Library

/-- How a call to a service ends: it returns, or raises before or after taking effect. -/
inductive Fault
  | none | before | after
  deriving DecidableEq

/-- Initial states and the state, if any, an action leads to. -/
structure System (σ α : Type*) where
  init : σ → Prop
  step : σ → α → Option σ

namespace System
variable {σ α : Type*} (S : System σ α)

/-- States reached from an initial one by steps that all meet `allowed`. -/
inductive Reach (allowed : σ → α → Prop) : σ → Prop
  | start {s} (h : S.init s) : Reach allowed s
  | next {s a t} (before : Reach allowed s) (ok : allowed s a) (h : S.step s a=some t) :
      Reach allowed t

/-- States of unrestricted runs. -/
def Reachable (s : σ) : Prop := S.Reach (fun _ _ => True) s

variable {S}

/-- What holds initially and is kept by every allowed step holds along allowed runs. -/
theorem Reach.invariant {allowed : σ → α → Prop} {I : σ → Prop}
    (hinit : ∀ s, S.init s → I s)
    (hstep : ∀ s a t, I s → allowed s a → S.step s a=some t → I t)
    {s : σ} (h : S.Reach allowed s) : I s := by
  induction h with
  | start h => exact hinit _ h
  | next _ ok h ih => exact hstep _ _ _ ih ok h

theorem Reachable.invariant {I : σ → Prop} (hinit : ∀ s, S.init s → I s)
    (hstep : ∀ s a t, I s → S.step s a=some t → I t) {s : σ} (h : S.Reachable s) : I s :=
  Reach.invariant hinit (fun s a t hs _ ha => hstep s a t hs ha) h

theorem Reach.mono {p q : σ → α → Prop} (hpq : ∀ s a, p s a → q s a) {s : σ}
    (h : S.Reach p s) : S.Reach q s := by
  induction h with
  | start h => exact .start h
  | next _ ok h ih => exact .next ih (hpq _ _ ok) h

theorem Reach.reachable {p : σ → α → Prop} {s : σ} (h : S.Reach p s) : S.Reachable s :=
  h.mono (fun _ _ _ => trivial)

variable (S)

/-- The state after a list of actions. -/
def run : σ → List α → Option σ
  | s, [] => some s
  | s, a::as => (S.step s a).bind (fun t => run t as)

variable {S}

theorem Reachable.run {s t : σ} {as : List α} (hs : S.Reachable s) (h : S.run s as=some t) :
    S.Reachable t := by
  induction as generalizing s with
  | nil => exact Option.some.inj h ▸ hs
  | cons a as ih =>
    obtain ⟨u,hu,ht⟩ := Option.bind_eq_some_iff.mp h
    exact ih (.next hs trivial hu) ht

/-- What every step keeps is kept by a list of actions. -/
theorem run_invariant {I : σ → Prop} (hstep : ∀ s a t, I s → S.step s a=some t → I t) {s t : σ}
    {as : List α} (hs : I s) (h : S.run s as=some t) : I t := by
  induction as generalizing s with
  | nil => exact Option.some.inj h ▸ hs
  | cons a as ih =>
    obtain ⟨u,hu,ht⟩ := Option.bind_eq_some_iff.mp h
    exact ih (hstep s a u hs hu) ht

/-- A closed run from an initial state reaches its last state. -/
theorem reachable_of_run {s t : σ} (as : List α) (hs : S.init s) (h : S.run s as=some t) :
    S.Reachable t := Reachable.run (.start hs) h

/-- Actions that meet the condition in every state. -/
theorem Reach.run {allowed : σ → α → Prop} {s t : σ} {as : List α} (hs : S.Reach allowed s)
    (hall : ∀ u, ∀ a ∈ as, allowed u a) (h : S.run s as=some t) : S.Reach allowed t := by
  induction as generalizing s with
  | nil => exact Option.some.inj h ▸ hs
  | cons a as ih =>
    obtain ⟨u,hu,ht⟩ := Option.bind_eq_some_iff.mp h
    exact ih (.next hs (hall s a (by simp)) hu) (fun v b hb => hall v b (by simp [hb])) ht

variable (S)

/-- The state after a list of actions that all meet a condition. -/
def runIf (allowed : σ → α → Prop) [∀ s a, Decidable (allowed s a)] : σ → List α → Option σ
  | s, [] => some s
  | s, a::as => if allowed s a then (S.step s a).bind (fun t => runIf allowed t as) else none

variable {S}

/-- Actions that also meet a condition of their own. -/
theorem Reach.runIf_and {allowed : σ → α → Prop} [∀ s a, Decidable (allowed s a)] {p : α → Prop}
    {s t : σ} {as : List α} (hs : S.Reach (fun s a => allowed s a ∧ p a) s) (hall : ∀ a ∈ as, p a)
    (h : S.runIf allowed s as=some t) : S.Reach (fun s a => allowed s a ∧ p a) t := by
  induction as generalizing s with
  | nil => exact Option.some.inj h ▸ hs
  | cons a as ih =>
    simp only [System.runIf] at h
    split at h
    · rename_i ok
      obtain ⟨u,hu,ht⟩ := Option.bind_eq_some_iff.mp h
      exact ih (.next hs ⟨ok,hall a (by simp)⟩ hu) (fun b hb => hall b (by simp [hb])) ht
    · cases h

theorem Reach.runIf {allowed : σ → α → Prop} [∀ s a, Decidable (allowed s a)] {s t : σ}
    {as : List α} (hs : S.Reach allowed s) (h : S.runIf allowed s as=some t) :
    S.Reach allowed t := by
  have hboth : S.Reach (fun s a => allowed s a ∧ True) s := hs.mono (fun _ _ ok => ⟨ok,trivial⟩)
  exact (hboth.runIf_and (fun _ _ => trivial) h).mono (fun _ _ ok => ok.1)

variable (S)

/-- Runs with their history: every action with the state it was taken in. -/
inductive Traced : List (σ × α) → σ → Prop
  | start {s} (h : S.init s) : Traced [] s
  | next {history s a t} (before : Traced history s) (h : S.step s a=some t) :
      Traced (history ++ [(s,a)]) t

variable {S}

/-- What holds initially and is kept by every step, with what happened so far in view. -/
theorem Traced.invariant {I : List (σ × α) → σ → Prop} (hinit : ∀ s, S.init s → I [] s)
    (hstep : ∀ history s a t, I history s → S.step s a=some t → I (history ++ [(s,a)]) t)
    {history : List (σ × α)} {s : σ} (h : S.Traced history s) : I history s := by
  induction h with
  | start h => exact hinit _ h
  | next _ h ih => exact hstep _ _ _ _ ih h

theorem Traced.reachable {history : List (σ × α)} {s : σ} (h : S.Traced history s) :
    S.Reachable s := by
  induction h with
  | start h => exact .start h
  | next _ h ih => exact .next ih trivial h

/-- A closed run goes on with a history. -/
theorem Traced.run {history : List (σ × α)} {s t : σ} {as : List α} (hs : S.Traced history s)
    (h : S.run s as=some t) : ∃ more, S.Traced (history ++ more) t := by
  induction as generalizing history s with
  | nil => exact ⟨[],by rw [List.append_nil]; exact Option.some.inj h ▸ hs⟩
  | cons a as ih =>
    obtain ⟨u,hu,ht⟩ := Option.bind_eq_some_iff.mp h
    obtain ⟨more,hmore⟩ := ih (.next hs hu) ht
    exact ⟨(s,a)::more,by simpa using hmore⟩

/-- A closed run of steps that meet a condition goes on with a history of such steps. -/
theorem Traced.runIf {allowed : σ → α → Prop} [∀ s a, Decidable (allowed s a)]
    {history : List (σ × α)} {s t : σ} {as : List α} (hs : S.Traced history s)
    (h : S.runIf allowed s as=some t) :
    ∃ more, S.Traced (history ++ more) t ∧ ∀ x ∈ more, allowed x.1 x.2 := by
  induction as generalizing history s with
  | nil => exact ⟨[],by rw [List.append_nil]; exact Option.some.inj h ▸ hs,by simp⟩
  | cons a as ih =>
    simp only [System.runIf] at h
    split at h
    · rename_i ok
      obtain ⟨u,hu,ht⟩ := Option.bind_eq_some_iff.mp h
      obtain ⟨more,hmore,hall⟩ := ih (.next hs hu) ht
      refine ⟨(s,a)::more,by simpa using hmore,?_⟩
      intro x hx
      cases List.mem_cons.mp hx with
      | inl hx => exact hx ▸ ok
      | inr hx => exact hall x hx
    · cases h

/-- The history of a closed run from an initial state. -/
theorem traced_of_runIf {allowed : σ → α → Prop} [∀ s a, Decidable (allowed s a)] {s t : σ}
    {as : List α} (hs : S.init s) (h : S.runIf allowed s as=some t) :
    ∃ history, S.Traced history t ∧ ∀ x ∈ history, allowed x.1 x.2 := by
  obtain ⟨history,htraced,hall⟩ := Traced.runIf (.start hs) h
  rw [List.nil_append] at htraced
  exact ⟨history,htraced,hall⟩

/-- Every state of a history was reached by the part before it. -/
theorem Traced.past {history : List (σ × α)} {t : σ} (h : S.Traced history t) {x : σ × α}
    (hx : x ∈ history) : ∃ before, before ++ [x] <+: history ∧ S.Traced before x.1 := by
  induction h with
  | start => cases hx
  | next before _ ih =>
    cases List.mem_append.mp hx with
    | inl hx =>
      obtain ⟨past,hpast,htraced⟩ := ih hx
      exact ⟨past,hpast.trans (List.prefix_append _ _),htraced⟩
    | inr hx =>
      cases List.mem_singleton.mp hx
      exact ⟨_,List.prefix_rfl,before⟩

/-- What holds at the end and not at the start was brought about by some step. -/
theorem Traced.brought {P : σ → Prop} (hinit : ∀ s, S.init s → ¬P s) {history : List (σ × α)} {t : σ}
    (h : S.Traced history t) (hP : P t) : ∃ before s a after, before ++ [(s,a)] <+: history ∧
      S.Traced before s ∧ S.step s a=some after ∧ ¬P s ∧ P after := by
  induction h with
  | start h => exact absurd hP (hinit _ h)
  | @next history s a t before h ih =>
    by_cases hs : P s
    · obtain ⟨past,u,b,after,hpast,hrest⟩ := ih hs
      exact ⟨past,u,b,after,hpast.trans (List.prefix_append _ _),hrest⟩
    · exact ⟨history,s,a,t,List.prefix_rfl,before,h,hs,hP⟩

/-- What a step cannot take away stays from then on. -/
theorem Traced.kept {P : σ → Prop} (hkept : ∀ s a t, P s → S.step s a=some t → P t)
    {history : List (σ × α)} {t : σ} (h : S.Traced history t) {s : σ} {a : α}
    (hs : (s,a) ∈ history) (hP : P s) : P t := by
  induction h with
  | start => cases hs
  | next _ hstep ih =>
    cases List.mem_append.mp hs with
    | inl hs => exact hkept _ _ _ (ih hs) hstep
    | inr hs =>
      cases List.mem_singleton.mp hs
      exact hkept _ _ _ hP hstep

end System

section
variable {σ : Type*}

/-- Where a deterministic program stands after at most `n` steps; without a step it has ended. -/
def follow (next : σ → Option σ) : ℕ → σ → σ
  | 0, s => s
  | n+1, s =>
    match next s with
    | some t => follow next n t
    | none => s

variable {next : σ → Option σ}

theorem follow_step {s t : σ} (h : next s=some t) (n : ℕ) :
    follow next (n+1) s=follow next n t := by
  simp only [follow,h]

/-- What every step keeps holds wherever the program stands. -/
theorem follow_invariant {I : σ → Prop} (hstep : ∀ s t, I s → next s=some t → I t) (n : ℕ) {s : σ}
    (h : I s) : I (follow next n s) := by
  induction n generalizing s with
  | zero => exact h
  | succ n ih =>
    cases hnext : next s with
    | none => simpa only [follow,hnext] using h
    | some t =>
      rw [follow_step hnext]
      exact ih (hstep s t h hnext)

theorem follow_ended {s : σ} (h : next s=none) (n : ℕ) : follow next n s=s := by
  cases n with
  | zero => rfl
  | succ n => simp only [follow,h]

/-- Programs that take each step together stay together. -/
theorem follow_simulates {τ : Type*} {next' : τ → Option τ} {R : σ → τ → Prop}
    (hstep : ∀ s t, R s t → Option.Rel R (next s) (next' t)) (n : ℕ) {s : σ} {t : τ} (h : R s t) :
    R (follow next n s) (follow next' n t) := by
  induction n generalizing s t with
  | zero => exact h
  | succ n ih =>
    have hnext := hstep s t h
    cases hs : next s with
    | none =>
      rw [hs] at hnext
      cases ht : next' t with
      | none => simpa only [follow,hs,ht] using h
      | some v => rw [ht] at hnext; cases hnext
    | some u =>
      rw [hs] at hnext
      cases ht : next' t with
      | none => rw [ht] at hnext; cases hnext
      | some v =>
        rw [ht] at hnext
        cases hnext with
        | some huv =>
          rw [follow_step hs]
          simpa only [follow,ht] using ih huv

end
end RagIngestion.Library
