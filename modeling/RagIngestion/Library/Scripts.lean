import Mathlib.Data.List.Basic
import Mathlib.Tactic

/-! The code of a transaction as the statements it issues, run alone over an engine, and how
statements that were already executed stay valid when somebody else writes. -/
namespace RagIngestion.Library

/-- The statements a transaction issues, each chosen by the results of those before. -/
inductive Script (S : Type) (R : S → Type) (ε α : Type)
  | done (a : α)
  | raise (e : ε)
  | statement (s : S) (next : R s → Script S R ε α)

/-- What a statement does to the contents its transaction sees: a result and writes. `same`
relates contents that no statement tells apart. -/
structure Engine (S : Type) (R : S → Type) (W K σ ε : Type) where
  exec : (s : S) → σ → Except ε (R s × List W)
  apply : W → σ → σ
  /-- What a write locks. -/
  keys : W → List K
  same : σ → σ → Prop
  equivalence : Equivalence same
  exec_same : ∀ {c d}, same c d → ∀ s, exec s c=exec s d
  apply_same : ∀ {c d}, same c d → ∀ w, same (apply w c) (apply w d)

/-- A statement that was executed. -/
structure Executed (S : Type) (R : S → Type) (W : Type) where
  statement : S
  result : R statement
  writes : List W

variable {S : Type} {R : S → Type} {W K σ ε α β : Type}

namespace Engine
variable (E : Engine S R W K σ ε)

def applyAll (ws : List W) (d : σ) : σ := ws.foldl (fun d w => E.apply w d) d

@[simp] theorem applyAll_nil (d : σ) : E.applyAll [] d=d := rfl

@[simp] theorem applyAll_cons (w : W) (ws : List W) (d : σ) :
    E.applyAll (w::ws) d=E.applyAll ws (E.apply w d) := rfl

@[simp] theorem applyAll_append (ws more : List W) (d : σ) :
    E.applyAll (ws ++ more) d=E.applyAll more (E.applyAll ws d) := List.foldl_append

theorem applyAll_same {c d : σ} (h : E.same c d) (ws : List W) :
    E.same (E.applyAll ws c) (E.applyAll ws d) := by
  induction ws generalizing c d with
  | nil => exact h
  | cons w ws ih => exact ih (E.apply_same h w)

end Engine

/-- A mapped result is a result. -/
theorem map_eq_ok {x : Except ε α} {f : α → β} {b : β} : x.map f=.ok b ↔ ∃ a, x=.ok a ∧ f a=b := by
  cases x with
  | error e => simp [Except.map]
  | ok a => simp [Except.map]

namespace Script

def bind : Script S R ε α → (α → Script S R ε β) → Script S R ε β
  | done a, f => f a
  | raise e, _ => raise e
  | statement s next, f => statement s (fun r => (next r).bind f)

instance : Monad (Script S R ε) where
  pure := done
  bind := bind

/-- A single statement. -/
def execute (s : S) : Script S R ε (R s) := statement s done

/-- A computation between statements. -/
def lift : Except ε α → Script S R ε α
  | .ok a => done a
  | .error e => raise e

section
variable (E : Engine S R W K σ ε)

/-- The script with nothing else going on. -/
def alone : Script S R ε α → σ → Except ε (α × σ)
  | done a, d => .ok (a,d)
  | raise e, _ => .error e
  | statement s next, d =>
    match E.exec s d with
    | .error e => .error e
    | .ok (r,ws) => (next r).alone (E.applyAll ws d)

@[simp] theorem alone_pure (a : α) (d : σ) :
    alone E (pure a : Script S R ε α) d=.ok (a,d) := rfl

@[simp] theorem alone_lift (x : Except ε α) (d : σ) :
    alone E (lift x : Script S R ε α) d=x.map (fun a => (a,d)) := by
  cases x with
  | error e => rfl
  | ok a => rfl

@[simp] theorem alone_execute (s : S) (d : σ) :
    alone E (execute s : Script S R ε (R s)) d=
      (E.exec s d).map (fun x => (x.1,E.applyAll x.2 d)) := by
  simp only [execute,alone]
  cases E.exec s d with
  | error e => rfl
  | ok x => rfl

@[simp] theorem alone_bind (p : Script S R ε α) (f : α → Script S R ε β) (d : σ) :
    alone E (p >>= f) d=(alone E p d).bind (fun x => alone E (f x.1) x.2) := by
  change alone E (p.bind f) d=_
  induction p generalizing d with
  | done a => rfl
  | raise e => rfl
  | statement s next ih =>
    simp only [bind,alone]
    cases E.exec s d with
    | error e => rfl
    | ok x => exact ih x.1 _

/-- Executed statements take a script from contents `d` to the rest of it. -/
inductive Follows : Script S R ε α → σ → List (Executed S R W) → Script S R ε α → Prop
  | nil {p d} : Follows p d [] p
  | cons {s next d r ws rest p} (h : E.exec s d=.ok (r,ws))
      (more : Follows (next r) (E.applyAll ws d) rest p) :
      Follows (statement s next) d (⟨s,r,ws⟩::rest) p

/-- A write that a statement does not notice and that could as well have come after it. -/
structure Independent (e : Executed S R W) (w : W) : Prop where
  exec : ∀ d, E.exec e.statement d=.ok (e.result,e.writes) →
    E.exec e.statement (E.apply w d)=.ok (e.result,e.writes)
  commute : ∀ d, E.same (E.applyAll e.writes (E.apply w d)) (E.apply w (E.applyAll e.writes d))

variable {E}
variable {p q : Script S R ε α} {d c : σ} {es : List (Executed S R W)}

theorem Follows.alone (h : Follows E p d es q) :
    p.alone E d=q.alone E (E.applyAll (es.flatMap (·.writes)) d) := by
  induction h with
  | nil => rfl
  | cons h _ ih =>
    simp only [Script.alone,h,List.flatMap_cons,Engine.applyAll_append]
    exact ih

theorem Follows.snoc {s : S} {next : R s → Script S R ε α} {r : R s} {ws : List W}
    (h : Follows E p d es (statement s next))
    (hs : E.exec s (E.applyAll (es.flatMap (·.writes)) d)=.ok (r,ws)) :
    Follows E p d (es ++ [⟨s,r,ws⟩]) (next r) := by
  generalize hq : statement s next=q at h
  induction h with
  | nil =>
    subst hq
    exact .cons hs .nil
  | cons h _ ih =>
    rw [List.flatMap_cons,Engine.applyAll_append] at hs
    exact .cons h (ih hs hq)

theorem Follows.congr (h : Follows E p d es q) (hc : E.same d c) : Follows E p c es q := by
  induction h generalizing c with
  | nil => exact .nil
  | cons h _ ih => exact .cons (E.exec_same hc _ ▸ h) (ih (E.applyAll_same hc _))

/-- Executed statements stay valid under a write that is independent of all of them. -/
theorem Follows.apply {w : W} (h : Follows E p d es q) (hw : ∀ e ∈ es, Independent E e w) :
    Follows E p (E.apply w d) es q := by
  induction h with
  | nil => exact .nil
  | cons h _ ih =>
    rw [List.forall_mem_cons] at hw
    refine .cons (hw.1.exec _ h) ?_
    exact (ih hw.2).congr (E.equivalence.symm (hw.1.commute _))

theorem Follows.applyAll {ws : List W} (h : Follows E p d es q)
    (hw : ∀ e ∈ es, ∀ w ∈ ws, Independent E e w) : Follows E p (E.applyAll ws d) es q := by
  induction ws generalizing d with
  | nil => exact h
  | cons w ws ih =>
    refine ih (h.apply fun e he => hw e he w (by simp)) ?_
    intro e he v hv
    exact hw e he v (by simp [hv])

end

/-- Every statement of a script meets `Q`, whatever the results. -/
def Only (Q : S → Prop) : Script S R ε α → Prop
  | done _ => True
  | raise _ => True
  | statement s next => Q s ∧ ∀ r, (next r).Only Q

theorem Only.bind {Q : S → Prop} {p : Script S R ε α} {f : α → Script S R ε β} (h : p.Only Q)
    (hf : ∀ a, (f a).Only Q) : (p >>= f).Only Q := by
  change (p.bind f).Only Q
  induction p with
  | done a => exact hf a
  | raise e => trivial
  | statement s next ih => exact ⟨h.1,fun r => ih r (h.2 r)⟩

theorem only_lift {Q : S → Prop} (x : Except ε α) : (lift x : Script S R ε α).Only Q := by
  cases x with
  | error e => trivial
  | ok a => trivial

/-- Whatever a script returns meets `Q`, unless one of its statements is answered as in `p`. -/
def Unless (p : (s : S) → R s → Prop) (Q : α → Prop) : Script S R ε α → Prop
  | done a => Q a
  | raise _ => True
  | statement s next => ∀ r, p s r ∨ (next r).Unless p Q

section
variable {p : (s : S) → R s → Prop} {Q : β → Prop}

theorem unless_bind {x : Script S R ε α} {f : α → Script S R ε β} (h : ∀ a, (f a).Unless p Q) :
    (x >>= f).Unless p Q := by
  change (x.bind f).Unless p Q
  induction x with
  | done a => exact h a
  | raise e => trivial
  | statement s next ih => exact fun r => .inr (ih r)

/-- A script that begins with a statement that may be answered as in `p`. -/
theorem unless_execute {s : S} {f : R s → Script S R ε β} (h : ∀ r, p s r ∨ (f r).Unless p Q) :
    (execute s >>= f).Unless p Q := h

theorem unless_lift {x : Except ε α} {f : α → Script S R ε β} (h : ∀ a, x=.ok a → (f a).Unless p Q) :
    (lift x >>= f).Unless p Q := by
  cases x with
  | error e => trivial
  | ok a => exact h a rfl

end

section
variable (E : Engine S R W K σ ε) (Q : σ → S → Prop)

/-- Along the way of a script from contents `d`, every statement meets `Q` on what it sees. -/
def Throughout : Script S R ε α → σ → Prop
  | done _, _ => True
  | raise _, _ => True
  | statement s next, d =>
    Q d s ∧ ∀ r ws, E.exec s d=.ok (r,ws) → (next r).Throughout (E.applyAll ws d)

variable {E} {Q} {p : Script S R ε α} {d : σ}

theorem Throughout.bind {f : α → Script S R ε β} (h : p.Throughout E Q d)
    (hf : ∀ a c, p.alone E d=.ok (a,c) → (f a).Throughout E Q c) : (p >>= f).Throughout E Q d := by
  change (p.bind f).Throughout E Q d
  induction p generalizing d with
  | done a => exact hf a d rfl
  | raise e => trivial
  | statement s next ih =>
    refine ⟨h.1,?_⟩
    intro r ws hs
    refine ih r (h.2 r ws hs) ?_
    intro a c hac
    refine hf a c ?_
    simp only [Script.alone,hs]
    exact hac

theorem throughout_execute {s : S} (h : Q d s) :
    (execute s : Script S R ε (R s)).Throughout E Q d := ⟨h,fun _ _ _ => trivial⟩

theorem throughout_lift (x : Except ε α) : (lift x : Script S R ε α).Throughout E Q d := by
  cases x with
  | error e => trivial
  | ok a => trivial

/-- What holds along the way holds of every statement that was executed. -/
theorem Follows.throughout {es : List (Executed S R W)} {q : Script S R ε α} (h : Follows E p d es q)
    (hp : p.Throughout E Q d) {before after : List (Executed S R W)} {e : Executed S R W}
    (hes : es=before ++ e::after) :
    Q (E.applyAll (before.flatMap (·.writes)) d) e.statement ∧
      E.exec e.statement (E.applyAll (before.flatMap (·.writes)) d)=.ok (e.result,e.writes) := by
  induction h generalizing before with
  | nil => simp at hes
  | cons hs _ ih =>
    cases before with
    | nil =>
      cases hes
      exact ⟨hp.1,hs⟩
    | cons b before =>
      cases hes
      rw [List.flatMap_cons,Engine.applyAll_append]
      exact ih (hp.2 _ _ hs) rfl

end
end Script

end RagIngestion.Library
