import Mathlib.Control.Monad.Basic

/-! Programs over a state that return or raise. What a program did to the state before it raised
stays, so that a `finally` finds it. -/
namespace RagIngestion.Library

abbrev Program (σ ε α : Type) := ExceptT ε (StateM σ) α

namespace Program
variable {σ ε α β : Type}

/-- How a program ends from a state, and the state it leaves. -/
def exec (x : Program σ ε α) (s : σ) : Except ε α × σ := x.run.run s

/-- An answer that depends on the state and leaves it as it is. -/
def asks (f : σ → Except ε α) : Program σ ε α := ExceptT.mk (fun s => (f s,s))

@[simp] theorem exec_pure (a : α) (s : σ) : exec (pure a : Program σ ε α) s=(.ok a,s) := rfl

@[simp] theorem exec_throw (e : ε) (s : σ) : exec (throw e : Program σ ε α) s=(.error e,s) := rfl

@[simp] theorem exec_asks (f : σ → Except ε α) (s : σ) : exec (asks f) s=(f s,s) := rfl

@[simp] theorem exec_modify (f : σ → σ) (s : σ) :
    exec (modify f : Program σ ε PUnit) s=(.ok ⟨⟩,f s) := rfl

theorem exec_bind (x : Program σ ε α) (f : α → Program σ ε β) (s : σ) :
    exec (x >>= f) s=match exec x s with
      | (.ok a,t) => exec (f a) t
      | (.error e,t) => (.error e,t) := by
  unfold exec ExceptT.run StateT.run
  simp only [bind,ExceptT.bind,ExceptT.mk,StateT.bind,ExceptT.bindCont]
  cases x s with
  | mk result t => cases result <;> rfl

/-- After a part that returned, the rest goes on from the state it left. -/
theorem exec_bind_ok {x : Program σ ε α} {s t : σ} {a : α} (h : exec x s=(.ok a,t))
    (f : α → Program σ ε β) : exec (x >>= f) s=exec (f a) t := by
  rw [exec_bind,h]

/-- After a part that raised, nothing of the rest is done. -/
theorem exec_bind_error {x : Program σ ε α} {s t : σ} {e : ε} (h : exec x s=(.error e,t))
    (f : α → Program σ ε β) : exec (x >>= f) s=(.error e,t) := by
  rw [exec_bind,h]

/-- A `finally` that only changes the state is done on every way out, and changes no outcome. -/
theorem exec_finally {x : Program σ ε α} {s t : σ} {result : Except ε α}
    (h : exec x s=(result,t)) (release : σ → σ) :
    exec (tryFinally x (modify release : Program σ ε PUnit)) s=(result,release t) := by
  unfold exec ExceptT.run StateT.run at h ⊢
  simp only [tryFinally,tryFinally',Functor.map,ExceptT.map,ExceptT.mk,bind,StateT.bind,h]
  cases result <;> rfl

end Program
end RagIngestion.Library
