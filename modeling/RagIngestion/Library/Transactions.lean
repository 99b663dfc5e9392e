import RagIngestion.Library.Runs
import RagIngestion.Library.Scripts
import Mathlib.Logic.Function.Basic

/-! Transactions that interleave statement by statement. A statement sees what is committed and
what its own transaction wrote, waits while another transaction has a lock on what it would
write, and locks last to the end of a transaction. When no commit disturbs a statement of a
transaction still under way, the committed transactions ran as if one after the other. -/
namespace RagIngestion.Library
variable {S : Type} {R : S → Type} {W K σ ε α L ι : Type}

/-- A transaction under way. -/
structure Session (S : Type) (R : S → Type) (W ε α L : Type) where
  label : L
  executed : List (Executed S R W)
  rest : Script S R ε α

def Session.writes (x : Session S R W ε α L) : List W := x.executed.flatMap (·.writes)

/-- The committed contents, the lock table, and the transactions: those committed, in order and
with what they returned, and those under way. -/
structure Sessions (S : Type) (R : S → Type) (W K σ ε α L ι : Type) where
  committed : σ
  history : List (L × α)
  locks : List (K × ι)
  running : ι → Option (Session S R W ε α L)

inductive SessionAction (L ι : Type)
  | start (t : ι) (label : L)
  /-- The next statement of a transaction, or its exception. -/
  | advance (t : ι)
  | commit (t : ι)
  /-- The connection is lost, or the process dies. -/
  | rollback (t : ι)

namespace Sessions

/-- Contents `d` and nothing under way. -/
def Initial (d : σ) (s : Sessions S R W K σ ε α L ι) : Prop :=
  s.committed=d ∧ s.history=[] ∧ s.locks=[] ∧ ∀ t, s.running t=none

section
variable [DecidableEq ι]

/-- The transaction is over; its locks are released. -/
def finish (s : Sessions S R W K σ ε α L ι) (t : ι) : Sessions S R W K σ ε α L ι :=
  { s with
    locks := s.locks.filter (fun x => x.2≠t)
    running := Function.update s.running t none }

/-- No other transaction has a lock on what the writes lock. -/
def Free (keys : W → List K) (s : Sessions S R W K σ ε α L ι) (t : ι) (ws : List W) : Prop :=
  ∀ w ∈ ws, ∀ k ∈ keys w, ∀ x ∈ s.locks, x.1=k → x.2=t

instance [DecidableEq K] (keys : W → List K) (s : Sessions S R W K σ ε α L ι) (t : ι) (ws : List W) :
    Decidable (s.Free keys t ws) := by
  unfold Free
  infer_instance

/-- The statement is executed, and its writes are locked. -/
def execute (keys : W → List K) (s : Sessions S R W K σ ε α L ι) (t : ι)
    (x : Session S R W ε α L) (e : Executed S R W) (rest : Script S R ε α) :
    Sessions S R W K σ ε α L ι :=
  { s with
    locks := s.locks ++ (e.writes.flatMap keys).map (fun k => (k,t))
    running := Function.update s.running t
      (some { x with executed := x.executed ++ [e], rest := rest }) }

end

section
variable (E : Engine S R W K σ ε) (script : L → Script S R ε α)

/-- What the statements of a transaction see. -/
def view (s : Sessions S R W K σ ε α L ι) (x : Session S R W ε α L) : σ :=
  E.applyAll x.writes s.committed

variable [DecidableEq K] [DecidableEq ι]

def step (s : Sessions S R W K σ ε α L ι) : SessionAction L ι → Option (Sessions S R W K σ ε α L ι)
  | .start t label =>
    match s.running t with
    | some _ => none
    | none => some { s with running := Function.update s.running t (some ⟨label,[],script label⟩) }
  | .advance t =>
    match s.running t with
    | none => none
    | some x =>
      match x.rest with
      | .done _ => none
      | .raise _ => some (s.finish t)
      | .statement q next =>
        match E.exec q (s.view E x) with
        | .error _ => some (s.finish t)
        | .ok (r,ws) => if s.Free E.keys t ws then some (s.execute E.keys t x ⟨q,r,ws⟩ (next r)) else none
  | .commit t =>
    match s.running t with
    | none => none
    | some x =>
      match x.rest with
      | .done a =>
        some ({ s with committed := s.view E x, history := s.history ++ [(x.label,a)] }.finish t)
      | _ => none
  | .rollback t => if (s.running t).isSome then some (s.finish t) else none

def system (d : σ) : System (Sessions S R W K σ ε α L ι) (SessionAction L ι) :=
  ⟨Initial d,step E script⟩

/-- What each action can do. -/
inductive Transition (s : Sessions S R W K σ ε α L ι) :
    SessionAction L ι → Sessions S R W K σ ε α L ι → Prop
  | start {t label} (h : s.running t=none) : Transition s (.start t label)
      { s with running := Function.update s.running t (some ⟨label,[],script label⟩) }
  | executed {t x q next r ws} (h : s.running t=some x) (hr : x.rest=.statement q next)
      (hq : E.exec q (s.view E x)=.ok (r,ws)) (hfree : s.Free E.keys t ws) :
      Transition s (.advance t) (s.execute E.keys t x ⟨q,r,ws⟩ (next r))
  | raised {t x} (h : s.running t=some x) : Transition s (.advance t) (s.finish t)
  | committed {t x a} (h : s.running t=some x) (hr : x.rest=.done a) : Transition s (.commit t)
      ({ s with committed := s.view E x, history := s.history ++ [(x.label,a)] }.finish t)
  | rolledBack {t x} (h : s.running t=some x) : Transition s (.rollback t) (s.finish t)

variable {E script} {s after : Sessions S R W K σ ε α L ι} {a : SessionAction L ι}

theorem transition_of_step (h : step E script s a=some after) : Transition E script s a after := by
  cases a with
  | start t label =>
    simp only [step] at h
    split at h
    · cases h
    · cases h; exact .start ‹_›
  | advance t =>
    simp only [step] at h
    split at h
    · cases h
    · rename_i x hx
      split at h
      · cases h
      · cases h; exact .raised hx
      · rename_i q next hr
        split at h
        · cases h; exact .raised hx
        · rename_i r ws hq
          split at h
          · cases h; exact .executed hx hr hq ‹_›
          · cases h
  | commit t =>
    simp only [step] at h
    split at h
    · cases h
    · rename_i x hx
      split at h
      · cases h; exact .committed hx ‹_›
      · cases h
  | rollback t =>
    simp only [step] at h
    split at h
    · rename_i hx
      cases h
      obtain ⟨x,hx⟩ := Option.isSome_iff_exists.mp hx
      exact .rolledBack hx
    · cases h

end

section
variable {keys : W → List K} {s : Sessions S R W K σ ε α L ι} {t u : ι}
  {x y : Session S R W ε α L} {e : Executed S R W} {rest : Script S R ε α}

/-- The lock table holds, for every transaction under way, the keys of its writes, and no key
twice. -/
structure Locked (keys : W → List K) (s : Sessions S R W K σ ε α L ι) : Prop where
  held : ∀ t x, s.running t=some x → ∀ w ∈ x.writes, ∀ k ∈ keys w, (k,t) ∈ s.locks
  holder : ∀ l ∈ s.locks, ∃ x, s.running l.2=some x ∧ ∃ w ∈ x.writes, l.1 ∈ keys w
  exclusive : ∀ l ∈ s.locks, ∀ m ∈ s.locks, l.1=m.1 → l.2=m.2

/-- Writes of different transactions under way lock different keys. -/
theorem Locked.apart (h : Locked keys s) (hx : s.running t=some x) (hy : s.running u=some y)
    (htu : t≠u) {v w : W} (hv : v ∈ x.writes) (hw : w ∈ y.writes) : List.Disjoint (keys v) (keys w) := by
  intro k hkv hkw
  exact htu (h.exclusive _ (h.held t x hx v hv k hkv) _ (h.held u y hy w hw k hkw) rfl)

theorem locked_of_initial {d : σ} (h : Initial d s) : Locked keys s where
  held t x hx := by rw [h.2.2.2 t] at hx; cases hx
  holder l hl := by rw [h.2.2.1] at hl; cases hl
  exclusive l hl := by rw [h.2.2.1] at hl; cases hl

theorem Session.writes_execute :
    Session.writes { x with executed := x.executed ++ [e], rest := rest }=x.writes ++ e.writes := by
  simp [Session.writes]

variable [DecidableEq ι]

theorem running_update {running : ι → Option (Session S R W ε α L)} {o : Option (Session S R W ε α L)}
    (h : Function.update running t o u=some y) : (u=t ∧ o=some y) ∨ (u≠t ∧ running u=some y) := by
  by_cases hu : u=t
  · subst hu
    rw [Function.update_self] at h
    exact .inl ⟨rfl,h⟩
  · rw [Function.update_of_ne hu] at h
    exact .inr ⟨hu,h⟩

theorem running_finish (h : (s.finish t).running u=some y) : u≠t ∧ s.running u=some y := by
  obtain ⟨-,h⟩ | h := running_update h
  · cases h
  · exact h

theorem running_execute (h : (s.execute keys t x e rest).running u=some y) :
    (u=t ∧ y={ x with executed := x.executed ++ [e], rest := rest }) ∨
      (u≠t ∧ s.running u=some y) := by
  obtain ⟨hu,h⟩ | h := running_update h
  · exact .inl ⟨hu,(Option.some.inj h).symm⟩
  · exact .inr h

theorem mem_locks_execute {l : K × ι} : l ∈ (s.execute keys t x e rest).locks ↔
    l ∈ s.locks ∨ ∃ w ∈ e.writes, l.1 ∈ keys w ∧ l.2=t := by
  simp only [execute,List.mem_append,List.mem_map,List.mem_flatMap]
  constructor
  · rintro (hl | ⟨k,⟨w,hw,hk⟩,rfl⟩)
    · exact .inl hl
    · exact .inr ⟨w,hw,hk,rfl⟩
  · rintro (hl | ⟨w,hw,hk,ht⟩)
    · exact .inl hl
    · exact .inr ⟨l.1,⟨w,hw,hk⟩,by rw [← ht]⟩

theorem mem_locks_finish {l : K × ι} : l ∈ (s.finish t).locks ↔ l ∈ s.locks ∧ l.2≠t := by
  simp [finish]

theorem Locked.finish (h : Locked keys s) (t : ι) : Locked keys (s.finish t) where
  held u y hy w hw k hk := by
    obtain ⟨hu,hy⟩ := running_finish hy
    exact mem_locks_finish.mpr ⟨h.held u y hy w hw k hk,hu⟩
  holder l hl := by
    obtain ⟨hl,ht⟩ := mem_locks_finish.mp hl
    obtain ⟨y,hy,hw⟩ := h.holder l hl
    exact ⟨y,(Function.update_of_ne ht _ _).trans hy,hw⟩
  exclusive l hl m hm :=
    h.exclusive l (mem_locks_finish.mp hl).1 m (mem_locks_finish.mp hm).1

theorem Locked.execute (h : Locked keys s) (hx : s.running t=some x) (hfree : s.Free keys t e.writes) :
    Locked keys (s.execute keys t x e rest) where
  held u y hy w hw k hk := by
    rw [mem_locks_execute]
    obtain ⟨rfl,rfl⟩ | ⟨-,hy⟩ := running_execute hy
    · rw [Session.writes_execute,List.mem_append] at hw
      cases hw with
      | inl hw => exact .inl (h.held u x hx w hw k hk)
      | inr hw => exact .inr ⟨w,hw,hk,rfl⟩
    · exact .inl (h.held u y hy w hw k hk)
  holder l hl := by
    obtain hl | ⟨w,hw,hk,ht⟩ := mem_locks_execute.mp hl
    · obtain ⟨y,hy,w,hw,hk⟩ := h.holder l hl
      by_cases ht : l.2=t
      · have hyx : y=x := Option.some.inj (hy.symm.trans (ht ▸ hx))
        refine ⟨_,(congrArg _ ht).trans (Function.update_self ..),w,?_,hk⟩
        rw [Session.writes_execute]
        exact List.mem_append_left _ (hyx ▸ hw)
      · exact ⟨y,(Function.update_of_ne ht _ _).trans hy,w,hw,hk⟩
    · refine ⟨_,(congrArg _ ht).trans (Function.update_self ..),w,?_,hk⟩
      rw [Session.writes_execute]
      exact List.mem_append_right _ hw
  exclusive l hl m hm hlm := by
    obtain hl | ⟨v,hv,hkv,hlt⟩ := mem_locks_execute.mp hl
    · obtain hm | ⟨w,hw,hkw,hmt⟩ := mem_locks_execute.mp hm
      · exact h.exclusive l hl m hm hlm
      · rw [hmt]
        exact hfree w hw m.1 hkw l hl hlm
    · obtain hm | ⟨w,hw,hkw,hmt⟩ := mem_locks_execute.mp hm
      · rw [hlt]
        exact (hfree v hv l.1 hkv m hm hlm.symm).symm
      · rw [hlt,hmt]

end

section
variable {E : Engine S R W K σ ε} {script : L → Script S R ε α} {d : σ}
  {s after : Sessions S R W K σ ε α L ι} {a : SessionAction L ι}

/-- The committed transactions, run alone one after the other, lead from `d` to the committed
contents and return what they returned. -/
inductive Serial (E : Engine S R W K σ ε) (script : L → Script S R ε α) (d : σ) :
    List (L × α) → σ → Prop
  | nil : Serial E script d [] d
  | snoc {history c label a c'} (before : Serial E script d history c)
      (h : (script label).alone E c=.ok (a,c')) : Serial E script d (history ++ [(label,a)]) c'

/-- No statement of another transaction under way notices what a transaction commits. -/
def Undisturbed (E : Engine S R W K σ ε) (s : Sessions S R W K σ ε α L ι) : SessionAction L ι → Prop
  | .commit t => ∀ x u y, s.running t=some x → s.running u=some y → t≠u →
      ∀ e ∈ y.executed, ∀ w ∈ x.writes, Script.Independent E e w
  | _ => True

/-- The committed transactions ran one after the other, and those under way could have run on
what is committed now. -/
structure Serializable (E : Engine S R W K σ ε) (script : L → Script S R ε α) (d : σ)
    (s : Sessions S R W K σ ε α L ι) : Prop where
  serial : Serial E script d s.history s.committed
  follows : ∀ t x, s.running t=some x →
    Script.Follows E (script x.label) s.committed x.executed x.rest

theorem serializable_of_initial (h : Initial d s) : Serializable E script d s where
  serial := by
    rw [h.1,h.2.1]
    exact .nil
  follows t x hx := by rw [h.2.2.2 t] at hx; cases hx

variable [DecidableEq K] [DecidableEq ι]

theorem Locked.step (h : Locked E.keys s) (ha : step E script s a=some after) : Locked E.keys after := by
  cases transition_of_step ha with
  | @start t label hnone =>
    refine ⟨?_,?_,h.exclusive⟩
    · intro u y hy w hw k hk
      obtain ⟨-,hy⟩ | ⟨-,hy⟩ := running_update hy
      · cases hy
        cases hw
      · exact h.held u y hy w hw k hk
    · intro l hl
      obtain ⟨y,hy,hw⟩ := h.holder l hl
      have ht : l.2≠t := by
        intro ht
        rw [ht,hnone] at hy
        cases hy
      exact ⟨y,(Function.update_of_ne ht _ _).trans hy,hw⟩
  | executed hx hr hq hfree => exact h.execute hx hfree
  | raised => exact h.finish _
  | @committed t x a hx hr =>
    have hsame : Locked E.keys { s with committed := s.view E x, history := s.history ++ [(x.label,a)] } :=
      ⟨h.held,h.holder,h.exclusive⟩
    exact hsame.finish t
  | rolledBack => exact h.finish _

theorem Serializable.step (h : Serializable E script d s) (hu : Undisturbed E s a)
    (ha : step E script s a=some after) : Serializable E script d after := by
  cases transition_of_step ha with
  | start =>
    refine ⟨h.serial,?_⟩
    intro u y hy
    obtain ⟨-,hy⟩ | ⟨-,hy⟩ := running_update hy
    · cases hy
      exact .nil
    · exact h.follows u y hy
  | executed hx hr hq =>
    refine ⟨h.serial,?_⟩
    intro u y hy
    obtain ⟨-,rfl⟩ | ⟨-,hy⟩ := running_execute hy
    · have hf := h.follows _ _ hx
      rw [hr] at hf
      exact hf.snoc hq
    · exact h.follows u y hy
  | raised => exact ⟨h.serial,fun u y hy => h.follows u y (running_finish hy).2⟩
  | @committed t x a hx hr =>
    constructor
    · refine h.serial.snoc ?_
      rw [(h.follows t x hx).alone,hr]
      rfl
    · intro u y hy
      obtain ⟨hne,hy⟩ := running_finish hy
      exact (h.follows u y hy).applyAll (hu x u y hx hy hne.symm)
  | rolledBack => exact ⟨h.serial,fun u y hy => h.follows u y (running_finish hy).2⟩

end

section
variable (E : Engine S R W K σ ε) (rank : K → ℕ)

/-- A script that locks in the order of the ranks: from rank `n` on, every statement locks above
what was locked before. -/
def Ascending : ℕ → Script S R ε α → Prop
  | _, .done _ => True
  | _, .raise _ => True
  | n, .statement s next => ∃ m, n ≤ m ∧
      (∀ d r ws, E.exec s d=.ok (r,ws) → ∀ w ∈ ws, ∀ k ∈ E.keys w, n<rank k ∧ rank k ≤ m) ∧
      ∀ r, Ascending m (next r)

/-- Every transaction under way goes on to lock above what it has locked. -/
def Ordered (s : Sessions S R W K σ ε α L ι) : Prop :=
  ∀ t x, s.running t=some x → ∃ n, (∀ w ∈ x.writes, ∀ k ∈ E.keys w, rank k ≤ n) ∧
    Ascending E rank n x.rest

variable {E} {rank} {script : L → Script S R ε α} {s after : Sessions S R W K σ ε α L ι}
  {a : SessionAction L ι} [DecidableEq K] [DecidableEq ι]

theorem Ordered.step (h : Ordered E rank s) (hscript : ∀ label, Ascending E rank 0 (script label))
    (ha : step E script s a=some after) : Ordered E rank after := by
  cases transition_of_step ha with
  | @start t label =>
    intro u y hy
    obtain ⟨-,hy⟩ | ⟨-,hy⟩ := running_update hy
    · cases hy
      refine ⟨0,?_,hscript label⟩
      intro w hw
      cases hw
    · exact h u y hy
  | @executed t x q next r ws hx hr hq =>
    intro u y hy
    obtain ⟨-,rfl⟩ | ⟨-,hy⟩ := running_execute hy
    · obtain ⟨n,hn,hrest⟩ := h t x hx
      rw [hr] at hrest
      obtain ⟨m,hnm,hkeys,hnext⟩ := hrest
      refine ⟨m,?_,hnext r⟩
      intro w hw k hk
      rw [Session.writes_execute,List.mem_append] at hw
      cases hw with
      | inl hw => exact (hn w hw k hk).trans hnm
      | inr hw => exact (hkeys _ r ws hq w hw k hk).2
    · exact h u y hy
  | raised => exact fun u y hy => h u y (running_finish hy).2
  | committed => exact fun u y hy => h u y (running_finish hy).2
  | rolledBack => exact fun u y hy => h u y (running_finish hy).2

/-- Transactions that lock in the order of bounded ranks do not block each other for good: while
one is under way, some transaction can take its next step. -/
theorem exists_step (hl : Locked E.keys s) (ho : Ordered E rank s) {top : ℕ} (htop : ∀ k, rank k ≤ top)
    {t : ι} {x : Session S R W ε α L} (hx : s.running t=some x) :
    ∃ u, (step E script s (.advance u)).isSome ∨ (step E script s (.commit u)).isSome := by
  obtain ⟨n,hn,hrest⟩ := ho t x hx
  generalize hgap : top-n=gap
  induction gap using Nat.strong_induction_on generalizing t x n with
  | _ gap ih =>
    cases hr : x.rest with
    | done a =>
      refine ⟨t,.inr ?_⟩
      simp only [step,hx,hr,Option.isSome_some]
    | raise e =>
      refine ⟨t,.inl ?_⟩
      simp only [step,hx,hr,Option.isSome_some]
    | statement q next =>
      cases hq : E.exec q (s.view E x) with
      | error e =>
        refine ⟨t,.inl ?_⟩
        simp only [step,hx,hr,hq,Option.isSome_some]
      | ok result =>
        obtain ⟨r,ws⟩ := result
        by_cases hfree : s.Free E.keys t ws
        · refine ⟨t,.inl ?_⟩
          simp only [step,hx,hr,hq,if_pos hfree,Option.isSome_some]
        · -- the holder of the lock waits, if at all, for a lock of higher rank
          simp only [Free,not_forall] at hfree
          obtain ⟨w,hw,k,hk,l,hl',hlk,-⟩ := hfree
          obtain ⟨y,hy,v,hv,hkv⟩ := hl.holder l hl'
          obtain ⟨m,hm,hnext⟩ := ho _ y hy
          rw [hr] at hrest
          obtain ⟨_,-,hkeys,-⟩ := hrest
          have hlow : n<rank k := (hkeys _ r ws hq w hw k hk).1
          have hhigh : rank k ≤ m := hlk ▸ hm v hv _ hkv
          have hk := htop k
          exact ih (top-m) (by omega) hy m hm hnext rfl

end
end Sessions
end RagIngestion.Library
