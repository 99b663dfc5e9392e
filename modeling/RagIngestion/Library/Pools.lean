import Mathlib.Data.List.Basic
import Mathlib.Data.List.Nodup
import Mathlib.Data.List.Perm.Basic

/-! A pool of things that are lent to one holder at a time and wait in a queue otherwise. -/
namespace RagIngestion.Library

structure Pool (ι κ : Type) where
  idle : List κ
  lent : List (ι × κ)

namespace Pool
variable {ι κ : Type}

/-- All things of the pool, idle or lent. -/
def all (P : Pool ι κ) : List κ := P.idle ++ P.lent.map Prod.snd

/-- The holder has nothing of the pool. -/
def Free (P : Pool ι κ) (i : ι) : Prop := ∀ x ∈ P.lent, x.1≠i

instance [DecidableEq ι] (P : Pool ι κ) (i : ι) : Decidable (P.Free i) := by
  unfold Free
  infer_instance

/-- The head of the queue goes to a holder. -/
def lend (P : Pool ι κ) (i : ι) : Option (κ × Pool ι κ) :=
  match P.idle with
  | [] => none
  | c::rest => some (c,⟨rest,P.lent ++ [(i,c)]⟩)

/-- What a holder has goes back to the end of the queue. -/
def giveBack [DecidableEq ι] (P : Pool ι κ) (i : ι) : Option (Pool ι κ) :=
  (P.lent.find? (fun x => x.1=i)).map
    (fun x => ⟨P.idle ++ [x.2],P.lent.eraseP (fun x => x.1=i)⟩)

/-- Lending takes one thing that nobody else has. -/
theorem lend_eq_some {P Q : Pool ι κ} {i : ι} {c : κ} (h : P.lend i=some (c,Q)) :
    Q.all.Perm P.all ∧ Q.lent=P.lent ++ [(i,c)] ∧ c ∈ P.idle := by
  unfold lend at h
  cases hidle : P.idle with
  | nil => rw [hidle] at h; cases h
  | cons d rest =>
    rw [hidle] at h
    cases h
    refine ⟨?_,rfl,List.mem_cons_self⟩
    simp only [all,hidle,List.map_append,List.map_cons,List.map_nil,List.cons_append]
    rw [← List.append_assoc]
    exact List.perm_append_singleton c _

/-- What is idle is not lent, of distinct things. -/
theorem not_mem_lent {P : Pool ι κ} (h : P.all.Nodup) {c : κ} (hc : c ∈ P.idle) :
    c ∉ P.lent.map Prod.snd :=
  fun hl => (List.disjoint_of_nodup_append h) hc hl

theorem holders_lend {P : Pool ι κ} {i : ι} {c : κ} (hnodup : (P.lent.map Prod.fst).Nodup)
    (hfree : P.Free i) : ((P.lent ++ [(i,c)]).map Prod.fst).Nodup := by
  rw [List.map_append,List.nodup_append]
  refine ⟨hnodup,by simp,?_⟩
  intro a ha b hb
  obtain ⟨x,hx,rfl⟩ := List.mem_map.mp ha
  rw [List.map_cons,List.map_nil,List.mem_singleton] at hb
  exact hb ▸ hfree x hx

variable [DecidableEq ι]

/-- Giving back moves what the holder has to the end of the queue. -/
theorem giveBack_split {P Q : Pool ι κ} {i : ι} (h : P.giveBack i=some Q) : ∃ c before after,
    P.lent=before ++ (i,c)::after ∧ Q=⟨P.idle ++ [c],before ++ after⟩ := by
  obtain ⟨⟨j,c⟩,hx,hQ⟩ := Option.map_eq_some_iff.mp h
  obtain ⟨hi,before,after,hlent,hbefore⟩ := List.find?_eq_some_iff_append.mp hx
  have heq : j=i := of_decide_eq_true hi
  subst heq
  have herase : P.lent.eraseP (fun x => x.1=j)=before ++ after := by
    rw [hlent,List.eraseP_append_right _ (fun y hy => by simpa using hbefore y hy)]
    simp
  rw [herase] at hQ
  exact ⟨c,before,after,hlent,hQ.symm⟩

theorem giveBack_all {P Q : Pool ι κ} {i : ι} (h : P.giveBack i=some Q) : Q.all.Perm P.all := by
  obtain ⟨c,before,after,hlent,rfl⟩ := giveBack_split h
  simp only [all,hlent,List.map_append,List.map_cons,List.append_assoc,List.singleton_append]
  exact List.Perm.append_left _ List.perm_middle.symm

/-- Only that holder loses anything, of distinct holders. -/
theorem mem_lent_giveBack {P Q : Pool ι κ} {i : ι} (hnodup : (P.lent.map Prod.fst).Nodup)
    (h : P.giveBack i=some Q) {x : ι × κ} : x ∈ Q.lent ↔ x ∈ P.lent ∧ x.1≠i := by
  obtain ⟨c,before,after,hlent,rfl⟩ := giveBack_split h
  rw [hlent] at hnodup ⊢
  rw [(List.perm_middle.map Prod.fst).nodup_iff,List.map_cons,List.nodup_cons] at hnodup
  rw [List.perm_middle.mem_iff,List.mem_cons]
  constructor
  · intro hx
    refine ⟨.inr hx,?_⟩
    rintro rfl
    exact hnodup.1 (List.mem_map.mpr ⟨x,hx,rfl⟩)
  · intro hx
    cases hx.1 with
    | inl heq => exact absurd (congrArg Prod.fst heq) hx.2
    | inr hx => exact hx

theorem holders_giveBack {P Q : Pool ι κ} {i : ι} (hnodup : (P.lent.map Prod.fst).Nodup)
    (h : P.giveBack i=some Q) : (Q.lent.map Prod.fst).Nodup := by
  obtain ⟨c,before,after,hlent,rfl⟩ := giveBack_split h
  rw [hlent] at hnodup
  refine List.Nodup.sublist (List.Sublist.map _ ?_) hnodup
  exact (List.sublist_cons_self _ _).append_left before

end Pool
end RagIngestion.Library
