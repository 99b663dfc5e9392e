import Mathlib.Data.List.Basic
import Mathlib.Data.List.Nodup
import Mathlib.Tactic

/-! Tables as lists of rows: conditional updates, unique columns, and fallible statements. -/
namespace RagIngestion.Library
variable {α β κ ε : Type*}

/-- `UPDATE rows SET f WHERE p`. -/
def updateWhere (p : α → Bool) (f : α → α) (rows : List α) : List α :=
  rows.map (fun r => if p r then f r else r)

theorem mem_updateWhere {p : α → Bool} {f : α → α} {rows : List α} {r : α} :
    r ∈ updateWhere p f rows ↔ ∃ x ∈ rows, (if p x then f x else x)=r := List.mem_map

@[simp] theorem updateWhere_append (p : α → Bool) (f : α → α) (rows more : List α) :
    updateWhere p f (rows ++ more)=updateWhere p f rows ++ updateWhere p f more :=
  List.map_append

/-- An update that keeps a column leaves the list of its values as it was. -/
theorem map_updateWhere {p : α → Bool} {f : α → α} {g : α → β}
    (h : ∀ r, p r=true → g (f r)=g r) (rows : List α) :
    (updateWhere p f rows).map g=rows.map g := by
  rw [updateWhere,List.map_map]
  apply List.map_congr_left
  intro r _
  by_cases hp : p r=true
  · simp [hp,h r hp]
  · simp [hp]

/-- A search does not see the update of rows it does not look for. -/
theorem find?_updateWhere {p q : α → Bool} {f : α → α}
    (h : ∀ r, p r=true → q r=false ∧ q (f r)=false) (rows : List α) :
    (updateWhere p f rows).find? q=rows.find? q := by
  induction rows with
  | nil => rfl
  | cons r rows ih =>
    simp only [updateWhere,List.map_cons,List.find?_cons] at ih ⊢
    by_cases hp : p r=true
    · rw [if_pos hp,(h r hp).1,(h r hp).2]
      exact ih
    · rw [if_neg hp,ih]

/-- Nor the removal of such rows. -/
theorem find?_filter_of_imp {p q : α → Bool} (h : ∀ r, q r=true → p r=true) (rows : List α) :
    (rows.filter p).find? q=rows.find? q := by
  rw [List.find?_filter]
  congr 1
  funext r
  cases hq : q r with
  | false => simp
  | true => simp [h r hq]

/-- An update whose condition no row meets changes nothing. -/
theorem updateWhere_eq_self {p : α → Bool} {f : α → α} {rows : List α}
    (h : ∀ r ∈ rows, p r=false) : updateWhere p f rows=rows := by
  have hid : rows.map (fun r => if p r then f r else r)=rows.map id :=
    List.map_congr_left (fun r hr => by simp [h r hr])
  rw [updateWhere,hid,List.map_id]

/-- An update leaves the table as it was exactly when it keeps each row it selects. -/
theorem updateWhere_eq_self_iff {p : α → Bool} {f : α → α} {rows : List α} :
    updateWhere p f rows=rows ↔ ∀ r ∈ rows, p r=true → f r=r := by
  constructor
  · intro h r hr hp
    have hsame := List.map_inj_left.mp (h.trans (List.map_id rows).symm) r hr
    simpa [hp] using hsame
  · intro h
    have hid : rows.map (fun r => if p r then f r else r)=rows.map id := by
      apply List.map_congr_left
      intro r hr
      split
      · exact h r hr ‹_›
      · rfl
    rw [updateWhere,hid,List.map_id]

/-- In a table with a unique column, rows with the same value are the same row. -/
theorem eq_of_key_eq {key : α → κ} {rows : List α} (h : (rows.map key).Nodup) {x y : α}
    (hx : x ∈ rows) (hy : y ∈ rows) (hk : key x=key y) : x=y :=
  List.inj_on_of_nodup_map h hx hy hk

/-- A unique column selects exactly the row that has the value. -/
theorem filter_key_eq [DecidableEq κ] {key : α → κ} {rows : List α} (h : (rows.map key).Nodup)
    {x : α} (hx : x ∈ rows) : rows.filter (fun r => key r=key x)=[x] := by
  induction rows with
  | nil => cases hx
  | cons r rows ih =>
    rw [List.map_cons,List.nodup_cons] at h
    by_cases hr : key r=key x
    · have hrest : rows.filter (fun r => key r=key x)=[] := by
        apply List.filter_eq_nil_iff.mpr
        intro y hy heq
        exact h.1 (List.mem_map.mpr ⟨y,hy,(of_decide_eq_true heq).trans hr.symm⟩)
      have hxr : x=r := by
        cases List.mem_cons.mp hx with
        | inl hx => exact hx
        | inr hx => exact absurd (List.mem_map.mpr ⟨x,hx,hr.symm⟩) h.1
      rw [List.filter_cons,if_pos (by simpa using hr),hrest,hxr]
    · have hxr : x ∈ rows := by
        cases List.mem_cons.mp hx with
        | inl hx => exact absurd (congrArg key hx.symm) hr
        | inr hx => exact hx
      rw [List.filter_cons,if_neg (by simpa using hr)]
      exact ih h.2 hxr

/-- A condition that a row meets, and only rows with its value of a unique column. -/
theorem filter_eq_singleton {key : α → κ} {rows : List α} (h : (rows.map key).Nodup) {x : α}
    (hx : x ∈ rows) {p : α → Bool} (hpx : p x=true) (hp : ∀ y ∈ rows, p y=true → key y=key x) :
    rows.filter p=[x] := by
  classical
  rw [← filter_key_eq h hx]
  apply List.filter_congr
  intro y hy
  rw [Bool.eq_iff_iff,decide_eq_true_eq]
  refine ⟨hp y hy,fun hk => ?_⟩
  rw [eq_of_key_eq h hy hx hk]
  exact hpx

/-- Selected rows that share the value of a unique column are at most one row. -/
theorem length_le_one_of_key {key : α → κ} {rows found : List α} {k : κ}
    (h : (rows.map key).Nodup) (hsub : found.Sublist rows) (hk : ∀ x ∈ found, key x=k) :
    found.length ≤ 1 := by
  have hnodup := (hsub.map key).nodup h
  match found with
  | [] => simp
  | [_] => simp
  | x::y::rest =>
    have hx := hk x (by simp)
    have hy := hk y (by simp)
    simp [hx,hy] at hnodup

/-- What holds of the rows and of a new one holds of all. -/
theorem forall_mem_snoc {p : α → Prop} {rows : List α} {x : α} (h : ∀ r ∈ rows, p r) (hx : p x) :
    ∀ r ∈ rows ++ [x], p r :=
  List.forall_mem_append.mpr ⟨h,List.forall_mem_singleton.mpr hx⟩

/-- A new row with a new value keeps a column unique. -/
theorem nodup_map_append_singleton {key : α → κ} {rows : List α} {x : α}
    (h : (rows.map key).Nodup) (hx : ∀ r ∈ rows, key r≠key x) :
    ((rows ++ [x]).map key).Nodup := by
  rw [List.map_append,List.nodup_append]
  refine ⟨h,by simp,?_⟩
  intro a ha b hb
  obtain ⟨r,hr,rfl⟩ := List.mem_map.mp ha
  rw [List.map_cons,List.map_nil,List.mem_singleton] at hb
  exact hb ▸ hx r hr

/-- A sequence of two statements succeeds exactly when both do. -/
theorem bind_eq_ok {α β : Type} {x : Except ε α} {f : α → Except ε β} {b : β} :
    x >>= f=.ok b ↔ ∃ a, x=.ok a ∧ f a=.ok b := by
  cases x with
  | error e => simp [bind,Except.bind]
  | ok a => simp [bind,Except.bind]

/-- A sequence raises what its first failing statement raises. -/
theorem bind_eq_error {α β : Type} {x : Except ε α} {f : α → Except ε β} {e : ε} :
    x >>= f=.error e ↔ x=.error e ∨ ∃ a, x=.ok a ∧ f a=.error e := by
  cases x with
  | error e' => simp [bind,Except.bind]
  | ok a => simp [bind,Except.bind]

/-- A checked statement raises only its own error. -/
theorem eq_of_ite_eq_error {α : Type} {p : Prop} [Decidable p] {a : α} {e raised : ε}
    (h : (if p then .ok a else .error e : Except ε α)=.error raised) : raised=e := by
  split at h
  · cases h
  · cases h; rfl

@[simp] theorem ok_bind {α β : Type} (a : α) (f : α → Except ε β) :
    (Except.ok a >>= f)=f a := rfl

/-- A statement whose result is only mapped succeeds when it does. -/
theorem exists_bind_eq_ok {α β : Type} {x : Except ε α} {f : α → β} (h : ∃ a, x=.ok a) :
    ∃ b, (x >>= fun a => .ok (f a))=.ok b := by
  obtain ⟨a,rfl⟩ := h
  exact ⟨f a,rfl⟩

end RagIngestion.Library
