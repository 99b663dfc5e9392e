import RagIngestion.Extractor.MainLoop
import RagIngestion.Library.Offsets
import RagIngestion.Library.Runs

/-! Committed offsets of the extractor: as long as the loop commits no message that overtook an
unprocessed one, everything below a committed offset was handled. -/
namespace RagIngestion.Extractor.MainLoop
open RagIngestion.Python RagIngestion.Domain RagIngestion.Database RagIngestion.Storage
open RagIngestion.Library

/-- Every message below the committed offset of its partition was handled to an outcome. -/
def NothingSkipped (s : State) : Prop :=
  ∀ p o value, o<s.committed p → (s.log p)[o]?=some value →
    ∃ payload, value=some payload ∧ Processed s.stores.db payload

/-- A commit that takes effect overtakes no unprocessed message of its partition. -/
def InOrder (s : State) : Action → Prop
  | .commit fault =>
    match s.phase with
    | .committing j _ => fault=.before ∨
      ∀ x ∈ s.inflight, x.partition=j.partition → x.offset<j.offset → Processed s.stores.db x.payload
    | _ => True
  | _ => True

instance (s : State) (a : Action) : Decidable (InOrder s a) := by
  unfold InOrder
  split
  · split <;> infer_instance
  · infer_instance

/-- The message at the offset exists and was handled. -/
def Settled (s : State) (p o : ℕ) : Prop :=
  ∃ payload, (s.log p)[o]?=some (some payload) ∧ Processed s.stores.db payload

/-- A task handles the message at the offset. -/
def Pending (s : State) (p o : ℕ) : Prop := ∃ j ∈ s.inflight, j.partition=p ∧ j.offset=o

/-- What the loop knows about a message it polled: everything below it is handled or in work. -/
structure Job.Tracked (s : State) (j : Job) : Prop where
  message : (s.log j.partition)[j.offset]?=some (some j.payload)
  covered : Covered (Settled s j.partition) (Pending s j.partition) j.offset

/-- The loop while it commits offsets. -/
structure Working (s : State) : Prop where
  ids : (s.inflight.map (·.id)).Nodup
  spawned : ∀ j ∈ s.inflight, j.id<s.spawned
  tracked : ∀ j ∈ s.inflight, j.Tracked s
  payload : ∀ j ∈ s.inflight, j.task.payload=some j.payload
  returned : ∀ j ∈ s.inflight, ∀ p b, j.task=.returned p b → Processed s.stores.db j.payload
  committing : ∀ j completed, s.phase=.committing j completed →
    j.Tracked s ∧ Processed s.stores.db j.payload
  cursor : ∀ p c, s.cursor p=some c → Covered (Settled s p) (Pending s p) c.position

/-- Committed offsets are safe, and the loop works until it closes. -/
structure Sound (s : State) : Prop where
  safe : ∀ p, Library.Safe (Settled s p) (s.committed p)
  working : s.phase≠.closing → Working s

/-- The log and the processed events only grow from one state to the other. -/
structure Grows (s t : State) : Prop where
  log : ∀ p, s.log p <+: t.log p
  processed : s.stores.db.processedEvents ⊆ t.stores.db.processedEvents

section
variable {s t : State}

lemma Grows.of_eq (hlog : t.log=s.log) (hdb : t.stores.db=s.stores.db) : Grows s t := by
  refine ⟨fun p => ?_,?_⟩
  · rw [hlog]
  · rw [hdb]
    exact List.Subset.refl _

lemma Grows.message (h : Grows s t) {p o : ℕ} {value : Option DocumentFetched}
    (hm : (s.log p)[o]?=some value) : (t.log p)[o]?=some value := by
  obtain ⟨more,hmore⟩ := h.log p
  rw [← hmore,List.getElem?_append_left (List.getElem?_eq_some_iff.mp hm).1]
  exact hm

lemma Settled.mono (h : Grows s t) {p o : ℕ} (hs : Settled s p o) : Settled t p o := by
  obtain ⟨payload,hm,hp⟩ := hs
  exact ⟨payload,h.message hm,hp.mono h.processed⟩

/-- What is in work stays in work or is handled. -/
def Keeps (s t : State) : Prop := ∀ p o, Pending s p o → Settled t p o ∨ Pending t p o

lemma Keeps.of_eq (h : t.inflight=s.inflight) : Keeps s t := by
  intro p o hp
  right
  unfold Pending
  rw [h]
  exact hp

lemma covered_mono (h : Grows s t) (hk : Keeps s t) {p n : ℕ}
    (hc : Covered (Settled s p) (Pending s p) n) : Covered (Settled t p) (Pending t p) n :=
  hc.mono (fun _ ho => ho.mono h) (hk p)

lemma Job.Tracked.mono {j : Job} (hj : j.Tracked s) (h : Grows s t) (hk : Keeps s t) : j.Tracked t :=
  ⟨h.message hj.message,covered_mono h hk hj.covered⟩

/-- Steps that change neither the tasks nor where the consumer stands. -/
theorem Working.frame (hw : Working s) (h : Grows s t) (hinflight : t.inflight=s.inflight)
    (hspawned : t.spawned=s.spawned)
    (hphase : ∀ j completed, t.phase=.committing j completed → s.phase=.committing j completed)
    (hcursor : ∀ p c, t.cursor p=some c → Covered (Settled s p) (Pending s p) c.position) :
    Working t := by
  have hk := Keeps.of_eq hinflight
  refine ⟨?_,?_,?_,?_,?_,?_,?_⟩
  · rw [hinflight]
    exact hw.ids
  · rw [hinflight,hspawned]
    exact hw.spawned
  · rw [hinflight]
    exact fun j hj => (hw.tracked j hj).mono h hk
  · rw [hinflight]
    exact hw.payload
  · rw [hinflight]
    exact fun j hj p b ht => (hw.returned j hj p b ht).mono h.processed
  · intro j completed hp
    obtain ⟨hj,hd⟩ := hw.committing j completed (hphase j completed hp)
    exact ⟨hj.mono h hk,hd.mono h.processed⟩
  · intro p c hc
    exact covered_mono h hk (hcursor p c hc)

/-- Nothing in work and nothing assigned. -/
theorem Working.idle (hinflight : s.inflight=[]) (hcursor : ∀ p, s.cursor p=none)
    (hphase : ∀ j completed, s.phase≠.committing j completed) : Working s := by
  refine ⟨by simp [hinflight],by simp [hinflight],by simp [hinflight],by simp [hinflight],
    by simp [hinflight],?_,?_⟩
  · exact fun j completed h => absurd h (hphase j completed)
  · intro p c h
    rw [hcursor] at h
    cases h

theorem Sound.frame (hs : Sound s) (h : Grows s t) (hcommitted : t.committed=s.committed)
    (hw : t.phase≠.closing → Working t) : Sound t := by
  refine ⟨?_,hw⟩
  rw [hcommitted]
  exact fun p => (hs.safe p).mono (fun _ ho => ho.mono h)

/-- The loop goes on, or leaves for its `finally` block. -/
theorem Sound.setPhase (hs : Sound s) {phase : Phase} (hp : s.phase≠.closing)
    (hnew : ∀ j completed, phase≠.committing j completed) : Sound { s with phase := phase } := by
  have hw := hs.working hp
  refine hs.frame (.of_eq rfl rfl) rfl fun _ => hw.frame (.of_eq rfl rfl) rfl rfl ?_ hw.cursor
  exact fun j completed h => absurd h (hnew j completed)

theorem Sound.closing (hs : Sound s) : Sound { s with phase := .closing } :=
  hs.frame (.of_eq rfl rfl) rfl (fun h => absurd rfl h)

theorem Sound.stop (hs : Sound s) : Sound s.stop := by
  refine hs.frame (.of_eq rfl rfl) rfl (fun _ => .idle rfl (fun _ => rfl) ?_)
  exact fun j completed h => Phase.noConfusion h

theorem Sound.setPaused (hs : Sound s) (paused : Bool) : Sound (s.setPaused paused) := by
  refine hs.frame (.of_eq rfl rfl) rfl fun hp => ?_
  have hw := hs.working hp
  refine hw.frame (.of_eq rfl rfl) rfl rfl (fun _ _ h => h) ?_
  intro p c hc
  obtain ⟨c',hc',rfl⟩ := Option.map_eq_some_iff.mp hc
  exact hw.cursor p c' hc'

theorem Sound.setCursor (hs : Sound s) {p : ℕ} {c : Option Cursor}
    (hc : ∀ c', c=some c' → Covered (Settled s p) (Pending s p) c'.position) :
    Sound (s.setCursor p c) := by
  refine hs.frame (.of_eq rfl rfl) rfl fun hp => ?_
  have hw := hs.working hp
  refine hw.frame (.of_eq rfl rfl) rfl rfl (fun _ _ h => h) ?_
  intro q c' hq
  have hq : Function.update s.cursor p c q=some c' := hq
  by_cases hqp : q=p
  · subst hqp
    rw [Function.update_self] at hq
    exact hc c' hq
  · rw [Function.update_of_ne hqp] at hq
    exact hw.cursor q c' hq

/-- Every partition of a new assignment was kept or starts unpaused at its committed offset. -/
lemma rebalance_cursor {assigned kept : List ℕ} {p : ℕ} {c : Cursor}
    (h : (s.rebalance assigned kept).cursor p=some c) :
    p ∈ assigned ∧ (c=⟨s.committed p,false⟩ ∨ s.cursor p=some c) := by
  simp only [State.rebalance] at h
  split at h
  · rename_i hp
    refine ⟨hp,?_⟩
    split at h
    · cases hc : s.cursor p with
      | none => rw [hc] at h; cases h; exact .inl rfl
      | some d => rw [hc] at h; exact .inr h
    · cases h
      exact .inl rfl
  · cases h

theorem Sound.rebalance (hs : Sound s) (assigned kept : List ℕ) :
    Sound (s.rebalance assigned kept) := by
  refine hs.frame (.of_eq rfl rfl) rfl fun hp => ?_
  have hw := hs.working hp
  refine hw.frame (.of_eq rfl rfl) rfl rfl (fun _ _ h => h) ?_
  intro p c hc
  obtain ⟨-,rfl | hkept⟩ := rebalance_cursor hc
  · exact (hs.safe p).covered
  · exact hw.cursor p c hkept

/-- The step of a task. -/
theorem Working.task (hw : Working s) {rt : Runtime} {sourceBucket artifactBucket : BucketName}
    {maxBytes id : ℕ} {a : Extractor.Action} {j : Job} {stores : Stores} {task : Task}
    (hj : s.inflight.find? (fun j => j.id=id)=some j)
    (h : Extractor.Transition rt sourceBucket artifactBucket maxBytes s.source s.stores j.task a
      stores task) :
    Working { s with
      stores := stores
      inflight := updateWhere (fun x => x.id=id) (fun x => { x with task := task }) s.inflight } := by
  let t : State := { s with
    stores := stores
    inflight := updateWhere (fun x => x.id=id) (fun x => { x with task := task }) s.inflight }
  have hin := List.mem_of_find?_eq_some hj
  have hid : j.id=id := of_decide_eq_true (List.find?_eq_some_iff_append.mp hj).1
  have hgrows : Grows s t := ⟨fun p => List.prefix_refl _,h.processedEvents⟩
  have hkeeps : Keeps s t := by
    intro p o hp
    obtain ⟨x,hx,hxp,hxo⟩ := hp
    refine .inr ⟨_,mem_updateWhere.mpr ⟨x,hx,rfl⟩,?_⟩
    split
    · exact ⟨hxp,hxo⟩
    · exact ⟨hxp,hxo⟩
  have hold : ∀ x ∈ t.inflight, x ∈ s.inflight ∨ x={ j with task := task } := by
    intro x hx
    obtain ⟨y,hy,hyx⟩ := mem_updateWhere.mp hx
    by_cases hyid : y.id=id
    · have hyj := eq_of_key_eq hw.ids hy hin (hyid.trans hid.symm)
      rw [if_pos (decide_eq_true hyid),hyj] at hyx
      exact .inr hyx.symm
    · rw [if_neg (by simpa using hyid)] at hyx
      exact .inl (hyx ▸ hy)
  refine ⟨?_,?_,?_,?_,?_,?_,?_⟩
  · have hids : t.inflight.map (·.id)=s.inflight.map (·.id) := by
      apply map_updateWhere
      intro x _
      rfl
    exact hids ▸ hw.ids
  · intro x hx
    cases hold x hx with
    | inl hx => exact hw.spawned x hx
    | inr hx => exact hx ▸ hw.spawned j hin
  · intro x hx
    cases hold x hx with
    | inl hx => exact (hw.tracked x hx).mono hgrows hkeeps
    | inr hx =>
      have hjt := (hw.tracked j hin).mono hgrows hkeeps
      rw [hx]
      exact ⟨hjt.message,hjt.covered⟩
  · intro x hx
    cases hold x hx with
    | inl hx => exact hw.payload x hx
    | inr hx =>
      rw [hx]
      exact h.payload _ _ _ _ (hw.payload j hin)
  · intro x hx p b ht
    cases hold x hx with
    | inl hx => exact (hw.returned x hx p b ht).mono hgrows.processed
    | inr hx =>
      rw [hx] at ht ⊢
      have hp := h.payload _ _ _ _ (hw.payload j hin)
      change task=.returned p b at ht
      subst ht
      have hpj : p=j.payload := Option.some.inj hp
      exact hpj ▸ h.processed
  · intro x completed hphase
    obtain ⟨hx,hd⟩ := hw.committing x completed hphase
    exact ⟨hx.mono hgrows hkeeps,hd.mono hgrows.processed⟩
  · intro p c hc
    exact covered_mono hgrows hkeeps (hw.cursor p c hc)

/-- A returned task is popped. -/
theorem Working.reap (hw : Working s) {id : ℕ} {completed : List ℕ} {j : Job} {p : DocumentFetched}
    {b : Bool} (hj : s.inflight.find? (fun j => j.id=id)=some j) (ht : j.task=.returned p b) :
    Working { s with
      inflight := s.inflight.filter (fun x => x.id≠id)
      phase := .committing j completed } := by
  let t : State := { s with
    inflight := s.inflight.filter (fun x => x.id≠id)
    phase := .committing j completed }
  have hin := List.mem_of_find?_eq_some hj
  have hid : j.id=id := of_decide_eq_true (List.find?_eq_some_iff_append.mp hj).1
  have hgrows : Grows s t := .of_eq rfl rfl
  have hprocessed := hw.returned j hin p b ht
  have hkeeps : Keeps s t := by
    intro q o hq
    obtain ⟨x,hx,rfl,rfl⟩ := hq
    by_cases hxid : x.id=id
    · have hxj := eq_of_key_eq hw.ids hx hin (hxid.trans hid.symm)
      subst hxj
      exact .inl ⟨x.payload,(hw.tracked x hx).message,hprocessed⟩
    · exact .inr ⟨x,List.mem_filter.mpr ⟨hx,by simpa using hxid⟩,rfl,rfl⟩
  have hsub : ∀ x ∈ t.inflight, x ∈ s.inflight := fun x hx => (List.mem_filter.mp hx).1
  refine ⟨?_,fun x hx => hw.spawned x (hsub x hx),
    fun x hx => (hw.tracked x (hsub x hx)).mono hgrows hkeeps,fun x hx => hw.payload x (hsub x hx),
    fun x hx => hw.returned x (hsub x hx),?_,fun q c hc => covered_mono hgrows hkeeps (hw.cursor q c hc)⟩
  · exact hw.ids.sublist (List.filter_sublist.map _)
  · intro x completed' hphase
    cases hphase
    exact ⟨(hw.tracked j hin).mono hgrows hkeeps,hprocessed⟩

/-- A message is polled and its task is created. -/
theorem Working.spawn (hw : Working s) {p position : ℕ} {payload : DocumentFetched}
    (hc : s.cursor p=some ⟨position,false⟩) (hm : (s.log p)[position]?=some (some payload)) :
    Working { (s.setCursor p (some ⟨position+1,false⟩)).spawn p position payload with
      phase := .collecting } := by
  let job : Job := ⟨s.spawned,p,position,payload,.started payload⟩
  let t : State := { (s.setCursor p (some ⟨position+1,false⟩)).spawn p position payload with
    phase := .collecting }
  have hgrows : Grows s t := .of_eq rfl rfl
  have hkeeps : Keeps s t := by
    intro q o hq
    obtain ⟨x,hx,hxq⟩ := hq
    exact .inr ⟨x,List.mem_append_left _ hx,hxq⟩
  have hat := covered_mono hgrows hkeeps (hw.cursor p _ hc)
  have hpending : Pending t p position :=
    ⟨job,List.mem_append_right _ (List.mem_singleton_self _),rfl,rfl⟩
  refine ⟨?_,?_,?_,?_,?_,?_,?_⟩
  · apply nodup_map_append_singleton hw.ids
    intro x hx
    have hlt := hw.spawned x hx
    change x.id≠s.spawned
    omega
  · intro x hx
    change x.id<s.spawned+1
    cases List.mem_append.mp hx with
    | inl hx =>
      have hlt := hw.spawned x hx
      omega
    | inr hx =>
      rw [List.mem_singleton.mp hx]
      exact Nat.lt_succ_self _
  · intro x hx
    cases List.mem_append.mp hx with
    | inl hx => exact (hw.tracked x hx).mono hgrows hkeeps
    | inr hx =>
      rw [List.mem_singleton.mp hx]
      exact ⟨hm,hat⟩
  · intro x hx
    cases List.mem_append.mp hx with
    | inl hx => exact hw.payload x hx
    | inr hx => rw [List.mem_singleton.mp hx]; rfl
  · intro x hx q b ht
    cases List.mem_append.mp hx with
    | inl hx => exact hw.returned x hx q b ht
    | inr hx =>
      rw [List.mem_singleton.mp hx] at ht
      cases ht
  · intro x completed hphase
    cases hphase
  · intro q c hq
    by_cases hqp : q=p
    · subst hqp
      have hq : Function.update s.cursor q (some ⟨position+1,false⟩) q=some c := hq
      rw [Function.update_self] at hq
      cases hq
      exact hat.succ hpending
    · have hq : Function.update s.cursor p (some ⟨position+1,false⟩) q=some c := hq
      rw [Function.update_of_ne hqp] at hq
      exact covered_mono hgrows hkeeps (hw.cursor q c hq)

theorem Sound.spawn (hs : Sound s) {p position : ℕ} {payload : DocumentFetched}
    (hp : s.phase=.polling) (hc : s.cursor p=some ⟨position,false⟩)
    (hm : (s.log p)[position]?=some (some payload)) :
    Sound { (s.setCursor p (some ⟨position+1,false⟩)).spawn p position payload with
      phase := .collecting } :=
  hs.frame (.of_eq rfl rfl) rfl (fun _ => (hs.working (by rw [hp]; simp)).spawn hc hm)

/-- A commit that overtakes nothing keeps the committed offsets safe. -/
theorem Sound.commit (hs : Sound s) {j : Job} {completed : List ℕ}
    (hphase : s.phase=.committing j completed)
    (ok : ∀ x ∈ s.inflight, x.partition=j.partition → x.offset<j.offset →
      Processed s.stores.db x.payload) (p : ℕ) :
    Library.Safe (Settled s p) ((s.commit j).committed p) := by
  have hw := hs.working (by rw [hphase]; simp)
  obtain ⟨hj,hd⟩ := hw.committing j completed hphase
  by_cases hp : p=j.partition
  · subst hp
    have hcommitted : (s.commit j).committed j.partition=j.offset+1 := Function.update_self ..
    rw [hcommitted]
    refine Library.Safe.succ (hj.covered.safe_iff.mpr ?_) ⟨j.payload,hj.message,hd⟩
    intro o ho hpending
    obtain ⟨x,hx,hxp,rfl⟩ := hpending
    exact ⟨x.payload,hxp ▸ (hw.tracked x hx).message,ok x hx hxp ho⟩
  · have hcommitted : (s.commit j).committed p=s.committed p := Function.update_of_ne hp ..
    rw [hcommitted]
    exact hs.safe p

/-- Any other commit that takes effect skips a message. -/
theorem Sound.skips (hs : Sound s) {j : Job} {completed : List ℕ}
    (hphase : s.phase=.committing j completed) {x : Job} (hx : x ∈ s.inflight)
    (hp : x.partition=j.partition) (ho : x.offset<j.offset) (hopen : ¬Processed s.stores.db x.payload)
    {phase : Phase} : ¬NothingSkipped { s.commit j with phase := phase } := by
  intro h
  have hw := hs.working (by rw [hphase]; simp)
  have hlt : x.offset<({ s.commit j with phase := phase } : State).committed x.partition := by
    change x.offset<Function.update s.committed j.partition (j.offset+1) x.partition
    rw [hp,Function.update_self]
    omega
  obtain ⟨payload,hpayload,hprocessed⟩ := h _ _ _ hlt (hw.tracked x hx).message
  have hpayload := Option.some.inj hpayload
  exact hopen (hpayload ▸ hprocessed)

lemma Sound.nothingSkipped (hs : Sound s) : NothingSkipped s := by
  intro p o value ho hm
  obtain ⟨payload,hm',hd⟩ := hs.safe p o ho
  exact ⟨payload,Option.some.inj (hm.symm.trans hm'),hd⟩

end

section
variable {rt : Runtime} {sourceBucket artifactBucket : BucketName} {maxBytes maxConcurrency : ℕ}
  {s t : State} {a : Action}

lemma Sound.initial (h : Initial s) : Sound s := by
  refine ⟨?_,fun _ => .idle h.inflight h.cursor (by simp [h.phase])⟩
  intro p o ho
  rw [h.committed] at ho
  omega

theorem sound_step (hs : Sound s) (ok : InOrder s a)
    (h : Transition rt sourceBucket artifactBucket maxBytes maxConcurrency s a t) : Sound t := by
  cases h with
  | produce =>
    rename_i p value
    have hgrows : Grows s { s with log := Function.update s.log p (s.log p ++ [value]) } := by
      refine ⟨?_,List.Subset.refl _⟩
      intro q
      by_cases hq : q=p
      · subst hq
        simp
      · simp [hq]
    refine hs.frame hgrows rfl fun hp => ?_
    exact (hs.working hp).frame hgrows rfl rfl (fun _ _ h => h) (hs.working hp).cursor
  | others hsub =>
    refine hs.frame ⟨fun _ => List.prefix_refl _,hsub⟩ rfl fun hp => ?_
    exact (hs.working hp).frame ⟨fun _ => List.prefix_refl _,hsub⟩ rfl rfl (fun _ _ h => h)
      (hs.working hp).cursor
  | start hp => exact hs.setPhase (by rw [hp]; simp) (by simp)
  | kill => exact hs.stop
  | task hj ht =>
    refine hs.frame ⟨fun _ => List.prefix_refl _,ht.processedEvents⟩ rfl fun hp => ?_
    exact (hs.working hp).task hj ht
  | collect hp => exact hs.setPhase (by rw [hp]; simp) (by simp)
  | reap hp hj ht =>
    refine hs.frame (.of_eq rfl rfl) rfl fun _ => ?_
    exact (hs.working (by rw [hp]; simp)).reap hj ht
  | reapFails => exact hs.frame (.of_eq rfl rfl) rfl (fun h => absurd rfl h)
  | commit hp hf =>
    rename_i j completed fault
    have ok : fault=.before ∨ ∀ x ∈ s.inflight, x.partition=j.partition → x.offset<j.offset →
        Processed s.stores.db x.payload := by
      simp only [InOrder,hp] at ok
      exact ok
    have hw := hs.working (by rw [hp]; simp)
    refine ⟨hs.commit hp (ok.resolve_left hf),fun _ => ?_⟩
    refine hw.frame (.of_eq rfl rfl) rfl rfl ?_ hw.cursor
    intro j completed hp
    split at hp
    · cases hp
    · cases hp
  | commitFails => exact hs.closing
  | resume hp => exact (hs.setPaused false).setPhase (by rw [State.setPaused,hp]; simp) (by simp)
  | resumeNothing hp => exact hs.setPhase (by rw [hp]; simp) (by simp)
  | assign =>
    refine hs.setCursor ?_
    intro c hc
    cases hc
    exact (hs.safe _).covered
  | revoke =>
    refine hs.setCursor ?_
    intro c hc
    cases hc
  | pollNothing hp => exact hs.setPhase (by rw [hp]; simp) (by simp)
  | pollError => exact hs.closing
  | undecodable => exact hs.closing
  | poll hp hc hm => exact hs.spawn hp hc hm
  | pollLast hp hc hm => exact (hs.spawn hp hc hm).setPaused true
  | pollRebalanced hp hc hm => exact (hs.spawn hp hc hm).rebalance _ _
  | pollRebalancedLast hp hc hm => exact ((hs.spawn hp hc hm).rebalance _ _).setPaused true
  | close => exact hs.stop

theorem sound_reach
    (h : (system rt sourceBucket artifactBucket maxBytes maxConcurrency).Reach InOrder s) : Sound s :=
  h.invariant (fun _ => .initial)
    (fun _ _ _ hs ok ha => sound_step hs ok (transition_of_step rt _ _ _ _ ha))

end
end RagIngestion.Extractor.MainLoop
