import RagIngestion.Kafka.Topics

/-! What a bootstrap does on a broker with any topics and next to any other bootstraps: it returns
exactly when its listing lacks a declared topic, and once one has returned no later one does. -/
namespace RagIngestion.Kafka
open RagIngestion.Python RagIngestion.Domain RagIngestion.Library

/-- The call makes its last attempt. -/
def Call.lastAttempt (x : Call) : Bool :=
  match x.phase with
  | .listing attempt => decide (x.attempts ≤ attempt+1)
  | _ => false

/-- The only failures are exceptions of `list_topics`, fewer than the attempts. -/
def Transient (s : State) : Action → Prop
  | .list b raises => raises=true → (s.call b).lastAttempt=false
  | .create _ raises => raises=false
  | .answer _ _ refuses => refuses=false
  | _ => True

instance (s : State) : ∀ a, Decidable (Transient s a)
  | .list b raises => inferInstanceAs (Decidable (raises=true → (s.call b).lastAttempt=false))
  | .create _ raises => inferInstanceAs (Decidable (raises=false))
  | .answer _ _ refuses => inferInstanceAs (Decidable (refuses=false))
  | .start .. | .await .. | .other .. => inferInstanceAs (Decidable True)

/-- The call an action belongs to. -/
def Action.call? : Action → Option ℕ
  | .start b _ _ _ => some b
  | .list b _ => some b
  | .create b _ => some b
  | .answer b _ _ => some b
  | .await b => some b
  | .other .. => none

lemma topics_update {topics : PyStr → Option TopicSettings} {name new : PyStr}
    {settings : TopicSettings} (hnew : topics new=none) (h : topics name=some settings)
    (created : TopicSettings) :
    Function.update topics new (some created) name=some settings := by
  have hne : name≠new := by
    rintro rfl
    rw [h] at hnew
    cases hnew
  rw [Function.update_of_ne hne,h]

/-- A topic that exists keeps its settings. -/
theorem topics_kept {s t : State} {a : Action} (h : step s a=some t) {name : PyStr}
    {settings : TopicSettings} (hx : s.topics name=some settings) : t.topics name=some settings := by
  cases transition_of_step h with
  | created _ ht => exact topics_update ht hx _
  | other ht => exact topics_update ht hx _
  | _ => exact hx

lemma topics_isSome {s t : State} {a : Action} (h : step s a=some t) {name : PyStr}
    (hx : (s.topics name).isSome) : (t.topics name).isSome := by
  obtain ⟨settings,hx⟩ := Option.isSome_iff_exists.mp hx
  rw [topics_kept h hx]
  rfl

theorem call_other {s t : State} {a : Action} (h : step s a=some t) {b : ℕ} (hb : a.call?≠some b) :
    t.call b=s.call b := by
  cases transition_of_step h with
  | other => rfl
  | _ =>
    have hne : b≠_ := fun heq => hb (congrArg some heq.symm)
    simp [State.setPhase,State.setCall,Function.update_of_ne hne]

lemma mem_missingTopics {topics : PyStr → Option TopicSettings} {spec : TopicSpec} :
    spec ∈ missingTopics topics ↔ spec ∈ pipelineTopicSpecs ∧ topics spec.name=none := by
  simp [missingTopics]

lemma missingTopics_eq_nil_iff {topics : PyStr → Option TopicSettings} :
    missingTopics topics=[] ↔ ∀ spec ∈ pipelineTopicSpecs, (topics spec.name).isSome := by
  rw [missingTopics,List.filter_eq_nil_iff]
  refine forall₂_congr (fun spec _ => ?_)
  cases topics spec.name <;> simp

/-- Where the loop over the futures returns, the broker has answered for every topic. -/
lemma awaitFutures_ok {futures : List (TopicSpec × Option Answer)}
    (h : awaitFutures futures=some (.ok ())) : ∀ f ∈ futures, f.2≠none := by
  fun_induction awaitFutures futures with
  | case1 => simp
  | case2 => cases h
  | case3 => cases h
  | case4 f futures hnone hrefused ih =>
    intro g hg
    cases List.mem_cons.mp hg with
    | inl hg => rw [hg]; intro hf; exact hnone f.1 (Prod.ext rfl hf)
    | inr hg => exact ih h g hg

/-- Where it raises, the broker has refused one. -/
lemma awaitFutures_error {futures : List (TopicSpec × Option Answer)} {e : BootstrapError}
    (h : awaitFutures futures=some (.error e)) : ∃ f ∈ futures, f.2=some .refused := by
  fun_induction awaitFutures futures with
  | case1 => cases h
  | case2 => cases h
  | case3 spec futures => exact ⟨_,List.mem_cons_self,rfl⟩
  | case4 f futures _ _ ih =>
    obtain ⟨g,hg,hrefused⟩ := ih h
    exact ⟨g,List.mem_cons_of_mem _ hg,hrefused⟩

section
variable (b : ℕ) (history : List (State × Action))

/-- The listing of a call has been answered, and lacked these topics. -/
def Listed (missing : List TopicSpec) : Prop :=
  (∃ u, (u,.list b false) ∈ history) ∧ ∀ u, (u,.list b false) ∈ history → missingTopics u.topics=missing

def Unlisted : Prop := ∀ u, (u,.list b false) ∉ history

/-- What the place of a call in the code tells about its listing. -/
def Told (x : Call) : Prop :=
  match x.phase with
  | .waiting => Unlisted b history ∧ x.futures=[]
  | .listing attempt => Unlisted b history ∧ x.futures=[] ∧ attempt<x.attempts ∧
      0<x.partitions ∧ 0<x.replicationFactor
  | .creating _ missing => Listed b history missing ∧ x.futures=[]
  | .awaiting => Listed b history (x.futures.map Prod.fst) ∧ x.futures≠[]
  | .returned names => Listed b history (x.futures.map Prod.fst) ∧ x.futures≠[] ∧
      names=pipelineTopicNames ∧ ∀ f ∈ x.futures, f.2≠none
  | .raised .noTopics => Listed b history [] ∧ x.futures=[]
  | .raised .notPositive => x.futures=[] ∧ ¬(0<x.partitions ∧ 0<x.replicationFactor)
  | .raised .exhausted => x.futures=[] ∧ x.attempts ≤ 0
  | .raised _ => False

end

variable {b : ℕ} {history : List (State × Action)} {s t : State} {a : Action}

lemma Listed.snoc {missing : List TopicSpec} (h : Listed b history missing) (ha : a≠.list b false) :
    Listed b (history ++ [(s,a)]) missing := by
  obtain ⟨⟨u,hu⟩,hall⟩ := h
  refine ⟨⟨u,List.mem_append_left _ hu⟩,?_⟩
  intro v hv
  cases List.mem_append.mp hv with
  | inl hv => exact hall v hv
  | inr hv => cases List.mem_singleton.mp hv; exact absurd rfl ha

lemma Unlisted.snoc (h : Unlisted b history) (ha : a≠.list b false) :
    Unlisted b (history ++ [(s,a)]) := by
  intro u hu
  cases List.mem_append.mp hu with
  | inl hu => exact h u hu
  | inr hu => cases List.mem_singleton.mp hu; exact ha rfl

lemma Unlisted.listed (h : Unlisted b history) :
    Listed b (history ++ [(s,.list b false)]) (missingTopics s.topics) := by
  refine ⟨⟨s,by simp⟩,?_⟩
  intro u hu
  cases List.mem_append.mp hu with
  | inl hu => exact absurd hu (h u)
  | inr hu => cases List.mem_singleton.mp hu; rfl

lemma Told.snoc {x : Call} (h : Told b history x) (ha : a≠.list b false) :
    Told b (history ++ [(s,a)]) x := by
  unfold Told at h ⊢
  split at h
  · exact ⟨h.1.snoc ha,h.2⟩
  · exact ⟨h.1.snoc ha,h.2⟩
  · exact ⟨h.1.snoc ha,h.2⟩
  · exact ⟨h.1.snoc ha,h.2⟩
  · exact ⟨h.1.snoc ha,h.2⟩
  · exact ⟨h.1.snoc ha,h.2⟩
  · exact h
  · exact h
  · exact h

/-- The broker has not refused anything, and what it has answered for exists. -/
def Answered (topics : PyStr → Option TopicSettings) (futures : List (TopicSpec × Option Answer)) : Prop :=
  ∀ f ∈ futures, f.2≠some .refused ∧ (f.2≠none → (topics f.1.name).isSome)

lemma Answered.mono {futures : List (TopicSpec × Option Answer)} (h : Answered s.topics futures)
    (ha : step s a=some t) : Answered t.topics futures :=
  fun f hf => ⟨(h f hf).1,fun hf' => topics_isSome ha ((h f hf).2 hf')⟩

/-- A future that gets its answer. -/
lemma Answered.set {topics : PyStr → Option TopicSettings} {futures : List (TopicSpec × Option Answer)}
    (h : Answered topics futures) (i : ℕ) {spec : TopicSpec} {answer : Answer} (hr : answer≠.refused)
    (ht : (topics spec.name).isSome) : Answered topics (futures.set i (spec,some answer)) := by
  intro f hf
  cases List.mem_or_eq_of_mem_set hf with
  | inl hf => exact h f hf
  | inr hf => rw [hf]; exact ⟨fun heq => hr (Option.some.inj heq),fun _ => ht⟩

/-- The place of the call in the code does not change with an answer. -/
lemma Told.answered {x : Call} (h : Told b history x) {i : ℕ} {spec : TopicSpec}
    (hi : x.futures[i]?=some (spec,none)) (answer : Answer) :
    Told b history { x with futures := x.futures.set i (spec,some answer) } := by
  have hmem : (spec,none) ∈ x.futures := List.mem_of_getElem? hi
  have hmap : (x.futures.set i (spec,some answer)).map Prod.fst=x.futures.map Prod.fst := by
    obtain ⟨hlt,hget⟩ := List.getElem?_eq_some_iff.mp hi
    have hlt' : i<(x.futures.map Prod.fst).length := by simpa using hlt
    have hspec : spec=(x.futures.map Prod.fst)[i] := by simp [hget]
    rw [List.map_set,hspec]
    exact List.set_getElem_self _
  have hne : x.futures≠[] := List.ne_nil_of_mem hmem
  unfold Told at h ⊢
  dsimp only
  split at h
  · exact absurd h.2 hne
  · exact absurd h.2.1 hne
  · exact absurd h.2 hne
  · exact ⟨hmap ▸ h.1,by simpa using hne⟩
  · exact absurd rfl (h.2.2.2 _ hmem)
  · exact absurd h.2 hne
  · exact absurd h.1 hne
  · exact absurd h.1 hne
  · exact h

/-- What is known of a call after a history of steps that fail only as they may. -/
structure Progress (b : ℕ) (history : List (State × Action)) (s : State) : Prop where
  told : Told b history (s.call b)
  answered : Answered s.topics (s.call b).futures

lemma Progress.other (h : Progress b history s) (ha : step s a=some t) (hb : a.call?≠some b) :
    Progress b (history ++ [(s,a)]) t := by
  have hlist : a≠.list b false := by
    rintro rfl
    exact hb rfl
  have hsame := call_other ha hb
  exact ⟨hsame ▸ h.told.snoc hlist,hsame ▸ h.answered.mono ha⟩

/-- A step of the call that changes its place in the code only. -/
lemma Progress.setPhase {more : List (State × Action)} {phase : Phase} (h : Progress b history s)
    (told : Told b more { s.call b with phase := phase }) : Progress b more (s.setPhase b phase) := by
  refine ⟨?_,?_⟩
  · rw [State.setPhase,State.setCall_call]
    exact told
  · rw [State.setPhase,State.setCall_call]
    exact h.answered

/-- After a failure that is not the last one allowed the loop goes on. -/
lemma Call.retry_of_more {x : Call} {attempt : ℕ} (h : (attempt+1 : ℤ)<x.attempts) :
    x.retry attempt=.listing (attempt+1) := by
  rw [Call.retry,if_neg (by omega),Call.loop,if_pos (by push_cast; omega)]

/-- A call begins with its first attempt, if its arguments allow one. -/
lemma told_start {x : Call} {more : List (State × Action)} (hlist : Unlisted b more)
    (hfutures : x.futures=[]) : Told b more { x with
      phase := if x.partitions<1 ∨ x.replicationFactor<1 then .raised .notPositive else x.loop 0 } := by
  by_cases hargs : x.partitions<1 ∨ x.replicationFactor<1
  · simp only [if_pos hargs,Told]
    exact ⟨hfutures,by omega⟩
  · simp only [if_neg hargs,Call.loop]
    by_cases hattempts : 0<x.attempts
    · simp only [Nat.cast_zero,if_pos hattempts,Told]
      exact ⟨hlist,hfutures,hattempts,by omega,by omega⟩
    · simp only [Nat.cast_zero,if_neg hattempts,Told]
      exact ⟨hfutures,by omega⟩

/-- A step of the call itself. -/
lemma Progress.own (h : Progress b history s) (ha : step s a=some t) (hallowed : Transient s a)
    (hb : a.call?=some b) : Progress b (history ++ [(s,a)]) t := by
  have htold := h.told
  cases transition_of_step ha with
  | other => cases hb
  | start hp hx =>
    cases Option.some.inj hb
    simp only [Told,hp] at htold
    subst hx
    refine ⟨?_,by simp [Answered]⟩
    rw [State.setCall_call]
    exact told_start (htold.1.snoc (by simp)) rfl
  | @listFails _ attempt hp =>
    cases Option.some.inj hb
    simp only [Told,hp] at htold
    have hmore := hallowed rfl
    simp only [Call.lastAttempt,hp,decide_eq_false_iff_not,not_le] at hmore
    rw [Call.retry_of_more hmore]
    exact h.setPhase ⟨htold.1.snoc (by simp),htold.2.1,by push_cast; omega,htold.2.2.2⟩
  | listed hp =>
    cases Option.some.inj hb
    simp only [Told,hp] at htold
    exact h.setPhase ⟨htold.1.listed,htold.2.1⟩
  | createNone hp =>
    cases Option.some.inj hb
    simp only [Told,hp] at htold
    exact h.setPhase ⟨htold.1.snoc (by simp),htold.2⟩
  | createFails => cases hallowed
  | @create _ attempt missing hp hm =>
    cases Option.some.inj hb
    simp only [Told,hp] at htold
    refine ⟨?_,?_⟩
    · rw [State.setCall_call]
      have hmap : (missing.map (fun spec => (spec,(none : Option Answer)))).map Prod.fst=missing := by
        simp [Function.comp_def]
      exact ⟨hmap.symm ▸ htold.1.snoc (by simp),by simpa using hm⟩
    · rw [State.setCall_call]
      intro f hf
      obtain ⟨spec,-,rfl⟩ := List.mem_map.mp hf
      simp
  | refused => cases hallowed
  | alreadyExists hi ht =>
    cases Option.some.inj hb
    refine ⟨?_,?_⟩
    · rw [State.setCall_call]
      exact (htold.snoc (by simp)).answered hi _
    · rw [State.setCall_call]
      exact h.answered.set _ (by simp) (by rw [ht]; rfl)
  | created hi ht =>
    cases Option.some.inj hb
    refine ⟨?_,?_⟩
    · rw [State.setCall_call]
      exact (htold.snoc (by simp)).answered hi _
    · rw [State.setCall_call]
      exact (h.answered.mono ha).set _ (by simp) (by simp)
  | returned hp hf =>
    cases Option.some.inj hb
    simp only [Told,hp] at htold
    exact h.setPhase ⟨htold.1.snoc (by simp),htold.2,rfl,awaitFutures_ok hf⟩
  | awaitFails hp hf =>
    cases Option.some.inj hb
    obtain ⟨f,hmem,hrefused⟩ := awaitFutures_error hf
    exact absurd hrefused (h.answered f hmem).1

theorem progress_of_traced (h : system.Traced history s)
    (hallowed : ∀ x ∈ history, Transient x.1 x.2) (b : ℕ) : Progress b history s := by
  refine System.Traced.invariant (I := fun history s =>
    (∀ x ∈ history, Transient x.1 x.2) → Progress b history s) ?_ ?_ h hallowed
  · intro s hs _
    obtain ⟨hphase,hfutures⟩ := hs b
    refine ⟨?_,by simp [Answered,hfutures]⟩
    simp only [Told,hphase]
    exact ⟨fun u => List.not_mem_nil,hfutures⟩
  · intro history s a t ih ha hall
    have hbefore := ih (fun x hx => hall x (List.mem_append_left _ hx))
    by_cases hb : a.call?=some b
    · exact hbefore.own ha (hall (s,a) (by simp)) hb
    · exact hbefore.other ha hb

/-- Topics that existed at some point of a run keep their settings to its end. -/
theorem topics_kept_of_traced (h : system.Traced history s) {u : State} {a : Action}
    (hu : (u,a) ∈ history) {name : PyStr} {settings : TopicSettings}
    (hx : u.topics name=some settings) : s.topics name=some settings :=
  h.kept (P := fun s => s.topics name=some settings) (fun _ _ _ hs ha => topics_kept ha hs) hu hx

/-- Where a call has returned, every declared topic exists. -/
lemma Progress.declared (h : system.Traced history s) (hp : Progress b history s) {names : List PyStr}
    (hr : (s.call b).phase=.returned names) : ∀ spec ∈ pipelineTopicSpecs, (s.topics spec.name).isSome := by
  have htold := hp.told
  simp only [Told,hr] at htold
  obtain ⟨⟨⟨u,hu⟩,hlisted⟩,-,-,hanswered⟩ := htold
  intro spec hspec
  cases hx : u.topics spec.name with
  | none =>
    have hmissing : spec ∈ (s.call b).futures.map Prod.fst := by
      rw [← hlisted u hu]
      exact mem_missingTopics.mpr ⟨hspec,hx⟩
    obtain ⟨f,hf,rfl⟩ := List.mem_map.mp hmissing
    exact (hp.answered f hf).2 (hanswered f hf)
  | some settings =>
    rw [topics_kept_of_traced h hu hx]
    rfl

/-- A call that has ended has returned all names where its listing lacked a topic, and otherwise has
raised over the empty request. -/
lemma Told.ended {x : Call} (h : Told b history x) (hended : x.phase.Ended)
    (hpositive : 0<x.partitions ∧ 0<x.replicationFactor) (hattempts : 1 ≤ x.attempts) :
    (x.phase=.returned pipelineTopicNames ∧ ∃ missing, Listed b history missing ∧ missing≠[]) ∨
      x.phase=.raised .noTopics ∧ Listed b history [] := by
  unfold Told at h
  split at h <;> rename_i hphase
  · rw [hphase] at hended; exact hended.elim
  · rw [hphase] at hended; exact hended.elim
  · rw [hphase] at hended; exact hended.elim
  · rw [hphase] at hended; exact hended.elim
  · obtain ⟨hlisted,hne,rfl,-⟩ := h
    exact .inl ⟨hphase,_,hlisted,by simpa using hne⟩
  · exact .inr ⟨hphase,h.1⟩
  · exact absurd hpositive h.2
  · omega
  · exact h.elim

/-- Where a call that can only find every declared topic stands. -/
def Phase.Late : Phase → Prop
  | .creating _ missing => missing=[]
  | .awaiting => False
  | .returned _ => False
  | _ => True

lemma Call.loop_late (x : Call) (attempt : ℕ) : (x.loop attempt).Late := by
  unfold Call.loop
  split <;> trivial

lemma Call.retry_late (x : Call) (attempt : ℕ) : (x.retry attempt).Late := by
  unfold Call.retry
  split
  · trivial
  · exact x.loop_late _

/-- Once every declared topic exists, a call that has not found one missing never does. -/
lemma late_step {c : ℕ} (hexist : ∀ spec ∈ pipelineTopicSpecs, (s.topics spec.name).isSome)
    (h : (s.call c).phase.Late) (ha : step s a=some t) : (t.call c).phase.Late := by
  by_cases hc : a.call?=some c
  · cases transition_of_step ha with
    | other => cases hc
    | start =>
      cases Option.some.inj hc
      rw [State.setCall_call]
      dsimp only
      split
      · trivial
      · exact Call.loop_late _ _
    | listFails =>
      cases Option.some.inj hc
      rw [State.setPhase,State.setCall_call]
      exact Call.retry_late _ _
    | listed =>
      cases Option.some.inj hc
      rw [State.setPhase,State.setCall_call]
      exact missingTopics_eq_nil_iff.mpr hexist
    | createNone =>
      cases Option.some.inj hc
      rw [State.setPhase,State.setCall_call]
      trivial
    | createFails hp hm => cases Option.some.inj hc; rw [hp] at h; exact absurd h hm
    | create hp hm => cases Option.some.inj hc; rw [hp] at h; exact absurd h hm
    | returned hp => cases Option.some.inj hc; rw [hp] at h; exact h.elim
    | awaitFails hp => cases Option.some.inj hc; rw [hp] at h; exact h.elim
    | _ =>
      -- an answer of the broker leaves the call where it is
      cases Option.some.inj hc
      rw [State.setCall_call]
      exact h
  · rw [call_other ha hc]
    exact h

/-- A bootstrap returns all names, over existing topics, exactly when its listing lacks a declared
topic; nothing changes the topics that exist, the loop does not run out, and once a bootstrap has
returned no other one that is made later does. -/
theorem bootstrap_returns_iff (h : system.Traced history s)
    (hallowed : ∀ x ∈ history, Transient x.1 x.2) (b : ℕ) (hended : (s.call b).phase.Ended)
    (hpartitions : 0<(s.call b).partitions) (hreplication : 0<(s.call b).replicationFactor)
    (hattempts : 1 ≤ (s.call b).attempts) :
    ((s.call b).phase=.returned pipelineTopicNames ∧
        (∀ spec ∈ pipelineTopicSpecs, (s.topics spec.name).isSome) ↔
      ∃ u spec, (u,.list b false) ∈ history ∧ spec ∈ pipelineTopicSpecs ∧ u.topics spec.name=none) ∧
    (∀ u a name settings, (u,a) ∈ history → u.topics name=some settings →
      s.topics name=some settings) ∧
    (s.call b).phase≠.raised .exhausted ∧
    ∀ names, (s.call b).phase=.returned names → ∀ c as t, (s.call c).phase=.waiting →
      system.run s as=some t → ∀ names, (t.call c).phase≠.returned names := by
  have hp := progress_of_traced h hallowed b
  have hends := hp.told.ended hended ⟨hpartitions,hreplication⟩ hattempts
  refine ⟨?_,fun u a name settings hu hx => topics_kept_of_traced h hu hx,?_,?_⟩
  · obtain ⟨hphase,missing,⟨⟨u,hu⟩,hlisted⟩,hne⟩ | ⟨hphase,-,hlisted⟩ := hends
    · refine iff_of_true ⟨hphase,hp.declared h hphase⟩ ?_
      obtain ⟨spec,hspec⟩ := List.exists_mem_of_ne_nil missing hne
      rw [← hlisted u hu] at hspec
      obtain ⟨hspec,hmissing⟩ := mem_missingTopics.mp hspec
      exact ⟨u,spec,hu,hspec,hmissing⟩
    · refine iff_of_false (by simp [hphase]) ?_
      rintro ⟨u,spec,hu,hspec,hmissing⟩
      have hmem := mem_missingTopics.mpr ⟨hspec,hmissing⟩
      rw [hlisted u hu] at hmem
      cases hmem
  · obtain ⟨hphase,-⟩ | ⟨hphase,-⟩ := hends
    · simp [hphase]
    · simp [hphase]
  · intro names hphase c as t hc hrun names' hreturned
    have hlate : (∀ spec ∈ pipelineTopicSpecs, (t.topics spec.name).isSome) ∧
        (t.call c).phase.Late := by
      refine System.run_invariant (I := fun t =>
        (∀ spec ∈ pipelineTopicSpecs, (t.topics spec.name).isSome) ∧ (t.call c).phase.Late) ?_ ?_ hrun
      · intro s a t hs ha
        exact ⟨fun spec hspec => topics_isSome ha (hs.1 spec hspec),late_step hs.1 hs.2 ha⟩
      · exact ⟨hp.declared h hphase,by rw [hc]; trivial⟩
    have hphase' := hlate.2
    rw [hreturned] at hphase'
    exact hphase'

/-- A broker with some topics, and no call. -/
def broker (topics : PyStr → Option TopicSettings) : State :=
  ⟨topics,fun _ => ⟨0,0,0,.waiting,[]⟩⟩

lemma broker_initial (topics : PyStr → Option TopicSettings) : system.init (broker topics) :=
  fun _ => ⟨rfl,rfl⟩

/-- A bootstrap on an empty broker; its first listing fails. -/
def firstBootstrap : List Action :=
  [.start 0 3 1 30,.list 0 true,.list 0 false,.create 0 false] ++
    (List.range 16).map (fun i => .answer 0 i false) ++ [.await 0]

theorem empty_broker_provisioned : ∃ history s, system.Traced history s ∧
    (s.call 0).phase=.returned pipelineTopicNames ∧
      ((s.call 0).phase=.returned pipelineTopicNames ∧
          (∀ spec ∈ pipelineTopicSpecs, (s.topics spec.name).isSome) ↔
        ∃ u spec, (u,.list 0 false) ∈ history ∧ spec ∈ pipelineTopicSpecs ∧ u.topics spec.name=none) := by
  have hrun : (system.runIf Transient (broker (fun _ => none)) firstBootstrap).any (fun s =>
      decide (0<(s.call 0).partitions ∧ 0<(s.call 0).replicationFactor ∧ 1 ≤ (s.call 0).attempts) &&
        (match (s.call 0).phase with
          | .returned names => decide (names=pipelineTopicNames)
          | _ => false))=true := by decide +kernel
  obtain ⟨s,hrun,hs⟩ := (Option.any_eq_true _ _).mp hrun
  obtain ⟨history,htraced,hallowed⟩ := System.traced_of_runIf (broker_initial _) hrun
  rw [Bool.and_eq_true,decide_eq_true_eq] at hs
  obtain ⟨⟨hpartitions,hreplication,hattempts⟩,hphase⟩ := hs
  have hreturned : (s.call 0).phase=.returned pipelineTopicNames := by
    split at hphase
    · rename_i hp
      rw [hp,of_decide_eq_true hphase]
    · cases hphase
  have hended : (s.call 0).phase.Ended := by
    rw [hreturned]
    trivial
  exact ⟨history,s,htraced,hreturned,
    (bootstrap_returns_iff htraced hallowed 0 hended hpartitions hreplication hattempts).1⟩

/-- On a broker that has every declared topic a bootstrap raises. -/
theorem provisioned_broker_raises : ¬∀ history s, system.Traced history s →
    (∀ x ∈ history, Transient x.1 x.2) → ∀ b, (s.call b).phase.Ended → 0<(s.call b).partitions →
      0<(s.call b).replicationFactor → 1 ≤ (s.call b).attempts →
        (s.call b).phase=.returned pipelineTopicNames := by
  intro hall
  have hrun : (system.runIf Transient (broker (fun _ => some ⟨3,1,[]⟩))
      [.start 0 3 1 30,.list 0 false,.create 0 false]).any (fun s =>
        decide (0<(s.call 0).partitions ∧ 0<(s.call 0).replicationFactor ∧ 1 ≤ (s.call 0).attempts) &&
          (match (s.call 0).phase with
            | .raised .noTopics => true
            | _ => false))=true := by decide +kernel
  obtain ⟨s,hrun,hs⟩ := (Option.any_eq_true _ _).mp hrun
  obtain ⟨history,htraced,hallowed⟩ := System.traced_of_runIf (broker_initial _) hrun
  rw [Bool.and_eq_true,decide_eq_true_eq] at hs
  obtain ⟨⟨hpartitions,hreplication,hattempts⟩,hphase⟩ := hs
  split at hphase
  · rename_i hp
    have hreturned := hall history s htraced hallowed 0 (by rw [hp]; trivial) hpartitions hreplication
      hattempts
    rw [hp] at hreturned
    cases hreturned
  · cases hphase

end RagIngestion.Kafka
