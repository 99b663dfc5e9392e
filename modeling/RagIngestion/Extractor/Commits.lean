import RagIngestion.Extractor.InOrder
import RagIngestion.Extractor.TableCells

/-! Which settings let a message overtake another: with one task at a time every commit is in
order, with more tasks it need not be. -/
namespace RagIngestion.Extractor.MainLoop
open RagIngestion.Python RagIngestion.Domain RagIngestion.Database RagIngestion.Storage
open RagIngestion.Library

section
variable {rt : Runtime} {sourceBucket artifactBucket : BucketName} {maxBytes : ℕ}
  {s t : State} {a : Action}

/-- With one task at a time: no message in work or about to be committed is above an unprocessed
one in work, and neither is the next one to be polled. -/
structure Single (s : State) : Prop where
  behind : ∀ x ∈ s.inflight, ¬Processed s.stores.db x.payload →
    ∀ y, (y ∈ s.inflight ∨ ∃ completed, s.phase=.committing y completed) →
      y.partition=x.partition → y.offset ≤ x.offset
  ahead : ∀ x ∈ s.inflight, ¬Processed s.stores.db x.payload →
    ∀ c, s.cursor x.partition=some c → c.paused=false → c.position ≤ x.offset

theorem Single.frame (h : Single s) (hgrows : Grows s t)
    (hinflight : ∀ y ∈ t.inflight, ∃ x ∈ s.inflight, x.partition=y.partition ∧ x.offset=y.offset ∧
      x.payload=y.payload)
    (hphase : ∀ y completed, t.phase=.committing y completed →
      y ∈ s.inflight ∨ ∃ completed, s.phase=.committing y completed)
    (hcursor : ∀ p c, t.cursor p=some c → c.paused=false → ∃ c', s.cursor p=some c' ∧
      c'.paused=false ∧ c.position=c'.position) : Single t := by
  have hopen : ∀ {p}, ¬Processed t.stores.db p → ¬Processed s.stores.db p :=
    fun h hp => h (hp.mono hgrows.processed)
  refine ⟨?_,?_⟩
  · intro x hx hxopen y hy hxy
    obtain ⟨x',hx',hp,ho,hpayload⟩ := hinflight x hx
    have hx'open := hopen hxopen
    rw [← hpayload] at hx'open
    rw [← ho]
    cases hy with
    | inl hy =>
      obtain ⟨y',hy',hyp,hyo,-⟩ := hinflight y hy
      rw [← hyo]
      exact h.behind x' hx' hx'open y' (.inl hy') (hyp.trans (hxy.trans hp.symm))
    | inr hy =>
      obtain ⟨completed,hy⟩ := hy
      exact h.behind x' hx' hx'open y (hphase y completed hy) (hxy.trans hp.symm)
  · intro x hx hxopen c hc hpaused
    obtain ⟨x',hx',hp,ho,hpayload⟩ := hinflight x hx
    have hx'open := hopen hxopen
    rw [← hpayload] at hx'open
    obtain ⟨c',hc',hpaused',hpos⟩ := hcursor x.partition c hc hpaused
    rw [← ho,hpos]
    exact h.ahead x' hx' hx'open c' (hp ▸ hc') hpaused'

theorem Single.idle (h : s.inflight=[]) : Single s := by
  refine ⟨?_,?_⟩
  · intro x hx
    rw [h] at hx
    cases hx
  · intro x hx
    rw [h] at hx
    cases hx

lemma Single.setPhase (h : Single s) {phase : Phase}
    (hp : ∀ y completed, phase=.committing y completed →
      y ∈ s.inflight ∨ ∃ completed, s.phase=.committing y completed) :
    Single { s with phase := phase } :=
  h.frame (.of_eq rfl rfl) (fun y hy => ⟨y,hy,rfl,rfl,rfl⟩) hp (fun _ c hc hf => ⟨c,hc,hf,rfl⟩)

/-- A message is polled, and every partition assigned after it is paused. -/
theorem Single.poll (h : Single s) (hw : Working s) {p position : ℕ} {payload : DocumentFetched}
    (hc : s.cursor p=some ⟨position,false⟩) (hm : (s.log p)[position]?=some (some payload))
    {cursor : ℕ → Option Cursor} (hpaused : ∀ q c, cursor q=some c → c.paused=true) (paused : Bool) :
    Single { s.spawn p position payload with
      phase := .collecting
      paused := paused
      cursor := cursor } := by
  refine ⟨?_,?_⟩
  · intro x hx hxopen y hy hxy
    have hy : y ∈ s.inflight ++ [(⟨s.spawned,p,position,payload,.started payload⟩ : Job)] := by
      cases hy with
      | inl hy => exact hy
      | inr hy =>
        obtain ⟨completed,hy⟩ := hy
        cases hy
    cases List.mem_append.mp hx with
    | inl hx =>
      cases List.mem_append.mp hy with
      | inl hy => exact h.behind x hx hxopen y (.inl hy) hxy
      | inr hy =>
        rw [List.mem_singleton.mp hy] at hxy ⊢
        have hxy : p=x.partition := hxy
        exact h.ahead x hx hxopen _ (hxy ▸ hc) rfl
    | inr hx =>
      rw [List.mem_singleton.mp hx] at hxopen hxy ⊢
      cases List.mem_append.mp hy with
      | inl hy =>
        -- below a message in work nothing is both unprocessed and without a task
        by_contra hlt
        have hlt : position<y.offset := not_le.mp hlt
        have hyp : y.partition=p := hxy
        cases (hw.tracked y hy).covered position hlt with
        | inl hsettled =>
          obtain ⟨payload',hm',hd⟩ := hsettled
          rw [hyp,hm] at hm'
          have hsame := Option.some.inj (Option.some.inj hm')
          exact hxopen (hsame ▸ hd)
        | inr hpending =>
          obtain ⟨z,hz,hzp,hzo⟩ := hpending
          have hmz := (hw.tracked z hz).message
          rw [hzo,hzp,hyp,hm] at hmz
          have hsame := Option.some.inj (Option.some.inj hmz)
          have hle := h.behind z hz (hsame ▸ hxopen) y (.inl hy) hzp.symm
          omega
      | inr hy => rw [List.mem_singleton.mp hy]
  · intro x _ _ c hc hf
    have htrue := hpaused x.partition c hc
    rw [hf] at htrue
    cases htrue

lemma setPaused_cursor {paused : Bool} {p : ℕ} {c : Cursor}
    (h : (s.setPaused paused).cursor p=some c) : c.paused=paused := by
  obtain ⟨d,-,rfl⟩ := Option.map_eq_some_iff.mp h
  rfl

theorem single_step (h : Single s) (hs : Sound s)
    (ht : Transition rt sourceBucket artifactBucket maxBytes 1 s a t) : Single t := by
  cases ht with
  | produce =>
    rename_i p value
    refine h.frame ⟨fun q => ?_,List.Subset.refl _⟩ (fun y hy => ⟨y,hy,rfl,rfl,rfl⟩)
      (fun y completed hy => .inr ⟨completed,hy⟩) (fun _ c hc hf => ⟨c,hc,hf,rfl⟩)
    by_cases hq : q=p
    · subst hq
      simp
    · simp [hq]
  | others hsub =>
    exact h.frame ⟨fun _ => List.prefix_refl _,hsub⟩ (fun y hy => ⟨y,hy,rfl,rfl,rfl⟩)
      (fun y completed hy => .inr ⟨completed,hy⟩) (fun _ c hc hf => ⟨c,hc,hf,rfl⟩)
  | start => exact h.setPhase (by simp)
  | kill => exact .idle rfl
  | task hj ht =>
    refine h.frame ⟨fun _ => List.prefix_refl _,ht.processedEvents⟩ ?_
      (fun y completed hy => .inr ⟨completed,hy⟩) (fun _ c hc hf => ⟨c,hc,hf,rfl⟩)
    intro y hy
    obtain ⟨x,hx,rfl⟩ := mem_updateWhere.mp hy
    refine ⟨x,hx,?_⟩
    split
    · exact ⟨rfl,rfl,rfl⟩
    · exact ⟨rfl,rfl,rfl⟩
  | collect => exact h.setPhase (by simp)
  | reap hp hj =>
    refine h.frame (.of_eq rfl rfl) (fun y hy => ⟨y,(List.mem_filter.mp hy).1,rfl,rfl,rfl⟩) ?_
      (fun _ c hc hf => ⟨c,hc,hf,rfl⟩)
    intro y completed hy
    cases hy
    exact .inl (List.mem_of_find?_eq_some hj)
  | reapFails =>
    refine h.frame (.of_eq rfl rfl) (fun y hy => ⟨y,(List.mem_filter.mp hy).1,rfl,rfl,rfl⟩) ?_
      (fun _ c hc hf => ⟨c,hc,hf,rfl⟩)
    exact fun y completed hy => Phase.noConfusion hy
  | commit =>
    refine h.frame (.of_eq rfl rfl) (fun y hy => ⟨y,hy,rfl,rfl,rfl⟩) ?_
      (fun _ c hc hf => ⟨c,hc,hf,rfl⟩)
    intro y completed hy
    split at hy
    · cases hy
    · cases hy
  | commitFails => exact h.setPhase (by simp)
  | resume _ hn =>
    have hnone : s.inflight=[] := List.length_eq_zero_iff.mp (by omega)
    exact .idle hnone
  | resumeNothing => exact h.setPhase (by simp)
  | assign hp hc =>
    rename_i p
    have hw := hs.working (by rw [hp]; simp)
    refine ⟨h.behind,?_⟩
    intro x hx hxopen c hcursor hf
    have hcursor : Function.update s.cursor p (some ⟨s.committed p,false⟩) x.partition=some c := hcursor
    by_cases hxp : x.partition=p
    · rw [hxp,Function.update_self] at hcursor
      cases hcursor
      by_contra hlt
      obtain ⟨payload,hm,hd⟩ := hs.safe p x.offset (not_le.mp hlt)
      rw [← hxp,(hw.tracked x hx).message] at hm
      have hsame := Option.some.inj (Option.some.inj hm)
      exact hxopen (hsame ▸ hd)
    · rw [Function.update_of_ne hxp] at hcursor
      exact h.ahead x hx hxopen c hcursor hf
  | revoke =>
    rename_i p hp
    refine ⟨h.behind,?_⟩
    intro x hx hxopen c hcursor hf
    have hcursor : Function.update s.cursor p none x.partition=some c := hcursor
    by_cases hxp : x.partition=p
    · rw [hxp,Function.update_self] at hcursor
      cases hcursor
    · rw [Function.update_of_ne hxp] at hcursor
      exact h.ahead x hx hxopen c hcursor hf
  | pollNothing => exact h.setPhase (by simp)
  | pollError => exact h.setPhase (by simp)
  | undecodable => exact h.setPhase (by simp)
  | poll _ _ _ hn => omega
  | pollLast hp hc hm =>
    exact h.poll (hs.working (by rw [hp]; simp)) hc hm (fun _ _ hq => setPaused_cursor hq) true
  | pollRebalanced hp hc hm hn =>
    refine h.poll (hs.working (by rw [hp]; simp)) hc hm (fun q c hq => ?_) _
    obtain ⟨hassigned,-⟩ := rebalance_cursor hq
    rw [hn.resolve_left (by omega)] at hassigned
    cases hassigned
  | pollRebalancedLast hp hc hm =>
    exact h.poll (hs.working (by rw [hp]; simp)) hc hm (fun _ _ hq => setPaused_cursor hq) true
  | close => exact .idle rfl

/-- With one task at a time every commit is in order. -/
theorem Single.inOrder (h : Single s) : InOrder s a := by
  cases a with
  | commit fault =>
    simp only [InOrder]
    split
    · rename_i j completed hp
      right
      intro x hx hxp ho
      by_contra hopen
      have hle := h.behind x hx hopen j (.inr ⟨completed,hp⟩) hxp.symm
      omega
    · trivial
  | _ => trivial

theorem single_reach (h : (system rt sourceBucket artifactBucket maxBytes 1).Reachable s) :
    Sound s ∧ Single s := by
  refine h.invariant (I := fun s => Sound s ∧ Single s) ?_ ?_
  · intro s hs
    exact ⟨.initial hs,.idle hs.inflight⟩
  · intro s a t hs ha
    have ht := transition_of_step _ _ _ _ _ ha
    exact ⟨sound_step hs.1 hs.2.inOrder ht,single_step hs.2 hs.1 ht⟩

end

/-- A fetched document, one of several in a partition. -/
def fetchedMessage (n : Fin 10) : DocumentFetched :=
  buildDocumentFetchedEvent ⟨⟨n,by omega⟩⟩ [] ⟨1⟩ ⟨2⟩ ⟨3⟩ (objectUri minioSourceBucket (py "a.pdf"))
    (py "application/pdf") plainHash 5 .null ⟨9⟩ ⟨9⟩

/-- A partition with two messages, and a worker that is not running. -/
def twoMessages : State where
  log := fun p => if p=0 then [some (fetchedMessage 1),some (fetchedMessage 2)] else []
  committed := fun _ => 0
  source := fun _ => some ⟨plainSource,py "application/pdf",plainHash⟩
  stores := ⟨fun _ => none,Db.empty [⟨1⟩]⟩
  phase := .stopped
  inflight := []
  paused := false
  cursor := fun _ => none
  spawned := 0

theorem twoMessages_initial : Initial twoMessages := ⟨rfl,rfl,fun _ => rfl,fun _ => rfl⟩

/-- Both messages are polled. -/
def pollBoth : List Action :=
  [.start,.collect,.resume,.assign 0,.poll 0,.collect,.resume,.poll 0]

/-- A task ends with a rejection, as its converter cannot read the document. -/
def rejectTask (id : ℕ) (draws : Draws) : List Action :=
  [.task id (.get .none),
    .task id (.extract readAvailable (fun _ => .error (.extraction emptySource))),
    .task id (.reject draws .none)]

/-- With more than one task a later message can overtake an earlier one. -/
theorem overtaking_skips {maxConcurrency : ℕ} (h2 : 2 ≤ maxConcurrency) (h8 : maxConcurrency ≤ 8) :
    ∃ s, (system plainRuntime minioSourceBucket minioArtifactBucket 1048576 maxConcurrency).Reachable s ∧
      ¬NothingSkipped s := by
  have hrun : ∀ n ∈ [2,3,4,5,6,7,8],
      ((system plainRuntime minioSourceBucket minioArtifactBucket 1048576 n).run twoMessages
        (pollBoth ++ rejectTask 1 ⟨⟨11⟩,[],⟨12⟩,0,0,0⟩ ++ [.collect,.reap,.commit .none])).any
          (fun s => decide (0<s.committed 0 ∧ (s.log 0)[0]?=some (some (fetchedMessage 1)) ∧
            ¬Processed s.stores.db (fetchedMessage 1)))=true := by decide +kernel
  have hmem : maxConcurrency ∈ [2,3,4,5,6,7,8] := by
    simp only [List.mem_cons,List.not_mem_nil,or_false]
    omega
  obtain ⟨s,hrun,hs⟩ := (Option.any_eq_true _ _).mp (hrun maxConcurrency hmem)
  obtain ⟨hlt,hm,hopen⟩ := of_decide_eq_true hs
  refine ⟨s,System.reachable_of_run _ twoMessages_initial hrun,fun h => ?_⟩
  obtain ⟨payload,hpayload,hd⟩ := h 0 0 _ hlt hm
  have hpayload := Option.some.inj hpayload
  exact hopen (hpayload ▸ hd)

/-- Whatever is polled and in whatever order tasks end, the loop skips no message if and only if
it runs one task at a time. With more tasks it skips none as long as its commits are in order, and
any other commit skips one. -/
theorem skips_nothing_iff {maxConcurrency : ℕ} (h1 : 1 ≤ maxConcurrency) (h8 : maxConcurrency ≤ 8) :
    ((∀ rt sourceBucket artifactBucket maxBytes s,
        (system rt sourceBucket artifactBucket maxBytes maxConcurrency).Reachable s →
          NothingSkipped s) ↔ maxConcurrency=1) ∧
      ∀ rt sourceBucket artifactBucket maxBytes s,
        (system rt sourceBucket artifactBucket maxBytes maxConcurrency).Reach InOrder s →
          NothingSkipped s ∧ ∀ fault t,
            (system rt sourceBucket artifactBucket maxBytes maxConcurrency).step s (.commit fault)=
              some t → (NothingSkipped t ↔ InOrder s (.commit fault)) := by
  refine ⟨⟨?_,?_⟩,?_⟩
  · intro h
    by_contra hne
    obtain ⟨s,hs,hskips⟩ := overtaking_skips (show 2 ≤ maxConcurrency by omega) h8
    exact hskips (h _ _ _ _ s hs)
  · intro h
    subst h
    intro rt sourceBucket artifactBucket maxBytes s hs
    exact (single_reach hs).1.nothingSkipped
  · intro rt sourceBucket artifactBucket maxBytes s h
    have hs := sound_reach h
    refine ⟨hs.nothingSkipped,?_⟩
    intro fault t ha
    have ha : step rt sourceBucket artifactBucket maxBytes maxConcurrency s (.commit fault)=some t := ha
    have ht := transition_of_step _ _ _ _ _ ha
    refine ⟨fun hskips => ?_,fun ok => (sound_step hs ok ht).nothingSkipped⟩
    cases ht with
    | commit hp hf =>
      simp only [InOrder,hp]
      right
      intro x hx hxp ho
      by_contra hopen
      exact hs.skips hp hx hxp ho hopen hskips
    | commitFails hp =>
      simp only [InOrder,hp]
      exact .inl trivial

/-- Two tasks that end in order. -/
theorem two_in_order : ∃ s,
    (system plainRuntime minioSourceBucket minioArtifactBucket 1048576 2).Reach InOrder s ∧
      s.committed 0=2 ∧ NothingSkipped s := by
  have hrun : ((system plainRuntime minioSourceBucket minioArtifactBucket 1048576 2).runIf InOrder
      twoMessages (pollBoth ++ rejectTask 1 ⟨⟨11⟩,[],⟨12⟩,0,0,0⟩ ++ rejectTask 0 ⟨⟨13⟩,[],⟨14⟩,1,1,1⟩ ++
        [.collect,.reap,.commit .none,.reap,.commit .none])).any
          (fun s => s.committed 0=2)=true := by decide +kernel
  obtain ⟨s,hrun,hs⟩ := (Option.any_eq_true _ _).mp hrun
  have hreach := System.Reach.runIf (.start twoMessages_initial) hrun
  exact ⟨s,hreach,of_decide_eq_true hs,
    ((skips_nothing_iff (show 1 ≤ 2 by omega) (by omega)).2 _ _ _ _ s hreach).1⟩

/-- Two tasks of which the second ends first: its commit skips the first message. -/
theorem two_tasks_skip : ¬∀ s,
    (system plainRuntime minioSourceBucket minioArtifactBucket 1048576 2).Reachable s →
      NothingSkipped s := by
  intro hall
  obtain ⟨s,hs,hskips⟩ := overtaking_skips (show 2 ≤ 2 by omega) (by omega)
  exact hskips (hall s hs)

end RagIngestion.Extractor.MainLoop
