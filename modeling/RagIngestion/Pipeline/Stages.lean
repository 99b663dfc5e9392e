import RagIngestion.Pipeline.Genuine

/-! The life of a document: the stages it goes through, what its rows and its events look like
at each of them, and that a transaction moves at most one document on by one stage. -/
namespace RagIngestion.Pipeline
open RagIngestion.Python RagIngestion.Domain RagIngestion.Database RagIngestion.Storage
open RagIngestion.Library

inductive EventKind
  | submitted | fetched | fetchRejected | extracted | extractionRejected
  deriving DecidableEq

def kindOf : EventPayload → EventKind
  | .documentSubmitted _ => .submitted
  | .documentFetched _ => .fetched
  | .documentFetchRejected _ => .fetchRejected
  | .contentExtracted _ => .extracted
  | .contentExtractionRejected _ => .extractionRejected

namespace EventKind

def topic : EventKind → PyStr
  | .submitted => documentSubmittedTopic
  | .fetched => documentFetchedTopic
  | .fetchRejected => deadLetterTopic Fetcher.consumerName
  | .extracted => contentExtractedTopic
  | .extractionRejected => deadLetterTopic Extractor.consumerName

/-- The consumer that handles such events. -/
def handler : EventKind → Option PyStr
  | .submitted => some Fetcher.consumerName
  | .fetched => some Extractor.consumerName
  | _ => none

end EventKind

/-- Where a document stands between submission and handoff. -/
inductive Stage
  | submitted | fetchRejected | fetched | extracted | needsReview | extractionRejected
  deriving DecidableEq

namespace Stage

def documentStatus : Stage → DocumentStatus
  | .submitted => .submitted
  | .fetched => .fetched
  | .extracted => .extracted
  | _ => .failed

def inspectionStatus : Stage → InspectionStatus
  | .submitted => .pending
  | .fetchRejected => .invalid
  | _ => .valid

def extractionStatus : Stage → ExtractionStatus
  | .extracted => .succeeded
  | .needsReview => .needsReview
  | .extractionRejected => .failed
  | _ => .pending

/-- Both artifacts are recorded. -/
def hasArtifacts : Stage → Bool
  | .extracted => true
  | .needsReview => true
  | _ => false

/-- The kinds of the events written for a document until it has reached the stage. -/
def kinds : Stage → List EventKind
  | .submitted => [.submitted]
  | .fetchRejected => [.submitted,.fetchRejected]
  | .fetched => [.submitted,.fetched]
  | .extracted => [.submitted,.fetched,.extracted]
  | .needsReview => [.submitted,.fetched,.extracted]
  | .extractionRejected => [.submitted,.fetched,.extractionRejected]

/-- The moves between stages. -/
inductive Next : Stage → Stage → Prop
  | rejectFetch : Next .submitted .fetchRejected
  | fetch : Next .submitted .fetched
  | extract : Next .fetched .extracted
  | review : Next .fetched .needsReview
  | rejectExtraction : Next .fetched .extractionRejected

theorem kinds_nodup (s : Stage) : s.kinds.Nodup := by cases s <;> decide

/-- The stage whose last event is of a kind that some consumer handles is determined by it. -/
theorem eq_submitted {s : Stage} (h : EventKind.submitted ∉ s.kinds.dropLast) : s=.submitted := by
  cases s with
  | submitted => rfl
  | _ => simp [kinds] at h

theorem eq_fetched {s : Stage} (hs : EventKind.fetched ∈ s.kinds)
    (h : EventKind.fetched ∉ s.kinds.dropLast) : s=.fetched := by
  cases s with
  | fetched => rfl
  | submitted => simp [kinds] at hs
  | fetchRejected => simp [kinds] at hs
  | _ => simp [kinds] at h

end Stage

/-- The claim the consumer of an event makes. -/
def handling (e : OutboxEvent) : Option ProcessedEvent :=
  (kindOf e.payload).handler.map (fun consumerName => ⟨e.tenantId,e.eventId,consumerName⟩)

theorem handling_ids {e : OutboxEvent} {claim : ProcessedEvent} (h : handling e=some claim) :
    claim.tenantId=e.tenantId ∧ claim.eventId=e.eventId := by
  obtain ⟨name,-,rfl⟩ := Option.map_eq_some_iff.mp h
  exact ⟨rfl,rfl⟩

/-- The events that name a document. -/
def history (events : List OutboxEvent) (id : UUID) : List OutboxEvent :=
  events.filter (fun e => e.payload.documentId=id.str)

theorem mem_history {events : List OutboxEvent} {id : UUID} {e : OutboxEvent} :
    e ∈ history events id ↔ e ∈ events ∧ e.payload.documentId=id.str := by
  simp [history]

/-- A new event extends the history of the document it names, and no other. -/
theorem history_append_self (events : List OutboxEvent) {id : UUID} {e : OutboxEvent}
    (h : e.payload.documentId=id.str) : history (events ++ [e]) id=history events id ++ [e] := by
  simp [history,h]

theorem history_append_other (events : List OutboxEvent) {id other : UUID} {e : OutboxEvent}
    (h : e.payload.documentId=id.str) (hne : other≠id) :
    history (events ++ [e]) other=history events other := by
  have hstr : id.str≠other.str := fun heq => hne (UUID.str_injective heq.symm)
  simp [history,h,hstr]

/-- The columns of an event, and the fields its consumer relies on, are those of the document and
of its version. -/
structure Describes (tenantId documentId : UUID) (v : DocumentVersion) (e : OutboxEvent) : Prop where
  tenant : e.tenantId=tenantId
  document : e.payload.documentId=documentId.str
  topic : e.kafkaTopic=(kindOf e.payload).topic
  submission : ∀ p, e.payload=.documentSubmitted p →
    p.tenantId=tenantId.str ∧ p.eventId=e.eventId.str ∧ p.payloadUri=v.sourceObjectUri
  fetch : ∀ p, e.payload=.documentFetched p →
    p.tenantId=tenantId.str ∧ p.eventId=e.eventId.str ∧ p.documentVersionId=v.id.str ∧
      p.contentSha256=v.contentSha256
  extraction : ∀ p, e.payload=.contentExtracted p → p.documentVersionId=v.id.str

/-- A document and its version at a stage: their statuses, their events, and which of these are
processed: all that a consumer handles but the last. -/
structure AtStage (events : List OutboxEvent) (processed : List ProcessedEvent) (d : Document)
    (v : DocumentVersion) (s : Stage) : Prop where
  tenant : v.tenantId=d.tenantId
  document : v.documentId=d.id
  present : v.deletedAt=none
  status : d.status=s.documentStatus
  inspection : v.inspectionStatus=s.inspectionStatus
  extraction : v.extractionStatus=s.extractionStatus
  artifacts : s.hasArtifacts=true →
    v.normalizedObjectUri.isSome=true ∧ v.extractionManifestUri.isSome=true
  described : ∀ e ∈ history events d.id, Describes d.tenantId d.id v e
  kinds : (history events d.id).map (fun e => kindOf e.payload)=s.kinds
  claimed : ∀ e ∈ history events d.id, ∀ claim, handling e=some claim →
    (claim ∈ processed ↔ kindOf e.payload ∈ s.kinds.dropLast)

/-- Every document has one version and is at some stage with it; every event names a document;
every processed event is one of the outbox. -/
structure Records (db : Db) : Prop where
  documents : (db.documents.map (·.id)).Nodup
  versions : (db.versions.map (·.documentId)).Nodup
  versionIds : (db.versions.map (·.id)).Nodup
  staged : ∀ d ∈ db.documents, ∃ v ∈ db.versions, ∃ s, AtStage (events db) db.processedEvents d v s
  owned : ∀ v ∈ db.versions, ∃ d ∈ db.documents, v.documentId=d.id
  concerned : ∀ e ∈ events db, ∃ d ∈ db.documents, e.payload.documentId=d.id.str
  eventIds : ((events db).map (fun e => (e.tenantId,e.eventId))).Nodup
  claims : ∀ claim ∈ db.processedEvents,
    ∃ e ∈ events db, e.tenantId=claim.tenantId ∧ e.eventId=claim.eventId

/-- The columns of a version that identify it and its source are the same. -/
structure SameSource (v v' : DocumentVersion) : Prop where
  id : v'.id=v.id
  tenant : v'.tenantId=v.tenantId
  document : v'.documentId=v.documentId
  sha : v'.contentSha256=v.contentSha256
  uri : v'.sourceObjectUri=v.sourceObjectUri
  present : v'.deletedAt=v.deletedAt

lemma SameSource.setUpdatedAt {v v' : DocumentVersion} (h : SameSource v v') (clock : Time) :
    SameSource v (v'.setUpdatedAt clock) := ⟨h.id,h.tenant,h.document,h.sha,h.uri,h.present⟩

/-- An outcome that moves a document from one stage to the next. -/
structure Advances (events : List OutboxEvent) (d : Document) (v : DocumentVersion) (s t : Stage)
    (o : Outcome) : Prop where
  next : s.Next t
  handles : ∃ e ∈ history events d.id, handling e=some o.claim
  kinds : t.kinds=s.kinds ++ [kindOf o.event.payload]
  described : Describes d.tenantId d.id v o.event
  status : o.status=some (d.id,t.documentStatus)
  version : ∃ f, o.version=some (v.id,f) ∧ (∀ x, SameSource x (f x)) ∧
    (f v).inspectionStatus=t.inspectionStatus ∧ (f v).extractionStatus=t.extractionStatus ∧
    (t.hasArtifacts=true →
      (f v).normalizedObjectUri.isSome=true ∧ (f v).extractionManifestUri.isSome=true)

lemma Describes.of_sameSource {tenantId documentId : UUID} {v v' : DocumentVersion} {e : OutboxEvent}
    (h : Describes tenantId documentId v e) (hv : SameSource v v') :
    Describes tenantId documentId v' e := by
  refine ⟨h.tenant,h.document,h.topic,?_,?_,?_⟩
  · rw [hv.uri]
    exact h.submission
  · rw [hv.id,hv.sha]
    exact h.fetch
  · rw [hv.id]
    exact h.extraction

/-- Two events of a history that are not processed are the same event: the last one. -/
theorem AtStage.eq_of_open {events : List OutboxEvent} {processed : List ProcessedEvent} {d : Document}
    {v : DocumentVersion} {s : Stage} (h : AtStage events processed d v s) {e e' : OutboxEvent}
    (he : e ∈ history events d.id) (he' : e' ∈ history events d.id)
    (ho : kindOf e.payload ∉ s.kinds.dropLast) (ho' : kindOf e'.payload ∉ s.kinds.dropLast) : e=e' := by
  have hmem : ∀ x ∈ history events d.id, kindOf x.payload ∈ s.kinds :=
    fun x hx => h.kinds ▸ List.mem_map_of_mem (f := fun e => kindOf e.payload) hx
  have hlast : ∀ x ∈ history events d.id, kindOf x.payload ∉ s.kinds.dropLast →
      some (kindOf x.payload)=s.kinds.getLast? := by
    intro x hx hopen
    by_contra hne
    exact hopen (List.mem_dropLast_of_mem_of_ne_getLast? (hmem x hx) hne)
  have hkind : kindOf e.payload=kindOf e'.payload :=
    Option.some.inj ((hlast e he ho).trans (hlast e' he' ho').symm)
  have hnodup : ((history events d.id).map (fun e => kindOf e.payload)).Nodup := by
    rw [h.kinds]
    exact s.kinds_nodup
  exact eq_of_key_eq hnodup he he' hkind

/-- The document itself, after its outcome. -/
theorem AtStage.advance {events : List OutboxEvent} {processed : List ProcessedEvent} {d : Document}
    {v v' : DocumentVersion} {s t : Stage} {o : Outcome} (h : AtStage events processed d v s)
    (ha : Advances events d v s t o) (hsource : SameSource v v')
    (hinspection : v'.inspectionStatus=t.inspectionStatus)
    (hextraction : v'.extractionStatus=t.extractionStatus)
    (hartifacts : t.hasArtifacts=true →
      v'.normalizedObjectUri.isSome=true ∧ v'.extractionManifestUri.isSome=true)
    (hclaims : ∀ claim ∈ processed, ∃ e ∈ events, e.tenantId=claim.tenantId ∧ e.eventId=claim.eventId)
    (hfresh : ∀ e ∈ events, ¬(e.tenantId=o.event.tenantId ∧ e.eventId=o.event.eventId))
    (hopen : o.claim ∉ processed) (clock : Time) :
    AtStage (events ++ [o.event]) (processed ++ [o.claim])
      ({ d with status := t.documentStatus }.setUpdatedAt clock) v' t := by
  obtain ⟨source,hin,hhandled⟩ := ha.handles
  have hhistory := history_append_self events ha.described.document
  have hdropLast : t.kinds.dropLast=s.kinds := by
    rw [ha.kinds]
    exact List.dropLast_concat
  have hmem : ∀ x ∈ history events d.id, kindOf x.payload ∈ s.kinds :=
    fun x hx => h.kinds ▸ List.mem_map_of_mem (f := fun e => kindOf e.payload) hx
  have hsourceOpen : kindOf source.payload ∉ s.kinds.dropLast :=
    fun hk => hopen ((h.claimed source hin o.claim hhandled).mpr hk)
  refine ⟨hsource.tenant.trans h.tenant,hsource.document.trans h.document,
    hsource.present.trans h.present,rfl,hinspection,hextraction,hartifacts,?_,?_,?_⟩
  · intro e he
    rw [Document.setUpdatedAt_id,hhistory] at he
    cases List.mem_append.mp he with
    | inl he => exact (h.described e he).of_sameSource hsource
    | inr he => exact List.mem_singleton.mp he ▸ ha.described.of_sameSource hsource
  · rw [Document.setUpdatedAt_id,hhistory,List.map_append,h.kinds]
    exact ha.kinds.symm
  · intro e he claim hclaim
    rw [Document.setUpdatedAt_id,hhistory] at he
    rw [hdropLast,List.mem_append,List.mem_singleton]
    cases List.mem_append.mp he with
    | inl he =>
      refine ⟨fun _ => hmem e he,fun _ => ?_⟩
      by_cases hk : kindOf e.payload ∈ s.kinds.dropLast
      · exact .inl ((h.claimed e he claim hclaim).mpr hk)
      · -- the only event that was open is the one the outcome handles
        have heq := h.eq_of_open he hin hk hsourceOpen
        exact .inr (Option.some.inj (hclaim.symm.trans ((congrArg handling heq).trans hhandled)))
    | inr he =>
      have he := List.mem_singleton.mp he
      subst he
      obtain ⟨htenant,hevent⟩ := handling_ids hclaim
      have hnew : kindOf o.event.payload ∉ s.kinds := by
        have hnodup := t.kinds_nodup
        rw [ha.kinds,List.nodup_append] at hnodup
        exact fun hk => hnodup.2.2 _ hk _ List.mem_cons_self rfl
      refine ⟨fun hc => ?_,fun hk => absurd hk hnew⟩
      cases hc with
      | inl hc =>
        obtain ⟨e,he,ht,hi⟩ := hclaims claim hc
        exact absurd ⟨ht.trans htenant,hi.trans hevent⟩ (hfresh e he)
      | inr hc =>
        obtain ⟨ht,hi⟩ := handling_ids hhandled
        rw [hc] at htenant hevent
        exact absurd ⟨ht.symm.trans htenant,hi.symm.trans hevent⟩
          (hfresh source (mem_history.mp hin).1)

/-- A document keeps its stage when an event of another document is written and no claim of its
own events is made. -/
theorem AtStage.extend {events : List OutboxEvent} {processed processed' : List ProcessedEvent}
    {d : Document} {v : DocumentVersion} {s : Stage} {e : OutboxEvent} {id : UUID}
    (h : AtStage events processed d v s) (hne : d.id≠id) (he : e.payload.documentId=id.str)
    (hclaims : ∀ x ∈ history events d.id, ∀ claim, handling x=some claim →
      (claim ∈ processed' ↔ claim ∈ processed)) :
    AtStage (events ++ [e]) processed' d v s := by
  have hhistory := history_append_other events he hne
  refine ⟨h.tenant,h.document,h.present,h.status,h.inspection,h.extraction,h.artifacts,?_,?_,?_⟩
  · rw [hhistory]
    exact h.described
  · rw [hhistory]
    exact h.kinds
  · rw [hhistory]
    intro x hx claim hclaim
    rw [hclaims x hx claim hclaim]
    exact h.claimed x hx claim hclaim

/-- Another document, after an outcome. -/
theorem AtStage.other {events : List OutboxEvent} {processed : List ProcessedEvent}
    {d other : Document} {v : DocumentVersion} {s : Stage} {o : Outcome}
    (h : AtStage events processed other v s) (hne : other.id≠d.id)
    (hevent : o.event.payload.documentId=d.id.str)
    (hhandles : ∃ e ∈ history events d.id, handling e=some o.claim)
    (hids : (events.map (fun e => (e.tenantId,e.eventId))).Nodup) :
    AtStage (events ++ [o.event]) (processed ++ [o.claim]) other v s := by
  obtain ⟨source,hin,hhandled⟩ := hhandles
  refine h.extend hne hevent ?_
  intro e he claim hclaim
  have hdifferent : claim≠o.claim := by
    intro heq
    obtain ⟨ht,hi⟩ := handling_ids hclaim
    obtain ⟨ht',hi'⟩ := handling_ids hhandled
    have hsame : e=source := eq_of_key_eq hids (mem_history.mp he).1 (mem_history.mp hin).1
      (Prod.ext (ht.symm.trans (heq ▸ ht')) (hi.symm.trans (heq ▸ hi')))
    have hstr := (mem_history.mp he).2.symm.trans (hsame ▸ (mem_history.mp hin).2)
    exact hne (UUID.str_injective hstr)
  rw [List.mem_append,List.mem_singleton,or_iff_left hdifferent]

/-- A committed outcome that advances a document keeps the records. -/
theorem Records.advance {db after : Db} (h : Records db) {d : Document} {v : DocumentVersion}
    {s t : Stage} {o : Outcome} {outboxId : UUID} {now : Time} (hd : d ∈ db.documents)
    (hv : v ∈ db.versions) (hs : AtStage (events db) db.processedEvents d v s)
    (ha : Advances (events db) d v s t o) (hc : Committed o outboxId now db after) :
    Records after := by
  have hevents := events_committed hc
  obtain ⟨rfl,-,hopen,hrow⟩ := hc
  obtain ⟨f,hversion,hsource,hinspection,hextraction,hartifacts⟩ := ha.version
  obtain ⟨source,hin,hhandled⟩ := ha.handles
  have htenant : o.claim.tenantId=d.tenantId :=
    (handling_ids hhandled).1.trans (hs.described source hin).tenant
  have hsource := fun x => (hsource x).setUpdatedAt o.versionUpdatedAt
  have hfresh : ∀ e ∈ events db, ¬(e.tenantId=o.event.tenantId ∧ e.eventId=o.event.eventId) := by
    intro e he
    obtain ⟨r,hr,rfl⟩ := List.mem_map.mp he
    exact (hrow r hr).2
  have hdocuments : (o.apply outboxId now db).documents=
      updateWhere (fun x => x.tenantId=o.claim.tenantId ∧ x.id=d.id)
        (fun x => { x with status := t.documentStatus }.setUpdatedAt o.documentUpdatedAt)
        db.documents := by
    simp only [Outcome.apply_documents,Outcome.applyDocuments,ha.status]
  have hversions : (o.apply outboxId now db).versions=
      updateWhere (fun x => x.tenantId=o.claim.tenantId ∧ x.id=v.id)
        (fun x => (f x).setUpdatedAt o.versionUpdatedAt) db.versions := by
    simp only [Outcome.apply_versions,Outcome.applyVersions,hversion]
  have hids : (o.apply outboxId now db).documents.map (·.id)=db.documents.map (·.id) := by
    rw [hdocuments]
    apply map_updateWhere
    intro x _
    rfl
  have hmem : ∀ x ∈ db.documents, ∃ y ∈ (o.apply outboxId now db).documents, y.id=x.id := by
    intro x hx
    have hx' : x.id ∈ (o.apply outboxId now db).documents.map (·.id) := hids ▸ List.mem_map_of_mem hx
    exact List.mem_map.mp hx'
  refine ⟨hids ▸ h.documents,?_,?_,?_,?_,?_,?_,?_⟩
  · rw [hversions,map_updateWhere (fun x _ => (hsource x).document)]
    exact h.versions
  · rw [hversions,map_updateWhere (fun x _ => (hsource x).id)]
    exact h.versionIds
  · intro x hx
    rw [hdocuments] at hx
    obtain ⟨y,hy,hx⟩ := mem_updateWhere.mp hx
    rw [hevents]
    by_cases hyd : y.id=d.id
    · have hyd := eq_of_key_eq h.documents hy hd hyd
      subst hyd
      rw [if_pos (by simp [htenant])] at hx
      subst hx
      refine ⟨(f v).setUpdatedAt o.versionUpdatedAt,?_,t,
        hs.advance ha (hsource v) hinspection hextraction hartifacts h.claims hfresh hopen _⟩
      rw [hversions]
      exact mem_updateWhere.mpr ⟨v,hv,if_pos (by simp [htenant,hs.tenant])⟩
    · rw [if_neg (by simp [hyd])] at hx
      subst hx
      obtain ⟨u,hu,stage,hstage⟩ := h.staged y hy
      have huv : u.id≠v.id := by
        intro heq
        have huv := eq_of_key_eq h.versionIds hu hv heq
        subst huv
        exact hyd (hstage.document.symm.trans hs.document)
      refine ⟨u,?_,stage,hstage.other hyd ha.described.document ha.handles h.eventIds⟩
      rw [hversions]
      exact mem_updateWhere.mpr ⟨u,hu,if_neg (by simp [huv])⟩
  · intro x hx
    rw [hversions] at hx
    obtain ⟨y,hy,hx⟩ := mem_updateWhere.mp hx
    have hdocument : x.documentId=y.documentId := by
      subst hx
      split
      · exact (hsource y).document
      · rfl
    obtain ⟨z,hz,hzy⟩ := h.owned y hy
    obtain ⟨z',hz',hid⟩ := hmem z hz
    exact ⟨z',hz',hdocument.trans (hzy.trans hid.symm)⟩
  · intro e he
    rw [hevents] at he
    cases List.mem_append.mp he with
    | inl he =>
      obtain ⟨z,hz,hez⟩ := h.concerned e he
      obtain ⟨z',hz',hid⟩ := hmem z hz
      exact ⟨z',hz',hid ▸ hez⟩
    | inr he =>
      obtain ⟨z',hz',hid⟩ := hmem d hd
      exact ⟨z',hz',hid ▸ List.mem_singleton.mp he ▸ ha.described.document⟩
  · rw [hevents]
    apply nodup_map_append_singleton h.eventIds
    intro e he heq
    exact hfresh e he ⟨congrArg Prod.fst heq,congrArg Prod.snd heq⟩
  · intro claim hclaim
    rw [hevents]
    cases List.mem_append.mp hclaim with
    | inl hclaim =>
      obtain ⟨e,he,hids⟩ := h.claims claim hclaim
      exact ⟨e,List.mem_append_left _ he,hids⟩
    | inr hclaim =>
      obtain ⟨ht,hi⟩ := handling_ids hhandled
      rw [List.mem_singleton.mp hclaim]
      exact ⟨source,List.mem_append_left _ (mem_history.mp hin).1,ht.symm,hi.symm⟩

theorem Records.initial (tenants : List UUID) : Records (Db.empty tenants) := by
  refine ⟨List.nodup_nil,List.nodup_nil,List.nodup_nil,?_,?_,?_,List.nodup_nil,?_⟩
  · exact fun d hd => absurd hd List.not_mem_nil
  · exact fun v hv => absurd hv List.not_mem_nil
  · exact fun e he => absurd he List.not_mem_nil
  · exact fun claim hclaim => absurd hclaim List.not_mem_nil

/-- Publishers write columns the records do not speak about. -/
theorem Records.publish {db : Db} (h : Records db) {rows : List OutboxRow}
    (hevents : rows.map (·.event)=db.outbox.map (·.event)) : Records { db with outbox := rows } := by
  have he : events { db with outbox := rows }=events db := hevents
  refine ⟨h.documents,h.versions,h.versionIds,?_,h.owned,?_,?_,?_⟩
  · rw [he]
    exact h.staged
  · rw [he]
    exact h.concerned
  · rw [he]
    exact h.eventIds
  · rw [he]
    exact h.claims

theorem describes_submission {sha256 : Bytes → Digest} {bucket : BucketName} {d : Submission.Draft}
    {eventId : UUID} {occurredAt : PyStr} {now : Time} :
    Describes d.upload.tenantId d.documentId (d.version sha256 bucket now)
      (d.event bucket eventId occurredAt) := by
  refine ⟨rfl,rfl,rfl,?_,?_,?_⟩
  · intro p hp
    have hp := EventPayload.documentSubmitted.inj hp
    subst hp
    refine ⟨rfl,rfl,?_⟩
    simp only [Submission.Draft.version,Submission.newVersion,buildDocumentSubmittedEvent]
  · intro p hp
    exact EventPayload.noConfusion hp
  · intro p hp
    exact EventPayload.noConfusion hp

/-- A submitted document, when nothing named it before and its event is not claimed. -/
theorem AtStage.submitted {events : List OutboxEvent} {processed : List ProcessedEvent}
    {sha256 : Bytes → Digest} {bucket : BucketName} {d : Submission.Draft} {eventId : UUID}
    {occurredAt : PyStr} {now : Time} (hnew : history events d.documentId=[])
    (hopen : ∀ claim ∈ processed, ¬(claim.tenantId=d.upload.tenantId ∧ claim.eventId=eventId)) :
    AtStage (events ++ [d.event bucket eventId occurredAt]) processed (d.document now)
      (d.version sha256 bucket now) .submitted := by
  have hhistory : history (events ++ [d.event bucket eventId occurredAt]) (d.document now).id=
      [d.event bucket eventId occurredAt] := by
    have hself : history (events ++ [d.event bucket eventId occurredAt]) d.documentId=
        history events d.documentId ++ [d.event bucket eventId occurredAt] :=
      history_append_self events rfl
    rw [hnew] at hself
    exact hself
  have hv : (d.version sha256 bucket now).tenantId=d.upload.tenantId ∧
      (d.version sha256 bucket now).documentId=d.documentId ∧ (d.version sha256 bucket now).deletedAt=none ∧
      (d.version sha256 bucket now).inspectionStatus=.pending ∧
      (d.version sha256 bucket now).extractionStatus=.pending := by
    simp only [Submission.Draft.version,Submission.newVersion,and_self]
  obtain ⟨htenant,hdocument,hpresent,hinspection,hextraction⟩ := hv
  refine ⟨htenant,hdocument,hpresent,rfl,hinspection,hextraction,
    fun hf => absurd hf (by decide),?_,?_,?_⟩
  · intro e he
    rw [hhistory,List.mem_singleton] at he
    exact he ▸ describes_submission
  · rw [hhistory]
    rfl
  · intro e he claim hclaim
    rw [hhistory,List.mem_singleton] at he
    subst he
    exact ⟨fun hc => absurd (handling_ids hclaim) (hopen claim hc),fun hk => absurd hk List.not_mem_nil⟩

/-- A committed submission starts a document at the first stage. -/
theorem Records.submit {db after : Db} (h : Records db) {sha256 : Bytes → Digest}
    {bucket : BucketName} {d : Submission.Draft} {eventId : UUID} {occurredAt : PyStr}
    {outboxId : UUID} {now : Time}
    (hdb : d.submission sha256 bucket eventId occurredAt outboxId now db=.ok after) :
    Records after := by
  obtain ⟨⟨-,hdocument,hversion,hrow⟩,hafter⟩ := Submission.Draft.submission_eq_ok _ _ hdb
  have hdocuments : after.documents=db.documents ++ [d.document now] := by rw [hafter]
  have hversions : after.versions=db.versions ++ [d.version sha256 bucket now] := by rw [hafter]
  have hprocessed : after.processedEvents=db.processedEvents := by rw [hafter]
  have hevents := events_submitted hdb
  have hnamed : (d.event bucket eventId occurredAt).payload.documentId=d.documentId.str := rfl
  have hfresh : ∀ e ∈ events db, ¬(e.tenantId=d.upload.tenantId ∧ e.eventId=eventId) := by
    intro e he
    obtain ⟨r,hr,rfl⟩ := List.mem_map.mp he
    exact (hrow r hr).2
  have hnew : history (events db) d.documentId=[] := by
    apply List.filter_eq_nil_iff.mpr
    intro e he heq
    obtain ⟨x,hx,hname⟩ := h.concerned e he
    exact hdocument x hx (UUID.str_injective (hname.symm.trans (of_decide_eq_true heq)))
  have hopen : ∀ claim ∈ db.processedEvents,
      ¬(claim.tenantId=d.upload.tenantId ∧ claim.eventId=eventId) := by
    intro claim hclaim hids
    obtain ⟨e,he,ht,hi⟩ := h.claims claim hclaim
    exact hfresh e he ⟨ht.trans hids.1,hi.trans hids.2⟩
  refine ⟨?_,?_,?_,?_,?_,?_,?_,?_⟩
  · rw [hdocuments]
    exact nodup_map_append_singleton h.documents hdocument
  · rw [hversions]
    apply nodup_map_append_singleton h.versions
    intro v hv heq
    obtain ⟨x,hx,hname⟩ := h.owned v hv
    exact hdocument x hx (hname.symm.trans heq)
  · rw [hversions]
    exact nodup_map_append_singleton h.versionIds hversion
  · rw [hdocuments,hversions,hevents,hprocessed]
    intro x hx
    cases List.mem_append.mp hx with
    | inl hx =>
      obtain ⟨v,hv,s,hs⟩ := h.staged x hx
      exact ⟨v,List.mem_append_left _ hv,s,hs.extend (hdocument x hx) hnamed (fun _ _ _ _ => Iff.rfl)⟩
    | inr hx =>
      rw [List.mem_singleton.mp hx]
      exact ⟨_,List.mem_append_right _ (List.mem_singleton_self _),.submitted,.submitted hnew hopen⟩
  · rw [hdocuments,hversions]
    intro v hv
    cases List.mem_append.mp hv with
    | inl hv =>
      obtain ⟨x,hx,hname⟩ := h.owned v hv
      exact ⟨x,List.mem_append_left _ hx,hname⟩
    | inr hv =>
      rw [List.mem_singleton.mp hv]
      exact ⟨_,List.mem_append_right _ (List.mem_singleton_self _),rfl⟩
  · rw [hdocuments,hevents]
    intro e he
    cases List.mem_append.mp he with
    | inl he =>
      obtain ⟨x,hx,hname⟩ := h.concerned e he
      exact ⟨x,List.mem_append_left _ hx,hname⟩
    | inr he =>
      rw [List.mem_singleton.mp he]
      exact ⟨_,List.mem_append_right _ (List.mem_singleton_self _),rfl⟩
  · rw [hevents]
    apply nodup_map_append_singleton h.eventIds
    intro e he heq
    exact hfresh e he ⟨congrArg Prod.fst heq,congrArg Prod.snd heq⟩
  · rw [hevents,hprocessed]
    intro claim hclaim
    obtain ⟨e,he,hids⟩ := h.claims claim hclaim
    exact ⟨e,List.mem_append_left _ he,hids⟩

end RagIngestion.Pipeline
