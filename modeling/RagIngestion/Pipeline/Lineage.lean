import RagIngestion.Pipeline.Lifecycle
import RagIngestion.Pipeline.Commits

/-! Causal lineage: every event after a submission names the event it answers, which was on the
broker before it was written, and the chain ends in the submission of the document. -/
namespace RagIngestion.Pipeline
open RagIngestion.Python RagIngestion.Domain RagIngestion.Database RagIngestion.Storage
open RagIngestion.Library

namespace EventKind

/-- The `event_type` of such rows. -/
def eventType : EventKind → PyStr
  | .submitted => py "DocumentSubmitted"
  | .fetched => py "DocumentFetched"
  | .fetchRejected => py "DocumentFetchRejected"
  | .extracted => py "ContentExtracted"
  | .extractionRejected => py "ContentExtractionRejected"

/-- The kind of event that such an event answers. -/
def causedBy : EventKind → Option EventKind
  | .submitted => none
  | .fetched => some .submitted
  | .fetchRejected => some .submitted
  | .extracted => some .fetched
  | .extractionRejected => some .fetched

/-- Every kind is caused by submissions within two hops. -/
lemma causedBy_cases (k : EventKind) :
    k=.submitted ∨ k.causedBy=some .submitted ∨ k.causedBy=some .fetched := by
  cases k <;> decide

lemma ne_submitted {k cause : EventKind} (h : k.causedBy=some cause) : k≠.submitted := by
  intro hk
  rw [hk] at h
  cases h

end EventKind

/-- The event answers one of the outbox whose message is on the broker: it carries that event's
id, tenant, document and correlation. -/
def Caused (events : List OutboxEvent) (broker : List Publisher.KafkaMessage) (e : OutboxEvent) :
    Prop :=
  ∃ cause ∈ events, (kindOf e.payload).causedBy=some (kindOf cause.payload) ∧
    e.payload.causationId=some cause.eventId.str ∧ e.tenantId=cause.tenantId ∧
    e.payload.documentId=cause.payload.documentId ∧
    e.payload.correlationId=cause.payload.correlationId ∧
    ∃ m ∈ broker, Publisher.kafkaMessage cause=.ok m

/-- The type of the row and its tenant are those of its payload. -/
def Typed (e : OutboxEvent) : Prop :=
  e.eventType=(kindOf e.payload).eventType ∧ e.payload.tenantId=e.tenantId.str

/-- A submission answers nothing and is the correlation of its document; every other event is
caused. -/
structure Lineage (events : List OutboxEvent) (broker : List Publisher.KafkaMessage) : Prop where
  typed : ∀ e ∈ events, Typed e
  root : ∀ e ∈ events, kindOf e.payload=.submitted →
    e.payload.causationId=none ∧ e.payload.correlationId=e.eventId.str
  caused : ∀ e ∈ events, kindOf e.payload≠.submitted → Caused events broker e

/-- The payloads in work were delivered by the broker. -/
structure OnKafka (w : World) : Prop where
  fetching : ∀ t p, (w.fetching t).active=some p → ∃ e ∈ events w.db,
    e.payload=.documentSubmitted p ∧ ∃ m ∈ w.broker, Publisher.kafkaMessage e=.ok m
  extracting : ∀ t p, (w.extracting t).active=some p → ∃ e ∈ events w.db,
    e.payload=.documentFetched p ∧ ∃ m ∈ w.broker, Publisher.kafkaMessage e=.ok m

variable {c : Config}

lemma Caused.mono {events more : List OutboxEvent} {broker moreBroker : List Publisher.KafkaMessage}
    {e : OutboxEvent} (h : Caused events broker e) (hevents : events ⊆ more)
    (hbroker : broker ⊆ moreBroker) : Caused more moreBroker e := by
  obtain ⟨cause,hcause,hkind,hid,ht,hd,hc,m,hm,hmessage⟩ := h
  exact ⟨cause,hevents hcause,hkind,hid,ht,hd,hc,m,hbroker hm,hmessage⟩

/-- The correlation of a caused event is the id of a submission. -/
lemma Lineage.correlation {events : List OutboxEvent} {broker : List Publisher.KafkaMessage}
    (h : Lineage events broker) {e : OutboxEvent} (he : e ∈ events)
    (hkind : kindOf e.payload=.fetched) : ∃ id : UUID, e.payload.correlationId=id.str := by
  obtain ⟨cause,hcause,hcaused,-,-,-,hcorrelation,-⟩ := h.caused e he (by rw [hkind]; decide)
  rw [hkind] at hcaused
  exact ⟨cause.eventId,hcorrelation.trans (h.root cause hcause (Option.some.inj hcaused).symm).2⟩

/-- What the fetcher writes is caused by the submission it handles. -/
theorem fetch_caused {w : World} (hr : Records w.db) (hl : Lineage (events w.db) w.broker)
    (hon : OnKafka w) {t : ℕ} {p : DocumentSubmitted} {i : Option Fetcher.SourceInspection}
    {error : Option Fetcher.FetchValidationError} {ids : Fetcher.Ids} {draws : Draws} {o : Outcome}
    (ht : w.fetching t=.processing p i error) (hn : Fetcher.Names p ids)
    (ho : Fetcher.FetchOutcome p i error ids draws w.db o) :
    Caused (events w.db) w.broker o.event ∧ Typed o.event ∧
      kindOf o.event.payload≠.submitted := by
  obtain ⟨e,he,hp,hmessage⟩ := hon.fetching t p (by rw [ht]; rfl)
  obtain ⟨d,-,v,-,s,-,-,hdescribes⟩ := hr.locate he
  obtain ⟨htenant,hevent,-⟩ := hdescribes.submission p hp
  have hdocument := hdescribes.document
  have hcorrelation := (hl.root e he (by rw [hp]; rfl)).2
  rw [hp] at hdocument hcorrelation
  have hwritten : o.event.tenantId=ids.tenantId ∧
      o.event.payload.causationId=some ids.eventId.str ∧
      o.event.payload.documentId=ids.documentId.str ∧
      o.event.payload.correlationId=ids.correlationId.str ∧
      (kindOf o.event.payload).causedBy=some .submitted ∧ Typed o.event := by
    cases ho <;> exact ⟨rfl,rfl,rfl,rfl,rfl,rfl,rfl⟩
  obtain ⟨hwt,hwi,hwd,hwc,hkind,htype⟩ := hwritten
  refine ⟨⟨e,he,?_,?_,?_,?_,?_,hmessage⟩,htype,?_⟩
  · rw [hkind,hp]
    rfl
  · rw [hwi,ofText_eq hn.event hevent]
  · rw [hwt,ofText_eq hn.tenant htenant,hdescribes.tenant]
  · rw [hwd,ofText_eq hn.document hdocument,hdescribes.document]
  · rw [hwc,ofText_eq hn.correlation hcorrelation,hp]
    exact hcorrelation.symm
  · exact EventKind.ne_submitted hkind

/-- What the extractor writes is caused by the fetch it handles. -/
theorem extract_caused {w : World} (hr : Records w.db) (hl : Lineage (events w.db) w.broker)
    (hon : OnKafka w) {t : ℕ} {p : DocumentFetched} {ids : Extractor.Ids} {correlationId : UUID}
    {event : OutboxEvent} (ht : (w.extracting t).active=some p)
    (hn : Extractor.Names p ids correlationId) (hwt : event.tenantId=ids.tenantId)
    (hwi : event.payload.causationId=some ids.eventId.str)
    (hwd : event.payload.documentId=ids.documentId.str)
    (hwc : event.payload.correlationId=correlationId.str)
    (hkind : (kindOf event.payload).causedBy=some .fetched) :
    Caused (events w.db) w.broker event := by
  obtain ⟨e,he,hp,hmessage⟩ := hon.extracting t p ht
  obtain ⟨d,-,v,-,s,-,-,hdescribes⟩ := hr.locate he
  obtain ⟨htenant,hevent,hversion,-⟩ := hdescribes.fetch p hp
  have hdocument := hdescribes.document
  obtain ⟨id,hcorrelation⟩ := hl.correlation he (by rw [hp]; rfl)
  rw [hp] at hdocument hcorrelation
  obtain ⟨tenantId,h₁,h⟩ := bind_eq_ok.mp hn.ids
  obtain ⟨documentId,h₂,h⟩ := bind_eq_ok.mp h
  obtain ⟨versionId,h₃,h⟩ := bind_eq_ok.mp h
  obtain ⟨eventId,h₄,h⟩ := bind_eq_ok.mp h
  cases h
  refine ⟨e,he,?_,?_,?_,?_,?_,hmessage⟩
  · rw [hkind,hp]
    rfl
  · rw [hwi]
    exact congrArg (fun u : UUID => some u.str) (ofText_eq h₄ hevent)
  · rw [hwt,hdescribes.tenant]
    exact ofText_eq h₁ htenant
  · rw [hwd,hdescribes.document]
    exact congrArg UUID.str (ofText_eq h₂ hdocument)
  · rw [hwc,ofText_eq hn.correlation hcorrelation,hp]
    exact hcorrelation.symm

/-- Whatever a consumer commits for a delivered message is caused by its event. -/
theorem ConsumerOutcome.caused {w : World} (hr : Records w.db)
    (hl : Lineage (events w.db) w.broker) (hon : OnKafka w) {o : Outcome} {draws : Draws}
    (ho : ConsumerOutcome c w o draws) :
    Caused (events w.db) w.broker o.event ∧ Typed o.event ∧
      kindOf o.event.payload≠.submitted := by
  cases ho with
  | fetch ht hn ho => exact fetch_caused hr hl hon ht hn ho
  | complete ht hn _ =>
    refine ⟨extract_caused hr hl hon (by rw [ht]; rfl) hn rfl rfl rfl rfl rfl,⟨rfl,rfl⟩,?_⟩
    exact fun h => EventKind.noConfusion h
  | reject ht hn =>
    refine ⟨extract_caused hr hl hon (by rw [ht]; rfl) hn rfl rfl rfl rfl rfl,⟨rfl,rfl⟩,?_⟩
    exact fun h => EventKind.noConfusion h

/-- A new event is a submission, which is its own correlation, or is caused by an old event. -/
theorem new_event {w : World} (hr : Records w.db) (hl : Lineage (events w.db) w.broker)
    (hon : OnKafka w) {after : Db} (h : DbStep c w after) {e : OutboxEvent} (he : e ∈ events after)
    (hnew : e ∉ events w.db) :
    Typed e ∧
      (kindOf e.payload=.submitted ∧ e.payload.causationId=none ∧
          e.payload.correlationId=e.eventId.str ∨
        kindOf e.payload≠.submitted ∧ Caused (events w.db) w.broker e) := by
  cases h with
  | same => exact absurd he hnew
  | publish _ hevents =>
    rw [events,hevents] at he
    exact absurd he hnew
  | submit _ hdb =>
    rw [eq_of_new_row (events_submitted hdb) he hnew]
    exact ⟨⟨rfl,rfl⟩,.inl ⟨rfl,rfl,rfl⟩⟩
  | consume ho hcommit =>
    obtain ⟨hcaused,htype,hkind⟩ := ho.caused hr hl hon
    rw [eq_of_new_row (events_committed hcommit) he hnew]
    exact ⟨htype,.inr ⟨hkind,hcaused⟩⟩

/-- What is on the broker stays there. -/
theorem broker_subset {w after : World} {a : Action} (ha : step c w a=some after) :
    w.broker ⊆ after.broker := by
  cases transition_of_step ha with
  | publish _ hs =>
    cases Publisher.transition_of_step hs with
    | accept => exact List.subset_append_left _ _
    | _ => exact List.Subset.refl _
  | _ => exact List.Subset.refl _

theorem lineage_step {w after : World} {a : Action} (hr : Records w.db)
    (hl : Lineage (events w.db) w.broker) (hon : OnKafka w) (ha : step c w a=some after) :
    Lineage (events after.db) after.broker := by
  have hsub := (step_db ha).events_subset
  have hbroker := broker_subset ha
  refine ⟨?_,?_,?_⟩
  · intro e he
    by_cases hold : e ∈ events w.db
    · exact hl.typed e hold
    · exact (new_event hr hl hon (step_db ha) he hold).1
  · intro e he hkind
    by_cases hold : e ∈ events w.db
    · exact hl.root e hold hkind
    · obtain ⟨-,⟨-,hroot⟩ | ⟨hne,-⟩⟩ := new_event hr hl hon (step_db ha) he hold
      · exact hroot
      · exact absurd hkind hne
  · intro e he hkind
    by_cases hold : e ∈ events w.db
    · exact (hl.caused e hold hkind).mono hsub hbroker
    · obtain ⟨-,⟨hs,-⟩ | ⟨-,hcaused⟩⟩ := new_event hr hl hon (step_db ha) he hold
      · exact absurd hs hkind
      · exact hcaused.mono hsub hbroker

/-- A delivered message was made from an outbox row, and stays on the broker. -/
lemma Known.onKafka {w : World} (h : Known w) {topic : PyStr} {payload : EventPayload}
    (hm : ∃ m ∈ w.broker, m.topic=topic ∧ m.record=payload) :
    ∃ e ∈ events w.db, e.payload=payload ∧ ∃ m ∈ w.broker, Publisher.kafkaMessage e=.ok m := by
  obtain ⟨m,hm,-,rfl⟩ := hm
  obtain ⟨e,he,hmessage⟩ := h.relayed.broker m hm
  exact ⟨e,he,(Publisher.kafkaMessage_eq_ok hmessage).1.symm,m,hm,hmessage⟩

theorem onKafka_step {w after : World} {a : Action} (hk : Known w) (h : OnKafka w) (ok : Genuine w a)
    (ha : step c w a=some after) : OnKafka after := by
  have hkept : ∀ payload, (∃ e ∈ events w.db, e.payload=payload ∧
      ∃ m ∈ w.broker, Publisher.kafkaMessage e=.ok m) → ∃ e ∈ events after.db,
      e.payload=payload ∧ ∃ m ∈ after.broker, Publisher.kafkaMessage e=.ok m := by
    rintro payload ⟨e,he,hp,m,hm,hmessage⟩
    exact ⟨e,(step_db ha).events_subset he,hp,m,broker_subset ha hm,hmessage⟩
  refine ⟨?_,?_⟩
  · intro t p hp
    apply hkept
    obtain hsame | ⟨b,rfl,ht⟩ := fetching_step ha t
    · exact h.fetching t p (hsame ▸ hp)
    · obtain hp | rfl := ht.active _ _ _ hp
      · exact h.fetching t p hp
      · exact hk.onKafka ok
  · intro t p hp
    apply hkept
    obtain hsame | ⟨b,rfl,ht⟩ := extracting_step ha t
    · exact h.extracting t p (hsame ▸ hp)
    · obtain hp | rfl := ht.active _ _ _ _ hp
      · exact h.extracting t p hp
      · exact hk.onKafka ok

theorem lineage_reach {w : World} (h : (system c).Reach Genuine w) :
    Records w.db ∧ Lineage (events w.db) w.broker ∧ OnKafka w := by
  refine ⟨(records_reach h).2,?_⟩
  induction h with
  | @start w h =>
    obtain ⟨tenants,hdb⟩ := h.db
    have hnone : events w.db=[] := by rw [hdb]; rfl
    refine ⟨⟨?_,?_,?_⟩,?_,?_⟩
    · simp [hnone]
    · simp [hnone]
    · simp [hnone]
    · intro t p hp
      rw [h.fetching t] at hp
      cases hp
    · intro t p hp
      rw [h.extracting t] at hp
      cases hp
  | next before ok ha ih =>
    obtain ⟨hk,hr⟩ := records_reach before
    exact ⟨lineage_step hr ih.1 ih.2 ha,onKafka_step hk ih.2 ok ha⟩

/-- The row that the `causation_id` of a row names. -/
def causeOf (events : List OutboxEvent) (e : OutboxEvent) : Option OutboxEvent :=
  events.find? (fun x => x.tenantId=e.tenantId ∧ e.payload.causationId=some x.eventId.str)

lemma causeOf_eq_some {events : List OutboxEvent}
    (hids : (events.map (fun e => (e.tenantId,e.eventId))).Nodup) {e cause : OutboxEvent}
    (hcause : cause ∈ events) (ht : e.tenantId=cause.tenantId)
    (hid : e.payload.causationId=some cause.eventId.str) : causeOf events e=some cause := by
  have hfound : (causeOf events e).isSome=true := by
    rw [causeOf,List.find?_isSome]
    exact ⟨cause,hcause,by simp [ht,hid]⟩
  obtain ⟨x,hx⟩ := Option.isSome_iff_exists.mp hfound
  rw [hx]
  have hmem := List.mem_of_find?_eq_some hx
  have hnamed := List.find?_some hx
  simp only [decide_eq_true_eq] at hnamed
  obtain ⟨hxt,hxi⟩ := hnamed
  have heq : x.eventId=cause.eventId :=
    UUID.str_injective (Option.some.inj (hxi.symm.trans hid))
  exact congrArg some (eq_of_key_eq hids hmem hcause (Prod.ext (hxt.trans ht) heq))

lemma causeOf_eq_none (events : List OutboxEvent) {e : OutboxEvent}
    (hid : e.payload.causationId=none) : causeOf events e=none := by
  rw [causeOf,List.find?_eq_none]
  simp [hid]

/-- The chain of a row ends in the submission of its document. -/
structure RootedIn (events : List OutboxEvent) (e root : OutboxEvent) : Prop where
  mem : root ∈ events
  kind : kindOf root.payload=.submitted
  chain : follow (causeOf events) 2 e=root
  ended : causeOf events root=none
  tenant : root.tenantId=e.tenantId
  document : root.payload.documentId=e.payload.documentId
  correlation : e.payload.correlationId=root.eventId.str

/-- The submission itself. -/
lemma Lineage.rooted_submission {events : List OutboxEvent}
    {broker : List Publisher.KafkaMessage} (h : Lineage events broker) {e : OutboxEvent}
    (he : e ∈ events) (hkind : kindOf e.payload=.submitted) : RootedIn events e e := by
  obtain ⟨hnone,hcorrelation⟩ := h.root e he hkind
  have hended := causeOf_eq_none events hnone
  exact ⟨he,hkind,follow_ended hended 2,hended,rfl,rfl,hcorrelation⟩

/-- One hop: what is caused by a submission. -/
lemma Lineage.rooted_hop {events : List OutboxEvent} {broker : List Publisher.KafkaMessage}
    (h : Lineage events broker) (hids : (events.map (fun e => (e.tenantId,e.eventId))).Nodup)
    {e : OutboxEvent} (he : e ∈ events) (hkind : (kindOf e.payload).causedBy=some .submitted) :
    ∃ root, RootedIn events e root ∧ causeOf events e=some root := by
  obtain ⟨cause,hcause,hcaused,hid,ht,hd,hc,-⟩ := h.caused e he (EventKind.ne_submitted hkind)
  have hroot : kindOf cause.payload=.submitted := Option.some.inj (hcaused.symm.trans hkind)
  obtain ⟨hnone,hcorrelation⟩ := h.root cause hcause hroot
  have hnamed := causeOf_eq_some hids hcause ht hid
  have hended := causeOf_eq_none events hnone
  refine ⟨cause,⟨hcause,hroot,?_,hended,ht.symm,hd.symm,hc.trans hcorrelation⟩,hnamed⟩
  rw [follow_step hnamed,follow_ended hended]

theorem Lineage.rooted {events : List OutboxEvent} {broker : List Publisher.KafkaMessage}
    (h : Lineage events broker) (hids : (events.map (fun e => (e.tenantId,e.eventId))).Nodup)
    {e : OutboxEvent} (he : e ∈ events) : ∃ root, RootedIn events e root := by
  obtain hkind | hkind | hkind := (kindOf e.payload).causedBy_cases
  · exact ⟨e,h.rooted_submission he hkind⟩
  · obtain ⟨root,hroot,-⟩ := h.rooted_hop hids he hkind
    exact ⟨root,hroot⟩
  · obtain ⟨cause,hcause,hcaused,hid,ht,hd,hc,-⟩ := h.caused e he (EventKind.ne_submitted hkind)
    have hfetched : kindOf cause.payload=.fetched := Option.some.inj (hcaused.symm.trans hkind)
    obtain ⟨root,hroot,hnext⟩ := h.rooted_hop hids hcause (by rw [hfetched]; rfl)
    have hnamed := causeOf_eq_some hids hcause ht hid
    refine ⟨root,hroot.mem,hroot.kind,?_,hroot.ended,hroot.tenant.trans ht.symm,
      hroot.document.trans hd.symm,hc.trans hroot.correlation⟩
    rw [follow_step hnamed,follow_step hnext]
    rfl

/-- A document has one submission. -/
theorem Records.submission_unique {db : Db} (h : Records db) {x y : OutboxEvent}
    (hx : x ∈ events db) (hy : y ∈ events db) (hkx : kindOf x.payload=.submitted)
    (hky : kindOf y.payload=.submitted) (hd : x.payload.documentId=y.payload.documentId) : x=y := by
  obtain ⟨d,-,v,-,s,hs,hin,-⟩ := h.locate hy
  have hnodup : ((history (events db) d.id).map (fun e => kindOf e.payload)).Nodup := by
    rw [hs.kinds]
    exact s.kinds_nodup
  have hxin := mem_history.mpr ⟨hx,hd.trans (mem_history.mp hin).2⟩
  exact eq_of_key_eq hnodup hxin hin (hkx.trans hky.symm)

/-- In every run with genuine deliveries, each row after a submission names its cause, whose
message was on the broker when the row was written, and its chain ends after at most two hops in
the one submission of its document. -/
theorem causal_lineage {w : World} (h : (system c).Reach Genuine w) :
    (∀ e ∈ events w.db, Typed e ∧
      (kindOf e.payload≠.submitted → Caused (events w.db) w.broker e)) ∧
    (∀ a after, step c w a=some after → ∀ e ∈ events after.db, e ∉ events w.db →
      kindOf e.payload≠.submitted → Caused (events w.db) w.broker e) ∧
    ∀ e ∈ events w.db, ∃ root, RootedIn (events w.db) e root ∧
      ∀ x ∈ events w.db, kindOf x.payload=.submitted →
        x.payload.documentId=e.payload.documentId → x=root := by
  obtain ⟨hr,hl,hon⟩ := lineage_reach h
  refine ⟨fun e he => ⟨hl.typed e he,hl.caused e he⟩,?_,?_⟩
  · intro a after ha e he hnew hkind
    obtain ⟨-,⟨hs,-⟩ | ⟨-,hcaused⟩⟩ := new_event hr hl hon (step_db ha) he hnew
    · exact absurd hs hkind
    · exact hcaused
  · intro e he
    obtain ⟨root,hroot⟩ := hl.rooted hr.eventIds he
    refine ⟨root,hroot,?_⟩
    intro x hx hkind hd
    exact hr.submission_unique hx hroot.mem hkind hroot.kind (hd.trans hroot.document.symm)

/-- The three events of a document that goes all the way. -/
theorem small_lineage : ∃ w : World, (system plainConfig).Reach Genuine w ∧ (events w.db).length=3 ∧
    ∀ e ∈ events w.db, ∃ root, RootedIn (events w.db) e root ∧
      ∀ x ∈ events w.db, kindOf x.payload=.submitted →
        x.payload.documentId=e.payload.documentId → x=root := by
  have hrun : ((system plainConfig).runIf Genuine plainWorld (smallRun (py "text"))).any
      (fun w => (events w.db).length=3)=true := by decide +kernel
  obtain ⟨w,hrun,hlength⟩ := (Option.any_eq_true _ _).mp hrun
  have hreach := System.Reach.runIf (.start plainWorld_initial) hrun
  exact ⟨w,hreach,of_decide_eq_true hlength,(causal_lineage hreach).2.2⟩

end RagIngestion.Pipeline
