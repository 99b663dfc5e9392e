import RagIngestion.Publisher.Wire
import RagIngestion.Python.DumpsLoads
import RagIngestion.Python.Repr

/-! The way of an event through the JSONB columns of the outbox: `json.dumps` of the insert, the
column, `json.loads` of the publisher, and the bytes it hands to the producer. -/
namespace RagIngestion.Publisher
open RagIngestion.Python RagIngestion.Domain RagIngestion.Database RagIngestion.Library

/-- What `producer.produce` is called with. -/
structure Produced where
  topic : PyStr
  key : PyStr
  value : Bytes
  headers : List (PyStr × Bytes)
  deriving DecidableEq

/-- `(key, value.encode())`. -/
def encodeHeader (header : PyStr × PyStr) : Option (PyStr × Bytes) :=
  (encode header.2).map (fun bytes => (header.1,bytes))

/-- The headers the publisher adds to those of the row. -/
def contractHeaders (contract : PyStr × PyStr) (version : PyStr) : List (PyStr × PyStr) :=
  [(py "content-type",py "application/vnd.apache.avro.binary"),
    (py "event-contract-namespace",contract.1),(py "event-schema-name",contract.2),
    (py "schema-version",version)]

/-- `.items()` of a value. -/
def itemsOf : Json → Option (List (PyStr × Json))
  | .dict items => some items
  | _ => none

/-- The texts of the two JSONB columns as `json.dumps` makes them for an insert. -/
def payloadText (event : OutboxEvent) : PyStr := jsonDumps ⟨true,false,false⟩ (.dict event.payload.items)

def headerItems (event : OutboxEvent) : List (PyStr × Json) :=
  event.headers.map (fun kv => (kv.1,.str kv.2))

def headersText (event : OutboxEvent) : PyStr := jsonDumps ⟨true,false,false⟩ (.dict (headerItems event))

section
variable (decimal : PyStr → String) (isPrintable : CodePoint → Bool)

/-- `_publish_event` up to the call of `produce`, over the text of the columns `payload` and
`headers`; the other columns are those of the row. Nothing where it raises. -/
def publishEvent (row : OutboxEvent) (payload headers : PyStr) : Option Produced := do
  let contract ← (resolveContractMetadata row).toOption
  let schema ← (eventSchemaFiles.lookup contract).bind (fun file => avroSchemas.lookup file)
  let record ← (jsonLoads decimal payload).bind itemsOf
  let given ← if headers=[] then some [] else (jsonLoads decimal headers).bind itemsOf
  let version ← record.lookup (py "schema_version")
  let sent ← (given.map (fun kv => (kv.1,kv.2.pyStr isPrintable)) ++
    contractHeaders contract (version.pyStr isPrintable)).mapM encodeHeader
  let value ← serialize schema record
  some ⟨row.kafkaTopic,row.tenantId.str ++ py ":" ++ row.aggregateId.str,value,sent⟩

/-- Null, an integer, or text that can be encoded. -/
def Flat : Json → Prop
  | .null => True
  | .int _ => True
  | .str s => Scalar s
  | _ => False

/-- The entries of an object of flat values. -/
structure FlatItems (items : List (PyStr × Json)) : Prop where
  keys : (items.map Prod.fst).Nodup
  flat : ∀ kv ∈ items, Scalar kv.1 ∧ Flat kv.2

/-- What a JSONB column documents, for objects of flat values: where it takes a text of one, it
returns a text of the same entries, in an order of its own. -/
def KeepsEntries (jsonb : PyStr → Option PyStr) : Prop :=
  ∀ items text out, FlatItems items → Written decimal (.value (.dict items)) text →
    jsonb text=some out → ∃ stored, stored.Perm items ∧ Written decimal (.value (.dict stored)) out

end

lemma Flat.loadable {v : Json} (h : Flat v) (decimal : PyStr → String) (ensureAscii : Bool) :
    v.Loadable decimal ensureAscii := by
  cases v with
  | null => trivial
  | int => trivial
  | str => exact fun _ => h
  | _ => cases h

lemma FlatItems.loadable {items : List (PyStr × Json)} (h : FlatItems items)
    (decimal : PyStr → String) (ensureAscii : Bool) : (Json.dict items).Loadable decimal ensureAscii := by
  refine ⟨h.keys,(Json.loadableItems_iff decimal ensureAscii items).mpr ?_⟩
  exact fun kv hkv => ⟨fun _ => (h.flat kv hkv).1,(h.flat kv hkv).2.loadable decimal ensureAscii⟩

lemma FlatItems.of_perm {items stored : List (PyStr × Json)} (h : FlatItems items)
    (hperm : stored.Perm items) : FlatItems stored :=
  ⟨(hperm.map Prod.fst).nodup_iff.mpr h.keys,fun kv hkv => h.flat kv (hperm.mem_iff.mp hkv)⟩

lemma flat_of_accepts {t : AvroType} {v : Json} (h : t.Accepts v) : Flat v := by
  cases t with
  | string =>
    cases v with
    | str => exact h
    | _ => cases h
  | long =>
    cases v with
    | int => trivial
    | _ => cases h
  | nullOrString =>
    cases v with
    | null => trivial
    | str => exact h
    | _ => cases h

lemma scalar_keys (payload : EventPayload) : ∀ kv ∈ payload.items, Scalar kv.1 := by
  cases payload <;> simp only [EventPayload.items,List.forall_mem_cons,scalar_py,true_and] <;>
    exact fun kv hkv => (by cases hkv)

lemma schemaVersion_mem (payload : EventPayload) :
    (py "schema_version",.str payload.schemaVersion) ∈ payload.items := by
  cases payload <;> simp [EventPayload.items,EventPayload.schemaVersion]

/-- A record is written alike whatever the order of its entries. -/
lemma serialize_of_perm {schema : List AvroField} {items stored : List (PyStr × Json)}
    (hkeys : (items.map Prod.fst).Nodup) (h : Conforms schema items) (hperm : stored.Perm items) :
    serialize schema stored=serialize schema items := by
  apply writeFields_congr
  intro f hf
  obtain ⟨g,hg,rfl⟩ := List.mem_map.mp hf
  have hname : g.name ∈ items.map Prod.fst := h.names ▸ List.mem_map_of_mem hg
  obtain ⟨entry,hentry,hkey⟩ := List.mem_map.mp hname
  rw [Field.value,Field.value,AvroField.field,← hkey,lookup_of_perm hkeys hperm entry hentry,
    lookup_of_perm hkeys (.refl items) entry hentry]

lemma flat_of_conforms {schema : List AvroField} {items : List (PyStr × Json)}
    (h : Conforms schema items) : ∀ kv ∈ items, Flat kv.2 := by
  induction h with
  | nil => exact fun kv hkv => (by cases hkv)
  | cons hentry _ ih => exact List.forall_mem_cons.mpr ⟨flat_of_accepts hentry.2,ih⟩

section
variable (decimal : PyStr → String) (isPrintable : CodePoint → Bool)

lemma written_flat {items : List (PyStr × Json)} (h : FlatItems items) (ensureAscii : Bool) :
    Written decimal (.value (.dict items)) (jsonDumps ⟨ensureAscii,false,false⟩ (.dict items)) := by
  have hwritten := written_jsonDumps decimal ⟨ensureAscii,false,false⟩ (h.loadable decimal ensureAscii)
  rw [Json.arranged_false] at hwritten
  exact hwritten

/-- What the publisher reads of a column that an insert filled. -/
lemma column_read {jsonb : PyStr → Option PyStr} (hjsonb : KeepsEntries decimal jsonb)
    {items : List (PyStr × Json)} (h : FlatItems items) {out : PyStr}
    (hout : jsonb (jsonDumps ⟨true,false,false⟩ (.dict items))=some out) :
    ∃ stored, stored.Perm items ∧ jsonLoads decimal out=some (.dict stored) := by
  obtain ⟨stored,hperm,hstored⟩ := hjsonb items _ out h (written_flat decimal h true) hout
  exact ⟨stored,hperm,jsonLoads_text decimal hstored⟩

lemma mapM_encodeHeader {headers : List (PyStr × PyStr)} (h : ∀ kv ∈ headers, Scalar kv.2) :
    ∃ sent, headers.mapM encodeHeader=some sent := by
  induction headers with
  | nil => exact ⟨[],rfl⟩
  | cons kv headers ih =>
    rw [List.forall_mem_cons] at h
    obtain ⟨bytes,hbytes⟩ := Option.isSome_iff_exists.mp ((encode_isSome_iff kv.2).mpr h.1)
    obtain ⟨sent,hsent⟩ := ih h.2
    exact ⟨(kv.1,bytes)::sent,by simp [encodeHeader,hbytes,hsent]⟩

lemma pyStr_str (s : PyStr) : (Json.str s).pyStr isPrintable=s := rfl

lemma Insertable.headerNames {event : OutboxEvent} (h : Insertable event) :
    event.headers.map Prod.fst=[py "event_type"] ∨
      event.headers.map Prod.fst=[py "event_type",py "causation_id"] := by
  cases h with
  | submitted => exact .inl rfl
  | fetched => exact .inr rfl
  | fetchRejected => exact .inr rfl
  | extracted => exact .inr rfl
  | extractionRejected => exact .inr rfl

lemma Insertable.headers_flat {event : OutboxEvent} (h : Insertable event)
    (hheaders : ∀ kv ∈ event.headers, Scalar kv.2) : FlatItems (headerItems event) := by
  have hnames : (event.headers.map Prod.fst).Nodup ∧ ∀ k ∈ event.headers.map Prod.fst, Scalar k := by
    rcases h.headerNames with hnames | hnames
    · rw [hnames]
      exact ⟨by decide +kernel,by decide +kernel⟩
    · rw [hnames]
      exact ⟨by decide +kernel,by decide +kernel⟩
  refine ⟨?_,?_⟩
  · rw [headerItems,List.map_map]
    exact hnames.1
  · intro kv hkv
    obtain ⟨x,hx,rfl⟩ := List.mem_map.mp hkv
    exact ⟨hnames.2 x.1 (List.mem_map_of_mem hx),hheaders x hx⟩

lemma Wired.payload_flat {event : OutboxEvent} {m : KafkaMessage} {schema : List AvroField}
    (h : Wired event m schema) : FlatItems event.payload.items :=
  ⟨h.conforms.names ▸ h.names,fun kv hkv => ⟨scalar_keys _ kv hkv,flat_of_conforms h.conforms kv hkv⟩⟩

lemma kafkaMessage_parts {event : OutboxEvent} {m : KafkaMessage} (h : kafkaMessage event=.ok m) :
    ∃ contract, resolveContractMetadata event=.ok contract ∧
      eventSchemaFiles.lookup contract=some m.schemaFile ∧ m.topic=event.kafkaTopic ∧
      m.key=event.tenantId.str ++ py ":" ++ event.aggregateId.str ∧
      m.headers=event.headers ++ contractHeaders contract event.payload.schemaVersion := by
  unfold kafkaMessage at h
  split at h
  · cases h
  · next contract hcontract =>
    split at h
    · cases h
    · next file hfile =>
      cases h
      exact ⟨contract,hcontract,hfile,rfl,rfl,rfl⟩

/-- A contract with a schema of its own has names that can be encoded. -/
lemma scalar_contract {contract : PyStr × PyStr} {file : PyStr}
    (h : eventSchemaFiles.lookup contract=some file) : Scalar contract.1 ∧ Scalar contract.2 := by
  obtain ⟨before,after,hmem,-⟩ := List.lookup_eq_some_iff.mp h
  have hall : ∀ e ∈ eventSchemaFiles, Scalar e.1.1 ∧ Scalar e.1.2 := by decide +kernel
  exact hall (contract,file) (by rw [hmem]; simp)

/-- The columns carry an event unharmed: from their texts the publisher makes the topic, the key
and the headers of the row's message, and as its value the very bytes that the payload has in the
registered contract, which the subscriber of the topic decodes to the payload. -/
theorem produced_from_columns {jsonb : PyStr → Option PyStr} (hjsonb : KeepsEntries decimal jsonb)
    {event : OutboxEvent} (h : Insertable event) (hheaders : ∀ kv ∈ event.headers, Scalar kv.2)
    {payload headers : PyStr} (hpayload : jsonb (payloadText event)=some payload)
    (hcolumn : jsonb (headersText event)=some headers) :
    ∃ m writer reader value sent, ∃ order : List (PyStr × PyStr), kafkaMessage event=.ok m ∧
      publishEvent decimal isPrintable event payload headers=some ⟨m.topic,m.key,value,sent⟩ ∧
      avroSchemas.lookup m.schemaFile=some writer ∧
      avroSchemas.lookup (subscriberSchemaFile m)=some reader ∧
      serialize writer event.payload.items=some value ∧
      deserialize reader value=some event.payload.items ∧
      order.Perm m.headers ∧ order.mapM encodeHeader=some sent := by
  obtain ⟨m,schema,hw⟩ := h.wired
  have hflat := hw.payload_flat
  obtain ⟨stored,hstored,hrecord⟩ := column_read decimal hjsonb hflat hpayload
  obtain ⟨given,hgiven,hloaded⟩ := column_read decimal hjsonb (h.headers_flat hheaders) hcolumn
  obtain ⟨contract,hcontract,hfile,htopic,hkey,hnamed⟩ := kafkaMessage_parts hw.message
  obtain ⟨value,hvalue,hdecoded⟩ := deserialize_serialize hw.names hw.conforms (.refl _)
  have hversion := lookup_of_perm hflat.keys hstored _ (schemaVersion_mem event.payload)
  have horder : (given.map (fun kv => (kv.1,kv.2.pyStr isPrintable))).Perm event.headers := by
    have hmap := hgiven.map (fun kv : PyStr × Json => (kv.1,kv.2.pyStr isPrintable))
    rw [headerItems,List.map_map] at hmap
    exact hmap.trans (List.Perm.of_eq (List.map_id event.headers))
  have hperm := horder.append_right (contractHeaders contract event.payload.schemaVersion)
  have hencodes : ∀ kv ∈ given.map (fun kv => (kv.1,kv.2.pyStr isPrintable)) ++
      contractHeaders contract event.payload.schemaVersion, Scalar kv.2 := by
    intro kv hkv
    cases List.mem_append.mp (hperm.mem_iff.mp hkv) with
    | inl hmem => exact hheaders kv hmem
    | inr hmem =>
      have hpayloadVersion : Scalar event.payload.schemaVersion :=
        flat_of_conforms hw.conforms _ (schemaVersion_mem event.payload)
      simp only [contractHeaders,List.mem_cons,List.not_mem_nil,or_false] at hmem
      rcases hmem with rfl | rfl | rfl | rfl
      · exact scalar_py _
      · exact (scalar_contract hfile).1
      · exact (scalar_contract hfile).2
      · exact hpayloadVersion
  obtain ⟨sent,hsent⟩ := mapM_encodeHeader hencodes
  refine ⟨m,schema,schema,value,sent,_,hw.message,?_,hw.writer,hw.reader,hvalue,hdecoded,hnamed ▸ hperm,
    hsent⟩
  have hfilled : headers≠[] := by
    rintro rfl
    cases hloaded
  simp only [publishEvent,hcontract,Except.toOption,hfile,hw.writer,hrecord,hloaded,hfilled,if_false,
    itemsOf,hversion,pyStr_str,Option.bind_eq_bind,Option.bind_some]
  rw [hsent,serialize_of_perm hflat.keys hw.conforms hstored,hvalue,htopic,hkey]
  rfl
/-- A column of objects with ASCII keys: shorter keys come first, and nothing but quotes,
backslashes and control characters is escaped. -/
def jsonbObject (text : PyStr) : Option PyStr :=
  ((jsonLoads decimal text).bind itemsOf).map (fun items => jsonDumps ⟨false,false,false⟩
    (.dict (items.insertionSort (fun a b =>
      a.1.length<b.1.length ∨ a.1.length=b.1.length ∧ a.1 ≤ b.1))))

lemma jsonbObject_written {items : List (PyStr × Json)} {text : PyStr}
    (h : Written decimal (.value (.dict items)) text) : ∃ stored, stored.Perm items ∧
      jsonbObject decimal text=some (jsonDumps ⟨false,false,false⟩ (.dict stored)) := by
  refine ⟨_,List.perm_insertionSort (fun a b =>
    a.1.length<b.1.length ∨ a.1.length=b.1.length ∧ a.1 ≤ b.1) items,?_⟩
  rw [jsonbObject,jsonLoads_text decimal h]
  rfl

lemma jsonbObject_keepsEntries : KeepsEntries decimal (jsonbObject decimal) := by
  intro items text out hflat htext hout
  obtain ⟨stored,hperm,hstored⟩ := jsonbObject_written decimal htext
  rw [hstored] at hout
  rw [← Option.some.inj hout]
  exact ⟨stored,hperm,written_flat decimal (hflat.of_perm hperm) false⟩

end

/-- A submission whose object key has a character outside ASCII. -/
def accentedEvent : OutboxEvent := Submission.submittedEvent ⟨1⟩ ⟨2⟩ ⟨3⟩
  (buildDocumentSubmittedEvent ⟨3⟩ (py "2024") ⟨1⟩ ⟨2⟩ (py "s3://rag-source/é.pdf") none)

theorem accented_event_produced : ∃ payload headers p,
    jsonbObject (fun _ => "") (payloadText accentedEvent)=some payload ∧
      jsonbObject (fun _ => "") (headersText accentedEvent)=some headers ∧
      publishEvent (fun _ => "") (fun _ => true) accentedEvent payload headers=some p ∧
      deserialize documentSubmittedSchema p.value=some accentedEvent.payload.items := by
  have h : Insertable accentedEvent := .submitted ⟨1⟩ ⟨2⟩ ⟨3⟩ ⟨3⟩ (py "2024") ⟨1⟩ ⟨2⟩
    (py "s3://rag-source/é.pdf") none (scalar_py _) (scalar_py _)
  have hheaders : ∀ kv ∈ accentedEvent.headers, Scalar kv.2 :=
    List.forall_mem_singleton.mpr (scalar_py _)
  obtain ⟨m,schema,hw⟩ := h.wired
  obtain ⟨stored,-,hpayload⟩ := jsonbObject_written (fun _ => "")
    (written_flat (fun _ => "") hw.payload_flat true)
  obtain ⟨given,-,hcolumn⟩ := jsonbObject_written (fun _ => "")
    (written_flat (fun _ => "") (h.headers_flat hheaders) true)
  obtain ⟨m,writer,reader,value,sent,order,hm,hproduced,-,hreader,-,hdecoded,-⟩ :=
    produced_from_columns (fun _ => "") (fun _ => true) (jsonbObject_keepsEntries _) h hheaders hpayload
      hcolumn
  cases hm
  cases hreader
  exact ⟨_,_,_,hpayload,hcolumn,hproduced,hdecoded⟩

end RagIngestion.Publisher
