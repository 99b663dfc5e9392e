import RagIngestion.Pipeline.Attribution
import RagIngestion.Extractor.ArtifactKeys

/-! The object keys of both buckets as paths: which segments they split into, whatever the client
and the messages supply. -/
namespace RagIngestion.Pipeline
open RagIngestion.Python RagIngestion.Domain RagIngestion.Database RagIngestion.Storage
open RagIngestion.Library

/-- The segments of a path that is joined of segments without separators. -/
lemma splitOn_of_segments {key : PyStr} {segments : List PyStr}
    (hkey : key=List.intercalate [47] segments) (hne : segments≠[])
    (h : ∀ segment ∈ segments, (47 : CodePoint) ∉ segment) : key.splitOn 47=segments := by
  rw [hkey]
  exact List.splitOn_intercalate 47 h hne

lemma slash_not_mem_str (u : UUID) : (47 : CodePoint) ∉ u.str :=
  UUID.not_mem_str (.inr (.inl ⟨by decide,by decide⟩)) u

lemma not_mem_replaceChar {a b : CodePoint} (hab : a≠b) (s : PyStr) : a ∉ replaceChar a b s := by
  intro h
  obtain ⟨c,-,hc⟩ := List.mem_map.mp h
  split at hc
  · exact hab hc.symm
  · rename_i hca
    exact hca hc

/-- Replacing a character by another brings in no third one. -/
lemma not_mem_replaceChar_of_not_mem {a b x : CodePoint} (hxb : x≠b) {s : PyStr} (h : x ∉ s) :
    x ∉ replaceChar a b s := by
  intro hx
  obtain ⟨c,hc,heq⟩ := List.mem_map.mp hx
  split at heq
  · exact hxb heq.symm
  · exact h (heq ▸ hc)

/-- The file segment of a source key. -/
def safeFilename (filename : PyStr) : PyStr :=
  let replaced := replaceChar 92 95 (replaceChar 47 95 filename)
  if replaced=[] then py "upload" else replaced

lemma safeFilename_ne_nil (filename : PyStr) : safeFilename filename≠[] := by
  unfold safeFilename
  dsimp only
  split
  · decide
  · assumption

lemma slash_not_mem_safeFilename (filename : PyStr) : 47 ∉ safeFilename filename := by
  unfold safeFilename
  dsimp only
  split
  · decide
  · exact not_mem_replaceChar_of_not_mem (by decide) (not_mem_replaceChar (by decide) filename)

/-- A source key has four segments, whatever the filename. -/
theorem sourceObjectKey_splitOn (tenantId documentId : UUID) (filename : PyStr) :
    (sourceObjectKey tenantId documentId filename).splitOn 47=
      [tenantId.str,documentId.str,py "original",safeFilename filename] := by
  apply splitOn_of_segments
  · simp [sourceObjectKey,safeFilename,List.intercalate,py_slash]
    rfl
  · simp
  · simp only [List.forall_mem_cons]
    refine ⟨slash_not_mem_str tenantId,slash_not_mem_str documentId,by decide,?_,by simp⟩
    exact slash_not_mem_safeFilename filename

/-- The key of a call of `put_json`. -/
inductive PutsUnder : Extractor.Task → PyStr → Prop
  | normalized {p r key}
      (h : (Extractor.payloadIds p).map (fun ids => Extractor.normalizedKey ids p)=.ok key) :
      PutsUnder (.extracted p r) key
  | manifest {p r uri key}
      (h : (Extractor.payloadIds p).map (fun ids => Extractor.manifestKey ids p)=.ok key) :
      PutsUnder (.stored p r uri) key

variable {c : Config}

/-- A step of a call writes no artifact, or one under such a key. -/
theorem artifacts_under {source : PyStr → Option StoredObject} {w after : Extractor.Stores}
    {task next : Extractor.Task} {a : Extractor.Action}
    (h : Extractor.Transition c.rt c.sourceBucket c.artifactBucket c.extractionMaxBytes source w task a
      after next) : after.artifacts=w.artifacts ∨
      ∃ key body, PutsUnder task key ∧ after.artifacts=Function.update w.artifacts key (some body) := by
  cases h with
  | putNormalized h =>
    cases h with
    | fails => exact .inl rfl
    | lost hk => exact .inr ⟨_,_,.normalized hk,rfl⟩
    | stored hk => exact .inr ⟨_,_,.normalized hk,rfl⟩
  | putManifest h =>
    cases h with
    | fails => exact .inl rfl
    | lost hk => exact .inr ⟨_,_,.manifest hk,rfl⟩
    | stored hk => exact .inr ⟨_,_,.manifest hk,rfl⟩
  | _ => exact .inl rfl

/-- What a call stores was extracted from bytes with the hash of the payload. -/
lemma Extracts.hash {p : DocumentFetched} {task : Extractor.Task} (h : Extracts c p task)
    {r : Extractor.ExtractionResult} (hr : task.result=some r) :
    ∃ d : Digest, p.contentSha256=hexdigest d := by
  induction h generalizing r with
  | started => cases hr
  | next h ht ih =>
    cases ht.result _ _ _ _ hr with
    | inl hr => exact ih hr
    | inr hextract =>
      obtain ⟨q,body,read,convert,rfl,-,hok⟩ := hextract
      cases h.payload
      obtain ⟨content,-,-,-,-,-,hhash,-⟩ := Extractor.extractPdf_eq_ok hok
      exact ⟨_,hhash.symm⟩

lemma PutsUnder.key {p : DocumentFetched} {task : Extractor.Task} {key : PyStr}
    (h : PutsUnder task key) (hp : task.payload=some p) : ∃ ids file r, Extractor.payloadIds p=.ok ids ∧
      file ∈ [py "normalized.json",py "manifest.json"] ∧ task.result=some r ∧
      key=Extractor.artifactPrefix ids p ++ 47::file := by
  cases h with
  | normalized h =>
    cases hp
    obtain ⟨ids,hids,hkey⟩ := Extractor.map_payloadIds h
    exact ⟨ids,py "normalized.json",_,hids,List.mem_cons_self,rfl,
      hkey.trans (Extractor.normalizedKey_eq ids p)⟩
  | manifest h =>
    cases hp
    obtain ⟨ids,hids,hkey⟩ := Extractor.map_payloadIds h
    exact ⟨ids,py "manifest.json",_,hids,List.mem_cons_of_mem _ List.mem_cons_self,rfl,
      hkey.trans (Extractor.manifestKey_eq ids p)⟩

/-- An artifact key has five segments, of a hash without separators. -/
theorem artifactKey_splitOn (ids : Extractor.Ids) {p : DocumentFetched} {file : PyStr}
    (hhash : 47 ∉ p.contentSha256) (hfile : 47 ∉ file) :
    (Extractor.artifactPrefix ids p ++ 47::file).splitOn 47=
      [ids.tenantId.str,ids.versionId.str,py "extracted",p.contentSha256,file] := by
  apply splitOn_of_segments
  · simp [Extractor.artifactPrefix,List.intercalate,py_slash]
    rfl
  · simp
  · simp only [List.forall_mem_cons]
    exact ⟨slash_not_mem_str ids.tenantId,slash_not_mem_str ids.versionId,by decide,hhash,hfile,by simp⟩

/-- Source keys have four segments and those of different documents differ; an artifact key has
five, of the payload's tenant and version, a hash and one of two names, whatever the payload. -/
theorem keys_stay_in_tenant (c : Config) :
    (∀ tenantId documentId filename, ∃ file, file≠[] ∧
      (sourceObjectKey tenantId documentId filename).splitOn 47=
        [tenantId.str,documentId.str,py "original",file]) ∧
    (∀ tenantId documentId filename tenantId' documentId' filename',
      sourceObjectKey tenantId documentId filename=sourceObjectKey tenantId' documentId' filename' →
        tenantId=tenantId' ∧ documentId=documentId') ∧
    ∀ p task key, Extracts c p task → PutsUnder task key → ∃ ids hash file,
      Extractor.payloadIds p=.ok ids ∧
      key.splitOn 47=[ids.tenantId.str,ids.versionId.str,py "extracted",hash,file] ∧
      hash.length=64 ∧ (∀ x ∈ hash, isLowerHexDigit x=true) ∧
      file ∈ [py "normalized.json",py "manifest.json"] := by
  refine ⟨fun t d f => ⟨_,safeFilename_ne_nil f,sourceObjectKey_splitOn t d f⟩,?_,?_⟩
  · intro t d f t' d' f' h
    have hsegments := congrArg (List.splitOn 47) h
    rw [sourceObjectKey_splitOn,sourceObjectKey_splitOn] at hsegments
    simp only [List.cons.injEq] at hsegments
    exact ⟨UUID.str_injective hsegments.1,UUID.str_injective hsegments.2.1⟩
  · intro p task key h hput
    obtain ⟨ids,file,r,hids,hfile,hr,hkey⟩ := hput.key h.payload
    obtain ⟨d,hd⟩ := h.hash hr
    have hslash : ∀ file ∈ [py "normalized.json",py "manifest.json"], (47 : CodePoint) ∉ file := by
      simp only [List.forall_mem_cons]
      exact ⟨by decide,by decide,by simp⟩
    refine ⟨ids,p.contentSha256,file,hids,?_,?_,?_,hfile⟩
    · rw [hkey]
      exact artifactKey_splitOn ids (hd ▸ Extractor.slash_not_mem_hexdigest d) (hslash file hfile)
    · rw [hd,hexdigest,hexText_length]
    · rw [hd]
      intro x hx
      obtain ⟨digit,rfl⟩ := mem_hexText hx
      exact isLowerHexDigit_hexDigit digit

/-- The extractor's call on the small upload is about to store what it extracted. -/
theorem small_artifact_confined : ∃ result key,
    Extracts plainConfig smallFetched (.extracted smallFetched result) ∧
    PutsUnder (.extracted smallFetched result) key ∧ ∃ hash file,
      key.splitOn 47=[(UUID.mk 1).str,(UUID.mk 3).str,py "extracted",hash,file] ∧
      hash.length=64 ∧ file ∈ [py "normalized.json",py "manifest.json"] := by
  let stores : Extractor.Stores := ⟨fun _ => none,smallDb⟩
  let result := Extractor.extractionResult Extractor.plainRuntime plainSource
    (Extractor.withoutBinaryDict []) (py "text")
  have hget : Extractor.Transition plainConfig.rt plainConfig.sourceBucket plainConfig.artifactBucket
      plainConfig.extractionMaxBytes (fun _ => some smallObject) stores (.started smallFetched)
      (.get .none) stores (.opened smallFetched smallObject.body) :=
    .get smallFetched_accepted (getObject_of_key smallUri_addressed rfl)
  have hextract : Extractor.Transition plainConfig.rt plainConfig.sourceBucket
      plainConfig.artifactBucket plainConfig.extractionMaxBytes (fun _ => some smallObject) stores
      (.opened smallFetched smallObject.body) (.extract readAvailable (fun _ => .ok ([],py "text")))
      stores (.extracted smallFetched result) :=
    .extracted (Extractor.extractPdf_plainSource [] (py "text"))
  have hextracts : Extracts plainConfig smallFetched (.extracted smallFetched result) :=
    .next (.next .started hget) hextract
  have hids : Extractor.payloadIds smallFetched=.ok ⟨⟨1⟩,⟨2⟩,⟨3⟩,⟨6⟩⟩ :=
    (smallExtract_healthy []).names.ids
  have hput : PutsUnder (.extracted smallFetched result)
      (Extractor.normalizedKey ⟨⟨1⟩,⟨2⟩,⟨3⟩,⟨6⟩⟩ smallFetched) :=
    .normalized (by rw [hids]; rfl)
  obtain ⟨ids,hash,file,hnames,hkey,hlength,-,hfile⟩ :=
    (keys_stay_in_tenant plainConfig).2.2 _ _ _ hextracts hput
  rw [hids] at hnames
  cases hnames
  exact ⟨result,_,hextracts,hput,hash,file,hkey,hlength,hfile⟩

end RagIngestion.Pipeline
