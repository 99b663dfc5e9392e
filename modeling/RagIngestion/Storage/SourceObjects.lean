import RagIngestion.Python.Url
import RagIngestion.Python.Uuid

/-! Addressing of source objects: the key the API chooses, the URI the store returns for it,
and the key the workers read from that URI. -/
namespace RagIngestion.Storage
open RagIngestion.Python

/-- The characters S3 clients accept in a bucket name. -/
def isBucketChar (c : CodePoint) : Bool :=
  isAsciiLetter c || isAsciiDigit c || c==45 || c==46 || c==95

/-- A bucket name an S3 client sends requests for. -/
structure BucketName where
  name : PyStr
  valid : ∀ c ∈ name, isBucketChar c=true

/-- The default of `minio_source_bucket`. -/
def minioSourceBucket : BucketName where
  name := py "rag-source"
  valid := by
    have h : (py "rag-source").all isBucketChar=true := rfl
    simpa using h

/-- The default of `minio_artifact_bucket`. -/
def minioArtifactBucket : BucketName where
  name := py "rag-artifacts"
  valid := by
    have h : (py "rag-artifacts").all isBucketChar=true := rfl
    simpa using h

/-- The object key of a submission's source bytes. -/
def sourceObjectKey (tenantId documentId : UUID) (filename : PyStr) : PyStr :=
  let replaced := replaceChar 92 95 (replaceChar 47 95 filename)
  let safeFilename := if replaced=[] then py "upload" else replaced
  tenantId.str ++ py "/" ++ documentId.str ++ py "/original/" ++ safeFilename

/-- The URI `SourceObjectStore.put` and `ArtifactStore.put_json` return for a stored key. -/
def objectUri (bucket : BucketName) (key : PyStr) : PyStr :=
  py "s3://" ++ bucket.name ++ py "/" ++ key

/-- The key `SourceObjectStore.get` requests for a URI. -/
def sourceKeyOf (bucket : BucketName) (uri : PyStr) : Except PyError PyStr :=
  let parsed := urlsplit uri
  let key := lstrip (fun c => c==47) parsed.path
  if parsed.scheme≠py "s3" ∨ parsed.netloc≠bucket.name ∨ key=[] then .error .valueError
  else .ok key

/-- An object with the headers `SourceObjectStore.put` sends. -/
structure StoredObject where
  body : Bytes
  contentType : PyStr
  sha256 : PyStr

/-- `SourceObjectStore.get`: the object a URI names. -/
def getObject (bucket : BucketName) (source : PyStr → Option StoredObject) (uri : PyStr) :
    Except PyError StoredObject :=
  match sourceKeyOf bucket uri with
  | .error e => .error e
  | .ok key =>
    match source key with
    | none => .error .clientError
    | some o => .ok o

theorem getObject_of_key {bucket : BucketName} {source : PyStr → Option StoredObject} {uri key : PyStr}
    {o : StoredObject} (hk : sourceKeyOf bucket uri=.ok key) (ho : source key=some o) :
    getObject bucket source uri=.ok o := by
  simp only [getObject,hk,ho]

theorem getObject_of_error {bucket : BucketName} {source : PyStr → Option StoredObject} {uri : PyStr}
    {e : PyError} (hk : sourceKeyOf bucket uri=.error e) : getObject bucket source uri=.error e := by
  simp only [getObject,hk]

lemma bucketChar_facts {c : CodePoint} (h : isBucketChar c=true) :
    isUnsafeUrlChar c=false ∧ c≠47 ∧ c≠63 ∧ c≠35 := by
  have hne : ∀ d : CodePoint, isBucketChar d=false → c≠d := by
    rintro d hd rfl
    rw [h] at hd
    contradiction
  refine ⟨?_,hne 47 rfl,hne 63 rfl,hne 35 rfl⟩
  simp [isUnsafeUrlChar,hne 9 rfl,hne 10 rfl,hne 13 rfl]

lemma py_slash : py "/"=[47] := rfl

lemma py_s3Prefix : py "s3://"=[115,51,58,47,47] := rfl

lemma objectUri_eq (bucket : BucketName) (key : PyStr) :
    objectUri bucket key=115::51::58::47::47::(bucket.name ++ 47::key) := by
  simp only [objectUri,py_s3Prefix,py_slash,List.append_assoc,List.cons_append,List.nil_append]

/-- The URIs of different keys of a bucket differ. -/
theorem objectUri_injective (bucket : BucketName) : Function.Injective (objectUri bucket) := by
  intro x y h
  exact List.append_cancel_left h

/-- A stored URI splits into the scheme, the bucket and the cut key. -/
theorem urlsplit_objectUri (bucket : BucketName) (key : PyStr) :
    urlsplit (objectUri bucket key)=
      ⟨py "s3",bucket.name,cutPath (47::key.filter (fun c => !isUnsafeUrlChar c))⟩ := by
  have hb : bucket.name.filter (fun c => !isUnsafeUrlChar c)=bucket.name :=
    List.filter_eq_self.mpr (fun c hc => by simp [(bucketChar_facts (bucket.valid c hc)).1])
  have hclean : (lstrip (fun c => decide (c.val ≤ 32)) (objectUri bucket key)).filter
      (fun c => !isUnsafeUrlChar c)=115::51::58::47::47::(bucket.name ++
        47::key.filter (fun c => !isUnsafeUrlChar c)) := by
    rw [objectUri_eq]
    change (115::51::58::47::47::(bucket.name ++ 47::key)).filter _=_
    simp only [List.filter_cons,List.filter_append,hb]
    rfl
  have hscheme : ∀ rest : PyStr, splitScheme (115::51::58::rest)=(py "s3",rest) := by
    intro rest
    have ht : (115::51::58::rest).takeWhile (fun c : CodePoint => decide (c≠58))=[115,51] := by
      simp
    rw [splitScheme,ht,if_pos]
    · rfl
    · exact ⟨by simp,by decide,by decide⟩
  have hnetloc : ∀ rest : PyStr, splitNetloc (47::47::(bucket.name ++ 47::rest))=
      (bucket.name,47::rest) := by
    intro rest
    have hall : ∀ c ∈ bucket.name, decide (c≠47 ∧ c≠63 ∧ c≠35)=true :=
      fun c hc => decide_eq_true (bucketChar_facts (bucket.valid c hc)).2
    have ht : (bucket.name ++ 47::rest).takeWhile (fun c => decide (c≠47 ∧ c≠63 ∧ c≠35))=bucket.name := by
      rw [List.takeWhile_append_of_pos hall]; simp
    have hd : (bucket.name ++ 47::rest).dropWhile (fun c => decide (c≠47 ∧ c≠63 ∧ c≠35))=47::rest := by
      rw [List.dropWhile_append_of_pos hall]; simp
    have h2 : (47::47::(bucket.name ++ 47::rest)).take 2=py "//" := by
      rw [show py "//"=[47,47] from rfl]
      rfl
    rw [splitNetloc,if_pos h2]
    exact Prod.ext ht hd
  rw [urlsplit,hclean,hscheme,hnetloc]

/-- The reader's key for a stored URI: the key with characters deleted and its tail cut. -/
theorem sourceKeyOf_objectUri (bucket : BucketName) (key : PyStr) :
    sourceKeyOf bucket (objectUri bucket key)=
      let read := lstrip (fun c => c==47) (cutPath (key.filter (fun c => !isUnsafeUrlChar c)))
      if read=[] then .error .valueError else .ok read := by
  have hl : lstrip (fun c => c==47) (cutPath (47::key.filter (fun c => !isUnsafeUrlChar c)))=
      lstrip (fun c => c==47) (cutPath (key.filter (fun c => !isUnsafeUrlChar c))) := by
    simp [cutPath,lstrip]
  simp [sourceKeyOf,urlsplit_objectUri,hl]

lemma sourceObjectKey_eq (tenantId documentId : UUID) {filename : PyStr} (h : filename≠[]) :
    sourceObjectKey tenantId documentId filename=tenantId.str ++ 47::(documentId.str ++
      (py "/original/" ++ replaceChar 92 95 (replaceChar 47 95 filename))) := by
  have hne : replaceChar 92 95 (replaceChar 47 95 filename)≠[] := by
    simpa [replaceChar] using h
  simp only [sourceObjectKey,if_neg hne,py_slash,List.append_assoc,List.cons_append,List.nil_append]

/-- Characters that the URI parser deletes or takes for the end of the path. -/
def breaksUri (c : CodePoint) : Bool := isUnsafeUrlChar c || c==35 || c==63

/-- The rewriting of slashes neither adds nor removes a breaking character. -/
theorem replaceChar_breaksUri (a : CodePoint) (ha : breaksUri a=false) (s : PyStr) :
    (∀ c ∈ replaceChar a 95 s, breaksUri c=false) ↔ ∀ c ∈ s, breaksUri c=false := by
  have hc : ∀ c : CodePoint, breaksUri (if c=a then 95 else c)=breaksUri c := by
    intro c
    split_ifs with h
    · rw [h,ha]; rfl
    · rfl
  simp [replaceChar,hc]

lemma str_breaksUri (u : UUID) : ∀ c ∈ u.str, breaksUri c=false := by
  intro c hc
  rcases UUID.mem_str hc with rfl | ⟨d,rfl⟩
  · rfl
  · fin_cases d <;> rfl

/-- A key is free of breaking characters exactly when its filename is. -/
theorem sourceObjectKey_breaksUri (tenantId documentId : UUID) {filename : PyStr} (h : filename≠[]) :
    (∀ c ∈ sourceObjectKey tenantId documentId filename, breaksUri c=false) ↔
      ∀ c ∈ filename, breaksUri c=false := by
  rw [sourceObjectKey_eq _ _ h,← replaceChar_breaksUri 47 rfl filename,
    ← replaceChar_breaksUri 92 rfl (replaceChar 47 95 filename)]
  have hlit : ∀ c ∈ py "/original/", breaksUri c=false := by
    have h : (py "/original/").all (fun c => !breaksUri c)=true := rfl
    simpa using h
  have ht := str_breaksUri tenantId
  have hd := str_breaksUri documentId
  constructor
  · intro hall c hc
    exact hall c (by simp [hc])
  · intro hall c hc
    simp only [List.mem_append,List.mem_cons] at hc
    rcases hc with hc | rfl | hc | hc | hc
    · exact ht c hc
    · rfl
    · exact hd c hc
    · exact hlit c hc
    · exact hall c hc

/-- A key does not start with a slash, so stripping slashes leaves it whole. -/
lemma lstrip_sourceObjectKey (tenantId documentId : UUID) (filename : PyStr) :
    lstrip (fun c => c==47) (sourceObjectKey tenantId documentId filename)=
      sourceObjectKey tenantId documentId filename := by
  have hn := UUID.not_mem_str (c := 47) (by decide) tenantId
  have hne : tenantId.str≠[] := List.ne_nil_of_length_pos (by rw [UUID.str_length]; omega)
  obtain ⟨c,rest,hs⟩ := List.exists_cons_of_ne_nil hne
  rw [hs,List.mem_cons,not_or] at hn
  have hc : (c==47)=false := beq_eq_false_iff_ne.mpr (Ne.symm hn.1)
  rw [sourceObjectKey,hs]
  simp only [List.cons_append,lstrip,List.dropWhile_cons,hc,Bool.false_eq_true,if_false]

lemma sourceObjectKey_ne_nil (tenantId documentId : UUID) (filename : PyStr) :
    sourceObjectKey tenantId documentId filename≠[] := by
  intro h
  have hl := congrArg List.length h
  simp [sourceObjectKey] at hl

lemma breaksUri_eq_false_iff (c : CodePoint) :
    breaksUri c=false ↔ isUnsafeUrlChar c=false ∧ c≠35 ∧ c≠63 := by
  simp [breaksUri,and_assoc]

/-- The workers read back exactly the stored key if and only if the filename holds no
character that the URI parser deletes or takes for the start of a query or fragment. -/
theorem sourceKeyOf_sourceObjectKey_iff (bucket : BucketName) (tenantId documentId : UUID)
    (filename : PyStr) (h : filename≠[]) :
    sourceKeyOf bucket (objectUri bucket (sourceObjectKey tenantId documentId filename))=
        .ok (sourceObjectKey tenantId documentId filename) ↔
      ∀ c ∈ filename, breaksUri c=false := by
  rw [← sourceObjectKey_breaksUri tenantId documentId h,sourceKeyOf_objectUri]
  have hlstrip := lstrip_sourceObjectKey tenantId documentId filename
  have hne := sourceObjectKey_ne_nil tenantId documentId filename
  generalize sourceObjectKey tenantId documentId filename=key at hlstrip hne ⊢
  simp only [breaksUri_eq_false_iff]
  rw [← cutPath_filter_eq_iff]
  constructor
  · intro hread
    split at hread
    · contradiction
    · have hkey := Except.ok.inj hread
      have hsub : (lstrip (fun c => c==47) (cutPath (key.filter (fun c => !isUnsafeUrlChar c)))).Sublist
          (cutPath (key.filter (fun c => !isUnsafeUrlChar c))) := List.dropWhile_sublist _
      rw [hkey] at hsub
      exact ((cutPath_sublist _).trans ((List.takeWhile_sublist _).trans
        List.filter_sublist)).antisymm hsub
  · intro hcut
    rw [hcut,hlstrip,if_neg hne]

theorem sourceKeyOf_plain_filename :
    py "report.pdf"≠[] ∧ (sourceKeyOf minioSourceBucket (objectUri minioSourceBucket
        (sourceObjectKey ⟨1⟩ ⟨2⟩ (py "report.pdf")))=
          .ok (sourceObjectKey ⟨1⟩ ⟨2⟩ (py "report.pdf")) ↔
      ∀ c ∈ py "report.pdf", breaksUri c=false) :=
  ⟨by decide,sourceKeyOf_sourceObjectKey_iff minioSourceBucket ⟨1⟩ ⟨2⟩ (py "report.pdf") (by decide)⟩

/-- A question mark in the filename ends the path: the workers ask for another key. -/
theorem sourceKeyOf_question_mark :
    sourceKeyOf minioSourceBucket (objectUri minioSourceBucket
        (sourceObjectKey ⟨1⟩ ⟨2⟩ (py "what?.pdf")))=
      .ok (sourceObjectKey ⟨1⟩ ⟨2⟩ (py "what")) ∧
    sourceObjectKey ⟨1⟩ ⟨2⟩ (py "what")≠sourceObjectKey ⟨1⟩ ⟨2⟩ (py "what?.pdf") := by
  constructor
  · decide +kernel
  · intro h
    have hlength : 87=92 := congrArg List.length h
    contradiction

end RagIngestion.Storage
