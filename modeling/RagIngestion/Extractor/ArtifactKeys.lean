import RagIngestion.Extractor.Handle

/-! The keys of artifacts: the path names the tenant, the version and the hash; and what a call of
`put_json` stores under them. -/
namespace RagIngestion.Extractor
open RagIngestion.Python RagIngestion.Domain RagIngestion.Database RagIngestion.Storage
open RagIngestion.Library

/-- `{tenant}/{version}/extracted/{hash}/`. -/
def artifactDirectory (tenantId versionId : UUID) (hash : PyStr) : PyStr :=
  tenantId.str ++ py "/" ++ versionId.str ++ py "/extracted/" ++ hash ++ py "/"

/-- A path with one separator has one directory. -/
lemma eq_of_separator {α : Type} {x : α} {l m n : List α} (h : l ++ [x] <+: m ++ x::n)
    (hm : x ∉ m) (hn : x ∉ n) : l=m := by
  induction l generalizing m with
  | nil =>
    cases m with
    | nil => rfl
    | cons b m =>
      rw [List.nil_append,List.cons_append,List.cons_prefix_cons] at h
      exact absurd (by rw [h.1]; exact List.mem_cons_self) hm
  | cons a l ih =>
    cases m with
    | nil =>
      rw [List.cons_append,List.nil_append,List.cons_prefix_cons] at h
      exact absurd (h.2.subset (by simp)) hn
    | cons b m =>
      rw [List.cons_append,List.cons_append,List.cons_prefix_cons] at h
      rw [h.1,ih h.2 (fun hx => hm (List.mem_cons_of_mem _ hx))]

/-- A file of an artifact directory lies in no other one, as long as its hash is no path. -/
theorem artifactDirectory_of_prefix {tenantId versionId : UUID} {hash name : PyStr} {ids : Ids}
    {p : DocumentFetched} (h : artifactDirectory tenantId versionId hash <+: artifactPrefix ids p ++ 47::name)
    (hp : 47 ∉ p.contentSha256) (hname : 47 ∉ name) :
    tenantId=ids.tenantId ∧ versionId=ids.versionId ∧ hash=p.contentSha256 := by
  obtain ⟨rest,hrest⟩ := h
  simp only [artifactDirectory,artifactPrefix,List.append_assoc] at hrest
  obtain ⟨ht,hrest⟩ := List.append_inj hrest (by simp)
  obtain ⟨-,hrest⟩ := List.append_inj hrest rfl
  obtain ⟨hv,hrest⟩ := List.append_inj hrest (by simp)
  obtain ⟨-,hrest⟩ := List.append_inj hrest rfl
  refine ⟨UUID.str_injective ht,UUID.str_injective hv,eq_of_separator (x := 47) ?_ hp hname⟩
  rw [← hrest,← List.append_assoc]
  exact List.prefix_append _ _

lemma slash_not_mem_hexdigest (d : Digest) : 47 ∉ hexdigest d := by
  intro h
  obtain ⟨x,hx⟩ := mem_hexText h
  exact hexDigit_ne (.inl (by decide)) x hx.symm

lemma normalizedKey_eq (ids : Ids) (p : DocumentFetched) :
    normalizedKey ids p=artifactPrefix ids p ++ 47::py "normalized.json" := rfl

lemma manifestKey_eq (ids : Ids) (p : DocumentFetched) :
    manifestKey ids p=artifactPrefix ids p ++ 47::py "manifest.json" := rfl

lemma map_payloadIds {p : DocumentFetched} {key : Ids → PyStr} {k : PyStr}
    (h : (payloadIds p).map key=.ok k) : ∃ ids, payloadIds p=.ok ids ∧ k=key ids := by
  cases hids : payloadIds p with
  | error e =>
    rw [hids] at h
    cases h
  | ok ids =>
    rw [hids] at h
    exact ⟨ids,rfl,(Except.ok.inj h).symm⟩

/-- A call of `put_json` stores nothing, because it fails, or the value under its key. -/
theorem Put.stores {bucket : BucketName} {w after : Stores} {p : DocumentFetched} {key : Ids → PyStr}
    {value : List (PyStr × Json)} {fault : Fault} {next : PyStr → Task} {task : Task}
    (h : Put bucket w p ((payloadIds p).map key) value fault next after task) :
    (after=w ∧ (fault≠.before → ∀ ids body, payloadIds p=.ok ids → artifactBody value≠.ok body)) ∨
    ∃ ids body, payloadIds p=.ok ids ∧ artifactBody value=.ok body ∧
      fault≠.before ∧ after=w.put (key ids) body := by
  cases h with
  | fails h =>
    refine .inl ⟨rfl,?_⟩
    intro hf ids body hids hbody
    obtain h | ⟨e,h⟩ | ⟨e,h⟩ := h
    · exact hf h
    · rw [hids] at h
      cases h
    · rw [hbody] at h
      cases h
  | lost hk hb hf =>
    obtain ⟨ids,hids,rfl⟩ := map_payloadIds hk
    exact .inr ⟨ids,_,hids,hb,by simp [hf],rfl⟩
  | stored hk hb hf =>
    obtain ⟨ids,hids,rfl⟩ := map_payloadIds hk
    exact .inr ⟨ids,_,hids,hb,by simp [hf],rfl⟩

end RagIngestion.Extractor
