import RagIngestion.Config.Settings

/-! Where `get_settings` and `Settings` agree, although `get_settings` puts the host profile above
`.env`. -/
namespace RagIngestion.Config
open RagIngestion.Python RagIngestion.Library

section
variable {ν : Type} (lower : PyStr → PyStr) (validate : Annotation → Literal → Option ν) (p : Process)

/-- A process variable names the setting, or the first of its names that a file gives is not
disputed between two files: a third file gives it, or only one of the two, or both the same value. -/
def Undisputed (own host secrets : Path) (s : Setting) : Prop :=
  let names := s.val.envNames lower
  let files := [own,host,secrets].map (envFile lower p)
  (∃ n ∈ names, (variablesOf lower p.environ n).isSome) ∨
    ∀ n, names.find? (fun n => (Layer.stack files n).isSome)=some n →
      ¬Layer.Disputed (s.val.check validate) (envFile lower p own) (envFile lower p host)
        [envFile lower p secrets] n

/-- Some field is required and given no text, or the text that counts for it fails its check. -/
def Refused (files : List Path) : Prop := ∃ f ∈ fields, f.value? lower validate p files=none

/-- Both raise, or both give the setting the same value. -/
inductive Agree (s : Setting) :
    Except SettingsError (Setting → ν) → Except SettingsError (Setting → ν) → Prop
  | raised {e e'} : Agree s (.error e) (.error e')
  | value {a b} (h : a s=b s) : Agree s (.ok a) (.ok b)

/-- Two sequences that exchange their lower files make the same of a setting exactly when the files
do not dispute it. -/
theorem value_swap_iff (own host secrets : Path) (s : Setting) :
    s.val.value? lower validate p [own,host,secrets]=s.val.value? lower validate p [host,own,secrets] ↔
      Undisputed lower validate p own host secrets s := by
  simp only [Field.value?,Field.text?,Undisputed]
  cases henv : (s.val.envNames lower).findSome? (variablesOf lower p.environ) with
  | some text =>
    obtain ⟨n,hn,htext⟩ := List.exists_of_findSome?_eq_some henv
    simp only [Option.some_or,true_iff]
    left
    exact ⟨n,hn,by rw [htext]; rfl⟩
  | none =>
    have hnone : ¬∃ n ∈ s.val.envNames lower, (variablesOf lower p.environ n).isSome := by
      rintro ⟨n,hn,hsome⟩
      rw [List.findSome?_eq_none_iff.mp henv n hn] at hsome
      cases hsome
    simp only [Option.none_or,hnone,false_or,List.map_cons,List.map_nil]
    rw [Layer.findSome?_agree_iff (Layer.isSome_stack_swap _ _ _)]
    simp only [Layer.stack_swap_iff]

/-- Settings that are refused raise, and the others have all their values. -/
theorem settings_cases (files : List Path) :
    (Refused lower validate p files ∧ ∃ e, settings lower validate p files=.error e) ∨
    (¬Refused lower validate p files ∧ ∃ got, settings lower validate p files=.ok got ∧
      ∀ s : Setting, s.val.value? lower validate p files=some (got s)) := by
  by_cases h : ∀ f ∈ fields, (f.value? lower validate p files).isSome
  · refine .inr ⟨?_,_,dif_pos h,fun s => (Option.some_get _).symm⟩
    rintro ⟨f,hf,hnone⟩
    have hsome := h f hf
    rw [hnone] at hsome
    cases hsome
  · refine .inl ⟨?_,_,dif_neg h⟩
    push Not at h
    obtain ⟨f,hf,hnone⟩ := h
    exact ⟨f,hf,Option.isNone_iff_eq_none.mp (by simpa using hnone)⟩

/-- Two sequences that exchange their lower files agree on a setting exactly when both are refused,
or neither is and the files do not dispute it. -/
theorem settings_swap_iff (own host secrets : Path) (s : Setting) :
    Agree s (settings lower validate p [own,host,secrets]) (settings lower validate p [host,own,secrets]) ↔
      (Refused lower validate p [own,host,secrets] ∧ Refused lower validate p [host,own,secrets]) ∨
      (¬Refused lower validate p [own,host,secrets] ∧ ¬Refused lower validate p [host,own,secrets] ∧
        Undisputed lower validate p own host secrets s) := by
  rw [← value_swap_iff]
  obtain ⟨hr,e,he⟩ | ⟨hr,got,he,hgot⟩ := settings_cases lower validate p [own,host,secrets]
  · obtain ⟨hr',e',he'⟩ | ⟨hr',got',he',-⟩ := settings_cases lower validate p [host,own,secrets]
    · rw [he,he']
      exact iff_of_true .raised (.inl ⟨hr,hr'⟩)
    · rw [he,he']
      refine iff_of_false (fun h => by cases h) ?_
      rintro (⟨-,h⟩ | ⟨h,-⟩)
      · exact hr' h
      · exact h hr
  · obtain ⟨hr',e',he'⟩ | ⟨hr',got',he',hgot'⟩ := settings_cases lower validate p [host,own,secrets]
    · rw [he,he']
      refine iff_of_false (fun h => by cases h) ?_
      rintro (⟨h,-⟩ | ⟨-,h,-⟩)
      · exact hr h
      · exact h hr'
    · rw [he,he',hgot s,hgot' s,Option.some.injEq]
      constructor
      · intro h
        cases h with
        | value h => exact .inr ⟨hr,hr',h⟩
      · rintro (⟨h,-⟩ | ⟨-,-,h⟩)
        · exact absurd h hr
        · exact .value h

variable {lower p}

theorem environmentFiles_host
    (hprofile : lower ((p.getenv (py "RAG_CONFIG_PROFILE")).getD (py "host"))=py "host")
    (hworker : (p.getenv (py "RAG_WORKER_NAME")).getD []=[]) :
    environmentFiles lower p none=.ok [p.root ++ [py ".env"],
      p.root ++ [py "config",py "env",py "host.env"],
      p.root ++ [py "secrets",py "local-runtime-secrets.env"]] := by
  have hname : py "host" ++ py ".env"=py "host.env" := by decide +kernel
  simp only [environmentFiles,hprofile,hworker,hname]
  rfl

/-- With the host profile, no worker and the process at the repository root, `get_settings` and
`Settings` agree on a setting exactly when both refuse what they find, or neither does and `.env`
and the host profile do not dispute the setting. -/
theorem get_settings_agrees (validate : Annotation → Literal → Option ν)
    (hprofile : lower ((p.getenv (py "RAG_CONFIG_PROFILE")).getD (py "host"))=py "host")
    (hworker : (p.getenv (py "RAG_WORKER_NAME")).getD []=[]) (hcwd : p.cwd=p.root) (s : Setting) :
    let own := p.root ++ [py ".env"]
    let host := p.root ++ [py "config",py "env",py "host.env"]
    let secrets := p.root ++ [py "secrets",py "local-runtime-secrets.env"]
    Agree s (getSettings lower validate p none) (declaredSettings lower validate p) ↔
      (Refused lower validate p [own,host,secrets] ∧ Refused lower validate p [host,own,secrets]) ∨
      (¬Refused lower validate p [own,host,secrets] ∧ ¬Refused lower validate p [host,own,secrets] ∧
        Undisputed lower validate p own host secrets s) := by
  intro own host secrets
  have hget : getSettings lower validate p none=settings lower validate p [own,host,secrets] := by
    rw [getSettings,environmentFiles_host hprofile hworker]
    rfl
  have hdeclared : declaredSettings lower validate p=settings lower validate p [host,own,secrets] := by
    rw [declaredSettings,modelConfigEnvFile,hcwd]
    rfl
  rw [hget,hdeclared]
  exact settings_swap_iff lower validate p own host secrets s

end

/-- What digits stand for. -/
def readDigits (s : PyStr) : Option ℤ :=
  if s≠[] ∧ s.all (fun c => decide (48 ≤ c.val ∧ c.val ≤ 57)) then
    some (s.foldl (fun n c => 10*n+(c.val-48)) 0)
  else none

/-- A validation in which numbers and booleans are written plainly. -/
def readValue : Annotation → Literal → Option Literal
  | .int ge le,.int n => if ge ≤ n ∧ le.all (n ≤ ·) then some (.int n) else none
  | .int ge le,.text s =>
    (readDigits s).bind fun n => if ge ≤ n ∧ le.all (n ≤ ·) then some (.int n) else none
  | .bool,.text s =>
    if s=py "true" then some (.bool true) else if s=py "false" then some (.bool false) else none
  | .literal choices,.text s => if s ∈ choices then some (.text s) else none
  | .optional _,.none => some .none
  | .optional a,l => readValue a l
  | _,l => some l

/-- The committed host profile limits uploads to 50 MiB, the developer's `.env` raises the limit to
100 MiB, and the secrets file holds the required settings. -/
def raisedLimit : Process where
  environ := []
  settingsFile := [py "app",py "src",py "rag_ingestion",py "config",py "settings.py"]
  cwd := [py "app"]
  dotenv path :=
    if path=[py "app",py ".env"] then some [(py "RAG_API_MAX_UPLOAD_BYTES",py "104857600")]
    else if path=[py "app",py "config",py "env",py "host.env"] then
      some [(py "RAG_API_MAX_UPLOAD_BYTES",py "52428800")]
    else if path=[py "app",py "secrets",py "local-runtime-secrets.env"] then
      some [(py "RAG_POSTGRES_DSN",py "postgresql+asyncpg://rag_application:pw@localhost:5432/rag_ingestion"),
        (py "QDRANT_ADMIN_API_KEY",py "key"),(py "RAG_MINIO_ACCESS_KEY",py "rag"),
        (py "RAG_MINIO_SECRET_KEY",py "secret")]
    else none

def apiMaxUploadBytes : Setting :=
  ⟨⟨py "api_max_upload_bytes",[],.int 1048576 none,some (.int 52428800)⟩,by decide +kernel⟩

/-- `get_settings` keeps the limit of the host profile, `Settings` takes the raised one. -/
theorem raised_limit_ignored :
    raisedLimit.cwd=raisedLimit.root ∧ raisedLimit.environ=[] ∧
      (getSettings lowerAscii readValue raisedLimit none).map (· apiMaxUploadBytes)=
        .ok (.int 52428800) ∧
      (declaredSettings lowerAscii readValue raisedLimit).map (· apiMaxUploadBytes)=
        .ok (.int 104857600) :=
  ⟨by decide +kernel,rfl,by decide +kernel,by decide +kernel⟩

def kafkaBootstrapServers : Setting :=
  ⟨⟨py "kafka_bootstrap_servers",[],.str,some (.text (py "localhost:29092"))⟩,by decide +kernel⟩

/-- A setting that no file gives agrees. -/
theorem undisputed_setting_agrees :
    raisedLimit.cwd=raisedLimit.root ∧ raisedLimit.environ=[] ∧
      Agree kafkaBootstrapServers (getSettings lowerAscii readValue raisedLimit none)
        (declaredSettings lowerAscii readValue raisedLimit) := by
  refine ⟨by decide +kernel,rfl,(get_settings_agrees readValue (by decide +kernel) (by decide +kernel)
    (by decide +kernel) kafkaBootstrapServers).mpr (.inr ⟨?_,?_,.inr ?_⟩)⟩
  · rw [Refused]
    decide +kernel
  · rw [Refused]
    decide +kernel
  · intro n hn
    have hnone : (kafkaBootstrapServers.val.envNames lowerAscii).find? (fun n =>
        (Layer.stack ([raisedLimit.root ++ [py ".env"],
          raisedLimit.root ++ [py "config",py "env",py "host.env"],
          raisedLimit.root ++ [py "secrets",py "local-runtime-secrets.env"]].map
            (envFile lowerAscii raisedLimit)) n).isSome)=none := by decide +kernel
    cases hnone.symm.trans hn

end RagIngestion.Config
