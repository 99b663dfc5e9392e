import RagIngestion.Library.Layers
import RagIngestion.Python.Text

/-! The settings of the pipeline and the two sequences of files they are read from: the one
`get_settings` builds and the one `Settings` declares. -/
namespace RagIngestion.Config
open RagIngestion.Python RagIngestion.Library

abbrev Path := List PyStr

/-- A process and the files it finds: `dotenv` is `none` where there is no file, and else the names
and values that python-dotenv reads, in order. -/
structure Process where
  environ : List (PyStr × PyStr)
  settingsFile : Path
  cwd : Path
  dotenv : Path → Option (List (PyStr × PyStr))

namespace Process

def getenv (p : Process) (name : PyStr) : Option PyStr := p.environ.lookup name

/-- `Path(__file__).resolve().parents[3]`. -/
def root (p : Process) : Path := p.settingsFile.take (p.settingsFile.length-4)

end Process

/-- The annotation of a field, with the bounds its `Field` gives. -/
inductive Annotation
  | str
  | secretStr
  | bool
  | anyHttpUrl
  | int (ge : ℤ) (le : Option ℤ)
  | float (gt ge : Option ℤ) (le : ℤ)
  | literal (choices : List PyStr)
  | optional (a : Annotation)
  deriving DecidableEq

/-- What a field is validated from: a text, or a default as it is written. -/
inductive Literal
  | text (s : PyStr)
  | int (n : ℤ)
  | float (repr : PyStr)
  | bool (b : Bool)
  | none
  deriving DecidableEq

/-- A field of `Settings` with its `AliasChoices`, which are empty where it has none, and its
default; a field without one is required. -/
structure Field where
  name : PyStr
  validationAlias : List PyStr
  annotation : Annotation
  default : Option Literal
  deriving DecidableEq

def fields : List Field := [
  ⟨py "postgres_dsn",[py "RAG_POSTGRES_DSN",py "POSTGRES_DSN",py "postgres_dsn"],.str,none⟩,
  ⟨py "kafka_bootstrap_servers",[],.str,some (.text (py "localhost:29092"))⟩,
  ⟨py "kafka_topic_partitions",[],.int 1 none,some (.int 1)⟩,
  ⟨py "kafka_topic_replication_factor",[],.int 1 none,some (.int 1)⟩,
  ⟨py "outbox_publisher_name",[],.str,some (.text (py "outbox-publisher"))⟩,
  ⟨py "outbox_batch_size",[],.int 1 (some 1000),some (.int 50)⟩,
  ⟨py "outbox_poll_interval_seconds",[],.float (some 0) none 600,some (.float (py "1.0"))⟩,
  ⟨py "document_fetcher_poll_timeout_seconds",[],.float (some 0) none 600,
    some (.float (py "5.0"))⟩,
  ⟨py "document_fetcher_max_document_bytes",[],.int 1048576 none,some (.int 52428800)⟩,
  ⟨py "api_max_upload_bytes",[],.int 1048576 none,some (.int 52428800)⟩,
  ⟨py "document_extractor_poll_timeout_seconds",[],.float (some 0) none 600,
    some (.float (py "5.0"))⟩,
  ⟨py "document_extraction_max_bytes",[],.int 1048576 none,some (.int 268435456)⟩,
  ⟨py "document_extractor_max_concurrency",[],.int 1 (some 8),some (.int 1)⟩,
  ⟨py "document_extractor_max_poll_interval_seconds",[],.int 300 (some 86400),some (.int 3600)⟩,
  ⟨py "minio_endpoint",[],.str,some (.text (py "localhost:9000"))⟩,
  ⟨py "minio_access_key",[],.str,none⟩,
  ⟨py "minio_secret_key",[],.secretStr,none⟩,
  ⟨py "minio_ingestion_access_key",[],.optional .str,some .none⟩,
  ⟨py "minio_ingestion_secret_key",[],.optional .secretStr,some .none⟩,
  ⟨py "minio_api_access_key",[],.optional .str,some .none⟩,
  ⟨py "minio_api_secret_key",[],.optional .secretStr,some .none⟩,
  ⟨py "minio_secure",[],.bool,some (.bool false)⟩,
  ⟨py "minio_source_bucket",[],.str,some (.text (py "rag-source"))⟩,
  ⟨py "minio_artifact_bucket",[],.str,some (.text (py "rag-artifacts"))⟩,
  ⟨py "qdrant_url",[],.anyHttpUrl,some (.text (py "http://localhost:6333"))⟩,
  ⟨py "qdrant_api_key",[py "RAG_QDRANT_API_KEY",py "QDRANT_ADMIN_API_KEY"],.secretStr,none⟩,
  ⟨py "qdrant_read_only_api_key",
    [py "RAG_QDRANT_READ_ONLY_API_KEY",py "QDRANT_READ_ONLY_API_KEY"],.optional .secretStr,
    some .none⟩,
  ⟨py "qdrant_collection",[],.str,some (.text (py "rag_chunks_bge_m3_v1"))⟩,
  ⟨py "bge_model_name",[],.str,some (.text (py "BAAI/bge-m3"))⟩,
  ⟨py "embedding_batch_size",[],.int 1 none,some (.int 16)⟩,
  ⟨py "otel_service_name",[],.str,some (.text (py "rag-ingestion"))⟩,
  ⟨py "observability_mode",[],.literal [py "console",py "otlp",py "console_and_otlp"],
    some (.text (py "console"))⟩,
  ⟨py "tracing_enabled",[],.bool,some (.bool false)⟩,
  ⟨py "otel_metrics_export_interval_seconds",[],.float (some 0) none 300,
    some (.float (py "15.0"))⟩,
  ⟨py "otel_exporter_otlp_endpoint",[],.anyHttpUrl,some (.text (py "http://localhost:4317"))⟩,
  ⟨py "otel_traces_sampler",[],.str,some (.text (py "parentbased_traceidratio"))⟩,
  ⟨py "otel_traces_sampler_arg",[],.float none (some 0) 1,some (.float (py "1.0"))⟩,
  ⟨py "oidc_issuer_url",[],.optional .anyHttpUrl,some .none⟩]

/-- A setting that `Settings` declares. -/
abbrev Setting := {f : Field // f ∈ fields}

def envPrefix : PyStr := py "RAG_"

/-- `model_config["env_file"]`, from the working directory. -/
def modelConfigEnvFile : List Path := [
  [py "config",py "env",py "host.env"],
  [py ".env"],
  [py "secrets",py "local-runtime-secrets.env"]]

/-- `ValueError` with its text, or pydantic's `ValidationError` with the fields it names. -/
inductive SettingsError
  | valueError (message : PyStr)
  | validationError (names : List PyStr)
  deriving DecidableEq

section
variable {ν : Type} (lower : PyStr → PyStr) (validate : Annotation → Literal → Option ν) (p : Process)

/-- The names a setting is looked up under, in the order they are tried. -/
def Field.envNames (f : Field) : List PyStr :=
  match f.validationAlias with
  | [] => [lower (envPrefix ++ f.name)]
  | aliases => aliases.map lower

/-- Names count in lower case, and of two that fall together the later one. -/
def variablesOf (items : List (PyStr × PyStr)) : Layer PyStr PyStr := fun name =>
  (items.reverse.find? (fun item => lower item.1=name)).map Prod.snd

/-- The variables of one file; a file that is not there has none. -/
def envFile (path : Path) : Layer PyStr PyStr :=
  match p.dotenv path with
  | none => fun _ => none
  | some items => variablesOf lower items

/-- The text of a field: a process variable comes before the files, and later files override
earlier ones. -/
def Field.text? (files : List Path) (f : Field) : Option PyStr :=
  let names := f.envNames lower
  (names.findSome? (variablesOf lower p.environ)).or
    (names.findSome? (Layer.stack (files.map (envFile lower p))))

/-- What `validate` makes of the text of a field, or of its default where it has none: nothing if
the text is refused, or the field is required. -/
def Field.check (f : Field) : Option PyStr → Option ν
  | some text => validate f.annotation (.text text)
  | none => f.default.bind (validate f.annotation)

def Field.value? (files : List Path) (f : Field) : Option ν :=
  f.check validate (f.text? lower p files)

/-- `Settings(_env_file=files)`: the values of all settings, or an error that names every field
without one. -/
def settings (files : List Path) : Except SettingsError (Setting → ν) :=
  if h : ∀ f ∈ fields, (f.value? lower validate p files).isSome then
    .ok (fun s => (s.val.value? lower validate p files).get (h s.val s.property))
  else
    .error (.validationError
      ((fields.filter (fun f => (f.value? lower validate p files).isNone)).map (·.name)))

/-- `Settings()`. -/
def declaredSettings : Except SettingsError (Setting → ν) :=
  settings lower validate p (modelConfigEnvFile.map (p.cwd ++ ·))

/-- `[a-z0-9-]+` in full. -/
def isWorkerName (s : PyStr) : Bool :=
  !s.isEmpty && s.all (fun c => decide ((97 ≤ c.val ∧ c.val ≤ 122) ∨ (48 ≤ c.val ∧ c.val ≤ 57) ∨ c.val=45))

/-- `_environment_files`. -/
def environmentFiles (workerName : Option PyStr) : Except SettingsError (List Path) :=
  let profile := lower ((p.getenv (py "RAG_CONFIG_PROFILE")).getD (py "host"))
  if profile ∉ [py "host",py "container"] then
    .error (.valueError (py "RAG_CONFIG_PROFILE must be either 'host' or 'container'."))
  else
    let base := [p.root ++ [py ".env"],p.root ++ [py "config",py "env",profile ++ py ".env"]]
    let secrets := p.root ++ [py "secrets",py "local-runtime-secrets.env"]
    -- an empty name selects no worker, and an empty argument the process variable
    let selected := match workerName with
      | some (c::name) => c::name
      | _ => (p.getenv (py "RAG_WORKER_NAME")).getD []
    if selected=[] then .ok (base ++ [secrets])
    else if !isWorkerName selected then
      .error (.valueError
        (py "RAG_WORKER_NAME must contain only lowercase letters, digits, and hyphens."))
    else
      let workerProfile := p.root ++ [py "config",py "workers",selected ++ py ".env"]
      if (p.dotenv workerProfile).isNone then
        .error (.valueError
          (py "No worker configuration profile exists for '" ++ selected ++ py "'."))
      else .ok (base ++ [workerProfile,secrets])

/-- `get_settings`. -/
def getSettings (workerName : Option PyStr) : Except SettingsError (Setting → ν) := do
  let files ← environmentFiles lower p workerName
  settings lower validate p files

end
end RagIngestion.Config
