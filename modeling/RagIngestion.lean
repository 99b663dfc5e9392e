import RagIngestion.Library.Runs
import RagIngestion.Python.Uuid
import RagIngestion.Python.Url
import RagIngestion.Storage.SourceObjects
import RagIngestion.Python.Value
import RagIngestion.Domain.Events
import RagIngestion.Database.Schema
import RagIngestion.Publisher.Process
import RagIngestion.Publisher.Stranding
import RagIngestion.Publisher.Delivery
import RagIngestion.Submission.Repository
import RagIngestion.Submission.Api
import RagIngestion.Submission.Dangling
import RagIngestion.Extractor.Sanitise
import RagIngestion.Extractor.Extract
import RagIngestion.Extractor.TableCells
import RagIngestion.Database.Outcomes
import RagIngestion.Fetcher.Inspect
import RagIngestion.Fetcher.Repository
import RagIngestion.Extractor.Repository
import RagIngestion.Extractor.Handle
import RagIngestion.Fetcher.Handle
import RagIngestion.Pipeline.World
import RagIngestion.Pipeline.Outcomes
import RagIngestion.Pipeline.Genuine
import RagIngestion.Pipeline.Stages
import RagIngestion.Pipeline.Lifecycle
import RagIngestion.Pipeline.Handoff
import RagIngestion.Library.Offsets
import RagIngestion.Extractor.MainLoop
import RagIngestion.Extractor.Commits
import RagIngestion.Fetcher.Handling
import RagIngestion.Extractor.Encoding
import RagIngestion.Extractor.Handling
import RagIngestion.Pipeline.Poison
import RagIngestion.Database.OutboxRows
import RagIngestion.Database.Tenancy
import RagIngestion.Pipeline.Isolation
import RagIngestion.Submission.Retries
import RagIngestion.Pipeline.Upload
import RagIngestion.Library.PrefixCodes
import RagIngestion.Python.Utf8
import RagIngestion.Domain.Contracts
import RagIngestion.Publisher.Wire
import RagIngestion.Pipeline.Acceptance
import RagIngestion.Pipeline.Lineage
import RagIngestion.Pipeline.PartitionKeys
import RagIngestion.Extractor.ArtifactKeys
import RagIngestion.Pipeline.Commits
import RagIngestion.Pipeline.Integrity
import RagIngestion.Pipeline.Extractions
import RagIngestion.Pipeline.Artifacts
import RagIngestion.Extractor.Figures
import RagIngestion.Extractor.Redaction
import RagIngestion.Extractor.Tampering
import RagIngestion.Database.Constraints
import RagIngestion.Submission.Conflicts
import RagIngestion.Submission.Leftovers
import RagIngestion.Pipeline.Attribution
import RagIngestion.Fetcher.Verdict
import RagIngestion.Extractor.Resources
import RagIngestion.Extractor.Verdict
import RagIngestion.Publisher.Independence
import RagIngestion.Kafka.Topics
import RagIngestion.Kafka.Bootstrap
import RagIngestion.Fetcher.Streams
import RagIngestion.Library.Pools
import RagIngestion.Pipeline.ShortReads
import RagIngestion.Extractor.Concurrency
import RagIngestion.Extractor.Converters
import RagIngestion.Pipeline.Acknowledged
import RagIngestion.Pipeline.Confinement
import RagIngestion.Config.Settings
import RagIngestion.Config.Overrides
import RagIngestion.Library.Scripts
import RagIngestion.Library.Transactions
import RagIngestion.Database.Interference
import RagIngestion.Pipeline.Scripts
import RagIngestion.Pipeline.Interleaving
import RagIngestion.Pipeline.LockOrder
import RagIngestion.Pipeline.RowSecurity
import RagIngestion.Library.Progress
import RagIngestion.Publisher.Drain
import RagIngestion.Python.Loads
import RagIngestion.Publisher.Columns
import RagIngestion.Extractor.Readback
import RagIngestion.Pipeline.Readback
import RagIngestion.Kafka.Ending
import RagIngestion.Pipeline.Claims
