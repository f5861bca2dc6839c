import Maranode.Audit.Integrity
import Maranode.Audit.Crash
import Maranode.Audit.Torn
import Maranode.Audit.Lifetime
import Maranode.Audit.Protection
import Maranode.Audit.Concurrent
import Maranode.Audit.Export
import Maranode.Audit.Handles
import Maranode.Api.HoldKeys
import Maranode.Api.HoldPlacement
import Maranode.Api.Incident
import Maranode.Api.IncidentPhases
import Maranode.Api.BreakGlass
import Maranode.Api.Registry
import Maranode.Api.ChatAudit
import Maranode.Inference.Queue
import Maranode.Api.Preimages
import Maranode.Inference.Counts
import Maranode.Inference.Positions
import Maranode.Inference.Stops
import Maranode.Isolation.Failures
import Maranode.Store.Rotation
import Maranode.Api.Routes
import Maranode.Api.Recovery
import Maranode.Api.RagLabels
import Maranode.Rag.Shredding
import Maranode.Api.Saml
import Maranode.Cli.Shred
import Maranode.Api.Usage
import Maranode.Verifier.Signature
import Maranode.Api.OidcPending
import Maranode.Daemon.Lifecycle
import Maranode.Daemon.Reload
import Maranode.Daemon.Startup
import Maranode.Api.RequestPaths
import Maranode.Api.ChatHandler
import Maranode.Api.ChatModel
import Maranode.Api.ChatSealed
import Maranode.Common.Rfc3339
import Maranode.Store.Sessions
import Maranode.Attestation.Lockout
import Maranode.Attestation.Resealed
import Maranode.Api.Workspaces
import Maranode.Cli.Quant
import Maranode.Cli.Backup
import Maranode.Store.BlobStore
import Maranode.Rag.Interleaving
import Maranode.Lib.Csv
import Maranode.Audit.EventValues
import Maranode.Lib.Attributes
import Maranode.Audit.CsvReports
import Maranode.Audit.SiemLines
import Maranode.Audit.Seals
import Maranode.Audit.Sweep
import Maranode.Cli.Replay
import Maranode.Lib.Inodes
import Maranode.Audit.Bundle
import Maranode.Api.Bundles
import Maranode.Lib.Markers
import Maranode.Inference.ChatMl
import Maranode.Rag.Context
import Maranode.Api.Truncation
import Maranode.Api.Grounding
import Maranode.Cli.VerifySources
import Maranode.Common.Baseline
import Maranode.Common.SignedFiles
import Maranode.Inference.Cache
import Maranode.Daemon.Baselines
import Maranode.Store.Accounts
import Maranode.Api.SignIn
import Maranode.Api.Usernames
import Maranode.Lib.FilterText
import Maranode.Api.Ldap
import Maranode.Lib.Windows
import Maranode.Api.RateLimit
import Maranode.Api.Logout
import Maranode.Attestation.Tpm
import Maranode.Api.Attestation
import Maranode.Rag.ReadBack
import Maranode.Rag.Retrieval
import Maranode.Cli.QuantScan
import Maranode.Inference.Schedules
import Maranode.Rag.Tables
import Maranode.Rag.CodeChunks
import Maranode.Rag.Chunk
import Maranode.Attestation.Pbkdf2
import Maranode.Inference.Prompt
import Maranode.Lib.Offsets
import Maranode.Rag.CodeScan
import Maranode.Common.Instant
import Maranode.Store.SessionExpiry
import Maranode.Attestation.Containers
import Maranode.Api.Containers
import Maranode.Isolation.Verify
import Maranode.Isolation.Packets
import Maranode.Store.KeyFiles
import Maranode.Cli.Chat
import Maranode.Api.PasswordReset
import Maranode.Cli.Errors
import Maranode.Api.Provenance
import Maranode.Api.OidcLogin
