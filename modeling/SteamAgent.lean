import SteamAgent.Execution.Policy
import SteamAgent.Execution.Ledger.Identity
import SteamAgent.Evals.ShellRun
import SteamAgent.Stdlib.PosixShell
import SteamAgent.Evals.AuditPrivacy
import SteamAgent.Evals.CommandAudit
import SteamAgent.Evals.CommandLine
import SteamAgent.Stdlib.Shlex
import SteamAgent.Evals.Replay
import SteamAgent.Evals.Paths
import SteamAgent.DeclaredFacts.Markup
import SteamAgent.Evals.Routes
import SteamAgent.Evals.EventLog
import SteamAgent.Stdlib.PyText
import SteamAgent.Evals.EvidenceSize
import SteamAgent.Stdlib.PyJson
import SteamAgent.Execution.Executor.ContentProbe
import SteamAgent.LocalSteam.Residual
import SteamAgent.Queries.Decay
import SteamAgent.Queries.Evidence
import SteamAgent.Compatibility.Discovery
import SteamAgent.Compatibility.Supersession
import SteamAgent.Compatibility.Query
import SteamAgent.Compatibility.Verdict
import SteamAgent.Compatibility.Assess
import SteamAgent.Deals.PriceCompleteness
import SteamAgent.Deals.Exactness
import SteamAgent.Execution.Linux.DownloadGate
import SteamAgent.LocalSteam.Lossless
import SteamAgent.Deals.Order
import SteamAgent.Catalog.Soundness
import SteamAgent.Requirements.Sections
import SteamAgent.Evals.FinalizedScreen
import SteamAgent.Evals.Finalization
import SteamAgent.Execution.Receipts.Removal
import SteamAgent.Execution.Receipts.Redaction
import SteamAgent.Stdlib.Replacement
import SteamAgent.Evals.Rules
import SteamAgent.Evals.Imports
import SteamAgent.Evals.Judge
import SteamAgent.LocalSteam.Decoding
import SteamAgent.LocalSteam.KeyValues
import SteamAgent.Requirements.Capacity
import SteamAgent.Requirements.Parser
import SteamAgent.Execution.Runtime.Stop
import SteamAgent.Groups.Bounds
import SteamAgent.Combinatorics.BipartiteMatching
import SteamAgent.Execution.OutputCapture
import SteamAgent.Storage.DeclaredRuns
import SteamAgent.Storage.DeclaredApps
import SteamAgent.Storage.AchievementRuns
import SteamAgent.Storage.FeedbackLog
import SteamAgent.Storage.Feedback
import SteamAgent.Execution.Windows.Effects
import SteamAgent.Execution.Windows.Recovery
import SteamAgent.Execution.Windows.Backend
import SteamAgent.Execution.Windows.Logic
import SteamAgent.Execution.Windows.Adoption
import SteamAgent.Execution.Windows.Native
import SteamAgent.Storage.TimeOrder
import SteamAgent.Storage.ProjectionRuns
import SteamAgent.Storage.Membership
import SteamAgent.Storage.ActivityRuns
import SteamAgent.Storage.Pacing
import SteamAgent.Storage.RequestLimits
import SteamAgent.Stdlib.Datetime
import SteamAgent.Execution.World
import SteamAgent.Execution.Executor.Lease
import SteamAgent.Execution.Content.Atomic
import SteamAgent.Stdlib.Sha256
import SteamAgent.Effects.System
import SteamAgent.Execution.Ledger.Once
import SteamAgent.Stdlib.Choice
