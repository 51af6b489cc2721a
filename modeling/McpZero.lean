import McpZero.Analytics.Collector
import McpZero.Analytics.Counters
import McpZero.Analytics.CountsOnce
import McpZero.Analytics.Hook
import McpZero.Analytics.KeyIsolation
import McpZero.Analytics.Keys
import McpZero.Analytics.LatencyMax
import McpZero.Analytics.Ledger
import McpZero.Analytics.Operations
import McpZero.Analytics.Redis
import McpZero.Analytics.Settings
import McpZero.Analytics.Shutdown
import McpZero.Analytics.Tasks
import McpZero.Audit.Attribution
import McpZero.Audit.Completeness
import McpZero.Audit.Event
import McpZero.Audit.Hook
import McpZero.Audit.Observers
import McpZero.Audit.PayloadFree
import McpZero.Audit.Reporting
import McpZero.Audit.Retention
import McpZero.Audit.SameOutcome
import McpZero.Audit.TwoRuns
import McpZero.Gateway.Credentials
import McpZero.Gateway.FreshRetries
import McpZero.Gateway.Isolation
import McpZero.Gateway.Liveness
import McpZero.Gateway.Machine
import McpZero.Governance.Acceptance
import McpZero.Governance.Decision
import McpZero.Governance.DenyEveryone
import McpZero.Governance.DenyOverrides
import McpZero.Governance.Engine
import McpZero.Governance.FieldTypes
import McpZero.Governance.Hook
import McpZero.Governance.Loader
import McpZero.Governance.LoaderErrors
import McpZero.Governance.PolicyFile
import McpZero.Governance.Reading
import McpZero.Governance.ServerNames
import McpZero.Governance.ToolPatterns
import McpZero.Governance.TypeSoundness
import McpZero.Identity.Hook
import McpZero.Identity.Jwks
import McpZero.Identity.JwksAlone
import McpZero.Identity.JwksCache
import McpZero.Identity.Jwt
import McpZero.Identity.KeySets
import McpZero.Identity.Liveness
import McpZero.Identity.Obo
import McpZero.Identity.OboCache
import McpZero.Identity.OboLocks
import McpZero.Identity.ProviderAnswers
import McpZero.Identity.TypedFailures
import McpZero.Lib.AsyncLock
import McpZero.Lib.Reached
import McpZero.Lib.Runs
import McpZero.Lib.Search
import McpZero.Lib.StableSort
import McpZero.Lib.Work
import McpZero.Main
import McpZero.Main.MaskingSection
import McpZero.Main.Priorities
import McpZero.Main.Startup
import McpZero.Masking.Hook
import McpZero.Masking.Walkers
import McpZero.Pipeline.Extension
import McpZero.Pipeline.Failure
import McpZero.Pipeline.Observer
import McpZero.Pipeline.Order
import McpZero.Pipeline.Registration
import McpZero.Pipeline.Watchers
import McpZero.Plugins.Denotation
import McpZero.Plugins.Extraction
import McpZero.Plugins.FilterTransparency
import McpZero.Plugins.GitHubRepoFilter
import McpZero.Plugins.InputFilter
import McpZero.Plugins.Lifecycle
import McpZero.Plugins.Manager
import McpZero.Plugins.OutputFilter
import McpZero.Plugins.Refusal
import McpZero.Plugins.RepoIdentity
import McpZero.Proxy.CallTool
import McpZero.Proxy.Exits
import McpZero.Proxy.FailClosed
import McpZero.Proxy.InputArguments
import McpZero.Proxy.ListTools
import McpZero.Proxy.ListingAgreement
import McpZero.Proxy.OboAuth
import McpZero.Proxy.Observed
import McpZero.Proxy.OutputFlow
import McpZero.Proxy.RetryLoop
import McpZero.Proxy.Routing
import McpZero.Proxy.Simulation
import McpZero.Proxy.Transparency
import McpZero.Python.Fnmatch
import McpZero.Python.Json
import McpZero.Python.JsonRoundTrip
import McpZero.Python.Leaves
import McpZero.Python.Unicode
import McpZero.Transport.Frame
import McpZero.Transport.Fresh
import McpZero.Transport.Lifecycle
import McpZero.Transport.Links
import McpZero.Transport.Liveness
import McpZero.Transport.ManagerSteps
import McpZero.Transport.Ownership
import McpZero.Transport.Pool
import McpZero.Transport.ProcessManager
import McpZero.Transport.RestartBudget
import McpZero.Transport.Supervision
import McpZero.Lib.Template
import McpZero.Python.Collections
import McpZero.Python.Environment
import McpZero.Transport.ServerArguments
import McpZero.Main.Settings
import McpZero.Main.Run
import McpZero.Main.SecureStart
import McpZero.Main.Admission
import McpZero.Lib.Lines
import McpZero.Logging.Format
import McpZero.Logging.AuditLines
import McpZero.Lib.Tally
import McpZero.Masking.Presidio
import McpZero.Masking.Redactions
import McpZero.Analytics.Expiry
