import SeMentor.Lib.Effect
import SeMentor.Lib.Rows
import SeMentor.Lib.UndoTree
import SeMentor.Lib.UndoResume
import SeMentor.Paths
import SeMentor.Models
import SeMentor.Host
import SeMentor.Policy.Grants
import SeMentor.Tools.ApplyPatch
import SeMentor.Tools.CreateFile
import SeMentor.Tools.DeleteFile
import SeMentor.Tools.Effects
import SeMentor.Tools.Call
import SeMentor.Tools.Journal
import SeMentor.Transactions.RollbackWalk
import SeMentor.Transactions.History
import SeMentor.Transactions.Baseline
import SeMentor.Transactions.RollbackCut
import SeMentor.Transactions.Resume
import SeMentor.Workspace.LockService
import SeMentor.Transactions.Manager
import SeMentor.Transactions.Recovery
import SeMentor.Execution.Outcome
import SeMentor.Service.Operations
import SeMentor.Service.Records
import SeMentor.Service.OutsideWork
import SeMentor.Service.Backups
import SeMentor.Service.RecoveryGate
import SeMentor.Lib.Glob
import SeMentor.Governance.DecisionService
import SeMentor.Policy.Compiler
import SeMentor.Policy.Enforcer
import SeMentor.Approvals.Requests
import SeMentor.Approvals.Authority
import SeMentor.Proposals.Review
import SeMentor.Proposals.Drafts
import SeMentor.Orchestration.ChangeFlow
import SeMentor.Execution.Authorization
import SeMentor.Governance.Readiness
import SeMentor.Governance.Operations
import SeMentor.Governance.PolicyRules
import SeMentor.Governance.ApprovalScope
import SeMentor.Governance.Withdrawal
import SeMentor.Governance.OnePolicy
import SeMentor.Governance.Confirmation
import SeMentor.Governance.DeadProposals
import SeMentor.Governance.Endpoints
import SeMentor.Governance.GovernedRuns
import SeMentor.Governance.ReportedFlow
import SeMentor.Governance.Settled
import SeMentor.Governance.Answers
import SeMentor.Orchestration.ConfirmFailure
import SeMentor.Workspace.LockSessions
import SeMentor.Workspace.LockExclusion
import SeMentor.Lib.Contract
import SeMentor.Execution.Run
import SeMentor.Execution.Prepare
import SeMentor.Tools.Dispatcher
import SeMentor.Agent.Iteration
import SeMentor.Agent.Runtime
import SeMentor.Agent.TurnRules
import SeMentor.Agent.RunRules
import SeMentor.Execution.Orchestrator
import SeMentor.Execution.Cancellation
import SeMentor.Agent.Completion
import SeMentor.Execution.Completion
import SeMentor.Execution.LockHeld
import SeMentor.Runtime.SessionIsolation
import SeMentor.Governance.Severity
import SeMentor.Tasks.Retries
import SeMentor.Credentials.Honesty
import SeMentor.Runtime.ZipPlan
import SeMentor.Runtime.FailedImport
import SeMentor.Runtime.TenancyBounds
import SeMentor.Runtime.RoundTrip
import SeMentor.Transactions.RecoveryAlerts
import SeMentor.Execution.SensitiveFiles
import SeMentor.Transactions.RecoveryVerdict
import SeMentor.Execution.TerminalStates
import SeMentor.Config.Restrictions
import SeMentor.Config.ProviderPin
import SeMentor.Projects.ConfigService
import SeMentor.Events.Sanitised
import SeMentor.Policy.Protection
import SeMentor.Agent.ActionParser
import SeMentor.Agent.Prompt
import SeMentor.Tools.LinkedTargets
import SeMentor.Tools.FailedWrites
import SeMentor.Tools.PatchExactness
import SeMentor.Agent.RepairRuns
import SeMentor.Governance.RuleOrder
import SeMentor.Validation.Evasion
import SeMentor.Git.ExternalChanges
import SeMentor.Impact.Neighbourhood
import SeMentor.Agent.LoopRuns
import SeMentor.Validation.PassedRuns
import SeMentor.Indexing.Completeness
import SeMentor.Indexing.FaithfulExtraction
import SeMentor.Execution.CrashLoss
import SeMentor.Indexing.RelatedSymbols
import SeMentor.Progress.Stagnation
import SeMentor.Context.Assembly
import SeMentor.Security.RedactionComplete
import SeMentor.Evidence.Bundle
import SeMentor.Knowledge.AutoAllow
import SeMentor.Readers.FileReader
import SeMentor.Execution.CacheTransparency
import SeMentor.Api.MessageNumbers
import SeMentor.Workspace.Heartbeats
import SeMentor.Llm.Replies
import SeMentor.Execution.TargetRule
