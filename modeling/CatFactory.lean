import CatFactory.Initiative.SpawnOnce
import CatFactory.Execution.JobIds
import CatFactory.Execution.DelegationLaw
import CatFactory.Execution.BlockStatus
import CatFactory.Execution.RunStore
import CatFactory.Policy.Selection
import CatFactory.Network.AddressGuards
import CatFactory.Publishing.ManagedSection
import CatFactory.Network.ReachabilityLaw
import CatFactory.Policy.MergeHistory
import CatFactory.Forms.Doors
import CatFactory.Pipelines.LostCheckpoints
import CatFactory.Reviews.PostingLaw
import CatFactory.Gates.ChallengeRuns
import CatFactory.Initiative.Ingest
import CatFactory.Initiative.Harvest
import CatFactory.Gates.JudgeLaw
import CatFactory.Expedition.CoverLaw
import CatFactory.Spend.RollupLaw
import CatFactory.Expedition.FixTaskLaw
import CatFactory.Execution.ProvisionOrder
import CatFactory.Execution.StepClock
import CatFactory.Execution.Ralph
import CatFactory.Policy.ChangeClass
import CatFactory.Publishing.Cells
import CatFactory.Replies.ExtractLaw
import CatFactory.Redaction.RedactLaw
import CatFactory.Policy.RiskTiers
import CatFactory.Harness.JsonlStream
import CatFactory.Pipelines.EnvironmentLifecycle
import CatFactory.Spend.LlmRollupLaw
import CatFactory.Spend.TokenUsage
import CatFactory.Harness.ProgressGuardLaw
import CatFactory.Recurring.Schedule
import CatFactory.Observability.RunTraceLaw
import CatFactory.Harness.ClaudeRunLaw
import CatFactory.Pipelines.ReseedLaw
import CatFactory.Requirements.ChunkLaw
import CatFactory.Reviews.ResumeLaw
import CatFactory.Reviews.CommentableLaw
import CatFactory.Network.Ipv6Grammar
import CatFactory.Failures.ErrorChainLaw
import CatFactory.Forms.SectionLaw
import CatFactory.Caching.CoherencyLaw
import CatFactory.Caching.IsolationLaw
import CatFactory.Board.DependencyLaw
import CatFactory.Board.Removal
import CatFactory.Access.RevocationLaw
import CatFactory.Access.ReachLaw
import CatFactory.Access.GrantLaw
