import AgentContextLint.Cli.HandleOwnership
import AgentContextLint.Cli.ReconciledState
import AgentContextLint.Core.BaselineOrder
import AgentContextLint.Core.InstructionIrSoundness
import AgentContextLint.Core.OrganizationPolicyResolution
import AgentContextLint.Core.AssignedCredentials
import AgentContextLint.Core.SarifArtifactUri
import AgentContextLint.Efficiency.DistributionExactness
import AgentContextLint.Efficiency.ScoreExactness
import AgentContextLint.Evidence.CommandInvocations
import AgentContextLint.Evidence.EvidenceExactness
import AgentContextLint.Evidence.FallbackAccounting
import AgentContextLint.Evidence.ImportGraphComplete
import AgentContextLint.Evidence.NearDuplicateExactness
import AgentContextLint.Formatters.LineHashExactness
import AgentContextLint.Formatters.StylishBounds
import AgentContextLint.Resolver.ActivationDuality
import AgentContextLint.Resolver.BraceExpansion
import AgentContextLint.Resolver.ConflictPrecedence
import AgentContextLint.Resolver.DigestInjectivity
import AgentContextLint.Resolver.GlobReadings
import AgentContextLint.Resolver.ImportGraphAcceptance
import AgentContextLint.Resolver.ScheduleIndependence
import AgentContextLint.Resolver.TargetSoundness
import AgentContextLint.Rules.ChangedFileSelection
import AgentContextLint.Rules.SuppressionReconciliation
import AgentContextLint.Standards.SemverPrecedence
import AgentContextLint.Syntax.CoordinateSystem
import AgentContextLint.Syntax.InertLines
