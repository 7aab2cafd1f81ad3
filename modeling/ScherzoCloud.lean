import ScherzoCloud.Cli.ArtifactAssembly
import ScherzoCloud.Git.PackIntegers
import ScherzoCloud.Runner.CancellationEvidence
import ScherzoCloud.Runner.InvocationEvidence
import ScherzoCloud.Runner.LeaseSupervision
import ScherzoCloud.Workflow.CancellationSource
import ScherzoCloud.Workflow.CaptureBudget
import ScherzoCloud.Workflow.FinalizerTriggers
import ScherzoCloud.Workflow.ResourceOwnership
import ScherzoCloud.Workflow.ContentDigest
import ScherzoCloud.Workflow.JsonPointers
import ScherzoCloud.Workflow.Progress
import ScherzoCloud.Workflow.RunView
import ScherzoCloud.Workflow.WorkspaceSnapshot
