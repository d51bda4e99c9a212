import OperatorToolkit.Base
import OperatorToolkit.Interaction.Program
import OperatorToolkit.Interaction.Serial
import OperatorToolkit.Interaction.Execution
import OperatorToolkit.Interaction.Frame
import OperatorToolkit.Interaction.Pool
import OperatorToolkit.Interaction.Sum
import OperatorToolkit.Interaction.Lifting
import OperatorToolkit.Interaction.Confined
import OperatorToolkit.Interaction.Threads
import OperatorToolkit.Grouping.OrderedMap
import OperatorToolkit.Grouping.Keys
import OperatorToolkit.Grouping.FirstOccurrences
import OperatorToolkit.Grouping.Summaries
import OperatorToolkit.Memory.Slices
import OperatorToolkit.Queueing.WorkQueue
import OperatorToolkit.Queueing.Delivery
import OperatorToolkit.Encoding.Json
import OperatorToolkit.Encoding.GoTypes
import OperatorToolkit.Encoding.RoundTrip
import OperatorToolkit.Encoding.Fields
import OperatorToolkit.Encoding.Yaml
import OperatorToolkit.Object.Status
import OperatorToolkit.Object.Names
import OperatorToolkit.Object.ClientObjects
import OperatorToolkit.Object.Metadata
import OperatorToolkit.Layering.Chains
import OperatorToolkit.Layering.Sweep
import OperatorToolkit.Layering.Relisting
import OperatorToolkit.Staged.Barrier
import OperatorToolkit.Operator.Operand
import OperatorToolkit.Operator.Dag
import OperatorToolkit.Operator.DagGraph
import OperatorToolkit.Operator.DagSolve
import OperatorToolkit.Operator.DagOrder
import OperatorToolkit.Operator.DagSteps
import OperatorToolkit.Operator.DagPermutation
import OperatorToolkit.Operator.Executor
import OperatorToolkit.Operator.ExecutorRuns
import OperatorToolkit.Operator.ExecutorBarrier
import OperatorToolkit.Operator.ExecutorReturns
import OperatorToolkit.Operator.ConcurrentExec
import OperatorToolkit.Operator.Strategies
import OperatorToolkit.Operator.ExecutorEvents
import OperatorToolkit.Operator.CompositeOperator
import OperatorToolkit.Operator.Ensure
import OperatorToolkit.Operator.Cleanup
import OperatorToolkit.Operator.Skipped
import OperatorToolkit.Operator.Requeue
import OperatorToolkit.Operator.Reverse
import OperatorToolkit.Action.RunAction
import OperatorToolkit.Action.Reconcile
import OperatorToolkit.Action.Timing
import OperatorToolkit.Composite.Reconcile
import OperatorToolkit.Composite.Runs
import OperatorToolkit.Composite.Failures
import OperatorToolkit.Composite.World
import OperatorToolkit.Composite.Finalizer
import OperatorToolkit.Composite.Deletion
import OperatorToolkit.Composite.Quiescence
import OperatorToolkit.Composite.Writes
import OperatorToolkit.Sync.Reconcile
import OperatorToolkit.Sync.Collector
import OperatorToolkit.Sync.Undisturbed
import OperatorToolkit.Sync.Convergence
import OperatorToolkit.Sync.Resync
import OperatorToolkit.Cert.Calls
import OperatorToolkit.Cert.Writer
import OperatorToolkit.Cert.Provisioner
import OperatorToolkit.Cert.Manager
import OperatorToolkit.Cert.Bundles
import OperatorToolkit.Cert.World
import OperatorToolkit.Cert.Reliable
import OperatorToolkit.Cert.Disk
import OperatorToolkit.Cert.Refresh
import OperatorToolkit.Cert.Reads
import OperatorToolkit.Cert.FailedRead
import OperatorToolkit.Cert.Kept
import OperatorToolkit.Cert.Concurrent
import OperatorToolkit.Rbac.Client
import OperatorToolkit.Rbac.Result
import OperatorToolkit.Rbac.Grants
import OperatorToolkit.Rbac.Reordering
import OperatorToolkit.Informer.Reader
import OperatorToolkit.Informer.InformersMap
import OperatorToolkit.Informer.Lookup
import OperatorToolkit.Informer.FieldIndex
import OperatorToolkit.Informer.FieldList
import OperatorToolkit.Informer.Coherence
import OperatorToolkit.Informer.Cache
import OperatorToolkit.Informer.CacheReads
import OperatorToolkit.Client.Composite
import OperatorToolkit.Source.EventHandler
import OperatorToolkit.Source.Updates
import OperatorToolkit.Cert.Generator
import OperatorToolkit.Cert.Renewal
import OperatorToolkit.Declarative.Mutate
import OperatorToolkit.Declarative.Kustomize
import OperatorToolkit.Declarative.Transform
import OperatorToolkit.Declarative.Builder
import OperatorToolkit.Declarative.TransformOrder
import OperatorToolkit.Declarative.OwnerReferences
import OperatorToolkit.Files.Copying
import OperatorToolkit.Declarative.NewBuilder
import OperatorToolkit.Declarative.SharedLabels
import OperatorToolkit.Declarative.SharedBuilders
import OperatorToolkit.Declarative.Loader
import OperatorToolkit.Webhook.Defaulter
import OperatorToolkit.Webhook.Validator
import OperatorToolkit.Webhook.DefaultFunctions
import OperatorToolkit.Webhook.Reinvocation
import OperatorToolkit.Webhook.LabelPolicy
import OperatorToolkit.Singleton.Admission
