import McpOperator.Cluster.Controller
import McpOperator.Json.Pointer
import McpOperator.Main
import McpOperator.Proofs.Codec.Basic
import McpOperator.Proofs.Checks
import McpOperator.Proofs.Time.Text
import McpOperator.Store.Memory
import McpOperator.Proofs.Codec.Base64
import McpOperator.Proofs.Codec.Objects
import McpOperator.Proofs.Codec.Server
import McpOperator.Proofs.Codec.Kind
import McpOperator.Proofs.Status.Settings
import McpOperator.Proofs.Status.After
import McpOperator.Proofs.Store.Reachable
import McpOperator.Proofs.Store.Upsert
import McpOperator.Proofs.Reconcile.Steps
import McpOperator.Proofs.Gateway.Derive
import McpOperator.Proofs.Reconcile.Pass
import McpOperator.Proofs.Reconcile.Convergence
import McpOperator.Proofs.Reconcile.Idempotence
import McpOperator.Proofs.Reconcile.Recovery
import McpOperator.Proofs.Store.Interleaving
import McpOperator.Proofs.Reconcile.LostUpdate
import McpOperator.Proofs.Reconcile.Failures
import McpOperator.Proofs.Store.Versions
import McpOperator.Proofs.Store.Footprint
import McpOperator.Proofs.Reconcile.Determined
import McpOperator.Proofs.Reconcile.Independence
import McpOperator.Proofs.Reconcile.Routing
import McpOperator.Proofs.Yaml.Quoted
import McpOperator.Proofs.Yaml.Scalar
import McpOperator.Proofs.Yaml.Word
import McpOperator.Proofs.Yaml.Injective
import McpOperator.Proofs.Gateway.Encoding
import McpOperator.Proofs.Gateway.Effective
import McpOperator.Proofs.Codec.Config
import McpOperator.Proofs.Gateway.Document
import McpOperator.Proofs.Gateway.Outputs
import McpOperator.Proofs.Gateway.Needs
import McpOperator.Proofs.Gateway.Protections
import McpOperator.Proofs.Gateway.Mounts
import McpOperator.Proofs.Gateway.Declarations
import McpOperator.Proofs.Gateway.Agreement
import McpOperator.Proofs.Json.Read
import McpOperator.Proofs.Json.Token
import McpOperator.Proofs.Json.Inclusion
import McpOperator.Proofs.Codec.Portable
import McpOperator.Proofs.Codec.Resource
import McpOperator.Proofs.Store.Outcome
import McpOperator.Proofs.Store.Succession
import McpOperator.Proofs.Store.Bookkeeping
import McpOperator.Proofs.Store.Transcript
import McpOperator.Proofs.Reconcile.Discipline
import McpOperator.Proofs.Reconcile.Delays
import McpOperator.Proofs.Status.Transitions
import McpOperator.Proofs.Status.Forgetting
import McpOperator.Proofs.Status.Order
import McpOperator.Proofs.Store.Record
import McpOperator.Proofs.Gateway.RoundTrip
import McpOperator.Proofs.Cluster.Addressing
import McpOperator.Proofs.Cluster.ApiServer
import McpOperator.Proofs.Cluster.Lockstep
import McpOperator.Proofs.Cluster.StandIn
import McpOperator.Proofs.Cluster.Evaluation
import McpOperator.Proofs.Cluster.Interchange
