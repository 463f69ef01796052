import McpOperator.Objects.Deployment
import McpOperator.Objects.Service
import McpOperator.Objects.KeyValue
import McpOperator.Server.Spec

namespace McpOperator

inductive Kind where
  | server
  | deployment
  | service
  | configMap
  | secret
deriving DecidableEq

namespace Kind

def name : Kind → String
  | server => "MCPServer"
  | deployment => "Deployment"
  | service => "Service"
  | configMap => "ConfigMap"
  | secret => "Secret"

def ofName? : String → Option Kind
  | "MCPServer" => some server
  | "Deployment" => some deployment
  | "Service" => some service
  | "ConfigMap" => some configMap
  | "Secret" => some secret
  | _ => none

def group : Kind → String
  | server => "kagent.dev"
  | deployment => "apps"
  | service | configMap | secret => ""

def version : Kind → String
  | server => "v1alpha1"
  | deployment | service | configMap | secret => "v1"

def plural : Kind → String
  | server => "mcpservers"
  | deployment => "deployments"
  | service => "services"
  | configMap => "configmaps"
  | secret => "secrets"

abbrev Object : Kind → Type
  | server => McpServer
  | deployment => Deployment
  | service => Service
  | configMap => ConfigMap
  | secret => Secret

def metadata : (kind : Kind) → kind.Object → ObjectMeta
  | server, o => McpServer.metadata o
  | deployment, o => Deployment.metadata o
  | service, o => Service.metadata o
  | configMap, o => ConfigMap.metadata o
  | secret, o => Secret.metadata o

def withMetadata : (kind : Kind) → kind.Object → ObjectMeta → kind.Object
  | server, o, m => { (o : McpServer) with metadata := m }
  | deployment, o, m => { (o : Deployment) with metadata := m }
  | service, o, m => { (o : Service) with metadata := m }
  | configMap, o, m => { (o : ConfigMap) with metadata := m }
  | secret, o, m => { (o : Secret) with metadata := m }

def encode : (kind : Kind) → kind.Object → Json
  | server => McpServer.encode
  | deployment => Deployment.encode
  | service => Service.encode
  | configMap => ConfigMap.encode
  | secret => Secret.encode

def decode : (kind : Kind) → Decoder kind.Object
  | server => McpServer.decode
  | deployment => Deployment.decode
  | service => Service.decode
  | configMap => ConfigMap.decode
  | secret => Secret.decode

@[simp] theorem metadata_withMetadata (kind : Kind) (o : kind.Object) (m : ObjectMeta) :
    kind.metadata (kind.withMetadata o m) = m := by
  cases kind <;> rfl

def resourceVersion (kind : Kind) (o : kind.Object) : Option String :=
  (kind.metadata o).resourceVersion

def withResourceVersion (kind : Kind) (o : kind.Object) (version : Option String) : kind.Object :=
  kind.withMetadata o { kind.metadata o with resourceVersion := version }

def annotations (kind : Kind) (o : kind.Object) : Option StringMap := (kind.metadata o).annotations

def withAnnotations (kind : Kind) (o : kind.Object) (annotations : Option StringMap) : kind.Object :=
  kind.withMetadata o { kind.metadata o with annotations }

end Kind

/-- What an object is stored under. Objects without a namespace are in the default one, and objects
without a name go by the name that one would be generated from. -/
structure Key where
  kind : Kind
  ns : String
  name : String
deriving DecidableEq

namespace Key

def defaultNamespace : String := "default"

def of (kind : Kind) (o : kind.Object) : Key :=
  let m := kind.metadata o
  ⟨kind, m.ns.getD defaultNamespace, (m.name.or m.generateName).getD ""⟩

def group (k : Key) : String := k.kind.group

def display (k : Key) : String := k.ns ++ "." ++ k.name

end Key
end McpOperator
