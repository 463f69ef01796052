import McpOperator.Gateway.Pod
import McpOperator.Store.Call
import McpOperator.Digest.Sha256
import McpOperator.Yaml.Writer

namespace McpOperator.Gateway

def defaultImage : String := "ghcr.io/agentgateway/agentgateway:0.7.4-musl"

def nameLabel : String := "app.kubernetes.io/name"

def instanceLabel : String := "app.kubernetes.io/instance"

def managedByLabel : String := "app.kubernetes.io/managed-by"

def configHashKey : String := "kmcp.kagent.dev/mcpserver-config-hash"

/-- The first eight digits of the digest. Pods are rolled when it changes. -/
def configHash (content : String) : String := String.ofList ((Sha256.ofText content).toList.take 8)

def labels (name : String) : StringMap := .ofList [(nameLabel, name), (instanceLabel, name)]

def podLabels (name : String) : StringMap := (labels name).insert managedByLabel "kmcp"

structure Outputs where
  deployment : Deployment
  service : Service
  configMap : ConfigMap
  configHash : String
deriving DecidableEq

def owner? (server : McpServer) : Option OwnerReference := do
  let name ← server.metadata.name
  let uid ← server.metadata.uid
  some ⟨McpServer.apiVersion, none, some true, McpServer.kindName, name, uid⟩

def outputMeta (key : Key) (owner : OwnerReference) : ObjectMeta :=
  { ObjectMeta.empty with
    name := some key.name
    ns := some key.ns
    labels := some (labels key.name)
    ownerReferences := some [owner] }

def deployment (key : Key) (owner : OwnerReference) (pod : PodPlan) (hash : String) : Deployment where
  metadata := outputMeta key owner
  spec := some {
    selector := { matchLabels := some (labels key.name) }
    template := {
      metadata := some { ObjectMeta.empty with
        labels := some (podLabels key.name)
        annotations := some (.ofList [(configHashKey, hash)]) }
      spec := some (podSpec pod) } }
  status := none

def service (key : Key) (owner : OwnerReference) (n : UInt16) : Service where
  metadata := outputMeta key owner
  spec := some {
    ports := some [{
      name := some "http"
      port := port n
      protocol := some "TCP"
      targetPort := some (.number (port n)) }]
    selector := some (labels key.name) }
  status := none

def configMap (key : Key) (owner : OwnerReference) (content : String) : ConfigMap where
  binaryData := none
  data := some (.ofList [(configFile, content)])
  immutable := none
  metadata := outputMeta key owner

/-- What is settled before the store is asked. -/
structure Plan where
  key : Key
  owner : OwnerReference
  pod : PodPlan

def Plan.of (gatewayImage : String) (server : McpServer) : Except OutputError Plan := do
  let key := Key.of .server server
  let owner ← match owner? server with
    | some owner => .ok owner
    | none => .error (.noOwner key.display)
  let spec := server.spec
  (spec.validate key.name).mapError .invalid
  let transport ← spec.transport.mapError .invalid
  let image ← (spec.deployment.resolveImage key.name).mapError .invalid
  .ok ⟨key, owner, ⟨key.name, spec, transport, image, gatewayImage⟩⟩

def Plan.outputs (plan : Plan) (jwks : Option Jwks) : Except OutputError Outputs := do
  let pod := plan.pod
  let config ← Config.ofSpec pod.spec plan.key.name pod.transport jwks
  let content := Yaml.render config.encode
  let hash := Gateway.configHash content
  .ok {
    deployment := Gateway.deployment plan.key plan.owner pod hash
    service := Gateway.service plan.key plan.owner pod.spec.deployment.port
    configMap := Gateway.configMap plan.key plan.owner content
    configHash := hash }

def jwksOfSecret (secretKey : Key) (ref : SecretKeyRef) :
    Except StoreError (Option Secret) → Except OutputError (Option Jwks)
  | .ok (some secret) =>
      if secret.holds ref.key then .ok (some (.ofFile (jwksFile ref.key)))
      else .error (.secretFailed secretKey.display ("key " ++ ref.key ++ " not found"))
  | .ok none => .error (.secretFailed secretKey.display "secret not found")
  | .error e => .error (.secretFailed secretKey.display e.message)

/-- A reference to a secret counts before keys that are given inline. -/
def resolveJwks (spec : ServerSpec) (ns : String) : Work (Except OutputError (Option Jwks)) :=
  match spec.jwt with
  | none => .done (.ok none)
  | some jwt => match jwt.jwksRef with
      | some ref =>
          let key : Key := ⟨.secret, ns, ref.name⟩
          .call (.get key) fun answer => .done (jwksOfSecret key ref answer)
      | none => match nonempty? jwt.jwksInline with
          | some keys => .done (.ok (some (.ofText keys)))
          | none => .done (.error .missingJwks)

/-- Derives the objects of a server, with the image of the gateway that is to run it. -/
def derive (gatewayImage : String) (server : McpServer) : Work (Except OutputError Outputs) :=
  match Plan.of gatewayImage server with
  | .error e => .done (.error e)
  | .ok plan => do
      let jwks ← resolveJwks server.spec plan.key.ns
      match jwks with
      | .error e => .done (.error e)
      | .ok jwks => .done (plan.outputs jwks)

end McpOperator.Gateway
