import McpOperator.Objects.Container
import McpOperator.Objects.Form.Pod

namespace McpOperator

structure PodSpec where
  activeDeadlineSeconds : Option Int64 := none
  affinity : Option Layout.affinity.Value := none
  automountServiceAccountToken : Option Bool := none
  containers : List Container
  dnsConfig : Option Layout.dnsConfig.Value := none
  dnsPolicy : Option String := none
  enableServiceLinks : Option Bool := none
  ephemeralContainers : Option (List EphemeralContainer) := none
  hostAliases : Option (List Layout.hostAlias.Value) := none
  hostIPC : Option Bool := none
  hostNetwork : Option Bool := none
  hostPID : Option Bool := none
  hostUsers : Option Bool := none
  hostname : Option String := none
  imagePullSecrets : Option (List LocalObjectReference) := none
  initContainers : Option (List Container) := none
  nodeName : Option String := none
  nodeSelector : Option StringMap := none
  os : Option Layout.podOS.Value := none
  overhead : Option StringMap := none
  preemptionPolicy : Option String := none
  priority : Option Int32 := none
  priorityClassName : Option String := none
  readinessGates : Option (List Layout.readinessGate.Value) := none
  resourceClaims : Option (List Layout.podResourceClaim.Value) := none
  restartPolicy : Option String := none
  runtimeClassName : Option String := none
  schedulerName : Option String := none
  schedulingGates : Option (List Layout.schedulingGate.Value) := none
  securityContext : Option Layout.podSecurityContext.Value := none
  serviceAccount : Option String := none
  serviceAccountName : Option String := none
  setHostnameAsFQDN : Option Bool := none
  shareProcessNamespace : Option Bool := none
  subdomain : Option String := none
  terminationGracePeriodSeconds : Option Int64 := none
  tolerations : Option (List Layout.toleration.Value) := none
  topologySpreadConstraints : Option (List Layout.topologySpread.Value) := none
  volumes : Option (List Volume) := none
deriving DecidableEq

namespace PodSpec

def fields : Fields PodSpec :=
  PodSpec.mk <$> Fields.optional "activeDeadlineSeconds" Decode.i64
    <*> Fields.optional "affinity" Layout.affinity.decode
    <*> Fields.optional "automountServiceAccountToken" Decode.bool
    <*> Fields.lenient "containers" (Decode.list Container.decode) []
    <*> Fields.optional "dnsConfig" Layout.dnsConfig.decode
    <*> Fields.optional "dnsPolicy" Decode.str
    <*> Fields.optional "enableServiceLinks" Decode.bool
    <*> Fields.optional "ephemeralContainers" (Decode.list EphemeralContainer.decode)
    <*> Fields.optional "hostAliases" (Decode.list Layout.hostAlias.decode)
    <*> Fields.optional "hostIPC" Decode.bool
    <*> Fields.optional "hostNetwork" Decode.bool
    <*> Fields.optional "hostPID" Decode.bool
    <*> Fields.optional "hostUsers" Decode.bool
    <*> Fields.optional "hostname" Decode.str
    <*> Fields.optional "imagePullSecrets" (Decode.list LocalObjectReference.decode)
    <*> Fields.optional "initContainers" (Decode.list Container.decode)
    <*> Fields.optional "nodeName" Decode.str
    <*> Fields.optional "nodeSelector" Decode.stringMap
    <*> Fields.optional "os" Layout.podOS.decode
    <*> Fields.optional "overhead" Decode.stringMap
    <*> Fields.optional "preemptionPolicy" Decode.str
    <*> Fields.optional "priority" Decode.i32
    <*> Fields.optional "priorityClassName" Decode.str
    <*> Fields.optional "readinessGates" (Decode.list Layout.readinessGate.decode)
    <*> Fields.optional "resourceClaims" (Decode.list Layout.podResourceClaim.decode)
    <*> Fields.optional "restartPolicy" Decode.str
    <*> Fields.optional "runtimeClassName" Decode.str
    <*> Fields.optional "schedulerName" Decode.str
    <*> Fields.optional "schedulingGates" (Decode.list Layout.schedulingGate.decode)
    <*> Fields.optional "securityContext" Layout.podSecurityContext.decode
    <*> Fields.optional "serviceAccount" Decode.str
    <*> Fields.optional "serviceAccountName" Decode.str
    <*> Fields.optional "setHostnameAsFQDN" Decode.bool
    <*> Fields.optional "shareProcessNamespace" Decode.bool
    <*> Fields.optional "subdomain" Decode.str
    <*> Fields.optional "terminationGracePeriodSeconds" Decode.i64
    <*> Fields.optional "tolerations" (Decode.list Layout.toleration.decode)
    <*> Fields.optional "topologySpreadConstraints" (Decode.list Layout.topologySpread.decode)
    <*> Fields.optional "volumes" (Decode.list Volume.decode)

def decode : Decoder PodSpec := fields.decodeObject "PodSpec"

def encode (p : PodSpec) : Json := .record [
  ("activeDeadlineSeconds", p.activeDeadlineSeconds.map .ofInt64),
  ("affinity", p.affinity.map Layout.affinity.encode),
  ("automountServiceAccountToken", p.automountServiceAccountToken.map .bool),
  ("containers", some (.ofList Container.encode p.containers)),
  ("dnsConfig", p.dnsConfig.map Layout.dnsConfig.encode),
  ("dnsPolicy", p.dnsPolicy.map .str),
  ("enableServiceLinks", p.enableServiceLinks.map .bool),
  ("ephemeralContainers", p.ephemeralContainers.map (.ofList EphemeralContainer.encode)),
  ("hostAliases", p.hostAliases.map (.ofList Layout.hostAlias.encode)),
  ("hostIPC", p.hostIPC.map .bool),
  ("hostNetwork", p.hostNetwork.map .bool),
  ("hostPID", p.hostPID.map .bool),
  ("hostUsers", p.hostUsers.map .bool),
  ("hostname", p.hostname.map .str),
  ("imagePullSecrets", p.imagePullSecrets.map (.ofList LocalObjectReference.encode)),
  ("initContainers", p.initContainers.map (.ofList Container.encode)),
  ("nodeName", p.nodeName.map .str),
  ("nodeSelector", p.nodeSelector.map .ofStringMap),
  ("os", p.os.map Layout.podOS.encode),
  ("overhead", p.overhead.map .ofStringMap),
  ("preemptionPolicy", p.preemptionPolicy.map .str),
  ("priority", p.priority.map .ofInt32),
  ("priorityClassName", p.priorityClassName.map .str),
  ("readinessGates", p.readinessGates.map (.ofList Layout.readinessGate.encode)),
  ("resourceClaims", p.resourceClaims.map (.ofList Layout.podResourceClaim.encode)),
  ("restartPolicy", p.restartPolicy.map .str),
  ("runtimeClassName", p.runtimeClassName.map .str),
  ("schedulerName", p.schedulerName.map .str),
  ("schedulingGates", p.schedulingGates.map (.ofList Layout.schedulingGate.encode)),
  ("securityContext", p.securityContext.map Layout.podSecurityContext.encode),
  ("serviceAccount", p.serviceAccount.map .str),
  ("serviceAccountName", p.serviceAccountName.map .str),
  ("setHostnameAsFQDN", p.setHostnameAsFQDN.map .bool),
  ("shareProcessNamespace", p.shareProcessNamespace.map .bool),
  ("subdomain", p.subdomain.map .str),
  ("terminationGracePeriodSeconds", p.terminationGracePeriodSeconds.map .ofInt64),
  ("tolerations", p.tolerations.map (.ofList Layout.toleration.encode)),
  ("topologySpreadConstraints", p.topologySpreadConstraints.map (.ofList Layout.topologySpread.encode)),
  ("volumes", p.volumes.map (.ofList Volume.encode))]

end PodSpec

structure PodTemplate where
  metadata : Option ObjectMeta := none
  spec : Option PodSpec := none
deriving DecidableEq

namespace PodTemplate

def fields : Fields PodTemplate :=
  PodTemplate.mk <$> Fields.optional "metadata" ObjectMeta.decode
    <*> Fields.optional "spec" PodSpec.decode

def decode : Decoder PodTemplate := fields.decodeObject "PodTemplateSpec"

def encode (t : PodTemplate) : Json := .record [
  ("metadata", t.metadata.map ObjectMeta.encode),
  ("spec", t.spec.map PodSpec.encode)]

end PodTemplate

structure DeploymentSpec where
  minReadySeconds : Option Int32 := none
  paused : Option Bool := none
  progressDeadlineSeconds : Option Int32 := none
  replicas : Option Int32 := none
  revisionHistoryLimit : Option Int32 := none
  selector : LabelSelector
  strategy : Option Layout.deploymentStrategy.Value := none
  template : PodTemplate
deriving DecidableEq

namespace DeploymentSpec

def fields : Fields DeploymentSpec :=
  DeploymentSpec.mk <$> Fields.optional "minReadySeconds" Decode.i32
    <*> Fields.optional "paused" Decode.bool
    <*> Fields.optional "progressDeadlineSeconds" Decode.i32
    <*> Fields.optional "replicas" Decode.i32
    <*> Fields.optional "revisionHistoryLimit" Decode.i32
    <*> Fields.lenient "selector" LabelSelector.decode {}
    <*> Fields.optional "strategy" Layout.deploymentStrategy.decode
    <*> Fields.lenient "template" PodTemplate.decode {}

def decode : Decoder DeploymentSpec := fields.decodeObject "DeploymentSpec"

def encode (s : DeploymentSpec) : Json := .record [
  ("minReadySeconds", s.minReadySeconds.map .ofInt32),
  ("paused", s.paused.map .bool),
  ("progressDeadlineSeconds", s.progressDeadlineSeconds.map .ofInt32),
  ("replicas", s.replicas.map .ofInt32),
  ("revisionHistoryLimit", s.revisionHistoryLimit.map .ofInt32),
  ("selector", some s.selector.encode),
  ("strategy", s.strategy.map Layout.deploymentStrategy.encode),
  ("template", some s.template.encode)]

end DeploymentSpec

structure DeploymentStatus where
  availableReplicas : Option Int32 := none
  collisionCount : Option Int32 := none
  conditions : Option (List Layout.deploymentCondition.Value) := none
  observedGeneration : Option Int64 := none
  readyReplicas : Option Int32 := none
  replicas : Option Int32 := none
  unavailableReplicas : Option Int32 := none
  updatedReplicas : Option Int32 := none
deriving DecidableEq

namespace DeploymentStatus

def fields : Fields DeploymentStatus :=
  DeploymentStatus.mk <$> Fields.optional "availableReplicas" Decode.i32
    <*> Fields.optional "collisionCount" Decode.i32
    <*> Fields.optional "conditions" (Decode.list Layout.deploymentCondition.decode)
    <*> Fields.optional "observedGeneration" Decode.i64
    <*> Fields.optional "readyReplicas" Decode.i32
    <*> Fields.optional "replicas" Decode.i32
    <*> Fields.optional "unavailableReplicas" Decode.i32
    <*> Fields.optional "updatedReplicas" Decode.i32

def decode : Decoder DeploymentStatus := fields.decodeObject "DeploymentStatus"

def encode (s : DeploymentStatus) : Json := .record [
  ("availableReplicas", s.availableReplicas.map .ofInt32),
  ("collisionCount", s.collisionCount.map .ofInt32),
  ("conditions", s.conditions.map (.ofList Layout.deploymentCondition.encode)),
  ("observedGeneration", s.observedGeneration.map .ofInt64),
  ("readyReplicas", s.readyReplicas.map .ofInt32),
  ("replicas", s.replicas.map .ofInt32),
  ("unavailableReplicas", s.unavailableReplicas.map .ofInt32),
  ("updatedReplicas", s.updatedReplicas.map .ofInt32)]

end DeploymentStatus

structure Deployment where
  metadata : ObjectMeta
  spec : Option DeploymentSpec
  status : Option DeploymentStatus
deriving DecidableEq

namespace Deployment

def fields : Fields Deployment :=
  Deployment.mk <$> Fields.lenient "metadata" ObjectMeta.decode .empty
    <*> Fields.optional "spec" DeploymentSpec.decode
    <*> Fields.optional "status" DeploymentStatus.decode

def decode : Decoder Deployment :=
  (fields.ofKind "apps/v1" "Deployment").decodeObject "Deployment"

def encode (d : Deployment) : Json := .record [
  ("apiVersion", some (.str "apps/v1")),
  ("kind", some (.str "Deployment")),
  ("metadata", some d.metadata.encode),
  ("spec", d.spec.map DeploymentSpec.encode),
  ("status", d.status.map DeploymentStatus.encode)]

end Deployment
end McpOperator
