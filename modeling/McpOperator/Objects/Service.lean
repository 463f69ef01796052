import McpOperator.Objects.Form.Service

namespace McpOperator

structure ServicePort where
  appProtocol : Option String := none
  name : Option String := none
  nodePort : Option Int32 := none
  port : Int32
  protocol : Option String := none
  targetPort : Option PortTarget := none
deriving DecidableEq

namespace ServicePort

def fields : Fields ServicePort :=
  ServicePort.mk <$> Fields.optional "appProtocol" Decode.str
    <*> Fields.optional "name" Decode.str
    <*> Fields.optional "nodePort" Decode.i32
    <*> Fields.lenient "port" Decode.i32 0
    <*> Fields.optional "protocol" Decode.str
    <*> Fields.optional "targetPort" PortTarget.decode

def decode : Decoder ServicePort := fields.decodeObject "ServicePort"

def encode (p : ServicePort) : Json := .record [
  ("appProtocol", p.appProtocol.map .str),
  ("name", p.name.map .str),
  ("nodePort", p.nodePort.map .ofInt32),
  ("port", some (.ofInt32 p.port)),
  ("protocol", p.protocol.map .str),
  ("targetPort", p.targetPort.map PortTarget.encode)]

end ServicePort

structure ServiceSpec where
  allocateLoadBalancerNodePorts : Option Bool := none
  clusterIP : Option String := none
  clusterIPs : Option (List String) := none
  externalIPs : Option (List String) := none
  externalName : Option String := none
  externalTrafficPolicy : Option String := none
  healthCheckNodePort : Option Int32 := none
  internalTrafficPolicy : Option String := none
  ipFamilies : Option (List String) := none
  ipFamilyPolicy : Option String := none
  loadBalancerClass : Option String := none
  loadBalancerIP : Option String := none
  loadBalancerSourceRanges : Option (List String) := none
  ports : Option (List ServicePort) := none
  publishNotReadyAddresses : Option Bool := none
  selector : Option StringMap := none
  sessionAffinity : Option String := none
  sessionAffinityConfig : Option Layout.sessionAffinityConfig.Value := none
  type : Option String := none
deriving DecidableEq

namespace ServiceSpec

def fields : Fields ServiceSpec :=
  ServiceSpec.mk <$> Fields.optional "allocateLoadBalancerNodePorts" Decode.bool
    <*> Fields.optional "clusterIP" Decode.str
    <*> Fields.optional "clusterIPs" (Decode.list Decode.str)
    <*> Fields.optional "externalIPs" (Decode.list Decode.str)
    <*> Fields.optional "externalName" Decode.str
    <*> Fields.optional "externalTrafficPolicy" Decode.str
    <*> Fields.optional "healthCheckNodePort" Decode.i32
    <*> Fields.optional "internalTrafficPolicy" Decode.str
    <*> Fields.optional "ipFamilies" (Decode.list Decode.str)
    <*> Fields.optional "ipFamilyPolicy" Decode.str
    <*> Fields.optional "loadBalancerClass" Decode.str
    <*> Fields.optional "loadBalancerIP" Decode.str
    <*> Fields.optional "loadBalancerSourceRanges" (Decode.list Decode.str)
    <*> Fields.optional "ports" (Decode.list ServicePort.decode)
    <*> Fields.optional "publishNotReadyAddresses" Decode.bool
    <*> Fields.optional "selector" Decode.stringMap
    <*> Fields.optional "sessionAffinity" Decode.str
    <*> Fields.optional "sessionAffinityConfig" Layout.sessionAffinityConfig.decode
    <*> Fields.optional "type" Decode.str

def decode : Decoder ServiceSpec := fields.decodeObject "ServiceSpec"

def encode (s : ServiceSpec) : Json := .record [
  ("allocateLoadBalancerNodePorts", s.allocateLoadBalancerNodePorts.map .bool),
  ("clusterIP", s.clusterIP.map .str),
  ("clusterIPs", s.clusterIPs.map .strings),
  ("externalIPs", s.externalIPs.map .strings),
  ("externalName", s.externalName.map .str),
  ("externalTrafficPolicy", s.externalTrafficPolicy.map .str),
  ("healthCheckNodePort", s.healthCheckNodePort.map .ofInt32),
  ("internalTrafficPolicy", s.internalTrafficPolicy.map .str),
  ("ipFamilies", s.ipFamilies.map .strings),
  ("ipFamilyPolicy", s.ipFamilyPolicy.map .str),
  ("loadBalancerClass", s.loadBalancerClass.map .str),
  ("loadBalancerIP", s.loadBalancerIP.map .str),
  ("loadBalancerSourceRanges", s.loadBalancerSourceRanges.map .strings),
  ("ports", s.ports.map (.ofList ServicePort.encode)),
  ("publishNotReadyAddresses", s.publishNotReadyAddresses.map .bool),
  ("selector", s.selector.map .ofStringMap),
  ("sessionAffinity", s.sessionAffinity.map .str),
  ("sessionAffinityConfig", s.sessionAffinityConfig.map Layout.sessionAffinityConfig.encode),
  ("type", s.type.map .str)]

end ServiceSpec

structure ServiceStatus where
  conditions : Option (List Condition) := none
  loadBalancer : Option Layout.loadBalancerStatus.Value := none
deriving DecidableEq

namespace ServiceStatus

def fields : Fields ServiceStatus :=
  ServiceStatus.mk <$> Fields.optional "conditions" (Decode.list Condition.decode)
    <*> Fields.optional "loadBalancer" Layout.loadBalancerStatus.decode

def decode : Decoder ServiceStatus := fields.decodeObject "ServiceStatus"

def encode (s : ServiceStatus) : Json := .record [
  ("conditions", s.conditions.map (.ofList Condition.encode)),
  ("loadBalancer", s.loadBalancer.map Layout.loadBalancerStatus.encode)]

end ServiceStatus

structure Service where
  metadata : ObjectMeta
  spec : Option ServiceSpec
  status : Option ServiceStatus
deriving DecidableEq

namespace Service

def fields : Fields Service :=
  Service.mk <$> Fields.lenient "metadata" ObjectMeta.decode .empty
    <*> Fields.optional "spec" ServiceSpec.decode
    <*> Fields.optional "status" ServiceStatus.decode

def decode : Decoder Service := (fields.ofKind "v1" "Service").decodeObject "Service"

def encode (s : Service) : Json := .record [
  ("apiVersion", some (.str "v1")),
  ("kind", some (.str "Service")),
  ("metadata", some s.metadata.encode),
  ("spec", s.spec.map ServiceSpec.encode),
  ("status", s.status.map ServiceStatus.encode)]

end Service
end McpOperator
