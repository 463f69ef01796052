import McpOperator.Gateway.Outputs
import McpOperator.Reconcile.Backoff
import McpOperator.Yaml.Decode

namespace McpOperator

structure Tuning where
  concurrency : UInt16
  requestTimeout : UInt64
  backoffBase : UInt64
  backoffMax : UInt64
deriving DecidableEq

namespace Tuning

def default : Tuning := ⟨4, 10, 1, 300⟩

def fields : Fields Tuning :=
  Tuning.mk <$> Fields.defaulted "concurrency" Decode.u16 default.concurrency
    <*> Fields.defaulted "request_timeout_seconds" Decode.u64 default.requestTimeout
    <*> Fields.defaulted "backoff_base_seconds" Decode.u64 default.backoffBase
    <*> Fields.defaulted "backoff_max_seconds" Decode.u64 default.backoffMax

def decode : Decoder Tuning := fields.decode "ReconcileConfiguration"

def fieldNames : List String :=
  ["concurrency", "request_timeout_seconds", "backoff_base_seconds", "backoff_max_seconds"]

def ofNode? (node : Yaml.Node) : Option Tuning := do
  let fields ← node.fields? fieldNames
  let concurrency ← Yaml.Node.defaulted? Yaml.Node.u16? default.concurrency "concurrency" fields
  let requestTimeout ←
    Yaml.Node.defaulted? Yaml.Node.u64? default.requestTimeout "request_timeout_seconds" fields
  let backoffBase ←
    Yaml.Node.defaulted? Yaml.Node.u64? default.backoffBase "backoff_base_seconds" fields
  let backoffMax ← Yaml.Node.defaulted? Yaml.Node.u64? default.backoffMax "backoff_max_seconds" fields
  some ⟨concurrency, requestTimeout, backoffBase, backoffMax⟩

def backoff (t : Tuning) : Backoff := .new (.ofSeconds t.backoffBase) (.ofSeconds t.backoffMax)

end Tuning

structure Settings where
  controllerName : String
  openTelemetry : Option Bool
  watchNamespace : Option String
  gatewayImage : String
  tuning : Tuning
deriving DecidableEq

inductive SettingsError where
  | controllerName
  | gatewayImage
  | concurrency
  | requestTimeout
  | backoff (base max : UInt64)
deriving DecidableEq

namespace SettingsError

def message : SettingsError → String
  | controllerName => "controller name must be not empty"
  | gatewayImage => "agentgateway image must be not empty"
  | concurrency => "reconcile concurrency must be greater than zero"
  | requestTimeout => "request timeout must be greater than zero"
  | backoff base max =>
      "backoff base " ++ toString base.toNat ++
        "s must be greater than zero and not exceed backoff max " ++ toString max.toNat ++ "s"

def detail : SettingsError → String
  | controllerName => "ControllerName"
  | gatewayImage => "AgentgatewayImage"
  | concurrency => "Concurrency"
  | requestTimeout => "RequestTimeout"
  | backoff base max => "Backoff(" ++ toString base.toNat ++ ", " ++ toString max.toNat ++ ")"

end SettingsError

namespace Settings

def gatewayFields : Fields String := id <$> Fields.required "image" Decode.str

def fields : Fields Settings :=
  Settings.mk <$> Fields.required "controller_name" Decode.str
    <*> Fields.optional "enable_open_telemetry" Decode.bool
    <*> Fields.optional "watch_namespace" Decode.str
    <*> Fields.defaulted "agentgateway" (gatewayFields.decode "AgentgatewayConfiguration")
      Gateway.defaultImage
    <*> Fields.defaulted "reconcile" Tuning.decode Tuning.default

def decode : Decoder Settings := fields.decode "Configuration"

def fieldNames : List String :=
  ["controller_name", "enable_open_telemetry", "watch_namespace", "agentgateway", "reconcile"]

def imageOfNode? (node : Yaml.Node) : Option String := do
  let fields ← node.fields? ["image"]
  Yaml.Node.required? Yaml.Node.text? "image" fields

def ofNode? (node : Yaml.Node) : Option Settings := do
  let fields ← node.fields? fieldNames
  let controllerName ← Yaml.Node.required? Yaml.Node.text? "controller_name" fields
  let openTelemetry ←
    Yaml.Node.defaulted? (Yaml.Node.orNull? Yaml.Node.bool?) none "enable_open_telemetry" fields
  let watchNamespace ←
    Yaml.Node.defaulted? (Yaml.Node.orNull? Yaml.Node.text?) none "watch_namespace" fields
  let gatewayImage ←
    Yaml.Node.defaulted? imageOfNode? Gateway.defaultImage "agentgateway" fields
  let tuning ← Yaml.Node.defaulted? Tuning.ofNode? Tuning.default "reconcile" fields
  some ⟨controllerName, openTelemetry, watchNamespace, gatewayImage, tuning⟩

def ofYaml? (s : String) : Option Settings := (Yaml.Node.ofText? s).bind ofNode?

/-- The first requirement that is not fulfilled is the error. -/
def validate (s : Settings) : Except SettingsError Unit :=
  let t := s.tuning
  if s.controllerName = "" then .error .controllerName
  else if s.gatewayImage = "" then .error .gatewayImage
  else if t.concurrency = 0 then .error .concurrency
  else if t.requestTimeout = 0 then .error .requestTimeout
  else if t.backoffBase = 0 ∨ t.backoffMax < t.backoffBase then
    .error (.backoff t.backoffBase t.backoffMax)
  else .ok ()

end Settings
end McpOperator
