import McpOperator.Objects.Volume
import McpOperator.Objects.Form.Container

namespace McpOperator

structure EnvVar where
  name : String
  value : Option String := none
  valueFrom : Option Layout.valueFrom.Value := none
deriving DecidableEq

namespace EnvVar

def fields : Fields EnvVar :=
  EnvVar.mk <$> Fields.lenient "name" Decode.str ""
    <*> Fields.optional "value" Decode.str
    <*> Fields.optional "valueFrom" Layout.valueFrom.decode

def decode : Decoder EnvVar := fields.decodeObject "EnvVar"

def encode (e : EnvVar) : Json := .record [
  ("name", some (.str e.name)),
  ("value", e.value.map .str),
  ("valueFrom", e.valueFrom.map Layout.valueFrom.encode)]

end EnvVar

structure EnvSource where
  name : String
  optional : Option Bool := none
deriving DecidableEq

namespace EnvSource

def fields : Fields EnvSource :=
  EnvSource.mk <$> Fields.lenient "name" Decode.str ""
    <*> Fields.optional "optional" Decode.bool

def decodeConfigMap : Decoder EnvSource := fields.decodeObject "ConfigMapEnvSource"

def decodeSecret : Decoder EnvSource := fields.decodeObject "SecretEnvSource"

def encode (e : EnvSource) : Json := .record [
  ("name", some (.str e.name)),
  ("optional", e.optional.map .bool)]

end EnvSource

structure EnvFrom where
  configMapRef : Option EnvSource := none
  leading : Option String := none
  secretRef : Option EnvSource := none
deriving DecidableEq

namespace EnvFrom

def fields : Fields EnvFrom :=
  EnvFrom.mk <$> Fields.optional "configMapRef" EnvSource.decodeConfigMap
    <*> Fields.optional "prefix" Decode.str
    <*> Fields.optional "secretRef" EnvSource.decodeSecret

def decode : Decoder EnvFrom := fields.decodeObject "EnvFromSource"

def encode (e : EnvFrom) : Json := .record [
  ("configMapRef", e.configMapRef.map EnvSource.encode),
  ("prefix", e.leading.map .str),
  ("secretRef", e.secretRef.map EnvSource.encode)]

def ofSecret (name : String) : EnvFrom := { secretRef := some { name } }

def ofConfigMap (name : String) : EnvFrom := { configMapRef := some { name } }

end EnvFrom

structure ContainerPort where
  containerPort : Int32
  hostIP : Option String := none
  hostPort : Option Int32 := none
  name : Option String := none
  protocol : Option String := none
deriving DecidableEq

namespace ContainerPort

def fields : Fields ContainerPort :=
  ContainerPort.mk <$> Fields.lenient "containerPort" Decode.i32 0
    <*> Fields.optional "hostIP" Decode.str
    <*> Fields.optional "hostPort" Decode.i32
    <*> Fields.optional "name" Decode.str
    <*> Fields.optional "protocol" Decode.str

def decode : Decoder ContainerPort := fields.decodeObject "ContainerPort"

def encode (p : ContainerPort) : Json := .record [
  ("containerPort", some (.ofInt32 p.containerPort)),
  ("hostIP", p.hostIP.map .str),
  ("hostPort", p.hostPort.map .ofInt32),
  ("name", p.name.map .str),
  ("protocol", p.protocol.map .str)]

end ContainerPort

structure Capabilities where
  add : Option (List String) := none
  drop : Option (List String) := none
deriving DecidableEq

namespace Capabilities

def fields : Fields Capabilities :=
  Capabilities.mk <$> Fields.optional "add" (Decode.list Decode.str)
    <*> Fields.optional "drop" (Decode.list Decode.str)

def decode : Decoder Capabilities := fields.decodeObject "Capabilities"

def encode (c : Capabilities) : Json := .record [
  ("add", c.add.map .strings),
  ("drop", c.drop.map .strings)]

end Capabilities

structure SeccompProfile where
  localhostProfile : Option String := none
  type : String
deriving DecidableEq

namespace SeccompProfile

def fields : Fields SeccompProfile :=
  SeccompProfile.mk <$> Fields.optional "localhostProfile" Decode.str
    <*> Fields.lenient "type" Decode.str ""

def decode : Decoder SeccompProfile := fields.decodeObject "SeccompProfile"

def encode (p : SeccompProfile) : Json := .record [
  ("localhostProfile", p.localhostProfile.map .str),
  ("type", some (.str p.type))]

end SeccompProfile

structure SecurityContext where
  allowPrivilegeEscalation : Option Bool := none
  capabilities : Option Capabilities := none
  privileged : Option Bool := none
  procMount : Option String := none
  readOnlyRootFilesystem : Option Bool := none
  runAsGroup : Option Int64 := none
  runAsNonRoot : Option Bool := none
  runAsUser : Option Int64 := none
  seLinuxOptions : Option Layout.seLinuxOptions.Value := none
  seccompProfile : Option SeccompProfile := none
  windowsOptions : Option Layout.windowsOptions.Value := none
deriving DecidableEq

namespace SecurityContext

def fields : Fields SecurityContext :=
  SecurityContext.mk <$> Fields.optional "allowPrivilegeEscalation" Decode.bool
    <*> Fields.optional "capabilities" Capabilities.decode
    <*> Fields.optional "privileged" Decode.bool
    <*> Fields.optional "procMount" Decode.str
    <*> Fields.optional "readOnlyRootFilesystem" Decode.bool
    <*> Fields.optional "runAsGroup" Decode.i64
    <*> Fields.optional "runAsNonRoot" Decode.bool
    <*> Fields.optional "runAsUser" Decode.i64
    <*> Fields.optional "seLinuxOptions" Layout.seLinuxOptions.decode
    <*> Fields.optional "seccompProfile" SeccompProfile.decode
    <*> Fields.optional "windowsOptions" Layout.windowsOptions.decode

def decode : Decoder SecurityContext := fields.decodeObject "SecurityContext"

def encode (c : SecurityContext) : Json := .record [
  ("allowPrivilegeEscalation", c.allowPrivilegeEscalation.map .bool),
  ("capabilities", c.capabilities.map Capabilities.encode),
  ("privileged", c.privileged.map .bool),
  ("procMount", c.procMount.map .str),
  ("readOnlyRootFilesystem", c.readOnlyRootFilesystem.map .bool),
  ("runAsGroup", c.runAsGroup.map .ofInt64),
  ("runAsNonRoot", c.runAsNonRoot.map .bool),
  ("runAsUser", c.runAsUser.map .ofInt64),
  ("seLinuxOptions", c.seLinuxOptions.map Layout.seLinuxOptions.encode),
  ("seccompProfile", c.seccompProfile.map SeccompProfile.encode),
  ("windowsOptions", c.windowsOptions.map Layout.windowsOptions.encode)]

end SecurityContext

structure Container where
  args : Option (List String) := none
  command : Option (List String) := none
  env : Option (List EnvVar) := none
  envFrom : Option (List EnvFrom) := none
  image : Option String := none
  imagePullPolicy : Option String := none
  lifecycle : Option Layout.lifecycle.Value := none
  livenessProbe : Option Layout.probe.Value := none
  name : String
  ports : Option (List ContainerPort) := none
  readinessProbe : Option Layout.probe.Value := none
  resizePolicy : Option (List Layout.resizePolicy.Value) := none
  resources : Option Layout.resources.Value := none
  restartPolicy : Option String := none
  securityContext : Option SecurityContext := none
  startupProbe : Option Layout.probe.Value := none
  stdin : Option Bool := none
  stdinOnce : Option Bool := none
  terminationMessagePath : Option String := none
  terminationMessagePolicy : Option String := none
  tty : Option Bool := none
  volumeDevices : Option (List Layout.volumeDevice.Value) := none
  volumeMounts : Option (List VolumeMount) := none
  workingDir : Option String := none
deriving DecidableEq

namespace Container

def named (name : String) : Container := { name }

def fields : Fields Container :=
  Container.mk <$> Fields.optional "args" (Decode.list Decode.str)
    <*> Fields.optional "command" (Decode.list Decode.str)
    <*> Fields.optional "env" (Decode.list EnvVar.decode)
    <*> Fields.optional "envFrom" (Decode.list EnvFrom.decode)
    <*> Fields.optional "image" Decode.str
    <*> Fields.optional "imagePullPolicy" Decode.str
    <*> Fields.optional "lifecycle" Layout.lifecycle.decode
    <*> Fields.optional "livenessProbe" Layout.probe.decode
    <*> Fields.lenient "name" Decode.str ""
    <*> Fields.optional "ports" (Decode.list ContainerPort.decode)
    <*> Fields.optional "readinessProbe" Layout.probe.decode
    <*> Fields.optional "resizePolicy" (Decode.list Layout.resizePolicy.decode)
    <*> Fields.optional "resources" Layout.resources.decode
    <*> Fields.optional "restartPolicy" Decode.str
    <*> Fields.optional "securityContext" SecurityContext.decode
    <*> Fields.optional "startupProbe" Layout.probe.decode
    <*> Fields.optional "stdin" Decode.bool
    <*> Fields.optional "stdinOnce" Decode.bool
    <*> Fields.optional "terminationMessagePath" Decode.str
    <*> Fields.optional "terminationMessagePolicy" Decode.str
    <*> Fields.optional "tty" Decode.bool
    <*> Fields.optional "volumeDevices" (Decode.list Layout.volumeDevice.decode)
    <*> Fields.optional "volumeMounts" (Decode.list VolumeMount.decode)
    <*> Fields.optional "workingDir" Decode.str

def decode : Decoder Container := fields.decodeObject "Container"

def members (c : Container) (more : List (String × Option Json)) : List (String × Option Json) := [
  ("args", c.args.map .strings),
  ("command", c.command.map .strings),
  ("env", c.env.map (.ofList EnvVar.encode)),
  ("envFrom", c.envFrom.map (.ofList EnvFrom.encode)),
  ("image", c.image.map .str),
  ("imagePullPolicy", c.imagePullPolicy.map .str),
  ("lifecycle", c.lifecycle.map Layout.lifecycle.encode),
  ("livenessProbe", c.livenessProbe.map Layout.probe.encode),
  ("name", some (.str c.name)),
  ("ports", c.ports.map (.ofList ContainerPort.encode)),
  ("readinessProbe", c.readinessProbe.map Layout.probe.encode),
  ("resizePolicy", c.resizePolicy.map (.ofList Layout.resizePolicy.encode)),
  ("resources", c.resources.map Layout.resources.encode),
  ("restartPolicy", c.restartPolicy.map .str),
  ("securityContext", c.securityContext.map SecurityContext.encode),
  ("startupProbe", c.startupProbe.map Layout.probe.encode),
  ("stdin", c.stdin.map .bool),
  ("stdinOnce", c.stdinOnce.map .bool)] ++ more ++ [
  ("terminationMessagePath", c.terminationMessagePath.map .str),
  ("terminationMessagePolicy", c.terminationMessagePolicy.map .str),
  ("tty", c.tty.map .bool),
  ("volumeDevices", c.volumeDevices.map (.ofList Layout.volumeDevice.encode)),
  ("volumeMounts", c.volumeMounts.map (.ofList VolumeMount.encode)),
  ("workingDir", c.workingDir.map .str)]

def encode (c : Container) : Json := .record (c.members [])

end Container

structure EphemeralContainer where
  container : Container
  targetContainerName : Option String := none
deriving DecidableEq

namespace EphemeralContainer

def fields : Fields EphemeralContainer :=
  EphemeralContainer.mk <$> Container.fields <*> Fields.optional "targetContainerName" Decode.str

def decode : Decoder EphemeralContainer := fields.decodeObject "EphemeralContainer"

def encode (c : EphemeralContainer) : Json :=
  .record (c.container.members [("targetContainerName", c.targetContainerName.map .str)])

end EphemeralContainer
end McpOperator
