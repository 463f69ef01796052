import McpOperator.Gateway.FromSpec
import McpOperator.Objects.Deployment

namespace McpOperator.Gateway

def configFile : String := "local.yaml"

def configVolume : String := "config"

def configPath : String := "/config"

def binaryVolume : String := "binary"

def binaryPath : String := "/agentbin"

def binaryFile : String := binaryPath ++ "/agentgateway"

def jwksVolume : String := "jwks"

def jwksPath : String := "/jwks"

def jwksFile (key : String) : String := jwksPath ++ "/" ++ key

/-- What the pod is made from. A process that speaks over its standard streams is run by the gateway,
whose binary an init container copies into a shared volume; a process that speaks HTTP runs beside the
gateway. -/
structure PodPlan where
  name : String
  spec : ServerSpec
  transport : Transport
  image : String
  gatewayImage : String

namespace PodPlan

variable (p : PodPlan)

def hasJwksSecret : Bool := p.spec.jwksSecret.isSome

end PodPlan

def nonemptyList (as : List α) : Option (List α) := if as.isEmpty then none else some as

def securityContext : SecurityContext where
  allowPrivilegeEscalation := some false
  capabilities := some { drop := some ["ALL"] }
  runAsGroup := some 1000
  runAsNonRoot := some true
  runAsUser := some 1000
  seccompProfile := some { type := "RuntimeDefault" }

def mount (name path : String) : VolumeMount := { mountPath := path, name }

def configMapVolume (configMap : String) : String := "cm-" ++ configMap

def configMapMount (configMap : String) : VolumeMount :=
  { mountPath := "/etc/config/" ++ configMap, name := configMapVolume configMap, readOnly := some true }

def gatewayArgs : List String := ["-f", configPath ++ "/" ++ configFile]

def port (n : UInt16) : Int32 := Int32.ofInt n.toNat

def gatewayPorts (n : UInt16) : List ContainerPort :=
  [{ containerPort := port n, name := some "http", protocol := some "TCP" }]

def env (d : ServerDeployment) : Option (List EnvVar) :=
  nonemptyList (d.env.entries.map fun e => { name := e.1, value := some e.2 })

def envFrom (d : ServerDeployment) : Option (List EnvFrom) :=
  nonemptyList (d.secretRefs.map (fun r => .ofSecret r.name) ++
    d.configMapRefs.map fun r => .ofConfigMap r.name)

/-- The mounts of the user's process: the config maps it refers to, then its own. -/
def userMounts (d : ServerDeployment) : List VolumeMount :=
  d.configMapRefs.map (fun r => configMapMount r.name) ++ d.volumeMounts

def jwksMounts (p : PodPlan) : List VolumeMount :=
  if p.hasJwksSecret then [mount jwksVolume jwksPath] else []

def volumes (p : PodPlan) : List Volume :=
  let d := p.spec.deployment
  [.ofConfigMap configVolume p.name] ++
    (match p.transport with
      | .stdio => [.ofEmptyDir binaryVolume]
      | .http => []) ++
    (match p.spec.jwksSecret with
      | some secret => [.ofSecret jwksVolume secret.name]
      | none => []) ++
    d.configMapRefs.map (fun r => .ofConfigMap (configMapVolume r.name) r.name) ++ d.volumes

def copyBinary (p : PodPlan) : Container :=
  { Container.named "copy-binary" with
    image := some p.gatewayImage
    imagePullPolicy := some "IfNotPresent"
    args := some ["--copy-self", binaryFile]
    volumeMounts := some [mount binaryVolume binaryPath]
    securityContext := some securityContext }

/-- The user's image with the gateway in front, which starts the user's command. -/
def wrappedServer (p : PodPlan) : Container :=
  let d := p.spec.deployment
  { Container.named "mcp-server" with
    image := some p.image
    imagePullPolicy := some d.pullPolicy
    command := some [binaryFile]
    args := some gatewayArgs
    env := env d
    envFrom := envFrom d
    ports := some (gatewayPorts d.port)
    volumeMounts := some ([mount configVolume configPath, mount binaryVolume binaryPath] ++
      jwksMounts p ++ userMounts d)
    securityContext := some securityContext }

/-- The user's process, which listens for HTTP itself. -/
def plainServer (p : PodPlan) : Container :=
  let d := p.spec.deployment
  let target := (p.spec.httpTransport.bind HttpTransport.targetPort).getD 0
  { Container.named "mcp-server" with
    image := some p.image
    imagePullPolicy := some d.pullPolicy
    command := (nonempty? d.cmd).map fun cmd => [cmd]
    args := nonemptyList d.args
    env := env d
    envFrom := envFrom d
    ports := some [{ containerPort := port target, protocol := some "TCP" }]
    volumeMounts := nonemptyList (userMounts d)
    securityContext := some securityContext }

def gatewayContainer (p : PodPlan) : Container :=
  { Container.named "agent-gateway" with
    image := some p.gatewayImage
    imagePullPolicy := some "IfNotPresent"
    args := some gatewayArgs
    ports := some (gatewayPorts p.spec.deployment.port)
    volumeMounts := some (mount configVolume configPath :: jwksMounts p)
    securityContext := some securityContext }

def initContainers (p : PodPlan) : List Container :=
  match p.transport with
  | .stdio => [copyBinary p]
  | .http => []

def generatedContainers (p : PodPlan) : List Container :=
  match p.transport with
  | .stdio => [wrappedServer p]
  | .http => [plainServer p, gatewayContainer p]

def podSpec (p : PodPlan) : PodSpec where
  containers := generatedContainers p ++ p.spec.deployment.sidecars
  initContainers := nonemptyList (initContainers p)
  volumes := some (volumes p)

end McpOperator.Gateway
