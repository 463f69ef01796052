import McpOperator.Objects.Form.Basic

namespace McpOperator

namespace Form

def texts : Form := .list .text

def textMap : Form := .map .text

def fieldRef : Form := .record "ObjectFieldSelector" (.ofList [
  ("apiVersion", .optional, .text),
  ("fieldPath", .required, .text)])

def resourceFieldRef : Form := .record "ResourceFieldSelector" (.ofList [
  ("containerName", .optional, .text),
  ("divisor", .optional, .text),
  ("resource", .required, .text)])

def keySelector (type : String) : Form := .record type (.ofList [
  ("key", .required, .text),
  ("name", .required, .text),
  ("optional", .optional, .bool)])

def exec : Form := .record "ExecAction" (.ofList [("command", .optional, texts)])

def httpHeader : Form := .record "HTTPHeader" (.ofList [
  ("name", .required, .text),
  ("value", .required, .text)])

def httpGet : Form := .record "HTTPGetAction" (.ofList [
  ("host", .optional, .text),
  ("httpHeaders", .optional, .list httpHeader),
  ("path", .optional, .text),
  ("port", .required, .portTarget),
  ("scheme", .optional, .text)])

def tcpSocket : Form := .record "TCPSocketAction" (.ofList [
  ("host", .optional, .text),
  ("port", .required, .portTarget)])

def lifecycleHandler : Form := .record "LifecycleHandler" (.ofList [
  ("exec", .optional, exec),
  ("httpGet", .optional, httpGet),
  ("sleep", .optional, .record "SleepAction" (.ofList [("seconds", .required, .int64)])),
  ("tcpSocket", .optional, tcpSocket)])

def grpc : Form := .record "GRPCAction" (.ofList [
  ("port", .required, .int32),
  ("service", .optional, .text)])

def resourceClaim : Form := .record "ResourceClaim" (.ofList [("name", .required, .text)])

end Form

namespace Layout

def valueFrom : Layout where
  form := .record "EnvVarSource" (.ofList [
    ("configMapKeyRef", .optional, .keySelector "ConfigMapKeySelector"),
    ("fieldRef", .optional, .fieldRef),
    ("resourceFieldRef", .optional, .resourceFieldRef),
    ("secretKeyRef", .optional, .keySelector "SecretKeySelector")])
  ascending := by decide

def lifecycle : Layout where
  form := .record "Lifecycle" (.ofList [
    ("postStart", .optional, .lifecycleHandler),
    ("preStop", .optional, .lifecycleHandler)])
  ascending := by decide

def probe : Layout where
  form := .record "Probe" (.ofList [
    ("exec", .optional, .exec),
    ("failureThreshold", .optional, .int32),
    ("grpc", .optional, .grpc),
    ("httpGet", .optional, .httpGet),
    ("initialDelaySeconds", .optional, .int32),
    ("periodSeconds", .optional, .int32),
    ("successThreshold", .optional, .int32),
    ("tcpSocket", .optional, .tcpSocket),
    ("terminationGracePeriodSeconds", .optional, .int64),
    ("timeoutSeconds", .optional, .int32)])
  ascending := by decide

def resizePolicy : Layout where
  form := .record "ContainerResizePolicy" (.ofList [
    ("resourceName", .required, .text),
    ("restartPolicy", .required, .text)])
  ascending := by decide

def resources : Layout where
  form := .record "ResourceRequirements" (.ofList [
    ("claims", .optional, .list .resourceClaim),
    ("limits", .optional, .textMap),
    ("requests", .optional, .textMap)])
  ascending := by decide

def seLinuxOptions : Layout where
  form := .record "SELinuxOptions" (.ofList [
    ("level", .optional, .text),
    ("role", .optional, .text),
    ("type", .optional, .text),
    ("user", .optional, .text)])
  ascending := by decide

def windowsOptions : Layout where
  form := .record "WindowsSecurityContextOptions" (.ofList [
    ("gmsaCredentialSpec", .optional, .text),
    ("gmsaCredentialSpecName", .optional, .text),
    ("hostProcess", .optional, .bool),
    ("runAsUserName", .optional, .text)])
  ascending := by decide

def volumeDevice : Layout where
  form := .record "VolumeDevice" (.ofList [
    ("devicePath", .required, .text),
    ("name", .required, .text)])
  ascending := by decide

end Layout
end McpOperator
