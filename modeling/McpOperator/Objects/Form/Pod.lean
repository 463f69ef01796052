import McpOperator.Objects.Form.Volume

namespace McpOperator

namespace Form

def nodeRequirement : Form := .record "NodeSelectorRequirement" (.ofList [
  ("key", .required, .text),
  ("operator", .required, .text),
  ("values", .optional, texts)])

def nodeTerm : Form := .record "NodeSelectorTerm" (.ofList [
  ("matchExpressions", .optional, .list nodeRequirement),
  ("matchFields", .optional, .list nodeRequirement)])

def nodeAffinity : Form := .record "NodeAffinity" (.ofList [
  ("preferredDuringSchedulingIgnoredDuringExecution", .optional,
    .list (.record "PreferredSchedulingTerm" (.ofList [
      ("preference", .required, nodeTerm),
      ("weight", .required, .int32)]))),
  ("requiredDuringSchedulingIgnoredDuringExecution", .optional,
    .record "NodeSelector" (.ofList [("nodeSelectorTerms", .required, .list nodeTerm)]))])

def podTerm : Form := .record "PodAffinityTerm" (.ofList [
  ("labelSelector", .optional, labelSelector),
  ("matchLabelKeys", .optional, texts),
  ("mismatchLabelKeys", .optional, texts),
  ("namespaceSelector", .optional, labelSelector),
  ("namespaces", .optional, texts),
  ("topologyKey", .required, .text)])

def podAffinity (type : String) : Form := .record type (.ofList [
  ("preferredDuringSchedulingIgnoredDuringExecution", .optional,
    .list (.record "WeightedPodAffinityTerm" (.ofList [
      ("podAffinityTerm", .required, podTerm),
      ("weight", .required, .int32)]))),
  ("requiredDuringSchedulingIgnoredDuringExecution", .optional, .list podTerm)])

end Form

namespace Layout

def affinity : Layout where
  form := .record "Affinity" (.ofList [
    ("nodeAffinity", .optional, .nodeAffinity),
    ("podAffinity", .optional, .podAffinity "PodAffinity"),
    ("podAntiAffinity", .optional, .podAffinity "PodAntiAffinity")])
  ascending := by decide

def dnsConfig : Layout where
  form := .record "PodDNSConfig" (.ofList [
    ("nameservers", .optional, .texts),
    ("options", .optional, .list (.record "PodDNSConfigOption" (.ofList [
      ("name", .optional, .text),
      ("value", .optional, .text)]))),
    ("searches", .optional, .texts)])
  ascending := by decide

def hostAlias : Layout where
  form := .record "HostAlias" (.ofList [
    ("hostnames", .optional, .texts),
    ("ip", .optional, .text)])
  ascending := by decide

def podOS : Layout where
  form := .record "PodOS" (.ofList [("name", .required, .text)])
  ascending := by decide

def readinessGate : Layout where
  form := .record "PodReadinessGate" (.ofList [("conditionType", .required, .text)])
  ascending := by decide

def podResourceClaim : Layout where
  form := .record "PodResourceClaim" (.ofList [
    ("name", .required, .text),
    ("source", .optional, .record "ClaimSource" (.ofList [
      ("resourceClaimName", .optional, .text),
      ("resourceClaimTemplateName", .optional, .text)]))])
  ascending := by decide

def schedulingGate : Layout where
  form := .record "PodSchedulingGate" (.ofList [("name", .required, .text)])
  ascending := by decide

def podSecurityContext : Layout where
  form := .record "PodSecurityContext" (.ofList [
    ("fsGroup", .optional, .int64),
    ("fsGroupChangePolicy", .optional, .text),
    ("runAsGroup", .optional, .int64),
    ("runAsNonRoot", .optional, .bool),
    ("runAsUser", .optional, .int64),
    ("seLinuxOptions", .optional, seLinuxOptions.form),
    ("seccompProfile", .optional, .record "SeccompProfile" (.ofList [
      ("localhostProfile", .optional, .text),
      ("type", .required, .text)])),
    ("supplementalGroups", .optional, .list .int64),
    ("sysctls", .optional, .list (.record "Sysctl" (.ofList [
      ("name", .required, .text),
      ("value", .required, .text)]))),
    ("windowsOptions", .optional, windowsOptions.form)])
  ascending := by decide

def toleration : Layout where
  form := .record "Toleration" (.ofList [
    ("effect", .optional, .text),
    ("key", .optional, .text),
    ("operator", .optional, .text),
    ("tolerationSeconds", .optional, .int64),
    ("value", .optional, .text)])
  ascending := by decide

def topologySpread : Layout where
  form := .record "TopologySpreadConstraint" (.ofList [
    ("labelSelector", .optional, .labelSelector),
    ("matchLabelKeys", .optional, .texts),
    ("maxSkew", .required, .int32),
    ("minDomains", .optional, .int32),
    ("nodeAffinityPolicy", .optional, .text),
    ("nodeTaintsPolicy", .optional, .text),
    ("topologyKey", .required, .text),
    ("whenUnsatisfiable", .required, .text)])
  ascending := by decide

def deploymentStrategy : Layout where
  form := .record "DeploymentStrategy" (.ofList [
    ("rollingUpdate", .optional, .record "RollingUpdateDeployment" (.ofList [
      ("maxSurge", .optional, .portTarget),
      ("maxUnavailable", .optional, .portTarget)])),
    ("type", .optional, .text)])
  ascending := by decide

def deploymentCondition : Layout where
  form := .record "DeploymentCondition" (.ofList [
    ("lastTransitionTime", .optional, .time),
    ("lastUpdateTime", .optional, .time),
    ("message", .optional, .text),
    ("reason", .optional, .text),
    ("status", .required, .text),
    ("type", .required, .text)])
  ascending := by decide

end Layout
end McpOperator
