import McpOperator.Status.Conditions
import McpOperator.Server.Validation
import McpOperator.Objects.Deployment

namespace McpOperator

inductive ApplyStep where
  | deployment
  | service
  | configMap
deriving DecidableEq

def ApplyStep.failureReason : ApplyStep → ConditionReason
  | deployment => .deploymentFailed
  | service => .serviceFailed
  | configMap => .configMapFailed

inductive Readiness where
  | replicas (ready desired : Int32)
  | deploymentNotFound
  | unobserved (error : String)
deriving DecidableEq

/-- One replica is wanted where the deployment does not say how many. -/
def Readiness.of : Option Deployment → Readiness
  | none => deploymentNotFound
  | some d =>
      replicas ((d.status.bind DeploymentStatus.readyReplicas).getD 0)
        ((d.spec.bind DeploymentSpec.replicas).getD 1)

inductive Report where
  | invalid (error : ValidationError)
  | translationFailed (message : String)
  | applyFailed (step : ApplyStep) (message : String)
  | applied (readiness : Readiness)
deriving DecidableEq

namespace ConditionSet

variable (s : ConditionSet) (now : Instant)

def setInvalid (error : ValidationError) : ConditionSet :=
  let reason : ConditionReason :=
    if error = .unsupportedTransport then .unsupportedTransport else .invalidConfig
  let failed := "Configuration validation failed"
  let s := s.set now .accepted false reason error.message
  let s := s.set now .resolvedRefs false .invalidConfig failed
  let s := s.set now .programmed false .invalidConfig failed
  s.set now .ready false .podsNotReady failed

/-- References count as resolved once the server is accepted. -/
def setAccepted : ConditionSet :=
  let s := s.set now .accepted true .accepted "MCPServer configuration is valid"
  s.set now .resolvedRefs true .resolvedRefs "All references resolved successfully"

def setNotProgrammed (reason : ConditionReason) (message : String) : ConditionSet :=
  let s := (s.setAccepted now).set now .programmed false reason message
  s.set now .ready false .podsNotReady "Resources failed to be created"

def setReady : Readiness → ConditionSet
  | .replicas ready desired =>
      if ready = desired ∧ 0 < ready then
        s.set now .ready true .ready "Deployment is ready and all pods are running"
      else
        s.set now .ready false .podsNotReady
          ("Deployment not ready: " ++ toString ready.toInt ++ "/" ++ toString desired.toInt ++
            " replicas ready")
  | .deploymentNotFound => s.set now .ready false .deploymentNotFound "Deployment not found"
  | .unobserved error => s.set now .ready false .podsNotReady ("Error getting deployment: " ++ error)

def setReport : Report → ConditionSet
  | .invalid error => s.setInvalid now error
  | .translationFailed message => s.setNotProgrammed now .translationFailed message
  | .applyFailed step message => s.setNotProgrammed now step.failureReason message
  | .applied readiness =>
      let s := (s.setAccepted now).set now .programmed true .programmed
        "All resources created successfully"
      s.setReady now readiness

end ConditionSet

/-- The status of a server after a pass that ended in a report. -/
def ServerStatus.after (now : Instant) (server : McpServer) (report : Report) : ServerStatus :=
  let generation := server.metadata.generation
  let existing := (server.status.map ServerStatus.conditions).getD []
  ⟨generation.getD 0, ((ConditionSet.ofList existing generation).setReport now report).toList⟩

end McpOperator
