import McpOperator.Objects.Meta
import McpOperator.Table

namespace McpOperator

inductive ConditionType where
  | accepted
  | resolvedRefs
  | programmed
  | ready
deriving DecidableEq

namespace ConditionType

def text : ConditionType → String
  | accepted => "Accepted"
  | resolvedRefs => "ResolvedRefs"
  | programmed => "Programmed"
  | ready => "Ready"

def ofText? : String → Option ConditionType
  | "Accepted" => some accepted
  | "ResolvedRefs" => some resolvedRefs
  | "Programmed" => some programmed
  | "Ready" => some ready
  | _ => none

end ConditionType

inductive ConditionReason where
  | accepted
  | invalidConfig
  | unsupportedTransport
  | resolvedRefs
  | programmed
  | translationFailed
  | deploymentFailed
  | serviceFailed
  | configMapFailed
  | ready
  | podsNotReady
  | deploymentNotFound
deriving DecidableEq

namespace ConditionReason

def text : ConditionReason → String
  | accepted => "Accepted"
  | invalidConfig => "InvalidConfig"
  | unsupportedTransport => "UnsupportedTransport"
  | resolvedRefs => "ResolvedRefs"
  | programmed => "Programmed"
  | translationFailed => "TranslationFailed"
  | deploymentFailed => "DeploymentFailed"
  | serviceFailed => "ServiceFailed"
  | configMapFailed => "ConfigMapFailed"
  | ready => "Ready"
  | podsNotReady => "PodsNotReady"
  | deploymentNotFound => "DeploymentNotFound"

def all : List ConditionReason := [accepted, invalidConfig, unsupportedTransport, resolvedRefs,
  programmed, translationFailed, deploymentFailed, serviceFailed, configMapFailed, ready,
  podsNotReady, deploymentNotFound]

def ofText? (s : String) : Option ConditionReason := all.find? fun r => r.text = s

end ConditionReason

structure ConditionSet where
  table : Table String Condition
  generation : Option Int64
deriving DecidableEq

namespace ConditionSet

/-- Of several conditions of one type the last counts, at the place of the first. -/
def ofList (existing : List Condition) (generation : Option Int64) : ConditionSet :=
  ⟨existing.foldl (fun t c => t.put c.type c) [], generation⟩

def statusText (holds : Bool) : String := if holds then "True" else "False"

/-- The time of the last transition moves only when the status changes. -/
def transitionTime (s : ConditionSet) (now : Instant) (type status : String) : Instant :=
  match s.table.get? type with
  | some c => if c.status = status then c.lastTransitionTime else now
  | none => now

def set (s : ConditionSet) (now : Instant) (type : ConditionType) (holds : Bool)
    (reason : ConditionReason) (message : String) : ConditionSet :=
  let status := statusText holds
  { s with table := s.table.put type.text {
      lastTransitionTime := s.transitionTime now type.text status
      message := message
      observedGeneration := s.generation
      reason := reason.text
      status := status
      type := type.text } }

def toList (s : ConditionSet) : List Condition := s.table.map Prod.snd

end ConditionSet
end McpOperator
