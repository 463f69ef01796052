import McpOperator.Server.Spec

namespace McpOperator

inductive ValidationError where
  | missingImage (server : String)
  | unsupportedTransport
  | missingPort
  | missingCommand
  | missingTargetPort
  | targetPortConflict (port : UInt16)
deriving DecidableEq

def ValidationError.message : ValidationError → String
  | missingImage server =>
      "image must be specified for MCPServer " ++ server ++ " or the command must be 'uvx' or 'npx'"
  | unsupportedTransport => "unsupported transport type, expected one of stdio, http"
  | missingPort => "deployment port must be specified"
  | missingCommand => "stdio transport requires a command"
  | missingTargetPort => "HTTP transport requires a target port"
  | targetPortConflict port =>
      "HTTP target port " ++ toString port.toNat ++ " must differ from the gateway port"

def nonempty? (text : Option String) : Option String := text.filter fun s => s ≠ ""

namespace ServerDeployment

def uvxImage : String := "ghcr.io/astral-sh/uv:debian"

def npxImage : String := "node:24-alpine3.21"

def runnerImage? : String → Option String
  | "uvx" => some uvxImage
  | "npx" => some npxImage
  | _ => none

/-- The image that is asked for, or the one of a known package runner. -/
def resolveImage (d : ServerDeployment) (server : String) : Except ValidationError String :=
  match nonempty? d.image with
  | some image => .ok image
  | none => match d.cmd.bind runnerImage? with
      | some image => .ok image
      | none => .error (.missingImage server)

def pullPolicy (d : ServerDeployment) : String :=
  (nonempty? d.imagePullPolicy).getD "IfNotPresent"

end ServerDeployment

def HttpTransport.path (t : HttpTransport) : String := (nonempty? t.targetPath).getD "/mcp"

inductive Transport where
  | stdio
  | http
deriving DecidableEq

namespace ServerSpec

def transport (s : ServerSpec) : Except ValidationError Transport :=
  match s.transportType with
  | some .stdio => .ok .stdio
  | some .http => .ok .http
  | some .unsupported | none => .error .unsupportedTransport

def httpTargetPort (s : ServerSpec) : Except ValidationError UInt16 :=
  let port := (s.httpTransport.bind HttpTransport.targetPort).getD 0
  if port = 0 then .error .missingTargetPort
  else if port = s.deployment.port then .error (.targetPortConflict port)
  else .ok port

def validateTransport (s : ServerSpec) : Transport → Except ValidationError Unit
  | .stdio => if (nonempty? s.deployment.cmd).isSome then .ok () else .error .missingCommand
  | .http => s.httpTargetPort.map fun _ => ()

def validate (s : ServerSpec) (server : String) : Except ValidationError Unit := do
  let _ ← s.deployment.resolveImage server
  let transport ← s.transport
  if s.deployment.port = 0 then .error .missingPort
  s.validateTransport transport

end ServerSpec
end McpOperator
