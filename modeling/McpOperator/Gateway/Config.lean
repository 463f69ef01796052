import McpOperator.Server.Spec

namespace McpOperator.Gateway

def nonemptyStrings (texts : List String) : Option Json :=
  if texts.isEmpty then none else some (.strings texts)

def nonemptyMap (m : StringMap) : Option Json := if m.isEmpty then none else some (.ofStringMap m)

structure PathMatch where
  pathPrefix : Option String
  exact : Option String
deriving DecidableEq

namespace PathMatch

def fields : Fields PathMatch :=
  PathMatch.mk <$> Fields.skippable "pathPrefix" Decode.str <*> Fields.skippable "exact" Decode.str

def decode : Decoder PathMatch := fields.decode "PathMatch"

def encode (m : PathMatch) : Json := .record [
  ("pathPrefix", m.pathPrefix.map .str),
  ("exact", m.exact.map .str)]

end PathMatch

structure RouteMatch where
  path : PathMatch
deriving DecidableEq

namespace RouteMatch

def beginning (path : String) : RouteMatch := ⟨some path, none⟩

def whole (path : String) : RouteMatch := ⟨none, some path⟩

def fields : Fields RouteMatch := RouteMatch.mk <$> Fields.required "path" PathMatch.decode

def decode : Decoder RouteMatch := fields.decode "RouteMatch"

def encode (m : RouteMatch) : Json := .obj [("path", m.path.encode)]

end RouteMatch

structure StdioTarget where
  cmd : String
  args : List String
  env : StringMap
deriving DecidableEq

namespace StdioTarget

def fields : Fields StdioTarget :=
  StdioTarget.mk <$> Fields.required "cmd" Decode.str
    <*> Fields.defaulted "args" (Decode.list Decode.str) []
    <*> Fields.defaulted "env" Decode.stringMap .empty

def decode : Decoder StdioTarget := fields.decodeFlattened "StdioTarget"

def encode (t : StdioTarget) : Json := .record [
  ("cmd", some (.str t.cmd)),
  ("args", nonemptyStrings t.args),
  ("env", nonemptyMap t.env)]

end StdioTarget

structure SseTarget where
  host : String
  port : UInt16
  path : String
deriving DecidableEq

namespace SseTarget

def fields : Fields SseTarget :=
  SseTarget.mk <$> Fields.required "host" Decode.str
    <*> Fields.required "port" Decode.u16
    <*> Fields.required "path" Decode.str

def decode : Decoder SseTarget := fields.decodeFlattened "SseTarget"

def encode (t : SseTarget) : Json := .obj [
  ("host", .str t.host),
  ("port", .ofUInt16 t.port),
  ("path", .str t.path)]

end SseTarget

inductive TargetSpec where
  | stdio (target : StdioTarget)
  | sse (target : SseTarget)
deriving DecidableEq

namespace TargetSpec

def member : TargetSpec → String × Json
  | stdio t => ("stdio", t.encode)
  | sse t => ("sse", t.encode)

def ofMember? : String × Json → Option (Except DecodeError TargetSpec)
  | ("stdio", json) => some ((StdioTarget.decode json).map stdio)
  | ("sse", json) => some ((SseTarget.decode json).map sse)
  | _ => none

/-- Where both kinds are given, the one that comes first in the document decides. -/
def ofMembers (members : Members) : Except DecodeError TargetSpec :=
  (members.findSome? ofMember?).getD (.error (.noVariant "McpTargetSpec"))

end TargetSpec

structure Target where
  name : String
  spec : TargetSpec
deriving DecidableEq

namespace Target

def nameField : Fields String := Fields.required "name" Decode.str

def decode : Decoder Target
  | .obj members => do
      let name ← nameField.ofMembers members
      let spec ← TargetSpec.ofMembers members
      .ok ⟨name, spec⟩
  | json => Decode.mismatch "struct McpTarget" json

def encode (t : Target) : Json := .obj [("name", .str t.name), t.spec.member]

end Target

structure McpBackend where
  targets : List Target
deriving DecidableEq

namespace McpBackend

def fields : Fields McpBackend := McpBackend.mk <$> Fields.required "targets" (Decode.list Target.decode)

def decode : Decoder McpBackend := fields.decode "McpBackend"

def encode (b : McpBackend) : Json := .obj [("targets", .ofList Target.encode b.targets)]

end McpBackend

structure Backend where
  weight : UInt32
  mcp : McpBackend
deriving DecidableEq

namespace Backend

def fields : Fields Backend :=
  Backend.mk <$> Fields.required "weight" Decode.u32 <*> Fields.required "mcp" McpBackend.decode

def decode : Decoder Backend := fields.decode "RouteBackend"

def encode (b : Backend) : Json := .obj [
  ("weight", .int b.weight.toNat),
  ("mcp", b.mcp.encode)]

end Backend

structure Jwks where
  file : Option String
  inline : Option String
deriving DecidableEq

namespace Jwks

def ofFile (path : String) : Jwks := ⟨some path, none⟩

def ofText (keys : String) : Jwks := ⟨none, some keys⟩

def fields : Fields Jwks :=
  Jwks.mk <$> Fields.skippable "file" Decode.str <*> Fields.skippable "inline" Decode.str

def decode : Decoder Jwks := fields.decode "Jwks"

def encode (j : Jwks) : Json := .record [
  ("file", j.file.map .str),
  ("inline", j.inline.map .str)]

end Jwks

structure JwtAuth where
  issuer : String
  audiences : List String
  jwks : Jwks
deriving DecidableEq

namespace JwtAuth

def fields : Fields JwtAuth :=
  JwtAuth.mk <$> Fields.required "issuer" Decode.str
    <*> Fields.required "audiences" (Decode.list Decode.str)
    <*> Fields.required "jwks" Jwks.decode

def decode : Decoder JwtAuth := fields.decode "JwtAuth"

def encode (j : JwtAuth) : Json := .obj [
  ("issuer", .str j.issuer),
  ("audiences", .strings j.audiences),
  ("jwks", j.jwks.encode)]

end JwtAuth

structure Authorization where
  rules : List String
deriving DecidableEq

namespace Authorization

def fields : Fields Authorization :=
  Authorization.mk <$> Fields.required "rules" (Decode.list Decode.str)

def decode : Decoder Authorization := fields.decode "McpAuthorization"

def encode (a : Authorization) : Json := .obj [("rules", .strings a.rules)]

end Authorization

/-- Keycloak is told by name only. -/
structure Keycloak where
deriving DecidableEq

namespace Keycloak

def fields : Fields Keycloak := Fields.done {}

def decode : Decoder Keycloak := fields.decode "KeycloakSettings"

def encode (_ : Keycloak) : Json := .obj []

end Keycloak

structure Provider where
  keycloak : Option Keycloak
deriving DecidableEq

namespace Provider

def fields : Fields Provider := Provider.mk <$> Fields.skippable "keycloak" Keycloak.decode

def decode : Decoder Provider := fields.decode "AuthenticationProvider"

def encode (p : Provider) : Json := .record [("keycloak", p.keycloak.map Keycloak.encode)]

end Provider

/-- What clients are told about the protected resource. Fields of other names stand beside the named
ones. -/
structure ResourceMetadata where
  resource : String
  scopesSupported : List String
  bearerMethodsSupported : List String
  additionalFields : StringMap
deriving DecidableEq

namespace ResourceMetadata

def fieldNames : List String := ["resource", "scopesSupported", "bearerMethodsSupported"]

def named : Fields (StringMap → ResourceMetadata) :=
  ResourceMetadata.mk <$> Fields.required "resource" Decode.str
    <*> Fields.defaulted "scopesSupported" (Decode.list Decode.str) []
    <*> Fields.defaulted "bearerMethodsSupported" (Decode.list Decode.str) []

def decode : Decoder ResourceMetadata
  | .obj members => do
      let make ← named.ofMembers members
      let others ← Decode.stringMap (.obj (members.filter fun m => m.1 ∉ fieldNames))
      .ok (make others)
  | json => Decode.mismatch "struct ResourceMetadataConfig" json

def encode (r : ResourceMetadata) : Json := .obj (
  Members.present [
    ("resource", some (.str r.resource)),
    ("scopesSupported", nonemptyStrings r.scopesSupported),
    ("bearerMethodsSupported", nonemptyStrings r.bearerMethodsSupported)] ++
  r.additionalFields.entries.map fun e => (e.1, .str e.2))

end ResourceMetadata

structure Authentication where
  issuer : String
  audience : String
  jwksUrl : String
  provider : Option Provider
  resourceMetadata : Option ResourceMetadata
deriving DecidableEq

namespace Authentication

def fields : Fields Authentication :=
  Authentication.mk <$> Fields.required "issuer" Decode.str
    <*> Fields.required "audience" Decode.str
    <*> Fields.required "jwksUrl" Decode.str
    <*> Fields.skippable "provider" Provider.decode
    <*> Fields.skippable "resourceMetadata" ResourceMetadata.decode

def decode : Decoder Authentication := fields.decode "McpAuthentication"

def encode (a : Authentication) : Json := .record [
  ("issuer", some (.str a.issuer)),
  ("audience", some (.str a.audience)),
  ("jwksUrl", some (.str a.jwksUrl)),
  ("provider", a.provider.map Provider.encode),
  ("resourceMetadata", a.resourceMetadata.map ResourceMetadata.encode)]

end Authentication

structure Cors where
  allowOrigins : List String
  allowHeaders : List String
deriving DecidableEq

namespace Cors

def fields : Fields Cors :=
  Cors.mk <$> Fields.defaulted "allowOrigins" (Decode.list Decode.str) []
    <*> Fields.defaulted "allowHeaders" (Decode.list Decode.str) []

def decode : Decoder Cors := fields.decode "Cors"

def encode (c : Cors) : Json := .record [
  ("allowOrigins", nonemptyStrings c.allowOrigins),
  ("allowHeaders", nonemptyStrings c.allowHeaders)]

end Cors

structure Policies where
  jwtAuth : Option JwtAuth
  mcpAuthorization : Option Authorization
  mcpAuthentication : Option Authentication
  cors : Option Cors
deriving DecidableEq

namespace Policies

def isEmpty (p : Policies) : Bool :=
  p.jwtAuth.isNone && p.mcpAuthorization.isNone && p.mcpAuthentication.isNone && p.cors.isNone

def fields : Fields Policies :=
  Policies.mk <$> Fields.skippable "jwtAuth" JwtAuth.decode
    <*> Fields.skippable "mcpAuthorization" Authorization.decode
    <*> Fields.skippable "mcpAuthentication" Authentication.decode
    <*> Fields.skippable "cors" Cors.decode

def decode : Decoder Policies := fields.decode "Policies"

def encode (p : Policies) : Json := .record [
  ("jwtAuth", p.jwtAuth.map JwtAuth.encode),
  ("mcpAuthorization", p.mcpAuthorization.map Authorization.encode),
  ("mcpAuthentication", p.mcpAuthentication.map Authentication.encode),
  ("cors", p.cors.map Cors.encode)]

end Policies

structure Route where
  name : String
  matching : List RouteMatch
  backends : List Backend
  policies : Option Policies
deriving DecidableEq

namespace Route

def fields : Fields Route :=
  Route.mk <$> Fields.required "name" Decode.str
    <*> Fields.required "matches" (Decode.list RouteMatch.decode)
    <*> Fields.required "backends" (Decode.list Backend.decode)
    <*> Fields.skippable "policies" Policies.decode

def decode : Decoder Route := fields.decode "Route"

def encode (r : Route) : Json := .record [
  ("name", some (.str r.name)),
  ("matches", some (.ofList RouteMatch.encode r.matching)),
  ("backends", some (.ofList Backend.encode r.backends)),
  ("policies", r.policies.map Policies.encode)]

end Route

inductive Protocol where
  | http
deriving DecidableEq

namespace Protocol

def decode : Decoder Protocol
  | .str "HTTP" | .obj [("HTTP", .null)] => .ok http
  | .str s => .error (.unknownVariant s "HTTP")
  | .obj [("HTTP", json)] => .error (.wrongType json.shape "unit")
  | .obj [(key, _)] => .error (.unknownVariant key "HTTP")
  | .obj _ => .error (.wrongValue .map "map with a single key")
  | json => Decode.mismatch "string or map" json

def encode : Protocol → Json
  | http => .str "HTTP"

end Protocol

structure Listener where
  name : String
  protocol : Protocol
  routes : List Route
deriving DecidableEq

namespace Listener

def fields : Fields Listener :=
  Listener.mk <$> Fields.required "name" Decode.str
    <*> Fields.required "protocol" Protocol.decode
    <*> Fields.required "routes" (Decode.list Route.decode)

def decode : Decoder Listener := fields.decode "Listener"

def encode (l : Listener) : Json := .obj [
  ("name", .str l.name),
  ("protocol", l.protocol.encode),
  ("routes", .ofList Route.encode l.routes)]

end Listener

structure Bind where
  port : UInt16
  listeners : List Listener
deriving DecidableEq

namespace Bind

def fields : Fields Bind :=
  Bind.mk <$> Fields.required "port" Decode.u16
    <*> Fields.required "listeners" (Decode.list Listener.decode)

def decode : Decoder Bind := fields.decode "Bind"

def encode (b : Bind) : Json := .obj [
  ("port", .ofUInt16 b.port),
  ("listeners", .ofList Listener.encode b.listeners)]

end Bind

structure Settings where
deriving DecidableEq

namespace Settings

def fields : Fields Settings := Fields.done {}

def decode : Decoder Settings := fields.decode "GatewaySettings"

def encode (_ : Settings) : Json := .obj []

end Settings

/-- The configuration file of the gateway. Its members are written in the order in which the records
declare them; what is absent is left out, and so are some of the empty lists. -/
structure Config where
  config : Settings
  binds : List Bind
deriving DecidableEq

namespace Config

def fields : Fields Config :=
  Config.mk <$> Fields.required "config" Settings.decode
    <*> Fields.required "binds" (Decode.list Bind.decode)

def decode : Decoder Config := fields.decode "LocalConfig"

def encode (c : Config) : Json := .obj [
  ("config", c.config.encode),
  ("binds", .ofList Bind.encode c.binds)]

def routes (c : Config) : List Route :=
  c.binds.flatMap fun bind => bind.listeners.flatMap fun listener => listener.routes

end Config
end McpOperator.Gateway
