import McpOperator.Objects.Container

namespace McpOperator

inductive TransportType where
  | stdio
  | http
  | unsupported
deriving DecidableEq

namespace TransportType

/-- A name that is not known stays a transport, one that is not supported. -/
def ofName : String → TransportType
  | "stdio" => stdio
  | "http" => http
  | _ => unsupported

def name : TransportType → String
  | stdio => "stdio"
  | http => "http"
  | unsupported => "unsupported"

/-- A choice without contents is written as its name, or as an object that gives the name null. -/
def decode : Decoder TransportType
  | .str s => .ok (ofName s)
  | .obj [(key, .null)] => .ok (ofName key)
  | .obj [(_, json)] => .error (.wrongType json.shape "unit")
  | .obj _ => .error (.wrongValue .map "map with a single key")
  | json => Decode.mismatch "string or map" json

def encode (t : TransportType) : Json := .str t.name

end TransportType

structure ServerDeployment where
  image : Option String
  port : UInt16
  cmd : Option String
  args : List String
  env : StringMap
  secretRefs : List LocalObjectReference
  configMapRefs : List LocalObjectReference
  volumes : List Volume
  volumeMounts : List VolumeMount
  sidecars : List Container
  imagePullPolicy : Option String
deriving DecidableEq

def Json.orNull (encode : α → Json) : Option α → Json
  | some a => encode a
  | none => .null

namespace ServerDeployment

def fields : Fields ServerDeployment :=
  ServerDeployment.mk <$> Fields.optional "image" Decode.str
    <*> Fields.defaulted "port" Decode.u16 0
    <*> Fields.optional "cmd" Decode.str
    <*> Fields.defaulted "args" (Decode.list Decode.str) []
    <*> Fields.defaulted "env" Decode.stringMap .empty
    <*> Fields.defaulted "secretRefs" (Decode.list LocalObjectReference.decode) []
    <*> Fields.defaulted "configMapRefs" (Decode.list LocalObjectReference.decode) []
    <*> Fields.defaulted "volumes" (Decode.list Volume.decode) []
    <*> Fields.defaulted "volumeMounts" (Decode.list VolumeMount.decode) []
    <*> Fields.defaulted "sidecars" (Decode.list Container.decode) []
    <*> Fields.optional "imagePullPolicy" Decode.str

def decode : Decoder ServerDeployment := fields.decode "MCPServerDeployment"

def encode (d : ServerDeployment) : Json := .obj [
  ("image", .orNull .str d.image),
  ("port", .ofUInt16 d.port),
  ("cmd", .orNull .str d.cmd),
  ("args", .strings d.args),
  ("env", .ofStringMap d.env),
  ("secretRefs", .ofList LocalObjectReference.encode d.secretRefs),
  ("configMapRefs", .ofList LocalObjectReference.encode d.configMapRefs),
  ("volumes", .ofList Volume.encode d.volumes),
  ("volumeMounts", .ofList VolumeMount.encode d.volumeMounts),
  ("sidecars", .ofList Container.encode d.sidecars),
  ("imagePullPolicy", .orNull .str d.imagePullPolicy)]

end ServerDeployment

structure HttpTransport where
  targetPort : Option UInt16
  targetPath : Option String
deriving DecidableEq

namespace HttpTransport

def fields : Fields HttpTransport :=
  HttpTransport.mk <$> Fields.optional "targetPort" Decode.u16
    <*> Fields.optional "targetPath" Decode.str

def decode : Decoder HttpTransport := fields.decode "HttpTransport"

def encode (t : HttpTransport) : Json := .obj [
  ("targetPort", .orNull .ofUInt16 t.targetPort),
  ("targetPath", .orNull .str t.targetPath)]

end HttpTransport

structure SecretKeyRef where
  name : String
  key : String
deriving DecidableEq

namespace SecretKeyRef

def fields : Fields SecretKeyRef :=
  SecretKeyRef.mk <$> Fields.required "name" Decode.str <*> Fields.required "key" Decode.str

def decode : Decoder SecretKeyRef := fields.decode "SecretKeyReference"

def encode (r : SecretKeyRef) : Json := .obj [("name", .str r.name), ("key", .str r.key)]

end SecretKeyRef

structure JwtSpec where
  issuer : String
  audiences : List String
  jwksRef : Option SecretKeyRef
  jwksInline : Option String
deriving DecidableEq

namespace JwtSpec

def fields : Fields JwtSpec :=
  JwtSpec.mk <$> Fields.required "issuer" Decode.str
    <*> Fields.defaulted "audiences" (Decode.list Decode.str) []
    <*> Fields.optional "jwksRef" SecretKeyRef.decode
    <*> Fields.optional "jwksInline" Decode.str

def decode : Decoder JwtSpec := fields.decode "JwtAuthentication"

def encode (j : JwtSpec) : Json := .obj [
  ("issuer", .str j.issuer),
  ("audiences", .strings j.audiences),
  ("jwksRef", .orNull SecretKeyRef.encode j.jwksRef),
  ("jwksInline", .orNull .str j.jwksInline)]

end JwtSpec

structure AuthenticationSpec where
  jwt : Option JwtSpec
deriving DecidableEq

namespace AuthenticationSpec

def fields : Fields AuthenticationSpec := AuthenticationSpec.mk <$> Fields.optional "jwt" JwtSpec.decode

def decode : Decoder AuthenticationSpec := fields.decode "MCPServerAuthentication"

def encode (a : AuthenticationSpec) : Json := .obj [("jwt", .orNull JwtSpec.encode a.jwt)]

end AuthenticationSpec

structure KeycloakSpec where
  realm : String
deriving DecidableEq

namespace KeycloakSpec

def fields : Fields KeycloakSpec := KeycloakSpec.mk <$> Fields.defaulted "realm" Decode.str ""

def decode : Decoder KeycloakSpec := fields.decode "KeycloakProvider"

def encode (k : KeycloakSpec) : Json := .obj [("realm", .str k.realm)]

end KeycloakSpec

inductive ProviderSpec where
  | keycloak (settings : KeycloakSpec)
deriving DecidableEq

namespace ProviderSpec

/-- A choice with contents is written as an object with its name as the single key. -/
def decode : Decoder ProviderSpec
  | .obj [("keycloak", json)] => (KeycloakSpec.decode json).map keycloak
  | .obj [(key, _)] => .error (.unknownVariant key "keycloak")
  | .obj _ => .error (.wrongValue .map "map with a single key")
  | .str "keycloak" => .error (.wrongType .bareName "newtype variant")
  | .str s => .error (.unknownVariant s "keycloak")
  | json => Decode.mismatch "string or map" json

def encode : ProviderSpec → Json
  | keycloak settings => .obj [("keycloak", settings.encode)]

end ProviderSpec

structure ResourceSpec where
  resource : String
  scopesSupported : List String
  bearerMethodsSupported : List String
  additionalFields : StringMap
deriving DecidableEq

namespace ResourceSpec

def fields : Fields ResourceSpec :=
  ResourceSpec.mk <$> Fields.required "resource" Decode.str
    <*> Fields.defaulted "scopesSupported" (Decode.list Decode.str) []
    <*> Fields.defaulted "bearerMethodsSupported" (Decode.list Decode.str) []
    <*> Fields.defaulted "additionalFields" Decode.stringMap .empty

def decode : Decoder ResourceSpec := fields.decode "ResourceMetadata"

def encode (r : ResourceSpec) : Json := .obj [
  ("resource", .str r.resource),
  ("scopesSupported", .strings r.scopesSupported),
  ("bearerMethodsSupported", .strings r.bearerMethodsSupported),
  ("additionalFields", .ofStringMap r.additionalFields)]

end ResourceSpec

structure AuthorizationServerSpec where
  issuer : String
  audience : String
  jwksUrl : String
  provider : Option ProviderSpec
  resourceMetadata : Option ResourceSpec
deriving DecidableEq

namespace AuthorizationServerSpec

def fields : Fields AuthorizationServerSpec :=
  AuthorizationServerSpec.mk <$> Fields.required "issuer" Decode.str
    <*> Fields.required "audience" Decode.str
    <*> Fields.required "jwksUrl" Decode.str
    <*> Fields.optional "provider" ProviderSpec.decode
    <*> Fields.optional "resourceMetadata" ResourceSpec.decode

def decode : Decoder AuthorizationServerSpec := fields.decode "AuthorizationServer"

def encode (s : AuthorizationServerSpec) : Json := .obj [
  ("issuer", .str s.issuer),
  ("audience", .str s.audience),
  ("jwksUrl", .str s.jwksUrl),
  ("provider", .orNull ProviderSpec.encode s.provider),
  ("resourceMetadata", .orNull ResourceSpec.encode s.resourceMetadata)]

end AuthorizationServerSpec

structure AuthorizationSpec where
  rules : List String
  server : Option AuthorizationServerSpec
deriving DecidableEq

namespace AuthorizationSpec

def fields : Fields AuthorizationSpec :=
  AuthorizationSpec.mk <$> Fields.defaulted "rules" (Decode.list Decode.str) []
    <*> Fields.optional "server" AuthorizationServerSpec.decode

def decode : Decoder AuthorizationSpec := fields.decode "MCPServerAuthorization"

def encode (a : AuthorizationSpec) : Json := .obj [
  ("rules", .strings a.rules),
  ("server", .orNull AuthorizationServerSpec.encode a.server)]

end AuthorizationSpec

structure CorsSpec where
  allowOrigins : List String
  allowHeaders : List String
deriving DecidableEq

namespace CorsSpec

def fields : Fields CorsSpec :=
  CorsSpec.mk <$> Fields.defaulted "allowOrigins" (Decode.list Decode.str) []
    <*> Fields.defaulted "allowHeaders" (Decode.list Decode.str) []

def decode : Decoder CorsSpec := fields.decode "CorsFilter"

def encode (c : CorsSpec) : Json := .obj [
  ("allowOrigins", .strings c.allowOrigins),
  ("allowHeaders", .strings c.allowHeaders)]

end CorsSpec

structure RouteFilter where
  cors : Option CorsSpec
deriving DecidableEq

namespace RouteFilter

def fields : Fields RouteFilter := RouteFilter.mk <$> Fields.optional "cors" CorsSpec.decode

def decode : Decoder RouteFilter := fields.decode "RouteFilter"

def encode (f : RouteFilter) : Json := .obj [("cors", .orNull CorsSpec.encode f.cors)]

end RouteFilter

/-- One MCP server process and how it is exposed through the gateway. Every field of a spec is
written, null when it is absent. -/
structure ServerSpec where
  deployment : ServerDeployment
  transportType : Option TransportType
  httpTransport : Option HttpTransport
  authn : Option AuthenticationSpec
  authz : Option AuthorizationSpec
  routeFilter : Option RouteFilter
deriving DecidableEq

namespace ServerSpec

def fields : Fields ServerSpec :=
  ServerSpec.mk <$> Fields.required "deployment" ServerDeployment.decode
    <*> Fields.optional "transportType" TransportType.decode
    <*> Fields.optional "httpTransport" HttpTransport.decode
    <*> Fields.optional "authn" AuthenticationSpec.decode
    <*> Fields.optional "authz" AuthorizationSpec.decode
    <*> Fields.optional "routeFilter" RouteFilter.decode

def decode : Decoder ServerSpec := fields.decode "MCPServerSpec"

def encode (s : ServerSpec) : Json := .obj [
  ("deployment", s.deployment.encode),
  ("transportType", .orNull TransportType.encode s.transportType),
  ("httpTransport", .orNull HttpTransport.encode s.httpTransport),
  ("authn", .orNull AuthenticationSpec.encode s.authn),
  ("authz", .orNull AuthorizationSpec.encode s.authz),
  ("routeFilter", .orNull RouteFilter.encode s.routeFilter)]

def jwt (s : ServerSpec) : Option JwtSpec := s.authn.bind AuthenticationSpec.jwt

/-- The secret that holds the keys of the tokens, when they are not inline. -/
def jwksSecret (s : ServerSpec) : Option SecretKeyRef := s.jwt.bind JwtSpec.jwksRef

end ServerSpec

structure ServerStatus where
  observedGeneration : Int64
  conditions : List Condition
deriving DecidableEq

namespace ServerStatus

def fields : Fields ServerStatus :=
  ServerStatus.mk <$> Fields.defaulted "observedGeneration" Decode.i64 0
    <*> Fields.defaulted "conditions" (Decode.list Condition.decode) []

def decode : Decoder ServerStatus := fields.decode "MCPServerStatus"

def encode (s : ServerStatus) : Json := .obj [
  ("observedGeneration", .ofInt64 s.observedGeneration),
  ("conditions", .ofList Condition.encode s.conditions)]

end ServerStatus

structure McpServer where
  metadata : ObjectMeta
  spec : ServerSpec
  status : Option ServerStatus
deriving DecidableEq

namespace McpServer

def apiVersion : String := "kagent.dev/v1alpha1"

def kindName : String := "MCPServer"

def fields : Fields McpServer :=
  McpServer.mk <$> Fields.required "metadata" ObjectMeta.decode
    <*> Fields.required "spec" ServerSpec.decode
    <*> Fields.optional "status" ServerStatus.decode

def decode : Decoder McpServer := fields.decode "MCPServer"

def encode (s : McpServer) : Json := .record [
  ("apiVersion", some (.str apiVersion)),
  ("kind", some (.str kindName)),
  ("metadata", some s.metadata.encode),
  ("spec", some s.spec.encode),
  ("status", s.status.map ServerStatus.encode)]

end McpServer
end McpOperator
