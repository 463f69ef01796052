import McpOperator.Gateway.Config
import McpOperator.Server.Validation

namespace McpOperator

/-- Why nothing can be derived from a server. -/
inductive OutputError where
  | invalid (error : ValidationError)
  | missingJwks
  | secretFailed (secret reason : String)
  | missingRealm
  | noOwner (server : String)
deriving DecidableEq

def OutputError.message : OutputError → String
  | invalid error => error.message
  | missingJwks => "JWT authentication requires jwksRef or jwksInline"
  | secretFailed secret reason => "failed to get JWKS secret " ++ secret ++ ": " ++ reason
  | missingRealm => "keycloak realm must be specified when using the keycloak provider"
  | noOwner server => "owner reference for " ++ server ++ " can not be set, name and uid are required"

namespace Gateway

def providerMatches : Option ProviderSpec → Except OutputError (List RouteMatch)
  | none => .ok []
  | some (.keycloak k) =>
      if k.realm = "" then .error .missingRealm
      else .ok [
        .beginning ("/realms/" ++ k.realm),
        .whole "/.well-known/oauth-protected-resource/mcp",
        .whole "/.well-known/oauth-authorization-server/mcp/client-registration",
        .whole "/.well-known/oauth-authorization-server/mcp"]

def authorizationServer (s : ServerSpec) : Option AuthorizationServerSpec :=
  s.authz.bind AuthorizationSpec.server

def routeMatches (s : ServerSpec) : Except OutputError (List RouteMatch) := do
  let others ← providerMatches ((authorizationServer s).bind AuthorizationServerSpec.provider)
  .ok (.beginning "/sse" :: .beginning "/mcp" :: others)

/-- A process behind its standard streams needs a command; one behind HTTP is reached over loopback. -/
def target (s : ServerSpec) (server : String) : Transport → Except OutputError Target
  | .stdio =>
      match nonempty? s.deployment.cmd with
      | some cmd => .ok ⟨server, .stdio ⟨cmd, s.deployment.args, s.deployment.env⟩⟩
      | none => .error (.invalid .missingCommand)
  | .http =>
      match s.httpTargetPort with
      | .ok port =>
          .ok ⟨server, .sse ⟨"localhost", port, (s.httpTransport.map (·.path)).getD "/mcp"⟩⟩
      | .error e => .error (.invalid e)

def withoutTrailingSlashes (url : String) : String :=
  String.ofList (url.toList.reverse.dropWhile (· = '/')).reverse

def resourceMetadata (r : ResourceSpec) : ResourceMetadata where
  resource := withoutTrailingSlashes r.resource ++ "/mcp"
  scopesSupported := r.scopesSupported
  bearerMethodsSupported := r.bearerMethodsSupported
  additionalFields := r.additionalFields

def provider : ProviderSpec → Provider
  | .keycloak _ => ⟨some {}⟩

def authentication (s : AuthorizationServerSpec) : Authentication where
  issuer := s.issuer
  audience := s.audience
  jwksUrl := s.jwksUrl
  provider := s.provider.map provider
  resourceMetadata := s.resourceMetadata.map resourceMetadata

/-- The realm of a provider is asked for here too, though routes to a provider without one are refused. -/
def mcpAuthentication : Option AuthorizationServerSpec → Except OutputError (Option Authentication)
  | none => .ok none
  | some s => match s.provider with
      | some (.keycloak k) =>
          if k.realm = "" then .error .missingRealm else .ok (some (authentication s))
      | none => .ok (some (authentication s))

def authorization (a : AuthorizationSpec) : Option Authorization :=
  if a.rules.isEmpty then none else some ⟨a.rules⟩

def jwtAuth (jwks : Option Jwks) : Option JwtSpec → Except OutputError (Option JwtAuth)
  | none => .ok none
  | some jwt => match jwks with
      | some jwks => .ok (some ⟨jwt.issuer, jwt.audiences, jwks⟩)
      | none => .error .missingJwks

/-- A route without policies has none, rather than an empty set of them. -/
def policies (s : ServerSpec) (jwks : Option Jwks) : Except OutputError (Option Policies) := do
  let jwt ← jwtAuth jwks s.jwt
  let login ← mcpAuthentication (authorizationServer s)
  let p : Policies := {
    jwtAuth := jwt
    mcpAuthorization := s.authz.bind authorization
    mcpAuthentication := login
    cors := (s.routeFilter.bind RouteFilter.cors).map fun c => ⟨c.allowOrigins, c.allowHeaders⟩ }
  .ok (if p.isEmpty then none else some p)

def Config.ofSpec (s : ServerSpec) (server : String) (transport : Transport) (jwks : Option Jwks) :
    Except OutputError Config := do
  let ms ← routeMatches s
  let target ← target s server transport
  let policies ← policies s jwks
  let route : Route := ⟨"mcp", ms, [⟨100, ⟨[target]⟩⟩], policies⟩
  .ok ⟨{}, [⟨s.deployment.port, [⟨"default", .http, [route]⟩]⟩]⟩

end Gateway
end McpOperator
