import Mathlib.Data.List.DropRight
import McpOperator.Proofs.Gateway.Outputs

namespace McpOperator

namespace Gateway

/-- What is left of a text without the slashes at its end. -/
structure IsBase (base url : String) : Prop where
  slashes : ∃ n, url.toList = base.toList ++ List.replicate n '/'
  bare : base.toList.getLast? ≠ some '/'

theorem toList_withoutTrailingSlashes (url : String) :
    (withoutTrailingSlashes url).toList = url.toList.rdropWhile (· = '/') :=
  String.toList_ofList

theorem isBase_withoutTrailingSlashes (url : String) : IsBase (withoutTrailingSlashes url) url := by
  constructor
  · have hslashes : url.toList.rtakeWhile (· = '/') =
        List.replicate (url.toList.rtakeWhile (· = '/')).length '/' :=
      List.eq_replicate_iff.2 ⟨rfl, fun c hc => by simpa using List.mem_rtakeWhile_imp hc⟩
    rw [toList_withoutTrailingSlashes]
    exact ⟨_, by rw [← hslashes, List.rdropWhile_append_rtakeWhile]⟩
  · rw [toList_withoutTrailingSlashes]
    intro h
    obtain ⟨hne, hlast⟩ := List.mem_getLast?_eq_getLast h
    exact List.rdropWhile_last_not _ _ hne (by simp [← hlast])

/-- What clients are told about the resource is what the spec says of it. Its address is that of the
gateway's endpoint. -/
structure ResourceMetadata.Follows (m : ResourceMetadata) (r : ResourceSpec) : Prop where
  resource : ∃ base, IsBase base r.resource ∧ m.resource = base ++ "/mcp"
  scopes : m.scopesSupported = r.scopesSupported
  bearer : m.bearerMethodsSupported = r.bearerMethodsSupported
  others : m.additionalFields = r.additionalFields

structure Authentication.Follows (a : Authentication) (d : AuthorizationServerSpec) : Prop where
  issuer : a.issuer = d.issuer
  audience : a.audience = d.audience
  jwksUrl : a.jwksUrl = d.jwksUrl
  keycloak : a.provider = some ⟨some {}⟩ ↔ ∃ k, d.provider = some (.keycloak k)
  provider : a.provider = none ↔ d.provider = none
  resource : Option.Rel ResourceMetadata.Follows a.resourceMetadata d.resourceMetadata

structure JwtAuth.Follows (a : JwtAuth) (d : JwtSpec) : Prop where
  issuer : a.issuer = d.issuer
  audiences : a.audiences = d.audiences
  keys : Xor (a.jwks.file.isSome = true) (a.jwks.inline.isSome = true)

structure Cors.Follows (c : Cors) (d : CorsSpec) : Prop where
  origins : c.allowOrigins = d.allowOrigins
  headers : c.allowHeaders = d.allowHeaders

inductive ProviderPaths : Option ProviderSpec → List RouteMatch → Prop
  | none : ProviderPaths none []
  | keycloak (k : KeycloakSpec) (h : k.realm ≠ "") : ProviderPaths (some (.keycloak k)) [
      .beginning ("/realms/" ++ k.realm),
      .whole "/.well-known/oauth-protected-resource/mcp",
      .whole "/.well-known/oauth-authorization-server/mcp/client-registration",
      .whole "/.well-known/oauth-authorization-server/mcp"]

/-- A route with all the checks that a spec declares, and with no other. -/
structure Route.Protects (r : Route) (s : ServerSpec) : Prop where
  paths : ∃ others, r.matching = .beginning "/sse" :: .beginning "/mcp" :: others ∧
    ProviderPaths ((authorizationServer s).bind AuthorizationServerSpec.provider) others
  matching : ∀ m ∈ r.matching, Xor (m.path.pathPrefix.isSome = true) (m.path.exact.isSome = true)
  backends : ∃ target, r.backends = [⟨100, ⟨[target]⟩⟩]
  tokens : Option.Rel JwtAuth.Follows (r.policies.bind Policies.jwtAuth) s.jwt
  rules : r.policies.bind Policies.mcpAuthorization = if s.rules = [] then none else some ⟨s.rules⟩
  authentication :
    Option.Rel Authentication.Follows (r.policies.bind Policies.mcpAuthentication) (authorizationServer s)
  cors : Option.Rel Cors.Follows (r.policies.bind Policies.cors) s.cors

theorem rel_map {α β : Type} {R : β → α → Prop} {f : α → β} (h : ∀ a, R (f a) a) (o : Option α) :
    Option.Rel R (o.map f) o := by
  cases o with
  | none => exact .none
  | some a => exact .some (h a)

theorem rel_some {α β : Type} {R : β → α → Prop} {o : Option β} {a : α} :
    Option.Rel R o (some a) ↔ ∃ b, o = some b ∧ R b a := by
  constructor
  · rintro (h | _)
    exact ⟨_, rfl, h⟩
  · rintro ⟨b, rfl, h⟩
    exact .some h

theorem resourceMetadata_follows (r : ResourceSpec) : (resourceMetadata r).Follows r :=
  ⟨⟨_, isBase_withoutTrailingSlashes r.resource, rfl⟩, rfl, rfl, rfl⟩

theorem authentication_follows (d : AuthorizationServerSpec) : (authentication d).Follows d where
  issuer := rfl
  audience := rfl
  jwksUrl := rfl
  keycloak := by rcases d with ⟨_, _, _, _ | ⟨⟨k⟩⟩, _⟩ <;> simp [authentication, provider]
  provider := Option.map_eq_none_iff
  resource := rel_map resourceMetadata_follows d.resourceMetadata

theorem jwks_single (j : JwtSpec) :
    Xor (j.source.jwks.file.isSome = true) (j.source.jwks.inline.isSome = true) := by
  cases j.source <;> simp [JwksSource.jwks, Jwks.ofFile, Jwks.ofText, Xor]

theorem providerMatches_paths {p : Option ProviderSpec} {others : List RouteMatch}
    (h : providerMatches p = .ok others) : ProviderPaths p others := by
  rcases p with _ | ⟨⟨k⟩⟩
  · cases h
    exact .none
  · rw [providerMatches] at h
    split at h
    · cases h
    · rename_i hrealm
      cases h
      exact .keycloak k hrealm

theorem ProviderPaths.single {p : Option ProviderSpec} {others : List RouteMatch}
    (h : ProviderPaths p others) :
    ∀ m ∈ others, Xor (m.path.pathPrefix.isSome = true) (m.path.exact.isSome = true) := by
  cases h <;> simp [RouteMatch.beginning, RouteMatch.whole, Xor]

theorem ofSpec_protects {s : ServerSpec} {name : String} {transport : Transport} {config : Config}
    (h : Config.ofSpec s name transport (s.jwt.map fun j => j.source.jwks) = .ok config) :
    ∃ bind listener route, config.binds = [bind] ∧ bind.listeners = [listener] ∧
      listener.routes = [route] ∧ route.Protects s := by
  obtain ⟨ms, t, p, hms, -, hp, rfl⟩ := Config.ofSpec_ok h
  obtain ⟨others, rfl, hothers⟩ := routeMatches_ok hms
  have hpaths := providerMatches_paths hothers
  obtain ⟨htokens, hrules, hauth, hcors⟩ := bind_policies hp
  refine ⟨_, _, _, rfl, rfl, rfl, ?_⟩
  constructor
  case paths => exact ⟨others, rfl, hpaths⟩
  case matching =>
    simp only [List.forall_mem_cons]
    exact ⟨by simp [RouteMatch.beginning, Xor], by simp [RouteMatch.beginning, Xor], hpaths.single⟩
  case backends => exact ⟨t, rfl⟩
  case tokens =>
    rw [htokens]
    exact rel_map (fun j => ⟨rfl, rfl, jwks_single j⟩) s.jwt
  case rules =>
    rw [hrules, allPolicies, bind_authorization]
    simp only [List.isEmpty_iff]
  case authentication =>
    rw [hauth]
    exact rel_map authentication_follows (authorizationServer s)
  case cors =>
    rw [hcors]
    exact rel_map (fun _ => ⟨rfl, rfl⟩) s.cors

end Gateway

/-- What a spec declares to protect its server reaches the gateway, and nothing else does: there is
one way to the server, and on it stands each check that is declared, as it is declared. -/
theorem config_keeps_protections {S : Type} {store : (c : Call) → S → c.Answer × S} {s : S}
    {gatewayImage : String} {server : McpServer} {outputs : Gateway.Outputs}
    (h : ((Gateway.derive gatewayImage server).run store s).1 = .ok outputs) :
    ∃ (config : Gateway.Config) (bind : Gateway.Bind) (listener : Gateway.Listener)
      (route : Gateway.Route), outputs.text? = some (Yaml.render config.encode) ∧
      config.binds = [bind] ∧ bind.listeners = [listener] ∧ listener.routes = [route] ∧
      route.Protects server.spec := by
  obtain ⟨owner, transport, image, config, d⟩ := Gateway.derived_of_derive h
  obtain ⟨bind, listener, route, hbind, hlistener, hroute, hprotects⟩ :=
    Gateway.ofSpec_protects d.config_eq
  exact ⟨config, bind, listener, route, d.text?, hbind, hlistener, hroute, hprotects⟩

theorem config_keeps_protections_exposed : ∃ (outputs : Gateway.Outputs) (config : Gateway.Config)
    (route : Gateway.Route) (tokens : Gateway.JwtAuth) (login : Gateway.Authentication),
    ((Gateway.derive "gateway:1" (exposedServer .http)).run Memory.answer tokenStore).1 =
      .ok outputs ∧
    outputs.text? = some (Yaml.render config.encode) ∧ config.routes = [route] ∧
    route.Protects (exposedServer .http).spec ∧
    route.policies.bind Gateway.Policies.jwtAuth = some tokens ∧ tokens.audiences = ["mcp", "echo"] ∧
    route.policies.bind Gateway.Policies.mcpAuthentication = some login ∧
    login.provider = some ⟨some {}⟩ := by
  obtain ⟨outputs, houtputs⟩ : ∃ outputs, ((Gateway.derive "gateway:1" (exposedServer .http)).run
      Memory.answer tokenStore).1 = .ok outputs := ⟨_, rfl⟩
  obtain ⟨config, bind, listener, route, htext, hbind, hlistener, hroute, hprotects⟩ :=
    config_keeps_protections houtputs
  have hroutes : config.routes = [route] := by
    simp [Gateway.Config.routes, hbind, hlistener, hroute]
  obtain ⟨tokens, htokens, hfollows⟩ := Gateway.rel_some.1 hprotects.tokens
  obtain ⟨login, hlogin, hsame⟩ := Gateway.rel_some.1 hprotects.authentication
  exact ⟨outputs, config, route, tokens, login, houtputs, htext, hroutes, hprotects, htokens,
    hfollows.audiences, hlogin, hsame.keycloak.2 ⟨_, rfl⟩⟩

end McpOperator
