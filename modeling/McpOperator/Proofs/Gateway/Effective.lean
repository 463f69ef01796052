import McpOperator.Proofs.Gateway.Encoding
import McpOperator.Proofs.Reconcile.Pass
import McpOperator.Proofs.Yaml.Injective

namespace McpOperator

/-- Where the keys that sign tokens come from. -/
inductive JwksSource where
  | secretKey (key : String)
  | text (keys : String)
deriving DecidableEq

namespace JwksSource

def jwks : JwksSource → Gateway.Jwks
  | secretKey key => .ofFile (Gateway.jwksFile key)
  | text keys => .ofText keys

theorem jwks_injective : Function.Injective jwks := by
  rintro (key | keys) (key' | keys') h <;> simp_all [jwks, Gateway.Jwks.ofFile, Gateway.Jwks.ofText,
    Gateway.jwksFile]

end JwksSource

/-- A secret counts before keys in the spec. -/
def JwtSpec.source (j : JwtSpec) : JwksSource :=
  match j.jwksRef with
  | some ref => .secretKey ref.key
  | none => .text (j.jwksInline.getD "")

theorem JwtSpec.source_of_ref {j : JwtSpec} {ref : SecretKeyRef} (h : j.jwksRef = some ref) :
    j.source = .secretKey ref.key := by
  rw [source, h]

theorem JwtSpec.source_of_inline {j : JwtSpec} {keys : String} (h : j.jwksRef = none)
    (hkeys : j.jwksInline = some keys) : j.source = .text keys := by
  rw [source, h, hkeys, Option.getD_some]

namespace ServerSpec

variable (s : ServerSpec)

/-- A path that is missing or empty is the usual one. -/
def targetPath : String :=
  match s.httpTransport.bind HttpTransport.targetPath with
  | none | some "" => "/mcp"
  | some path => path

def rules : List String := (s.authz.map AuthorizationSpec.rules).getD []

def cors : Option CorsSpec := s.routeFilter.bind RouteFilter.cors

end ServerSpec

/-- The slashes that a resource ends with do not count. -/
def ResourceSpec.untrailed (r : ResourceSpec) : ResourceSpec :=
  { r with resource := Gateway.withoutTrailingSlashes r.resource }

def AuthorizationServerSpec.untrailed (a : AuthorizationServerSpec) : AuthorizationServerSpec :=
  { a with resourceMetadata := a.resourceMetadata.map ResourceSpec.untrailed }

/-- Two servers tell the gateway the same. -/
structure Agree (a b : McpServer) : Prop where
  name : (Key.of .server a).name = (Key.of .server b).name
  port : a.spec.deployment.port = b.spec.deployment.port
  transport : a.spec.transportType = b.spec.transportType
  process : a.spec.transportType = some .stdio → a.spec.deployment.cmd = b.spec.deployment.cmd ∧
    a.spec.deployment.args = b.spec.deployment.args ∧ a.spec.deployment.env = b.spec.deployment.env
  address : a.spec.transportType = some .http →
    a.spec.httpTransport.bind HttpTransport.targetPort =
      b.spec.httpTransport.bind HttpTransport.targetPort ∧ a.spec.targetPath = b.spec.targetPath
  tokens : a.spec.jwt.map (fun j => (j.issuer, j.audiences, j.source)) =
    b.spec.jwt.map fun j => (j.issuer, j.audiences, j.source)
  rules : a.spec.rules = b.spec.rules
  authorizationServer :
    (a.spec.authz.bind AuthorizationSpec.server).map AuthorizationServerSpec.untrailed =
      (b.spec.authz.bind AuthorizationSpec.server).map AuthorizationServerSpec.untrailed
  cors : a.spec.cors = b.spec.cors

namespace Gateway

variable {S T : Type} {gatewayImage : String} {server : McpServer}

theorem Config.ofSpec_ok {s : ServerSpec} {name : String} {transport : Transport} {jwks : Option Jwks}
    {config : Config} (h : Config.ofSpec s name transport jwks = .ok config) :
    ∃ ms t p, routeMatches s = .ok ms ∧ target s name transport = .ok t ∧ policies s jwks = .ok p ∧
      config = ⟨{}, [⟨s.deployment.port, [⟨"default", .http, [⟨"mcp", ms, [⟨100, ⟨[t]⟩⟩], p⟩]⟩]⟩]⟩ := by
  rw [Config.ofSpec] at h
  cases hms : routeMatches s with
  | error e =>
      rw [hms] at h
      cases h
  | ok ms =>
      cases ht : target s name transport with
      | error e =>
          rw [hms, ht] at h
          cases h
      | ok t =>
          cases hp : policies s jwks with
          | error e =>
              rw [hms, ht, hp] at h
              cases h
          | ok p =>
              rw [hms, ht, hp] at h
              cases h
              exact ⟨ms, t, p, rfl, rfl, rfl, rfl⟩

theorem Config.routes_ofSpec {s : ServerSpec} {name : String} {transport : Transport}
    {jwks : Option Jwks} {config : Config} (h : Config.ofSpec s name transport jwks = .ok config) :
    ∃ ms t p, target s name transport = .ok t ∧ policies s jwks = .ok p ∧
      config.routes = [⟨"mcp", ms, [⟨100, ⟨[t]⟩⟩], p⟩] := by
  obtain ⟨ms, t, p, -, ht, hp, rfl⟩ := Config.ofSpec_ok h
  exact ⟨ms, t, p, ht, hp, rfl⟩

theorem eq_some_of_nonempty? {o : Option String} {text : String} (h : nonempty? o = some text) :
    o = some text :=
  (Option.filter_eq_some_iff.1 h).1

theorem run_resolveJwks_ok {store : (c : Call) → S → c.Answer × S} {s : S} {spec : ServerSpec}
    {ns : String} {jwks : Option Jwks} (h : ((resolveJwks spec ns).run store s).1 = .ok jwks) :
    jwks = spec.jwt.map fun j => j.source.jwks := by
  rw [resolveJwks] at h
  split at h
  · rename_i hjwt
    rw [hjwt]
    exact (Except.ok.inj h).symm
  · rename_i jwt hjwt
    rw [hjwt, Option.map_some]
    split at h
    · rename_i ref href
      rw [JwtSpec.source_of_ref href]
      -- The secret that the store answers with is checked, but only its key is passed on.
      simp only [Work.run, jwksOfSecret] at h
      repeat' split at h
      all_goals cases h
      rfl
    · rename_i href
      split at h
      · rename_i keys hkeys
        rw [JwtSpec.source_of_inline href (eq_some_of_nonempty? hkeys)]
        exact (Except.ok.inj h).symm
      · cases h

theorem derive_inv {store : (c : Call) → S → c.Answer × S} {s : S} {outputs : Outputs}
    (h : ((derive gatewayImage server).run store s).1 = .ok outputs) :
    ∃ plan jwks, Plan.of gatewayImage server = .ok plan ∧
      ((resolveJwks server.spec plan.key.ns).run store s).1 = .ok jwks ∧
      plan.outputs jwks = .ok outputs := by
  rw [run_derive_fst] at h
  obtain ⟨plan, hplan, h⟩ := bind_eq_ok_iff.1 h
  obtain ⟨jwks, hjwks, h⟩ := bind_eq_ok_iff.1 h
  exact ⟨plan, jwks, hplan, hjwks, h⟩

def podPlan (gatewayImage : String) (server : McpServer) (transport : Transport) (image : String) :
    PodPlan :=
  ⟨(Key.of .server server).name, server.spec, transport, image, gatewayImage⟩

structure Derived (gatewayImage : String) (server : McpServer) (outputs : Outputs)
    (owner : OwnerReference) (transport : Transport) (image : String) (config : Config) : Prop where
  owner_eq : owner? server = some owner
  valid : server.spec.validate (Key.of .server server).name = .ok ()
  transport_eq : server.spec.transport = .ok transport
  config_eq : Config.ofSpec server.spec (Key.of .server server).name transport
    (server.spec.jwt.map fun j => j.source.jwks) = .ok config
  outputs_eq : outputs = .ofPlan
    ⟨Key.of .server server, owner, podPlan gatewayImage server transport image⟩
    (Yaml.render config.encode)

theorem derived_of_derive {store : (c : Call) → S → c.Answer × S} {s : S} {outputs : Outputs}
    (h : ((derive gatewayImage server).run store s).1 = .ok outputs) :
    ∃ owner transport image config, Derived gatewayImage server outputs owner transport image config := by
  obtain ⟨plan, jwks, hplan, hjwks, houtputs⟩ := derive_inv h
  obtain rfl := run_resolveJwks_ok hjwks
  obtain ⟨owner, transport, image, howner, hvalid, htransport, -, rfl⟩ := Plan.of_inv hplan
  obtain ⟨config, hconfig, rfl⟩ := Plan.outputs_ok houtputs
  exact ⟨owner, transport, image, config, howner, hvalid, htransport, hconfig, rfl⟩

theorem derive_config {store : (c : Call) → S → c.Answer × S} {s : S} {outputs : Outputs}
    (h : ((derive gatewayImage server).run store s).1 = .ok outputs) :
    ∃ plan transport config, server.spec.transport = .ok transport ∧
      Config.ofSpec server.spec (Key.of .server server).name transport
        (server.spec.jwt.map fun j => j.source.jwks) = .ok config ∧
      outputs = .ofPlan plan (Yaml.render config.encode) := by
  obtain ⟨owner, transport, image, config, d⟩ := derived_of_derive h
  exact ⟨_, transport, config, d.transport_eq, d.config_eq, d.outputs_eq⟩

section Parts

variable {s s' : ServerSpec}

/-- The path of a provider, in which alone its realm shows. -/
def realmMatch : ProviderSpec → RouteMatch
  | .keycloak k => .beginning ("/realms/" ++ k.realm)

theorem head?_providerMatches {p : Option ProviderSpec} {ms : List RouteMatch}
    (h : providerMatches p = .ok ms) : ms.head? = p.map realmMatch := by
  rcases p with _ | ⟨⟨realm⟩⟩
  · cases h
    rfl
  · rw [providerMatches] at h
    split at h <;> cases h
    rfl

theorem providerMatches_inj {p p' : Option ProviderSpec} {ms : List RouteMatch}
    (h : providerMatches p = .ok ms) (h' : providerMatches p' = .ok ms) : p = p' := by
  refine Option.map_injective ?_ ((head?_providerMatches h).symm.trans (head?_providerMatches h'))
  rintro ⟨⟨realm⟩⟩ ⟨⟨realm'⟩⟩ heq
  simpa [realmMatch, RouteMatch.beginning] using heq

theorem routeMatches_ok {ms : List RouteMatch} (h : routeMatches s = .ok ms) :
    ∃ others, ms = .beginning "/sse" :: .beginning "/mcp" :: others ∧
      providerMatches ((authorizationServer s).bind AuthorizationServerSpec.provider) = .ok others := by
  rw [routeMatches] at h
  cases hothers : providerMatches ((authorizationServer s).bind AuthorizationServerSpec.provider) with
  | error e =>
      rw [hothers] at h
      cases h
  | ok others =>
      rw [hothers] at h
      cases h
      exact ⟨others, rfl, rfl⟩

theorem routeMatches_inj {ms : List RouteMatch} (h : routeMatches s = .ok ms)
    (h' : routeMatches s' = .ok ms) :
    (authorizationServer s).bind AuthorizationServerSpec.provider =
      (authorizationServer s').bind AuthorizationServerSpec.provider := by
  obtain ⟨others, rfl, hothers⟩ := routeMatches_ok h
  obtain ⟨others', heq, hothers'⟩ := routeMatches_ok h'
  obtain rfl := (List.cons.inj (List.cons.inj heq).2).2
  exact providerMatches_inj hothers hothers'

theorem resourceMetadata_eq_iff {r r' : ResourceSpec} :
    resourceMetadata r = resourceMetadata r' ↔ r.untrailed = r'.untrailed := by
  simp [resourceMetadata, ResourceSpec.untrailed]

theorem map_eq_map_iff {α β γ : Type} {f : α → β} {g : α → γ} (h : ∀ a b, f a = f b ↔ g a = g b)
    {o p : Option α} : o.map f = p.map f ↔ o.map g = p.map g := by
  cases o <;> cases p <;> simp [h]

theorem untrailed_eq_iff {a b : Option AuthorizationServerSpec} :
    a.map AuthorizationServerSpec.untrailed = b.map AuthorizationServerSpec.untrailed ↔
      a.bind AuthorizationServerSpec.provider = b.bind AuthorizationServerSpec.provider ∧
        a.map authentication = b.map authentication := by
  have hresource : ∀ o p : Option ResourceSpec,
      o.map resourceMetadata = p.map resourceMetadata ↔
        o.map ResourceSpec.untrailed = p.map ResourceSpec.untrailed :=
    fun _ _ => map_eq_map_iff fun _ _ => resourceMetadata_eq_iff
  cases a <;> cases b <;> simp [AuthorizationServerSpec.untrailed, authentication, hresource]
  grind

theorem bind_authorization (s : ServerSpec) : s.authz.bind authorization =
    if s.rules.isEmpty then none else some ⟨s.rules⟩ := by
  rw [ServerSpec.rules]
  cases s.authz <;> rfl

def allPolicies (s : ServerSpec) : Policies where
  jwtAuth := s.jwt.map fun j => ⟨j.issuer, j.audiences, j.source.jwks⟩
  mcpAuthorization := s.authz.bind authorization
  mcpAuthentication := (authorizationServer s).map authentication
  cors := s.cors.map fun c => ⟨c.allowOrigins, c.allowHeaders⟩

theorem mcpAuthentication_ok {a : Option AuthorizationServerSpec} {login : Option Authentication}
    (h : mcpAuthentication a = .ok login) : login = a.map authentication := by
  unfold mcpAuthentication at h
  repeat' split at h
  all_goals cases h
  all_goals rfl

theorem policies_ok {p : Option Policies} (h : policies s (s.jwt.map fun j => j.source.jwks) = .ok p) :
    p = if (allPolicies s).isEmpty then none else some (allPolicies s) := by
  rw [policies] at h
  obtain ⟨tokens, htokens, h⟩ := bind_eq_ok_iff.1 h
  obtain ⟨login, hlogin, h⟩ := bind_eq_ok_iff.1 h
  obtain rfl : tokens = (allPolicies s).jwtAuth := by
    rw [allPolicies]
    cases hjwt : s.jwt <;> rw [hjwt] at htokens <;> exact (Except.ok.inj htokens).symm
  obtain rfl := mcpAuthentication_ok hlogin
  exact (Except.ok.inj h).symm

theorem bind_policies {p : Option Policies}
    (h : policies s (s.jwt.map fun j => j.source.jwks) = .ok p) :
    p.bind Policies.jwtAuth = (allPolicies s).jwtAuth ∧
      p.bind Policies.mcpAuthorization = (allPolicies s).mcpAuthorization ∧
      p.bind Policies.mcpAuthentication = (allPolicies s).mcpAuthentication ∧
      p.bind Policies.cors = (allPolicies s).cors := by
  rw [policies_ok h]
  split
  · rename_i hempty
    simp only [Policies.isEmpty, Bool.and_eq_true, Option.isNone_iff_eq_none] at hempty
    simp [hempty]
  · exact ⟨rfl, rfl, rfl, rfl⟩

theorem Policies.eq_of_isEmpty {p q : Policies} (hp : p.isEmpty = true) (hq : q.isEmpty = true) :
    p = q := by
  cases p
  cases q
  simp_all [isEmpty]

theorem policies_inj {p : Option Policies} (h : policies s (s.jwt.map fun j => j.source.jwks) = .ok p)
    (h' : policies s' (s'.jwt.map fun j => j.source.jwks) = .ok p) : allPolicies s = allPolicies s' :=
  unless_empty (p := Policies.isEmpty) (f := id) Function.injective_id
    (fun _ _ => Policies.eq_of_isEmpty) ((policies_ok h).symm.trans (policies_ok h'))

theorem allPolicies_eq_iff : allPolicies s = allPolicies s' ↔
    s.jwt.map (fun j => (j.issuer, j.audiences, j.source)) =
        s'.jwt.map (fun j => (j.issuer, j.audiences, j.source)) ∧
      s.rules = s'.rules ∧
      (authorizationServer s).map authentication = (authorizationServer s').map authentication ∧
      s.cors = s'.cors := by
  have htokens := map_eq_map_iff (f := fun j : JwtSpec => JwtAuth.mk j.issuer j.audiences j.source.jwks)
    (g := fun j => (j.issuer, j.audiences, j.source)) (o := s.jwt) (p := s'.jwt)
    fun _ _ => by simp [JwksSource.jwks_injective.eq_iff]
  have hrules : s.authz.bind authorization = s'.authz.bind authorization ↔ s.rules = s'.rules := by
    rw [bind_authorization, bind_authorization]
    refine ⟨unless_empty (f := Authorization.mk) (fun _ _ h => Authorization.mk.inj h)
      fun _ _ h h' => (List.isEmpty_iff.1 h).trans (List.isEmpty_iff.1 h').symm, fun h => by rw [h]⟩
  have hcors : Function.Injective fun c : CorsSpec => Cors.mk c.allowOrigins c.allowHeaders := by
    rintro ⟨_, _⟩ ⟨_, _⟩ h
    simpa using h
  simp only [allPolicies, Policies.mk.injEq, htokens, hrules, (Option.map_injective hcors).eq_iff]

theorem target_stdio {name : String} {t : Target} (h : target s name .stdio = .ok t) :
    ∃ cmd, s.deployment.cmd = some cmd ∧
      t = ⟨name, .stdio ⟨cmd, s.deployment.args, s.deployment.env⟩⟩ := by
  rw [target] at h
  split at h
  · rename_i cmd hcmd
    exact ⟨cmd, eq_some_of_nonempty? hcmd, (Except.ok.inj h).symm⟩
  · cases h

theorem getD_path (s : ServerSpec) :
    (s.httpTransport.map HttpTransport.path).getD "/mcp" = s.targetPath := by
  rw [ServerSpec.targetPath]
  rcases s.httpTransport with _ | ⟨port, _ | path⟩
  · rfl
  · rfl
  · by_cases hpath : path = ""
    · subst hpath
      rfl
    · simp [HttpTransport.path, nonempty?, Option.filter, hpath]

theorem httpTargetPort_ok_iff {port : UInt16} : s.httpTargetPort = .ok port ↔
    s.httpTransport.bind HttpTransport.targetPort = some port ∧ port ≠ 0 ∧ port ≠ s.deployment.port := by
  rw [ServerSpec.httpTargetPort]
  cases s.httpTransport.bind HttpTransport.targetPort with
  | none => simp
  | some target =>
      dsimp only [Option.getD_some]
      constructor
      · intro h
        split at h
        · cases h
        · split at h <;> cases h
          exact ⟨rfl, ‹_›, ‹_›⟩
      · rintro ⟨⟨⟩, hzero, hport⟩
        rw [if_neg hzero, if_neg hport]

theorem target_http {name : String} {t : Target} (h : target s name .http = .ok t) :
    ∃ port, s.httpTargetPort = .ok port ∧ t = ⟨name, .sse ⟨"localhost", port, s.targetPath⟩⟩ := by
  rw [target, getD_path] at h
  split at h
  · rename_i port hport
    exact ⟨port, hport, (Except.ok.inj h).symm⟩
  · cases h

theorem transport_ok {transport : Transport} (h : s.transport = .ok transport) :
    s.transportType = some (match transport with
      | .stdio => .stdio
      | .http => .http) := by
  rw [ServerSpec.transport] at h
  split at h <;> cases h <;> assumption

theorem target_eq_iff {name name' : String} {transport transport' : Transport} {t t' : Target}
    (htransport : s.transport = .ok transport) (htransport' : s'.transport = .ok transport')
    (h : target s name transport = .ok t) (h' : target s' name' transport' = .ok t') :
    t = t' ↔ name = name' ∧ s.transportType = s'.transportType ∧
      (s.transportType = some .stdio → s.deployment.cmd = s'.deployment.cmd ∧
        s.deployment.args = s'.deployment.args ∧ s.deployment.env = s'.deployment.env) ∧
      (s.transportType = some .http → s.httpTransport.bind HttpTransport.targetPort =
        s'.httpTransport.bind HttpTransport.targetPort ∧ s.targetPath = s'.targetPath) := by
  rw [transport_ok htransport, transport_ok htransport']
  cases transport <;> cases transport'
  · obtain ⟨cmd, hcmd, rfl⟩ := target_stdio h
    obtain ⟨cmd', hcmd', rfl⟩ := target_stdio h'
    simp [hcmd, hcmd']
  · obtain ⟨cmd, -, rfl⟩ := target_stdio h
    obtain ⟨port, -, rfl⟩ := target_http h'
    simp
  · obtain ⟨port, -, rfl⟩ := target_http h
    obtain ⟨cmd, -, rfl⟩ := target_stdio h'
    simp
  · obtain ⟨port, hport, rfl⟩ := target_http h
    obtain ⟨port', hport', rfl⟩ := target_http h'
    simp [(httpTargetPort_ok_iff.1 hport).1, (httpTargetPort_ok_iff.1 hport').1]

end Parts

/-- The configurations of two servers are the same when these agree, and only then. -/
theorem config_eq_iff {a b : McpServer} {transport transport' : Transport} {c c' : Config}
    (ha : a.spec.transport = .ok transport) (hb : b.spec.transport = .ok transport')
    (hc : Config.ofSpec a.spec (Key.of .server a).name transport
      (a.spec.jwt.map fun j => j.source.jwks) = .ok c)
    (hc' : Config.ofSpec b.spec (Key.of .server b).name transport'
      (b.spec.jwt.map fun j => j.source.jwks) = .ok c') : c = c' ↔ Agree a b := by
  obtain ⟨ms, t, p, hms, ht, hp, rfl⟩ := Config.ofSpec_ok hc
  obtain ⟨ms', t', p', hms', ht', hp', rfl⟩ := Config.ofSpec_ok hc'
  have htarget := target_eq_iff ha hb ht ht'
  constructor
  · intro h
    obtain ⟨hport, rfl, rfl, rfl⟩ : a.spec.deployment.port = b.spec.deployment.port ∧ ms = ms' ∧
        t = t' ∧ p = p' := by simpa using h
    obtain ⟨hname, htransport, hprocess, haddress⟩ := htarget.1 rfl
    obtain ⟨htokens, hrules, hauth, hcors⟩ := allPolicies_eq_iff.1 (policies_inj hp hp')
    exact ⟨hname, hport, htransport, hprocess, haddress, htokens, hrules,
      untrailed_eq_iff.2 ⟨routeMatches_inj hms hms', hauth⟩, hcors⟩
  · intro h
    obtain ⟨hprovider, hauth⟩ := untrailed_eq_iff.1 h.authorizationServer
    obtain rfl := htarget.2 ⟨h.name, h.transport, h.process, h.address⟩
    have hall := allPolicies_eq_iff.2 ⟨h.tokens, h.rules, hauth, h.cors⟩
    obtain rfl : ms = ms' := by
      rw [routeMatches, authorizationServer, hprovider] at hms
      exact Except.ok.inj (hms.symm.trans hms')
    obtain rfl : p = p' := by rw [policies_ok hp, policies_ok hp', hall]
    rw [h.port]

def Outputs.text? (o : Outputs) : Option String := o.configMap.data.bind (·.get? configFile)

theorem Outputs.text?_ofPlan (plan : Plan) (content : String) :
    (ofPlan plan content).text? = some content :=
  SortedMap.get?_insert_self .empty configFile content

end Gateway

/-- The text of the configuration is the same for two servers when they agree on what they tell the
gateway, and only then. Pods are rolled by its hash. -/
theorem config_text_tracks_spec {S T : Type} {store : (c : Call) → S → c.Answer × S}
    {store' : (c : Call) → T → c.Answer × T} {s : S} {t : T} {gatewayImage gatewayImage' : String}
    {a b : McpServer} {outputs outputs' : Gateway.Outputs}
    (h : ((Gateway.derive gatewayImage a).run store s).1 = .ok outputs)
    (h' : ((Gateway.derive gatewayImage' b).run store' t).1 = .ok outputs') :
    ∃ text text', outputs.text? = some text ∧ outputs'.text? = some text' ∧
      (text = text' ↔ Agree a b) ∧ (Agree a b → outputs.configHash = outputs'.configHash) := by
  obtain ⟨plan, transport, config, htransport, hconfig, rfl⟩ := Gateway.derive_config h
  obtain ⟨plan', transport', config', htransport', hconfig', rfl⟩ := Gateway.derive_config h'
  have hagree := Gateway.config_eq_iff htransport htransport' hconfig hconfig'
  have htext : Yaml.render config.encode = Yaml.render config'.encode ↔ Agree a b := by
    refine ⟨fun h => hagree.1 ?_, fun h => by rw [hagree.2 h]⟩
    exact Faithful.injective (Yaml.render_injective (Faithful.exact config) (Faithful.exact config') h)
  exact ⟨_, _, Gateway.Outputs.text?_ofPlan plan _, Gateway.Outputs.text?_ofPlan plan' _, htext,
    fun h => congrArg Gateway.configHash (htext.2 h)⟩

def movedServer : McpServer where
  metadata := { Pass.echoServer.metadata with ns := some "other", uid := some "0" }
  spec := { Pass.echoServer.spec with
    deployment := { Pass.echoServer.spec.deployment with image := some "echo:2" } }
  status := none

def ruledServer : McpServer :=
  { Pass.echoServer with spec := { Pass.echoServer.spec with authz := some ⟨["true"], none⟩ } }

theorem agree_movedServer : Agree Pass.echoServer movedServer :=
  ⟨rfl, rfl, rfl, fun _ => ⟨rfl, rfl, rfl⟩, fun _ => ⟨rfl, rfl⟩, rfl, rfl, rfl, rfl⟩

theorem config_text_tracks_spec_echo : ∃ outputs moved ruled text text',
    ((Gateway.derive "gateway:1" Pass.echoServer).run Memory.answer .empty).1 = .ok outputs ∧
    ((Gateway.derive "gateway:2" movedServer).run Memory.answer Pass.echoStore).1 = .ok moved ∧
    ((Gateway.derive "gateway:1" ruledServer).run Memory.answer .empty).1 = .ok ruled ∧
    outputs.text? = some text ∧ moved.text? = some text ∧
    outputs.configHash = moved.configHash ∧ ruled.text? = some text' ∧ text ≠ text' := by
  obtain ⟨outputs, houtputs⟩ : ∃ outputs, ((Gateway.derive "gateway:1" Pass.echoServer).run
      Memory.answer .empty).1 = .ok outputs := ⟨_, rfl⟩
  obtain ⟨moved, hmoved⟩ : ∃ outputs, ((Gateway.derive "gateway:2" movedServer).run
      Memory.answer Pass.echoStore).1 = .ok outputs := ⟨_, rfl⟩
  obtain ⟨ruled, hruled⟩ : ∃ outputs, ((Gateway.derive "gateway:1" ruledServer).run
      Memory.answer .empty).1 = .ok outputs := ⟨_, rfl⟩
  obtain ⟨text, text', htext, htext', hsame, hhash⟩ := config_text_tracks_spec houtputs hmoved
  obtain rfl := hsame.2 agree_movedServer
  obtain ⟨text₁, text₂, htext₁, htext₂, hdiffer, -⟩ := config_text_tracks_spec houtputs hruled
  obtain rfl : text = text₁ := Option.some.inj (htext.symm.trans htext₁)
  refine ⟨outputs, moved, ruled, text, text₂, houtputs, hmoved, hruled, htext, htext',
    hhash agree_movedServer, htext₂, fun heq => ?_⟩
  have hrules := (hdiffer.1 heq).rules
  cases hrules

end McpOperator
