import McpOperator.Proofs.Gateway.Effective

namespace McpOperator

namespace ServerSpec

variable {s : ServerSpec}

theorem validate_ok {server : String} (h : s.validate server = .ok ()) :
    s.deployment.port ≠ 0 ∧ ∃ transport, s.transport = .ok transport ∧
      s.validateTransport transport = .ok () := by
  rw [validate] at h
  obtain ⟨-, -, h⟩ := bind_eq_ok_iff.1 h
  obtain ⟨transport, htransport, h⟩ := bind_eq_ok_iff.1 h
  split at h
  · cases h
  · exact ⟨‹_›, transport, htransport, h⟩

end ServerSpec

namespace Gateway

variable {S : Type} {store : (c : Call) → S → c.Answer × S} {s : S} {gatewayImage : String}
  {server : McpServer} {outputs : Outputs}

theorem owner?_eq_some_iff {owner : OwnerReference} : owner? server = some owner ↔
    ∃ name uid, server.metadata.name = some name ∧ server.metadata.uid = some uid ∧
      owner = ⟨McpServer.apiVersion, none, some true, McpServer.kindName, name, uid⟩ := by
  rw [owner?]
  cases server.metadata.name <;> cases server.metadata.uid <;> simp [eq_comm]

theorem holds_of_resolveJwks {spec : ServerSpec} {ns : String} {jwks : Option Jwks}
    (h : ((resolveJwks spec ns).run store s).1 = .ok jwks) {ref : SecretKeyRef}
    (href : spec.jwksSecret = some ref) : ∃ secret : Secret,
      (store (.get ⟨.secret, ns, ref.name⟩) s).1 = .ok (some secret) ∧ secret.holds ref.key = true := by
  obtain ⟨jwt, hjwt, href⟩ := Option.bind_eq_some_iff.1 href
  simp only [resolveJwks, hjwt, href, Work.run] at h
  generalize (store (.get ⟨.secret, ns, ref.name⟩) s).1 = answer at h ⊢
  rcases answer with e | _ | secret
  · cases h
  · cases h
  · rw [jwksOfSecret] at h
    split at h
    · exact ⟨secret, rfl, ‹_›⟩
    · cases h

theorem holds_of_derive (h : ((derive gatewayImage server).run store s).1 = .ok outputs)
    {ref : SecretKeyRef} (href : server.spec.jwksSecret = some ref) : ∃ secret : Secret,
      (store (.get ⟨.secret, (Key.of .server server).ns, ref.name⟩) s).1 = .ok (some secret) ∧
        secret.holds ref.key = true := by
  obtain ⟨plan, jwks, hplan, hjwks, -⟩ := derive_inv h
  rw [Plan.of_ok hplan] at hjwks
  exact holds_of_resolveJwks hjwks href

theorem Derived.text? {owner : OwnerReference} {transport : Transport} {image : String}
    {config : Config} (d : Derived gatewayImage server outputs owner transport image config) :
    outputs.text? = some (Yaml.render config.encode) := by
  rw [d.outputs_eq, Outputs.text?_ofPlan]

end Gateway

def exposedServer (transport : TransportType) : McpServer where
  metadata := Pass.echoServer.metadata
  spec := {
    deployment := { Pass.echoServer.spec.deployment with configMapRefs := [⟨"settings"⟩] }
    transportType := some transport
    httpTransport := some ⟨some 8080, none⟩
    authn := some ⟨some ⟨"https://issuer", ["mcp", "echo"], some ⟨"tokens", "keys.json"⟩, none⟩⟩
    authz := some ⟨["true"], some ⟨"https://issuer", "mcp", "https://issuer/certs",
      some (.keycloak ⟨"main"⟩), some ⟨"https://mcp.example.com//", ["profile"], [], .empty⟩⟩⟩
    routeFilter := some ⟨some ⟨["*"], ["mcp-session-id"]⟩⟩ }
  status := none

def tokenSecret : Secret where
  data := none
  immutable := none
  metadata := { ObjectMeta.empty with name := some "tokens" }
  stringData := some (.ofList [("keys.json", "\x7b\x7d")])
  type := none

def tokenStore : Memory := Memory.empty.seed .secret tokenSecret

end McpOperator
