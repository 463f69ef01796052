import McpOperator.Proofs.Codec.Config
import McpOperator.Proofs.Gateway.Effective

namespace McpOperator

namespace ResourceSpec

variable (r : ResourceSpec)

/-- No additional field has the name of a field that is written. Lists are not when they are empty. -/
structure Separate : Prop where
  resource : ¬ r.additionalFields.contains "resource"
  scopes : r.scopesSupported ≠ [] → ¬ r.additionalFields.contains "scopesSupported"
  bearer : r.bearerMethodsSupported ≠ [] → ¬ r.additionalFields.contains "bearerMethodsSupported"

/-- No additional field has the name of another field. -/
structure Clear : Prop where
  resource : ¬ r.additionalFields.contains "resource"
  scopes : ¬ r.additionalFields.contains "scopesSupported"
  bearer : ¬ r.additionalFields.contains "bearerMethodsSupported"

variable {r}

theorem Clear.separate (h : r.Clear) : r.Separate := ⟨h.resource, fun _ => h.scopes, fun _ => h.bearer⟩

end ResourceSpec

def ServerSpec.resource (s : ServerSpec) : Option ResourceSpec :=
  (s.authz.bind AuthorizationSpec.server).bind AuthorizationServerSpec.resourceMetadata

theorem SortedMap.contains_iff {α : Type} {m : SortedMap α} {key : String} :
    m.contains key ↔ key ∈ m.entries.map Prod.fst := by
  rw [contains, get?, Option.isSome_iff_ne_none, ne_eq, List.lookup_eq_none_iff, List.mem_map]
  simp only [bne_iff_ne, ne_eq, not_forall, not_not, exists_prop]
  exact exists_congr fun e => and_congr_right fun _ => eq_comm

namespace Gateway

namespace ResourceMetadata

variable {r : ResourceMetadata}

theorem mem_writtenNames {name : String} : name ∈ r.writtenNames ↔ name = "resource" ∨
    r.scopesSupported ≠ [] ∧ name = "scopesSupported" ∨
      r.bearerMethodsSupported ≠ [] ∧ name = "bearerMethodsSupported" := by
  obtain ⟨resource, scopes, bearer, others⟩ := r
  cases scopes <;> cases bearer <;> simp [writtenNames, lists, nonemptyStrings, Members.present]

theorem forall_fields_iff {names : List String} : (∀ e ∈ r.additionalFields.entries, e.1 ∉ names) ↔
    ∀ name ∈ names, ¬ r.additionalFields.contains name := by
  simp only [SortedMap.contains_iff, List.mem_map]
  constructor
  · rintro h name hname ⟨e, he, rfl⟩
    exact h e he hname
  · exact fun h e he hmem => h e.1 hmem ⟨e, he, rfl⟩

end ResourceMetadata

theorem separate_resourceMetadata {r : ResourceSpec} :
    (resourceMetadata r).Separate ↔ r.Separate := by
  rw [ResourceMetadata.Separate, ResourceMetadata.forall_fields_iff]
  simp only [ResourceMetadata.mem_writtenNames]
  constructor
  · intro h
    exact ⟨h _ (.inl rfl), fun hne => h _ (.inr (.inl ⟨hne, rfl⟩)),
      fun hne => h _ (.inr (.inr ⟨hne, rfl⟩))⟩
  · rintro ⟨hresource, hscopes, hbearer⟩ name (rfl | ⟨hne, rfl⟩ | ⟨hne, rfl⟩)
    · exact hresource
    · exact hscopes hne
    · exact hbearer hne

theorem clear_resourceMetadata {r : ResourceSpec} : (resourceMetadata r).Clear ↔ r.Clear := by
  rw [ResourceMetadata.Clear, ResourceMetadata.forall_fields_iff]
  constructor
  · exact fun h => ⟨h _ (by decide), h _ (by decide), h _ (by decide)⟩
  · rintro ⟨hresource, hscopes, hbearer⟩ name hname
    simp only [ResourceMetadata.fieldNames, List.mem_cons, List.not_mem_nil, or_false] at hname
    rcases hname with rfl | rfl | rfl
    · exact hresource
    · exact hscopes
    · exact hbearer

theorem Route.resources_eq (r : Route) : r.resources =
    ((r.policies.bind Policies.mcpAuthentication).bind Authentication.resourceMetadata).toList := by
  rw [Route.resources]
  cases r.policies with
  | none => rfl
  | some p =>
      rw [Option.toList_some, List.flatMap_singleton, Option.bind_some, Policies.resources]
      cases p.mcpAuthentication <;> simp

theorem resources_ofSpec {s : ServerSpec} {name : String} {transport : Transport} {config : Config}
    (h : Config.ofSpec s name transport (s.jwt.map fun j => j.source.jwks) = .ok config) :
    config.resources = (s.resource.map resourceMetadata).toList := by
  obtain ⟨ms, t, p, -, hp, hroutes⟩ := Config.routes_ofSpec h
  obtain ⟨-, -, hauth, -⟩ := bind_policies hp
  rw [Config.resources, hroutes, List.flatMap_singleton, Route.resources_eq, hauth, allPolicies,
    ServerSpec.resource, authorizationServer]
  cases s.authz.bind AuthorizationSpec.server <;> rfl

end Gateway

/-- The document that is generated binds no key twice, and is read back as what was generated, exactly
when no additional field of the resource takes the name of another one. -/
theorem config_document_unambiguous_iff {S : Type} {store : (c : Call) → S → c.Answer × S} {s : S}
    {gatewayImage : String} {server : McpServer} {outputs : Gateway.Outputs}
    (h : ((Gateway.derive gatewayImage server).run store s).1 = .ok outputs) :
    ∃ transport config, server.spec.transport = .ok transport ∧
      Gateway.Config.ofSpec server.spec (Key.of .server server).name transport
        (server.spec.jwt.map fun j => j.source.jwks) = .ok config ∧
      outputs.text? = some (Yaml.render config.encode) ∧
      (∀ tree : Json, tree.Exact → Yaml.render tree = Yaml.render config.encode →
        tree = config.encode) ∧
      (config.encode.Distinct ↔ ∀ r ∈ server.spec.resource, r.Separate) ∧
      (config.encode.Distinct ∧ Gateway.Config.decode config.encode = .ok config ↔
        ∀ r ∈ server.spec.resource, r.Clear) := by
  obtain ⟨plan, transport, config, htransport, hconfig, rfl⟩ := Gateway.derive_config h
  have hresources : ∀ p : Gateway.ResourceMetadata → Prop, (∀ r ∈ config.resources, p r) ↔
      ∀ r ∈ server.spec.resource, p (Gateway.resourceMetadata r) := by
    intro p
    rw [Gateway.resources_ofSpec hconfig]
    cases server.spec.resource <;> simp
  have hdistinct : config.encode.Distinct ↔ ∀ r ∈ server.spec.resource, r.Separate := by
    simp only [← Gateway.separate_resourceMetadata]
    exact (Gateway.Holding.distinct_iff Gateway.Config.decode config).trans (hresources _)
  have hread : Gateway.Config.decode config.encode = .ok config ↔
      ∀ r ∈ server.spec.resource, r.Clear := by
    simp only [← Gateway.clear_resourceMetadata]
    exact (Gateway.Holding.decode_iff config).trans (hresources _)
  refine ⟨transport, config, htransport, hconfig, Gateway.Outputs.text?_ofPlan plan _,
    fun tree htree => Yaml.render_injective htree (Faithful.exact config), hdistinct, ?_⟩
  rw [hread, and_iff_right_iff_imp, hdistinct]
  exact fun hclear r hr => (hclear r hr).separate

def describedServer (field value : String) : McpServer where
  metadata := Pass.echoServer.metadata
  spec := { Pass.echoServer.spec with
    authz := some ⟨[], some ⟨"https://issuer", "mcp", "https://issuer/certs", none,
      some ⟨"https://mcp.example.com/", ["profile"], [], .ofList [(field, value)]⟩⟩⟩ }
  status := none

theorem config_document_unambiguous_named : ∃ outputs config,
    ((Gateway.derive "gateway:1" (describedServer "resource_name" "echo")).run
      Memory.answer .empty).1 = .ok outputs ∧
    outputs.text? = some (Yaml.render config.encode) ∧ config.encode.Distinct ∧
    Gateway.Config.decode config.encode = .ok config := by
  obtain ⟨outputs, houtputs⟩ : ∃ outputs, ((Gateway.derive "gateway:1"
      (describedServer "resource_name" "echo")).run Memory.answer .empty).1 = .ok outputs := ⟨_, rfl⟩
  obtain ⟨_, config, -, -, htext, -, -, hread⟩ := config_document_unambiguous_iff houtputs
  refine ⟨outputs, config, houtputs, htext, hread.2 ?_⟩
  rintro _ ⟨⟩
  exact ⟨by decide, by decide, by decide⟩

/-- An additional field that is called like the resource is written as a second one. -/
theorem config_document_repeats_resource : ∃ (outputs : Gateway.Outputs) (config : Gateway.Config),
    ((Gateway.derive "gateway:1" (describedServer "resource" "https://other")).run
      Memory.answer .empty).1 = .ok outputs ∧
    outputs.text? = some (Yaml.render config.encode) ∧ ¬ config.encode.Distinct ∧
    config.encode.at? ["binds", "0", "listeners", "0", "routes", "0", "policies",
      "mcpAuthentication", "resourceMetadata"] = some (.obj [
        ("resource", .str "https://mcp.example.com/mcp"),
        ("scopesSupported", .strings ["profile"]),
        ("resource", .str "https://other")]) := by
  obtain ⟨outputs, houtputs⟩ : ∃ outputs, ((Gateway.derive "gateway:1"
      (describedServer "resource" "https://other")).run Memory.answer .empty).1 = .ok outputs := ⟨_, rfl⟩
  obtain ⟨plan, transport, config, htransport, hconfig, heq⟩ := Gateway.derive_config houtputs
  refine ⟨outputs, config, houtputs, heq ▸ Gateway.Outputs.text?_ofPlan plan _, ?_, ?_⟩
  · rw [Gateway.Holding.distinct_iff Gateway.Config.decode, Gateway.resources_ofSpec hconfig]
    intro hseparate
    exact (Gateway.separate_resourceMetadata.1 (hseparate _ (List.mem_singleton.2 rfl))).resource
      (by decide)
  · cases htransport
    cases hconfig
    rfl

end McpOperator
