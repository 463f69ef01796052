import McpOperator.Proofs.Gateway.Document

namespace McpOperator.Gateway

namespace ResourceMetadata

theorem separate_of_clear {r : ResourceMetadata} (h : r.Clear) : r.Separate :=
  fun e he hwritten => h e he (sublist_writtenNames.subset hwritten)

theorem clear_iff {r : ResourceMetadata} :
    r.Clear ↔ ∀ name ∈ fieldNames, ¬ r.additionalFields.contains name := forall_fields_iff

end ResourceMetadata

namespace Config

theorem render_inj {c c' : Config} (h : Yaml.render c'.encode = Yaml.render c.encode) : c' = c :=
  Faithful.injective (Yaml.render_injective (Faithful.exact c') (Faithful.exact c) h)

end Config

/-- Every configuration is read back from its document, and written again as the same document, when
no additional field of a resource takes the name of another one. -/
theorem config_read_back (c : Config) (hclear : ∀ r ∈ c.resources,
      ∀ name ∈ ResourceMetadata.fieldNames, ¬ r.additionalFields.contains name) :
    c.encode.Distinct ∧ Config.decode c.encode = .ok c ∧
      (∀ c', Config.decode c.encode = .ok c' →
        c'.encode = c.encode ∧ Yaml.render c'.encode = Yaml.render c.encode) ∧
      ∀ c', Yaml.render c'.encode = Yaml.render c.encode → c' = c := by
  have hresources : ∀ r ∈ c.resources, r.Clear := fun r hr => ResourceMetadata.clear_iff.2 (hclear r hr)
  have hread : Config.decode c.encode = .ok c := (Holding.decode_iff c).2 hresources
  refine ⟨?_, hread, ?_, fun c' => Config.render_inj⟩
  · rw [Holding.distinct_iff Config.decode]
    exact fun r hr => ResourceMetadata.separate_of_clear (hresources r hr)
  · intro c' hread'
    obtain rfl : c = c' := Except.ok.inj (hread.symm.trans hread')
    exact ⟨rfl, rfl⟩

def mixedConfig : Config := ⟨{}, [
  ⟨3000, [⟨"default", .http, [
    ⟨"mcp", [.beginning "/sse", .whole "/mcp"],
      [⟨100, ⟨[⟨"echo", .stdio ⟨"npx", [], .ofList [("A", "")]⟩⟩, ⟨"", .sse ⟨"localhost", 80, "/"⟩⟩]⟩⟩],
      some ⟨some ⟨"https://issuer", [], .ofFile "/jwks/k"⟩, some ⟨[]⟩,
        some ⟨"https://issuer", "mcp", "https://issuer/certs", some ⟨some {}⟩,
          some ⟨"https://mcp/mcp", [], ["header"], .ofList [("resource_name", "null")]⟩⟩,
        some ⟨[], []⟩⟩⟩,
    ⟨"bare", [], [], none⟩, ⟨"open", [], [⟨0, ⟨[]⟩⟩], some ⟨none, none, none, none⟩⟩]⟩]⟩,
  ⟨0, []⟩]⟩

theorem config_read_back_mixed : (∀ r ∈ mixedConfig.resources,
      ∀ name ∈ ResourceMetadata.fieldNames, ¬ r.additionalFields.contains name) ∧
    Config.decode mixedConfig.encode = .ok mixedConfig := by
  have hclear : ∀ r ∈ mixedConfig.resources,
      ∀ name ∈ ResourceMetadata.fieldNames, ¬ r.additionalFields.contains name := by decide
  exact ⟨hclear, (config_read_back mixedConfig hclear).2.1⟩

end McpOperator.Gateway
