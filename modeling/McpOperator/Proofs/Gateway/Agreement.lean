import McpOperator.Proofs.Gateway.Mounts

namespace McpOperator

/-- An object has the name and namespace of a server, which alone owns it. -/
structure ObjectMeta.OwnedBy (m : ObjectMeta) (server : McpServer) : Prop where
  name : m.name = some (Key.of .server server).name
  ns : m.ns = some (Key.of .server server).ns
  owner : ∃ o, m.ownerReferences = some [o] ∧ o.controller = some true ∧
    o.apiVersion = McpServer.apiVersion ∧ o.kind = McpServer.kindName ∧
    server.metadata.name = some o.name ∧ server.metadata.uid = some o.uid

/-- The labels of an object have all that a selector asks for. -/
def Selects (selector labels : StringMap) : Prop :=
  ∀ key value, selector.get? key = some value → labels.get? key = some value

namespace Gateway

def Config.targets (c : Config) : List Target :=
  c.routes.flatMap fun route => route.backends.flatMap fun backend => backend.mcp.targets

namespace Outputs

variable (o : Outputs)

def podMeta? : Option ObjectMeta := o.deployment.spec.bind (·.template.metadata)

def podLabels? : Option StringMap := o.podMeta?.bind ObjectMeta.labels

def deploymentSelector? : Option StringMap := o.deployment.spec.bind (·.selector.matchLabels)

def serviceSelector? : Option StringMap := o.service.spec.bind ServiceSpec.selector

end Outputs

/-- What comes from outside goes by one port, up to the gateway. -/
structure OnePort (n : UInt16) (config : Config) (service : Service) (runner : Container) : Prop where
  nonzero : n ≠ 0
  bind : config.binds.map Bind.port = [n]
  service : ∃ spec p, service.spec = some spec ∧ spec.ports = some [p] ∧ p.port.toInt = n.toNat ∧
    p.targetPort = some (.number p.port)
  runner : ∃ p, runner.ports = some [p] ∧ p.name = some "http" ∧ p.containerPort.toInt = n.toNat

/-- The gateway goes to the port that a process listens on, and not to its own. -/
def Reaches (n : UInt16) (config : Config) (process : Container) : Prop :=
  ∃ name host m path p, config.targets = [⟨name, .sse ⟨host, m, path⟩⟩] ∧
    process.ports = some [p] ∧ p.containerPort.toInt = m.toNat ∧ m ≠ 0 ∧ m ≠ n

structure Consistent (server : McpServer) (outputs : Outputs) (transport : Transport) (config : Config)
    (pod : PodSpec) (runner : Container) : Prop where
  ports : OnePort server.spec.deployment.port config outputs.service runner
  process : transport = .http → ∃ process, pod.container? "mcp-server" = some process ∧
    Reaches server.spec.deployment.port config process
  hash : ∃ text, outputs.text? = some text ∧ outputs.configHash = configHash text ∧
    (outputs.podMeta?.bind ObjectMeta.annotations).bind (·.get? configHashKey) = some (configHash text)
  deployment : outputs.deployment.metadata.OwnedBy server
  service : outputs.service.metadata.OwnedBy server
  configMap : outputs.configMap.metadata.OwnedBy server

theorem toInt_port (n : UInt16) : (port n).toInt = n.toNat := by
  have hlt := n.toNat_lt
  exact Int32.toInt_ofInt_of_le (by omega) (by omega)

theorem outputMeta_ownedBy {server : McpServer} {owner : OwnerReference} (h : owner? server = some owner) :
    (outputMeta (Key.of .server server) owner).OwnedBy server := by
  obtain ⟨name, uid, hname, huid, rfl⟩ := owner?_eq_some_iff.1 h
  exact ⟨rfl, rfl, _, rfl, rfl, rfl, rfl, hname, huid⟩

theorem get?_labels (name key : String) : (labels name).get? key =
    if key = instanceLabel ∨ key = nameLabel then some name else none := by
  change ((SortedMap.empty.insert nameLabel name).insert instanceLabel name).get? key = _
  rw [SortedMap.get?_insert, SortedMap.get?_insert, ite_or]
  rfl

theorem selects_labels_iff {name name' : String} :
    Selects (labels name) (podLabels name') ↔ name = name' := by
  constructor
  · intro h
    have hname := h nameLabel name (by rw [get?_labels, if_pos (.inr rfl)])
    rw [podLabels, SortedMap.get?_insert, if_neg (by decide), get?_labels, if_pos (.inr rfl)] at hname
    exact (Option.some.inj hname).symm
  · rintro rfl key value h
    rw [podLabels, SortedMap.get?_insert]
    split
    · rename_i hkey
      rw [get?_labels, hkey, if_neg (by decide)] at h
      cases h
    · exact h

section

variable {gatewayImage : String} {server : McpServer} {outputs : Outputs} {owner : OwnerReference}
  {transport : Transport} {image : String} {config : Config}

theorem binds_ofSpec {s : ServerSpec} {name : String} {jwks : Option Jwks}
    (h : Config.ofSpec s name transport jwks = .ok config) :
    config.binds.map Bind.port = [s.deployment.port] := by
  obtain ⟨ms, t, p, -, -, -, rfl⟩ := Config.ofSpec_ok h
  rfl

theorem targets_ofSpec {s : ServerSpec} {name : String} {jwks : Option Jwks}
    (h : Config.ofSpec s name transport jwks = .ok config) :
    ∃ t, target s name transport = .ok t ∧ config.targets = [t] := by
  obtain ⟨ms, t, p, ht, -, hroutes⟩ := Config.routes_ofSpec h
  exact ⟨t, ht, by rw [Config.targets, hroutes]; rfl⟩

theorem ports_runner (p : PodPlan) : (runner p).ports = some (gatewayPorts p.spec.deployment.port) := by
  rw [runner]
  cases p.transport <;> rfl

theorem reaches_plainServer {p : PodPlan} {name : String} {jwks : Option Jwks}
    (h : Config.ofSpec p.spec name .http jwks = .ok config) :
    Reaches p.spec.deployment.port config (plainServer p) := by
  obtain ⟨t, ht, htargets⟩ := targets_ofSpec h
  obtain ⟨m, hm, rfl⟩ := target_http ht
  obtain ⟨hport, hzero, hne⟩ := httpTargetPort_ok_iff.1 hm
  refine ⟨_, _, m, _, _, htargets, rfl, ?_, hzero, hne⟩
  rw [hport]
  exact toInt_port m

theorem Derived.consistent (d : Derived gatewayImage server outputs owner transport image config) :
    ∃ pod runner, outputs.pod? = some pod ∧ pod.container? (runnerName transport) = some runner ∧
      Consistent server outputs transport config pod runner := by
  have htext := d.text?
  obtain ⟨howner, hvalid, -, hconfig, rfl⟩ := d
  refine ⟨podSpec (podPlan gatewayImage server transport image),
    runner (podPlan gatewayImage server transport image), rfl, container?_runner _, ?_⟩
  constructor
  case ports =>
    refine ⟨(ServerSpec.validate_ok hvalid).1, binds_ofSpec hconfig, ?_, ?_⟩
    · exact ⟨_, _, rfl, rfl, toInt_port _, rfl⟩
    · exact ⟨_, ports_runner _, rfl, toInt_port _⟩
  case process =>
    rintro rfl
    exact ⟨_, rfl, reaches_plainServer hconfig⟩
  case hash =>
    refine ⟨_, htext, rfl, ?_⟩
    exact SortedMap.get?_insert_self .empty configHashKey _
  case deployment => exact outputMeta_ownedBy howner
  case service => exact outputMeta_ownedBy howner
  case configMap => exact outputMeta_ownedBy howner

end

end Gateway

/-- The objects that are derived from one server fit together: they go by one port, are marked with
one hash and belong to that server, and what selects pods selects those of the server's name and no
other. -/
theorem outputs_agree {S T : Type} {store : (c : Call) → S → c.Answer × S}
    {store' : (c : Call) → T → c.Answer × T} {s : S} {t : T} {gatewayImage gatewayImage' : String}
    {a b : McpServer} {outputs outputs' : Gateway.Outputs}
    (h : ((Gateway.derive gatewayImage a).run store s).1 = .ok outputs)
    (h' : ((Gateway.derive gatewayImage' b).run store' t).1 = .ok outputs') :
    (∃ transport config pod runner, a.spec.transport = .ok transport ∧
      outputs.text? = some (Yaml.render config.encode) ∧ outputs.pod? = some pod ∧
      pod.container? (Gateway.runnerName transport) = some runner ∧
      Gateway.Consistent a outputs transport config pod runner) ∧
    ∃ selector labels, outputs.serviceSelector? = some selector ∧
      outputs.deploymentSelector? = some selector ∧ outputs'.podLabels? = some labels ∧
      (Selects selector labels ↔ (Key.of .server a).name = (Key.of .server b).name) ∧
      ((Key.of .server a).name = (Key.of .server b).name →
        outputs'.serviceSelector? = some selector ∧ outputs'.deploymentSelector? = some selector) := by
  obtain ⟨owner, transport, image, config, d⟩ := Gateway.derived_of_derive h
  obtain ⟨owner', transport', image', config', d'⟩ := Gateway.derived_of_derive h'
  obtain ⟨pod, runner, hpod, hrunner, hconsistent⟩ := d.consistent
  refine ⟨⟨transport, config, pod, runner, d.transport_eq, d.text?, hpod, hrunner, hconsistent⟩, ?_⟩
  rw [d.outputs_eq, d'.outputs_eq]
  refine ⟨_, _, rfl, rfl, rfl, Gateway.selects_labels_iff, fun hname => ?_⟩
  rw [hname]
  exact ⟨rfl, rfl⟩

def namedServer (name : String) : McpServer where
  metadata := { Pass.echoServer.metadata with name := some name }
  spec := (exposedServer .stdio).spec
  status := none

theorem outputs_agree_exposed : ∃ outputs outputs' other selector labels labels',
    ((Gateway.derive "gateway:1" (exposedServer .http)).run Memory.answer tokenStore).1 =
      .ok outputs ∧
    ((Gateway.derive "gateway:2" (namedServer "echo")).run Memory.answer tokenStore).1 =
      .ok outputs' ∧
    ((Gateway.derive "gateway:1" (namedServer "other")).run Memory.answer tokenStore).1 = .ok other ∧
    (∃ config pod runner, pod.container? "agent-gateway" = some runner ∧
      Gateway.Consistent (exposedServer .http) outputs .http config pod runner) ∧
    outputs.serviceSelector? = some selector ∧ outputs'.podLabels? = some labels ∧
    other.podLabels? = some labels' ∧ Selects selector labels ∧ ¬ Selects selector labels' := by
  obtain ⟨outputs, houtputs⟩ : ∃ outputs, ((Gateway.derive "gateway:1" (exposedServer .http)).run
      Memory.answer tokenStore).1 = .ok outputs := ⟨_, rfl⟩
  obtain ⟨outputs', houtputs'⟩ : ∃ outputs, ((Gateway.derive "gateway:2" (namedServer "echo")).run
      Memory.answer tokenStore).1 = .ok outputs := ⟨_, rfl⟩
  obtain ⟨other, hother⟩ : ∃ outputs, ((Gateway.derive "gateway:1" (namedServer "other")).run
      Memory.answer tokenStore).1 = .ok outputs := ⟨_, rfl⟩
  obtain ⟨⟨transport, config, pod, runner, htransport, -, -, hrunner, hconsistent⟩, selector, labels,
    hselector, -, hlabels, hselects, -⟩ := outputs_agree houtputs houtputs'
  obtain ⟨-, selector', labels', hselector', -, hlabels', hselects', -⟩ := outputs_agree houtputs hother
  obtain rfl : Transport.http = transport := Except.ok.inj htransport
  obtain rfl : selector = selector' := Option.some.inj (hselector.symm.trans hselector')
  exact ⟨outputs, outputs', other, selector, labels, labels', houtputs, houtputs', hother,
    ⟨config, pod, runner, hrunner, hconsistent⟩, hselector, hlabels, hlabels', hselects.2 rfl,
    fun hsame => absurd (hselects'.1 hsame) (by decide)⟩

end McpOperator
