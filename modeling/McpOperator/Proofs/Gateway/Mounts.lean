import McpOperator.Proofs.Gateway.Outputs

namespace McpOperator

def Container.mounts (c : Container) : List VolumeMount := c.volumeMounts.getD []

namespace PodSpec

variable (p : PodSpec)

/-- The container of a name. The first counts. -/
def container? (name : String) : Option Container := p.containers.find? (·.name = name)

def volume? (name : String) : Option Volume := (p.volumes.getD []).find? (·.name = name)

/-- The volume that a container sees as a whole at a path. -/
def at? (c : Container) (path : String) : Option Volume := do
  let m ← c.mounts.find? (·.mountPath = path)
  if m.subPath = none then p.volume? m.name else none

end PodSpec

namespace Gateway

def Outputs.pod? (o : Outputs) : Option PodSpec := o.deployment.spec.bind (·.template.spec)

def Config.jwks (c : Config) : List Jwks :=
  c.routes.flatMap fun route => ((route.policies.bind Policies.jwtAuth).map JwtAuth.jwks).toList

def runnerName : Transport → String
  | .stdio => "mcp-server"
  | .http => "agent-gateway"

def declaredMounts (d : ServerDeployment) (c : Container) : List VolumeMount :=
  if c.name = "mcp-server" then d.volumeMounts else []

/-- A container is told to read a file of a config map, which it sees under `/config`. -/
structure FindsConfig (configMap : ConfigMap) (content : String) (pod : PodSpec) (runner : Container) :
    Prop where
  volume : ∃ name, configMap.metadata.name = some name ∧
    pod.at? runner "/config" = some (.ofConfigMap "config" name)
  file : ∃ file, runner.args = some ["-f", "/config/" ++ file] ∧
    configMap.data.bind (·.get? file) = some content

/-- A container runs what another one has copied to a volume that both see at the same path. -/
def SharesBinary (pod : PodSpec) (runner : Container) : Prop :=
  ∃ init dir file name, pod.initContainers = some [init] ∧
    init.args = some ["--copy-self", dir ++ "/" ++ file] ∧ runner.command = some [dir ++ "/" ++ file] ∧
    pod.at? init dir = some (.ofEmptyDir name) ∧ pod.at? runner dir = some (.ofEmptyDir name)

/-- A path is that of the key that the server refers to, in a secret that has it. -/
def SeesKey {S : Type} (store : (c : Call) → S → c.Answer × S) (s : S) (server : McpServer)
    (pod : PodSpec) (runner : Container) (path : String) : Prop :=
  ∃ ref secret, server.spec.jwksSecret = some ref ∧ path = "/jwks/" ++ ref.key ∧
    pod.at? runner "/jwks" = some (.ofSecret "jwks" ref.name) ∧
    (store (.get ⟨.secret, (Key.of .server server).ns, ref.name⟩) s).1 = .ok (some secret) ∧
    secret.holds ref.key = true

/-- The pod of a server has what the configuration of its gateway refers to, in volumes and containers
that stand before those the user declares. -/
structure Provides {S : Type} (store : (c : Call) → S → c.Answer × S) (s : S) (server : McpServer)
    (transport : Transport) (configMap : ConfigMap) (config : Config) (pod : PodSpec)
    (volumes : List Volume) (containers : List Container) (runner : Container) : Prop where
  volumes_eq : pod.volumes = some (volumes ++ server.spec.deployment.volumes)
  containers_eq : pod.containers = containers ++ server.spec.deployment.sidecars
  unique : ∀ v ∈ volumes, ∀ w ∈ volumes, v.name = w.name → v = w
  runner_mem : runner ∈ containers
  runner_eq : pod.container? (runnerName transport) = some runner
  finds : FindsConfig configMap (Yaml.render config.encode) pod runner
  shares : transport = .stdio → SharesBinary pod runner
  secret : (∃ v ∈ volumes, v.name = "jwks") ↔ server.spec.jwksSecret.isSome = true
  keys : (∃ j ∈ config.jwks, j.file.isSome = true) ↔ ∃ v ∈ volumes, v.name = "jwks"
  sees : ∀ j ∈ config.jwks, ∀ path ∈ j.file, SeesKey store s server pod runner path
  process : transport = .http → ∃ c mounts, pod.container? "mcp-server" = some c ∧
    c.mounts = mounts ++ server.spec.deployment.volumeMounts ∧
    ∀ m ∈ mounts, m.name ≠ "config" ∧ m.name ≠ "jwks"
  mounts : ∀ c ∈ pod.initContainers.getD [] ++ containers, ∃ mounts,
    c.mounts = mounts ++ declaredMounts server.spec.deployment c ∧
    ∀ m ∈ mounts, ∃ v ∈ volumes, pod.volume? m.name = some v

section Pod

variable {p : PodPlan}

def generatedVolumes (p : PodPlan) : List Volume :=
  [.ofConfigMap configVolume p.name] ++
    (match p.transport with
      | .stdio => [.ofEmptyDir binaryVolume]
      | .http => []) ++
    (match p.spec.jwksSecret with
      | some secret => [.ofSecret jwksVolume secret.name]
      | none => []) ++
    p.spec.deployment.configMapRefs.map fun r => .ofConfigMap (configMapVolume r.name) r.name

theorem volumes_podSpec (p : PodPlan) :
    (podSpec p).volumes = some (generatedVolumes p ++ p.spec.deployment.volumes) := rfl

def runner (p : PodPlan) : Container :=
  match p.transport with
  | .stdio => wrappedServer p
  | .http => gatewayContainer p

theorem container?_runner (p : PodPlan) :
    (podSpec p).container? (runnerName p.transport) = some (runner p) := by
  obtain ⟨name, spec, _ | _, image, gatewayImage⟩ := p <;> rfl

theorem runner_mem (p : PodPlan) : runner p ∈ generatedContainers p := by
  rw [runner, generatedContainers]
  cases p.transport <;> simp

theorem volume?_generated {name : String} (h : ∃ v ∈ generatedVolumes p, v.name = name) :
    ∃ v ∈ generatedVolumes p, (podSpec p).volume? name = some v := by
  -- A volume of the user with the same name comes later and does not count.
  rw [PodSpec.volume?, volumes_podSpec, Option.getD_some, List.find?_append]
  cases hfind : (generatedVolumes p).find? (·.name = name) with
  | some v => exact ⟨v, List.mem_of_find?_eq_some hfind, rfl⟩
  | none =>
      obtain ⟨v, hv, hname⟩ := h
      exact absurd (decide_eq_true hname) (List.find?_eq_none.1 hfind v hv)

theorem at?_config (p : PodPlan) :
    (podSpec p).at? (runner p) "/config" = some (.ofConfigMap "config" p.name) := by
  obtain ⟨name, spec, _ | _, image, gatewayImage⟩ := p <;> rfl

theorem args_runner (p : PodPlan) : (runner p).args = some ["-f", "/config/" ++ configFile] := by
  rw [runner]
  cases p.transport <;> rfl

theorem sharesBinary (h : p.transport = .stdio) : SharesBinary (podSpec p) (runner p) := by
  obtain ⟨name, spec, transport, image, gatewayImage⟩ := p
  obtain rfl : transport = .stdio := h
  exact ⟨copyBinary ⟨name, spec, .stdio, image, gatewayImage⟩, "/agentbin", "agentgateway", "binary",
    rfl, rfl, rfl, rfl, rfl⟩

theorem jwksMounts_of_secret {ref : SecretKeyRef} (h : p.spec.jwksSecret = some ref) :
    jwksMounts p = [mount "jwks" "/jwks"] := by
  rw [jwksMounts, PodPlan.hasJwksSecret, h]
  rfl

theorem volume?_jwks {ref : SecretKeyRef} (h : p.spec.jwksSecret = some ref) :
    (podSpec p).volume? "jwks" = some (.ofSecret "jwks" ref.name) := by
  rw [PodSpec.volume?, volumes_podSpec, generatedVolumes, h]
  cases p.transport <;> rfl

theorem at?_jwks {ref : SecretKeyRef} (h : p.spec.jwksSecret = some ref) :
    (podSpec p).at? (runner p) "/jwks" = some (.ofSecret "jwks" ref.name) := by
  have hmount : (runner p).mounts.find? (·.mountPath = "/jwks") = some (mount "jwks" "/jwks") := by
    rw [runner]
    cases p.transport
    · rw [wrappedServer, Container.mounts, jwksMounts_of_secret h]
      rfl
    · rw [gatewayContainer, Container.mounts, jwksMounts_of_secret h]
      rfl
  rw [PodSpec.at?, hmount]
  exact volume?_jwks h

theorem configMapVolume_ne (configMap : String) {name : String} (h : ¬ "cm-".toList <+: name.toList) :
    configMapVolume configMap ≠ name := by
  rintro rfl
  exact h (by simp [configMapVolume])

theorem configMapVolume_injective : Function.Injective configMapVolume := by
  intro a b h
  simpa [configMapVolume] using h

theorem mem_generatedVolumes {v : Volume} : v ∈ generatedVolumes p ↔
    v = .ofConfigMap "config" p.name ∨ p.transport = .stdio ∧ v = .ofEmptyDir "binary" ∨
      (∃ ref, p.spec.jwksSecret = some ref ∧ v = .ofSecret "jwks" ref.name) ∨
      ∃ r ∈ p.spec.deployment.configMapRefs, v = .ofConfigMap (configMapVolume r.name) r.name := by
  rw [generatedVolumes]
  cases p.transport <;> cases p.spec.jwksSecret <;>
    simp [configVolume, binaryVolume, jwksVolume, eq_comm]

theorem generatedVolumes_unique {v w : Volume} (hv : v ∈ generatedVolumes p)
    (hw : w ∈ generatedVolumes p) (h : v.name = w.name) : v = w := by
  have hconfig : ∀ configMap, configMapVolume configMap ≠ "config" :=
    fun configMap => configMapVolume_ne configMap (by decide)
  have hbinary : ∀ configMap, configMapVolume configMap ≠ "binary" :=
    fun configMap => configMapVolume_ne configMap (by decide)
  have hjwks : ∀ configMap, configMapVolume configMap ≠ "jwks" :=
    fun configMap => configMapVolume_ne configMap (by decide)
  -- The names of the four sorts differ, so both are of one sort.
  rcases mem_generatedVolumes.1 hv with rfl | ⟨-, rfl⟩ | ⟨ref, href, rfl⟩ | ⟨r, -, rfl⟩ <;>
    rcases mem_generatedVolumes.1 hw with rfl | ⟨-, rfl⟩ | ⟨ref', href', rfl⟩ | ⟨r', -, rfl⟩ <;>
    simp_all [Volume.ofConfigMap, Volume.ofEmptyDir, Volume.ofSecret, eq_comm,
      configMapVolume_injective.eq_iff]

theorem exists_jwksVolume_iff :
    (∃ v ∈ generatedVolumes p, v.name = "jwks") ↔ p.spec.jwksSecret.isSome = true := by
  constructor
  · rintro ⟨v, hv, hname⟩
    rcases mem_generatedVolumes.1 hv with rfl | ⟨-, rfl⟩ | ⟨ref, href, rfl⟩ | ⟨r, -, rfl⟩
    · exact absurd hname (by decide : "config" ≠ "jwks")
    · exact absurd hname (by decide : "binary" ≠ "jwks")
    · exact Option.isSome_iff_exists.2 ⟨ref, href⟩
    · exact absurd hname (configMapVolume_ne r.name (by decide))
  · intro h
    obtain ⟨ref, href⟩ := Option.isSome_iff_exists.1 h
    exact ⟨_, mem_generatedVolumes.2 (.inr (.inr (.inl ⟨ref, href, rfl⟩))), rfl⟩

def Backed (p : PodPlan) (m : VolumeMount) : Prop := ∃ v ∈ generatedVolumes p, v.name = m.name

theorem backed_config (p : PodPlan) : Backed p (mount configVolume configPath) :=
  ⟨_, mem_generatedVolumes.2 (.inl rfl), rfl⟩

theorem backed_binary (h : p.transport = .stdio) : Backed p (mount binaryVolume binaryPath) :=
  ⟨_, mem_generatedVolumes.2 (.inr (.inl ⟨h, rfl⟩)), rfl⟩

theorem backed_jwks : ∀ m ∈ jwksMounts p, Backed p m := by
  rw [jwksMounts]
  split
  · rename_i hsecret
    exact List.forall_mem_singleton.2 (exists_jwksVolume_iff.2 hsecret)
  · simp

def referredMounts (d : ServerDeployment) : List VolumeMount :=
  d.configMapRefs.map fun r => configMapMount r.name

theorem backed_referred : ∀ m ∈ referredMounts p.spec.deployment, Backed p m := by
  intro m hm
  obtain ⟨r, hr, rfl⟩ := List.mem_map.1 hm
  exact ⟨_, mem_generatedVolumes.2 (.inr (.inr (.inr ⟨r, hr, rfl⟩))), rfl⟩

theorem getD_nonemptyList {α : Type} (as : List α) : (nonemptyList as).getD [] = as := by
  cases as <;> rfl

theorem mounts_copyBinary (p : PodPlan) : (copyBinary p).mounts = [mount binaryVolume binaryPath] := rfl

theorem mounts_gatewayContainer (p : PodPlan) :
    (gatewayContainer p).mounts = mount configVolume configPath :: jwksMounts p := rfl

theorem mounts_plainServer (p : PodPlan) : (plainServer p).mounts =
    referredMounts p.spec.deployment ++ p.spec.deployment.volumeMounts :=
  getD_nonemptyList _

theorem mounts_wrappedServer (p : PodPlan) : (wrappedServer p).mounts =
    [mount configVolume configPath, mount binaryVolume binaryPath] ++ jwksMounts p ++
      referredMounts p.spec.deployment ++ p.spec.deployment.volumeMounts := by
  rw [List.append_assoc]
  rfl

theorem plainServer_apart (h : p.transport = .http) :
    ∃ c mounts, (podSpec p).container? "mcp-server" = some c ∧
      c.mounts = mounts ++ p.spec.deployment.volumeMounts ∧
      ∀ m ∈ mounts, m.name ≠ "config" ∧ m.name ≠ "jwks" := by
  refine ⟨plainServer p, referredMounts p.spec.deployment, ?_, mounts_plainServer p, ?_⟩
  · rw [PodSpec.container?, podSpec, generatedContainers, h]
    rfl
  · intro m hm
    obtain ⟨r, -, rfl⟩ := List.mem_map.1 hm
    exact ⟨configMapVolume_ne r.name (by decide), configMapVolume_ne r.name (by decide)⟩

theorem backed_mounts : ∀ c ∈ initContainers p ++ generatedContainers p, ∃ mounts,
    c.mounts = mounts ++ declaredMounts p.spec.deployment c ∧ ∀ m ∈ mounts, Backed p m := by
  rw [initContainers, generatedContainers]
  cases htransport : p.transport with
  | stdio =>
      have hbinary := backed_binary htransport
      have hinit : ∀ m ∈ [mount binaryVolume binaryPath], Backed p m :=
        List.forall_mem_singleton.2 hbinary
      have hserver : ∀ m ∈ [mount configVolume configPath, mount binaryVolume binaryPath] ++
          jwksMounts p ++ referredMounts p.spec.deployment, Backed p m := by
        rw [List.forall_mem_append, List.forall_mem_append, List.forall_mem_cons]
        exact ⟨⟨⟨backed_config p, hinit⟩, backed_jwks⟩, backed_referred⟩
      refine List.forall_mem_cons.2 ⟨?_, List.forall_mem_singleton.2 ?_⟩
      · exact ⟨_, (mounts_copyBinary p).trans (List.append_nil _).symm, hinit⟩
      · exact ⟨_, mounts_wrappedServer p, hserver⟩
  | http =>
      have hgateway : ∀ m ∈ mount configVolume configPath :: jwksMounts p, Backed p m :=
        List.forall_mem_cons.2 ⟨backed_config p, backed_jwks⟩
      refine List.forall_mem_cons.2 ⟨?_, List.forall_mem_singleton.2 ?_⟩
      · exact ⟨_, mounts_plainServer p, backed_referred⟩
      · exact ⟨_, (mounts_gatewayContainer p).trans (List.append_nil _).symm, hgateway⟩

end Pod

theorem jwks_ofSpec {s : ServerSpec} {name : String} {transport : Transport} {config : Config}
    (h : Config.ofSpec s name transport (s.jwt.map fun j => j.source.jwks) = .ok config) :
    config.jwks = (s.jwt.map fun j => j.source.jwks).toList := by
  obtain ⟨ms, t, p, -, hp, hroutes⟩ := Config.routes_ofSpec h
  obtain ⟨hjwt, -⟩ := bind_policies hp
  rw [Config.jwks, hroutes, List.flatMap_singleton, hjwt, allPolicies, Option.map_map]
  rfl

theorem file_jwks_ofSpec {s : ServerSpec} {name : String} {transport : Transport} {config : Config}
    (h : Config.ofSpec s name transport (s.jwt.map fun j => j.source.jwks) = .ok config) (path : String) :
    (∃ j ∈ config.jwks, j.file = some path) ↔
      ∃ ref, s.jwksSecret = some ref ∧ path = "/jwks/" ++ ref.key := by
  rw [jwks_ofSpec h, ServerSpec.jwksSecret]
  cases s.jwt with
  | none => simp
  | some j =>
      cases href : j.jwksRef with
      | none => simp [JwtSpec.source, href, JwksSource.jwks, Jwks.ofText]
      | some ref =>
          simp [JwtSpec.source, href, JwksSource.jwks, Jwks.ofFile, jwksFile, jwksPath, eq_comm]

theorem exists_file_iff {s : ServerSpec} {name : String} {transport : Transport} {config : Config}
    (h : Config.ofSpec s name transport (s.jwt.map fun j => j.source.jwks) = .ok config) :
    (∃ j ∈ config.jwks, j.file.isSome = true) ↔ s.jwksSecret.isSome = true := by
  simp only [Option.isSome_iff_exists]
  constructor
  · rintro ⟨j, hj, path, hpath⟩
    obtain ⟨ref, href, -⟩ := (file_jwks_ofSpec h path).1 ⟨j, hj, hpath⟩
    exact ⟨ref, href⟩
  · rintro ⟨ref, href⟩
    obtain ⟨j, hj, hpath⟩ := (file_jwks_ofSpec h _).2 ⟨ref, href, rfl⟩
    exact ⟨j, hj, _, hpath⟩

theorem Derived.provides {S : Type} {store : (c : Call) → S → c.Answer × S} {s : S}
    {gatewayImage : String} {server : McpServer} {outputs : Outputs} {owner : OwnerReference}
    {transport : Transport} {image : String} {config : Config} {p : PodPlan}
    (d : Derived gatewayImage server outputs owner transport image config)
    (hp : p = podPlan gatewayImage server transport image)
    (hsecret : ∀ ref, server.spec.jwksSecret = some ref → ∃ secret : Secret,
      (store (.get ⟨.secret, (Key.of .server server).ns, ref.name⟩) s).1 = .ok (some secret) ∧
        secret.holds ref.key = true) :
    Provides store s server transport outputs.configMap config (podSpec p) (generatedVolumes p)
      (generatedContainers p) (runner p) := by
  have hspec : p.spec = server.spec := by rw [hp, podPlan]
  have htransport : p.transport = transport := by rw [hp, podPlan]
  constructor
  case volumes_eq => rw [← hspec, volumes_podSpec]
  case containers_eq => rw [← hspec, podSpec]
  case unique => exact fun v hv w hw => generatedVolumes_unique hv hw
  case runner_mem => exact runner_mem p
  case runner_eq => rw [← htransport, container?_runner]
  case finds =>
    refine ⟨⟨p.name, ?_, at?_config p⟩, ⟨_, args_runner p, d.text?⟩⟩
    rw [d.outputs_eq, hp]
    rfl
  case shares => exact fun hstdio => sharesBinary (htransport.trans hstdio)
  case secret => rw [← hspec, exists_jwksVolume_iff]
  case keys => rw [exists_file_iff d.config_eq, exists_jwksVolume_iff, hspec]
  case sees =>
    intro j hj path hpath
    obtain ⟨ref, href, hkey⟩ := (file_jwks_ofSpec d.config_eq path).1 ⟨j, hj, hpath⟩
    obtain ⟨secret, hread, hholds⟩ := hsecret ref href
    exact ⟨ref, secret, href, hkey, at?_jwks (hspec ▸ href), hread, hholds⟩
  case process =>
    intro hhttp
    rw [← hspec]
    exact plainServer_apart (htransport.trans hhttp)
  case mounts =>
    rw [← hspec, podSpec, getD_nonemptyList]
    intro c hc
    obtain ⟨mounts, hmounts, hbacked⟩ := backed_mounts c hc
    exact ⟨mounts, hmounts, fun m hm => volume?_generated (hbacked m hm)⟩

end Gateway

/-- What the gateway is pointed to is there in its pod: its configuration, its binary and the keys of
the tokens are mounted where they are looked for. -/
theorem pod_provides_config {S : Type} {store : (c : Call) → S → c.Answer × S} {s : S}
    {gatewayImage : String} {server : McpServer} {outputs : Gateway.Outputs}
    (h : ((Gateway.derive gatewayImage server).run store s).1 = .ok outputs) :
    ∃ transport config pod volumes containers runner, server.spec.transport = .ok transport ∧
      outputs.text? = some (Yaml.render config.encode) ∧ outputs.pod? = some pod ∧
      Gateway.Provides store s server transport outputs.configMap config pod volumes containers
        runner := by
  obtain ⟨owner, transport, image, config, d⟩ := Gateway.derived_of_derive h
  have hprovides := d.provides rfl fun ref href => Gateway.holds_of_derive h href
  refine ⟨transport, config, _, _, _, _, d.transport_eq, d.text?, ?_, hprovides⟩
  rw [d.outputs_eq]
  rfl

theorem pod_provides_config_exposed : ∃ outputs pod runner path,
    ((Gateway.derive "gateway:1" (exposedServer .stdio)).run Memory.answer tokenStore).1 =
      .ok outputs ∧
    outputs.pod? = some pod ∧ pod.container? "mcp-server" = some runner ∧
    Gateway.SharesBinary pod runner ∧
    Gateway.SeesKey Memory.answer tokenStore (exposedServer .stdio) pod runner path := by
  obtain ⟨outputs, houtputs⟩ : ∃ outputs, ((Gateway.derive "gateway:1" (exposedServer .stdio)).run
      Memory.answer tokenStore).1 = .ok outputs := ⟨_, rfl⟩
  obtain ⟨transport, config, pod, volumes, containers, runner, htransport, -, hpod, hprovides⟩ :=
    pod_provides_config houtputs
  obtain rfl : Transport.stdio = transport := Except.ok.inj htransport
  obtain ⟨j, hj, hfile⟩ := hprovides.keys.2 (hprovides.secret.2 rfl)
  obtain ⟨path, hpath⟩ := Option.isSome_iff_exists.1 hfile
  exact ⟨outputs, pod, runner, path, houtputs, hpod, hprovides.runner_eq, hprovides.shares rfl,
    hprovides.sees j hj path hpath⟩

end McpOperator
