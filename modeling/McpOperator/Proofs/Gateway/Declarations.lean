import McpOperator.Proofs.Gateway.Mounts

namespace McpOperator

/-- The spec of the same server with what another deployment declares. -/
def ServerSpec.declaring (s : ServerSpec) (d : ServerDeployment) : ServerSpec :=
  { s with deployment := { d with
      image := s.deployment.image
      port := s.deployment.port
      cmd := s.deployment.cmd } }

namespace Gateway

/-- A list is given, or left out when it is empty. -/
structure Lists {α : Type} (o : Option (List α)) (as : List α) : Prop where
  items : o.getD [] = as
  ne_nil : o ≠ some []

theorem lists_iff {α : Type} {o : Option (List α)} {as : List α} : Lists o as ↔ o = nonemptyList as := by
  constructor
  · rintro ⟨rfl, hne⟩
    rcases o with _ | _ | _
    · rfl
    · exact absurd rfl hne
    · rfl
  · rintro rfl
    cases as with
    | nil => exact ⟨rfl, nofun⟩
    | cons => exact ⟨rfl, by simp [nonemptyList]⟩

theorem lists_cons {α : Type} (a : α) (as : List α) : Lists (some (a :: as)) (a :: as) := lists_iff.2 rfl

theorem lists_none {α : Type} : Lists (none : Option (List α)) [] := lists_iff.2 rfl

theorem lists_nonemptyList {α : Type} (as : List α) : Lists (nonemptyList as) as := lists_iff.2 rfl

structure Restricted (c : SecurityContext) : Prop where
  allowPrivilegeEscalation : c.allowPrivilegeEscalation = some false
  capabilities : c.capabilities = some { drop := some ["ALL"] }
  runAsNonRoot : c.runAsNonRoot = some true
  runAsUser : c.runAsUser = some 1000
  runAsGroup : c.runAsGroup = some 1000
  seccompProfile : c.seccompProfile = some { type := "RuntimeDefault" }
  privileged : c.privileged = none
  procMount : c.procMount = none
  readOnlyRootFilesystem : c.readOnlyRootFilesystem = none
  seLinuxOptions : c.seLinuxOptions = none
  windowsOptions : c.windowsOptions = none

theorem restricted_securityContext : Restricted securityContext :=
  ⟨rfl, rfl, rfl, rfl, rfl, rfl, rfl, rfl, rfl, rfl, rfl⟩

/-- What a container runs, and what it gets to see: all of it and no more. -/
structure Has (c : Container) (name image pullPolicy : String) (env : List (String × String))
    (envFrom : List EnvFrom) (mounts : List VolumeMount) : Prop where
  name_eq : c.name = name
  image_eq : c.image = some image
  pullPolicy_eq : c.imagePullPolicy = some pullPolicy
  env : Lists c.env (env.map fun e => { name := e.1, value := some e.2 })
  envFrom : Lists c.envFrom envFrom
  mounts : Lists c.volumeMounts mounts
  restricted : ∃ r, c.securityContext = some r ∧ Restricted r

def keyMounts (s : ServerSpec) : List VolumeMount :=
  (s.jwksSecret.map fun _ => { mountPath := "/jwks", name := "jwks" }).toList

/-- What the container of the server's process sees besides what the user declares. -/
def ownMounts (s : ServerSpec) : Transport → List VolumeMount
  | .stdio => { mountPath := "/config", name := "config" } ::
      { mountPath := "/agentbin", name := "binary" } :: keyMounts s
  | .http => []

/-- Where the parts of a pod come from, with the container of the server's process and those that run the
gateway alone. -/
structure Keeps (s : ServerSpec) (name image gatewayImage : String) (transport : Transport) (pod : PodSpec)
    (server : Container) (gateway init : Option Container) : Prop where
  containers : pod.containers = server :: gateway.toList ++ s.deployment.sidecars
  initContainers : pod.initContainers = init.map fun c => [c]
  gateway_isSome : gateway.isSome ↔ transport = .http
  init_isSome : init.isSome ↔ transport = .stdio
  volumes : pod.volumes = some (
    .ofConfigMap "config" name :: (if transport = .stdio then [.ofEmptyDir "binary"] else []) ++
    (s.jwksSecret.map fun ref => .ofSecret "jwks" ref.name).toList ++
    s.deployment.configMapRefs.map (fun r => .ofConfigMap ("cm-" ++ r.name) r.name) ++
    s.deployment.volumes)
  server_has : Has server "mcp-server" image s.deployment.pullPolicy s.deployment.env.entries
    (s.deployment.secretRefs.map (fun r => .ofSecret r.name) ++
      s.deployment.configMapRefs.map fun r => .ofConfigMap r.name)
    (ownMounts s transport ++
    s.deployment.configMapRefs.map (fun r =>
      { mountPath := "/etc/config/" ++ r.name, name := "cm-" ++ r.name, readOnly := some true }) ++
    s.deployment.volumeMounts)
  env_sorted : (server.env.getD []).Pairwise fun a b => a.name < b.name
  gateway_has : ∀ c ∈ gateway, Has c "agent-gateway" gatewayImage "IfNotPresent" [] []
    ({ mountPath := "/config", name := "config" } :: keyMounts s)
  init_has : ∀ c ∈ init, Has c "copy-binary" gatewayImage "IfNotPresent" [] []
    [{ mountPath := "/agentbin", name := "binary" }]

def serverContainer (p : PodPlan) : Container :=
  match p.transport with
  | .stdio => wrappedServer p
  | .http => plainServer p

def gateway? (p : PodPlan) : Option Container :=
  match p.transport with
  | .stdio => none
  | .http => some (gatewayContainer p)

def init? (p : PodPlan) : Option Container :=
  match p.transport with
  | .stdio => some (copyBinary p)
  | .http => none

theorem jwksMounts_eq (p : PodPlan) : jwksMounts p = keyMounts p.spec := by
  rw [jwksMounts, PodPlan.hasJwksSecret, keyMounts]
  cases p.spec.jwksSecret <;> rfl

def envFromRefs (d : ServerDeployment) : List EnvFrom :=
  d.secretRefs.map (fun r => .ofSecret r.name) ++ d.configMapRefs.map fun r => .ofConfigMap r.name

theorem has_copyBinary (p : PodPlan) : Has (copyBinary p) "copy-binary" p.gatewayImage "IfNotPresent" [] []
    [{ mountPath := "/agentbin", name := "binary" }] :=
  ⟨rfl, rfl, rfl, lists_none, lists_none, lists_cons _ _, _, rfl, restricted_securityContext⟩

theorem has_gatewayContainer (p : PodPlan) : Has (gatewayContainer p) "agent-gateway" p.gatewayImage
    "IfNotPresent" [] [] ({ mountPath := "/config", name := "config" } :: keyMounts p.spec) := by
  rw [← jwksMounts_eq]
  exact ⟨rfl, rfl, rfl, lists_none, lists_none, lists_cons _ _, _, rfl, restricted_securityContext⟩

theorem has_serverContainer (p : PodPlan) : Has (serverContainer p) "mcp-server" p.image
    p.spec.deployment.pullPolicy p.spec.deployment.env.entries (envFromRefs p.spec.deployment)
    (ownMounts p.spec p.transport ++ referredMounts p.spec.deployment ++ p.spec.deployment.volumeMounts) := by
  rw [List.append_assoc]
  cases htransport : p.transport with
  | stdio =>
      rw [serverContainer, htransport, ownMounts, ← jwksMounts_eq]
      exact ⟨rfl, rfl, rfl, lists_nonemptyList _, lists_nonemptyList _, lists_cons _ _, _, rfl,
        restricted_securityContext⟩
  | http =>
      rw [serverContainer, htransport, ownMounts, List.nil_append]
      exact ⟨rfl, rfl, rfl, lists_nonemptyList _, lists_nonemptyList _, lists_nonemptyList _, _, rfl,
        restricted_securityContext⟩

theorem env_serverContainer_sorted (p : PodPlan) :
    ((serverContainer p).env.getD []).Pairwise fun a b => a.name < b.name := by
  rw [(has_serverContainer p).env.items]
  exact p.spec.deployment.env.ascending.map _ fun _ _ hlt => hlt

theorem volumes_eq (p : PodPlan) : (podSpec p).volumes = some (
    .ofConfigMap "config" p.name :: (if p.transport = .stdio then [.ofEmptyDir "binary"] else []) ++
    (p.spec.jwksSecret.map fun ref => .ofSecret "jwks" ref.name).toList ++
    p.spec.deployment.configMapRefs.map (fun r => .ofConfigMap ("cm-" ++ r.name) r.name) ++
    p.spec.deployment.volumes) := by
  rw [volumes_podSpec, generatedVolumes]
  cases p.transport <;> cases p.spec.jwksSecret <;> rfl

theorem keeps_podSpec (p : PodPlan) : Keeps p.spec p.name p.image p.gatewayImage p.transport (podSpec p)
    (serverContainer p) (gateway? p) (init? p) where
  containers := by
    rw [podSpec, generatedContainers, serverContainer, gateway?]
    cases p.transport <;> rfl
  initContainers := by
    rw [podSpec, initContainers, init?]
    cases p.transport <;> rfl
  gateway_isSome := by
    rw [gateway?]
    cases p.transport <;> simp
  init_isSome := by
    rw [init?]
    cases p.transport <;> simp
  volumes := volumes_eq p
  server_has := has_serverContainer p
  env_sorted := env_serverContainer_sorted p
  gateway_has := by
    rw [gateway?]
    cases p.transport with
    | stdio => simp
    | http => simpa using has_gatewayContainer p
  init_has := by
    rw [init?]
    cases p.transport with
    | stdio => simpa using has_copyBinary p
    | http => simp

def PodPlan.declaring (p : PodPlan) (d : ServerDeployment) : PodPlan :=
  { p with spec := p.spec.declaring d }

theorem gateway?_declaring (p : PodPlan) (d : ServerDeployment) : gateway? (p.declaring d) = gateway? p := rfl

theorem init?_declaring (p : PodPlan) (d : ServerDeployment) : init? (p.declaring d) = init? p := rfl

end Gateway

/-- What a user declares is in the pod once, in its place and as it was declared: in the pod itself
and in the container of the server's process. The containers that run the gateway alone have no part
of it. -/
theorem pod_keeps_declarations {s : ServerSpec} {name : String} (h : s.validate name = .ok ())
    (gatewayImage : String) : ∃ transport image server gateway init,
      s.transport = .ok transport ∧ s.deployment.resolveImage name = .ok image ∧
      Gateway.Keeps s name image gatewayImage transport
        (Gateway.podSpec ⟨name, s, transport, image, gatewayImage⟩) server gateway init ∧
      (∀ d, ∃ other, Gateway.Keeps (s.declaring d) name image gatewayImage transport
        (Gateway.podSpec ⟨name, s.declaring d, transport, image, gatewayImage⟩) other gateway init) ∧
      ∀ {S : Type} (store : (c : Call) → S → c.Answer × S) (state : S) (owner : McpServer)
        (outputs : Gateway.Outputs), owner.spec = s → (Key.of .server owner).name = name →
        ((Gateway.derive gatewayImage owner).run store state).1 = .ok outputs →
        outputs.pod? = some (Gateway.podSpec ⟨name, s, transport, image, gatewayImage⟩) := by
  obtain ⟨-, transport, htransport, -⟩ := ServerSpec.validate_ok h
  obtain ⟨image, himage, -⟩ := bind_eq_ok_iff.1 h
  let p : Gateway.PodPlan := ⟨name, s, transport, image, gatewayImage⟩
  refine ⟨transport, image, Gateway.serverContainer p, Gateway.gateway? p, Gateway.init? p, htransport,
    himage, Gateway.keeps_podSpec p, fun d => ?_, ?_⟩
  · have hkeeps := Gateway.keeps_podSpec (p.declaring d)
    rw [Gateway.gateway?_declaring, Gateway.init?_declaring] at hkeeps
    exact ⟨_, hkeeps⟩
  · rintro S store state owner outputs rfl rfl hderive
    obtain ⟨plan, jwks, hplan, -, houtputs⟩ := Gateway.derive_inv hderive
    obtain ⟨_, _, _, -, -, htransport', himage', rfl⟩ := Gateway.Plan.of_inv hplan
    obtain rfl := Except.ok.inj (htransport.symm.trans htransport')
    obtain rfl := Except.ok.inj (himage.symm.trans himage')
    obtain ⟨config, -, rfl⟩ := Gateway.Plan.outputs_ok houtputs
    rfl

def furnishedSpec : ServerSpec :=
  { (exposedServer .http).spec with
    deployment := {
      image := some "echo:1"
      port := 3000
      cmd := some "echo"
      args := ["--verbose"]
      env := .ofList [("B", "2"), ("A", "1")]
      secretRefs := [⟨"token"⟩]
      configMapRefs := [⟨"settings"⟩]
      volumes := [.ofEmptyDir "data"]
      volumeMounts := [{ mountPath := "/data", name := "data" }]
      sidecars := [Container.named "log-shipper"]
      imagePullPolicy := some "Always" } }

theorem pod_keeps_declarations_furnished : ∃ pod server gateway init,
    Gateway.Keeps furnishedSpec "echo" "echo:1" "gateway:1" .http pod server (some gateway) init ∧
    pod.containers = [server, gateway, Container.named "log-shipper"] ∧
    server.env = some [{ name := "A", value := some "1" }, { name := "B", value := some "2" }] ∧
    gateway.env = none ∧
    server.imagePullPolicy = some "Always" ∧ gateway.imagePullPolicy = some "IfNotPresent" := by
  have hvalid : furnishedSpec.validate "echo" = .ok () := by decide
  obtain ⟨transport, image, server, gateway?, init, htransport, himage, hkeeps, -⟩ :=
    pod_keeps_declarations hvalid "gateway:1"
  obtain rfl : .http = transport := Except.ok.inj htransport
  obtain rfl : "echo:1" = image := Except.ok.inj himage
  obtain ⟨gateway, rfl⟩ := Option.isSome_iff_exists.1 (hkeeps.gateway_isSome.2 rfl)
  have hserver := hkeeps.server_has
  have hgateway := hkeeps.gateway_has gateway rfl
  exact ⟨_, server, gateway, init, hkeeps, hkeeps.containers, Gateway.lists_iff.1 hserver.env,
    Gateway.lists_iff.1 hgateway.env, hserver.pullPolicy_eq, hgateway.pullPolicy_eq⟩

end McpOperator
