import McpOperator.Proofs.Reconcile.Steps

namespace McpOperator.Gateway

variable {m m' : Memory} {gatewayImage : String} {server : McpServer}

/-- Reads of secrets are answered alike. -/
def SameSecrets (m m' : Memory) : Prop :=
  ∀ key : Key, key.kind = .secret → m'.get key = m.get key

theorem run_resolveJwks (spec : ServerSpec) (ns : String) :
    (∃ r, ∀ m, (resolveJwks spec ns).run Memory.answer m = (r, m)) ∨
      ∃ ref : SecretKeyRef, ∀ m, (resolveJwks spec ns).run Memory.answer m =
        (jwksOfSecret ⟨.secret, ns, ref.name⟩ ref (m.get ⟨.secret, ns, ref.name⟩), m) := by
  rw [resolveJwks]
  split
  · exact .inl ⟨_, fun _ => rfl⟩
  · split
    · exact .inr ⟨_, fun _ => rfl⟩
    · split
      · exact .inl ⟨_, fun _ => rfl⟩
      · exact .inl ⟨_, fun _ => rfl⟩

theorem run_derive_of_plan {S : Type} {store : (c : Call) → S → c.Answer × S} {s : S} {plan : Plan}
    (h : Plan.of gatewayImage server = .ok plan) :
    (derive gatewayImage server).run store s =
      (((resolveJwks server.spec plan.key.ns).run store s).1.bind plan.outputs,
        ((resolveJwks server.spec plan.key.ns).run store s).2) := by
  rw [derive, h]
  apply (Work.run_bind store _ _ s).trans
  cases ((resolveJwks server.spec plan.key.ns).run store s).1 <;> rfl

theorem run_derive_fst {S : Type} (store : (c : Call) → S → c.Answer × S) (s : S) (gatewayImage : String)
    (server : McpServer) : ((derive gatewayImage server).run store s).1 =
      Plan.of gatewayImage server >>= fun plan =>
        ((resolveJwks server.spec plan.key.ns).run store s).1 >>= plan.outputs := by
  cases hplan : Plan.of gatewayImage server with
  | error e =>
      rw [derive, hplan]
      rfl
  | ok plan =>
      rw [run_derive_of_plan hplan]
      rfl

theorem run_derive_eq (gatewayImage : String) (server : McpServer) (m : Memory) :
    (derive gatewayImage server).run Memory.answer m =
      ((Plan.of gatewayImage server).bind fun plan =>
        ((resolveJwks server.spec plan.key.ns).run Memory.answer m).1.bind plan.outputs, m) := by
  cases hplan : Plan.of gatewayImage server with
  | error e =>
      rw [derive, hplan]
      rfl
  | ok plan =>
      have hrests : ((resolveJwks server.spec plan.key.ns).run Memory.answer m).2 = m := by
        rcases run_resolveJwks server.spec plan.key.ns with ⟨r, hrun⟩ | ⟨ref, hrun⟩ <;> rw [hrun]
      rw [run_derive_of_plan hplan, hrests]
      rfl

theorem derive_rests (gatewayImage : String) (server : McpServer) (m : Memory) :
    ∃ r, (derive gatewayImage server).run Memory.answer m = (r, m) :=
  ⟨_, run_derive_eq gatewayImage server m⟩

theorem eq_of_run_derive {r : Except OutputError Outputs}
    (h : (derive gatewayImage server).run Memory.answer m = (r, m')) : m' = m := by
  rw [run_derive_eq] at h
  exact (Prod.mk.inj h).2.symm

theorem Plan.of_congr (gatewayImage : String) {server server' : McpServer}
    (hspec : server'.spec = server.spec) (hkey : Key.of .server server' = Key.of .server server)
    (howner : owner? server' = owner? server) :
    Plan.of gatewayImage server' = Plan.of gatewayImage server := by
  rw [Plan.of, Plan.of, hkey, howner, hspec]

/-- The same is derived from a server with the same spec and identity, where the same is answered. -/
theorem run_derive (gatewayImage : String) {server server' : McpServer}
    (hspec : server'.spec = server.spec) (hkey : Key.of .server server' = Key.of .server server)
    (howner : owner? server' = owner? server) (h : SameSecrets m m') :
    ∃ r, (derive gatewayImage server).run Memory.answer m = (r, m) ∧
      (derive gatewayImage server').run Memory.answer m' = (r, m') := by
  refine ⟨_, run_derive_eq gatewayImage server m, ?_⟩
  rw [run_derive_eq, Plan.of_congr gatewayImage hspec hkey howner, hspec]
  congr
  funext plan
  rcases run_resolveJwks server.spec plan.key.ns with ⟨r, hrun⟩ | ⟨ref, hrun⟩
  · rw [hrun, hrun]
  · rw [hrun, hrun, h _ rfl]

theorem plan_of_run_derive {outputs : Outputs}
    (h : (derive gatewayImage server).run Memory.answer m = (.ok outputs, m)) :
    ∃ plan, Plan.of gatewayImage server = .ok plan ∧
      ((resolveJwks server.spec plan.key.ns).run Memory.answer m).1.bind plan.outputs = .ok outputs := by
  rw [run_derive_eq] at h
  cases hplan : Plan.of gatewayImage server with
  | error e =>
      rw [hplan] at h
      cases h
  | ok plan =>
      rw [hplan] at h
      exact ⟨plan, rfl, (Prod.mk.inj h).1⟩

theorem run_derive_of_ok {server' : McpServer} (hspec : server'.spec = server.spec)
    (hkey : Key.of .server server' = Key.of .server server) (howner : owner? server' = owner? server)
    {outputs : Outputs} (hrun : (derive gatewayImage server).run Memory.answer m = (.ok outputs, m))
    (h : ∀ key : Key, key.kind = .secret → m'.get key = m.get key ∨ ∃ e, m.get key = .error e) :
    (derive gatewayImage server').run Memory.answer m' = (.ok outputs, m') := by
  obtain ⟨plan, hplan, houtputs⟩ := plan_of_run_derive hrun
  rw [run_derive_eq, Plan.of_congr gatewayImage hspec hkey howner, hspec, hplan]
  refine congrArg (·, m') (Eq.trans ?_ houtputs)
  change ((resolveJwks server.spec plan.key.ns).run Memory.answer m').1.bind plan.outputs = _
  rcases run_resolveJwks server.spec plan.key.ns with ⟨r, hjwks⟩ | ⟨ref, hjwks⟩
  · rw [hjwks, hjwks]
  · rw [hjwks] at houtputs ⊢
    rw [hjwks]
    rcases h ⟨.secret, plan.key.ns, ref.name⟩ rfl with heq | ⟨e, he⟩
    · rw [heq]
    · rw [he] at houtputs
      cases houtputs

def Outputs.ofPlan (plan : Plan) (content : String) : Outputs where
  deployment := Gateway.deployment plan.key plan.owner plan.pod (Gateway.configHash content)
  service := Gateway.service plan.key plan.owner plan.pod.spec.deployment.port
  configMap := Gateway.configMap plan.key plan.owner content
  configHash := Gateway.configHash content

theorem Plan.outputs_ok {plan : Plan} {jwks : Option Jwks} {outputs : Outputs}
    (h : plan.outputs jwks = .ok outputs) :
    ∃ config, Config.ofSpec plan.pod.spec plan.key.name plan.pod.transport jwks = .ok config ∧
      outputs = .ofPlan plan (Yaml.render config.encode) := by
  rw [Plan.outputs] at h
  cases hconfig : Config.ofSpec plan.pod.spec plan.key.name plan.pod.transport jwks with
  | error e =>
      rw [hconfig] at h
      cases h
  | ok config =>
      rw [hconfig] at h
      cases h
      exact ⟨config, rfl, rfl⟩

theorem Plan.of_inv {plan : Plan} (h : Plan.of gatewayImage server = .ok plan) :
    ∃ owner transport image, owner? server = some owner ∧
      server.spec.validate (Key.of .server server).name = .ok () ∧
      server.spec.transport = .ok transport ∧
      server.spec.deployment.resolveImage (Key.of .server server).name = .ok image ∧
      plan = ⟨Key.of .server server, owner,
        ⟨(Key.of .server server).name, server.spec, transport, image, gatewayImage⟩⟩ := by
  rw [Plan.of] at h
  split at h
  · rename_i owner howner
    obtain ⟨_, ⟨⟩, h⟩ := bind_eq_ok_iff.1 h
    obtain ⟨⟨⟩, hvalid, h⟩ := bind_eq_ok_iff.1 h
    obtain ⟨transport, htransport, h⟩ := bind_eq_ok_iff.1 h
    obtain ⟨image, himage, h⟩ := bind_eq_ok_iff.1 h
    exact ⟨owner, transport, image, howner, mapError_eq_ok_iff.1 hvalid,
      mapError_eq_ok_iff.1 htransport, mapError_eq_ok_iff.1 himage, (Except.ok.inj h).symm⟩
  · cases h

theorem Plan.of_ok {plan : Plan} (h : Plan.of gatewayImage server = .ok plan) :
    plan.key = Key.of .server server := by
  obtain ⟨owner, transport, image, -, -, -, -, rfl⟩ := Plan.of_inv h
  rfl

theorem derive_ok {outputs : Outputs}
    (h : (derive gatewayImage server).run Memory.answer m = (.ok outputs, m)) :
    ∃ plan content, plan.key = Key.of .server server ∧ outputs = .ofPlan plan content := by
  obtain ⟨plan, hplan, houtputs⟩ := plan_of_run_derive h
  cases hjwks : ((resolveJwks server.spec plan.key.ns).run Memory.answer m).1 with
  | error e =>
      rw [hjwks] at houtputs
      cases houtputs
  | ok jwks =>
      rw [hjwks] at houtputs
      obtain ⟨config, -, hcontent⟩ := Plan.outputs_ok houtputs
      exact ⟨plan, _, Plan.of_ok hplan, hcontent⟩

namespace Outputs

variable (plan : Plan) (content : String)

theorem keys_steps : (Pass.steps (ofPlan plan content)).map Pass.Step.key =
    [⟨.deployment, plan.key.ns, plan.key.name⟩, ⟨.service, plan.key.ns, plan.key.name⟩,
      ⟨.configMap, plan.key.ns, plan.key.name⟩] := rfl

theorem nodup_keys_steps : ((Pass.steps (ofPlan plan content)).map Pass.Step.key).Nodup := by
  simp [keys_steps]

theorem versions_steps :
    ∀ s ∈ Pass.steps (ofPlan plan content), s.kind.resourceVersion s.object = none := by
  simp [Pass.steps]
  exact ⟨rfl, rfl, rfl⟩

end Outputs

end McpOperator.Gateway
