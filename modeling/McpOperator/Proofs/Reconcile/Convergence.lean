import McpOperator.Proofs.Reconcile.Pass

namespace McpOperator

/-- An object is stored with its digest on it and with all that is asked of it. -/
def InPlace (m : Memory) (kind : Kind) (o : kind.Object) : Prop :=
  ∃ json, m.objects.get? (Key.of kind o) = some json ∧
    json.at? ["metadata", "annotations", Upsert.hashKey] = some (.str (Upsert.appliedHash kind o)) ∧
    (kind.encode (Upsert.desired kind o)).isSubset json = true

theorem Upsert.Settled.inPlace {m : Memory} {kind : Kind} {o : kind.Object} (hm : m.Sound)
    (h : Settled m kind o) : InPlace m kind o := by
  obtain ⟨live, hread, hcurrent⟩ := h
  rw [isCurrent, Bool.and_eq_true] at hcurrent
  exact ⟨_, (hm.holds hread).objects, Json.at?_of_isSubset hcurrent.2 (at?_encode_desired kind o),
    hcurrent.2⟩

def ServerStatus.ofType (s : ServerStatus) (type : ConditionType) : List Condition :=
  s.conditions.filter fun c => c.type = type.text

/-- A store that is as a server asks for, and that says so in the status of the server. -/
structure Converged (m : Memory) (server : McpServer) (outputs : Gateway.Outputs) : Prop where
  deployment : InPlace m .deployment outputs.deployment
  service : InPlace m .service outputs.service
  configMap : InPlace m .configMap outputs.configMap
  configHash : ∃ config deployment content,
    m.objects.get? (Key.of .configMap outputs.configMap) = some config ∧
    m.objects.get? (Key.of .deployment outputs.deployment) = some deployment ∧
    config.at? ["data", Gateway.configFile] = some (.str content) ∧
    deployment.at? ["spec", "template", "metadata", "annotations", Gateway.configHashKey] =
      some (.str (Gateway.configHash content))
  status : ∃ (server' : McpServer) (status : ServerStatus) (deployment : Deployment) (time : Instant),
    m.read (Key.of .server server) = .ok (some server') ∧ server'.status = some status ∧
    m.read (Key.of .deployment outputs.deployment) = .ok (some deployment) ∧
    (∀ type ∈ [ConditionType.accepted, .resolvedRefs, .programmed],
      ∃ c, status.ofType type = [c] ∧ c.status = "True") ∧
    status.ofType .ready =
      [(Readiness.of (some deployment)).setting.condition server.metadata.generation time]

theorem InPlace.at? {m : Memory} {kind : Kind} {o : kind.Object} (h : InPlace m kind o)
    {path : List String} {s : String}
    (hat : (kind.encode (Upsert.desired kind o)).at? path = some (.str s)) :
    ∃ json, m.objects.get? (Key.of kind o) = some json ∧ json.at? path = some (.str s) := by
  obtain ⟨json, hobject, -, hsubset⟩ := h
  exact ⟨json, hobject, Json.at?_of_isSubset hsubset hat⟩

theorem configMap_content (key : Key) (owner : OwnerReference) (content : String) :
    (Kind.configMap.encode (Upsert.desired .configMap (Gateway.configMap key owner content))).at?
      ["data", Gateway.configFile] = some (.str content) := by
  have hdata : (Kind.configMap.encode (Upsert.desired .configMap
      (Gateway.configMap key owner content))).get? "data" =
      some (Json.ofStringMap (.ofList [(Gateway.configFile, content)])) := by
    simp [Kind.encode, ConfigMap.encode, Json.record, Json.get?, Upsert.desired, Upsert.stamp,
      Kind.withAnnotations, Kind.withMetadata, Gateway.configMap]
  have hfile : (Json.ofStringMap (.ofList [(Gateway.configFile, content)])).get? Gateway.configFile =
      some (.str content) := by
    rw [Json.get?_ofStringMap]
    exact congrArg (Option.map Json.str) (SortedMap.get?_insert_self .empty _ _)
  rw [Json.at?_of_get? hdata, Json.at?_of_get? hfile, Json.at?]

theorem deployment_configHash (key : Key) (owner : OwnerReference) (pod : Gateway.PodPlan)
    (hash : String) :
    (Kind.deployment.encode (Upsert.desired .deployment (Gateway.deployment key owner pod hash))).at?
      ["spec", "template", "metadata", "annotations", Gateway.configHashKey] = some (.str hash) := by
  have hhash : (Json.ofStringMap (.ofList [(Gateway.configHashKey, hash)])).get? Gateway.configHashKey =
      some (.str hash) := by
    rw [Json.get?_ofStringMap]
    exact congrArg (Option.map Json.str) (SortedMap.get?_insert_self .empty _ _)
  have hpath : ∀ d : Deployment, d.spec = (Gateway.deployment key owner pod hash).spec →
      d.encode.at? ["spec", "template", "metadata", "annotations", Gateway.configHashKey] =
        (Json.ofStringMap (.ofList [(Gateway.configHashKey, hash)])).at? [Gateway.configHashKey] := by
    intro d hd
    simp [Deployment.encode, hd, Gateway.deployment, DeploymentSpec.encode, PodTemplate.encode,
      ObjectMeta.encode, ObjectMeta.empty, Json.record, Json.at?]
  exact (hpath (Upsert.desired .deployment (Gateway.deployment key owner pod hash)) rfl).trans
    (by rw [Json.at?_of_get? hhash, Json.at?])

theorem ServerStatus.conditions_applied (now : Instant) (server : McpServer) (readiness : Readiness) :
    (∀ type ∈ [ConditionType.accepted, .resolvedRefs, .programmed],
      ∃ c, (after now server (.applied readiness)).wholeSeconds.ofType type = [c] ∧ c.status = "True") ∧
    ∃ time, (after now server (.applied readiness)).wholeSeconds.ofType .ready =
      [readiness.setting.condition server.metadata.generation time] := by
  have hconditions : ∀ c ∈ (Report.applied readiness).settings, ∃ time,
      (after now server (.applied readiness)).wholeSeconds.ofType c.type =
        [c.condition server.metadata.generation time] :=
    fun c hc => after_conditions now server _ hc
  simp only [Report.settings, List.forall_mem_cons, Readiness.setting_type] at hconditions
  obtain ⟨⟨_, haccepted⟩, ⟨_, hresolved⟩, ⟨_, hprogrammed⟩, hready, -⟩ := hconditions
  constructor
  · intro type htype
    simp only [List.mem_cons, List.not_mem_nil, or_false] at htype
    rcases htype with rfl | rfl | rfl
    · exact ⟨_, haccepted, rfl⟩
    · exact ⟨_, hresolved, rfl⟩
    · exact ⟨_, hprogrammed, rfl⟩
  · exact hready

/-- A pass that succeeds leaves a store that has converged. -/
theorem reconcile_converges {m m' : Memory} (hm : m.Reachable) (gatewayImage : String) (now : Instant)
    (trigger server : McpServer) (hread : m.read (Key.of .server trigger) = .ok (some server))
    (hrun : (reconcile gatewayImage now trigger).run Memory.answer m = (.ok (), m')) :
    ∃ outputs, (Gateway.derive gatewayImage server).run Memory.answer m = (.ok outputs, m) ∧
      Converged m' server outputs := by
  have hsound := hm.sound
  have hkey : Key.of .server server = Key.of .server trigger := (hsound.holds hread).key_eq
  obtain ⟨_, outputs, m₁, -, -, hderive, hevaluated, hrests, hfinished⟩ :=
    Pass.run_reconcile_ok hsound hread hrun
  rw [← hkey] at hfinished
  obtain ⟨deployment, hfound, hreport⟩ := Pass.finalReport_of_rests hderive hrests
  rw [hreport] at hfinished
  have hinPlace : ∀ s ∈ Pass.steps outputs, InPlace m' s.kind s.object := by
    intro s hs
    exact (hfinished.settled hrests s hs).inPlace (hsound.run hrun)
  obtain ⟨⟨planKey, owner, pod⟩, content, hplan, rfl⟩ := Gateway.derive_ok hderive
  change planKey = Key.of .server server at hplan
  subst hplan
  simp only [Pass.steps, List.forall_mem_cons, List.not_mem_nil, false_imp_iff, implies_true,
    and_true] at hinPlace
  obtain ⟨hdeployment, hservice, hconfigMap⟩ := hinPlace
  refine ⟨_, hderive, hdeployment, hservice, hconfigMap, ?_, ?_⟩
  · obtain ⟨config, hconfig, hcontent⟩ := hconfigMap.at? (configMap_content _ _ content)
    obtain ⟨deployment, hobject, hhash⟩ := hdeployment.at? (deployment_configHash _ _ _ _)
    exact ⟨config, deployment, content, hconfig, hobject, hcontent, hhash⟩
  · obtain ⟨server', hserver', -, -, hstatus⟩ := hfinished.published
    obtain ⟨hconditions, time, hready⟩ :=
      ServerStatus.conditions_applied now server (.of (some deployment))
    have hsame := hfinished.sameOthers.objects
      ⟨.deployment, (Key.of .server server).ns, (Key.of .server server).name⟩ (by simp)
    exact ⟨server', _, deployment, time, hserver'.read, hstatus, (Memory.read_congr hsame).trans hfound,
      hconditions, hready⟩

theorem reconcile_converges_echo : ∃ m' outputs,
    (reconcile Gateway.defaultImage .epoch Pass.echoServer).run Memory.answer Pass.echoStore =
      (.ok (), m') ∧ Converged m' Pass.storedEcho outputs := by
  obtain ⟨m', hrun⟩ := Pass.run_reconcile_echo .epoch
  obtain ⟨outputs, -, hconverged⟩ := reconcile_converges Pass.reachable_echoStore Gateway.defaultImage
    .epoch Pass.echoServer Pass.storedEcho Pass.holds_echoStore.read hrun
  exact ⟨m', outputs, hrun, hconverged⟩

end McpOperator
