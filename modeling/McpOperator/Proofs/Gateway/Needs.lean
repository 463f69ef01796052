import McpOperator.Proofs.Checks
import McpOperator.Proofs.Gateway.Outputs

namespace McpOperator

namespace ServerSpec

variable {s : ServerSpec}

def targetPort? (s : ServerSpec) : Option UInt16 := s.httpTransport.bind HttpTransport.targetPort

/-- What a spec has to say. -/
def needs (s : ServerSpec) (name : String) : List (Need ValidationError) := [
  ⟨(∃ image, s.deployment.image = some image ∧ image ≠ "") ∨
    s.deployment.cmd = some "uvx" ∨ s.deployment.cmd = some "npx", .missingImage name⟩,
  ⟨s.transportType = some .stdio ∨ s.transportType = some .http, .unsupportedTransport⟩,
  ⟨s.deployment.port ≠ 0, .missingPort⟩,
  ⟨s.transportType = some .stdio → ∃ cmd, s.deployment.cmd = some cmd ∧ cmd ≠ "", .missingCommand⟩,
  ⟨s.transportType = some .http → ∃ port, s.targetPort? = some port ∧ port ≠ 0, .missingTargetPort⟩,
  ⟨s.transportType = some .http → s.targetPort? ≠ some s.deployment.port,
    .targetPortConflict s.deployment.port⟩]

theorem nonempty?_eq_some_iff {o : Option String} {text : String} :
    nonempty? o = some text ↔ o = some text ∧ text ≠ "" := by
  simp [nonempty?, Option.filter_eq_some_iff]

theorem runnerImage?_isSome_iff {cmd : String} :
    (ServerDeployment.runnerImage? cmd).isSome ↔ cmd = "uvx" ∨ cmd = "npx" := by
  unfold ServerDeployment.runnerImage?
  split <;> simp_all

theorem bind_runnerImage?_eq_none_iff {cmd : Option String} :
    cmd.bind ServerDeployment.runnerImage? = none ↔ ¬ (cmd = some "uvx" ∨ cmd = some "npx") := by
  cases cmd with
  | none => simp
  | some cmd =>
      rw [Option.bind_some, ← Option.not_isSome_iff_eq_none, runnerImage?_isSome_iff]
      simp

theorem requires_resolveImage (d : ServerDeployment) (name : String) :
    Requires (d.resolveImage name) [⟨(∃ image, d.image = some image ∧ image ≠ "") ∨
      d.cmd = some "uvx" ∨ d.cmd = some "npx", .missingImage name⟩] := by
  simp only [← nonempty?_eq_some_iff, ServerDeployment.resolveImage]
  cases nonempty? d.image with
  | some image => exact .skip (.inl ⟨image, rfl⟩) (.nothing rfl)
  | none =>
      cases hrunner : d.cmd.bind ServerDeployment.runnerImage? with
      | some image =>
          have hcmd : d.cmd = some "uvx" ∨ d.cmd = some "npx" := by
            by_contra h
            simp [bind_runnerImage?_eq_none_iff.2 h] at hrunner
          exact .skip (.inr hcmd) (.nothing rfl)
      | none =>
          apply Requires.single
          · simp [bind_runnerImage?_eq_none_iff.1 hrunner]
          · exact fun _ => rfl

theorem requires_transport (s : ServerSpec) : Requires s.transport
    [⟨s.transportType = some .stdio ∨ s.transportType = some .http, .unsupportedTransport⟩] := by
  apply Requires.single <;> cases h : s.transportType with
  | none => simp [transport, h]
  | some t => cases t <;> simp [transport, h]

theorem requires_httpTargetPort (s : ServerSpec) : Requires s.httpTargetPort [
    ⟨∃ port, s.targetPort? = some port ∧ port ≠ 0, .missingTargetPort⟩,
    ⟨s.targetPort? ≠ some s.deployment.port, .targetPortConflict s.deployment.port⟩] := by
  rw [httpTargetPort, ← targetPort?]
  apply Requires.guard
  · cases s.targetPort? <;> simp
  · exact fun _ => rfl
  · intro hzero
    cases h : s.targetPort? with
    | none => simp [h] at hzero
    | some port =>
      rw [h] at hzero
      apply Requires.guard
      · simp
      · exact congrArg _
      · exact fun _ => .nothing rfl

theorem requires_validate (s : ServerSpec) (name : String) : Requires (s.validate name) (s.needs name) := by
  apply (requires_resolveImage s.deployment name).bind fun _ _ => ?_
  apply (requires_transport s).bind fun t ht => ?_
  have htype := Gateway.transport_ok ht
  -- The steps after the check of the port are shared by its two branches.
  change Requires (if s.deployment.port = 0 then .error .missingPort else s.validateTransport t) _
  apply Requires.guard
  · rfl
  · exact fun _ => rfl
  intro hport
  cases t with
  | stdio =>
      have hcommand : Requires (s.validateTransport .stdio) [⟨s.transportType = some .stdio →
          ∃ cmd, s.deployment.cmd = some cmd ∧ cmd ≠ "", .missingCommand⟩] := by
        simp only [htype, validateTransport, forall_const, ← nonempty?_eq_some_iff,
          ← Option.isSome_iff_exists]
        exact .check _ _
      exact hcommand.more (by simp [htype])
  | http =>
      refine .skip (by simp [htype]) ?_
      simp only [htype, forall_const]
      exact (requires_httpTargetPort s).map

end ServerSpec

namespace Gateway

variable {S : Type} {store : (c : Call) → S → c.Answer × S} {state : S} {gatewayImage : String}
  {server : McpServer}

/-- That a secret can be read, is there and has the key, and the error that says which of these fails. -/
def secretNeed (key : Key) (ref : SecretKeyRef) (answer : Except StoreError (Option Secret)) :
    Need OutputError where
  met := ∃ secret, answer = .ok (some secret) ∧
    ((∃ data, secret.data = some data ∧ ∃ bytes, data.get? ref.key = some bytes) ∨
      ∃ data, secret.stringData = some data ∧ ∃ text, data.get? ref.key = some text)
  error := .secretFailed key.display <| match answer with
    | .error e => e.message
    | .ok none => "secret not found"
    | .ok (some _) => "key " ++ ref.key ++ " not found"

def jwksNeeds (ns : String) (secret : String → Except StoreError (Option Secret)) :
    Option JwtSpec → List (Need OutputError)
  | none => []
  | some jwt => match jwt.jwksRef with
      | some ref => [secretNeed ⟨.secret, ns, ref.name⟩ ref (secret ref.name)]
      | none => [⟨∃ keys, jwt.jwksInline = some keys ∧ keys ≠ "", .missingJwks⟩]

def realmNeed (provider : Option ProviderSpec) : Need OutputError where
  met := ∀ k, provider = some (.keycloak k) → k.realm ≠ ""
  error := .missingRealm

def ownNeeds (server : McpServer) : List (Need OutputError) :=
  ⟨(∃ name, server.metadata.name = some name) ∧ ∃ uid, server.metadata.uid = some uid,
    .noOwner (Key.of .server server).display⟩ ::
  (server.spec.needs (Key.of .server server).name).map (Need.mapError .invalid)

/-- What has to hold for the objects of a server to be derived, with the secrets of its namespace. -/
def needs (server : McpServer) (secret : String → Except StoreError (Option Secret)) :
    List (Need OutputError) :=
  ownNeeds server ++ (jwksNeeds (Key.of .server server).ns secret server.spec.jwt ++
    [realmNeed ((authorizationServer server.spec).bind AuthorizationServerSpec.provider)])

theorem holds_iff {secret : Secret} {key : String} : secret.holds key = true ↔
    (∃ data, secret.data = some data ∧ ∃ bytes, data.get? key = some bytes) ∨
      ∃ data, secret.stringData = some data ∧ ∃ text, data.get? key = some text := by
  rw [Secret.holds, Bool.or_eq_true]
  refine or_congr ?_ ?_ <;> simp [Option.any_eq_true, SortedMap.contains, Option.isSome_iff_exists]

theorem isSome_owner?_iff : (owner? server).isSome ↔
    (∃ name, server.metadata.name = some name) ∧ ∃ uid, server.metadata.uid = some uid := by
  simp only [Option.isSome_iff_exists, owner?_eq_some_iff]
  grind

theorem resolveImage_of_validate {s : ServerSpec} {name : String} (h : s.validate name = .ok ()) :
    ∃ image, s.deployment.resolveImage name = .ok image :=
  (bind_eq_ok_iff.1 h).imp fun _ himage => himage.1

theorem requires_plan (gatewayImage : String) (server : McpServer) :
    Requires (Plan.of gatewayImage server) (ownNeeds server) := by
  rw [Plan.of]
  cases howner : owner? server with
  | none =>
      refine .stop (fun h => ?_) rfl
      simpa [howner] using isSome_owner?_iff.2 h
  | some owner =>
      refine .skip (isSome_owner?_iff.1 (by simp [howner])) ?_
      have hvalidate := (server.spec.requires_validate (Key.of .server server).name).mapError
        (f := OutputError.invalid)
      apply hvalidate.followed fun _ hmapped => ?_
      have hvalid := mapError_eq_ok_iff.1 hmapped
      obtain ⟨-, transport, htransport, -⟩ := ServerSpec.validate_ok hvalid
      obtain ⟨image, himage⟩ := resolveImage_of_validate hvalid
      rw [htransport, himage]
      exact ⟨_, rfl⟩

theorem requires_secret (key : Key) (ref : SecretKeyRef) (answer : Except StoreError (Option Secret)) :
    Requires (jwksOfSecret key ref answer) [secretNeed key ref answer] := by
  rcases answer with e | _ | secret
  · exact .stop (by simp [secretNeed]) rfl
  · exact .stop (by simp [secretNeed]) rfl
  · have hmet : (secretNeed key ref (.ok (some secret))).met ↔ secret.holds ref.key = true := by
      simp [secretNeed, holds_iff]
    exact .single (fun h => ⟨_, if_pos (hmet.1 h)⟩) fun h => if_neg (mt hmet.2 h)

theorem requires_resolveJwks (spec : ServerSpec) (ns : String) :
    Requires ((resolveJwks spec ns).run store state).1
      (jwksNeeds ns (fun name => (store (.get ⟨.secret, ns, name⟩) state).1) spec.jwt) := by
  rw [resolveJwks]
  cases spec.jwt with
  | none => exact .nothing rfl
  | some jwt =>
      dsimp only [jwksNeeds]
      cases jwt.jwksRef with
      | some ref => exact requires_secret _ ref _
      | none =>
          simp only [← ServerSpec.nonempty?_eq_some_iff]
          cases nonempty? jwt.jwksInline with
          | some keys => exact .skip ⟨keys, rfl⟩ (.nothing rfl)
          | none => exact .single (fun h => by simp at h) fun _ => rfl

theorem target_of_validate {s : ServerSpec} {name : String} {transport : Transport}
    (h : s.validate name = .ok ()) (htransport : s.transport = .ok transport) (server : String) :
    ∃ t, target s server transport = .ok t := by
  obtain ⟨-, transport', htransport', hvalid⟩ := ServerSpec.validate_ok h
  obtain rfl := Except.ok.inj (htransport.symm.trans htransport')
  cases transport with
  | stdio =>
      rw [ServerSpec.validateTransport] at hvalid
      split at hvalid
      · obtain ⟨cmd, hcmd⟩ := Option.isSome_iff_exists.1 ‹_›
        rw [target, hcmd]
        exact ⟨_, rfl⟩
      · cases hvalid
  | http =>
      obtain ⟨port, hport, -⟩ := map_eq_ok_iff.1 hvalid
      rw [target, hport]
      exact ⟨_, rfl⟩

theorem jwtAuth_of_resolveJwks {spec : ServerSpec} {ns : String} {jwks : Option Jwks}
    (h : ((resolveJwks spec ns).run store state).1 = .ok jwks) :
    ∃ tokens, jwtAuth jwks spec.jwt = .ok tokens := by
  obtain rfl := run_resolveJwks_ok h
  cases spec.jwt <;> exact ⟨_, rfl⟩

theorem mcpAuthentication_of_realm {a : Option AuthorizationServerSpec}
    (h : (realmNeed (a.bind AuthorizationServerSpec.provider)).met) :
    ∃ login, mcpAuthentication a = .ok login := by
  rcases a with _ | a
  · exact ⟨_, rfl⟩
  · simp only [mcpAuthentication]
    rcases hprovider : a.provider with _ | ⟨⟨k⟩⟩
    · exact ⟨_, rfl⟩
    · exact ⟨_, if_neg (h k hprovider)⟩

theorem requires_routeMatches (s : ServerSpec) : Requires (routeMatches s)
    [realmNeed ((authorizationServer s).bind AuthorizationServerSpec.provider)] := by
  have hprovider : ∀ p, Requires (providerMatches p) [realmNeed p] := by
    rintro (_ | ⟨⟨k⟩⟩)
    · exact .skip nofun (.nothing rfl)
    · exact .guard (by simp [realmNeed]) (fun _ => rfl) fun _ => .nothing rfl
  exact (hprovider _).followed fun _ _ => ⟨_, rfl⟩

theorem mcpAuthentication_of_routeMatches {s : ServerSpec} {ms : List RouteMatch}
    (h : routeMatches s = .ok ms) : ∃ login, mcpAuthentication (authorizationServer s) = .ok login := by
  apply mcpAuthentication_of_realm
  exact (requires_routeMatches s).ok_iff.1 ⟨ms, h⟩ _ List.mem_cons_self

theorem requires_config {s : ServerSpec} {name : String} {transport : Transport} {jwks : Option Jwks}
    (hvalid : s.validate name = .ok ()) (htransport : s.transport = .ok transport)
    (hjwks : ∃ tokens, jwtAuth jwks s.jwt = .ok tokens) (server : String) :
    Requires (Config.ofSpec s server transport jwks)
      [realmNeed ((authorizationServer s).bind AuthorizationServerSpec.provider)] := by
  apply (requires_routeMatches s).followed fun ms hms => ?_
  obtain ⟨t, ht⟩ := target_of_validate hvalid htransport server
  obtain ⟨tokens, htokens⟩ := hjwks
  obtain ⟨login, hlogin⟩ := mcpAuthentication_of_routeMatches hms
  rw [ht, policies, htokens, hlogin]
  exact ⟨_, rfl⟩

theorem requires_derive (gatewayImage : String) (server : McpServer) :
    Requires ((derive gatewayImage server).run store state).1
      (needs server fun name => (store (.get ⟨.secret, (Key.of .server server).ns, name⟩) state).1) := by
  rw [run_derive_fst]
  apply (requires_plan gatewayImage server).bind fun plan hplan => ?_
  obtain ⟨owner, transport, image, -, hvalid, htransport, -, rfl⟩ := Plan.of_inv hplan
  apply (requires_resolveJwks server.spec (Key.of .server server).ns).bind fun jwks hjwks => ?_
  have hconfig := requires_config hvalid htransport (jwtAuth_of_resolveJwks hjwks)
    (Key.of .server server).name
  exact hconfig.followed fun _ _ => ⟨_, rfl⟩

theorem error_of_mem_jwksNeeds {ns : String} {secret : String → Except StoreError (Option Secret)}
    {jwt : Option JwtSpec} {n : Need OutputError} (h : n ∈ jwksNeeds ns secret jwt) {e : ValidationError} :
    n.error ≠ .invalid e := by
  unfold jwksNeeds at h
  repeat' split at h
  · cases h
  · obtain rfl := List.mem_singleton.1 h
    nofun
  · obtain rfl := List.mem_singleton.1 h
    nofun

variable (store state gatewayImage)

theorem derive_ne_invalid {name : String} (h : server.spec.validate name = .ok ())
    (e : ValidationError) : ((derive gatewayImage server).run store state).1 ≠ .error (.invalid e) := by
  intro hderive
  obtain ⟨n, hmem, hunmet, herror⟩ :=
    ((requires_derive gatewayImage server).error_iff _).1 hderive |>.exists_unmet
  have hspec : ∀ n ∈ server.spec.needs (Key.of .server server).name, n.met := by
    have hall := (server.spec.requires_validate name).ok_iff.1 ⟨_, h⟩
    simpa [ServerSpec.needs] using hall
  simp only [needs, ownNeeds, List.mem_append, List.mem_cons, List.mem_map, List.not_mem_nil,
    or_false] at hmem
  rcases hmem with (rfl | ⟨n, hn, rfl⟩) | hn | rfl
  · cases herror
  · exact hunmet (hspec n hn)
  · exact error_of_mem_jwksNeeds hn herror
  · cases herror

theorem failure_of_evaluate (server : McpServer) (key : Key) (name : String) (e : ValidationError) :
    ((Pass.evaluate gatewayImage key name server).run store state).1.2 ≠ some (.outputs (.invalid e)) := by
  rw [Pass.evaluate]
  cases hvalid : server.spec.validate name with
  | error e => rintro ⟨⟩
  | ok =>
      have hderive := derive_ne_invalid store state gatewayImage hvalid e
      dsimp only
      rw [Work.run_bind]
      rcases hrun : (derive gatewayImage server).run store state with ⟨e | outputs, state'⟩
      · rintro ⟨⟩
        exact hderive (congrArg Prod.fst hrun)
      · dsimp only
        rw [Work.run_bind]
        rcases (Pass.apply outputs).run store state' with ⟨⟨step, e⟩ | ⟨⟩, state''⟩ <;> rintro ⟨⟩

theorem reconcile_ne_invalid (now : Instant) (trigger : McpServer) (e : ValidationError) :
    ((reconcile gatewayImage now trigger).run store state).1 ≠ .error (.outputs (.invalid e)) := by
  rw [reconcile]
  split
  · rintro ⟨⟩
  rename_i name _
  dsimp only [Work.run]
  rcases store (.get (Key.of .server trigger)) state with ⟨_ | _ | server, fetched⟩
  · rintro ⟨⟩
  · rintro ⟨⟩
  dsimp only [Pass.afterFetch]
  rw [Work.run_bind]
  have hfailure := failure_of_evaluate store fetched gatewayImage server (Key.of .server trigger) name e
  rcases hrun : (Pass.evaluate gatewayImage (Key.of .server trigger) name server).run store fetched with
    ⟨⟨report, failure⟩, evaluated⟩
  rw [hrun] at hfailure
  dsimp only
  rw [Work.run_bind]
  rcases (Pass.persist now server report).run store evaluated with ⟨e | ⟨⟩, written⟩
  · rintro ⟨⟩
  · cases failure with
    | none => rintro ⟨⟩
    | some failure =>
        intro h
        exact hfailure (congrArg some (Except.error.inj h))

/-- Nothing that is looked at again is found wrong then. -/
structure Rechecked (s : ServerSpec) (server : String) (transport : Transport) (jwks : Option Jwks) :
    Prop where
  target : ∃ t, target s server transport = .ok t
  tokens : ∃ tokens, jwtAuth jwks s.jwt = .ok tokens
  login : ∀ ms, routeMatches s = .ok ms → ∃ login, mcpAuthentication (authorizationServer s) = .ok login

end Gateway

/-- The objects of a server are derived when all is there that they need; else the first need that is
not met is told. What is looked at again on the way is found as before. -/
theorem derivation_needs {S : Type} (store : (c : Call) → S → c.Answer × S) (state : S)
    (gatewayImage : String) (server : McpServer) :
    Requires ((Gateway.derive gatewayImage server).run store state).1 (Gateway.needs server fun name =>
      (store (.get ⟨.secret, (Key.of .server server).ns, name⟩) state).1) ∧
    (∀ plan jwks, Gateway.Plan.of gatewayImage server = .ok plan →
      ((Gateway.resolveJwks server.spec plan.key.ns).run store state).1 = .ok jwks →
      Gateway.Rechecked server.spec plan.key.name plan.pod.transport jwks) ∧
    ∀ now trigger e, ((reconcile gatewayImage now trigger).run store state).1 ≠
      .error (.outputs (.invalid e)) := by
  refine ⟨Gateway.requires_derive gatewayImage server, fun plan jwks hplan hjwks => ?_,
    Gateway.reconcile_ne_invalid store state gatewayImage⟩
  obtain ⟨owner, transport, image, -, hvalid, htransport, -, rfl⟩ := Gateway.Plan.of_inv hplan
  exact ⟨Gateway.target_of_validate hvalid htransport _, Gateway.jwtAuth_of_resolveJwks hjwks,
    fun _ => Gateway.mcpAuthentication_of_routeMatches⟩

theorem met_ownNeeds_exposedServer : ∀ n ∈ Gateway.ownNeeds (exposedServer .http), n.met := by
  have hspec : ∀ n ∈ (exposedServer .http).spec.needs "echo", n.met := by
    simp [ServerSpec.needs, exposedServer, Pass.echoServer, ServerSpec.targetPort?]
  exact List.forall_mem_cons.2 ⟨⟨⟨_, rfl⟩, _, rfl⟩, List.forall_mem_map.2 hspec⟩

theorem derivation_needs_tokens :
    (∃ outputs, ((Gateway.derive "gateway:1" (exposedServer .http)).run Memory.answer tokenStore).1 =
      .ok outputs) ∧
    ((Gateway.derive "gateway:1" (exposedServer .http)).run Memory.answer .empty).1 =
      .error (.secretFailed "default.tokens" "secret not found") := by
  obtain ⟨hfound, -, -⟩ := derivation_needs Memory.answer tokenStore "gateway:1" (exposedServer .http)
  obtain ⟨hmissed, -, -⟩ := derivation_needs Memory.answer .empty "gateway:1" (exposedServer .http)
  constructor
  · have hrealm : (Gateway.realmNeed (some (.keycloak ⟨"main"⟩))).met := by simp [Gateway.realmNeed]
    rw [hfound.ok_iff, Gateway.needs, List.forall_mem_append, List.forall_mem_append]
    refine ⟨met_ownNeeds_exposedServer, List.forall_mem_singleton.2 ?_, List.forall_mem_singleton.2 hrealm⟩
    exact ⟨_, rfl, .inr ⟨_, rfl, _, rfl⟩⟩
  · rw [hmissed.error_iff, Gateway.needs, firstUnmet_append_iff]
    refine .inr ⟨met_ownNeeds_exposedServer, .here ?_⟩
    rintro ⟨secret, hsecret, -⟩
    cases hsecret

end McpOperator
