import McpOperator.Reconcile.Router
import McpOperator.Proofs.Reconcile.Determined

namespace McpOperator

open Memory (Matches SameFaults)

/-- The keys of a server's tokens are to be found in the secret. -/
def McpServer.Names (server : McpServer) (secret : Secret) : Prop :=
  server.metadata.ns = secret.metadata.ns ∧ ∃ authn jwt ref, server.spec.authn = some authn ∧
    authn.jwt = some jwt ∧ jwt.jwksRef = some ref ∧ ref.name = (Key.of .secret secret).name

namespace McpServer.Names

variable {server : McpServer} {secret : Secret}

theorem iff_jwksSecret : server.Names secret ↔ server.metadata.ns = secret.metadata.ns ∧
    server.spec.jwksSecret.any (fun ref => ref.name = (Key.of .secret secret).name) = true := by
  rw [Names, ServerSpec.jwksSecret, ServerSpec.jwt, Option.any_eq_true]
  constructor
  · rintro ⟨hns, authn, jwt, ref, hauthn, hjwt, href, hname⟩
    exact ⟨hns, ref, by simp [hauthn, hjwt, href], decide_eq_true hname⟩
  · rintro ⟨hns, ref, href, hname⟩
    obtain ⟨jwt, hjwt, href⟩ := Option.bind_eq_some_iff.1 href
    obtain ⟨authn, hauthn, hjwt⟩ := Option.bind_eq_some_iff.1 hjwt
    exact ⟨hns, authn, jwt, ref, hauthn, hjwt, href, of_decide_eq_true hname⟩

instance (server : McpServer) (secret : Secret) : Decidable (server.Names secret) :=
  decidable_of_iff _ iff_jwksSecret.symm

theorem iff_dependsOn {ns : String} (hns : secret.metadata.ns = some ns) :
    server.Names secret ↔ server.dependsOn ns secret.nameOrGenerated = true := by
  rw [iff_jwksSecret, hns, McpServer.dependsOn, Bool.and_eq_true, decide_eq_true_eq]
  rfl

theorem of_secretKey? {ns : String} (hns : secret.metadata.ns = some ns)
    (hserver : server.metadata.ns.isSome) (h : Pass.secretKey? server = some (Key.of .secret secret)) :
    server.Names secret := by
  obtain ⟨ref, href, hkey⟩ := Option.map_eq_some_iff.1 h
  obtain ⟨own, hown⟩ := Option.isSome_iff_exists.1 hserver
  rw [iff_jwksSecret, Option.any_eq_true]
  refine ⟨?_, ref, href, decide_eq_true (congrArg Key.name hkey)⟩
  have hsame : server.metadata.ns.getD Key.defaultNamespace = secret.metadata.ns.getD Key.defaultNamespace :=
    congrArg Key.ns hkey
  rw [hown, hns] at hsame ⊢
  exact congrArg some hsame

end McpServer.Names

theorem serversFor_eq {secret : Secret} {ns : String} (hns : secret.metadata.ns = some ns)
    (servers : List McpServer) :
    serversFor secret servers = servers.filter fun server => decide (server.Names secret) := by
  rw [serversFor, hns]
  apply List.filter_congr
  intro server _
  rw [Bool.eq_iff_iff, decide_eq_true_eq, McpServer.Names.iff_dependsOn hns]

namespace ServerRef

variable {servers : List McpServer}

theorem mapM_of?_eq_some_iff {refs : List ServerRef} :
    servers.mapM of? = some refs ↔ servers.map of? = refs.map some := by
  induction servers generalizing refs with
  | nil => cases refs <;> simp
  | cons server rest ih =>
      rw [List.mapM_cons, List.map_cons]
      simp only [Option.bind_eq_bind, Option.bind_eq_some_iff, ih]
      cases refs <;> simp

theorem mapM_of?_eq_none_iff :
    servers.mapM of? = none ↔ ∃ server ∈ servers, server.metadata.name = none := by
  induction servers with
  | nil => simp
  | cons server rest ih =>
      rw [List.mapM_cons]
      cases hname : server.metadata.name with
      | none => simp [of?, hname]
      | some name =>
          have href : of? server = some ⟨server.metadata.ns, name⟩ := by rw [of?, hname, Option.map_some]
          simp only [href, Option.bind_eq_bind, Option.bind_some, List.mem_cons, exists_eq_or_imp, hname,
            reduceCtorEq, false_or, ← ih]
          cases rest.mapM of? <;> simp

end ServerRef

/-- Two stores that differ in one secret at most. -/
structure Memory.DifferIn (secret : Key) (m n : Memory) : Prop extends SameFaults m n where
  objects : ∀ key, key ≠ secret → n.objects.get? key = m.objects.get? key

/-- The secret makes no difference to what is derived from the server, nor to a pass over it. -/
def McpServer.Ignores (server : McpServer) (secret : Key) : Prop :=
  ∀ (gatewayImage : String) (m n : Memory), m.Reachable → n.Reachable → m.DifferIn secret n →
    ((Gateway.derive gatewayImage server).run Memory.answer n).1 =
      ((Gateway.derive gatewayImage server).run Memory.answer m).1 ∧
    ∀ (now : Instant) (trigger : McpServer), m.read (Key.of .server trigger) = .ok (some server) →
      ∃ r m' n', (reconcile gatewayImage now trigger).run Memory.answer m = (r, m') ∧
        (reconcile gatewayImage now trigger).run Memory.answer n = (r, n') ∧
        ∀ key, key ≠ secret → n'.unversioned key = m'.unversioned key

theorem McpServer.ignores_of_not_names {server : McpServer} {secret : Secret} {ns : String}
    (hns : secret.metadata.ns = some ns) (hserver : server.metadata.ns.isSome)
    (h : ¬ server.Names secret) : server.Ignores (Key.of .secret secret) := by
  intro gatewayImage m n hm hn hdiffer
  have hmatches : Matches {Key.of .secret secret}ᶜ m n :=
    .of_objects hm.sound hn.sound hdiffer.toSameFaults hdiffer.objects
  have hsecret : ∀ key ∈ Pass.secretKey? server, key ∈ ({Key.of .secret secret}ᶜ : Set Key) := by
    rintro key hkey rfl
    exact h (.of_secretKey? hns hserver hkey)
  constructor
  · have hderive : (Gateway.derive gatewayImage server).Determined {Key.of .secret secret}ᶜ m n :=
      Pass.determined_derive hmatches hsecret
    obtain ⟨m', hrun, -⟩ := hderive _ _ (Spared.of_run _ _ n)
    rw [hrun]
  · intro now trigger hread
    have hown : Pass.own (Key.of .server trigger) ⊆ {Key.of .secret secret}ᶜ := by
      rintro key ⟨hkind, -⟩ rfl
      exact hkind rfl
    have hpass : (reconcile gatewayImage now trigger).Determined {Key.of .secret secret}ᶜ m n := by
      apply Pass.determined_reconcile hmatches hown
      intro stored hstored
      rw [hread] at hstored
      cases hstored
      exact hsecret
    obtain ⟨m', hrun, hafter⟩ := hpass _ _ (Spared.of_run _ _ n)
    exact ⟨_, m', _, hrun, rfl, hafter.objects⟩

/-- A secret that changes leads to just the servers that name it, and nothing changes for others. A
server that names it without having a name itself cannot be referred to, and then there are no
references at all. -/
theorem secret_router_complete {secret : Secret} {ns : String} (hns : secret.metadata.ns = some ns)
    {servers : List McpServer} (hservers : ∀ server ∈ servers, server.metadata.ns.isSome) :
    (∀ refs, serverRefsFor? secret servers = some refs ↔
      (servers.filter fun server => decide (server.Names secret)).map ServerRef.of? = refs.map some) ∧
    (serverRefsFor? secret servers = none ↔
      ∃ server ∈ servers, server.Names secret ∧ server.metadata.name = none) ∧
    ∀ server ∈ servers, ¬ server.Names secret → server.Ignores (Key.of .secret secret) := by
  refine ⟨?_, ?_, ?_⟩
  · intro refs
    rw [serverRefsFor?, serversFor_eq hns, ServerRef.mapM_of?_eq_some_iff]
  · rw [serverRefsFor?, serversFor_eq hns, ServerRef.mapM_of?_eq_none_iff]
    simp only [List.mem_filter, decide_eq_true_eq, and_assoc]
  · intro server hmem hnames
    exact McpServer.ignores_of_not_names hns (hservers server hmem) hnames

namespace Router

def jwks : Secret where
  data := none
  immutable := none
  metadata := { ObjectMeta.empty with name := some "jwks", ns := some "tools" }
  stringData := none
  type := none

def guarded (name : Option String) (secret : String) : McpServer where
  metadata := { ObjectMeta.empty with name := name, generateName := some "gen-", ns := some "tools" }
  spec := { Pass.echoServer.spec with
    authn := some ⟨some ⟨"https://issuer", ["kmcp"], some ⟨secret, "k"⟩, none⟩⟩ }
  status := none

end Router

theorem secret_router_complete_jwks :
    serverRefsFor? Router.jwks [Router.guarded (some "a") "jwks", Router.guarded (some "b") "other",
      Router.guarded (some "a") "jwks"] = some [⟨some "tools", "a"⟩, ⟨some "tools", "a"⟩] ∧
    (Router.guarded (some "b") "other").Ignores ⟨.secret, "tools", "jwks"⟩ := by
  have hservers : ∀ server ∈ [Router.guarded (some "a") "jwks", Router.guarded (some "b") "other",
      Router.guarded (some "a") "jwks"], server.metadata.ns.isSome := by
    simp [Router.guarded]
  obtain ⟨hrefs, -, hignores⟩ := secret_router_complete
    (show Router.jwks.metadata.ns = some "tools" from rfl) hservers
  exact ⟨(hrefs _).2 (by decide), hignores _ (by simp) (by decide)⟩

/-- A name that is yet to be generated is none to refer to a server by. -/
theorem serverRefsFor?_nameless : ¬ ∀ (secret : Secret) (servers : List McpServer),
    secret.metadata.ns.isSome → (∀ server ∈ servers, server.metadata.ns.isSome) →
      ∃ refs, serverRefsFor? secret servers = some refs := by
  intro h
  obtain ⟨refs, hrefs⟩ := h Router.jwks [Router.guarded none "jwks"] rfl (by simp [Router.guarded])
  have hnone : serverRefsFor? Router.jwks [Router.guarded none "jwks"] = none := by decide
  rw [hnone] at hrefs
  cases hrefs

end McpOperator
