import McpOperator.Objects.Kind

namespace McpOperator

/-- The name that a server is referred to by, which it has to have. -/
structure ServerRef where
  ns : Option String
  name : String
deriving DecidableEq

namespace ServerRef

def display (r : ServerRef) : String :=
  "MCPServer.v1alpha1.kagent.dev/" ++ r.name ++
    match r.ns with
    | some ns => "." ++ ns
    | none => ""

def of? (server : McpServer) : Option ServerRef :=
  server.metadata.name.map fun name => ⟨server.metadata.ns, name⟩

end ServerRef

def Secret.nameOrGenerated (s : Secret) : String :=
  (s.metadata.name.or s.metadata.generateName).getD ""

/-- A server depends on the secret of its namespace that its reference names. -/
def McpServer.dependsOn (server : McpServer) (ns name : String) : Bool :=
  server.metadata.ns = some ns && server.spec.jwksSecret.any fun ref => ref.name = name

/-- The servers to look at again when a secret changes. A secret without a namespace concerns none. -/
def serversFor (secret : Secret) (servers : List McpServer) : List McpServer :=
  match secret.metadata.ns with
  | none => []
  | some ns => servers.filter fun server => server.dependsOn ns secret.nameOrGenerated

/-- References to the servers that depend on a secret; none when one of them has no name. -/
def serverRefsFor? (secret : Secret) (servers : List McpServer) : Option (List ServerRef) :=
  (serversFor secret servers).mapM ServerRef.of?

end McpOperator
