import McpOperator.Reconcile.Router

namespace McpOperator

def OwnerReference.isServer (r : OwnerReference) : Bool :=
  r.kind = McpServer.kindName && r.apiVersion = McpServer.apiVersion

/-- The servers of the object's own namespace that own it. -/
def ownersOf (ns : String) (m : ObjectMeta) : List Key :=
  ((m.ownerReferences.getD []).filter (·.isServer)).map fun r => ⟨.server, ns, r.name⟩

def concernedBy (servers : List McpServer) : (kind : Kind) → kind.Object → List Key
  | .server, server => [Key.of .server server]
  | .secret, secret => (serversFor secret servers).map (Key.of .server)
  | kind, o => ownersOf (Key.of kind o).ns (kind.metadata o)

end McpOperator
