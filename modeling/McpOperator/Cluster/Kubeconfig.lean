import McpOperator.Json.Decode
import McpOperator.Text.Uri
import McpOperator.Yaml.Resolve

namespace McpOperator.Cluster

structure NamedServer where
  name : String
  server : Option String
deriving DecidableEq

structure NamedContext where
  name : String
  target : Option (String × Option String)
deriving DecidableEq

structure NamedUser where
  name : String
  known : Bool
deriving DecidableEq

structure Kubeconfig where
  kind : Option String
  apiVersion : Option String
  current : Option String
  clusters : List NamedServer
  contexts : List NamedContext
  users : List NamedUser
deriving DecidableEq

namespace Kubeconfig

def empty : Kubeconfig := ⟨none, none, none, [], [], []⟩

def flag (key : String) : Fields (Option Bool) := Fields.optional key Decode.bool

def line (key : String) : Fields (Option String) := Fields.optional key Decode.str

def clusterFields : Fields (Option String) :=
  (fun server _ _ _ _ _ _ => server) <$> line "server"
    <*> flag "insecure-skip-tls-verify"
    <*> line "certificate-authority"
    <*> line "certificate-authority-data"
    <*> line "proxy-url"
    <*> line "tls-server-name"
    <*> flag "disable-compression"

def serverFields : Fields NamedServer :=
  (fun name server => ⟨name, server.bind id⟩) <$> Fields.required "name" Decode.str
    <*> Fields.optional "cluster" (clusterFields.decodeObject "Cluster")

def contextFields : Fields (String × Option String) :=
  (fun cluster user _ => (cluster, user)) <$> Fields.required "cluster" Decode.str
    <*> line "user"
    <*> line "namespace"

def namedContextFields : Fields NamedContext :=
  NamedContext.mk <$> Fields.required "name" Decode.str
    <*> Fields.optional "context" (contextFields.decodeObject "Context")

def userFields : Fields Unit :=
  (fun _ _ _ _ _ _ _ _ _ => ()) <$> line "username"
    <*> line "password"
    <*> line "token"
    <*> line "tokenFile"
    <*> line "client-certificate"
    <*> line "client-certificate-data"
    <*> line "client-key"
    <*> line "client-key-data"
    <*> line "as"

def namedUserFields : Fields NamedUser :=
  (fun name user => ⟨name, user.isSome⟩) <$> Fields.required "name" Decode.str
    <*> Fields.optional "user" (userFields.decodeObject "AuthInfo")

def fields : Fields Kubeconfig :=
  Kubeconfig.mk <$> line "kind"
    <*> line "apiVersion"
    <*> line "current-context"
    <*> Fields.lenient "clusters" (Decode.list (serverFields.decodeObject "NamedCluster")) []
    <*> Fields.lenient "contexts" (Decode.list (namedContextFields.decodeObject "NamedContext")) []
    <*> Fields.lenient "users" (Decode.list (namedUserFields.decodeObject "NamedAuthInfo")) []

def decode : Decoder Kubeconfig := fields.decodeObject "Kubeconfig"

/-- Adds what goes by a name that is not taken yet. -/
def addNew (name : α → String) (known more : List α) : List α :=
  known ++ more.filter fun a => !known.any fun b => name b = name a

def agrees (a b : Option String) : Bool := a.isNone || b.isNone || a = b

/-- Joins two files; the first one has precedence. They have to be of one kind. -/
def merge (a b : Kubeconfig) : Option Kubeconfig :=
  if agrees a.kind b.kind && agrees a.apiVersion b.apiVersion then some {
    kind := a.kind.or b.kind
    apiVersion := a.apiVersion.or b.apiVersion
    current := a.current.or b.current
    clusters := addNew NamedServer.name a.clusters b.clusters
    contexts := addNew NamedContext.name a.contexts b.contexts
    users := addNew NamedUser.name a.users b.users }
  else none

def ofNode? (node : Yaml.Node) : Option Kubeconfig := do
  let json ← node.value?
  (decode json).toOption

/-- The documents of a text joined into one; a text without documents is empty. -/
def ofText? (s : String) : Option Kubeconfig := do
  let nodes ← Yaml.Node.all? s
  let configs ← nodes.mapM ofNode?
  configs.foldlM merge empty

/-- Whether the user of a context is one that the file knows; a context without a user needs none. -/
def knowsUser (k : Kubeconfig) : Option String → Bool
  | none => true
  | some name => (k.users.find? fun u => u.name = name).any (·.known)

def location? (k : Kubeconfig) : Option String := do
  let current ← k.current
  let context ← k.contexts.find? fun c => c.name = current
  let (cluster, user) ← context.target
  let entry ← k.clusters.find? fun c => c.name = cluster
  let server ← entry.server
  if k.knowsUser user && Uri.isValid server then some server else none

end Kubeconfig
end McpOperator.Cluster
