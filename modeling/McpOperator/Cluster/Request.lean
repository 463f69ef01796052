import McpOperator.Store.Call
import McpOperator.Text.Uri

namespace McpOperator.Cluster

inductive Method where
  | get
  | post
  | put
  | patch
deriving DecidableEq

def Method.text : Method → String
  | get => "GET"
  | post => "POST"
  | put => "PUT"
  | patch => "PATCH"

/-- What a request is about: all objects of a kind in a namespace, or one of them, or its status. -/
structure Target where
  kind : Kind
  ns : String
  name : Option String
  status : Bool
deriving DecidableEq

namespace Target

/-- Kinds of the core group have a root of their own. -/
def root (kind : Kind) : String :=
  (if kind.group = "" then "/api/" else "/apis/" ++ kind.group ++ "/") ++ kind.version ++ "/"

def path (t : Target) : String :=
  root t.kind ++ "namespaces/" ++ t.ns ++ "/" ++ t.kind.plural ++
    (match t.name with
      | some name => "/" ++ name
      | none => "") ++
    (if t.status then "/status" else "")

end Target

structure Request where
  method : Method
  target : Target
  fieldManager : Option String
  body : Option Json
deriving DecidableEq

namespace Request

def upperHex (n : Nat) : Char := (Nat.digitChar n).toUpper

/-- Form encoding: letters, digits and a few marks stay, a blank becomes a plus. -/
def formByte (b : UInt8) : List Char :=
  let c := Char.ofNat b.toNat
  if b < 128 ∧ (c.isAlphanum ∨ c ∈ ['*', '-', '.', '_']) then [c]
  else if c = ' ' then ['+']
  else ['%', upperHex (b.toNat / 16), upperHex (b.toNat % 16)]

def formEncode (s : String) : String := String.ofList (s.toUTF8.toList.flatMap formByte)

def location (r : Request) : String :=
  r.target.path ++ match r.fieldManager with
    | some manager => "?&fieldManager=" ++ formEncode manager
    | none => ""

def uri? (r : Request) : Option String := (Uri.pathAndQuery? r.location.toList).map String.ofList

def accept (r : Request) : Option String :=
  match r.method with
  | .patch => some "application/json"
  | .get | .post | .put => none

def contentType (r : Request) : Option String :=
  match r.method with
  | .get => none
  | .post | .put => some "application/json"
  | .patch => some "application/merge-patch+json"

/-- Names and namespaces stand in the path as they are. -/
def checked (r : Request) : Except StoreError Request :=
  if Uri.maxBytes < r.location.utf8ByteSize then .error (.request .longLocation)
  else match r.uri? with
    | some _ => .ok r
    | none => .error (.request .badPath)

end Request

def requireName (name : String) : Except StoreError Unit :=
  if name = "" then .error (.request (.invalid "A non-empty name is required")) else .ok ()

def requireManager (manager parameters : String) : Except StoreError Unit :=
  if 128 < manager.utf8ByteSize then
    .error (.request (.invalid ("Failed to validate " ++ parameters ++ "::field_manager!")))
  else .ok ()

/-- The status together with the version that it was computed at, which makes the write conditional. -/
def statusPatch (server : McpServer) (version : String) : Json := .obj [
  ("apiVersion", .str McpServer.apiVersion),
  ("kind", .str McpServer.kindName),
  ("metadata", .obj [("resourceVersion", .str version)]),
  ("status", .orNull ServerStatus.encode server.status)]

/-- The request of a call, in the name of a field manager. -/
def Request.ofCall (manager : String) : Call → Except StoreError Request
  | .get key => do
      requireName key.name
      Request.checked ⟨.get, ⟨key.kind, key.ns, some key.name, false⟩, none, none⟩
  | .create kind o => do
      requireManager manager "PostParams"
      let key := Key.of kind o
      Request.checked ⟨.post, ⟨kind, key.ns, none, false⟩, some manager, some (kind.encode o)⟩
  | .replace kind o => do
      let key := Key.of kind o
      requireName key.name
      Request.checked ⟨.put, ⟨kind, key.ns, some key.name, false⟩, some manager, some (kind.encode o)⟩
  | .replaceStatus server => do
      let key := Key.of .server server
      let version ← match server.metadata.resourceVersion with
        | some version => .ok version
        | none => .error (.missingResourceVersion key.display)
      requireName key.name
      requireManager manager "PatchParams"
      Request.checked ⟨.patch, ⟨.server, key.ns, some key.name, true⟩, some manager,
        some (statusPatch server version)⟩

end McpOperator.Cluster
