import McpOperator.Cluster.Client
import McpOperator.Json.Text
import McpOperator.Table

namespace McpOperator.Cluster

/-- A change of one object: its tree afterwards, or the last one it had when it was deleted. -/
structure Change where
  key : Key
  json : Json
deriving DecidableEq

structure Write where
  method : Method
  key : Key
  status : Bool
deriving DecidableEq

/-- The cluster's interface kept in memory. `changes` and `writes` are the ones that nobody has taken
note of yet, the oldest first. A replacement leaves the status alone and a status write leaves
everything else alone. -/
structure Registry where
  objects : Table Key Json
  version : Nat
  failingWrites : List Kind
  statusConflicts : Nat
  changes : List Change
  writes : List Write
deriving DecidableEq

namespace Registry

def empty : Registry := ⟨[], 0, [], 0, [], []⟩

def refusal (code : UInt16) (reason message : String) : Response :=
  { status := code, text := (ApiFailure.encode ⟨"Failure", message, reason, code⟩).compact }

def unavailable (kind : Kind) : Response :=
  refusal 503 "ServiceUnavailable" (kind.name ++ " storage unavailable")

def notFound (key : Key) : Response :=
  refusal 404 "NotFound" (key.kind.plural ++ " " ++ Text.quoted key.name ++ " not found")

def conflict (key : Key) : Response :=
  refusal 409 "Conflict" (key.kind.plural ++ " " ++ Text.quoted key.name ++ " has been modified")

def alreadyExists (key : Key) : Response :=
  refusal 409 "AlreadyExists" (key.kind.plural ++ " " ++ Text.quoted key.name ++ " already exists")

def metadataOf (json : Json) : Json := (json.get? "metadata").getD .null

def versionOf (json : Json) : Option String := (metadataOf json).text? "resourceVersion"

def put (r : Registry) (key : Key) (json : Json) : Json × Registry :=
  let version := r.version + 1
  let json := json.setMember "metadata"
    ((metadataOf json).setMember "resourceVersion" (.str (toString version)))
  (json, { r with
    version
    objects := r.objects.put key json
    changes := r.changes ++ [⟨key, json⟩] })

def delete (r : Registry) (key : Key) : Registry :=
  match r.objects.get? key with
  | none => r
  | some json => { r with objects := r.objects.erase key, changes := r.changes ++ [⟨key, json⟩] }

def commit (r : Registry) (write : Write) (json : Json) : Response × Registry :=
  let (json, r) := r.put write.key json
  ({ status := if write.method = .post then 201 else 200, text := json.compact },
    { r with writes := r.writes ++ [write] })

def withStatusOf (json existing : Json) : Json :=
  match existing.get? "status" with
  | some status => json.setMember "status" status
  | none => json.eraseMember "status"

def create (r : Registry) (key : Key) (body : Json) : Response × Registry :=
  if key.kind ∈ r.failingWrites then (unavailable key.kind, r)
  else if (r.objects.get? key).isSome then (alreadyExists key, r)
  else r.commit ⟨.post, key, false⟩ body

def replace (r : Registry) (key : Key) (body : Json) : Response × Registry :=
  if key.kind ∈ r.failingWrites then (unavailable key.kind, r)
  else match r.objects.get? key with
    | none => (notFound key, r)
    | some existing =>
        if versionOf body = versionOf existing then
          r.commit ⟨.put, key, false⟩ (withStatusOf body existing)
        else (conflict key, r)

def writeStatus (r : Registry) (key : Key) (body : Json) : Response × Registry :=
  if key.kind ∈ r.failingWrites then (unavailable key.kind, r)
  else match r.objects.get? key with
    | none => (notFound key, r)
    | some existing =>
        if 0 < r.statusConflicts then
          (conflict key, { r with statusConflicts := r.statusConflicts - 1 })
        else if versionOf body = versionOf existing then
          r.commit ⟨.patch, key, true⟩ (withStatusOf existing body)
        else (conflict key, r)

def read (r : Registry) (key : Key) : Response :=
  match r.objects.get? key with
  | some json => { status := 200, text := json.compact }
  | none => notFound key

def respond (request : Request) (r : Registry) : Response × Registry :=
  let t := request.target
  let body := request.body.getD .null
  match request.method, t.name with
  | .get, some name => (r.read ⟨t.kind, t.ns, name⟩, r)
  | .post, none => r.create ⟨t.kind, t.ns, ((metadataOf body).text? "name").getD ""⟩ body
  | .put, some name => r.replace ⟨t.kind, t.ns, name⟩ body
  | .patch, some name => r.writeStatus ⟨t.kind, t.ns, name⟩ body
  | _, _ => (refusal 405 "MethodNotAllowed" "the method is not supported here", r)

def serve (request : Request) (r : Registry) : Exchange × Registry :=
  let (response, r) := r.respond request
  (.response response, r)

def failWrites (r : Registry) (kind : Kind) : Registry :=
  { r with failingWrites := r.failingWrites.insert kind }

def heal (r : Registry) : Registry := { r with failingWrites := [] }

def conflictStatus (r : Registry) (n : Nat) : Registry := { r with statusConflicts := n }

end Registry
end McpOperator.Cluster
