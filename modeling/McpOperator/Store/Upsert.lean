import McpOperator.Store.Call
import McpOperator.Json.Subset
import McpOperator.Json.Text
import McpOperator.Digest.Sha256

namespace McpOperator

inductive UpsertOutcome where
  | created
  | updated
  | unchanged
deriving DecidableEq

namespace Upsert

def hashKey : String := "kmcp.kagent.dev/applied-hash"

/-- Annotations without the digest; none rather than an empty map. -/
def withoutHash (annotations : Option StringMap) : Option StringMap :=
  (annotations.map (·.erase hashKey)).filter fun m => !m.isEmpty

def content (kind : Kind) (o : kind.Object) : kind.Object :=
  kind.withResourceVersion (kind.withAnnotations o (withoutHash (kind.annotations o))) none

def appliedHash (kind : Kind) (o : kind.Object) : String :=
  Sha256.ofText (kind.encode (content kind o)).compact

def storedHash (kind : Kind) (o : kind.Object) : Option String :=
  (kind.annotations o).bind (·.get? hashKey)

def stamp (kind : Kind) (o : kind.Object) (hash : String) : kind.Object :=
  kind.withAnnotations o (some (((kind.annotations o).getD .empty).insert hashKey hash))

def isCurrent (kind : Kind) (desired live : kind.Object) (hash : String) : Bool :=
  storedHash kind live = some hash && (kind.encode desired).isSubset (kind.encode live)

/-- Reads, then creates or replaces; a replacement carries the version that was read. An object is
left alone when it carries the digest of the desired state and still holds everything that was set. -/
def attempt (kind : Kind) (desired : kind.Object) (hash : String) :
    Work (Except StoreError UpsertOutcome) :=
  .call (.get (Key.of kind desired)) fun
    | .error e => .done (.error e)
    | .ok none =>
        .call (.create kind desired) fun
          | .error e => .done (.error e)
          | .ok _ => .done (.ok .created)
    | .ok (some live) =>
        if isCurrent kind desired live hash then .done (.ok .unchanged)
        else
          .call (.replace kind (kind.withResourceVersion desired (kind.resourceVersion live))) fun
            | .error e => .done (.error e)
            | .ok _ => .done (.ok .updated)

end Upsert

/-- A create that loses a race is followed by one more attempt. -/
def upsert (kind : Kind) (o : kind.Object) : Work (Except StoreError UpsertOutcome) :=
  let hash := Upsert.appliedHash kind o
  let desired := Upsert.stamp kind o hash
  (Upsert.attempt kind desired hash).bind fun
    | .error (.alreadyExists _) => Upsert.attempt kind desired hash
    | result => .done result

end McpOperator
