import McpOperator.Store.Call
import McpOperator.Table

namespace McpOperator

/-- A store that keeps every object as a document tree and checks versions as the cluster does. The
counters stand for words of 64 bits that are checked for overflow in test builds. Their bound is out
of reach of any run, so they are plain numbers here. -/
structure Memory where
  objects : Table Key Json
  version : Nat
  mutations : Nat
  failingReads : List Kind
  failingWrites : List Kind
  createRaces : List Kind
  statusConflicts : Nat
deriving DecidableEq

namespace Memory

def empty : Memory := ⟨[], 0, 0, [], [], [], 0⟩

def unavailable (kind : Kind) : StoreError :=
  .ofApi ⟨"Failure", kind.name ++ " storage unavailable", "ServiceUnavailable", 503⟩

def notFound (key : Key) : StoreError :=
  .ofApi ⟨"Failure", key.kind.name ++ " " ++ key.display ++ " not found", "NotFound", 404⟩

def versionOf (json : Json) : Option String :=
  (json.get? "metadata").bind fun metadata => metadata.text? "resourceVersion"

def write (m : Memory) (kind : Kind) (o : kind.Object) : kind.Object × Memory :=
  let version := m.version + 1
  let o := kind.withResourceVersion o (some (toString version))
  (o, { m with version, objects := m.objects.put (Key.of kind o) (kind.encode o) })

/-- Stores an object as somebody else would. -/
def seed (m : Memory) (kind : Kind) (o : kind.Object) : Memory := (m.write kind o).2

def mutate (m : Memory) (kind : Kind) (o : kind.Object) : kind.Object × Memory :=
  let (o, m) := m.write kind o
  (o, { m with mutations := m.mutations + 1 })

def read (m : Memory) (key : Key) : Except DecodeError (Option key.kind.Object) :=
  match m.objects.get? key with
  | none => .ok none
  | some json => (key.kind.decode json).map some

def get (m : Memory) (key : Key) : Except StoreError (Option key.kind.Object) :=
  if key.kind ∈ m.failingReads then .error (unavailable key.kind)
  else (m.read key).mapError .ofDecode

/-- Lets another writer create the object first, when a race is set up for its kind. -/
def race (m : Memory) (kind : Kind) (o : kind.Object) : Memory :=
  if kind ∈ m.createRaces then
    { m with createRaces := m.createRaces.filter (· ≠ kind) }.seed kind (kind.withAnnotations o none)
  else m

def create (m : Memory) (kind : Kind) (o : kind.Object) : Except StoreError kind.Object × Memory :=
  if kind ∈ m.failingWrites then (.error (unavailable kind), m)
  else
    let m := m.race kind o
    let key := Key.of kind o
    if (m.objects.get? key).isSome then (.error (.alreadyExists key.display), m)
    else
      let (o, m) := m.mutate kind o
      (.ok o, m)

def replace (m : Memory) (kind : Kind) (o : kind.Object) : Except StoreError kind.Object × Memory :=
  if kind ∈ m.failingWrites then (.error (unavailable kind), m)
  else
    let key := Key.of kind o
    match m.objects.get? key with
    | none => (.error (notFound key), m)
    | some existing =>
        if versionOf existing = kind.resourceVersion o then
          let (o, m) := m.mutate kind o
          (.ok o, m)
        else (.error (.conflict key.display), m)

/-- Changes the status only. Failing writes do not reach it. -/
def replaceStatus (m : Memory) (server : McpServer) : Except StoreError McpServer × Memory :=
  let key := Key.of .server server
  if 0 < m.statusConflicts then
    (.error (.conflict key.display), { m with statusConflicts := m.statusConflicts - 1 })
  else
    match m.objects.get? key with
    | none => (.error (notFound key), m)
    | some existing =>
        match McpServer.decode existing with
        | .error e => (.error (.ofDecode e), m)
        | .ok stored =>
            if stored.metadata.resourceVersion = server.metadata.resourceVersion then
              let (o, m) := m.mutate .server { stored with status := server.status }
              (.ok o, m)
            else (.error (.conflict key.display), m)

def answer : (c : Call) → Memory → c.Answer × Memory
  | .get key, m => (m.get key, m)
  | .create kind o, m => m.create kind o
  | .replace kind o, m => m.replace kind o
  | .replaceStatus server, m => m.replaceStatus server

def failReads (m : Memory) (kind : Kind) : Memory :=
  { m with failingReads := m.failingReads.insert kind }

def failWrites (m : Memory) (kind : Kind) : Memory :=
  { m with failingWrites := m.failingWrites.insert kind }

def heal (m : Memory) : Memory := { m with failingReads := [], failingWrites := [] }

def raceCreate (m : Memory) (kind : Kind) : Memory :=
  { m with createRaces := m.createRaces.insert kind }

def conflictStatus (m : Memory) (n : Nat) : Memory := { m with statusConflicts := n }

end Memory
end McpOperator
