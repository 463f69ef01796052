import McpOperator.Cluster.Registry
import McpOperator.Reconcile.Pass
import McpOperator.Reconcile.Trigger

namespace McpOperator.Cluster

/-- The operator at work on a cluster: changes name servers, every named server gets a pass, and the
writes of a pass are changes again. `watch` is the namespace that is looked at, or none for all of
them. -/
structure Controller where
  gatewayImage : String
  manager : String
  watch : Option String
deriving DecidableEq

def watchPath (watch : Option String) (kind : Kind) : String :=
  Target.root kind ++
    (match watch with
      | some ns => "namespaces/" ++ ns ++ "/"
      | none => "") ++ kind.plural

def watchedKinds : List Kind := [.server, .deployment, .service, .configMap, .secret]

structure Progress where
  registry : Registry
  pending : List Key
deriving DecidableEq

namespace Controller

def watches (c : Controller) (key : Key) : Bool := c.watch.all (· = key.ns)

def servers (c : Controller) (r : Registry) : List McpServer :=
  r.objects.filterMap fun (key, json) =>
    if key.kind = .server ∧ c.watches key then (McpServer.decode json).toOption else none

/-- The servers that a change concerns. Changes elsewhere concern none. -/
def concerned (c : Controller) (r : Registry) (change : Change) : List Key :=
  if c.watches change.key then
    match change.key.kind.decode change.json with
    | .ok o => concernedBy (c.servers r) change.key.kind o
    | .error _ => []
  else []

def notice (c : Controller) (p : Progress) : Progress :=
  { registry := { p.registry with changes := [] }
    pending := (p.registry.changes.flatMap (c.concerned p.registry)).foldl
      (fun pending key => pending.insert key) p.pending }

/-- Passes over a server unless it is gone. A pass that met a conflict is pending again. -/
def visit (c : Controller) (now : Instant) (key : Key) (p : Progress) : Progress :=
  match (c.servers p.registry).find? fun server => Key.of .server server = key with
  | none => p
  | some server =>
      let (result, registry) :=
        (reconcile c.gatewayImage now server).run (answer c.manager Registry.serve) p.registry
      match result with
      | .ok _ => { p with registry }
      | .error e => { registry, pending := if e.isConflict then p.pending.insert key else p.pending }

def passes (c : Controller) (now : Instant) : Nat → Progress → Progress
  | 0, p => c.notice p
  | n + 1, p =>
      let p := c.notice p
      match p.pending with
      | [] => p
      | key :: rest => c.passes now n (c.visit now key { p with pending := rest })

/-- More passes than a cluster of this size takes to come to rest. -/
def patience (r : Registry) : Nat := 16 * (r.objects.length + r.changes.length + 1) + r.statusConflicts

def settle (c : Controller) (now : Instant) (p : Progress) : Progress :=
  c.passes now (patience p.registry) p

def start (c : Controller) (now : Instant) (r : Registry) : Progress :=
  c.settle now ⟨{ r with changes := [] }, (c.servers r).map (Key.of .server)⟩

end Controller
end McpOperator.Cluster
