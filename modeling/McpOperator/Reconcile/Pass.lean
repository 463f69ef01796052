import McpOperator.Gateway.Outputs
import McpOperator.Reconcile.Backoff
import McpOperator.Status.Report
import McpOperator.Store.Upsert

namespace McpOperator

def ValidationError.detail : ValidationError → String
  | missingImage server => "MissingImage(" ++ Text.quoted server ++ ")"
  | unsupportedTransport => "UnsupportedTransport"
  | missingPort => "MissingPort"
  | missingCommand => "MissingCommand"
  | missingTargetPort => "MissingTargetPort"
  | targetPortConflict port => "TargetPortConflict(" ++ toString port.toNat ++ ")"

def OutputError.detail : OutputError → String
  | invalid error => "Validation(" ++ error.detail ++ ")"
  | missingJwks => "MissingJwks"
  | secretFailed secret reason =>
      "SecretResolutionFailed \x7b name: " ++ Text.quoted secret ++ ", reason: " ++
        Text.quoted reason ++ " \x7d"
  | missingRealm => "MissingRealm"
  | noOwner server => "OwnerReference(" ++ Text.quoted server ++ ")"

inductive TriggerError where
  | noName
  | noUid
  | badUid
deriving DecidableEq

def TriggerError.message : TriggerError → String
  | noName => "Resource name is not provided"
  | noUid => "Uid must be present"
  | badUid => "Uid in wrong format"

inductive PassError where
  | trigger (error : TriggerError)
  | invalid (error : ValidationError)
  | outputs (error : OutputError)
  | store (error : StoreError)
deriving DecidableEq

namespace PassError

/-- Somebody else wrote between the read and the write. -/
def isConflict : PassError → Bool
  | store e => e.isConflict
  | _ => false

def message : PassError → String
  | trigger e => "InvalidPayload(" ++ Text.quoted e.message ++ ")"
  | invalid e => "Validation(" ++ e.detail ++ ")"
  | outputs e => "Translation(" ++ e.detail ++ ")"
  | store e => "Store(" ++ e.detail ++ ")"

end PassError

def isHexDigit (c : Char) : Bool :=
  c.isDigit || ('a' ≤ c && c ≤ 'f') || ('A' ≤ c && c ≤ 'F')

def isHyphenated (cs : List Char) : Bool :=
  cs.length = 36 &&
    (List.range 36).all fun i =>
      match cs[i]? with
      | some c => if i ∈ [8, 13, 18, 23] then c = '-' else isHexDigit c
      | none => false

def isUuid (s : String) : Bool :=
  let cs := s.toList
  (cs.length = 32 && cs.all isHexDigit) || isHyphenated cs ||
    (cs.length = 38 && cs.head? = some '\x7b' && cs.getLast? = some '\x7d' &&
      isHyphenated (cs.drop 1).dropLast) ||
    (cs.take 9 = "urn:uuid:".toList && isHyphenated (cs.drop 9))

namespace Pass

def applyOne (step : ApplyStep) (kind : Kind) (o : kind.Object) :
    Work (Except (ApplyStep × StoreError) Unit) :=
  (upsert kind o).bind fun
    | .ok _ => .done (.ok ())
    | .error e => .done (.error (step, e))

def apply (o : Gateway.Outputs) : Work (Except (ApplyStep × StoreError) Unit) :=
  (applyOne .deployment .deployment o.deployment).bind fun
    | .error e => .done (.error e)
    | .ok _ => (applyOne .service .service o.service).bind fun
        | .error e => .done (.error e)
        | .ok _ => applyOne .configMap .configMap o.configMap

def readinessOf : Except StoreError (Option Deployment) → Readiness
  | .ok d => .of d
  | .error e => .unobserved e.message

def observe (key : Key) : Work Readiness :=
  .call (.get ⟨.deployment, key.ns, key.name⟩) fun answer => .done (readinessOf answer)

/-- How far the pass gets, and the failure that stopped it. -/
def evaluate (gatewayImage : String) (key : Key) (name : String) (server : McpServer) :
    Work (Report × Option PassError) :=
  match server.spec.validate name with
  | .error e => .done (.invalid e, some (.invalid e))
  | .ok _ =>
      (Gateway.derive gatewayImage server).bind fun
        | .error e => .done (.translationFailed e.message, some (.outputs e))
        | .ok outputs =>
            (apply outputs).bind fun
              | .error (step, e) => .done (.applyFailed step e.message, some (.store e))
              | .ok _ => (observe key).bind fun readiness => .done (.applied readiness, none)

/-- Writes the status unless it is the one that the server has. -/
def persist (now : Instant) (server : McpServer) (report : Report) : Work (Except StoreError Unit) :=
  let status := ServerStatus.after now server report
  if server.status = some status then .done (.ok ())
  else .call (.replaceStatus { server with status := some status }) fun
    | .ok _ => .done (.ok ())
    | .error e => .done (.error e)

def afterFetch (gatewayImage : String) (now : Instant) (key : Key) (name : String) :
    Except StoreError (Option McpServer) → Work (Except PassError Unit)
  | .error e => .done (.error (.store e))
  | .ok none => .done (.ok ())
  | .ok (some server) =>
      (evaluate gatewayImage key name server).bind fun (report, failure) =>
        (persist now server report).bind fun
          | .error e => .done (.error (.store e))
          | .ok _ => match failure with
              | some e => .done (.error e)
              | none => .done (.ok ())

def nameOf (server : McpServer) : Except TriggerError String :=
  match server.metadata.name, server.metadata.uid with
  | none, _ => .error .noName
  | some _, none => .error .noUid
  | some name, some uid => if isUuid uid then .ok name else .error .badUid

end Pass

/-- One pass for the server that a trigger names. The server itself is fetched anew. The status is
written also when the pass failed; the failure is returned after that. -/
def reconcile (gatewayImage : String) (now : Instant) (trigger : McpServer) :
    Work (Except PassError Unit) :=
  match Pass.nameOf trigger with
  | .error e => .done (.error (.trigger e))
  | .ok name =>
      let key := Key.of .server trigger
      .call (.get key) fun answer => Pass.afterFetch gatewayImage now key name answer

inductive Action where
  | awaitChange
  | requeueAfter (delay : Duration)
deriving DecidableEq

/-- A pass that met a conflict is repeated at once; after any other failure it has to wait. -/
def afterFailure (backoff : Backoff) (server : McpServer) (error : PassError) : Action × Backoff :=
  if error.isConflict then (.requeueAfter .zero, backoff)
  else
    let (delay, backoff) := backoff.next (Key.of .server server)
    (.requeueAfter delay, backoff)

def afterPass (backoff : Backoff) (trigger : McpServer) : Except PassError Unit → Backoff
  | .ok _ => backoff.reset (Key.of .server trigger)
  | .error _ => backoff

end McpOperator
