import McpOperator.Cluster.Request
import McpOperator.Json.Read

namespace McpOperator.Cluster

/-- A response comes with what its reader says of the text if no object can be made of it. -/
structure Response where
  status : UInt16
  text : String
  fault : ReadFault := { text := "" }
deriving DecidableEq

inductive Exchange where
  | response (response : Response)
  | failed (why : String)
  | timedOut
deriving DecidableEq

def reasonPhrases : List (Nat × String) := [
  (400, "Bad Request"), (401, "Unauthorized"), (402, "Payment Required"), (403, "Forbidden"),
  (404, "Not Found"), (405, "Method Not Allowed"), (406, "Not Acceptable"),
  (407, "Proxy Authentication Required"), (408, "Request Timeout"), (409, "Conflict"),
  (410, "Gone"), (411, "Length Required"), (412, "Precondition Failed"),
  (413, "Payload Too Large"), (414, "URI Too Long"), (415, "Unsupported Media Type"),
  (416, "Range Not Satisfiable"), (417, "Expectation Failed"), (418, "I'm a teapot"),
  (421, "Misdirected Request"), (422, "Unprocessable Entity"), (423, "Locked"),
  (424, "Failed Dependency"), (425, "Too Early"), (426, "Upgrade Required"),
  (428, "Precondition Required"), (429, "Too Many Requests"),
  (431, "Request Header Fields Too Large"), (451, "Unavailable For Legal Reasons"),
  (500, "Internal Server Error"), (501, "Not Implemented"), (502, "Bad Gateway"),
  (503, "Service Unavailable"), (504, "Gateway Timeout"), (505, "HTTP Version Not Supported"),
  (506, "Variant Also Negotiates"), (507, "Insufficient Storage"), (508, "Loop Detected"),
  (510, "Not Extended"), (511, "Network Authentication Required")]

def statusText (code : UInt16) : String :=
  toString code.toNat ++ " " ++ (reasonPhrases.lookup code.toNat).getD "<unknown status code>"

/-- The failure that a response reports, or one made up from its text when it reports none. -/
def Response.failure (r : Response) : ApiFailure :=
  match (Json.ofText? r.text).map ApiFailure.decode with
  | some (.ok f) => f
  | _ => ⟨statusText r.status, Text.quoted r.text, "Failed to parse error data", r.status⟩

def Response.isFailure (r : Response) : Bool := 400 ≤ r.status && r.status < 600

inductive Outcome where
  | answered (response : Response)
  | refused (failure : ApiFailure)
  | error (error : StoreError)
deriving DecidableEq

def Exchange.outcome (timeout : String) : Exchange → Outcome
  | .response r => if r.isFailure then .refused r.failure else .answered r
  | .failed why => .error (.transport why)
  | .timedOut => .error (.timeout timeout)

def readObject (kind : Kind) (r : Response) : Except StoreError kind.Object :=
  match (Json.ofText? r.text).map kind.decode with
  | some (.ok o) => .ok o
  | _ => .error (.unreadable r.fault)

def objectOf (kind : Kind) : Outcome → Except StoreError kind.Object
  | .answered r => readObject kind r
  | .refused f => .error (.ofApi f)
  | .error e => .error e

/-- An object that is not found is no failure of a read. -/
def optionalObjectOf (kind : Kind) : Outcome → Except StoreError (Option kind.Object)
  | .refused f => if f.reason = "NotFound" then .ok none else .error (.ofApi f)
  | outcome => (objectOf kind outcome).map some

def timeoutText (operation : String) (key : Key) : String :=
  operation ++ " " ++ key.kind.name ++ " " ++ key.display

def answerOf : (c : Call) → Exchange → c.Answer
  | .get key, x => optionalObjectOf key.kind (x.outcome (timeoutText "get" key))
  | .create kind o, x => objectOf kind (x.outcome (timeoutText "create" (Key.of kind o)))
  | .replace kind o, x => objectOf kind (x.outcome (timeoutText "replace" (Key.of kind o)))
  | .replaceStatus server, x =>
      objectOf .server (x.outcome (timeoutText "replace_status" (Key.of .server server)))

/-- Answers calls by sending their requests. Nothing is sent for a call without a request. -/
def answer (manager : String) (send : Request → σ → Exchange × σ) (c : Call) (s : σ) :
    c.Answer × σ :=
  match Request.ofCall manager c with
  | .error e => (.error e, s)
  | .ok request =>
      let (x, s) := send request s
      (answerOf c x, s)

end McpOperator.Cluster
