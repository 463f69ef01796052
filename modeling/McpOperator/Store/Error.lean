import McpOperator.Text.Quoted
import McpOperator.Json.Decode

namespace McpOperator

/-- The report of a failed request, as the cluster words it. -/
structure ApiFailure where
  status : String
  message : String
  reason : String
  code : UInt16
deriving DecidableEq

namespace ApiFailure

def fields : Fields ApiFailure :=
  ApiFailure.mk <$> Fields.required "status" Decode.str
    <*> Fields.defaulted "message" Decode.str ""
    <*> Fields.defaulted "reason" Decode.str ""
    <*> Fields.required "code" Decode.u16

def decode : Decoder ApiFailure := fields.decode "ErrorResponse"

def encode (f : ApiFailure) : Json := .obj [
  ("status", .str f.status),
  ("message", .str f.message),
  ("reason", .str f.reason),
  ("code", .ofUInt16 f.code)]

def detail (f : ApiFailure) : String :=
  "ErrorResponse \x7b status: " ++ Text.quoted f.status ++ ", message: " ++ Text.quoted f.message ++
    ", reason: " ++ Text.quoted f.reason ++ ", code: " ++ toString f.code.toNat ++ " \x7d"

end ApiFailure

inductive RequestError where
  | invalid (why : String)
  | badPath
  | longLocation
deriving DecidableEq

def RequestError.message : RequestError → String
  | invalid why => "failed to validate request: " ++ why
  | badPath => "failed to build request: invalid uri character"
  | longLocation => "failed to build request: uri too long"

def RequestError.detail : RequestError → String
  | invalid why => "Validation(" ++ Text.quoted why ++ ")"
  | badPath => "BuildRequest(http::Error(InvalidUri(InvalidUriChar)))"
  | longLocation => "BuildRequest(http::Error(InvalidUri(TooLong)))"

/-- Why a document is not the value that it is read as, and where in its text that shows. A document that
is no text has no place to name. -/
structure ReadFault where
  text : String
  line : Nat := 0
  column : Nat := 0
deriving DecidableEq

namespace ReadFault

def message (f : ReadFault) : String :=
  if f.line = 0 then f.text
  else f.text ++ " at line " ++ toString f.line ++ " column " ++ toString f.column

def detail (f : ReadFault) : String :=
  "Error(" ++ Text.quoted f.text ++ ", line: " ++ toString f.line ++ ", column: " ++
    toString f.column ++ ")"

end ReadFault

inductive StoreError where
  | alreadyExists (what : String)
  | conflict (what : String)
  | timeout (what : String)
  | missingResourceVersion (what : String)
  | api (failure : ApiFailure)
  | transport (why : String)
  | request (error : RequestError)
  | unreadable (fault : ReadFault)
  | serialization (fault : ReadFault)
deriving DecidableEq

namespace StoreError

/-- Code 409 stands for a conflict unless the reason says that the object was there already. -/
def ofApi (f : ApiFailure) : StoreError :=
  if f.code = 409 then
    if f.reason = "AlreadyExists" then alreadyExists f.message else conflict f.message
  else api f

def ofDecode (e : DecodeError) : StoreError := serialization { text := e.message }

def isConflict : StoreError → Bool
  | conflict _ => true
  | _ => false

def message : StoreError → String
  | alreadyExists what => what ++ " already exists"
  | conflict what => "conflicting write: " ++ what
  | timeout what => "request timed out: " ++ what
  | missingResourceVersion what => "object has no resource version: " ++ what
  | api f => "ApiError: " ++ f.message ++ ": " ++ f.reason ++ " (" ++ f.detail ++ ")"
  | transport why => "ServiceError: " ++ why
  | request e => "Failed to build request: " ++ e.message
  | unreadable f => "Error deserializing response: " ++ f.message
  | serialization f => f.message

def detail : StoreError → String
  | alreadyExists what => "AlreadyExists(" ++ Text.quoted what ++ ")"
  | conflict what => "Conflict(" ++ Text.quoted what ++ ")"
  | timeout what => "Timeout(" ++ Text.quoted what ++ ")"
  | missingResourceVersion what => "MissingResourceVersion(" ++ Text.quoted what ++ ")"
  | api f => "Kube(Api(" ++ f.detail ++ "))"
  | transport why => "Kube(Service(" ++ Text.quoted why ++ "))"
  | request e => "Kube(BuildRequest(" ++ e.detail ++ "))"
  | unreadable f => "Kube(SerdeError(" ++ f.detail ++ "))"
  | serialization f => "Serialization(" ++ f.detail ++ ")"

end StoreError
end McpOperator
