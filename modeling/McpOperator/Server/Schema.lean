import McpOperator.Server.Spec

namespace McpOperator

mutual

inductive Schema where
  | text
  | word (words : List String)
  | number (format : String) (natural : Bool)
  | list (item : Schema)
  | map (value : Schema)
  | record (fields : List SchemaField)
  | choice (fields : List SchemaField)
  | anything

/-- A field has to be there, or may be null, or has a value for when it is missing. -/
inductive SchemaField where
  | required (name description : String) (schema : Schema)
  | nullable (name description : String) (schema : Schema)
  | defaulted (name description : String) (value : Json) (schema : Schema)

end

namespace SchemaField

def name : SchemaField → String
  | required name _ _ | nullable name _ _ | defaulted name _ _ _ => name

def isRequired : SchemaField → Bool
  | required _ _ _ => true
  | nullable _ _ _ | defaulted _ _ _ _ => false

end SchemaField

namespace Schema

def sorted (members : Members) : Members :=
  members.foldl (fun sorted (key, value) => Members.insert key value sorted) []

def sortedTexts (texts : List String) : List String := texts.mergeSort fun a b => decide (a ≤ b)

def requirement (fields : List SchemaField) : Members :=
  match sortedTexts ((fields.filter (·.isRequired)).map (·.name)) with
  | [] => []
  | names => [("required", .strings names)]

def described (description : String) (members : Members) : Members :=
  if description = "" then members else ("description", .str description) :: members

def typed (type : String) (members : Members) : Members := ("type", .str type) :: members

mutual

def members : Schema → Members
  | text => typed "string" []
  | word words => typed "string" [("enum", .strings words)]
  | number format natural =>
      typed "integer"
        (("format", .str format) :: if natural then [("minimum", .float ⟨false, 0, 0⟩)] else [])
  | list item => typed "array" [("items", .obj (sorted item.members))]
  | map value => typed "object" [("additionalProperties", .obj (sorted value.members))]
  | record fields =>
      typed "object" (("properties", .obj (sorted (properties fields))) :: requirement fields)
  | choice fields =>
      typed "object" [
        ("oneOf", .arr (fields.map fun f => .obj [("required", .strings [f.name])])),
        ("properties", .obj (sorted (properties fields)))]
  | anything => typed "object" [("x-kubernetes-preserve-unknown-fields", .bool true)]

def properties : List SchemaField → Members
  | [] => []
  | .required name description schema :: rest =>
      (name, .obj (sorted (described description schema.members))) :: properties rest
  | .nullable name description schema :: rest =>
      (name, .obj (sorted (("nullable", .bool true) :: described description schema.members))) ::
        properties rest
  | .defaulted name description value schema :: rest =>
      (name, .obj (sorted (("default", value) :: described description schema.members))) ::
        properties rest

end

def encode (s : Schema) : Json := .obj (sorted s.members)

def u16 : Schema := number "uint16" true

def texts : Schema := list text

end Schema

open SchemaField Schema

def HttpTransport.schema : Schema := record [nullable "targetPort" "" u16, nullable "targetPath" "" text]

def SecretKeyRef.schema : Schema := record [required "name" "" text, required "key" "" text]

def JwtSpec.schema : Schema := record [
  required "issuer" "" text,
  defaulted "audiences" "" (.arr []) texts,
  nullable "jwksRef" "Secret holding the JWKS document, mounted into the gateway container."
    SecretKeyRef.schema,
  nullable "jwksInline" "JWKS document embedded in the generated configuration." text]

def ProviderSpec.schema : Schema := choice [
  required "keycloak" "" (record [defaulted "realm" "" (.str "") text])]

def ResourceSpec.schema : Schema := record [
  required "resource" "Base URL of the protected resource; `/mcp` is appended." text,
  defaulted "scopesSupported" "" (.arr []) texts,
  defaulted "bearerMethodsSupported" "" (.arr []) texts,
  defaulted "additionalFields" "Provider specific metadata passed through unchanged." (.obj [])
    (map text)]

def AuthorizationServerSpec.schema : Schema := record [
  required "issuer" "" text,
  required "audience" "" text,
  required "jwksUrl" "" text,
  nullable "provider" "" ProviderSpec.schema,
  nullable "resourceMetadata" "" ResourceSpec.schema]

def AuthorizationSpec.schema : Schema := record [
  defaulted "rules" "CEL expressions evaluated by the gateway for every MCP request." (.arr []) texts,
  nullable "server" "" AuthorizationServerSpec.schema]

def RouteFilter.schema : Schema := record [
  nullable "cors" "" (record [
    defaulted "allowOrigins" "" (.arr []) texts,
    defaulted "allowHeaders" "" (.arr []) texts])]

def ServerDeployment.schema : Schema := record [
  nullable "image" "Container image. May be omitted when `cmd` is `uvx` or `npx`." text,
  defaulted "port" "Port agentgateway listens on." (.int 0) u16,
  nullable "cmd" "" text,
  defaulted "args" "" (.arr []) texts,
  defaulted "env" "" (.obj []) (map text),
  defaulted "secretRefs" "" (.arr []) (list anything),
  defaulted "configMapRefs" "" (.arr []) (list anything),
  defaulted "volumes" "" (.arr []) (list anything),
  defaulted "volumeMounts" "" (.arr []) (list anything),
  defaulted "sidecars" "" (.arr []) (list anything),
  nullable "imagePullPolicy" "" text]

def ServerSpec.schema : Schema := record [
  required "deployment" "" ServerDeployment.schema,
  nullable "transportType" "" (word ["stdio", "http"]),
  nullable "httpTransport" "" HttpTransport.schema,
  nullable "authn" "" (record [nullable "jwt" "" JwtSpec.schema]),
  nullable "authz" "" AuthorizationSpec.schema,
  nullable "routeFilter" "" RouteFilter.schema]

def ServerStatus.schema : Schema := record [
  defaulted "observedGeneration" "" (.int 0) (number "int64" false),
  defaulted "conditions" "" (.arr []) (list anything)]

def McpServer.schema : Schema := record [
  required "spec" "MCPServer describes one MCP server process and how it is exposed through agentgateway."
    ServerSpec.schema,
  nullable "status" "" ServerStatus.schema]

def McpServer.summary : String :=
  "Auto-generated derived type for MCPServerSpec via `CustomResource`"

def McpServer.column (name type path : String) : Json :=
  .obj [("jsonPath", .str path), ("name", .str name), ("type", .str type)]

def McpServer.columns : List Json := [
  column "Transport" "string" ".spec.transportType",
  column "Ready" "string" ".status.conditions[?(@.type==\"Ready\")].status",
  column "Age" "date" ".metadata.creationTimestamp"]

def McpServer.definition : Json := .obj [
  ("apiVersion", .str "apiextensions.k8s.io/v1"),
  ("kind", .str "CustomResourceDefinition"),
  ("metadata", .obj [("name", .str "mcpservers.kagent.dev")]),
  ("spec", .obj [
    ("group", .str "kagent.dev"),
    ("names", .obj [
      ("categories", .arr []),
      ("kind", .str McpServer.kindName),
      ("plural", .str "mcpservers"),
      ("shortNames", .strings ["mcps", "mcp"]),
      ("singular", .str "mcpserver")]),
    ("scope", .str "Namespaced"),
    ("versions", .arr [.obj [
      ("additionalPrinterColumns", .arr McpServer.columns),
      ("name", .str "v1alpha1"),
      ("schema", .obj [("openAPIV3Schema", .obj (sorted
        (("description", .str McpServer.summary) :: ("title", .str McpServer.kindName) ::
          McpServer.schema.members)))]),
      ("served", .bool true),
      ("storage", .bool true),
      ("subresources", .obj [("status", .obj [])])]])])]

end McpOperator
