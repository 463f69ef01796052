import McpOperator.Objects.Kind
import McpOperator.Proofs.Codec.Objects

namespace McpOperator

section

variable {α : Type} {encode : α → Json} {decode : Decoder α} {kept : α → α}

@[simp] theorem Json.orNull_distinct [Tidy encode] (o : Option α) : (Json.orNull encode o).Distinct := by
  cases o with
  | none => exact .null
  | some a => exact Tidy.distinct a

@[simp] theorem Fields.read_orNull [Codec encode decode kept] (absent : Except FieldFault (Option α))
    (key : String) (o : Option α) :
    read (Decode.orNull decode) absent key (some (Json.orNull encode o)) = .ok (o.map kept) := by
  cases o with
  | none => rfl
  | some a => simp [Json.orNull, read, orNull_encode, Except.mapError]

end

instance : Codec Json.ofUInt16 Decode.u16 id where
  encode_ne_null _ := by simp [Json.ofUInt16]
  distinct n := .int _
  decode_encode n := by
    have hhigh := n.toNat_lt
    have hrange : 0 ≤ (n.toNat : Int) ∧ (n.toNat : Int) ≤ 65535 := by omega
    simp [Json.ofUInt16, Decode.u16, Decode.intWithin, hrange, Except.map]
  encode_kept _ := rfl

instance : Codec TransportType.encode TransportType.decode id where
  encode_ne_null _ := by simp [TransportType.encode]
  distinct _ := .str _
  decode_encode t := by cases t <;> rfl
  encode_kept _ := rfl

instance : Codec ServerDeployment.encode ServerDeployment.decode id :=
  .ofObject (by simp [ServerDeployment.fields]) (by simp) (by simp) (by simp)

instance : Codec HttpTransport.encode HttpTransport.decode id :=
  .ofObject (by simp [HttpTransport.fields]) (by simp) (by simp) (by simp)

instance : Codec SecretKeyRef.encode SecretKeyRef.decode id :=
  .ofObject (by simp [SecretKeyRef.fields]) (by simp) (by simp) (by simp)

instance : Codec JwtSpec.encode JwtSpec.decode id :=
  .ofObject (by simp [JwtSpec.fields]) (by simp) (by simp) (by simp)

instance : Codec AuthenticationSpec.encode AuthenticationSpec.decode id :=
  .ofObject (by simp [AuthenticationSpec.fields]) (by simp) (by simp) (by simp)

instance : Codec KeycloakSpec.encode KeycloakSpec.decode id :=
  .ofObject (by simp [KeycloakSpec.fields]) (by simp) (by simp) (by simp)

instance : Codec ProviderSpec.encode ProviderSpec.decode id where
  encode_ne_null
    | .keycloak _ => by simp [ProviderSpec.encode]
  distinct
    | .keycloak _ => .obj (by simp) (by simp)
  decode_encode
    | .keycloak k => by
        have hread := Codec.decode_written KeycloakSpec.encode KeycloakSpec.decode k
        simp [ProviderSpec.encode, ProviderSpec.decode, hread, Except.map]
  encode_kept _ := rfl

instance : Codec ResourceSpec.encode ResourceSpec.decode id :=
  .ofObject (by simp [ResourceSpec.fields]) (by simp) (by simp) (by simp)

instance : Codec AuthorizationServerSpec.encode AuthorizationServerSpec.decode id :=
  .ofObject (by simp [AuthorizationServerSpec.fields]) (by simp) (by simp) (by simp)

instance : Codec AuthorizationSpec.encode AuthorizationSpec.decode id :=
  .ofObject (by simp [AuthorizationSpec.fields]) (by simp) (by simp) (by simp)

instance : Codec CorsSpec.encode CorsSpec.decode id :=
  .ofObject (by simp [CorsSpec.fields]) (by simp) (by simp) (by simp)

instance : Codec RouteFilter.encode RouteFilter.decode id :=
  .ofObject (by simp [RouteFilter.fields]) (by simp) (by simp) (by simp)

instance : Codec ServerSpec.encode ServerSpec.decode id :=
  .ofObject (by simp [ServerSpec.fields]) (by simp) (by simp) (by simp)

namespace ServerStatus

def wholeSeconds (s : ServerStatus) : ServerStatus :=
  { s with conditions := s.conditions.map Condition.wholeSeconds }

instance : Codec encode decode wholeSeconds :=
  .ofObject (by simp [fields, wholeSeconds])
    (by simp [wholeSeconds, Json.ofList, Function.comp_def]) (by simp) (by simp)

@[simp] theorem encode_wholeSeconds (s : ServerStatus) : s.wholeSeconds.encode = s.encode :=
  Codec.encode_kept decode s

end ServerStatus

namespace McpServer

def wholeSeconds (s : McpServer) : McpServer :=
  { s with metadata := s.metadata.wholeSeconds, status := s.status.map ServerStatus.wholeSeconds }

instance : Codec encode decode wholeSeconds where
  encode_ne_null _ := by simp [encode, Json.record]
  distinct s := Json.record_distinct (by simp) (by simp)
  decode_encode s := by simp [encode, Json.record, decode, fields, wholeSeconds, Except.mapError]
  encode_kept s := by simp [encode, wholeSeconds, Function.comp_def]

end McpServer

namespace Kind

def wholeSeconds : (kind : Kind) → kind.Object → kind.Object
  | server => McpServer.wholeSeconds
  | deployment => Deployment.wholeSeconds
  | service => Service.wholeSeconds
  | configMap => ConfigMap.wholeSeconds
  | secret => Secret.wholeSeconds

instance : (kind : Kind) → Codec kind.encode kind.decode kind.wholeSeconds
  | server => inferInstanceAs (Codec McpServer.encode McpServer.decode McpServer.wholeSeconds)
  | deployment => inferInstanceAs (Codec Deployment.encode Deployment.decode Deployment.wholeSeconds)
  | service => inferInstanceAs (Codec Service.encode Service.decode Service.wholeSeconds)
  | configMap => inferInstanceAs (Codec ConfigMap.encode ConfigMap.decode ConfigMap.wholeSeconds)
  | secret => inferInstanceAs (Codec Secret.encode Secret.decode Secret.wholeSeconds)

end Kind
end McpOperator
