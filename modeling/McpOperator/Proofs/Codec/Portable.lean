import McpOperator.Proofs.Codec.Kind
import McpOperator.Proofs.Json.Read

namespace McpOperator

def Json.PortableMember (depth : Nat) (o : Option Json) : Prop := ∀ json ∈ o, json.Portable depth

/-- A written form that a JSON text can hold, in at most so many containers. -/
class PortableForm {α : Type} (encode : α → Json) (depth : outParam Nat) : Prop where
  portable (a : α) : (encode a).Portable depth

namespace PortableForm

variable {α : Type} {encode : α → Json} {depth bound : Nat}

@[simp] theorem portable_of_le [PortableForm encode depth] (h : depth ≤ bound) (a : α) :
    (encode a).Portable bound :=
  (portable a).mono h

@[simp] theorem portableMember_of_some [PortableForm encode depth] (h : depth ≤ bound) (a : α) :
    Json.PortableMember bound (some (encode a)) := by
  rintro _ ⟨⟩
  exact portable_of_le h a

@[simp] theorem portableMember_of_map [PortableForm encode depth] (h : depth ≤ bound) (o : Option α) :
    Json.PortableMember bound (o.map encode) := by
  cases o with
  | none => exact fun _ h => nomatch h
  | some a => exact portableMember_of_some h a

@[simp] theorem portable_orNull [PortableForm encode depth] (h : depth ≤ bound) (o : Option α) :
    (Json.orNull encode o).Portable bound := by
  cases o with
  | none => exact .null
  | some a => exact portable_of_le h a

theorem ofRecord {members : α → List (String × Option Json)}
    (h : ∀ a, ∀ f ∈ members a, Json.PortableMember depth f.2) :
    PortableForm (fun a => .record (members a)) (depth + 1) where
  portable a := .obj fun _ he => h a _ (Members.mem_present.1 he) _ rfl

theorem ofObject {members : α → Members} (h : ∀ a, ∀ e ∈ members a, e.2.Portable depth) :
    PortableForm (fun a => .obj (members a)) (depth + 1) where
  portable a := .obj (h a)

end PortableForm

section

variable {α : Type} {encode : α → Json} {depth : Nat}

instance : PortableForm Json.str 0 := ⟨.str⟩

instance : PortableForm Json.bool 0 := ⟨.bool⟩

instance : PortableForm Json.ofUInt16 0 where
  portable n := .int (by have := n.toNat_lt; omega) (by have := n.toNat_lt; omega)

instance : PortableForm Json.ofInt32 0 where
  portable n := .int (by have := n.le_toInt; omega) (by have := n.toInt_lt; omega)

instance : PortableForm Json.ofInt64 0 where
  portable n := .int (by have := n.le_toInt; omega) (by have := n.toInt_lt; omega)

instance : PortableForm (fun t : Instant => Json.str t.text) 0 := ⟨fun _ => .str _⟩

instance [PortableForm encode depth] : PortableForm (Json.ofList encode) (depth + 1) where
  portable as := by
    refine .arr fun json hjson => ?_
    obtain ⟨a, -, rfl⟩ := List.mem_map.1 hjson
    exact PortableForm.portable a

instance [PortableForm encode depth] : PortableForm (Json.ofMap encode) (depth + 1) where
  portable m := by
    refine .obj fun e he => ?_
    obtain ⟨f, -, rfl⟩ := List.mem_map.1 he
    exact PortableForm.portable f.2

instance : PortableForm Json.ofStringMap 1 := inferInstanceAs (PortableForm (Json.ofMap Json.str) 1)

instance : PortableForm Json.strings 1 where
  portable _ := .arr fun _ h => by
    obtain ⟨s, -, rfl⟩ := List.mem_map.1 h
    exact .str s

instance : PortableForm DataMap.encodeBytes 0 := ⟨fun _ => .str _⟩

instance : PortableForm DataMap.encode 1 := inferInstanceAs (PortableForm (Json.ofMap DataMap.encodeBytes) 1)

end

instance : PortableForm PortTarget.encode 0 where
  portable
    | .number p => (inferInstance : PortableForm Json.ofInt32 0).portable p
    | .name _ => .str _

mutual

def Form.depth : Form → Nat
  | .bool | .int32 | .int64 | .text | .time | .portTarget => 0
  | .list item => item.depth + 1
  | .map value => value.depth + 1
  | .record _ members => members.depth + 1

def FormMembers.depth : FormMembers → Nat
  | .nil => 0
  | .cons _ _ form rest => max form.depth rest.depth

end

mutual

theorem Form.portable : (form : Form) → PortableForm form.encode form.depth
  | .bool => inferInstanceAs (PortableForm Json.bool 0)
  | .int32 => inferInstanceAs (PortableForm Json.ofInt32 0)
  | .int64 => inferInstanceAs (PortableForm Json.ofInt64 0)
  | .text => inferInstanceAs (PortableForm Json.str 0)
  | .time => ⟨fun _ => .str _⟩
  | .portTarget => inferInstanceAs (PortableForm PortTarget.encode 0)
  | .list item => by
      have hitem : PortableForm item.encode item.depth := item.portable
      exact inferInstanceAs (PortableForm (Json.ofList item.encode) (item.depth + 1))
  | .map value => by
      have hvalue : PortableForm value.encode value.depth := value.portable
      exact inferInstanceAs (PortableForm (Json.ofMap value.encode) (value.depth + 1))
  | .record _ members => .ofRecord fun values => members.portable_encode values (Nat.le_refl _)

theorem FormMembers.portable_encode : (members : FormMembers) → (values : members.Values) → {bound : Nat} →
    members.depth ≤ bound → ∀ f ∈ members.encode values, Json.PortableMember bound f.2
  | .nil, _, _, _ => nofun
  | .cons _ .required form rest, (value, values), _, hbound => by
      have hform : PortableForm form.encode form.depth := form.portable
      have hbound := Nat.max_le.1 hbound
      exact List.forall_mem_cons.2 ⟨PortableForm.portableMember_of_some hbound.1 value,
        rest.portable_encode values hbound.2⟩
  | .cons _ .optional form rest, (value, values), _, hbound => by
      have hform : PortableForm form.encode form.depth := form.portable
      have hbound := Nat.max_le.1 hbound
      exact List.forall_mem_cons.2 ⟨PortableForm.portableMember_of_map hbound.1 value,
        rest.portable_encode values hbound.2⟩

end

instance (layout : Layout) : PortableForm layout.encode layout.form.depth := layout.form.portable

instance : PortableForm OwnerReference.encode 1 := .ofRecord (by simp)

instance : PortableForm ManagedFieldsEntry.encode 1 := .ofRecord (by simp)

instance : PortableForm ObjectMeta.encode 3 := .ofRecord (by simp)

instance : PortableForm LocalObjectReference.encode 1 := .ofRecord (by simp)

instance : PortableForm LabelRequirement.encode 2 := .ofRecord (by simp)

instance : PortableForm LabelSelector.encode 4 := .ofRecord (by simp)

instance : PortableForm Condition.encode 1 := .ofRecord (by simp)

instance : PortableForm ConfigMapVolume.encode 3 := .ofRecord (by simp (disch := decide))

instance : PortableForm SecretVolume.encode 3 := .ofRecord (by simp (disch := decide))

instance : PortableForm EmptyDirVolume.encode 1 := .ofRecord (by simp)

instance : PortableForm Volume.encode 9 := .ofRecord (by simp (disch := decide))

instance : PortableForm VolumeMount.encode 1 := .ofRecord (by simp)

instance : PortableForm EnvVar.encode 3 := .ofRecord (by simp (disch := decide))

instance : PortableForm EnvSource.encode 1 := .ofRecord (by simp)

instance : PortableForm EnvFrom.encode 2 := .ofRecord (by simp)

instance : PortableForm ContainerPort.encode 1 := .ofRecord (by simp)

instance : PortableForm Capabilities.encode 2 := .ofRecord (by simp)

instance : PortableForm SeccompProfile.encode 1 := .ofRecord (by simp)

instance : PortableForm SecurityContext.encode 3 := .ofRecord (by simp (disch := decide))

instance : PortableForm Container.encode 6 := .ofRecord (by simp (disch := decide) [Container.members])

instance : PortableForm EphemeralContainer.encode 6 := .ofRecord (by simp (disch := decide) [Container.members])

instance : PortableForm PodSpec.encode 11 := .ofRecord (by simp (disch := decide))

instance : PortableForm PodTemplate.encode 12 := .ofRecord (by simp)

instance : PortableForm ServicePort.encode 1 := .ofRecord (by simp)

instance : PortableForm ServiceSpec.encode 3 := .ofRecord (by simp (disch := decide))

instance : PortableForm ServiceStatus.encode 6 := .ofRecord (by simp (disch := decide))

instance : PortableForm DeploymentSpec.encode 13 := .ofRecord (by simp (disch := decide))

instance : PortableForm DeploymentStatus.encode 3 := .ofRecord (by simp (disch := decide))

instance : PortableForm TransportType.encode 0 := ⟨fun _ => .str _⟩

instance : PortableForm ServerDeployment.encode 11 := .ofObject (by simp)

instance : PortableForm HttpTransport.encode 1 := .ofObject (by simp)

instance : PortableForm SecretKeyRef.encode 1 := .ofObject (by simp)

instance : PortableForm JwtSpec.encode 2 := .ofObject (by simp)

instance : PortableForm AuthenticationSpec.encode 3 := .ofObject (by simp)

instance : PortableForm KeycloakSpec.encode 1 := .ofObject (by simp)

instance : PortableForm ProviderSpec.encode 2 where
  portable
    | .keycloak k => .obj (by simp)

instance : PortableForm ResourceSpec.encode 2 := .ofObject (by simp)

instance : PortableForm AuthorizationServerSpec.encode 3 := .ofObject (by simp)

instance : PortableForm AuthorizationSpec.encode 4 := .ofObject (by simp)

instance : PortableForm CorsSpec.encode 2 := .ofObject (by simp)

instance : PortableForm RouteFilter.encode 3 := .ofObject (by simp)

instance : PortableForm ServerSpec.encode 12 := .ofObject (by simp)

instance : PortableForm ServerStatus.encode 3 := .ofObject (by simp)

instance : PortableForm McpServer.encode 13 := .ofRecord (by simp)

instance : PortableForm Deployment.encode 14 := .ofRecord (by simp)

instance : PortableForm Service.encode 7 := .ofRecord (by simp)

instance : PortableForm ConfigMap.encode 4 := .ofRecord (by simp)

instance : PortableForm Secret.encode 4 := .ofRecord (by simp)

theorem Kind.portable_encode : (kind : Kind) → (o : kind.Object) →
    (kind.encode o).Portable Json.Reading.depthLimit
  | .server, o => (show (McpServer.encode o).Portable _ from PortableForm.portable o).mono (by decide)
  | .deployment, o => (show (Deployment.encode o).Portable _ from PortableForm.portable o).mono (by decide)
  | .service, o => (show (Service.encode o).Portable _ from PortableForm.portable o).mono (by decide)
  | .configMap, o => (show (ConfigMap.encode o).Portable _ from PortableForm.portable o).mono (by decide)
  | .secret, o => (show (Secret.encode o).Portable _ from PortableForm.portable o).mono (by decide)

/-- What is written as a text is read from it. -/
theorem Kind.ofText?_compact {kind : Kind} (o : kind.Object) :
    Json.ofText? (kind.encode o).compact = some (kind.encode o) :=
  Json.ofText?_compact (kind.portable_encode o) (Tidy.distinct o) (Nat.le_refl _)

theorem Kind.encode_eq_of_compact {kind : Kind} {o p : kind.Object}
    (h : (kind.encode o).compact = (kind.encode p).compact) : kind.encode o = kind.encode p := by
  have hread := Kind.ofText?_compact o
  rw [h, Kind.ofText?_compact] at hread
  exact (Option.some.inj hread).symm

/-- Objects that are written as the same text are the same, as far as they are written at all. -/
theorem Kind.wholeSeconds_eq_of_compact {kind : Kind} {o p : kind.Object}
    (h : (kind.encode o).compact = (kind.encode p).compact) :
    kind.wholeSeconds o = kind.wholeSeconds p := by
  have hread := Kind.decode_encode o
  rw [Kind.encode_eq_of_compact h, Kind.decode_encode] at hread
  exact (Except.ok.inj hread).symm

end McpOperator
