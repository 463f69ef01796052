import McpOperator.Objects.Deployment
import McpOperator.Objects.Service
import McpOperator.Proofs.Codec.Base64
import McpOperator.Proofs.Codec.Form

namespace McpOperator

instance : Codec (fun t : Instant => Json.str t.text) Decode.instant Instant.wholeSeconds where
  encode_ne_null _ := by simp
  distinct _ := .str _
  decode_encode t := by simp [Decode.instant, Instant.ofText_text, Except.mapError]
  encode_kept t := by rw [Instant.text_wholeSeconds]

@[simp] theorem Fields.read_instant (absent : Except FieldFault Instant) (key : String) (t : Instant) :
    read Decode.instant absent key (some (.str t.text)) = .ok t.wholeSeconds := by
  simp [read, Decode.instant, Instant.ofText_text, Except.mapError]

namespace ManagedFieldsEntry

def wholeSeconds (e : ManagedFieldsEntry) : ManagedFieldsEntry :=
  { e with time := e.time.map Instant.wholeSeconds }

instance : Codec encode decode wholeSeconds :=
  .ofRecord (by simp [fields, wholeSeconds]) (by simp [wholeSeconds, Function.comp_def]) (by simp)
    (by simp)

@[simp] theorem encode_wholeSeconds (e : ManagedFieldsEntry) : e.wholeSeconds.encode = e.encode :=
  Codec.encode_kept decode e

end ManagedFieldsEntry

namespace ObjectMeta

def wholeSeconds (m : ObjectMeta) : ObjectMeta :=
  { m with
    creationTimestamp := m.creationTimestamp.map Instant.wholeSeconds
    deletionTimestamp := m.deletionTimestamp.map Instant.wholeSeconds
    managedFields := m.managedFields.map (List.map ManagedFieldsEntry.wholeSeconds) }

instance : Codec encode decode wholeSeconds :=
  .ofRecord (by simp [fields, wholeSeconds])
    (by simp [wholeSeconds, Function.comp_def, Codec.encode_kept (Decode.list ManagedFieldsEntry.decode)])
    (by simp) (by simp)

@[simp] theorem encode_wholeSeconds (m : ObjectMeta) : m.wholeSeconds.encode = m.encode :=
  Codec.encode_kept decode m

end ObjectMeta

instance : Codec LocalObjectReference.encode LocalObjectReference.decode id :=
  .ofRecord (by simp [LocalObjectReference.fields]) (by simp) (by simp) (by simp)

instance : Codec LabelRequirement.encode LabelRequirement.decode id :=
  .ofRecord (by simp [LabelRequirement.fields]) (by simp) (by simp) (by simp)

instance : Codec LabelSelector.encode LabelSelector.decode id :=
  .ofRecord (by simp [LabelSelector.fields]) (by simp) (by simp) (by simp)

namespace Condition

def wholeSeconds (c : Condition) : Condition :=
  { c with lastTransitionTime := c.lastTransitionTime.wholeSeconds }

instance : Codec encode decode wholeSeconds :=
  .ofRecord (by simp [fields, wholeSeconds]) (by simp [wholeSeconds]) (by simp) (by simp)

@[simp] theorem encode_wholeSeconds (c : Condition) : c.wholeSeconds.encode = c.encode :=
  Codec.encode_kept decode c

end Condition

instance : Codec ConfigMapVolume.encode ConfigMapVolume.decode id :=
  .ofRecord (by simp [ConfigMapVolume.fields]) (by simp) (by simp) (by simp)

instance : Codec SecretVolume.encode SecretVolume.decode id :=
  .ofRecord (by simp [SecretVolume.fields]) (by simp) (by simp) (by simp)

instance : Codec EmptyDirVolume.encode EmptyDirVolume.decode id :=
  .ofRecord (by simp [EmptyDirVolume.fields]) (by simp) (by simp) (by simp)

instance : Codec Volume.encode Volume.decode id :=
  .ofRecord (by simp [Volume.fields]) (by simp) (by simp) (by simp)

instance : Codec VolumeMount.encode VolumeMount.decode id :=
  .ofRecord (by simp [VolumeMount.fields]) (by simp) (by simp) (by simp)

instance : Codec EnvVar.encode EnvVar.decode id :=
  .ofRecord (by simp [EnvVar.fields]) (by simp) (by simp) (by simp)

instance : Codec EnvSource.encode EnvSource.decodeConfigMap id :=
  .ofRecord (by simp [EnvSource.fields]) (by simp) (by simp) (by simp)

instance : Codec EnvSource.encode EnvSource.decodeSecret id :=
  .ofRecord (by simp [EnvSource.fields]) (by simp) (by simp) (by simp)

instance : Codec EnvFrom.encode EnvFrom.decode id :=
  .ofRecord (by simp [EnvFrom.fields]) (by simp) (by simp) (by simp)

instance : Codec ContainerPort.encode ContainerPort.decode id :=
  .ofRecord (by simp [ContainerPort.fields]) (by simp) (by simp) (by simp)

instance : Codec Capabilities.encode Capabilities.decode id :=
  .ofRecord (by simp [Capabilities.fields]) (by simp) (by simp) (by simp)

instance : Codec SeccompProfile.encode SeccompProfile.decode id :=
  .ofRecord (by simp [SeccompProfile.fields]) (by simp) (by simp) (by simp)

instance : Codec SecurityContext.encode SecurityContext.decode id :=
  .ofRecord (by simp [SecurityContext.fields]) (by simp) (by simp) (by simp)

instance : Codec Container.encode Container.decode id :=
  .ofRecord (by simp [Container.fields, Container.members]) (by simp) (by simp [Container.members])
    (by simp [Container.members])

instance : Codec EphemeralContainer.encode EphemeralContainer.decode id :=
  .ofRecord (by simp [EphemeralContainer.fields, Container.fields, Container.members]) (by simp)
    (by simp [Container.members]) (by simp [Container.members])

instance : Codec ServicePort.encode ServicePort.decode id :=
  .ofRecord (by simp [ServicePort.fields]) (by simp) (by simp) (by simp)

instance : Codec ServiceSpec.encode ServiceSpec.decode id :=
  .ofRecord (by simp [ServiceSpec.fields]) (by simp) (by simp) (by simp)

namespace ServiceStatus

def wholeSeconds (s : ServiceStatus) : ServiceStatus :=
  { s with conditions := s.conditions.map (List.map Condition.wholeSeconds) }

instance : Codec encode decode wholeSeconds :=
  .ofRecord (by simp [fields, wholeSeconds])
    (by simp [wholeSeconds, Function.comp_def, Codec.encode_kept (Decode.list Condition.decode)])
    (by simp) (by simp)

@[simp] theorem encode_wholeSeconds (s : ServiceStatus) : s.wholeSeconds.encode = s.encode :=
  Codec.encode_kept decode s

end ServiceStatus

instance : Codec PodSpec.encode PodSpec.decode id :=
  .ofRecord (by simp [PodSpec.fields]) (by simp) (by simp) (by simp)

namespace PodTemplate

def wholeSeconds (t : PodTemplate) : PodTemplate :=
  { t with metadata := t.metadata.map ObjectMeta.wholeSeconds }

instance : Codec encode decode wholeSeconds :=
  .ofRecord (by simp [fields, wholeSeconds]) (by simp [wholeSeconds, Function.comp_def]) (by simp)
    (by simp)

@[simp] theorem encode_wholeSeconds (t : PodTemplate) : t.wholeSeconds.encode = t.encode :=
  Codec.encode_kept decode t

end PodTemplate

namespace DeploymentSpec

def wholeSeconds (s : DeploymentSpec) : DeploymentSpec :=
  { s with template := s.template.wholeSeconds }

instance : Codec encode decode wholeSeconds :=
  .ofRecord (by simp [fields, wholeSeconds]) (by simp [wholeSeconds]) (by simp)
    (by simp)

@[simp] theorem encode_wholeSeconds (s : DeploymentSpec) : s.wholeSeconds.encode = s.encode :=
  Codec.encode_kept decode s

end DeploymentSpec

instance : Codec DeploymentStatus.encode DeploymentStatus.decode id :=
  .ofRecord (by simp [DeploymentStatus.fields]) (by simp) (by simp) (by simp)

namespace Deployment

def wholeSeconds (d : Deployment) : Deployment :=
  { d with metadata := d.metadata.wholeSeconds, spec := d.spec.map DeploymentSpec.wholeSeconds }

instance : Codec encode decode wholeSeconds :=
  .ofRecord (by simp [fields, wholeSeconds]) (by simp [wholeSeconds, Function.comp_def]) (by simp)
    (by simp)

end Deployment

namespace Service

def wholeSeconds (s : Service) : Service :=
  { s with metadata := s.metadata.wholeSeconds, status := s.status.map ServiceStatus.wholeSeconds }

instance : Codec encode decode wholeSeconds :=
  .ofRecord (by simp [fields, wholeSeconds]) (by simp [wholeSeconds, Function.comp_def]) (by simp)
    (by simp)

end Service

namespace ConfigMap

def wholeSeconds (c : ConfigMap) : ConfigMap :=
  { c with metadata := c.metadata.wholeSeconds }

instance : Codec encode decode wholeSeconds :=
  .ofRecord (by simp [fields, wholeSeconds]) (by simp [wholeSeconds]) (by simp)
    (by simp)

end ConfigMap

namespace Secret

def wholeSeconds (s : Secret) : Secret :=
  { s with metadata := s.metadata.wholeSeconds }

instance : Codec encode decode wholeSeconds :=
  .ofRecord (by simp [fields, wholeSeconds]) (by simp [wholeSeconds]) (by simp)
    (by simp)

end Secret

end McpOperator
