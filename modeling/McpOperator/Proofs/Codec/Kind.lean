import McpOperator.Store.Memory
import McpOperator.Store.Upsert
import McpOperator.Proofs.Codec.Server

namespace McpOperator

namespace Kind

variable (kind : Kind) (o : kind.Object)

@[simp] theorem withMetadata_withMetadata (m n : ObjectMeta) :
    kind.withMetadata (kind.withMetadata o m) n = kind.withMetadata o n := by
  cases kind <;> rfl

@[simp] theorem metadata_wholeSeconds :
    kind.metadata (kind.wholeSeconds o) = (kind.metadata o).wholeSeconds := by
  cases kind <;> rfl

@[simp] theorem annotations_wholeSeconds :
    kind.annotations (kind.wholeSeconds o) = kind.annotations o := by
  rw [annotations, metadata_wholeSeconds]
  rfl

@[simp] theorem resourceVersion_wholeSeconds :
    kind.resourceVersion (kind.wholeSeconds o) = kind.resourceVersion o := by
  rw [resourceVersion, metadata_wholeSeconds]
  rfl

@[simp] theorem resourceVersion_withResourceVersion (version : Option String) :
    kind.resourceVersion (kind.withResourceVersion o version) = version := by
  simp [resourceVersion, withResourceVersion]

@[simp] theorem annotations_withResourceVersion (version : Option String) :
    kind.annotations (kind.withResourceVersion o version) = kind.annotations o := by
  simp [annotations, withResourceVersion]

@[simp] theorem resourceVersion_withAnnotations (annotations : Option StringMap) :
    kind.resourceVersion (kind.withAnnotations o annotations) = kind.resourceVersion o := by
  simp [resourceVersion, withAnnotations]

@[simp] theorem annotations_withAnnotations (annotations : Option StringMap) :
    kind.annotations (kind.withAnnotations o annotations) = annotations := by
  simp [Kind.annotations, withAnnotations]

@[simp] theorem withResourceVersion_withResourceVersion (v w : Option String) :
    kind.withResourceVersion (kind.withResourceVersion o v) w = kind.withResourceVersion o w := by
  simp [withResourceVersion]

theorem wholeSeconds_withResourceVersion (version : Option String) :
    kind.wholeSeconds (kind.withResourceVersion o version) =
      kind.withResourceVersion (kind.wholeSeconds o) version := by
  cases kind <;> rfl

end Kind

namespace Key

variable (kind : Kind) (o : kind.Object)

@[simp] theorem of_wholeSeconds : Key.of kind (kind.wholeSeconds o) = Key.of kind o := by
  simp [Key.of, ObjectMeta.wholeSeconds]

@[simp] theorem of_withResourceVersion (version : Option String) :
    Key.of kind (kind.withResourceVersion o version) = Key.of kind o := by
  simp [Key.of, Kind.withResourceVersion]

@[simp] theorem of_withAnnotations (annotations : Option StringMap) :
    Key.of kind (kind.withAnnotations o annotations) = Key.of kind o := by
  simp [Key.of, Kind.withAnnotations]

end Key

namespace Kind

variable {kind : Kind}

theorem decode_encode (o : kind.Object) : kind.decode (kind.encode o) = .ok (kind.wholeSeconds o) :=
  Codec.decode_written kind.encode kind.decode o

@[simp] theorem encode_wholeSeconds (o : kind.Object) :
    kind.encode (kind.wholeSeconds o) = kind.encode o :=
  Codec.encode_kept kind.decode o

@[simp] theorem wholeSeconds_wholeSeconds (o : kind.Object) :
    kind.wholeSeconds (kind.wholeSeconds o) = kind.wholeSeconds o :=
  Codec.kept_kept kind.encode kind.decode o

theorem get?_metadata (o : kind.Object) :
    (kind.encode o).get? "metadata" = some (kind.metadata o).encode := by
  cases kind <;> simp [encode, McpServer.encode, Deployment.encode, Service.encode, ConfigMap.encode,
    Secret.encode, Json.record, Json.get?, metadata]

theorem at?_annotation (o : kind.Object) (key : String) :
    (kind.encode o).at? ["metadata", "annotations", key] =
      ((kind.annotations o).bind (·.get? key)).map .str := by
  rw [Json.at?_of_get? (get?_metadata o), annotations]
  cases hannotations : (kind.metadata o).annotations with
  | none => simp [ObjectMeta.encode, Json.record, Json.at?, hannotations]
  | some annotations =>
      have hmembers : (kind.metadata o).encode.get? "annotations" = some (.ofStringMap annotations) := by
        simp [ObjectMeta.encode, Json.record, Json.get?, hannotations]
      rw [Json.at?_of_get? hmembers, Option.bind_some, ← Json.get?_ofStringMap]
      simp [Json.ofStringMap, Json.ofMap, Json.at?, Json.get?]

theorem versionOf_encode (o : kind.Object) :
    Memory.versionOf (kind.encode o) = kind.resourceVersion o := by
  rw [Memory.versionOf, get?_metadata, resourceVersion]
  generalize kind.metadata o = m
  cases h : m.resourceVersion <;>
    simp [ObjectMeta.encode, Json.record, Json.text?, Json.get?, h, Json.asString?]

theorem encode_isSubset {o : kind.Object} {m : ObjectMeta}
    (h : (kind.metadata o).encode.isSubset m.encode = true) :
    (kind.encode o).isSubset (kind.encode (kind.withMetadata o m)) = true := by
  cases kind
  all_goals
    apply Json.record_isSubset (by simp)
    simp_all [Json.held_refl, withMetadata, metadata]

theorem isSubset_withResourceVersion {o : kind.Object} (h : kind.resourceVersion o = none)
    (version : Option String) :
    (kind.encode o).isSubset (kind.encode (kind.withResourceVersion o version)) = true := by
  refine encode_isSubset (Json.record_isSubset (by simp) ?_)
  rw [resourceVersion] at h
  simp [h, Json.held_refl]

end Kind
end McpOperator
