import McpOperator.Json.Decode

namespace McpOperator

def Json.ofMap (value : α → Json) (m : SortedMap α) : Json :=
  .obj (m.entries.map fun e => (e.1, value e.2))

def Json.ofStringMap (m : StringMap) : Json := .ofMap .str m

def Json.ofInt32 (n : Int32) : Json := .int n.toInt

def Json.ofInt64 (n : Int64) : Json := .int n.toInt

def Json.ofList (item : α → Json) (as : List α) : Json := .arr (as.map item)

structure OwnerReference where
  apiVersion : String
  blockOwnerDeletion : Option Bool
  controller : Option Bool
  kind : String
  name : String
  uid : String
deriving DecidableEq

namespace OwnerReference

def fields : Fields OwnerReference :=
  OwnerReference.mk <$> Fields.lenient "apiVersion" Decode.str ""
    <*> Fields.optional "blockOwnerDeletion" Decode.bool
    <*> Fields.optional "controller" Decode.bool
    <*> Fields.lenient "kind" Decode.str ""
    <*> Fields.lenient "name" Decode.str ""
    <*> Fields.lenient "uid" Decode.str ""

def decode : Decoder OwnerReference := fields.decodeObject "OwnerReference"

def encode (o : OwnerReference) : Json := .record [
  ("apiVersion", some (.str o.apiVersion)),
  ("blockOwnerDeletion", o.blockOwnerDeletion.map .bool),
  ("controller", o.controller.map .bool),
  ("kind", some (.str o.kind)),
  ("name", some (.str o.name)),
  ("uid", some (.str o.uid))]

end OwnerReference

structure ManagedFieldsEntry where
  apiVersion : Option String := none
  fieldsType : Option String := none
  manager : Option String := none
  operation : Option String := none
  subresource : Option String := none
  time : Option Instant := none
deriving DecidableEq

namespace ManagedFieldsEntry

def fields : Fields ManagedFieldsEntry :=
  ManagedFieldsEntry.mk <$> Fields.optional "apiVersion" Decode.str
    <*> Fields.optional "fieldsType" Decode.str
    <*> Fields.optional "manager" Decode.str
    <*> Fields.optional "operation" Decode.str
    <*> Fields.optional "subresource" Decode.str
    <*> Fields.optional "time" Decode.instant

def decode : Decoder ManagedFieldsEntry := fields.decodeObject "ManagedFieldsEntry"

def encode (e : ManagedFieldsEntry) : Json := .record [
  ("apiVersion", e.apiVersion.map .str),
  ("fieldsType", e.fieldsType.map .str),
  ("manager", e.manager.map .str),
  ("operation", e.operation.map .str),
  ("subresource", e.subresource.map .str),
  ("time", e.time.map fun t => .str t.text)]

end ManagedFieldsEntry

structure ObjectMeta where
  annotations : Option StringMap := none
  creationTimestamp : Option Instant := none
  deletionGracePeriodSeconds : Option Int64 := none
  deletionTimestamp : Option Instant := none
  finalizers : Option (List String) := none
  generateName : Option String := none
  generation : Option Int64 := none
  labels : Option StringMap := none
  managedFields : Option (List ManagedFieldsEntry) := none
  name : Option String := none
  ns : Option String := none
  ownerReferences : Option (List OwnerReference) := none
  resourceVersion : Option String := none
  selfLink : Option String := none
  uid : Option String := none
deriving DecidableEq

namespace ObjectMeta

def empty : ObjectMeta := {}

instance : Inhabited ObjectMeta := ⟨empty⟩

def fields : Fields ObjectMeta :=
  ObjectMeta.mk <$> Fields.optional "annotations" Decode.stringMap
    <*> Fields.optional "creationTimestamp" Decode.instant
    <*> Fields.optional "deletionGracePeriodSeconds" Decode.i64
    <*> Fields.optional "deletionTimestamp" Decode.instant
    <*> Fields.optional "finalizers" (Decode.list Decode.str)
    <*> Fields.optional "generateName" Decode.str
    <*> Fields.optional "generation" Decode.i64
    <*> Fields.optional "labels" Decode.stringMap
    <*> Fields.optional "managedFields" (Decode.list ManagedFieldsEntry.decode)
    <*> Fields.optional "name" Decode.str
    <*> Fields.optional "namespace" Decode.str
    <*> Fields.optional "ownerReferences" (Decode.list OwnerReference.decode)
    <*> Fields.optional "resourceVersion" Decode.str
    <*> Fields.optional "selfLink" Decode.str
    <*> Fields.optional "uid" Decode.str

def decode : Decoder ObjectMeta := fields.decodeObject "ObjectMeta"

def encode (m : ObjectMeta) : Json := .record [
  ("annotations", m.annotations.map .ofStringMap),
  ("creationTimestamp", m.creationTimestamp.map fun t => .str t.text),
  ("deletionGracePeriodSeconds", m.deletionGracePeriodSeconds.map .ofInt64),
  ("deletionTimestamp", m.deletionTimestamp.map fun t => .str t.text),
  ("finalizers", m.finalizers.map .strings),
  ("generateName", m.generateName.map .str),
  ("generation", m.generation.map .ofInt64),
  ("labels", m.labels.map .ofStringMap),
  ("managedFields", m.managedFields.map (.ofList ManagedFieldsEntry.encode)),
  ("name", m.name.map .str),
  ("namespace", m.ns.map .str),
  ("ownerReferences", m.ownerReferences.map (.ofList OwnerReference.encode)),
  ("resourceVersion", m.resourceVersion.map .str),
  ("selfLink", m.selfLink.map .str),
  ("uid", m.uid.map .str)]

end ObjectMeta

/-- Fields that say which kind an object is of. They may be missing, but not differ. -/
def Fields.tag (key expected : String) : Fields Unit :=
  Fields.one key (fun json => do
    let s ← Decode.str json
    if s = expected then .ok () else .error (.wrongValue (.str s) expected)) (some ()) none

/-- The fields of an object of a kind, behind the two that name the kind. -/
def Fields.ofKind (apiVersion kind : String) (fields : Fields α) : Fields α :=
  (fun _ _ a => a) <$> Fields.tag "apiVersion" apiVersion <*> Fields.tag "kind" kind <*> fields

structure LocalObjectReference where
  name : String
deriving DecidableEq

namespace LocalObjectReference

def fields : Fields LocalObjectReference :=
  LocalObjectReference.mk <$> Fields.lenient "name" Decode.str ""

def decode : Decoder LocalObjectReference := fields.decodeObject "LocalObjectReference"

def encode (r : LocalObjectReference) : Json := .record [("name", some (.str r.name))]

end LocalObjectReference

structure LabelRequirement where
  key : String
  operator : String
  values : Option (List String) := none
deriving DecidableEq

namespace LabelRequirement

def fields : Fields LabelRequirement :=
  LabelRequirement.mk <$> Fields.lenient "key" Decode.str ""
    <*> Fields.lenient "operator" Decode.str ""
    <*> Fields.optional "values" (Decode.list Decode.str)

def decode : Decoder LabelRequirement := fields.decodeObject "LabelSelectorRequirement"

def encode (r : LabelRequirement) : Json := .record [
  ("key", some (.str r.key)),
  ("operator", some (.str r.operator)),
  ("values", r.values.map .strings)]

end LabelRequirement

structure LabelSelector where
  matchExpressions : Option (List LabelRequirement) := none
  matchLabels : Option StringMap := none
deriving DecidableEq

namespace LabelSelector

def fields : Fields LabelSelector :=
  LabelSelector.mk <$> Fields.optional "matchExpressions" (Decode.list LabelRequirement.decode)
    <*> Fields.optional "matchLabels" Decode.stringMap

def decode : Decoder LabelSelector := fields.decodeObject "LabelSelector"

def encode (s : LabelSelector) : Json := .record [
  ("matchExpressions", s.matchExpressions.map (.ofList LabelRequirement.encode)),
  ("matchLabels", s.matchLabels.map .ofStringMap)]

end LabelSelector

inductive PortTarget where
  | number (port : Int32)
  | name (port : String)
deriving DecidableEq

namespace PortTarget

def decode : Decoder PortTarget
  | .str s => .ok (.name s)
  | .int n => (Decode.intWithin (-2147483648) 2147483647 "a 32-bit integer" (.int n)).map
      fun n => .number (Int32.ofInt n)
  | json => Decode.mismatch "IntOrString" json

def encode : PortTarget → Json
  | number p => .ofInt32 p
  | name s => .str s

end PortTarget

structure Condition where
  lastTransitionTime : Instant
  message : String
  observedGeneration : Option Int64
  reason : String
  status : String
  type : String
deriving DecidableEq

namespace Condition

def fields : Fields Condition :=
  Condition.mk <$> Fields.required "lastTransitionTime" Decode.instant
    <*> Fields.lenient "message" Decode.str ""
    <*> Fields.optional "observedGeneration" Decode.i64
    <*> Fields.lenient "reason" Decode.str ""
    <*> Fields.lenient "status" Decode.str ""
    <*> Fields.lenient "type" Decode.str ""

def decode : Decoder Condition := fields.decodeObject "Condition"

def encode (c : Condition) : Json := .record [
  ("lastTransitionTime", some (.str c.lastTransitionTime.text)),
  ("message", some (.str c.message)),
  ("observedGeneration", c.observedGeneration.map .ofInt64),
  ("reason", some (.str c.reason)),
  ("status", some (.str c.status)),
  ("type", some (.str c.type))]

end Condition
end McpOperator
