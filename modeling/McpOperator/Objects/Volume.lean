import McpOperator.Objects.Form.Volume

namespace McpOperator

structure ConfigMapVolume where
  defaultMode : Option Int32 := none
  items : Option (List Layout.keyToPath.Value) := none
  name : String
  optional : Option Bool := none
deriving DecidableEq

namespace ConfigMapVolume

def fields : Fields ConfigMapVolume :=
  ConfigMapVolume.mk <$> Fields.optional "defaultMode" Decode.i32
    <*> Fields.optional "items" (Decode.list Layout.keyToPath.decode)
    <*> Fields.lenient "name" Decode.str ""
    <*> Fields.optional "optional" Decode.bool

def decode : Decoder ConfigMapVolume := fields.decodeObject "ConfigMapVolumeSource"

def encode (v : ConfigMapVolume) : Json := .record [
  ("defaultMode", v.defaultMode.map .ofInt32),
  ("items", v.items.map (.ofList Layout.keyToPath.encode)),
  ("name", some (.str v.name)),
  ("optional", v.optional.map .bool)]

end ConfigMapVolume

structure SecretVolume where
  defaultMode : Option Int32 := none
  items : Option (List Layout.keyToPath.Value) := none
  optional : Option Bool := none
  secretName : Option String := none
deriving DecidableEq

namespace SecretVolume

def fields : Fields SecretVolume :=
  SecretVolume.mk <$> Fields.optional "defaultMode" Decode.i32
    <*> Fields.optional "items" (Decode.list Layout.keyToPath.decode)
    <*> Fields.optional "optional" Decode.bool
    <*> Fields.optional "secretName" Decode.str

def decode : Decoder SecretVolume := fields.decodeObject "SecretVolumeSource"

def encode (v : SecretVolume) : Json := .record [
  ("defaultMode", v.defaultMode.map .ofInt32),
  ("items", v.items.map (.ofList Layout.keyToPath.encode)),
  ("optional", v.optional.map .bool),
  ("secretName", v.secretName.map .str)]

end SecretVolume

structure EmptyDirVolume where
  medium : Option String := none
  sizeLimit : Option String := none
deriving DecidableEq

namespace EmptyDirVolume

def fields : Fields EmptyDirVolume :=
  EmptyDirVolume.mk <$> Fields.optional "medium" Decode.str
    <*> Fields.optional "sizeLimit" Decode.str

def decode : Decoder EmptyDirVolume := fields.decodeObject "EmptyDirVolumeSource"

def encode (v : EmptyDirVolume) : Json := .record [
  ("medium", v.medium.map .str),
  ("sizeLimit", v.sizeLimit.map .str)]

end EmptyDirVolume

structure Volume where
  awsElasticBlockStore : Option Layout.awsElasticBlockStore.Value := none
  azureDisk : Option Layout.azureDisk.Value := none
  azureFile : Option Layout.azureFile.Value := none
  cephfs : Option Layout.cephfs.Value := none
  cinder : Option Layout.cinder.Value := none
  configMap : Option ConfigMapVolume := none
  csi : Option Layout.csi.Value := none
  downwardAPI : Option Layout.downwardAPI.Value := none
  emptyDir : Option EmptyDirVolume := none
  ephemeral : Option Layout.ephemeral.Value := none
  fc : Option Layout.fc.Value := none
  flexVolume : Option Layout.flexVolume.Value := none
  flocker : Option Layout.flocker.Value := none
  gcePersistentDisk : Option Layout.gcePersistentDisk.Value := none
  gitRepo : Option Layout.gitRepo.Value := none
  glusterfs : Option Layout.glusterfs.Value := none
  hostPath : Option Layout.hostPath.Value := none
  iscsi : Option Layout.iscsi.Value := none
  name : String
  nfs : Option Layout.nfs.Value := none
  persistentVolumeClaim : Option Layout.persistentVolumeClaim.Value := none
  photonPersistentDisk : Option Layout.photonPersistentDisk.Value := none
  portworxVolume : Option Layout.portworxVolume.Value := none
  projected : Option Layout.projected.Value := none
  quobyte : Option Layout.quobyte.Value := none
  rbd : Option Layout.rbd.Value := none
  scaleIO : Option Layout.scaleIO.Value := none
  secret : Option SecretVolume := none
  storageos : Option Layout.storageos.Value := none
  vsphereVolume : Option Layout.vsphereVolume.Value := none
deriving DecidableEq

namespace Volume

def fields : Fields Volume :=
  Volume.mk <$> Fields.optional "awsElasticBlockStore" Layout.awsElasticBlockStore.decode
    <*> Fields.optional "azureDisk" Layout.azureDisk.decode
    <*> Fields.optional "azureFile" Layout.azureFile.decode
    <*> Fields.optional "cephfs" Layout.cephfs.decode
    <*> Fields.optional "cinder" Layout.cinder.decode
    <*> Fields.optional "configMap" ConfigMapVolume.decode
    <*> Fields.optional "csi" Layout.csi.decode
    <*> Fields.optional "downwardAPI" Layout.downwardAPI.decode
    <*> Fields.optional "emptyDir" EmptyDirVolume.decode
    <*> Fields.optional "ephemeral" Layout.ephemeral.decode
    <*> Fields.optional "fc" Layout.fc.decode
    <*> Fields.optional "flexVolume" Layout.flexVolume.decode
    <*> Fields.optional "flocker" Layout.flocker.decode
    <*> Fields.optional "gcePersistentDisk" Layout.gcePersistentDisk.decode
    <*> Fields.optional "gitRepo" Layout.gitRepo.decode
    <*> Fields.optional "glusterfs" Layout.glusterfs.decode
    <*> Fields.optional "hostPath" Layout.hostPath.decode
    <*> Fields.optional "iscsi" Layout.iscsi.decode
    <*> Fields.lenient "name" Decode.str ""
    <*> Fields.optional "nfs" Layout.nfs.decode
    <*> Fields.optional "persistentVolumeClaim" Layout.persistentVolumeClaim.decode
    <*> Fields.optional "photonPersistentDisk" Layout.photonPersistentDisk.decode
    <*> Fields.optional "portworxVolume" Layout.portworxVolume.decode
    <*> Fields.optional "projected" Layout.projected.decode
    <*> Fields.optional "quobyte" Layout.quobyte.decode
    <*> Fields.optional "rbd" Layout.rbd.decode
    <*> Fields.optional "scaleIO" Layout.scaleIO.decode
    <*> Fields.optional "secret" SecretVolume.decode
    <*> Fields.optional "storageos" Layout.storageos.decode
    <*> Fields.optional "vsphereVolume" Layout.vsphereVolume.decode

def decode : Decoder Volume := fields.decodeObject "Volume"

def encode (v : Volume) : Json := .record [
  ("awsElasticBlockStore", v.awsElasticBlockStore.map Layout.awsElasticBlockStore.encode),
  ("azureDisk", v.azureDisk.map Layout.azureDisk.encode),
  ("azureFile", v.azureFile.map Layout.azureFile.encode),
  ("cephfs", v.cephfs.map Layout.cephfs.encode),
  ("cinder", v.cinder.map Layout.cinder.encode),
  ("configMap", v.configMap.map ConfigMapVolume.encode),
  ("csi", v.csi.map Layout.csi.encode),
  ("downwardAPI", v.downwardAPI.map Layout.downwardAPI.encode),
  ("emptyDir", v.emptyDir.map EmptyDirVolume.encode),
  ("ephemeral", v.ephemeral.map Layout.ephemeral.encode),
  ("fc", v.fc.map Layout.fc.encode),
  ("flexVolume", v.flexVolume.map Layout.flexVolume.encode),
  ("flocker", v.flocker.map Layout.flocker.encode),
  ("gcePersistentDisk", v.gcePersistentDisk.map Layout.gcePersistentDisk.encode),
  ("gitRepo", v.gitRepo.map Layout.gitRepo.encode),
  ("glusterfs", v.glusterfs.map Layout.glusterfs.encode),
  ("hostPath", v.hostPath.map Layout.hostPath.encode),
  ("iscsi", v.iscsi.map Layout.iscsi.encode),
  ("name", some (.str v.name)),
  ("nfs", v.nfs.map Layout.nfs.encode),
  ("persistentVolumeClaim", v.persistentVolumeClaim.map Layout.persistentVolumeClaim.encode),
  ("photonPersistentDisk", v.photonPersistentDisk.map Layout.photonPersistentDisk.encode),
  ("portworxVolume", v.portworxVolume.map Layout.portworxVolume.encode),
  ("projected", v.projected.map Layout.projected.encode),
  ("quobyte", v.quobyte.map Layout.quobyte.encode),
  ("rbd", v.rbd.map Layout.rbd.encode),
  ("scaleIO", v.scaleIO.map Layout.scaleIO.encode),
  ("secret", v.secret.map SecretVolume.encode),
  ("storageos", v.storageos.map Layout.storageos.encode),
  ("vsphereVolume", v.vsphereVolume.map Layout.vsphereVolume.encode)]

def ofConfigMap (name configMap : String) : Volume := { name, configMap := some { name := configMap } }

def ofEmptyDir (name : String) : Volume := { name, emptyDir := some {} }

def ofSecret (name secret : String) : Volume := { name, secret := some { secretName := some secret } }

end Volume

structure VolumeMount where
  mountPath : String
  mountPropagation : Option String := none
  name : String
  readOnly : Option Bool := none
  subPath : Option String := none
  subPathExpr : Option String := none
deriving DecidableEq

namespace VolumeMount

def fields : Fields VolumeMount :=
  VolumeMount.mk <$> Fields.lenient "mountPath" Decode.str ""
    <*> Fields.optional "mountPropagation" Decode.str
    <*> Fields.lenient "name" Decode.str ""
    <*> Fields.optional "readOnly" Decode.bool
    <*> Fields.optional "subPath" Decode.str
    <*> Fields.optional "subPathExpr" Decode.str

def decode : Decoder VolumeMount := fields.decodeObject "VolumeMount"

def encode (m : VolumeMount) : Json := .record [
  ("mountPath", some (.str m.mountPath)),
  ("mountPropagation", m.mountPropagation.map .str),
  ("name", some (.str m.name)),
  ("readOnly", m.readOnly.map .bool),
  ("subPath", m.subPath.map .str),
  ("subPathExpr", m.subPathExpr.map .str)]

end VolumeMount
end McpOperator
