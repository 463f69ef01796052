import McpOperator.Objects.Form.Container

namespace McpOperator

namespace Form

def localReference : Form := .record "LocalObjectReference" (.ofList [("name", .required, .text)])

def labelSelector : Form := .record "LabelSelector" (.ofList [
  ("matchExpressions", .optional, .list (.record "LabelSelectorRequirement" (.ofList [
    ("key", .required, .text),
    ("operator", .required, .text),
    ("values", .optional, texts)]))),
  ("matchLabels", .optional, textMap)])

def keyToPath : Form := .record "KeyToPath" (.ofList [
  ("key", .required, .text),
  ("mode", .optional, .int32),
  ("path", .required, .text)])

def downwardFile : Form := .record "DownwardAPIVolumeFile" (.ofList [
  ("fieldRef", .optional, fieldRef),
  ("mode", .optional, .int32),
  ("path", .required, .text),
  ("resourceFieldRef", .optional, resourceFieldRef)])

def projectedKeys (type : String) : Form := .record type (.ofList [
  ("items", .optional, .list keyToPath),
  ("name", .required, .text),
  ("optional", .optional, .bool)])

def projection : Form := .record "VolumeProjection" (.ofList [
  ("clusterTrustBundle", .optional, .record "ClusterTrustBundleProjection" (.ofList [
    ("labelSelector", .optional, labelSelector),
    ("name", .optional, .text),
    ("optional", .optional, .bool),
    ("path", .required, .text),
    ("signerName", .optional, .text)])),
  ("configMap", .optional, projectedKeys "ConfigMapProjection"),
  ("downwardAPI", .optional, .record "DownwardAPIProjection" (.ofList [
    ("items", .optional, .list downwardFile)])),
  ("secret", .optional, projectedKeys "SecretProjection"),
  ("serviceAccountToken", .optional, .record "ServiceAccountTokenProjection" (.ofList [
    ("audience", .optional, .text),
    ("expirationSeconds", .optional, .int64),
    ("path", .required, .text)]))])

def ownerReference : Form := .record "OwnerReference" (.ofList [
  ("apiVersion", .required, .text),
  ("blockOwnerDeletion", .optional, .bool),
  ("controller", .optional, .bool),
  ("kind", .required, .text),
  ("name", .required, .text),
  ("uid", .required, .text)])

def managedFields : Form := .record "ManagedFieldsEntry" (.ofList [
  ("apiVersion", .optional, .text),
  ("fieldsType", .optional, .text),
  ("manager", .optional, .text),
  ("operation", .optional, .text),
  ("subresource", .optional, .text),
  ("time", .optional, .time)])

def templateMeta : Form := .record "ObjectMeta" (.ofList [
  ("annotations", .optional, textMap),
  ("creationTimestamp", .optional, .time),
  ("deletionGracePeriodSeconds", .optional, .int64),
  ("deletionTimestamp", .optional, .time),
  ("finalizers", .optional, texts),
  ("generateName", .optional, .text),
  ("generation", .optional, .int64),
  ("labels", .optional, textMap),
  ("managedFields", .optional, .list managedFields),
  ("name", .optional, .text),
  ("namespace", .optional, .text),
  ("ownerReferences", .optional, .list ownerReference),
  ("resourceVersion", .optional, .text),
  ("selfLink", .optional, .text),
  ("uid", .optional, .text)])

def claimSpec : Form := .record "PersistentVolumeClaimSpec" (.ofList [
  ("accessModes", .optional, texts),
  ("dataSource", .optional, .record "TypedLocalObjectReference" (.ofList [
    ("apiGroup", .optional, .text),
    ("kind", .required, .text),
    ("name", .required, .text)])),
  ("dataSourceRef", .optional, .record "TypedObjectReference" (.ofList [
    ("apiGroup", .optional, .text),
    ("kind", .required, .text),
    ("name", .required, .text),
    ("namespace", .optional, .text)])),
  ("resources", .optional, .record "VolumeResourceRequirements" (.ofList [
    ("limits", .optional, textMap),
    ("requests", .optional, textMap)])),
  ("selector", .optional, labelSelector),
  ("storageClassName", .optional, .text),
  ("volumeAttributesClassName", .optional, .text),
  ("volumeMode", .optional, .text),
  ("volumeName", .optional, .text)])

end Form

namespace Layout

def keyToPath : Layout := ⟨.keyToPath, by decide⟩

def awsElasticBlockStore : Layout where
  form := .record "AWSElasticBlockStoreVolumeSource" (.ofList [
    ("fsType", .optional, .text),
    ("partition", .optional, .int32),
    ("readOnly", .optional, .bool),
    ("volumeID", .required, .text)])
  ascending := by decide

def azureDisk : Layout where
  form := .record "AzureDiskVolumeSource" (.ofList [
    ("cachingMode", .optional, .text),
    ("diskName", .required, .text),
    ("diskURI", .required, .text),
    ("fsType", .optional, .text),
    ("kind", .optional, .text),
    ("readOnly", .optional, .bool)])
  ascending := by decide

def azureFile : Layout where
  form := .record "AzureFileVolumeSource" (.ofList [
    ("readOnly", .optional, .bool),
    ("secretName", .required, .text),
    ("shareName", .required, .text)])
  ascending := by decide

def cephfs : Layout where
  form := .record "CephFSVolumeSource" (.ofList [
    ("monitors", .required, .texts),
    ("path", .optional, .text),
    ("readOnly", .optional, .bool),
    ("secretFile", .optional, .text),
    ("secretRef", .optional, .localReference),
    ("user", .optional, .text)])
  ascending := by decide

def cinder : Layout where
  form := .record "CinderVolumeSource" (.ofList [
    ("fsType", .optional, .text),
    ("readOnly", .optional, .bool),
    ("secretRef", .optional, .localReference),
    ("volumeID", .required, .text)])
  ascending := by decide

def csi : Layout where
  form := .record "CSIVolumeSource" (.ofList [
    ("driver", .required, .text),
    ("fsType", .optional, .text),
    ("nodePublishSecretRef", .optional, .localReference),
    ("readOnly", .optional, .bool),
    ("volumeAttributes", .optional, .textMap)])
  ascending := by decide

def downwardAPI : Layout where
  form := .record "DownwardAPIVolumeSource" (.ofList [
    ("defaultMode", .optional, .int32),
    ("items", .optional, .list .downwardFile)])
  ascending := by decide

def ephemeral : Layout where
  form := .record "EphemeralVolumeSource" (.ofList [
    ("volumeClaimTemplate", .optional, .record "PersistentVolumeClaimTemplate" (.ofList [
      ("metadata", .optional, .templateMeta),
      ("spec", .required, .claimSpec)]))])
  ascending := by decide

def fc : Layout where
  form := .record "FCVolumeSource" (.ofList [
    ("fsType", .optional, .text),
    ("lun", .optional, .int32),
    ("readOnly", .optional, .bool),
    ("targetWWNs", .optional, .texts),
    ("wwids", .optional, .texts)])
  ascending := by decide

def flexVolume : Layout where
  form := .record "FlexVolumeSource" (.ofList [
    ("driver", .required, .text),
    ("fsType", .optional, .text),
    ("options", .optional, .textMap),
    ("readOnly", .optional, .bool),
    ("secretRef", .optional, .localReference)])
  ascending := by decide

def flocker : Layout where
  form := .record "FlockerVolumeSource" (.ofList [
    ("datasetName", .optional, .text),
    ("datasetUUID", .optional, .text)])
  ascending := by decide

def gcePersistentDisk : Layout where
  form := .record "GCEPersistentDiskVolumeSource" (.ofList [
    ("fsType", .optional, .text),
    ("partition", .optional, .int32),
    ("pdName", .required, .text),
    ("readOnly", .optional, .bool)])
  ascending := by decide

def gitRepo : Layout where
  form := .record "GitRepoVolumeSource" (.ofList [
    ("directory", .optional, .text),
    ("repository", .required, .text),
    ("revision", .optional, .text)])
  ascending := by decide

def glusterfs : Layout where
  form := .record "GlusterfsVolumeSource" (.ofList [
    ("endpoints", .required, .text),
    ("path", .required, .text),
    ("readOnly", .optional, .bool)])
  ascending := by decide

def hostPath : Layout where
  form := .record "HostPathVolumeSource" (.ofList [
    ("path", .required, .text),
    ("type", .optional, .text)])
  ascending := by decide

def iscsi : Layout where
  form := .record "ISCSIVolumeSource" (.ofList [
    ("chapAuthDiscovery", .optional, .bool),
    ("chapAuthSession", .optional, .bool),
    ("fsType", .optional, .text),
    ("initiatorName", .optional, .text),
    ("iqn", .required, .text),
    ("iscsiInterface", .optional, .text),
    ("lun", .required, .int32),
    ("portals", .optional, .texts),
    ("readOnly", .optional, .bool),
    ("secretRef", .optional, .localReference),
    ("targetPortal", .required, .text)])
  ascending := by decide

def nfs : Layout where
  form := .record "NFSVolumeSource" (.ofList [
    ("path", .required, .text),
    ("readOnly", .optional, .bool),
    ("server", .required, .text)])
  ascending := by decide

def persistentVolumeClaim : Layout where
  form := .record "PersistentVolumeClaimVolumeSource" (.ofList [
    ("claimName", .required, .text),
    ("readOnly", .optional, .bool)])
  ascending := by decide

def photonPersistentDisk : Layout where
  form := .record "PhotonPersistentDiskVolumeSource" (.ofList [
    ("fsType", .optional, .text),
    ("pdID", .required, .text)])
  ascending := by decide

def portworxVolume : Layout where
  form := .record "PortworxVolumeSource" (.ofList [
    ("fsType", .optional, .text),
    ("readOnly", .optional, .bool),
    ("volumeID", .required, .text)])
  ascending := by decide

def projected : Layout where
  form := .record "ProjectedVolumeSource" (.ofList [
    ("defaultMode", .optional, .int32),
    ("sources", .optional, .list .projection)])
  ascending := by decide

def quobyte : Layout where
  form := .record "QuobyteVolumeSource" (.ofList [
    ("group", .optional, .text),
    ("readOnly", .optional, .bool),
    ("registry", .required, .text),
    ("tenant", .optional, .text),
    ("user", .optional, .text),
    ("volume", .required, .text)])
  ascending := by decide

def rbd : Layout where
  form := .record "RBDVolumeSource" (.ofList [
    ("fsType", .optional, .text),
    ("image", .required, .text),
    ("keyring", .optional, .text),
    ("monitors", .required, .texts),
    ("pool", .optional, .text),
    ("readOnly", .optional, .bool),
    ("secretRef", .optional, .localReference),
    ("user", .optional, .text)])
  ascending := by decide

def scaleIO : Layout where
  form := .record "ScaleIOVolumeSource" (.ofList [
    ("fsType", .optional, .text),
    ("gateway", .required, .text),
    ("protectionDomain", .optional, .text),
    ("readOnly", .optional, .bool),
    ("secretRef", .required, .localReference),
    ("sslEnabled", .optional, .bool),
    ("storageMode", .optional, .text),
    ("storagePool", .optional, .text),
    ("system", .required, .text),
    ("volumeName", .optional, .text)])
  ascending := by decide

def storageos : Layout where
  form := .record "StorageOSVolumeSource" (.ofList [
    ("fsType", .optional, .text),
    ("readOnly", .optional, .bool),
    ("secretRef", .optional, .localReference),
    ("volumeName", .optional, .text),
    ("volumeNamespace", .optional, .text)])
  ascending := by decide

def vsphereVolume : Layout where
  form := .record "VsphereVirtualDiskVolumeSource" (.ofList [
    ("fsType", .optional, .text),
    ("storagePolicyID", .optional, .text),
    ("storagePolicyName", .optional, .text),
    ("volumePath", .required, .text)])
  ascending := by decide

end Layout
end McpOperator
