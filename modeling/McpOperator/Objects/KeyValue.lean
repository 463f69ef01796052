import McpOperator.Objects.Meta
import McpOperator.Text.Base64

namespace McpOperator

abbrev DataMap := SortedMap (List UInt8)

namespace DataMap

def decodeBytes : Decoder (List UInt8)
  | .str s => (Base64.decode s.toUTF8.toList).mapError .base64
  | .null => .ok []
  | json => Decode.mismatch "a base64-encoded string" json

def decode : Decoder DataMap := Decode.map decodeBytes

/-- Base64 text holds only symbols that are characters of one byte. -/
def encodeBytes (bytes : List UInt8) : Json :=
  .str (String.ofList ((Base64.encode bytes).map fun b => Char.ofNat b.toNat))

def encode (m : DataMap) : Json := .ofMap encodeBytes m

end DataMap

structure ConfigMap where
  binaryData : Option DataMap
  data : Option StringMap
  immutable : Option Bool
  metadata : ObjectMeta
deriving DecidableEq

namespace ConfigMap

def fields : Fields ConfigMap :=
  ConfigMap.mk <$> Fields.optional "binaryData" DataMap.decode
    <*> Fields.optional "data" Decode.stringMap
    <*> Fields.optional "immutable" Decode.bool
    <*> Fields.lenient "metadata" ObjectMeta.decode .empty

def decode : Decoder ConfigMap := (fields.ofKind "v1" "ConfigMap").decodeObject "ConfigMap"

def encode (c : ConfigMap) : Json := .record [
  ("apiVersion", some (.str "v1")),
  ("kind", some (.str "ConfigMap")),
  ("binaryData", c.binaryData.map DataMap.encode),
  ("data", c.data.map .ofStringMap),
  ("immutable", c.immutable.map .bool),
  ("metadata", some c.metadata.encode)]

end ConfigMap

structure Secret where
  data : Option DataMap
  immutable : Option Bool
  metadata : ObjectMeta
  stringData : Option StringMap
  type : Option String
deriving DecidableEq

namespace Secret

def fields : Fields Secret :=
  Secret.mk <$> Fields.optional "data" DataMap.decode
    <*> Fields.optional "immutable" Decode.bool
    <*> Fields.lenient "metadata" ObjectMeta.decode .empty
    <*> Fields.optional "stringData" Decode.stringMap
    <*> Fields.optional "type" Decode.str

def decode : Decoder Secret := (fields.ofKind "v1" "Secret").decodeObject "Secret"

def encode (s : Secret) : Json := .record [
  ("apiVersion", some (.str "v1")),
  ("kind", some (.str "Secret")),
  ("data", s.data.map DataMap.encode),
  ("immutable", s.immutable.map .bool),
  ("metadata", some s.metadata.encode),
  ("stringData", s.stringData.map .ofStringMap),
  ("type", s.type.map .str)]

/-- A key is there when either form of the data holds it. -/
def holds (s : Secret) (key : String) : Bool :=
  s.data.any (·.contains key) || s.stringData.any (·.contains key)

end Secret
end McpOperator
