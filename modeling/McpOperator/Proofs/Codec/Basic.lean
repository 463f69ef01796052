import McpOperator.Objects.Meta
import McpOperator.Proofs.Json.Members

namespace McpOperator

section

variable {ε δ α β : Type} {x : Except ε α}

theorem bind_eq_ok_iff {f : α → Except ε β} {b : β} :
    x >>= f = .ok b ↔ ∃ a, x = .ok a ∧ f a = .ok b := by
  cases x <;> simp [bind, Except.bind]

theorem map_eq_ok_iff {f : α → β} {b : β} : x.map f = .ok b ↔ ∃ a, x = .ok a ∧ f a = b := by
  cases x <;> simp [Except.map]

theorem mapError_eq_ok_iff {f : ε → δ} {a : α} : x.mapError f = .ok a ↔ x = .ok a := by
  cases x <;> simp [Except.mapError]

end

/-- A written form that says null of no value and binds no key twice. -/
class Tidy {α : Type} (encode : α → Json) : Prop where
  encode_ne_null (a : α) : encode a ≠ .null
  distinct (a : α) : (encode a).Distinct

/-- Reading gives back what writing keeps of a value, and what is kept is written the same. -/
class Codec {α : Type} (encode : α → Json) (decode : Decoder α) (kept : outParam (α → α)) : Prop
    extends Tidy encode where
  decode_encode (a : α) : decode (encode a) = .ok (kept a)
  encode_kept (a : α) : encode (kept a) = encode a

attribute [simp] Tidy.distinct

theorem Codec.decode_written {α : Type} (encode : α → Json) (decode : Decoder α) {kept : α → α}
    [Codec encode decode kept] (a : α) : decode (encode a) = .ok (kept a) :=
  Codec.decode_encode a

theorem Codec.encode_comp {α : Type} (encode : α → Json) (decode : Decoder α) {kept : α → α}
    [Codec encode decode kept] : encode ∘ kept = encode :=
  funext fun a => Codec.encode_kept decode a

namespace Fields

variable {α β : Type}

@[simp] theorem both_ok (g : α → β) (a : α) : both (.ok g) (.ok a) = .ok (g a) := rfl

@[simp] theorem named_map (f : α → β) (x : Fields α) (members : Members) :
    (f <$> x).named members = both (.ok f) (x.named members) := rfl

@[simp] theorem named_seq (f : Fields (α → β)) (x : Fields α) (members : Members) :
    (f <*> x).named members = both (f.named members) (x.named members) := rfl

def read (decode : Decoder α) (absent : Except FieldFault α) (key : String) :
    Option Json → Except FieldFault α
  | some json => (decode json).mapError (.present key)
  | none => absent

theorem named_one (key : String) (decode : Decoder α) (absent ended : Option α) (members : Members) :
    (one key decode absent ended).named members =
      read decode (match absent with
        | some a => .ok a
        | none => .error (.absent key)) key (members.lookup key) := by
  cases h : members.lookup key with
  | none => cases absent <;> simp only [one, read, h]
  | some json => simp only [one, read, h]

@[simp] theorem named_required (key : String) (decode : Decoder α) (members : Members) :
    (required key decode).named members =
      read decode (.error (.absent key)) key (members.lookup key) :=
  named_one key decode none none members

@[simp] theorem named_optional (key : String) (decode : Decoder α) (members : Members) :
    (optional key decode).named members =
      read (Decode.orNull decode) (.ok none) key (members.lookup key) :=
  named_one key _ (some none) none members

@[simp] theorem named_defaulted (key : String) (decode : Decoder α) (default : α)
    (members : Members) : (defaulted key decode default).named members =
      read decode (.ok default) key (members.lookup key) :=
  named_one key decode (some default) (some default) members

@[simp] theorem named_lenient (key : String) (decode : Decoder α) (default : α) (members : Members) :
    (lenient key decode default).named members =
      read (fun json => (Decode.orNull decode json).map (·.getD default)) (.ok default) key
        (members.lookup key) :=
  named_one key _ (some default) none members

@[simp] theorem named_tag (key expected : String) (members : Members)
    (h : members.lookup key = some (.str expected)) :
    (tag key expected).named members = .ok () := by
  rw [tag, named_one, h]
  simp [read, Decode.str, Except.mapError, bind, Except.bind]

@[simp] theorem named_ofKind (apiVersion kind : String) (fields : Fields α) (members : Members)
    (hversion : members.lookup "apiVersion" = some (.str apiVersion))
    (hkind : members.lookup "kind" = some (.str kind)) :
    (fields.ofKind apiVersion kind).named members = fields.named members := by
  simp only [ofKind, named_seq, named_map, named_tag _ _ _ hversion, named_tag _ _ _ hkind, both_ok]
  cases fields.named members <;> rfl

section

variable {encode : α → Json} {decode : Decoder α} {kept : α → α} [Codec encode decode kept]

theorem orNull_encode (a : α) : Decode.orNull decode (encode a) = .ok (some (kept a)) := by
  have hne : encode a ≠ .null := Tidy.encode_ne_null a
  have hread := Codec.decode_written encode decode a
  unfold Decode.orNull
  split
  · contradiction
  · rw [hread]
    rfl

@[simp] theorem read_encode (absent : Except FieldFault α) (key : String) (a : α) :
    read decode absent key (some (encode a)) = .ok (kept a) := by
  simp [read, Codec.decode_written encode decode, Except.mapError]

@[simp] theorem read_optional (key : String) (o : Option α) :
    read (Decode.orNull decode) (.ok none) key (o.map encode) = .ok (o.map kept) := by
  cases o with
  | none => rfl
  | some a => simp [read, orNull_encode, Except.mapError]

@[simp] theorem read_lenient (absent : Except FieldFault α) (default : α) (key : String) (a : α) :
    read (fun json => (Decode.orNull decode json).map (·.getD default)) absent key
      (some (encode a)) = .ok (kept a) := by
  simp [read, orNull_encode, Except.mapError, Except.map]

end

@[simp] theorem decodeObject_obj (fields : Fields α) (type : String) (members : Members) :
    fields.decodeObject type (.obj members) = (fields.named members).mapError FieldFault.toError := rfl

@[simp] theorem decode_obj (fields : Fields α) (record : String) (members : Members) :
    fields.decode record (.obj members) = (fields.named members).mapError FieldFault.toError := rfl

end Fields

section

variable {α : Type} {encode : α → Json} [Tidy encode]

@[simp] theorem Json.distinctMember_some (a : α) : DistinctMember (some (encode a)) := by
  rintro _ ⟨⟩
  exact Tidy.distinct a

@[simp] theorem Json.distinctMember_map (o : Option α) : DistinctMember (o.map encode) := by
  cases o with
  | none => exact fun _ h => nomatch h
  | some a => exact distinctMember_some a

end

namespace Codec

theorem kept_kept {α : Type} (encode : α → Json) (decode : Decoder α) {kept : α → α}
    [Codec encode decode kept] (a : α) : kept (kept a) = kept a := by
  have hencode : encode (kept a) = encode a := encode_kept decode a
  have h := decode_written encode decode (kept a)
  rw [hencode, decode_written encode decode] at h
  exact (Except.ok.inj h).symm

variable {α : Type} {kept : α → α} {fields : Fields α}

theorem ofRecord {type : String} {members : α → List (String × Option Json)}
    (hread : ∀ a, fields.named (Members.present (members a)) = .ok (kept a))
    (hkept : ∀ a, members (kept a) = members a)
    (hkeys : ∀ a, ((members a).map Prod.fst).Nodup)
    (hdistinct : ∀ a, ∀ f ∈ members a, Json.DistinctMember f.2) :
    Codec (fun a => .record (members a)) (fields.decodeObject type) kept where
  encode_ne_null _ := by simp [Json.record]
  distinct a := Json.record_distinct (hkeys a) (hdistinct a)
  decode_encode a := by simp [Json.record, hread, Except.mapError]
  encode_kept a := by rw [hkept]

theorem ofObject {record : String} {members : α → Members}
    (hread : ∀ a, fields.named (members a) = .ok (kept a)) (hkept : ∀ a, members (kept a) = members a)
    (hkeys : ∀ a, ((members a).map Prod.fst).Nodup)
    (hdistinct : ∀ a, ∀ e ∈ members a, e.2.Distinct) :
    Codec (fun a => .obj (members a)) (fields.decode record) kept where
  encode_ne_null _ := by simp
  distinct a := .obj (hkeys a) (hdistinct a)
  decode_encode a := by simp [hread, Except.mapError]
  encode_kept a := by rw [hkept]

end Codec

instance : Codec Json.str Decode.str id where
  encode_ne_null _ := by simp
  distinct := .str
  decode_encode _ := rfl
  encode_kept _ := rfl

instance : Codec Json.bool Decode.bool id where
  encode_ne_null _ := by simp
  distinct := .bool
  decode_encode _ := rfl
  encode_kept _ := rfl

instance : Codec Json.ofInt32 Decode.i32 id where
  encode_ne_null _ := by simp [Json.ofInt32]
  distinct n := .int n.toInt
  decode_encode n := by
    have hlow := n.le_toInt
    have hhigh := n.toInt_lt
    have hrange : -2147483648 ≤ n.toInt ∧ n.toInt ≤ 2147483647 := by omega
    simp [Json.ofInt32, Decode.i32, Decode.intWithin, hrange, Except.map]
  encode_kept _ := rfl

instance : Codec Json.ofInt64 Decode.i64 id where
  encode_ne_null _ := by simp [Json.ofInt64]
  distinct n := .int n.toInt
  decode_encode n := by
    have hlow := n.le_toInt
    have hhigh := n.toInt_lt
    have hrange : -9223372036854775808 ≤ n.toInt ∧ n.toInt ≤ 9223372036854775807 := by omega
    simp [Json.ofInt64, Decode.i64, Decode.intWithin, hrange, Except.map]
  encode_kept _ := rfl

section

variable {α : Type} {encode : α → Json} {decode : Decoder α} {kept : α → α}

theorem Decode.items_map [Codec encode decode kept] (as : List α) :
    Decode.items decode (as.map encode) = .ok (as.map kept) := by
  induction as with
  | nil => rfl
  | cons a rest ih =>
      have hread := Codec.decode_written encode decode a
      simp [Decode.items, hread, ih, bind, Except.bind]

instance [Codec encode decode kept] : Codec (Json.ofList encode) (Decode.list decode) (List.map kept) where
  encode_ne_null _ := by simp [Json.ofList]
  distinct as := .arr (by simp)
  decode_encode := Decode.items_map
  encode_kept as := by
    rw [Json.ofList, List.map_map, Codec.encode_comp encode decode]
    rfl

instance : Codec Json.strings (Decode.list Decode.str) id where
  encode_ne_null _ := by simp [Json.strings]
  distinct _ := .arr (by simp)
  decode_encode texts := by simp [Json.strings, Decode.list, Decode.items_map]
  encode_kept _ := rfl

theorem Decode.bindings_map [Codec encode decode id] (es : List (String × α)) :
    Decode.bindings decode (es.map fun e => (e.1, encode e.2)) = .ok es := by
  induction es with
  | nil => rfl
  | cons e rest ih =>
      have hread : decode (encode e.2) = .ok e.2 := Codec.decode_written encode decode e.2
      simp [Decode.bindings, hread, ih, bind, Except.bind]

end

namespace SortedMap

variable {α : Type}

theorem get?_insert (m : SortedMap α) (k l : String) (v : α) :
    (m.insert k v).get? l = if l = k then some v else m.get? l := by
  change (insertEntry k v m.entries).lookup l = if l = k then some v else m.entries.lookup l
  generalize m.entries = es
  induction es with
  | nil => exact Members.lookup_cons l k v []
  | cons e rest ih =>
      rw [insertEntry, Members.lookup_cons]
      split
      · rw [Members.lookup_cons, Members.lookup_cons]
      · split
        · rename_i heq
          rw [Members.lookup_cons, heq]
          split <;> rfl
        · rename_i hne
          rw [Members.lookup_cons, ih]
          by_cases h : l = k
          · rw [if_pos h, if_pos h, if_neg (h ▸ hne)]
          · rw [if_neg h, if_neg h]

theorem get?_insert_self (m : SortedMap α) (k : String) (v : α) : (m.insert k v).get? k = some v := by
  rw [get?_insert, if_pos rfl]

theorem insertEntry_last {k : String} (v : α) {es : List (String × α)} (h : ∀ e ∈ es, e.1 < k) :
    insertEntry k v es = es ++ [(k, v)] := by
  induction es with
  | nil => rfl
  | cons e rest ih =>
      rw [List.forall_mem_cons] at h
      have hnot : ¬ k < e.1 := fun hk => String.lt_irrefl k (String.lt_trans hk h.1)
      have hne : k ≠ e.1 := fun hk => String.lt_irrefl k (hk ▸ h.1)
      simp [insertEntry, hnot, hne, ih h.2]

theorem entries_foldl_insert (es : List (String × α)) (m : SortedMap α)
    (h : (m.entries ++ es).Pairwise (fun a b => a.1 < b.1)) :
    (es.foldl (fun m e => m.insert e.1 e.2) m).entries = m.entries ++ es := by
  induction es generalizing m with
  | nil => simp
  | cons e rest ih =>
      have hlast : insertEntry e.1 e.2 m.entries = m.entries ++ [e] :=
        insertEntry_last e.2 fun d hd => (List.pairwise_append.1 h).2.2 d hd e (by simp)
      have hinsert : (m.insert e.1 e.2).entries = m.entries ++ [e] := hlast
      rw [List.foldl_cons, ih _ (by rw [hinsert]; simpa using h), hinsert]
      simp

theorem ofList_entries (m : SortedMap α) : ofList m.entries = m := by
  have h : (ofList m.entries).entries = m.entries :=
    entries_foldl_insert m.entries empty (by simpa [empty] using m.ascending)
  cases m
  exact SortedMap.mk.injEq .. |>.mpr h

end SortedMap

theorem Json.get?_ofStringMap (m : StringMap) (key : String) :
    (Json.ofStringMap m).get? key = (m.get? key).map .str := by
  change (m.entries.map fun e => (e.1, Json.str e.2)).lookup key = (m.entries.lookup key).map .str
  generalize m.entries = es
  induction es with
  | nil => rfl
  | cons e rest ih =>
      rw [List.map_cons, List.lookup_cons, List.lookup_cons, ih]
      cases key == e.1 <;> rfl

instance {α : Type} {encode : α → Json} {decode : Decoder α} [Codec encode decode id] :
    Codec (Json.ofMap encode) (Decode.map decode) id where
  encode_ne_null _ := by simp [Json.ofMap]
  distinct m := by
    refine .obj ?_ ?_
    · rw [List.map_map]
      exact m.ascending.map _ fun _ _ h => String.ne_of_lt h
    · rintro _ he
      obtain ⟨e, -, rfl⟩ := List.mem_map.1 he
      exact Tidy.distinct e.2
  decode_encode m := by
    simp [Json.ofMap, Decode.map, Decode.bindings_map, SortedMap.ofList_entries, Except.map]
  encode_kept _ := rfl

instance : Codec Json.ofStringMap Decode.stringMap id :=
  inferInstanceAs (Codec (Json.ofMap Json.str) (Decode.map Decode.str) id)

instance : Codec OwnerReference.encode OwnerReference.decode id :=
  .ofRecord (by simp [OwnerReference.fields]) (by simp) (by simp) (by simp)

end McpOperator
