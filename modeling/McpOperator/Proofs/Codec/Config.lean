import McpOperator.Proofs.Codec.Server
import McpOperator.Proofs.Gateway.Encoding

namespace McpOperator

namespace Fields

variable {α β : Type}

@[simp] theorem named_skippable (key : String) (decode : Decoder α) (members : Members) :
    (skippable key decode).named members =
      read (Decode.orNull decode) (.ok none) key (members.lookup key) :=
  named_one key _ (some none) (some none) members

theorem both_eq_ok_iff {f : Except FieldFault (α → β)} {x : Except FieldFault α} {b : β} :
    both f x = .ok b ↔ ∃ g a, f = .ok g ∧ x = .ok a ∧ g a = b := by
  cases f <;> cases x <;> simp [both]

@[simp] theorem decodeFlattened_obj (fields : Fields α) (record : String) (members : Members) :
    fields.decodeFlattened record (.obj members) =
      (fields.named members).mapError FieldFault.toError := rfl

end Fields

theorem SortedMap.mem_ofList {α : Type} {es : List (String × α)} {e : String × α}
    (h : e ∈ (ofList es).entries) : e ∈ es := by
  suffices hfold : ∀ m : SortedMap α, e ∈ (es.foldl (fun m e => m.insert e.1 e.2) m).entries →
      e ∈ m.entries ∨ e ∈ es from (hfold empty h).resolve_left List.not_mem_nil
  clear h
  induction es with
  | nil => exact fun _ h => .inl h
  | cons d rest ih =>
      intro m h
      rcases ih _ h with hinsert | hrest
      · rcases mem_insertEntry hinsert with rfl | hm
        · exact .inr List.mem_cons_self
        · exact .inl hm
      · exact .inr (List.mem_cons_of_mem _ hrest)

theorem Decode.keys_bindings {α : Type} {decode : Decoder α} {members : Members}
    {es : List (String × α)} (h : bindings decode members = .ok es) :
    es.map Prod.fst = members.map Prod.fst := by
  induction members generalizing es with
  | nil =>
      cases h
      rfl
  | cons m rest ih =>
      rw [bindings] at h
      obtain ⟨a, -, h⟩ := bind_eq_ok_iff.1 h
      obtain ⟨as, hrest, h⟩ := bind_eq_ok_iff.1 h
      cases h
      rw [List.map_cons, List.map_cons, ih hrest]

theorem Decode.keys_stringMap {members : Members} {m : StringMap} {e : String × String}
    (h : stringMap (.obj members) = .ok m) (he : e ∈ m.entries) : e.1 ∈ members.map Prod.fst := by
  obtain ⟨es, hbindings, rfl⟩ := map_eq_ok_iff.1 h
  rw [← keys_bindings hbindings]
  exact List.mem_map_of_mem (SortedMap.mem_ofList he)

theorem Codec.ofFields {α : Type} {fields : Fields α} {decode : Decoder α}
    {members : α → List (String × Option Json)}
    (hdecode : ∀ ms, decode (.obj ms) = (fields.named ms).mapError FieldFault.toError)
    (hread : ∀ a, fields.named (Members.present (members a)) = .ok a)
    (hkeys : ∀ a, ((members a).map Prod.fst).Nodup)
    (hdistinct : ∀ a, ∀ f ∈ members a, Json.DistinctMember f.2) :
    Codec (fun a => .record (members a)) decode id where
  encode_ne_null _ := by simp [Json.record]
  distinct a := Json.record_distinct (hkeys a) (hdistinct a)
  decode_encode a := by simp [Json.record, hdecode, hread, Except.mapError]
  encode_kept _ := rfl

namespace Gateway

open Fields

section

variable {α : Type} {encode : α → Json} {decode : Decoder α}

theorem read_unless [Codec encode decode id] (key : String) {isEmpty : Bool} {default a : α}
    (h : isEmpty = true → a = default) :
    read decode (.ok default) key (if isEmpty then none else some (encode a)) = .ok a := by
  split
  · rename_i hempty
    rw [h hempty]
    rfl
  · simp [Fields.read, Codec.decode_written encode decode, Except.mapError]

theorem distinctMember_unless [Tidy encode] (isEmpty : Bool) (a : α) :
    Json.DistinctMember (if isEmpty then none else some (encode a)) := by
  split
  · exact fun _ h => nomatch h
  · exact Json.distinctMember_some a

end

@[simp] theorem read_nonemptyStrings (key : String) (texts : List String) :
    read (Decode.list Decode.str) (.ok []) key (nonemptyStrings texts) = .ok texts :=
  read_unless (α := List String) key List.isEmpty_iff.1

@[simp] theorem distinctMember_nonemptyStrings (texts : List String) :
    Json.DistinctMember (nonemptyStrings texts) :=
  distinctMember_unless texts.isEmpty texts

@[simp] theorem read_nonemptyMap (key : String) (m : StringMap) :
    read Decode.stringMap (.ok .empty) key (nonemptyMap m) = .ok m := by
  refine read_unless key fun h => ?_
  obtain ⟨entries, _⟩ := m
  obtain rfl : entries = [] := List.isEmpty_iff.1 h
  rfl

@[simp] theorem distinctMember_nonemptyMap (m : StringMap) : Json.DistinctMember (nonemptyMap m) :=
  distinctMember_unless m.isEmpty m

instance : Codec PathMatch.encode PathMatch.decode id :=
  .ofFields (fun _ => rfl) (by simp [PathMatch.fields]) (by simp) (by simp)

instance : Codec RouteMatch.encode RouteMatch.decode id :=
  .ofObject (by simp [RouteMatch.fields]) (by simp) (by simp) (by simp)

instance : Codec StdioTarget.encode StdioTarget.decode id :=
  .ofFields (fun _ => rfl) (by simp [StdioTarget.fields]) (by simp) (by simp)

instance : Codec SseTarget.encode SseTarget.decode id where
  encode_ne_null _ := by simp [SseTarget.encode]
  distinct _ := .obj (by simp) (by simp)
  decode_encode t := by
    simp [SseTarget.encode, SseTarget.decode, SseTarget.fields, Except.mapError]
  encode_kept _ := rfl

instance : Codec Target.encode Target.decode id where
  encode_ne_null _ := by simp [Target.encode]
  distinct t := by
    obtain ⟨name, t | t⟩ := t <;> exact .obj (by simp [TargetSpec.member]) (by simp [TargetSpec.member])
  decode_encode t := by
    obtain ⟨name, t | t⟩ := t
    · have hread : StdioTarget.decode t.encode = .ok t :=
        Codec.decode_written StdioTarget.encode StdioTarget.decode t
      simp [Target.encode, Target.decode, Target.nameField, TargetSpec.member, TargetSpec.ofMembers,
        TargetSpec.ofMember?, ofMembers, hread, Except.mapError, Except.map, bind, Except.bind]
    · have hread : SseTarget.decode t.encode = .ok t :=
        Codec.decode_written SseTarget.encode SseTarget.decode t
      simp [Target.encode, Target.decode, Target.nameField, TargetSpec.member, TargetSpec.ofMembers,
        TargetSpec.ofMember?, ofMembers, hread, Except.mapError, Except.map, bind, Except.bind]
  encode_kept _ := rfl

instance : Codec McpBackend.encode McpBackend.decode id :=
  .ofObject (by simp [McpBackend.fields]) (by simp) (by simp) (by simp)

instance : Codec (fun n : UInt32 => Json.int n.toNat) Decode.u32 id where
  encode_ne_null _ := by simp
  distinct _ := .int _
  decode_encode n := by
    have hhigh := n.toNat_lt
    have hrange : 0 ≤ (n.toNat : Int) ∧ (n.toNat : Int) ≤ 4294967295 := by omega
    simp [Decode.u32, Decode.intWithin, hrange, Except.map]
  encode_kept _ := rfl

instance : Codec Backend.encode Backend.decode id := by
  refine .ofObject (fun b => ?_) (by simp) (by simp) fun b => ?_
  · have hweight : Fields.read Decode.u32 (.error (.absent "weight")) "weight"
        (some (.int b.weight.toNat)) = .ok b.weight := by
      simp [Fields.read, Codec.decode_written (fun n : UInt32 => Json.int n.toNat) Decode.u32,
        Except.mapError]
    simp [Backend.fields, hweight]
  · have hweight : (Json.int b.weight.toNat).Distinct := .int _
    simp [hweight]

instance : Codec Jwks.encode Jwks.decode id :=
  .ofFields (fun _ => rfl) (by simp [Jwks.fields]) (by simp) (by simp)

instance : Codec JwtAuth.encode JwtAuth.decode id :=
  .ofObject (by simp [JwtAuth.fields]) (by simp) (by simp) (by simp)

instance : Codec Authorization.encode Authorization.decode id :=
  .ofObject (by simp [Authorization.fields]) (by simp) (by simp) (by simp)

instance : Codec Keycloak.encode Keycloak.decode id :=
  .ofObject (fun _ => rfl) (by simp) (by simp) (by simp)

instance : Codec Provider.encode Provider.decode id :=
  .ofFields (fun _ => rfl) (by simp [Provider.fields]) (by simp) (by simp)

instance : Codec Cors.encode Cors.decode id :=
  .ofFields (fun _ => rfl) (by simp [Cors.fields]) (by simp) (by simp)

instance : Codec Protocol.encode Protocol.decode id where
  encode_ne_null _ := by simp [Protocol.encode]
  distinct _ := .str _
  decode_encode p := by
    cases p
    rfl
  encode_kept _ := rfl

instance : Codec Settings.encode Settings.decode id :=
  .ofObject (fun _ => rfl) (by simp) (by simp) (by simp)

namespace ResourceMetadata

variable (r : ResourceMetadata)

def writtenNames : List String := "resource" :: (Members.present (lists r)).map Prod.fst

/-- No field beside the named ones has the name of one that is written. -/
def Separate : Prop := ∀ e ∈ r.additionalFields.entries, e.1 ∉ r.writtenNames

/-- No field beside the named ones has the name of one of them. -/
def Clear : Prop := ∀ e ∈ r.additionalFields.entries, e.1 ∉ fieldNames

variable {r}

theorem sublist_writtenNames : r.writtenNames.Sublist fieldNames :=
  (Members.keys_present (lists r)).cons_cons "resource"

theorem keys_others : r.others.map Prod.fst = r.additionalFields.entries.map Prod.fst := by
  simp [others]

theorem nodup_keys_others : (r.others.map Prod.fst).Nodup := by
  rw [keys_others]
  exact r.additionalFields.ascending.map _ fun _ _ h => String.ne_of_lt h

theorem encode_eq : r.encode =
    .obj (("resource", .str r.resource) :: (Members.present (lists r) ++ r.others)) := rfl

theorem distinct_member {e : String × Json}
    (he : e ∈ ("resource", .str r.resource) :: (Members.present (lists r) ++ r.others)) :
    e.2.Distinct := by
  rcases List.mem_cons.1 he with rfl | he
  · exact .str r.resource
  · rcases List.mem_append.1 he with he | he
    · obtain ⟨texts, htexts⟩ := strings_of_mem_lists r he
      rw [htexts]
      exact Tidy.distinct texts
    · obtain ⟨f, -, rfl⟩ := List.mem_map.1 he
      exact .str f.2

theorem distinct_encode_iff : r.encode.Distinct ↔ r.Separate := by
  have hwritten : r.writtenNames.Nodup := .sublist sublist_writtenNames (by decide)
  have hkeys : ((("resource", Json.str r.resource) :: (Members.present (lists r) ++ r.others)).map
      Prod.fst).Nodup ↔ r.Separate := by
    rw [← List.cons_append, List.map_append, List.map_cons, List.nodup_append]
    constructor
    · rintro ⟨-, -, hne⟩ e he hmem
      exact hne _ hmem _ (keys_others ▸ List.mem_map_of_mem he) rfl
    · intro h
      refine ⟨hwritten, nodup_keys_others, ?_⟩
      rintro key hkey _ hother rfl
      rw [keys_others] at hother
      obtain ⟨e, he, rfl⟩ := List.mem_map.1 hother
      exact h e he hkey
  rw [encode_eq, ← hkeys]
  constructor
  · rintro (_ | _ | _ | _ | _ | _ | ⟨h, -⟩)
    exact h
  · exact fun h => .obj h fun _ => distinct_member

theorem additionalFields_of_named {members : Members} {make : StringMap → ResourceMetadata}
    (h : named.ofMembers members = .ok make) (others : StringMap) :
    (make others).additionalFields = others := by
  simp only [named, ofMembers, mapError_eq_ok_iff, named_seq, named_map, both_eq_ok_iff,
    Except.ok.injEq] at h
  obtain ⟨_, bearer, ⟨_, scopes, ⟨_, resource, rfl, -, rfl⟩, -, rfl⟩, -, rfl⟩ := h
  rfl

theorem clear_of_decode {json : Json} (h : decode json = .ok r) : r.Clear := by
  cases json with
  | obj members =>
      rw [decode] at h
      obtain ⟨make, hmake, h⟩ := bind_eq_ok_iff.1 h
      obtain ⟨others, hothers, h⟩ := bind_eq_ok_iff.1 h
      have hr : make others = r := Except.ok.inj h
      rw [Clear, ← hr, additionalFields_of_named hmake]
      intro e he
      obtain ⟨m, hm, hkey⟩ := List.mem_map.1 (Decode.keys_stringMap hothers he)
      rw [← hkey]
      simpa using (List.mem_filter.1 hm).2
  | null | bool | int | float | str | arr => cases h

theorem lookup_others (h : r.Clear) {key : String} (hkey : key ∈ fieldNames) :
    List.lookup key r.others = none := by
  rw [List.lookup_eq_none_iff]
  intro m hm
  obtain ⟨e, he, rfl⟩ := List.mem_map.1 hm
  have hne : key ≠ e.1 := fun heq => h e he (heq ▸ hkey)
  simpa using hne

theorem filter_members (h : r.Clear) :
    (("resource", .str r.resource) :: (Members.present (lists r) ++ r.others)).filter
      (fun m => m.1 ∉ fieldNames) = r.others := by
  have hnamed : ∀ m ∈ ("resource", .str r.resource) :: Members.present (lists r),
      m.1 ∈ fieldNames := fun m hm =>
    sublist_writtenNames.subset (show m.1 ∈ r.writtenNames from List.mem_map_of_mem hm)
  have hothers : ∀ m ∈ r.others, m.1 ∉ fieldNames := by
    intro m hm
    obtain ⟨e, he, rfl⟩ := List.mem_map.1 hm
    exact h e he
  rw [← List.cons_append, List.filter_append, List.filter_eq_nil_iff.2 (by simpa using hnamed),
    List.filter_eq_self.2 (by simpa using hothers), List.nil_append]

theorem decode_encode_iff : decode r.encode = .ok r ↔ r.Clear := by
  refine ⟨clear_of_decode, fun h => ?_⟩
  have hscopes := lookup_others h (show "scopesSupported" ∈ fieldNames by decide)
  have hbearer := lookup_others h (show "bearerMethodsSupported" ∈ fieldNames by decide)
  have hnamed : named.ofMembers (("resource", .str r.resource) ::
      (Members.present (lists r) ++ r.others)) =
        .ok (mk r.resource r.scopesSupported r.bearerMethodsSupported) := by
    simp [named, ofMembers, List.lookup_append, lists, hscopes, hbearer, Except.mapError]
  have hothers : Decode.stringMap (.obj r.others) = .ok r.additionalFields :=
    Codec.decode_written Json.ofStringMap Decode.stringMap r.additionalFields
  rw [encode_eq, decode, hnamed, filter_members h, hothers]
  rfl

end ResourceMetadata

/-- What is written for a value is in order when it is for the metadata of the resources in it. -/
class Holding {α : Type} (encode : α → Json) (decode : Decoder α)
    (resources : outParam (α → List ResourceMetadata)) : Prop where
  encode_ne_null (a : α) : encode a ≠ .null
  distinct_iff (a : α) : (encode a).Distinct ↔ ∀ r ∈ resources a, r.Separate
  decode_iff (a : α) : decode (encode a) = .ok a ↔ ∀ r ∈ resources a, r.Clear

def Policies.resources (p : Policies) : List ResourceMetadata :=
  p.mcpAuthentication.toList.flatMap (·.resourceMetadata.toList)

def Route.resources (r : Route) : List ResourceMetadata := r.policies.toList.flatMap Policies.resources

def Config.resources (c : Config) : List ResourceMetadata := c.routes.flatMap Route.resources

theorem Config.resources_eq (c : Config) : c.resources =
    c.binds.flatMap (·.listeners.flatMap (·.routes.flatMap Route.resources)) := by
  simp [resources, routes, List.flatMap_assoc]

namespace Holding

section

variable {α : Type} {encode : α → Json} {decode : Decoder α} {resources : α → List ResourceMetadata}

theorem distinctMember_map_iff (decode : Decoder α) [Holding encode decode resources] (o : Option α) :
    Json.DistinctMember (o.map encode) ↔ ∀ r ∈ o.toList.flatMap resources, r.Separate := by
  cases o with
  | none => simp [Json.DistinctMember]
  | some a => simp [Json.DistinctMember, distinct_iff decode]

theorem read_iff [Holding encode decode resources] (absent : Except FieldFault α) (key : String)
    (a : α) : Fields.read decode absent key (some (encode a)) = .ok a ↔
      ∀ r ∈ resources a, r.Clear := by
  rw [Fields.read, mapError_eq_ok_iff, decode_iff]

theorem read_skippable_iff [Holding encode decode resources] (key : String) (o : Option α) :
    Fields.read (Decode.orNull decode) (.ok none) key (o.map encode) = .ok o ↔
      ∀ r ∈ o.toList.flatMap resources, r.Clear := by
  cases o with
  | none => simp [Fields.read]
  | some a =>
      have hne : encode a ≠ .null := encode_ne_null decode a
      have hread : decode (encode a) = .ok a ↔ ∀ r ∈ resources a, r.Clear := decode_iff a
      rw [Option.map_some, Fields.read, mapError_eq_ok_iff, Option.toList_some, List.flatMap_singleton,
        ← hread]
      unfold Decode.orNull
      split
      · contradiction
      · cases decode (encode a) <;> simp [Except.map]

theorem items_map_iff (as : List α) : Decode.items decode (as.map encode) = .ok as ↔
    ∀ a ∈ as, decode (encode a) = .ok a := by
  induction as with
  | nil => simp [Decode.items]
  | cons a rest ih =>
      rw [List.map_cons, Decode.items, List.forall_mem_cons, ← ih]
      cases decode (encode a) <;> cases Decode.items decode (rest.map encode) <;>
        simp [bind, Except.bind]

instance [Holding encode decode resources] :
    Holding (Json.ofList encode) (Decode.list decode) (·.flatMap resources) where
  encode_ne_null _ := by simp [Json.ofList]
  distinct_iff as := by
    have hitems : (Json.ofList encode as).Distinct ↔ ∀ a ∈ as, (encode a).Distinct := by
      constructor
      · rintro (_ | _ | _ | _ | _ | h)
        exact fun a ha => h _ (List.mem_map_of_mem ha)
      · exact fun h => .arr (by simpa using h)
    rw [hitems, List.forall_mem_flatMap]
    exact forall₂_congr fun a _ => distinct_iff decode a
  decode_iff as := by
    have hitems : Decode.list decode (Json.ofList encode as) = .ok as ↔
        ∀ a ∈ as, decode (encode a) = .ok a := items_map_iff as
    rw [hitems, List.forall_mem_flatMap]
    exact forall₂_congr fun a _ => decode_iff a

end

theorem record_distinct_iff {fields : List (String × Option Json)}
    (hkeys : (fields.map Prod.fst).Nodup) :
    (Json.record fields).Distinct ↔ ∀ f ∈ fields, Json.DistinctMember f.2 := by
  refine ⟨?_, Json.record_distinct hkeys⟩
  rintro (_ | _ | _ | _ | _ | _ | ⟨-, h⟩) ⟨key, o⟩ hf json hjson
  exact h (key, json) (Members.mem_present.2 (hjson ▸ hf))

theorem obj_distinct_iff {members : Members} (hkeys : (members.map Prod.fst).Nodup) :
    (Json.obj members).Distinct ↔ ∀ m ∈ members, m.2.Distinct := by
  refine ⟨?_, .obj hkeys⟩
  rintro (_ | _ | _ | _ | _ | _ | ⟨-, h⟩)
  exact h

instance : Holding ResourceMetadata.encode ResourceMetadata.decode ([·]) where
  encode_ne_null _ := by simp [ResourceMetadata.encode]
  distinct_iff r := by simpa using ResourceMetadata.distinct_encode_iff
  decode_iff r := by simpa using ResourceMetadata.decode_encode_iff

instance : Holding Authentication.encode Authentication.decode (·.resourceMetadata.toList) where
  encode_ne_null _ := by simp [Authentication.encode, Json.record]
  distinct_iff a := by
    rw [Authentication.encode, record_distinct_iff (by simp)]
    simp [distinctMember_map_iff ResourceMetadata.decode]
  decode_iff a := by
    cases a
    simp [Authentication.encode, Json.record, Authentication.decode, Authentication.fields,
      mapError_eq_ok_iff, both_eq_ok_iff, read_skippable_iff]

instance : Holding Policies.encode Policies.decode Policies.resources where
  encode_ne_null _ := by simp [Policies.encode, Json.record]
  distinct_iff p := by
    rw [Policies.encode, record_distinct_iff (by simp)]
    simp [distinctMember_map_iff Authentication.decode, Policies.resources]
  decode_iff p := by
    cases p
    simp [Policies.encode, Json.record, Policies.decode, Policies.fields, mapError_eq_ok_iff,
      both_eq_ok_iff, read_skippable_iff, Policies.resources]

instance : Holding Route.encode Route.decode Route.resources where
  encode_ne_null _ := by simp [Route.encode, Json.record]
  distinct_iff r := by
    rw [Route.encode, record_distinct_iff (by simp)]
    simp [distinctMember_map_iff Policies.decode, Route.resources]
  decode_iff r := by
    cases r
    simp [Route.encode, Json.record, Route.decode, Route.fields, mapError_eq_ok_iff,
      both_eq_ok_iff, read_skippable_iff, Route.resources]

instance : Holding Listener.encode Listener.decode (·.routes.flatMap Route.resources) where
  encode_ne_null _ := by simp [Listener.encode]
  distinct_iff l := by
    rw [Listener.encode, obj_distinct_iff (by simp)]
    simp [distinct_iff (Decode.list Route.decode)]
  decode_iff l := by
    cases l
    simp [Listener.encode, Listener.decode, Listener.fields, mapError_eq_ok_iff, both_eq_ok_iff,
      read_iff]

instance : Holding Bind.encode Bind.decode
    (·.listeners.flatMap (·.routes.flatMap Route.resources)) where
  encode_ne_null _ := by simp [Bind.encode]
  distinct_iff b := by
    rw [Bind.encode, obj_distinct_iff (by simp)]
    simp [distinct_iff (Decode.list Listener.decode)]
  decode_iff b := by
    cases b
    simp [Bind.encode, Bind.decode, Bind.fields, mapError_eq_ok_iff, both_eq_ok_iff, read_iff]

instance : Holding Config.encode Config.decode Config.resources where
  encode_ne_null _ := by simp [Config.encode]
  distinct_iff c := by
    rw [Config.encode, obj_distinct_iff (by simp)]
    simp [distinct_iff (Decode.list Bind.decode), Config.resources_eq]
  decode_iff c := by
    cases c
    simp [Config.encode, Config.decode, Config.fields, mapError_eq_ok_iff, both_eq_ok_iff, read_iff,
      Config.resources_eq]

end Holding

end Gateway
end McpOperator
