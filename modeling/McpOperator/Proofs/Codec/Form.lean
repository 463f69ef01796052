import McpOperator.Objects.Form.Basic
import McpOperator.Proofs.Codec.Basic
import McpOperator.Proofs.Time.Text
import Mathlib.Data.List.Nodup

namespace McpOperator

theorem Members.lookup_present {fields : List (String × Option Json)} (h : (fields.map Prod.fst).Nodup)
    {f : String × Option Json} (hf : f ∈ fields) : (present fields).lookup f.1 = f.2 := by
  obtain ⟨key, o⟩ := f
  cases o with
  | some json =>
      have hpresent : (key, json) ∈ present fields := mem_present.2 hf
      exact lookup_of_mem (h.sublist (keys_present fields)) hpresent
  | none =>
      rw [List.lookup_eq_none_iff]
      rintro ⟨l, json⟩ hjson
      rw [bne_iff_ne]
      rintro rfl
      have hsame := List.inj_on_of_nodup_map h hf (mem_present.1 hjson) rfl
      cases hsame

theorem Fields.named_pair {α β : Type} {x : Fields α} {y : Fields β} {members : Members} {a : α} {b : β}
    (ha : x.named members = .ok a) (hb : y.named members = .ok b) :
    (Prod.mk <$> x <*> y).named members = .ok (a, b) := by
  rw [named_seq, named_map, ha, hb]
  rfl

instance : Codec PortTarget.encode PortTarget.decode id where
  encode_ne_null t := by cases t <;> simp [PortTarget.encode, Json.ofInt32]
  distinct
    | .number _ => .int _
    | .name _ => .str _
  decode_encode
    | .number p => by
        have hlow := p.le_toInt
        have hhigh := p.toInt_lt
        have hrange : -2147483648 ≤ p.toInt ∧ p.toInt ≤ 2147483647 := by omega
        simp [PortTarget.encode, Json.ofInt32, PortTarget.decode, Decode.intWithin, hrange, Except.map]
    | .name _ => rfl
  encode_kept _ := rfl

namespace Instant

theorem wholeSeconds_eq_iff {t : Instant} : t.wholeSeconds = t ↔ t.Whole := by
  obtain ⟨seconds, nanos, hrange, hfraction⟩ := t
  simp only [wholeSeconds, Whole, Instant.mk.injEq, true_and]
  split <;> omega

end Instant

instance : Codec (fun t : WholeInstant => Json.str t.1.text) Decode.wholeInstant id where
  encode_ne_null _ := by simp
  distinct _ := .str _
  decode_encode t := by
    have hwhole : t.1.wholeSeconds = t.1 := Instant.wholeSeconds_eq_iff.2 t.2
    simp [Decode.wholeInstant, Decode.instant, Instant.ofText_text, Except.mapError, Except.map, hwhole]
  encode_kept _ := rfl

namespace FormMembers

theorem keys_encode : (members : FormMembers) → (values : members.Values) →
    (members.encode values).map Prod.fst = members.keys
  | .nil, _ => rfl
  | .cons key .required _ rest, (_, values) => congrArg (key :: ·) (rest.keys_encode values)
  | .cons key .optional _ rest, (_, values) => congrArg (key :: ·) (rest.keys_encode values)

theorem nodup_keys {members : FormMembers} (h : members.keys.Pairwise (· < ·)) : members.keys.Nodup :=
  h.imp String.ne_of_lt

end FormMembers

mutual

theorem Form.codec : (form : Form) → form.ascending = true → Codec form.encode form.decode id
  | .bool, _ => inferInstanceAs (Codec Json.bool Decode.bool id)
  | .int32, _ => inferInstanceAs (Codec Json.ofInt32 Decode.i32 id)
  | .int64, _ => inferInstanceAs (Codec Json.ofInt64 Decode.i64 id)
  | .text, _ => inferInstanceAs (Codec Json.str Decode.str id)
  | .time, _ => inferInstanceAs (Codec (fun t : WholeInstant => Json.str t.1.text) Decode.wholeInstant id)
  | .portTarget, _ => inferInstanceAs (Codec PortTarget.encode PortTarget.decode id)
  | .list item, h => by
      have hitem : Codec item.encode item.decode id := item.codec h
      have hlist : Codec (Json.ofList item.encode) (Decode.list item.decode) (List.map id) := inferInstance
      rwa [List.map_id_fun] at hlist
  | .map value, h => by
      have hvalue : Codec value.encode value.decode id := value.codec h
      exact inferInstanceAs (Codec (Json.ofMap value.encode) (Decode.map value.decode) id)
  | .record type members, h => by
      obtain ⟨hkeys, hmembers⟩ := Bool.and_eq_true_iff.1 h
      have hnodup : ∀ values, ((members.encode values).map Prod.fst).Nodup := fun values => by
        rw [members.keys_encode]
        exact FormMembers.nodup_keys (of_decide_eq_true hkeys)
      exact .ofRecord
        (fun values => members.named_fields hmembers fun f hf => Members.lookup_present (hnodup values) hf)
        (fun _ => rfl) hnodup (fun values => members.distinct_encode hmembers values)

theorem FormMembers.named_fields {found : Members} : (members : FormMembers) → members.ascending = true →
    {values : members.Values} → (∀ f ∈ members.encode values, found.lookup f.1 = f.2) →
    members.fields.named found = .ok values
  | .nil, _, _, _ => rfl
  | .cons key .required form rest, h, (value, values), hfound => by
      obtain ⟨hform, hrest⟩ := Bool.and_eq_true_iff.1 h
      have hcodec : Codec form.encode form.decode id := form.codec hform
      obtain ⟨hvalue, hvalues⟩ := List.forall_mem_cons.1 hfound
      have hvalue : found.lookup key = some (form.encode value) := hvalue
      have hread : (Fields.lenient key form.decode form.default).named found = .ok value := by
        rw [Fields.named_lenient, hvalue, Fields.read_lenient, id]
      exact Fields.named_pair hread (rest.named_fields hrest hvalues)
  | .cons key .optional form rest, h, (value, values), hfound => by
      obtain ⟨hform, hrest⟩ := Bool.and_eq_true_iff.1 h
      have hcodec : Codec form.encode form.decode id := form.codec hform
      obtain ⟨hvalue, hvalues⟩ := List.forall_mem_cons.1 hfound
      have hread : (Fields.optional key form.decode).named found = .ok value := by
        rw [Fields.named_optional, hvalue, Fields.read_optional, Option.map_id, id]
      exact Fields.named_pair hread (rest.named_fields hrest hvalues)

theorem FormMembers.distinct_encode : (members : FormMembers) → members.ascending = true →
    (values : members.Values) → ∀ f ∈ members.encode values, Json.DistinctMember f.2
  | .nil, _, _ => nofun
  | .cons key .required form rest, h, (value, values) => by
      obtain ⟨hform, hrest⟩ := Bool.and_eq_true_iff.1 h
      have hcodec : Codec form.encode form.decode id := form.codec hform
      exact List.forall_mem_cons.2 ⟨Json.distinctMember_some value, rest.distinct_encode hrest values⟩
  | .cons key .optional form rest, h, (value, values) => by
      obtain ⟨hform, hrest⟩ := Bool.and_eq_true_iff.1 h
      have hcodec : Codec form.encode form.decode id := form.codec hform
      exact List.forall_mem_cons.2 ⟨Json.distinctMember_map value, rest.distinct_encode hrest values⟩

end

instance (layout : Layout) : Codec layout.encode layout.decode id := layout.form.codec layout.ascending

end McpOperator
