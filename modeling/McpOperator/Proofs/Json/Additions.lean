import McpOperator.Proofs.Json.Members
import Mathlib.Logic.Relation

namespace McpOperator.Json

/-- A member is added under a key that its object did not bind. -/
inductive Addition : Json → Json → Prop
  | member (before : Members) {after : Members} {key : String} (value : Json)
      (hfresh : key ∉ (before ++ after).map Prod.fst) :
      Addition (obj (before ++ after)) (obj (before ++ (key, value) :: after))
  | within (before : Members) {after : Members} {key : String} {value other : Json}
      (h : Addition value other) :
      Addition (obj (before ++ (key, value) :: after)) (obj (before ++ (key, other) :: after))
  | item (before : List Json) {after : List Json} {value other : Json} (h : Addition value other) :
      Addition (arr (before ++ value :: after)) (arr (before ++ other :: after))

def Additions : Json → Json → Prop := Relation.ReflTransGen Addition

theorem isSubset_obj_iff {desired : Json} {live : Members} : desired.isSubset (obj live) = true ↔
    ∃ ms, desired = obj ms ∧
      ∀ e ∈ ms, ∃ json, live.lookup e.1 = some json ∧ e.2.isSubset json = true := by
  cases desired with
  | obj ms => simp [isSubset, membersSubset_iff]
  | null | bool | int | float | str | arr => simp [isSubset, agrees, beq]

theorem isSubset_arr_iff {desired : Json} {live : List Json} : desired.isSubset (arr live) = true ↔
    ∃ items, desired = arr items ∧ itemsSubset items live = true := by
  cases desired with
  | arr items => simp [isSubset]
  | null | bool | int | float | str | obj => simp [isSubset, agrees, beq]

theorem itemsSubset_iff {desired live : List Json} : itemsSubset desired live = true ↔
    List.Forall₂ (fun json other => json.isSubset other = true) desired live := by
  induction desired generalizing live with
  | nil => cases live <;> simp [itemsSubset]
  | cons json rest ih => cases live <;> simp [itemsSubset, ih]

theorem lookup_insert_fresh {before after : Members} {key : String} (value : Json)
    (hfresh : key ∉ (before ++ after).map Prod.fst) {k : String} {json : Json}
    (h : (before ++ after).lookup k = some json) :
    (before ++ (key, value) :: after).lookup k = some json := by
  have hne : k ≠ key := by
    rintro rfl
    exact hfresh (List.mem_map_of_mem (Members.mem_of_lookup h))
  rw [List.lookup_append] at h ⊢
  rw [Members.lookup_cons, if_neg hne, h]

theorem forall₂_replace {α β : Type} {R : α → β → Prop} {b c : β} (h : ∀ a, R a b → R a c) {as : List α}
    {before after : List β} (hall : List.Forall₂ R as (before ++ b :: after)) :
    List.Forall₂ R as (before ++ c :: after) := by
  induction before generalizing as with
  | nil =>
      cases hall with
      | cons hb hrest => exact .cons (h _ hb) hrest
  | cons d rest ih =>
      cases hall with
      | cons hd hrest => exact .cons hd (ih hrest)

theorem isSubset_of_addition {desired json other : Json} (h : Addition json other)
    (hs : desired.isSubset json = true) : desired.isSubset other = true := by
  induction h generalizing desired with
  | member before value hfresh =>
      rw [isSubset_obj_iff] at hs ⊢
      obtain ⟨ms, rfl, hheld⟩ := hs
      refine ⟨ms, rfl, fun e he => ?_⟩
      obtain ⟨json, hlookup, hjson⟩ := hheld e he
      exact ⟨json, lookup_insert_fresh value hfresh hlookup, hjson⟩
  | @within before after key value other _ ih =>
      rw [isSubset_obj_iff] at hs ⊢
      obtain ⟨ms, rfl, hheld⟩ := hs
      refine ⟨ms, rfl, fun e he => ?_⟩
      obtain ⟨json, hlookup, hjson⟩ := hheld e he
      rw [List.lookup_append, Members.lookup_cons] at hlookup ⊢
      cases hbefore : before.lookup e.1 with
      | some json' =>
          rw [hbefore] at hlookup
          exact ⟨json, hlookup, hjson⟩
      | none =>
          rw [hbefore, Option.none_or] at hlookup
          rw [Option.none_or]
          split at hlookup
          · cases hlookup
            exact ⟨other, if_pos ‹_›, ih hjson⟩
          · exact ⟨json, (if_neg ‹_›).trans hlookup, hjson⟩
  | @item before after value other _ ih =>
      rw [isSubset_arr_iff] at hs ⊢
      obtain ⟨items, rfl, hitems⟩ := hs
      refine ⟨items, rfl, ?_⟩
      rw [itemsSubset_iff] at hitems ⊢
      exact forall₂_replace (fun _ => ih) hitems

theorem isSubset_of_additions {desired json other : Json} (h : Additions json other)
    (hs : desired.isSubset json = true) : desired.isSubset other = true := by
  induction h with
  | refl => exact hs
  | tail _ h ih => exact isSubset_of_addition h ih

end McpOperator.Json
