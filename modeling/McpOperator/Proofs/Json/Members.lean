import McpOperator.Json.Pointer
import McpOperator.Json.Subset
import Mathlib.Data.List.Forall2

namespace McpOperator

namespace Members

theorem lookup_of_mem {members : Members} (h : (members.map Prod.fst).Nodup) {e : String × Json}
    (he : e ∈ members) : members.lookup e.1 = some e.2 := by
  induction members with
  | nil => cases he
  | cons d rest ih =>
      obtain ⟨hfresh, hrest⟩ := List.nodup_cons.1 h
      rcases List.mem_cons.1 he with rfl | he
      · exact List.lookup_cons_self
      · have hne : e.1 ≠ d.1 := by
          intro heq
          exact hfresh (heq ▸ List.mem_map_of_mem he)
        rw [List.lookup_cons, beq_false_of_ne hne]
        exact ih hrest he

theorem mem_of_lookup {members : Members} {key : String} {json : Json}
    (h : members.lookup key = some json) : (key, json) ∈ members := by
  obtain ⟨before, after, rfl, -⟩ := List.lookup_eq_some_iff.1 h
  simp

@[simp] theorem lookup_cons {α : Type} (key l : String) (a : α) (rest : List (String × α)) :
    List.lookup key ((l, a) :: rest) = if key = l then some a else List.lookup key rest := by
  by_cases h : key = l <;> simp [List.lookup_cons, h, beq_false_of_ne]

@[simp] theorem lookup_present_nil (key : String) : List.lookup key (present []) = none := rfl

@[simp] theorem lookup_present_cons (key l : String) (o : Option Json)
    (fields : List (String × Option Json)) :
    List.lookup key (present ((l, o) :: fields)) =
      if key = l then o.or (List.lookup key (present fields))
      else List.lookup key (present fields) := by
  cases o <;> by_cases h : key = l <;> simp [present, List.lookup_cons, h, beq_false_of_ne]

theorem keys_present (fields : List (String × Option Json)) :
    ((present fields).map Prod.fst).Sublist (fields.map Prod.fst) := by
  induction fields with
  | nil => exact .slnil
  | cons f rest ih =>
      rcases f with ⟨key, none | json⟩
      · exact ih.cons key
      · exact ih.cons_cons key

theorem mem_present {fields : List (String × Option Json)} {e : String × Json} :
    e ∈ present fields ↔ (e.1, some e.2) ∈ fields := by
  rw [present, List.mem_filterMap]
  constructor
  · rintro ⟨⟨key, o⟩, hf, he⟩
    obtain ⟨json, rfl, rfl⟩ := Option.map_eq_some_iff.1 he
    exact hf
  · exact fun h => ⟨_, h, rfl⟩

end Members

namespace Json

/-- No object of the tree binds a key twice. -/
inductive Distinct : Json → Prop
  | null : Distinct null
  | bool (b) : Distinct (bool b)
  | int (n) : Distinct (int n)
  | float (d) : Distinct (float d)
  | str (s) : Distinct (str s)
  | arr {items} (h : ∀ item ∈ items, Distinct item) : Distinct (arr items)
  | obj {members : Members} (hkeys : (members.map Prod.fst).Nodup)
      (h : ∀ e ∈ members, Distinct e.2) : Distinct (obj members)

def DistinctMember (o : Option Json) : Prop := ∀ json ∈ o, json.Distinct

theorem record_distinct {fields : List (String × Option Json)} (hkeys : (fields.map Prod.fst).Nodup)
    (h : ∀ f ∈ fields, DistinctMember f.2) : Distinct (record fields) :=
  .obj (hkeys.sublist (Members.keys_present fields))
    fun _ he => h _ (Members.mem_present.1 he) _ rfl

theorem agrees_self (json : Json) : json.agrees json = true := by
  cases json with
  | float d => simp [agrees]
  | null | bool | int | str | arr | obj => exact beq_self _

theorem isSubset_scalar {desired : Json} (ho : ∀ ms, desired ≠ obj ms) (ha : ∀ js, desired ≠ arr js)
    (live : Json) : desired.isSubset live = desired.agrees live := by
  cases desired with
  | obj ms => exact absurd rfl (ho ms)
  | arr js => exact absurd rfl (ha js)
  | null | bool | int | float | str => simp [isSubset]

theorem membersSubset_iff {desired live : Members} :
    membersSubset desired live = true ↔
      ∀ e ∈ desired, ∃ json, live.lookup e.1 = some json ∧ isSubset e.2 json = true := by
  induction desired with
  | nil => simp [membersSubset]
  | cons e rest ih =>
      rcases e with ⟨key, value⟩
      rw [membersSubset, Bool.and_eq_true, ih, List.forall_mem_cons]
      cases live.lookup key <;> simp

theorem isSubset_refl {json : Json} (h : json.Distinct) : json.isSubset json = true := by
  induction h with
  | null | bool | int | float | str => rw [isSubset_scalar (by simp) (by simp), agrees_self]
  | @arr items _ ih =>
      rw [isSubset]
      induction items with
      | nil => rfl
      | cons item rest ihr =>
          rw [List.forall_mem_cons] at ih
          rw [itemsSubset, ih.1, Bool.true_and]
          exact ihr (fun j hj => by simp_all) ih.2
  | obj hkeys _ ih =>
      rw [isSubset, membersSubset_iff]
      exact fun e he => ⟨e.2, Members.lookup_of_mem hkeys he, ih e he⟩

/-- What a member sets, when it is there, is held by another one. -/
def Held (o p : Option Json) : Prop := ∀ json ∈ o, ∃ other ∈ p, json.isSubset other = true

@[simp] theorem held_none (p : Option Json) : Held none p := fun _ h => nomatch h

@[simp] theorem held_some {json other : Json} : Held (some json) (some other) ↔ json.isSubset other = true := by
  simp [Held]

theorem held_refl {o : Option Json} (h : DistinctMember o) : Held o o :=
  fun json hj => ⟨json, hj, isSubset_refl (h json hj)⟩

theorem held_of_mem {fields others : List (String × Option Json)}
    (h : List.Forall₂ (fun f g => f.1 = g.1 ∧ Held f.2 g.2) fields others) {key : String} {json : Json}
    (hmem : (key, some json) ∈ fields) :
    ∃ other, (key, some other) ∈ others ∧ json.isSubset other = true := by
  induction h with
  | nil => cases hmem
  | @cons f g _ _ hfg _ ih =>
      rcases List.mem_cons.1 hmem with rfl | hmem
      · obtain ⟨hkey, hheld⟩ := hfg
        obtain ⟨other, hother, hs⟩ := hheld json rfl
        exact ⟨other, List.mem_cons.2 (.inl (Prod.ext hkey hother.symm)), hs⟩
      · obtain ⟨other, hother, hs⟩ := ih hmem
        exact ⟨other, List.mem_cons_of_mem _ hother, hs⟩

theorem record_isSubset {fields others : List (String × Option Json)}
    (hkeys : (others.map Prod.fst).Nodup)
    (h : List.Forall₂ (fun f g => f.1 = g.1 ∧ Held f.2 g.2) fields others) :
    (record fields).isSubset (record others) = true := by
  rw [record, record, isSubset, membersSubset_iff]
  intro e he
  obtain ⟨other, hmem, hs⟩ := held_of_mem h (Members.mem_present.1 he)
  exact ⟨other, Members.lookup_of_mem (e := (e.1, other))
    (hkeys.sublist (Members.keys_present others)) (Members.mem_present.2 hmem), hs⟩

theorem str_isSubset {s : String} {live : Json} (h : (str s).isSubset live = true) : live = str s := by
  rw [isSubset_scalar (by simp) (by simp)] at h
  exact (eq_of_beq h).symm

theorem getElem?_of_itemsSubset {desired live : List Json} (h : itemsSubset desired live = true) {i : Nat}
    {json : Json} (hget : desired[i]? = some json) :
    ∃ other, live[i]? = some other ∧ json.isSubset other = true := by
  induction desired generalizing live i with
  | nil => cases hget
  | cons d rest ih =>
      cases live with
      | nil => cases h
      | cons l others =>
          rw [itemsSubset, Bool.and_eq_true] at h
          cases i with
          | zero =>
              cases hget
              exact ⟨l, rfl, h.1⟩
          | succ i => exact ih h.2 hget

theorem at?_of_isSubset {desired live : Json} (h : desired.isSubset live = true) {path : List String}
    {s : String} (hat : desired.at? path = some (str s)) : live.at? path = some (str s) := by
  induction path generalizing desired live with
  | nil =>
      rw [at?] at hat
      cases hat
      rw [str_isSubset h, at?]
  | cons step rest ih =>
      cases desired with
      | obj ms =>
          rw [at?] at hat
          obtain ⟨json, hget, hat⟩ := Option.bind_eq_some_iff.1 hat
          cases live with
          | obj ls =>
              rw [isSubset, membersSubset_iff] at h
              obtain ⟨other, hother, hs⟩ := h (step, json) (Members.mem_of_lookup hget)
              rw [at?, hother]
              exact ih hs hat
          | null | bool | int | float | str | arr => simp [isSubset, agrees, beq] at h
      | arr items =>
          rw [at?] at hat
          obtain ⟨i, hi, hat⟩ := Option.bind_eq_some_iff.1 hat
          obtain ⟨json, hget, hat⟩ := Option.bind_eq_some_iff.1 hat
          cases live with
          | arr others =>
              rw [isSubset] at h
              obtain ⟨other, hother, hs⟩ := getElem?_of_itemsSubset h hget
              rw [at?, hi]
              change (others[i]?.bind fun json => json.at? rest) = _
              rw [hother]
              exact ih hs hat
          | null | bool | int | float | str | obj => simp [isSubset, agrees, beq] at h
      | null | bool | int | float | str => cases hat

theorem at?_of_get? {json child : Json} {step : String} (h : json.get? step = some child)
    (rest : List String) : json.at? (step :: rest) = child.at? rest := by
  cases json with
  | obj members =>
      have hlookup : members.lookup step = some child := h
      rw [at?, hlookup]
      rfl
  | null | bool | int | float | str | arr => cases h

end Json
end McpOperator
