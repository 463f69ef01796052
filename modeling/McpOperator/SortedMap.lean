namespace McpOperator

/-- A map from text to values. Its entries stand in ascending order of their keys, so two maps with
the same bindings are equal. -/
structure SortedMap (α : Type) where
  entries : List (String × α)
  ascending : entries.Pairwise (fun a b => a.1 < b.1)
deriving DecidableEq

abbrev StringMap := SortedMap String

namespace SortedMap

variable {α : Type}

def empty : SortedMap α := ⟨[], .nil⟩

instance : Inhabited (SortedMap α) := ⟨empty⟩

def insertEntry (k : String) (v : α) : List (String × α) → List (String × α)
  | [] => [(k, v)]
  | (l, w) :: rest =>
      if k < l then (k, v) :: (l, w) :: rest
      else if k = l then (k, v) :: rest
      else (l, w) :: insertEntry k v rest

theorem mem_insertEntry {k : String} {v : α} {p : String × α} {es : List (String × α)}
    (h : p ∈ insertEntry k v es) : p = (k, v) ∨ p ∈ es := by
  induction es with
  | nil => simpa [insertEntry] using h
  | cons e rest ih =>
      rcases e with ⟨l, w⟩
      simp only [insertEntry] at h
      split at h
      · simpa using h
      · split at h
        · rcases List.mem_cons.1 h with h | h
          · exact .inl h
          · exact .inr (List.mem_cons_of_mem _ h)
        · rcases List.mem_cons.1 h with h | h
          · exact .inr (h ▸ List.mem_cons_self)
          · exact (ih h).imp_right (List.mem_cons_of_mem _)

theorem lt_of_not_lt {k l : String} (h : ¬ k < l) (hne : k ≠ l) : l < k := by
  rcases String.le_total k l with hkl | hlk
  · exact absurd (String.le_antisymm hkl (String.not_lt.1 h)) hne
  · exact Decidable.byContradiction fun hl => hne (String.le_antisymm (String.not_lt.1 hl) hlk)

theorem insertEntry_ascending {k : String} {v : α} {es : List (String × α)}
    (h : es.Pairwise (fun a b => a.1 < b.1)) :
    (insertEntry k v es).Pairwise (fun a b => a.1 < b.1) := by
  induction es with
  | nil => simp [insertEntry]
  | cons e rest ih =>
      rcases e with ⟨l, w⟩
      rw [List.pairwise_cons] at h
      simp only [insertEntry]
      split
      · rename_i hkl
        refine List.pairwise_cons.2 ⟨fun p hp => ?_, List.pairwise_cons.2 h⟩
        rcases List.mem_cons.1 hp with rfl | hp
        · exact hkl
        · exact String.lt_trans hkl (h.1 p hp)
      · split
        · rename_i heq
          subst heq
          exact List.pairwise_cons.2 h
        · rename_i hkl hne
          refine List.pairwise_cons.2 ⟨fun p hp => ?_, ih h.2⟩
          rcases mem_insertEntry hp with rfl | hp
          · exact lt_of_not_lt hkl hne
          · exact h.1 p hp

def insert (m : SortedMap α) (k : String) (v : α) : SortedMap α :=
  ⟨insertEntry k v m.entries, insertEntry_ascending m.ascending⟩

def erase (m : SortedMap α) (k : String) : SortedMap α :=
  ⟨m.entries.filter (fun e => e.1 ≠ k), m.ascending.filter _⟩

def get? (m : SortedMap α) (k : String) : Option α := m.entries.lookup k

def contains (m : SortedMap α) (k : String) : Bool := (m.get? k).isSome

def isEmpty (m : SortedMap α) : Bool := m.entries.isEmpty

/-- Later bindings of a key win. -/
def ofList (es : List (String × α)) : SortedMap α :=
  es.foldl (fun m e => m.insert e.1 e.2) empty

end SortedMap
end McpOperator
