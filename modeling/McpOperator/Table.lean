namespace McpOperator

abbrev Table (κ α : Type) := List (κ × α)

namespace Table

variable {κ α : Type} [DecidableEq κ]

def get? (t : Table κ α) (k : κ) : Option α :=
  match t with
  | [] => none
  | (l, a) :: rest => if l = k then some a else get? rest k

def put (t : Table κ α) (k : κ) (a : α) : Table κ α :=
  match t with
  | [] => [(k, a)]
  | (l, b) :: rest => if l = k then (l, a) :: rest else (l, b) :: put rest k a

def erase (t : Table κ α) (k : κ) : Table κ α :=
  match t with
  | [] => []
  | (l, a) :: rest => if l = k then erase rest k else (l, a) :: erase rest k

@[simp] theorem get?_put_self (t : Table κ α) (k : κ) (a : α) : (t.put k a).get? k = some a := by
  induction t with
  | nil => simp [put, get?]
  | cons e rest ih => by_cases h : e.1 = k <;> simp [put, get?, h, ih]

theorem get?_put_of_ne (t : Table κ α) {k l : κ} (a : α) (h : k ≠ l) :
    (t.put k a).get? l = t.get? l := by
  induction t with
  | nil => simp [put, get?, h]
  | cons e rest ih =>
      rcases e with ⟨m, b⟩
      by_cases hm : m = k
      · subst hm
        simp [put, get?, h]
      · simp [put, get?, hm, ih]

theorem get?_erase_self (t : Table κ α) (k : κ) : (t.erase k).get? k = none := by
  induction t with
  | nil => rfl
  | cons e rest ih => by_cases h : e.1 = k <;> simp [erase, get?, h, ih]

theorem get?_erase_of_ne (t : Table κ α) {k l : κ} (h : k ≠ l) :
    (t.erase k).get? l = t.get? l := by
  induction t with
  | nil => rfl
  | cons e rest ih =>
      rcases e with ⟨m, a⟩
      by_cases hm : m = k
      · subst hm
        simp [erase, get?, h, ih]
      · by_cases hl : m = l
        · subst hl
          simp [erase, get?, hm]
        · simp [erase, get?, hm, hl, ih]

end Table
end McpOperator
