import McpOperator.Number.Double

namespace McpOperator

/-- A document tree. The members of an object keep the order they were written in. -/
inductive Json where
  | null
  | bool (value : Bool)
  | int (value : Int)
  | float (value : Decimal)
  | str (value : String)
  | arr (items : List Json)
  | obj (members : List (String × Json))
deriving Inhabited

abbrev Members := List (String × Json)

def Members.insert (key : String) (value : Json) : Members → Members
  | [] => [(key, value)]
  | (k, v) :: rest =>
      if key < k then (key, value) :: (k, v) :: rest
      else if key = k then (key, value) :: rest
      else (k, v) :: Members.insert key value rest

/-- Binds `key` to `value`, in the place of what it was bound to or behind all others. -/
def Members.assign (key : String) (value : Json) : Members → Members
  | [] => [(key, value)]
  | (k, v) :: rest => if key = k then (key, value) :: rest else (k, v) :: Members.assign key value rest

def Members.present (fields : List (String × Option Json)) : Members :=
  fields.filterMap fun field => field.2.map (field.1, ·)

namespace Json

mutual

def beq : Json → Json → Bool
  | null, null => true
  | bool a, bool b => a == b
  | int a, int b => a == b
  | float a, float b => a == b
  | str a, str b => a == b
  | arr a, arr b => beqItems a b
  | obj a, obj b => beqMembers a b
  | _, _ => false

def beqItems : List Json → List Json → Bool
  | [], [] => true
  | a :: as, b :: bs => beq a b && beqItems as bs
  | _, _ => false

def beqMembers : Members → Members → Bool
  | [], [] => true
  | (k, a) :: as, (l, b) :: bs => k == l && beq a b && beqMembers as bs
  | _, _ => false

end

mutual

theorem eq_of_beq : ∀ {a b : Json}, beq a b = true → a = b
  | null, b, h => by cases b <;> simp_all [beq]
  | bool a, b, h => by cases b <;> simp_all [beq]
  | int a, b, h => by cases b <;> simp_all [beq]
  | float a, b, h => by cases b <;> simp_all [beq]
  | str a, b, h => by cases b <;> simp_all [beq]
  | arr as, b, h => by
      cases b <;> simp [beq] at h
      rw [eq_of_beqItems h]
  | obj as, b, h => by
      cases b <;> simp [beq] at h
      rw [eq_of_beqMembers h]

theorem eq_of_beqItems : ∀ {as bs : List Json}, beqItems as bs = true → as = bs
  | [], bs, h => by cases bs <;> simp_all [beqItems]
  | a :: as, bs, h => by
      cases bs <;> simp [beqItems] at h
      rw [eq_of_beq h.1, eq_of_beqItems h.2]

theorem eq_of_beqMembers : ∀ {as bs : Members}, beqMembers as bs = true → as = bs
  | [], bs, h => by cases bs <;> simp_all [beqMembers]
  | (k, a) :: as, bs, h => by
      rcases bs with _ | ⟨⟨l, b⟩, bs⟩ <;> simp [beqMembers] at h
      rw [h.1.1, eq_of_beq h.1.2, eq_of_beqMembers h.2]

end

mutual

theorem beq_self : ∀ a : Json, beq a a = true
  | null => rfl
  | bool a => by simp [beq]
  | int a => by simp [beq]
  | float a => by simp [beq]
  | str a => by simp [beq]
  | arr as => by simp [beq, beqItems_self as]
  | obj as => by simp [beq, beqMembers_self as]

theorem beqItems_self : ∀ as : List Json, beqItems as as = true
  | [] => rfl
  | a :: as => by simp [beqItems, beq_self a, beqItems_self as]

theorem beqMembers_self : ∀ as : Members, beqMembers as as = true
  | [] => rfl
  | (k, a) :: as => by simp [beqMembers, beq_self a, beqMembers_self as]

end

instance : DecidableEq Json := fun a b =>
  if h : beq a b = true then .isTrue (eq_of_beq h)
  else .isFalse fun e => h (e ▸ beq_self a)

def record (fields : List (String × Option Json)) : Json := .obj (Members.present fields)

def ofUInt16 (n : UInt16) : Json := .int n.toNat

def strings (texts : List String) : Json := .arr (texts.map .str)

def get? : Json → String → Option Json
  | .obj members, key => members.lookup key
  | _, _ => none

def asString? : Json → Option String
  | .str s => some s
  | _ => none

def text? (json : Json) (key : String) : Option String := (json.get? key).bind asString?

/-- The tree with a member bound. Anything but an object gives way to one. -/
def setMember (json : Json) (key : String) (value : Json) : Json :=
  match json with
  | .obj members => .obj (Members.insert key value members)
  | _ => .obj [(key, value)]

def eraseMember (json : Json) (key : String) : Json :=
  match json with
  | .obj members => .obj (members.filter fun e => e.1 ≠ key)
  | json => json

end Json
end McpOperator
