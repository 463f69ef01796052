import McpOperator.Table

namespace McpOperator.Table

variable {κ α β : Type}

def keys (t : Table κ α) : List κ := t.map Prod.fst

def mapValues (f : α → β) (t : Table κ α) : Table κ β := t.map fun e => (e.1, f e.2)

@[simp] theorem keys_nil : keys ([] : Table κ α) = [] := rfl

@[simp] theorem keys_cons (e : κ × α) (t : Table κ α) : keys (e :: t) = e.1 :: t.keys := rfl

@[simp] theorem keys_mapValues (f : α → β) (t : Table κ α) : (t.mapValues f).keys = t.keys := by
  simp [keys, mapValues]

variable [DecidableEq κ]

theorem get?_of_not_mem {t : Table κ α} {k : κ} (h : k ∉ t.keys) : t.get? k = none := by
  induction t with
  | nil => rfl
  | cons e rest ih =>
      rw [keys_cons, List.mem_cons, not_or] at h
      rw [get?, if_neg (Ne.symm h.1), ih h.2]

theorem get?_of_mem {t : Table κ α} (hnodup : t.keys.Nodup) {k : κ} {a : α} (h : (k, a) ∈ t) :
    t.get? k = some a := by
  induction t with
  | nil => cases h
  | cons e rest ih =>
      obtain ⟨hfresh, hrest⟩ := List.nodup_cons.1 hnodup
      rcases List.mem_cons.1 h with rfl | hmem
      · rw [get?, if_pos rfl]
      · have hk : k ∈ keys rest := List.mem_map_of_mem hmem
        have hne : e.1 ≠ k := fun heq => hfresh (heq ▸ hk)
        rw [get?, if_neg hne, ih hrest hmem]

theorem isSome_get?_iff (t : Table κ α) (k : κ) : (t.get? k).isSome ↔ k ∈ t.keys := by
  induction t with
  | nil => simp [get?]
  | cons e rest ih =>
      by_cases h : e.1 = k
      · simp [get?, h]
      · simp [get?, h, Ne.symm h, ih]

@[simp] theorem get?_mapValues (f : α → β) (t : Table κ α) (k : κ) :
    (t.mapValues f).get? k = (t.get? k).map f := by
  induction t with
  | nil => rfl
  | cons e rest ih =>
      have hcons : mapValues f (e :: rest) = (e.1, f e.2) :: mapValues f rest := rfl
      rw [hcons, get?, get?, ih]
      split <;> rfl

theorem mapValues_put (f : α → β) (t : Table κ α) (k : κ) (a : α) :
    (t.put k a).mapValues f = (t.mapValues f).put k (f a) := by
  induction t with
  | nil => rfl
  | cons e rest ih =>
      have hcons : mapValues f (e :: rest) = (e.1, f e.2) :: mapValues f rest := rfl
      rw [hcons, put, put]
      split
      · rfl
      · rw [← ih]
        rfl

theorem put_of_get? {t : Table κ α} {k : κ} {a : α} (h : t.get? k = some a) : t.put k a = t := by
  induction t with
  | nil => cases h
  | cons e rest ih =>
      rw [get?] at h
      rw [put]
      split at h
      · rename_i hk
        cases h
        rw [if_pos hk]
      · rename_i hk
        rw [if_neg hk, ih h]

theorem put_of_not_mem {t : Table κ α} {k : κ} (a : α) (h : k ∉ t.keys) :
    t.put k a = t ++ [(k, a)] := by
  induction t with
  | nil => rfl
  | cons e rest ih =>
      rw [keys_cons, List.mem_cons, not_or] at h
      rw [put, if_neg (Ne.symm h.1), ih h.2]
      rfl

/-- A key that is there keeps its place, a new one goes to the end. -/
theorem keys_put (t : Table κ α) (k : κ) (a : α) :
    (t.put k a).keys = if k ∈ t.keys then t.keys else t.keys ++ [k] := by
  induction t with
  | nil => rfl
  | cons e rest ih =>
      rw [put]
      by_cases hk : e.1 = k
      · simp [hk]
      · rw [if_neg hk, keys_cons, ih, keys_cons]
        by_cases hmem : k ∈ keys rest
        · simp [hmem]
        · simp [hmem, Ne.symm hk]

theorem nodup_keys_put {t : Table κ α} (h : t.keys.Nodup) (k : κ) (a : α) :
    (t.put k a).keys.Nodup := by
  rw [keys_put]
  split
  · exact h
  · rename_i hk
    refine List.nodup_append.2 ⟨h, by simp, ?_⟩
    intro l hl m hm heq
    rw [List.mem_singleton] at hm
    subst hm heq
    exact hk hl

theorem ext_get? {t u : Table κ α} (hkeys : t.keys = u.keys) (hnodup : t.keys.Nodup)
    (h : ∀ k, t.get? k = u.get? k) : t = u := by
  induction t generalizing u with
  | nil =>
      cases u with
      | nil => rfl
      | cons d others => cases hkeys
  | cons e rest ih =>
      cases u with
      | nil => cases hkeys
      | cons d others =>
          rw [keys_cons, keys_cons, List.cons.injEq] at hkeys
          obtain ⟨hhead, htail⟩ := hkeys
          obtain ⟨hfresh, hrest⟩ := List.nodup_cons.1 hnodup
          have hfirst := h e.1
          rw [get?, get?, if_pos rfl, if_pos hhead.symm] at hfirst
          have heq : e = d := Prod.ext hhead (Option.some.inj hfirst)
          subst heq
          refine congrArg (e :: ·) (ih htail hrest ?_)
          intro k
          by_cases hk : e.1 = k
          · subst hk
            rw [get?_of_not_mem hfresh, get?_of_not_mem (htail ▸ hfresh)]
          · have := h k
            rwa [get?, get?, if_neg hk, if_neg hk] at this

end McpOperator.Table
