import McpOperator.Proofs.Codec.Basic

namespace McpOperator

structure Need (ε : Type) where
  met : Prop
  error : ε

def Need.mapError {ε δ : Type} (f : ε → δ) (n : Need ε) : Need δ := ⟨n.met, f n.error⟩

/-- An error is that of the first need that is not met. -/
inductive FirstUnmet {ε : Type} : List (Need ε) → ε → Prop
  | here {n : Need ε} {rest : List (Need ε)} (h : ¬ n.met) : FirstUnmet (n :: rest) n.error
  | later {n : Need ε} {rest : List (Need ε)} {e : ε} (h : n.met) (hrest : FirstUnmet rest e) :
      FirstUnmet (n :: rest) e

/-- A computation goes well when all needs are met, and else tells the first that is not. -/
structure Requires {ε α : Type} (x : Except ε α) (needs : List (Need ε)) : Prop where
  ok_iff : (∃ a, x = .ok a) ↔ ∀ n ∈ needs, n.met
  error_iff (e : ε) : x = .error e ↔ FirstUnmet needs e

section

variable {ε δ α β : Type} {n : Need ε} {needs others : List (Need ε)} {e : ε}

theorem firstUnmet_cons_iff :
    FirstUnmet (n :: needs) e ↔ ¬ n.met ∧ n.error = e ∨ n.met ∧ FirstUnmet needs e := by
  constructor
  · rintro (h | ⟨h, hrest⟩)
    · exact .inl ⟨h, rfl⟩
    · exact .inr ⟨h, hrest⟩
  · rintro (⟨h, rfl⟩ | ⟨h, hrest⟩)
    · exact .here h
    · exact .later h hrest

theorem not_firstUnmet_nil : ¬ FirstUnmet [] e := nofun

theorem FirstUnmet.exists_unmet (h : FirstUnmet needs e) : ∃ n ∈ needs, ¬ n.met ∧ n.error = e := by
  induction h with
  | here h => exact ⟨_, List.mem_cons_self, h, rfl⟩
  | later _ _ ih => exact ih.imp fun _ hn => ⟨List.mem_cons_of_mem _ hn.1, hn.2⟩

theorem firstUnmet_append_iff : FirstUnmet (needs ++ others) e ↔
    FirstUnmet needs e ∨ (∀ n ∈ needs, n.met) ∧ FirstUnmet others e := by
  induction needs with
  | nil => simp [not_firstUnmet_nil]
  | cons n rest ih =>
      rw [List.cons_append, firstUnmet_cons_iff, firstUnmet_cons_iff, ih, List.forall_mem_cons]
      tauto

theorem firstUnmet_map_iff {f : ε → δ} {d : δ} :
    FirstUnmet (needs.map (Need.mapError f)) d ↔ ∃ e, FirstUnmet needs e ∧ f e = d := by
  induction needs with
  | nil => simp [not_firstUnmet_nil]
  | cons n rest ih =>
      simp only [List.map_cons, firstUnmet_cons_iff, ih, Need.mapError]
      grind

namespace Requires

variable {x : Except ε α}

theorem nothing {a : α} (h : x = .ok a) : Requires x [] := by
  constructor <;> simp [h, not_firstUnmet_nil]

theorem skip (hn : n.met) (h : Requires x needs) : Requires x (n :: needs) :=
  ⟨by simp [h.ok_iff, hn], fun e => by simp [h.error_iff, firstUnmet_cons_iff, hn]⟩

theorem stop (hn : ¬ n.met) (h : x = .error n.error) : Requires x (n :: needs) := by
  constructor <;> simp [h, firstUnmet_cons_iff, hn]

theorem single (h : n.met → ∃ a, x = .ok a) (h' : ¬ n.met → x = .error n.error) : Requires x [n] := by
  by_cases hn : n.met
  · obtain ⟨a, rfl⟩ := h hn
    exact .skip hn (.nothing rfl)
  · exact .stop hn (h' hn)

theorem bind {f : α → Except ε β} (h : Requires x needs)
    (hf : ∀ a, x = .ok a → Requires (f a) others) : Requires (x >>= f) (needs ++ others) := by
  cases x with
  | error e =>
      have hunmet : ¬ ∀ n ∈ needs, n.met := mt h.ok_iff.2 nofun
      refine ⟨?_, fun d => ?_⟩
      · rw [List.forall_mem_append]
        exact ⟨nofun, fun hall => absurd hall.1 hunmet⟩
      · rw [firstUnmet_append_iff, or_iff_left fun hall => hunmet hall.1, ← h.error_iff]
        simp [Bind.bind, Except.bind]
  | ok a =>
      have hmet : ∀ n ∈ needs, n.met := h.ok_iff.1 ⟨a, rfl⟩
      have hrest := hf a rfl
      refine ⟨?_, fun d => ?_⟩
      · rw [List.forall_mem_append, and_iff_right hmet]
        exact hrest.ok_iff
      · rw [firstUnmet_append_iff, and_iff_right hmet, ← h.error_iff, or_iff_right nofun]
        exact hrest.error_iff d

theorem followed {f : α → Except ε β} (h : Requires x needs)
    (hf : ∀ a, x = .ok a → ∃ b, f a = .ok b) : Requires (x >>= f) needs := by
  have hbind := h.bind fun a ha => (hf a ha).elim fun _ hb => nothing hb
  rwa [List.append_nil] at hbind

theorem mapError {f : ε → δ} (h : Requires x needs) :
    Requires (x.mapError f) (needs.map (Need.mapError f)) := by
  constructor
  · simp only [mapError_eq_ok_iff, h.ok_iff, List.forall_mem_map]
    rfl
  · intro d
    simp only [firstUnmet_map_iff, ← h.error_iff]
    cases x <;> simp [Except.mapError]

theorem map {f : α → β} (h : Requires x needs) : Requires (x.map f) needs := by
  constructor
  · rw [← h.ok_iff]
    cases x <;> simp [Except.map]
  · intro e
    rw [← h.error_iff]
    cases x <;> simp [Except.map]

theorem check (c : Prop) [Decidable c] (a : α) : Requires (if c then .ok a else .error e) [⟨c, e⟩] := by
  split
  · exact .skip ‹_› (.nothing rfl)
  · exact .single (absurd · ‹_›) fun _ => rfl

theorem more (h : Requires x needs) (hothers : ∀ n ∈ others, n.met) : Requires x (needs ++ others) := by
  refine ⟨?_, fun e => ?_⟩
  · rw [h.ok_iff, List.forall_mem_append, and_iff_left hothers]
  · rw [h.error_iff, firstUnmet_append_iff, or_iff_left]
    exact fun hall => hall.2.exists_unmet.elim fun n hn => hn.2.1 (hothers n hn.1)

theorem guard {c : Prop} [Decidable c] {e : ε} (hc : n.met ↔ ¬ c) (he : c → e = n.error)
    (h : ¬ c → Requires x needs) : Requires (if c then .error e else x) (n :: needs) := by
  split
  · rename_i hfault
    exact .stop (mt hc.1 (not_not_intro hfault)) (congrArg _ (he hfault))
  · rename_i hfine
    exact (h hfine).skip (hc.2 hfine)

end Requires

end

end McpOperator
