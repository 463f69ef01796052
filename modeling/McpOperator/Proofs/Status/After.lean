import McpOperator.Proofs.Status.Settings

namespace McpOperator

namespace ConditionSet

def ofServer (server : McpServer) : ConditionSet :=
  ofList ((server.status.map ServerStatus.conditions).getD []) server.metadata.generation

def wholeSeconds (s : ConditionSet) : ConditionSet :=
  { s with table := s.table.mapValues Condition.wholeSeconds }

variable {s : ConditionSet} {c : Setting} (now : Instant)

theorem Told.wholeSeconds (h : s.Told c) : s.wholeSeconds.Told c := by
  obtain ⟨time, hget⟩ := h
  refine ⟨time.wholeSeconds, ?_⟩
  rw [ConditionSet.wholeSeconds, Table.get?_mapValues, hget]
  rfl

theorem Keyed.filter_type (h : s.Keyed) {type : String} {c : Condition}
    (hget : s.table.get? type = some c) : (s.toList.filter fun c => c.type = type) = [c] := by
  obtain ⟨hnodup, htype⟩ := h
  rw [toList, List.filter_map]
  generalize s.table = t at *
  induction t with
  | nil => cases hget
  | cons e rest ih =>
      rw [List.forall_mem_cons] at htype
      obtain ⟨hfresh, hrest⟩ := List.nodup_cons.1 hnodup
      rw [Table.get?] at hget
      split at hget
      · rename_i he
        cases hget
        have hnone : rest.filter ((fun c => decide (c.type = type)) ∘ Prod.snd) = [] := by
          rw [List.filter_eq_nil_iff]
          intro d hd
          have hne : d.1 ≠ type := by
            rintro rfl
            exact hfresh (he ▸ List.mem_map_of_mem hd)
          simp [htype.2 d hd, hne]
        simp [hnone, htype.1, he]
      · rename_i he
        have hne : e.2.type ≠ type := htype.1 ▸ he
        simp only [List.filter_cons, Function.comp_apply, hne, decide_false, Bool.false_eq_true, if_false]
        exact ih hget hrest htype.2

end ConditionSet

namespace ServerStatus

variable (now : Instant) (server : McpServer) (r : Report)

theorem after_eq : after now server r = ⟨server.metadata.generation.getD 0,
    ((ConditionSet.ofServer server).setReport now r).toList⟩ := rfl

theorem setReport_generation (s : ConditionSet) : (s.setReport now r).generation = s.generation := by
  rw [ConditionSet.setReport_eq, ConditionSet.foldl_put_generation]

theorem ofServer_after {server' : McpServer}
    (hstatus : server'.status = some (after now server r).wholeSeconds)
    (hgeneration : server'.metadata.generation = server.metadata.generation) :
    ConditionSet.ofServer server' = ((ConditionSet.ofServer server).setReport now r).wholeSeconds := by
  have hkeyed : ((ConditionSet.ofServer server).setReport now r).Keyed :=
    (ConditionSet.keyed_ofList _ _).setReport now r
  have hlist := ConditionSet.ofList_map_toList hkeyed (f := Condition.wholeSeconds) fun _ => rfl
  rw [ConditionSet.ofServer, hstatus, hgeneration]
  exact (congrArg (ConditionSet.ofList _) (setReport_generation now r _).symm).trans hlist

/-- The status after the same pass is the one that was written, at any time. -/
theorem after_again {server' : McpServer}
    (hstatus : server'.status = some (after now server r).wholeSeconds)
    (hgeneration : server'.metadata.generation = server.metadata.generation) (now' : Instant) :
    after now' server' r = (after now server r).wholeSeconds := by
  have htold : ∀ c ∈ r.settings, ((ConditionSet.ofServer server).setReport now r).wholeSeconds.Told c :=
    fun c hc => (ConditionSet.told_setReport now r c hc).wholeSeconds
  rw [after_eq, ofServer_after now server r hstatus hgeneration,
    ConditionSet.setReport_of_told now' htold, hgeneration, after_eq]
  simp [wholeSeconds, ConditionSet.toList, ConditionSet.wholeSeconds, Table.mapValues]

theorem after_conditions {c : Setting} (hc : c ∈ r.settings) : ∃ time,
    ((after now server r).wholeSeconds.conditions.filter fun d => d.type = c.type.text) =
      [c.condition server.metadata.generation time] := by
  have hkeyed : ((ConditionSet.ofServer server).setReport now r).Keyed :=
    (ConditionSet.keyed_ofList _ _).setReport now r
  obtain ⟨time, hget⟩ := ConditionSet.told_setReport now r (s := ConditionSet.ofServer server) c hc
  rw [setReport_generation] at hget
  refine ⟨time.wholeSeconds, ?_⟩
  have hfilter := hkeyed.filter_type hget
  rw [wholeSeconds, List.filter_map, after_eq]
  exact congrArg (List.map Condition.wholeSeconds) hfilter

end ServerStatus

def Condition.untimed (c : Condition) : Condition := { c with lastTransitionTime := .epoch }

def ServerStatus.untimed (s : ServerStatus) : ServerStatus :=
  { s with conditions := s.conditions.map Condition.untimed }

theorem ServerStatus.untimed_wholeSeconds (s : ServerStatus) : s.wholeSeconds.untimed = s.untimed := by
  simp [untimed, wholeSeconds, Condition.untimed, Condition.wholeSeconds]

namespace ConditionSet

def puts (generation : Option Int64) (cs : List Setting) (t : Table String Condition) :
    Table String Condition :=
  cs.foldl (fun t c => t.put c.type.text (c.condition generation .epoch)) t

variable (generation : Option Int64)

theorem mapValues_foldl_put {f : Condition → Condition}
    (hf : ∀ (c : Setting) generation time, f (c.condition generation time) = c.condition generation .epoch)
    (s : ConditionSet) (now : Instant) (cs : List Setting) :
    (cs.foldl (put · now) s).table.mapValues f = puts s.generation cs (s.table.mapValues f) := by
  induction cs generalizing s with
  | nil => rfl
  | cons c rest ih =>
      rw [List.foldl_cons, ih, put_table, Table.mapValues_put, hf]
      rfl

theorem keys_puts_congr {cs ds : List Setting} (htypes : cs.map Setting.type = ds.map Setting.type)
    (generation' : Option Int64) {t u : Table String Condition} (h : t.keys = u.keys) :
    (puts generation cs t).keys = (puts generation' ds u).keys := by
  induction cs generalizing ds t u with
  | nil =>
      rw [List.map_nil, eq_comm, List.map_eq_nil_iff] at htypes
      subst htypes
      exact h
  | cons c rest ih =>
      cases ds with
      | nil => cases htypes
      | cons d others =>
          rw [List.map_cons, List.map_cons, List.cons.injEq] at htypes
          apply ih htypes.2
          rw [Table.keys_put, Table.keys_put, htypes.1, h]

theorem keys_puts {cs : List Setting} {t : Table String Condition}
    (h : ∀ c ∈ cs, c.type.text ∈ t.keys) : (puts generation cs t).keys = t.keys := by
  induction cs generalizing t with
  | nil => rfl
  | cons c rest ih =>
      rw [List.forall_mem_cons] at h
      have hkeys : (t.put c.type.text (c.condition generation .epoch)).keys = t.keys := by
        rw [Table.keys_put, if_pos h.1]
      exact (ih (hkeys ▸ h.2)).trans hkeys

theorem mem_keys_puts {cs : List Setting} (t : Table String Condition) :
    (∀ k ∈ t.keys, k ∈ (puts generation cs t).keys) ∧
      ∀ c ∈ cs, c.type.text ∈ (puts generation cs t).keys := by
  induction cs generalizing t with
  | nil => exact ⟨fun _ h => h, by simp⟩
  | cons c rest ih =>
      obtain ⟨hold, hnew⟩ := ih (t.put c.type.text (c.condition generation .epoch))
      have hput : ∀ k, k = c.type.text ∨ k ∈ t.keys →
          k ∈ (t.put c.type.text (c.condition generation .epoch)).keys := by
        intro k hk
        rw [Table.keys_put]
        split
        · rename_i hmem
          rcases hk with rfl | hk
          · exact hmem
          · exact hk
        · rcases hk with rfl | hk
          · exact List.mem_append_right _ List.mem_cons_self
          · exact List.mem_append_left _ hk
      exact ⟨fun k hk => hold k (hput k (.inr hk)),
        List.forall_mem_cons.2 ⟨hold _ (hput _ (.inl rfl)), hnew⟩⟩

theorem nodup_keys_puts (cs : List Setting) {t : Table String Condition} (h : t.keys.Nodup) :
    (puts generation cs t).keys.Nodup := by
  induction cs generalizing t with
  | nil => exact h
  | cons c rest ih => exact ih (Table.nodup_keys_put h _ _)

theorem get?_puts_of_not_mem {cs : List Setting} {type : String}
    (h : type ∉ cs.map fun c => c.type.text) (t : Table String Condition) :
    (puts generation cs t).get? type = t.get? type := by
  induction cs generalizing t with
  | nil => rfl
  | cons c rest ih =>
      rw [List.map_cons, List.mem_cons, not_or] at h
      exact (ih h.2 _).trans (Table.get?_put_of_ne t _ (Ne.symm h.1))

theorem get?_puts_congr {cs : List Setting} {type : String}
    (h : type ∈ cs.map fun c => c.type.text) (t u : Table String Condition) :
    (puts generation cs t).get? type = (puts generation cs u).get? type := by
  induction cs generalizing t u with
  | nil => cases h
  | cons c rest ih =>
      by_cases hrest : type ∈ rest.map fun c => c.type.text
      · exact ih hrest _ _
      · have heq : type = c.type.text := (List.mem_cons.1 h).resolve_right hrest
        subst heq
        rw [puts, List.foldl_cons, ← puts, get?_puts_of_not_mem generation hrest, Table.get?_put_self,
          puts, List.foldl_cons, ← puts, get?_puts_of_not_mem generation hrest, Table.get?_put_self]

theorem puts_puts {cs ds : List Setting} (htypes : cs.map Setting.type = ds.map Setting.type)
    (generation' : Option Int64) {t : Table String Condition} (h : t.keys.Nodup) :
    puts generation cs (puts generation' ds t) = puts generation cs t := by
  have hmem : ∀ c ∈ cs, c.type.text ∈ (puts generation' ds t).keys := by
    intro c hc
    have htype : c.type ∈ ds.map Setting.type := htypes ▸ List.mem_map_of_mem hc
    obtain ⟨d, hd, heq⟩ := List.mem_map.1 htype
    rw [← heq]
    exact (mem_keys_puts generation' t).2 d hd
  -- The types are all there already, so the order of the conditions stays, and each is set anew.
  refine Table.ext_get? ?_ ?_ ?_
  · rw [keys_puts generation hmem]
    exact keys_puts_congr generation' htypes.symm generation rfl
  · exact nodup_keys_puts generation cs (nodup_keys_puts generation' ds h)
  · intro k
    by_cases hk : k ∈ cs.map fun c => c.type.text
    · exact get?_puts_congr generation hk _ _
    · have hk' : k ∉ ds.map fun c => c.type.text := by
        have htexts : (cs.map fun c => c.type.text) = ds.map fun c => c.type.text := by
          have := congrArg (List.map ConditionType.text) htypes
          rwa [List.map_map, List.map_map] at this
        exact htexts ▸ hk
      rw [get?_puts_of_not_mem generation hk, get?_puts_of_not_mem generation' hk',
        get?_puts_of_not_mem generation hk]

end ConditionSet

namespace ServerStatus

variable (now : Instant) (server : McpServer) (r : Report)

/-- Without times, the status after a pass does not depend on the clock. -/
theorem untimed_after : (after now server r).untimed = ⟨server.metadata.generation.getD 0,
    (ConditionSet.puts server.metadata.generation r.settings
      ((ConditionSet.ofServer server).table.mapValues Condition.untimed)).map Prod.snd⟩ := by
  have htable := ConditionSet.mapValues_foldl_put (f := Condition.untimed) (fun _ _ _ => rfl)
    (ConditionSet.ofServer server) now r.settings
  rw [← ConditionSet.setReport_eq] at htable
  have hgeneration : (ConditionSet.ofServer server).generation = server.metadata.generation := rfl
  rw [hgeneration] at htable
  rw [after_eq, untimed, ← htable]
  simp [ConditionSet.toList, Table.mapValues]

theorem untimed_after_after {server' : McpServer}
    (hstatus : server'.status = some (after now server r).wholeSeconds)
    (hgeneration : server'.metadata.generation = server.metadata.generation) (now' now'' : Instant)
    (r' : Report) : (after now' server' r').untimed = (after now'' server r').untimed := by
  have htypes : r'.settings.map Setting.type = r.settings.map Setting.type := by
    rw [r'.settings_types, r.settings_types]
  have hkeys : ((ConditionSet.ofServer server).table.mapValues Condition.untimed).keys.Nodup := by
    rw [Table.keys_mapValues]
    exact (ConditionSet.keyed_ofList _ _).nodup
  have htable : (ConditionSet.ofServer server').table.mapValues Condition.untimed =
      ConditionSet.puts server.metadata.generation r.settings
        ((ConditionSet.ofServer server).table.mapValues Condition.untimed) := by
    have hfold := ConditionSet.mapValues_foldl_put (f := Condition.untimed) (fun _ _ _ => rfl)
      (ConditionSet.ofServer server) now r.settings
    rw [← ConditionSet.setReport_eq] at hfold
    rw [ofServer_after now server r hstatus hgeneration]
    refine Eq.trans ?_ hfold
    simp [ConditionSet.wholeSeconds, Table.mapValues, Condition.untimed, Condition.wholeSeconds]
  rw [untimed_after, untimed_after, htable, hgeneration, ConditionSet.puts_puts _ htypes _ hkeys]

end ServerStatus
end McpOperator
