import McpOperator.Proofs.Status.After
import Mathlib.Data.List.Induction

namespace McpOperator

/-- What one pass brings to the status of a server: the generation it finds, its report, and its time. -/
structure Round where
  generation : Option Int64
  report : Report
  now : Instant

def Round.after (r : Round) (server : McpServer) : McpServer :=
  let server := { server with metadata := { server.metadata with generation := r.generation } }
  { server with status := some (ServerStatus.after r.now server r.report) }

namespace McpServer

def afterRounds (server : McpServer) (rounds : List Round) : McpServer :=
  rounds.foldl (fun server r => r.after server) server

def conditionsOf (server : McpServer) (type : ConditionType) : List Condition :=
  ((server.status.map ServerStatus.conditions).getD []).filter fun c => c.type = type.text

/-- Of several conditions of one type the last counts. -/
def value? (server : McpServer) (type : ConditionType) : Option String :=
  (server.conditionsOf type).getLast?.map Condition.status

def transitionTime? (server : McpServer) (type : ConditionType) : Option Instant :=
  (server.conditionsOf type).getLast?.map Condition.lastTransitionTime

/-- The value after the round is not the one before it. -/
def Turns (server : McpServer) (rounds : List Round) (type : ConditionType) (i : Nat) : Prop :=
  (server.afterRounds (rounds.take (i + 1))).value? type ≠ (server.afterRounds (rounds.take i)).value? type

end McpServer

namespace ConditionSet

variable {s : ConditionSet} (now : Instant)

theorem get?_ofList (existing : List Condition) (generation : Option Int64) (type : String) :
    (ofList existing generation).table.get? type =
      (existing.filter fun c => c.type = type).getLast? := by
  induction existing using List.reverseRecOn with
  | nil => rfl
  | append_singleton existing c ih =>
      rw [ofList] at ih ⊢
      rw [List.foldl_append, List.filter_append]
      by_cases htype : c.type = type
      · subst htype
        simp [Table.get?_put_self]
      · simp [Table.get?_put_of_ne _ _ htype, htype, ih]

theorem transitionTime_put_of_ne {d : Setting} {type : String} (h : d.type.text ≠ type) (status : String) :
    (s.put now d).transitionTime now type status = s.transitionTime now type status := by
  rw [transitionTime, put_table, Table.get?_put_of_ne _ _ h]
  rfl

theorem get?_foldl_put_of_not_mem {cs : List Setting} {type : String}
    (h : type ∉ cs.map fun c => c.type.text) :
    (cs.foldl (put · now) s).table.get? type = s.table.get? type := by
  induction cs generalizing s with
  | nil => rfl
  | cons d rest ih =>
      rw [List.map_cons, List.mem_cons, not_or] at h
      rw [List.foldl_cons, ih h.2, put_table, Table.get?_put_of_ne _ _ (Ne.symm h.1)]

theorem get?_foldl_put {cs : List Setting} (hnodup : (cs.map fun c => c.type.text).Nodup) {c : Setting}
    (hc : c ∈ cs) : (cs.foldl (put · now) s).table.get? c.type.text =
      some (c.condition s.generation (s.transitionTime now c.type.text (statusText c.holds))) := by
  induction cs generalizing s with
  | nil => cases hc
  | cons d rest ih =>
      rw [List.map_cons, List.nodup_cons] at hnodup
      rw [List.foldl_cons]
      cases hc with
      | head => rw [get?_foldl_put_of_not_mem now hnodup.1, put_table, Table.get?_put_self]
      | tail _ hc =>
          have hne : d.type.text ≠ c.type.text :=
            fun heq => hnodup.1 (heq ▸ List.mem_map_of_mem (f := fun c => c.type.text) hc)
          rw [ih hnodup.2 hc, transitionTime_put_of_ne now hne, put_generation]

end ConditionSet

theorem Report.exists_setting (r : Report) (type : ConditionType) : ∃ c ∈ r.settings, c.type = type := by
  have hmem : type ∈ r.settings.map Setting.type := by
    rw [r.settings_types]
    cases type <;> decide
  exact List.mem_map.1 hmem

namespace Round

variable (r : Round) (server : McpServer) (type : ConditionType)

/-- After a round there is one condition of each type. Its time is the one of the condition before it that
counted, if that has the same value, and else the time of the round. -/
theorem conditionsOf_after : ∃ c : Setting, (r.after server).conditionsOf type =
    [c.condition r.generation (match (server.conditionsOf type).getLast? with
      | some d => if d.status = ConditionSet.statusText c.holds then d.lastTransitionTime else r.now
      | none => r.now)] := by
  obtain ⟨c, hc, rfl⟩ := r.report.exists_setting type
  have hkeyed := (ConditionSet.keyed_ofList ((server.status.map ServerStatus.conditions).getD [])
    r.generation).setReport r.now r.report
  have hget := ConditionSet.get?_foldl_put r.now (s := .ofList
    ((server.status.map ServerStatus.conditions).getD []) r.generation) r.report.settings_nodup hc
  rw [← ConditionSet.setReport_eq, ConditionSet.transitionTime, ConditionSet.get?_ofList] at hget
  exact ⟨c, hkeyed.filter_type hget⟩

theorem transitionTime?_after : (r.after server).transitionTime? type =
    if (r.after server).value? type = server.value? type then server.transitionTime? type
    else some r.now := by
  obtain ⟨c, hafter⟩ := r.conditionsOf_after server type
  rw [McpServer.transitionTime?, McpServer.value?, McpServer.value?, McpServer.transitionTime?, hafter]
  cases (server.conditionsOf type).getLast? with
  | none => simp [Setting.condition]
  | some d =>
      by_cases hstatus : d.status = ConditionSet.statusText c.holds
      · simp [Setting.condition, hstatus]
      · simp [Setting.condition, hstatus, Ne.symm hstatus]

end Round

namespace McpServer

variable {server : McpServer} {rounds : List Round} {r : Round} {type : ConditionType} {i : Nat}

theorem afterRounds_append (server : McpServer) (rounds : List Round) (r : Round) :
    server.afterRounds (rounds ++ [r]) = r.after (server.afterRounds rounds) := List.foldl_append

theorem turns_append_of_lt (h : i < rounds.length) :
    server.Turns (rounds ++ [r]) type i ↔ server.Turns rounds type i := by
  rw [Turns, Turns, List.take_append_of_le_length h, List.take_append_of_le_length (Nat.le_of_lt h)]

theorem turns_append_length : server.Turns (rounds ++ [r]) type rounds.length ↔
    (r.after (server.afterRounds rounds)).value? type ≠ (server.afterRounds rounds).value? type := by
  rw [Turns, List.take_left, List.take_of_length_le (by simp), afterRounds_append]

theorem turns_of_append (h : (r.after (server.afterRounds rounds)).value? type =
    (server.afterRounds rounds).value? type) (hi : i < (rounds ++ [r]).length)
    (hturn : server.Turns (rounds ++ [r]) type i) : i < rounds.length ∧ server.Turns rounds type i := by
  rw [List.length_append, List.length_singleton, Nat.lt_succ_iff_lt_or_eq] at hi
  rcases hi with hi | rfl
  · exact ⟨hi, (turns_append_of_lt hi).1 hturn⟩
  · exact absurd h (turns_append_length.1 hturn)

end McpServer

/-- After any number of passes the time of a condition is that of the last pass by which its value
changed, or else what it was at first. -/
theorem transition_time_of_last_turn (server : McpServer) (rounds : List Round) (type : ConditionType) :
    (rounds = [] ∨ ∃ c, (server.afterRounds rounds).conditionsOf type = [c]) ∧
      ((∃ j r, rounds[j]? = some r ∧ server.Turns rounds type j ∧
          (∀ i, j < i → i < rounds.length → ¬ server.Turns rounds type i) ∧
          (server.afterRounds rounds).transitionTime? type = some r.now) ∨
        (∀ i, i < rounds.length → ¬ server.Turns rounds type i) ∧
          (server.afterRounds rounds).transitionTime? type = server.transitionTime? type) := by
  induction rounds using List.reverseRecOn with
  | nil => exact ⟨.inl rfl, .inr ⟨by simp, rfl⟩⟩
  | append_singleton rounds r ih =>
      rw [McpServer.afterRounds_append]
      obtain ⟨c, hafter⟩ := r.conditionsOf_after (server.afterRounds rounds) type
      refine ⟨.inr ⟨_, hafter⟩, ?_⟩
      have htime := r.transitionTime?_after (server.afterRounds rounds) type
      by_cases hvalue : (r.after (server.afterRounds rounds)).value? type =
        (server.afterRounds rounds).value? type
      · -- The new pass does not turn, so the last one that does is still the last one.
        rw [if_pos hvalue] at htime
        rcases ih.2 with ⟨j, q, hj, hturn, hlast, hq⟩ | ⟨hnone, hq⟩
        · obtain ⟨hlt, -⟩ := List.getElem?_eq_some_iff.1 hj
          refine .inl ⟨j, q, ?_, (McpServer.turns_append_of_lt hlt).2 hturn, ?_, htime.trans hq⟩
          · rw [List.getElem?_append_left hlt, hj]
          · intro i hji hi hturn
            obtain ⟨hi, hturn⟩ := McpServer.turns_of_append hvalue hi hturn
            exact hlast i hji hi hturn
        · refine .inr ⟨?_, htime.trans hq⟩
          intro i hi hturn
          obtain ⟨hi, hturn⟩ := McpServer.turns_of_append hvalue hi hturn
          exact hnone i hi hturn
      · rw [if_neg hvalue] at htime
        refine .inl ⟨rounds.length, r, by simp, McpServer.turns_append_length.2 hvalue, ?_, htime⟩
        intro i hlt hi
        rw [List.length_append, List.length_singleton] at hi
        omega

end McpOperator
