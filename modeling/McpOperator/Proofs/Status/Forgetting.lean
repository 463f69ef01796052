import McpOperator.Proofs.Status.Transitions

namespace McpOperator

def Condition.isOwn (c : Condition) : Bool := (ConditionType.ofText? c.type).isSome

/-- Without the time, if it is one of the operator's own. -/
def Condition.ageless (c : Condition) : Condition := if c.isOwn then c.untimed else c

def ServerStatus.ageless (s : ServerStatus) : ServerStatus :=
  { s with conditions := s.conditions.map Condition.ageless }

theorem Setting.ageless_condition (c : Setting) (generation : Option Int64) (time : Instant) :
    (c.condition generation time).ageless = c.condition generation .epoch := by
  have hown : (c.condition generation time).isOwn = true := by
    rw [Condition.isOwn, condition]
    cases c.type <;> rfl
  rw [Condition.ageless, if_pos hown]
  rfl

namespace ConditionSet

theorem ofList_toList {s : ConditionSet} (h : s.Keyed) : ofList s.toList s.generation = s := by
  have hlist := ofList_map_toList h (f := id) fun _ => rfl
  simpa [Table.mapValues] using hlist

end ConditionSet

namespace McpServer

def agelessTable (server : McpServer) : Table String Condition :=
  (ConditionSet.ofServer server).table.mapValues Condition.ageless

theorem nodup_keys_agelessTable (server : McpServer) : server.agelessTable.keys.Nodup := by
  rw [agelessTable, Table.keys_mapValues]
  exact (ConditionSet.keyed_ofList _ _).nodup

/-- The condition of the type that counts is there, and it is true. -/
def Affirms (server : McpServer) (type : ConditionType) : Prop := server.value? type = some "True"

end McpServer

namespace Round

variable (r : Round) (server : McpServer)

def found : ConditionSet :=
  .ofList ((server.status.map ServerStatus.conditions).getD []) r.generation

theorem keyed_found : ((r.found server).setReport r.now r.report).Keyed :=
  (ConditionSet.keyed_ofList _ _).setReport r.now r.report

theorem ofServer_after :
    ConditionSet.ofServer (r.after server) = (r.found server).setReport r.now r.report := by
  have hlist := ConditionSet.ofList_toList (r.keyed_found server)
  rwa [ServerStatus.setReport_generation] at hlist

theorem agelessTable_after : (r.after server).agelessTable =
    ConditionSet.puts r.generation r.report.settings server.agelessTable := by
  rw [McpServer.agelessTable, ofServer_after, ConditionSet.setReport_eq]
  exact ConditionSet.mapValues_foldl_put Setting.ageless_condition (r.found server) r.now _

theorem status_after : (r.after server).status.map ServerStatus.ageless =
    some ⟨r.generation.getD 0,
      (ConditionSet.puts r.generation r.report.settings server.agelessTable).map Prod.snd⟩ := by
  rw [← agelessTable_after, McpServer.agelessTable, ofServer_after]
  simp [after, ServerStatus.after_eq, ServerStatus.ageless, ConditionSet.toList, Table.mapValues,
    ConditionSet.ofServer, found]

theorem affirms_after {c : Setting} (hc : c ∈ r.report.settings) :
    (r.after server).Affirms c.type ↔ c.holds = true := by
  obtain ⟨time, hget⟩ := ConditionSet.told_setReport r.now r.report (s := r.found server) c hc
  have hconditions : (r.after server).conditionsOf c.type =
      [c.condition ((r.found server).setReport r.now r.report).generation time] :=
    (r.keyed_found server).filter_type hget
  rw [McpServer.Affirms, McpServer.value?, hconditions]
  change some (ConditionSet.statusText c.holds) = some "True" ↔ _
  cases c.holds <;> decide

end Round

theorem McpServer.puts_afterRounds (server : McpServer) (rounds : List Round) (r : Report)
    (generation : Option Int64) :
    ConditionSet.puts generation r.settings (server.afterRounds rounds).agelessTable =
      ConditionSet.puts generation r.settings server.agelessTable := by
  induction rounds using List.reverseRecOn with
  | nil => rfl
  | append_singleton rounds q ih =>
      have htypes : r.settings.map Setting.type = q.report.settings.map Setting.type := by
        rw [r.settings_types, q.report.settings_types]
      rw [afterRounds_append, Round.agelessTable_after,
        ConditionSet.puts_puts _ htypes _ (nodup_keys_agelessTable _), ih]

namespace Deployment

def readyCount (d : Deployment) : Int32 := (d.status.bind DeploymentStatus.readyReplicas).getD 0

def desiredCount (d : Deployment) : Int32 := (d.spec.bind DeploymentSpec.replicas).getD 1

/-- As many replicas are ready as there should be, and not none. -/
def IsReady (d : Deployment) : Prop := d.readyCount = d.desiredCount ∧ 0 < d.readyCount

end Deployment

/-- A server is ready only when it is programmed, and programmed only when its references are resolved.
It is programmed exactly after a report that all was applied. -/
structure McpServer.InOrder (server : McpServer) (report : Report) : Prop where
  programmed_of_ready : server.Affirms .ready → server.Affirms .programmed
  resolved_of_programmed : server.Affirms .programmed → server.Affirms .resolvedRefs
  resolved_iff : server.Affirms .resolvedRefs ↔ server.Affirms .accepted
  programmed_iff : server.Affirms .programmed ↔ ∃ readiness, report = .applied readiness
  ready_iff : server.Affirms .ready ↔ ∃ n, report = .applied (.replicas n n) ∧ 0 < n
  observed : ∀ found, report = .applied (.of found) →
    (server.Affirms .ready ↔ ∃ d, found = some d ∧ d.IsReady)

theorem Readiness.of_eq_iff (found : Option Deployment) :
    (∃ n, Readiness.of found = .replicas n n ∧ 0 < n) ↔ ∃ d, found = some d ∧ d.IsReady := by
  cases found with
  | none => simp [of]
  | some d =>
      have hof : Readiness.of (some d) = .replicas d.readyCount d.desiredCount := rfl
      simp only [hof, replicas.injEq, Option.some.injEq, exists_eq_left', Deployment.IsReady]
      constructor
      · rintro ⟨n, ⟨hready, hdesired⟩, hpos⟩
        exact ⟨hready.trans hdesired.symm, hready ▸ hpos⟩
      · rintro ⟨heq, hpos⟩
        exact ⟨d.readyCount, ⟨rfl, heq.symm⟩, hpos⟩

theorem Readiness.holds_setting (r : Readiness) :
    r.setting.holds = true ↔ ∃ n, r = .replicas n n ∧ 0 < n := by
  cases r with
  | replicas ready desired =>
      rw [setting]
      split
      · rename_i h
        exact ⟨fun _ => ⟨ready, by rw [h.1], h.2⟩, fun _ => rfl⟩
      · rename_i h
        refine ⟨fun hfalse => (Bool.false_ne_true hfalse).elim, ?_⟩
        rintro ⟨n, heq, hpos⟩
        cases heq
        exact absurd ⟨rfl, hpos⟩ h
  | deploymentNotFound | unobserved => simp [setting]

theorem McpServer.InOrder.of_failed {server : McpServer} {report : Report}
    (hfailed : ∀ readiness, report ≠ .applied readiness) (hresolved : server.Affirms .resolvedRefs ↔
      server.Affirms .accepted) (hprogrammed : ¬ server.Affirms .programmed)
    (hready : ¬ server.Affirms .ready) : server.InOrder report where
  programmed_of_ready h := absurd h hready
  resolved_of_programmed h := absurd h hprogrammed
  resolved_iff := hresolved
  programmed_iff := ⟨fun h => absurd h hprogrammed, fun ⟨_, h⟩ => absurd h (hfailed _)⟩
  ready_iff := ⟨fun h => absurd h hready, fun ⟨_, h, _⟩ => absurd h (hfailed _)⟩
  observed _ h := absurd h (hfailed _)

theorem McpServer.InOrder.of_notProgrammed {server : McpServer} {report : Report}
    (hfailed : ∀ readiness, report ≠ .applied readiness) {reason : ConditionReason} {message : String}
    (hsettings : ∀ c ∈ Setting.notProgrammed reason message, server.Affirms c.type ↔ c.holds = true) :
    server.InOrder report := by
  simp only [Setting.notProgrammed, List.forall_mem_cons] at hsettings
  obtain ⟨haccepted, hresolved, hprogrammed, hready, -⟩ := hsettings
  refine .of_failed hfailed ?_ ?_ ?_
  · exact iff_of_true (hresolved.2 rfl) (haccepted.2 rfl)
  · exact fun h => Bool.false_ne_true (hprogrammed.1 h)
  · exact fun h => Bool.false_ne_true (hready.1 h)

theorem McpServer.InOrder.of_applied {server : McpServer} {readiness : Readiness}
    (haccepted : server.Affirms .accepted) (hresolved : server.Affirms .resolvedRefs)
    (hprogrammed : server.Affirms .programmed)
    (hready : server.Affirms .ready ↔ ∃ n, readiness = .replicas n n ∧ 0 < n) :
    server.InOrder (.applied readiness) where
  programmed_of_ready _ := hprogrammed
  resolved_of_programmed _ := hresolved
  resolved_iff := iff_of_true hresolved haccepted
  programmed_iff := iff_of_true hprogrammed ⟨readiness, rfl⟩
  ready_iff := by simp only [hready, Report.applied.injEq]
  observed found h := by
    rw [hready, Report.applied.inj h]
    exact Readiness.of_eq_iff found

theorem Round.inOrder_after (r : Round) (server : McpServer) : (r.after server).InOrder r.report := by
  have hsettings : ∀ c ∈ r.report.settings, (r.after server).Affirms c.type ↔ c.holds = true :=
    fun c hc => r.affirms_after server hc
  generalize r.after server = server' at *
  cases hreport : r.report with
  | invalid error =>
      simp only [hreport, Report.settings, List.forall_mem_cons, Setting.failed] at hsettings
      obtain ⟨haccepted, hresolved, hprogrammed, hready, -⟩ := hsettings
      refine .of_failed ?_ ?_ ?_ ?_
      · rintro _ ⟨⟩
      · simp [haccepted, hresolved]
      · simp [hprogrammed]
      · simp [hready]
  | translationFailed message =>
      rw [hreport] at hsettings
      exact .of_notProgrammed (by rintro _ ⟨⟩) hsettings
  | applyFailed step message =>
      rw [hreport] at hsettings
      exact .of_notProgrammed (by rintro _ ⟨⟩) hsettings
  | applied readiness =>
      simp only [hreport, Report.settings, List.forall_mem_cons, Readiness.setting_type,
        Readiness.holds_setting] at hsettings
      obtain ⟨haccepted, hresolved, hprogrammed, hready, -⟩ := hsettings
      exact .of_applied (haccepted.2 rfl) (hresolved.2 rfl) (hprogrammed.2 rfl) hready

/-- Two histories that end with the same report leave the same status, but for the times of the
operator's own conditions; and the status is in order. -/
theorem status_forgets (server : McpServer) (rounds rounds' : List Round) (last : Round) (now : Instant) :
    (server.afterRounds (rounds' ++ [{ last with now }])).status.map ServerStatus.ageless =
        (server.afterRounds (rounds ++ [last])).status.map ServerStatus.ageless ∧
      (server.afterRounds (rounds ++ [last])).InOrder last.report := by
  rw [McpServer.afterRounds_append, McpServer.afterRounds_append]
  constructor
  · rw [Round.status_after, Round.status_after, McpServer.puts_afterRounds, McpServer.puts_afterRounds]
  · exact last.inOrder_after _

end McpOperator
