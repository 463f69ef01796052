import McpOperator.Proofs.Reconcile.Pass

namespace McpOperator

/-- A second pass ends as the first one did and leaves the store exactly as the first one left it. -/
theorem reconcile_idempotent {m : Memory} (hm : m.Reachable) (hconflicts : m.statusConflicts = 0)
    (gatewayImage : String) (now now' : Instant) (trigger : McpServer) :
    (reconcile gatewayImage now' trigger).run Memory.answer
        ((reconcile gatewayImage now trigger).run Memory.answer m).2 =
      (reconcile gatewayImage now trigger).run Memory.answer m := by
  have hsound := hm.sound
  suffices h : ∀ r m', (reconcile gatewayImage now trigger).run Memory.answer m = (r, m') →
      (reconcile gatewayImage now' trigger).run Memory.answer m' = (r, m') from h _ _ rfl
  intro r m' hrun
  have hsound' := hsound.run hrun
  cases hname : Pass.nameOf trigger with
  | error e =>
      rw [Pass.run_reconcile_of_rejected hname] at hrun
      cases hrun
      exact Pass.run_reconcile_of_rejected hname
  | ok name =>
      by_cases hreads : Kind.server ∈ m.failingReads
      · rw [Pass.run_reconcile_of_failing hname hreads] at hrun
        cases hrun
        exact Pass.run_reconcile_of_failing hname hreads
      rcases hsound.read_of .server trigger with ⟨-, hnone⟩ | ⟨server, hlive, hread⟩
      · rw [Pass.run_reconcile_of_none hname hreads hnone] at hrun
        cases hrun
        exact Pass.run_reconcile_of_none hname hreads hnone
      rw [Pass.run_reconcile_of_some hname hreads hread] at hrun
      obtain ⟨report, failure, m₁, hevaluated, hrests, ⟨m₂, hpass, hfinished⟩ | ⟨hpending, -⟩⟩ :=
        Pass.run_pass gatewayImage (Key.of .server trigger) name now hsound hlive.self
      · rw [hpass] at hrun
        cases hrun
        obtain ⟨server', hlive', hpublished⟩ := hfinished.published
        have hkey : Key.of .server server = Key.of .server trigger := hlive.key_eq
        have hread' : m'.read (Key.of .server trigger) = .ok (some server') :=
          (Memory.read_of_key_eq m' hkey).symm.trans hlive'.read
        have hreads' : Kind.server ∉ m'.failingReads := by
          rw [hfinished.faults.failingReads, hevaluated.faults.failingReads]
          exact hreads
        have hrun' := (hrests.congr hfinished.sameOthers hpublished.design).run hsound'
        have hpersist : (Pass.persist now' server' report).run Memory.answer m' = (.ok (), m') := by
          rw [Pass.run_persist, if_pos (hpublished.after_again now')]
        rw [Pass.run_reconcile_of_some hname hreads' hread', Pass.run_afterFetch hrun', hpersist]
        rfl
      · rw [hevaluated.faults.statusConflicts, hconflicts] at hpending
        exact absurd hpending (Nat.lt_irrefl 0)

theorem reconcile_idempotent_echo :
    (reconcile Gateway.defaultImage ⟨60, 0, by decide, by decide⟩ Pass.echoServer).run Memory.answer
        ((reconcile Gateway.defaultImage .epoch Pass.echoServer).run Memory.answer
          (Pass.echoStore.failWrites .service)).2 =
      (reconcile Gateway.defaultImage .epoch Pass.echoServer).run Memory.answer
        (Pass.echoStore.failWrites .service) :=
  reconcile_idempotent (.act (.failWrites .service) Pass.reachable_echoStore) rfl _ _ _ _

end McpOperator
