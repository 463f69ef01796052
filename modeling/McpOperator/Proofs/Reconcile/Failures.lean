import McpOperator.Proofs.Reconcile.Convergence

namespace McpOperator.Pass

/-- What stops a pass between the fetch of the server and the status. -/
inductive Failure where
  | invalid (error : ValidationError)
  | underived (error : OutputError)
  | unapplied (step : ApplyStep) (error : StoreError)

namespace Failure

def error : Failure → PassError
  | invalid e => .invalid e
  | underived e => .outputs e
  | unapplied _ e => .store e

def text : Failure → String
  | invalid e => e.message
  | underived e => e.message
  | unapplied _ e => e.message

def reason : Failure → ConditionReason
  | invalid _ => .invalidConfig
  | underived _ => .translationFailed
  | unapplied step _ => step.failureReason

def toldOn : Failure → ConditionType
  | invalid _ => .accepted
  | underived _ | unapplied _ _ => .programmed

def report : Failure → Report
  | invalid e => .invalid e
  | underived e => .translationFailed e.message
  | unapplied step e => .applyFailed step e.message

/-- The status tells the failure. -/
structure Told (f : Failure) (s : ServerStatus) : Prop where
  programmed : ∃ c, s.ofType .programmed = [c] ∧ c.status = "False" ∧ c.reason = f.reason.text
  ready : ∃ c, s.ofType .ready = [c] ∧ c.status = "False"
  text : ∃ c, s.ofType f.toldOn = [c] ∧ c.status = "False" ∧ c.message = f.text

theorem told_after (f : Failure) (now : Instant) (server : McpServer) :
    f.Told (ServerStatus.after now server f.report).wholeSeconds := by
  have hconditions : ∀ c ∈ f.report.settings, ∃ time,
      (ServerStatus.after now server f.report).wholeSeconds.ofType c.type =
        [c.condition server.metadata.generation time] :=
    fun c hc => ServerStatus.after_conditions now server _ hc
  cases f with
  | invalid e =>
      simp only [report, Report.settings, Setting.failed, List.forall_mem_cons] at hconditions
      obtain ⟨⟨_, haccepted⟩, -, ⟨_, hprogrammed⟩, ⟨_, hready⟩, -⟩ := hconditions
      exact ⟨⟨_, hprogrammed, rfl, rfl⟩, ⟨_, hready, rfl⟩, ⟨_, haccepted, rfl, rfl⟩⟩
  | underived e =>
      simp only [report, Report.settings, Setting.notProgrammed, List.forall_mem_cons] at hconditions
      obtain ⟨-, -, ⟨_, hprogrammed⟩, ⟨_, hready⟩, -⟩ := hconditions
      exact ⟨⟨_, hprogrammed, rfl, rfl⟩, ⟨_, hready, rfl⟩, ⟨_, hprogrammed, rfl, rfl⟩⟩
  | unapplied step e =>
      simp only [report, Report.settings, Setting.notProgrammed, List.forall_mem_cons] at hconditions
      obtain ⟨-, -, ⟨_, hprogrammed⟩, ⟨_, hready⟩, -⟩ := hconditions
      exact ⟨⟨_, hprogrammed, rfl, rfl⟩, ⟨_, hready, rfl⟩, ⟨_, hprogrammed, rfl, rfl⟩⟩

end Failure

inductive Upserted : List Step → Memory → Memory → Prop
  | nil (m : Memory) : Upserted [] m m
  | cons {s : Step} {rest : List Step} {m m₁ m' : Memory} {outcome : UpsertOutcome}
      (h : (upsert s.kind s.object).run Memory.answer m = (.ok outcome, m₁))
      (hrest : Upserted rest m₁ m') : Upserted (s :: rest) m m'

variable {gatewayImage name : String} {key : Key} {server : McpServer} {m m₁ m' : Memory}
  {now : Instant} {applied left : List Step} {failure : Option Failure}

theorem Upserted.run_append {l : List Step} (h : Upserted l m m₁) (rest : List Step) :
    (applyAll (l ++ rest)).run Memory.answer m = (applyAll rest).run Memory.answer m₁ := by
  induction h with
  | nil m => rfl
  | cons h _ ih =>
      rw [List.cons_append, run_applyAll_cons, h]
      exact ih

theorem Upserted.run {l : List Step} (h : Upserted l m m₁) :
    (applyAll l).run Memory.answer m = (.ok (), m₁) := by
  have hrun := h.run_append []
  rwa [List.append_nil] at hrun

theorem Upserted.settled {l : List Step} (hm : m.Sound) (h : Upserted l m m₁)
    (hkeys : (l.map Step.key).Nodup) (hversions : ∀ s ∈ l, s.kind.resourceVersion s.object = none) :
    (∀ s ∈ l, Upsert.Settled m₁ s.kind s.object) ∧ Applied l m m₁ := by
  obtain ⟨r, m', hrun, hrests, happlied⟩ := run_applyAll hm hkeys hversions
  rw [h.run] at hrun
  cases hrun
  exact ⟨fun s hs => (hrests.settled s hs).2, happlied⟩

theorem exists_upserted (l : List Step) (m : Memory) : (∃ m', Upserted l m m') ∨
    ∃ before s after m₁ m₂ e, l = before ++ s :: after ∧ Upserted before m m₁ ∧
      (upsert s.kind s.object).run Memory.answer m₁ = (.error e, m₂) := by
  induction l generalizing m with
  | nil => exact .inl ⟨m, .nil m⟩
  | cons s rest ih =>
      rcases hrun : (upsert s.kind s.object).run Memory.answer m with ⟨e | outcome, m₁⟩
      · exact .inr ⟨[], s, rest, m, m₁, e, rfl, .nil m, hrun⟩
      · rcases ih m₁ with ⟨m', hrest⟩ | ⟨before, t, after, m₂, m₃, e, rfl, hbefore, hfail⟩
        · exact .inl ⟨m', .cons hrun hrest⟩
        · exact .inr ⟨s :: before, t, after, m₂, m₃, e, rfl, .cons hrun hbefore, hfail⟩

theorem steps_of_derive {outputs : Gateway.Outputs}
    (h : (Gateway.derive gatewayImage server).run Memory.answer m = (.ok outputs, m₁)) :
    ((steps outputs).map Step.key).Nodup ∧
      ∀ s ∈ steps outputs, s.kind.resourceVersion s.object = none := by
  obtain rfl := Gateway.eq_of_run_derive h
  obtain ⟨plan, content, -, rfl⟩ := Gateway.derive_ok h
  exact ⟨Gateway.Outputs.nodup_keys_steps plan content, Gateway.Outputs.versions_steps plan content⟩

/-- How far a pass gets with a server that it has fetched: the steps that it applied, those that it left,
the failure that stopped it, and the store at that point. -/
inductive Reaches (gatewayImage name : String) (server : McpServer) (m : Memory) :
    List Step → List Step → Option Failure → Memory → Prop
  | invalid {e : ValidationError} (h : server.spec.validate name = .error e) :
      Reaches gatewayImage name server m [] [] (some (.invalid e)) m
  | underived {e : OutputError} {m₁ : Memory} (hvalid : server.spec.validate name = .ok ())
      (h : (Gateway.derive gatewayImage server).run Memory.answer m = (.error e, m₁)) :
      Reaches gatewayImage name server m [] [] (some (.underived e)) m₁
  | unapplied {outputs : Gateway.Outputs} {before after : List Step} {s : Step} {e : StoreError}
      {m₁ m₂ m₃ : Memory} (hvalid : server.spec.validate name = .ok ())
      (hderive : (Gateway.derive gatewayImage server).run Memory.answer m = (.ok outputs, m₁))
      (hsteps : steps outputs = before ++ s :: after) (hbefore : Upserted before m₁ m₂)
      (h : (upsert s.kind s.object).run Memory.answer m₂ = (.error e, m₃)) :
      Reaches gatewayImage name server m before (s :: after) (some (.unapplied s.step e)) m₃
  | applied {outputs : Gateway.Outputs} {m₁ m₂ : Memory} (hvalid : server.spec.validate name = .ok ())
      (hderive : (Gateway.derive gatewayImage server).run Memory.answer m = (.ok outputs, m₁))
      (h : Upserted (steps outputs) m₁ m₂) : Reaches gatewayImage name server m (steps outputs) [] none m₂

def reportOf (key : Key) (m : Memory) : Option Failure → Report
  | some failure => failure.report
  | none => finalReport key m

theorem exists_reaches (gatewayImage name : String) (server : McpServer) (m : Memory) :
    ∃ applied left failure m₁, Reaches gatewayImage name server m applied left failure m₁ := by
  cases hvalid : server.spec.validate name with
  | error e => exact ⟨_, _, _, _, .invalid hvalid⟩
  | ok u =>
      obtain ⟨r, hderive⟩ := Gateway.derive_rests gatewayImage server m
      cases r with
      | error e => exact ⟨_, _, _, _, .underived hvalid hderive⟩
      | ok outputs =>
          rcases exists_upserted (steps outputs) m with
            ⟨m', hall⟩ | ⟨before, s, after, m₂, m₃, e, hsteps, hbefore, hfail⟩
          · exact ⟨_, _, _, _, .applied hvalid hderive hall⟩
          · exact ⟨_, _, _, _, .unapplied hvalid hderive hsteps hbefore hfail⟩

namespace Reaches

theorem run_evaluate (h : Reaches gatewayImage name server m applied left failure m₁) (key : Key) :
    (evaluate gatewayImage key name server).run Memory.answer m =
      ((reportOf key m₁ failure, failure.map Failure.error), m₁) := by
  cases h with
  | invalid h => exact run_evaluate_of_invalid h
  | underived hvalid h =>
      obtain rfl := Gateway.eq_of_run_derive h
      exact run_evaluate_of_underived hvalid h
  | unapplied hvalid hderive hsteps hbefore h =>
      obtain rfl := Gateway.eq_of_run_derive hderive
      rw [run_evaluate_of_derived hvalid hderive, hsteps, hbefore.run_append, run_applyAll_cons, h]
      rfl
  | applied hvalid hderive h =>
      obtain rfl := Gateway.eq_of_run_derive hderive
      rw [run_evaluate_of_derived hvalid hderive, h.run]
      rfl

/-- What has been applied is settled. Nothing else has been written, not even by the step that failed. -/
theorem settled (hm : m.Sound) (h : Reaches gatewayImage name server m applied left failure m₁) :
    (∀ s ∈ applied, Upsert.Settled m₁ s.kind s.object) ∧ Applied applied m m₁ := by
  cases h with
  | invalid h => exact ⟨by simp, .refl [] m⟩
  | underived hvalid h =>
      obtain rfl := Gateway.eq_of_run_derive h
      exact ⟨by simp, .refl [] _⟩
  | unapplied hvalid hderive hsteps hbefore h =>
      obtain rfl := Gateway.eq_of_run_derive hderive
      obtain ⟨hkeys, hversions⟩ := steps_of_derive hderive
      rw [hsteps, List.map_append] at hkeys
      rw [hsteps] at hversions
      obtain rfl := Upsert.eq_of_run_error (hm.run hbefore.run) h
      exact hbefore.settled hm (List.nodup_append.1 hkeys).1 fun s hs =>
        hversions s (List.mem_append_left _ hs)
  | applied hvalid hderive h =>
      obtain rfl := Gateway.eq_of_run_derive hderive
      obtain ⟨hkeys, hversions⟩ := steps_of_derive hderive
      exact h.settled hm hkeys hversions

theorem keys (h : Reaches gatewayImage name server m applied left failure m₁) :
    (∀ s ∈ applied ++ left, Key.of .server server ≠ s.key) ∧
      ∀ s ∈ left, s.key ∉ applied.map Step.key := by
  cases h with
  | invalid | underived => simp
  | unapplied hvalid hderive hsteps hbefore h =>
      obtain ⟨hkeys, -⟩ := steps_of_derive hderive
      rw [hsteps, List.map_append] at hkeys
      refine ⟨hsteps ▸ fun s hs => server_ne_step hs, ?_⟩
      intro s hs happlied
      exact (List.nodup_append.1 hkeys).2.2 s.key happlied s.key (List.mem_map_of_mem hs) rfl
  | applied hvalid hderive h =>
      rw [List.append_nil]
      exact ⟨fun s hs => server_ne_step hs, by simp⟩

end Reaches

/-- What a pass that got so far makes of a store in the end. -/
structure Confined (server : Key) (applied left : List Step) (m m' : Memory) : Prop where
  inPlace : ∀ s ∈ applied, InPlace m' s.kind s.object
  untouched : ∀ s ∈ left, m'.objects.get? s.key = m.objects.get? s.key
  others (key : Key) (hserver : key ≠ server) (hkey : key ∉ applied.map Step.key) :
    m'.objects.get? key = m.objects.get? key

/-- The status is written to the server alone, if it is written at all. -/
theorem objects_run_persist (now : Instant) (report : Report)
    (hm : m.Holds (Key.of .server server) server) {key : Key} (hkey : key ≠ Key.of .server server) :
    ((persist now server report).run Memory.answer m).2.objects.get? key = m.objects.get? key := by
  rcases run_persist_of_holds now report hm with ⟨m', hrun, hfinished⟩ | ⟨-, hrun⟩
  · rw [hrun]
    exact hfinished.others hkey.symm
  · rw [hrun]

theorem Reaches.holds (hm : m.Sound) (hlive : m.Holds (Key.of .server server) server)
    (h : Reaches gatewayImage name server m applied left failure m₁) :
    m₁.Holds (Key.of .server server) server := by
  refine ⟨((h.settled hm).2.others _ ?_).trans hlive.objects, hlive.key_eq, hlive.whole⟩
  intro hmem
  obtain ⟨s, hs, heq⟩ := List.mem_map.1 hmem
  exact h.keys.1 s (List.mem_append_left _ hs) heq.symm

theorem Reaches.confined (hm : m.Sound) (hlive : m.Holds (Key.of .server server) server)
    (h : Reaches gatewayImage name server m applied left failure m₁) (now : Instant) (report : Report)
    (hrun : ((persist now server report).run Memory.answer m₁).2 = m') :
    Confined (Key.of .server server) applied left m m' := by
  obtain ⟨hsettled, happlied⟩ := h.settled hm
  obtain ⟨hserver, hleft⟩ := h.keys
  have hothers : ∀ key, key ≠ Key.of .server server → m'.objects.get? key = m₁.objects.get? key := by
    intro key hkey
    rw [← hrun]
    exact objects_run_persist now report (h.holds hm hlive) hkey
  have hsound : m'.Sound := by
    have hsound₁ : m₁.Sound := hm.run (h.run_evaluate (Key.of .server server))
    rw [← hrun]
    exact hsound₁.run rfl
  constructor
  · intro s hs
    have hne := (hserver s (List.mem_append_left _ hs)).symm
    exact ((Upsert.settled_congr (hothers s.key hne)).2 (hsettled s hs)).inPlace hsound
  · intro s hs
    have hne := (hserver s (List.mem_append_right _ hs)).symm
    exact (hothers s.key hne).trans (happlied.others s.key (hleft s hs))
  · intro key hne hkey
    exact (hothers key hne).trans (happlied.others key hkey)

theorem Reaches.run_afterFetch (h : Reaches gatewayImage name server m applied left failure m₁)
    {key : Key} {now : Instant} {r : Except PassError Unit}
    (hrun : (afterFetch gatewayImage now key name (.ok (some server))).run Memory.answer m = (r, m')) :
    ending (failure.map Failure.error)
      ((persist now server (reportOf key m₁ failure)).run Memory.answer m₁).1 = r ∧
    ((persist now server (reportOf key m₁ failure)).run Memory.answer m₁).2 = m' :=
  Prod.mk.inj ((Pass.run_afterFetch (h.run_evaluate key)).symm.trans hrun)

theorem exists_reaches_of_ok {key : Key} {now : Instant}
    (hrun : (afterFetch gatewayImage now key name (.ok (some server))).run Memory.answer m =
      (.ok (), m')) :
    ∃ outputs m₁, Reaches gatewayImage name server m (steps outputs) [] none m₁ ∧
      ((persist now server (finalReport key m₁)).run Memory.answer m₁).1 = .ok () := by
  obtain ⟨applied, left, failure, m₁, h⟩ := exists_reaches gatewayImage name server m
  obtain ⟨hr, -⟩ := h.run_afterFetch hrun
  cases hpersist : ((persist now server (reportOf key m₁ failure)).run Memory.answer m₁).1 with
  | error e =>
      rw [hpersist] at hr
      cases hr
  | ok =>
      rw [hpersist] at hr
      cases h with
      | applied hvalid hderive hsteps => exact ⟨_, m₁, .applied hvalid hderive hsteps, hpersist⟩
      | invalid | underived | unapplied => cases hr

theorem Failure.told_persist (f : Failure) (now : Instant)
    (hlive : m.Holds (Key.of .server server) server)
    (h : ((persist now server f.report).run Memory.answer m).1 = .ok ()) :
    ∃ (server' : McpServer) (status : ServerStatus),
      ((persist now server f.report).run Memory.answer m).2.read (Key.of .server server) =
        .ok (some server') ∧ server'.status = some status ∧ f.Told status := by
  rcases run_persist_of_holds now f.report hlive with ⟨m', hrun, hfinished⟩ | ⟨-, hrun⟩
  · obtain ⟨server', hlive', hpublished⟩ := hfinished.published
    rw [hrun]
    exact ⟨server', _, hlive'.read, hpublished.status, f.told_after now server⟩
  · rw [hrun] at h
    cases h

end Pass

/-- A pass over a server that it has fetched ends well just if all of its stages do. Where a stage
fails, what comes after it is left alone; the failure is told in the status, and returned unless the
status cannot be written. -/
theorem reconcile_tells_failures {m m' : Memory} (hm : m.Reachable) (gatewayImage : String)
    (now : Instant) (trigger server : McpServer) {name : String}
    (hname : Pass.nameOf trigger = .ok name)
    (hfetch : m.get (Key.of .server trigger) = .ok (some server)) {r : Except PassError Unit}
    (hrun : (reconcile gatewayImage now trigger).run Memory.answer m = (r, m')) :
    (r = .ok () ↔ ∃ outputs m₁,
      Pass.Reaches gatewayImage name server m (Pass.steps outputs) [] none m₁ ∧
      ((Pass.persist now server (Pass.finalReport (Key.of .server trigger) m₁)).run
        Memory.answer m₁).1 = .ok ()) ∧
    ∀ applied left failure m₁, Pass.Reaches gatewayImage name server m applied left failure m₁ →
      Pass.Confined (Key.of .server trigger) applied left m m' ∧
      (∀ f, failure = some f →
        ((Pass.persist now server f.report).run Memory.answer m₁).1 = .ok () →
        r = .error f.error ∧ ∃ (server' : McpServer) (status : ServerStatus),
          m'.read (Key.of .server trigger) = .ok (some server') ∧ server'.status = some status ∧
          f.Told status) ∧
      ∀ e, ((Pass.persist now server (Pass.reportOf (Key.of .server trigger) m₁ failure)).run
        Memory.answer m₁).1 = .error e → r = .error (.store e) := by
  have hsound := hm.sound
  have hfetched : m.Holds (Key.of .server trigger) server :=
    hsound.holds (Memory.read_of_get (by rw [hfetch]; rfl))
  have hkey : Key.of .server server = Key.of .server trigger := hfetched.key_eq
  have hlive : m.Holds (Key.of .server server) server := hfetched.self
  rw [Pass.run_reconcile hname, hfetch] at hrun
  constructor
  · constructor
    · rintro rfl
      exact Pass.exists_reaches_of_ok hrun
    · rintro ⟨outputs, m₁, h, hpersist⟩
      rw [← (h.run_afterFetch hrun).1, Pass.reportOf, hpersist]
      rfl
  · intro applied left failure m₁ h
    obtain ⟨rfl, rfl⟩ := h.run_afterFetch hrun
    refine ⟨hkey ▸ h.confined hsound hlive now _ rfl, ?_, ?_⟩
    · rintro f rfl hpersist
      rw [Pass.reportOf, hpersist]
      obtain ⟨server', status, hread, htold⟩ := f.told_persist now (h.holds hsound hlive) hpersist
      exact ⟨rfl, server', status, (Memory.read_of_key_eq _ hkey.symm).trans hread, htold⟩
    · intro e hpersist
      rw [hpersist]
      rfl

namespace Pass

def lameStore : Memory := echoStore.failWrites .service

theorem reaches_lame : ∃ (outputs : Gateway.Outputs) (m₁ : Memory),
    Reaches Gateway.defaultImage "echo" storedEcho lameStore
      [⟨.deployment, .deployment, outputs.deployment⟩]
      [⟨.service, .service, outputs.service⟩, ⟨.configMap, .configMap, outputs.configMap⟩]
      (some (.unapplied .service (Memory.unavailable .service))) m₁ := by
  have hsound : lameStore.Sound := reachable_echoStore.sound.grow (.same rfl rfl)
  obtain ⟨outputs, hderive⟩ := derive_storedEcho lameStore
  obtain ⟨plan, content, -, rfl⟩ := Gateway.derive_ok hderive
  obtain ⟨r, m₁, hrun, hrests, happlied⟩ := run_applyAll hsound
    (l := [⟨.deployment, .deployment, (Gateway.Outputs.ofPlan plan content).deployment⟩])
    (by simp) (List.forall_mem_singleton.2 rfl)
  have hdeployment : Kind.deployment ∉ m₁.failingReads ∧ Kind.deployment ∉ m₁.failingWrites := by
    rw [happlied.faults.failingReads, happlied.faults.failingWrites]
    decide
  obtain rfl := hrests.of_healthy (List.forall_mem_singleton.2 hdeployment)
  have hservice : ¬ Upsert.Settled m₁ .service (Gateway.Outputs.ofPlan plan content).service := by
    rintro ⟨live, hread, -⟩
    have hnone : m₁.read ⟨.service, plan.key.ns, plan.key.name⟩ = .ok none := by
      rw [Memory.read, happlied.others _ (by simp [Step.key, Key.of])]
      rfl
    cases hnone.symm.trans hread
  have hfail : Upsert.Rests m₁ .service (Gateway.Outputs.ofPlan plan content).service
      (.error (Memory.unavailable .service)) := by
    apply Upsert.Rests.unwritable _ hservice
    · rw [happlied.faults.failingWrites]
      decide
    · rw [happlied.faults.failingReads]
      decide
  rcases exists_upserted [⟨.deployment, .deployment, (Gateway.Outputs.ofPlan plan content).deployment⟩]
    lameStore with ⟨m₂, hupserted⟩ | ⟨before, s, after, m₂, m₃, e, hsteps, hbefore, h⟩
  · cases hrun.symm.trans hupserted.run
    exact ⟨_, _, .unapplied validate_storedEcho hderive rfl hupserted (hfail.run (hsound.run hrun))⟩
  · rw [hsteps, hbefore.run_append, run_applyAll_cons, h] at hrun
    cases hrun

end Pass

theorem reconcile_tells_failures_lame : ∃ (outputs : Gateway.Outputs) (m' : Memory),
    (reconcile Gateway.defaultImage .epoch Pass.echoServer).run Memory.answer Pass.lameStore =
      (.error (.store (Memory.unavailable .service)), m') ∧
    InPlace m' .deployment outputs.deployment ∧
    m'.objects.get? ⟨.service, "default", "echo"⟩ = none ∧
    m'.objects.get? ⟨.configMap, "default", "echo"⟩ = none ∧
    ∃ (server' : McpServer) (status : ServerStatus),
      m'.read (Key.of .server Pass.echoServer) = .ok (some server') ∧ server'.status = some status ∧
      (Pass.Failure.unapplied .service (Memory.unavailable .service)).Told status := by
  have hreachable : Pass.lameStore.Reachable := .act (.failWrites .service) Pass.reachable_echoStore
  have hlive : Pass.lameStore.Holds (Key.of .server Pass.echoServer) Pass.storedEcho :=
    ⟨Pass.holds_echoStore.objects, rfl, rfl⟩
  have hfetch : Pass.lameStore.get (Key.of .server Pass.echoServer) = .ok (some Pass.storedEcho) :=
    Memory.get_of_read (by decide) hlive.read
  obtain ⟨outputs, m₁, hreaches⟩ := Pass.reaches_lame
  rcases hrun : (reconcile Gateway.defaultImage .epoch Pass.echoServer).run Memory.answer
    Pass.lameStore with ⟨r, m'⟩
  obtain ⟨-, hfailures⟩ := reconcile_tells_failures hreachable Gateway.defaultImage .epoch
    Pass.echoServer Pass.storedEcho Pass.nameOf_echoServer hfetch hrun
  obtain ⟨hconfined, htold, -⟩ := hfailures _ _ _ _ hreaches
  have hpersist : ((Pass.persist .epoch Pass.storedEcho (Pass.Failure.unapplied .service
      (Memory.unavailable .service)).report).run Memory.answer m₁).1 = .ok () := by
    rcases Pass.run_persist_of_holds .epoch _ (hreaches.holds hreachable.sound hlive) with
      ⟨m₂, hpersist, -⟩ | ⟨hpending, -⟩
    · rw [hpersist]
    · rw [(hreaches.settled hreachable.sound).2.faults.statusConflicts] at hpending
      exact absurd hpending (by decide)
  obtain ⟨rfl, hstatus⟩ := htold _ rfl hpersist
  refine ⟨outputs, m', rfl, hconfined.inPlace _ List.mem_cons_self, ?_, ?_, hstatus⟩
  · exact hconfined.others _ (by decide) (by simp [Pass.Step.key, Key.of])
  · exact hconfined.others _ (by decide) (by simp [Pass.Step.key, Key.of])

end McpOperator
