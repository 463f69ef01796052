import McpOperator.Proofs.Gateway.Derive
import McpOperator.Proofs.Status.After

namespace McpOperator.Pass

variable {gatewayImage : String} {key : Key} {name : String} {server server' : McpServer}
  {m m' : Memory} {now : Instant}

/-- Two stores with the same lasting faults, that hold the same but for servers. -/
structure SameOthers (m m' : Memory) : Prop where
  failingReads : m'.failingReads = m.failingReads
  failingWrites : m'.failingWrites = m.failingWrites
  objects (key : Key) (h : key.kind ≠ .server) : m'.objects.get? key = m.objects.get? key

theorem SameOthers.get (h : SameOthers m m') {key : Key} (hkey : key.kind ≠ .server) :
    m'.get key = m.get key := by
  rw [Memory.get, Memory.get, h.failingReads, Memory.read_congr (h.objects key hkey)]

/-- Two servers from which the same is derived. -/
structure SameDesign (server server' : McpServer) : Prop where
  spec : server'.spec = server.spec
  key : Key.of .server server' = Key.of .server server
  owner : Gateway.owner? server' = Gateway.owner? server

theorem SameDesign.of_metadata (hspec : server'.spec = server.spec) (hmetadata : server'.metadata =
    { server.metadata with resourceVersion := server'.metadata.resourceVersion }) :
    SameDesign server server' where
  spec := hspec
  key := by
    change Key.mk _ _ _ = Key.mk _ _ _
    simp only [Kind.metadata]
    rw [hmetadata]
  owner := by
    rw [Gateway.owner?, Gateway.owner?, hmetadata]

theorem not_mem_steps {outputs : Gateway.Outputs} {key : Key}
    (hkey : key.kind = .server ∨ key.kind = .secret) : key ∉ (steps outputs).map Step.key := by
  intro hmem
  simp only [steps, List.map_cons, List.map_nil, List.mem_cons, List.not_mem_nil, or_false] at hmem
  rcases hmem with rfl | rfl | rfl <;> simp [Step.key, Key.of] at hkey

/-- How an evaluation ends that writes nothing. -/
inductive Rests (gatewayImage : String) (key : Key) (name : String) (server : McpServer) (m : Memory) :
    Report × Option PassError → Prop
  | invalid {e : ValidationError} (h : server.spec.validate name = .error e) :
      Rests gatewayImage key name server m (.invalid e, some (.invalid e))
  | underived {e : OutputError} (hvalid : server.spec.validate name = .ok ())
      (h : (Gateway.derive gatewayImage server).run Memory.answer m = (.error e, m)) :
      Rests gatewayImage key name server m (.translationFailed e.message, some (.outputs e))
  | stopped {outputs : Gateway.Outputs} {step : ApplyStep} {e : StoreError}
      (hvalid : server.spec.validate name = .ok ())
      (hderive : (Gateway.derive gatewayImage server).run Memory.answer m = (.ok outputs, m))
      (h : RestsAll m (steps outputs) (.error (step, e))) :
      Rests gatewayImage key name server m (.applyFailed step e.message, some (.store e))
  | applied {outputs : Gateway.Outputs} (hvalid : server.spec.validate name = .ok ())
      (hderive : (Gateway.derive gatewayImage server).run Memory.answer m = (.ok outputs, m))
      (h : RestsAll m (steps outputs) (.ok ())) :
      Rests gatewayImage key name server m
        (.applied (readinessOf (m.get ⟨.deployment, key.ns, key.name⟩)), none)

theorem run_evaluate_of_derived (hvalid : server.spec.validate name = .ok ())
    {outputs : Gateway.Outputs}
    (hderive : (Gateway.derive gatewayImage server).run Memory.answer m = (.ok outputs, m)) :
    (evaluate gatewayImage key name server).run Memory.answer m =
      match (applyAll (steps outputs)).run Memory.answer m with
      | (.error (step, e), m') => ((.applyFailed step e.message, some (.store e)), m')
      | (.ok _, m') =>
          ((.applied (readinessOf (m'.get ⟨.deployment, key.ns, key.name⟩)), none), m') := by
  rw [evaluate, hvalid]
  dsimp only
  rw [Work.run_bind, hderive]
  dsimp only
  rw [Work.run_bind, apply_eq]
  rcases (applyAll (steps outputs)).run Memory.answer m with ⟨⟨step, e⟩ | u, m'⟩ <;> rfl

theorem run_evaluate_of_underived (hvalid : server.spec.validate name = .ok ()) {e : OutputError}
    (hderive : (Gateway.derive gatewayImage server).run Memory.answer m = (.error e, m)) :
    (evaluate gatewayImage key name server).run Memory.answer m =
      ((.translationFailed e.message, some (.outputs e)), m) := by
  rw [evaluate, hvalid]
  dsimp only
  rw [Work.run_bind, hderive]
  rfl

theorem run_evaluate_of_invalid {e : ValidationError} (h : server.spec.validate name = .error e) :
    (evaluate gatewayImage key name server).run Memory.answer m = ((.invalid e, some (.invalid e)), m) := by
  rw [evaluate, h]
  rfl

namespace Rests

variable {r : Report × Option PassError}

theorem run (hm : m.Sound) (h : Rests gatewayImage key name server m r) :
    (evaluate gatewayImage key name server).run Memory.answer m = (r, m) := by
  cases h with
  | invalid h => exact run_evaluate_of_invalid h
  | underived hvalid h => exact run_evaluate_of_underived hvalid h
  | stopped hvalid hderive h => rw [run_evaluate_of_derived hvalid hderive, h.run hm]
  | applied hvalid hderive h => rw [run_evaluate_of_derived hvalid hderive, h.run hm]

theorem derive_congr (h : SameOthers m m') (hserver : SameDesign server server')
    {r : Except OutputError Gateway.Outputs}
    (hderive : (Gateway.derive gatewayImage server).run Memory.answer m = (r, m)) :
    (Gateway.derive gatewayImage server').run Memory.answer m' = (r, m') := by
  obtain ⟨r', hr, hderive'⟩ := Gateway.run_derive gatewayImage hserver.spec
    hserver.key hserver.owner fun key hkey => h.get (by rw [hkey]; decide)
  rw [hderive] at hr
  cases hr
  exact hderive'

theorem restsAll_congr (h : SameOthers m m') {outputs : Gateway.Outputs}
    {r : Except (ApplyStep × StoreError) Unit} (hrests : RestsAll m (steps outputs) r) :
    RestsAll m' (steps outputs) r := by
  apply hrests.congr h.failingReads h.failingWrites
  intro s hs
  apply h.objects s.key
  intro hkind
  exact not_mem_steps (.inl hkind) (List.mem_map_of_mem hs)

theorem congr (h : SameOthers m m') (hserver : SameDesign server server')
    (hr : Rests gatewayImage key name server m r) : Rests gatewayImage key name server' m' r := by
  cases hr with
  | invalid hvalid => exact .invalid (hserver.spec ▸ hvalid)
  | underived hvalid hderive => exact .underived (hserver.spec ▸ hvalid) (derive_congr h hserver hderive)
  | stopped hvalid hderive hrests =>
      exact .stopped (hserver.spec ▸ hvalid) (derive_congr h hserver hderive) (restsAll_congr h hrests)
  | applied hvalid hderive hrests =>
      have hget : m'.get ⟨.deployment, key.ns, key.name⟩ = m.get ⟨.deployment, key.ns, key.name⟩ :=
        h.get (by simp)
      rw [← hget]
      exact .applied (hserver.spec ▸ hvalid) (derive_congr h hserver hderive) (restsAll_congr h hrests)

end Rests

theorem sameSecrets_of_applied {outputs : Gateway.Outputs} (h : Applied (steps outputs) m m') :
    Gateway.SameSecrets m m' := by
  intro key hkey
  have hothers := h.others key (not_mem_steps (.inr hkey))
  rw [Memory.get, Memory.get, h.faults.failingReads, Memory.read_congr hothers]

/-- What has been written on the way from one store to another one by an evaluation. -/
def Evaluated (gatewayImage : String) (server : McpServer) (m m' : Memory) : Prop :=
  m' = m ∨ ∃ outputs, (Gateway.derive gatewayImage server).run Memory.answer m = (.ok outputs, m) ∧
    Applied (steps outputs) m m'

namespace Evaluated

theorem faults (h : Evaluated gatewayImage server m m') : Memory.KeepsFaults m m' := by
  rcases h with rfl | ⟨outputs, -, happlied⟩
  · exact .refl _
  · exact happlied.faults

theorem servers (h : Evaluated gatewayImage server m m') {key : Key} (hkey : key.kind = .server) :
    m'.objects.get? key = m.objects.get? key := by
  rcases h with rfl | ⟨outputs, -, happlied⟩
  · rfl
  · exact happlied.others key (not_mem_steps (.inl hkey))

theorem holds (h : Evaluated gatewayImage server m m') {live : McpServer}
    (hlive : m.Holds (Key.of .server live) live) : m'.Holds (Key.of .server live) live :=
  ⟨(h.servers rfl).trans hlive.objects, hlive.key_eq, hlive.whole⟩

theorem derive (h : Evaluated gatewayImage server m m') {r : Except OutputError Gateway.Outputs}
    (hderive : (Gateway.derive gatewayImage server).run Memory.answer m' = (r, m')) :
    (Gateway.derive gatewayImage server).run Memory.answer m = (r, m) := by
  rcases h with rfl | ⟨outputs, hbefore, happlied⟩
  · exact hderive
  · obtain ⟨r', hr, hafter⟩ := Gateway.run_derive gatewayImage
      (rfl : server.spec = server.spec) rfl rfl (sameSecrets_of_applied happlied)
    rw [hderive] at hafter
    cases hafter
    exact hr

end Evaluated

/-- An evaluation comes to rest. -/
theorem run_evaluate (gatewayImage : String) (key : Key) (name : String) (server : McpServer)
    (hm : m.Sound) : ∃ r m',
    (evaluate gatewayImage key name server).run Memory.answer m = (r, m') ∧
      Rests gatewayImage key name server m' r ∧ Evaluated gatewayImage server m m' := by
  cases hvalid : server.spec.validate name with
  | error e => exact ⟨_, m, run_evaluate_of_invalid hvalid, .invalid hvalid, .inl rfl⟩
  | ok u =>
      obtain ⟨r, hderive⟩ := Gateway.derive_rests gatewayImage server m
      cases r with
      | error e =>
          exact ⟨_, m, run_evaluate_of_underived hvalid hderive, .underived hvalid hderive, .inl rfl⟩
      | ok outputs =>
          obtain ⟨plan, content, -, houtputs⟩ := Gateway.derive_ok hderive
          obtain ⟨r, m', hrun, hrests, happlied⟩ := run_applyAll hm
            (houtputs ▸ Gateway.Outputs.nodup_keys_steps plan content)
            (houtputs ▸ Gateway.Outputs.versions_steps plan content)
          obtain ⟨r', hr, hderive'⟩ := Gateway.run_derive gatewayImage
            (rfl : server.spec = server.spec) rfl rfl (sameSecrets_of_applied happlied)
          rw [hderive] at hr
          cases hr
          rcases r with ⟨step, e⟩ | u
          · refine ⟨_, m', ?_, .stopped hvalid hderive' hrests, .inr ⟨outputs, hderive, happlied⟩⟩
            rw [run_evaluate_of_derived hvalid hderive, hrun]
          · refine ⟨_, m', ?_, .applied hvalid hderive' hrests, .inr ⟨outputs, hderive, happlied⟩⟩
            rw [run_evaluate_of_derived hvalid hderive, hrun]

/-- A server as it is read back after its status has been written. -/
structure Published (now : Instant) (report : Report) (server server' : McpServer) : Prop where
  spec : server'.spec = server.spec
  metadata : server'.metadata =
    { server.metadata with resourceVersion := server'.metadata.resourceVersion }
  status : server'.status = some (ServerStatus.after now server report).wholeSeconds

namespace Published

variable {report : Report}

theorem design (h : Published now report server server') : SameDesign server server' :=
  .of_metadata h.spec h.metadata

theorem after_again (h : Published now report server server') (now' : Instant) :
    server'.status = some (ServerStatus.after now' server' report) := by
  rw [ServerStatus.after_again now server report h.status (by rw [h.metadata]), h.status]

end Published

theorem persist_eq (now : Instant) (server : McpServer) (report : Report) : persist now server report =
    if server.status = some (ServerStatus.after now server report) then .done (.ok ())
    else .call (.replaceStatus { server with status := some (ServerStatus.after now server report) })
      fun answer => .done (answer.map fun _ => ()) := by
  rw [persist]
  congr
  funext answer
  cases answer <;> rfl

theorem run_persist (report : Report) : (persist now server report).run Memory.answer m =
    if server.status = some (ServerStatus.after now server report) then (.ok (), m)
    else match m.replaceStatus { server with status := some (ServerStatus.after now server report) } with
      | (.ok _, m') => (.ok (), m')
      | (.error e, m') => (.error e, m') := by
  rw [persist_eq]
  split
  · rfl
  · simp only [Work.run, Memory.answer]
    rcases m.replaceStatus _ with ⟨e | s, m'⟩ <;> rfl

theorem replaceStatus_of_conflict (h : 0 < m.statusConflicts) :
    m.replaceStatus server = (.error (.conflict (Key.of .server server).display),
      { m with statusConflicts := m.statusConflicts - 1 }) :=
  if_pos h

theorem replaceStatus_of_holds (hm : m.Holds (Key.of .server server) server)
    (hconflicts : m.statusConflicts = 0) (status : Option ServerStatus) :
    ∃ p m', m.replaceStatus { server with status } = (.ok p, m') ∧
      Memory.Stored m m' .server { server with status } := by
  have hlive : m.Holds (Key.of .server { server with status }) server := hm
  refine ⟨(m.mutate .server { server with status }).1, (m.mutate .server { server with status }).2, ?_,
    Memory.stored_mutate m .server _⟩
  simp [Memory.replaceStatus_eq hlive, hconflicts]

/-- What writing a status leaves: the server with that status, and all else as it was. -/
structure Finished (now : Instant) (report : Report) (server : McpServer) (m m' : Memory) : Prop where
  published : ∃ server' : McpServer, m'.Holds (Key.of .server server) server' ∧
    Published now report server server'
  others {key : Key} (h : Key.of .server server ≠ key) : m'.objects.get? key = m.objects.get? key
  faults : Memory.KeepsFaults m m'

theorem Finished.sameOthers {report : Report} (h : Finished now report server m m') : SameOthers m m' where
  failingReads := h.faults.failingReads
  failingWrites := h.faults.failingWrites
  objects _ hkey := h.others (fun heq => hkey (heq ▸ rfl))

theorem server_ne_step {outputs : Gateway.Outputs} {s : Step} (hs : s ∈ steps outputs) :
    Key.of .server server ≠ s.key := by
  intro heq
  exact not_mem_steps (.inl (congrArg Key.kind heq).symm) (List.mem_map_of_mem hs)

theorem Finished.settled {report : Report} (h : Finished now report server m m')
    {outputs : Gateway.Outputs} (hrests : RestsAll m (steps outputs) (.ok ())) :
    ∀ s ∈ steps outputs, Upsert.Settled m' s.kind s.object := by
  intro s hs
  exact (Upsert.settled_congr (h.others (server_ne_step hs))).2 (hrests.settled s hs).2

theorem finished_of_stored {report : Report} (hm : m.Holds (Key.of .server server) server)
    (hstored : Memory.Stored m m' .server
      { server with status := some (ServerStatus.after now server report) }) :
    Finished now report server m m' := by
  have hwhole : McpServer.wholeSeconds server = server := hm.whole
  have hmetadata : server.metadata.wholeSeconds = server.metadata := congrArg McpServer.metadata hwhole
  obtain ⟨n, hobject⟩ := hstored.object
  refine ⟨⟨McpServer.wholeSeconds (Kind.server.withResourceVersion
    { server with status := some (ServerStatus.after now server report) } (some (toString n))),
    ⟨?_, ?_, Kind.wholeSeconds_wholeSeconds _⟩, rfl, ?_, rfl⟩, hstored.others, hstored.faults⟩
  · exact hobject.trans (congrArg some (Kind.encode_wholeSeconds _).symm)
  · exact (Key.of_wholeSeconds .server _).trans (Key.of_withResourceVersion .server _ _)
  · exact congrArg (fun m : ObjectMeta => { m with resourceVersion := some (toString n) }) hmetadata

theorem run_persist_of_holds (now : Instant) (report : Report)
    (hm : m.Holds (Key.of .server server) server) :
    (∃ m', (persist now server report).run Memory.answer m = (.ok (), m') ∧
      Finished now report server m m') ∨
    0 < m.statusConflicts ∧ (persist now server report).run Memory.answer m =
      (.error (.conflict (Key.of .server server).display),
        { m with statusConflicts := m.statusConflicts - 1 }) := by
  rw [run_persist]
  split
  · rename_i hstatus
    have hwhole : McpServer.wholeSeconds server = server := hm.whole
    have hkept : server.status.map ServerStatus.wholeSeconds = server.status :=
      congrArg McpServer.status hwhole
    rw [hstatus, Option.map_some] at hkept
    refine .inl ⟨m, rfl, ⟨server, hm, rfl, rfl, ?_⟩, fun _ => rfl, .refl m⟩
    rw [hstatus, hkept]
  · by_cases hconflicts : 0 < m.statusConflicts
    · rw [replaceStatus_of_conflict hconflicts]
      exact .inr ⟨hconflicts, rfl⟩
    · obtain ⟨p, m', hrun, hstored⟩ := replaceStatus_of_holds hm (Nat.eq_zero_of_not_pos hconflicts)
        (some (ServerStatus.after now server report))
      rw [hrun]
      exact .inl ⟨m', rfl, finished_of_stored hm hstored⟩

section

variable {trigger : McpServer}

theorem run_reconcile (h : nameOf trigger = .ok name) :
    (reconcile gatewayImage now trigger).run Memory.answer m =
      (afterFetch gatewayImage now (Key.of .server trigger) name
        (m.get (Key.of .server trigger))).run Memory.answer m := by
  rw [reconcile, h]
  rfl

theorem run_reconcile_of_rejected {e : TriggerError} (h : nameOf trigger = .error e) :
    (reconcile gatewayImage now trigger).run Memory.answer m = (.error (.trigger e), m) := by
  rw [reconcile, h]
  rfl

theorem run_reconcile_of_failing (h : nameOf trigger = .ok name) (hreads : .server ∈ m.failingReads) :
    (reconcile gatewayImage now trigger).run Memory.answer m =
      (.error (.store (Memory.unavailable .server)), m) := by
  have hget : m.get (Key.of .server trigger) = .error (Memory.unavailable .server) :=
    Memory.get_of_failing hreads
  rw [run_reconcile h, hget]
  rfl

theorem run_reconcile_of_none (h : nameOf trigger = .ok name) (hreads : .server ∉ m.failingReads)
    (hread : m.read (Key.of .server trigger) = .ok none) :
    (reconcile gatewayImage now trigger).run Memory.answer m = (.ok (), m) := by
  rw [run_reconcile h, Memory.get_of_read hreads hread]
  rfl

theorem run_reconcile_of_some (h : nameOf trigger = .ok name) (hreads : .server ∉ m.failingReads)
    (hread : m.read (Key.of .server trigger) = .ok (some server)) :
    (reconcile gatewayImage now trigger).run Memory.answer m =
      (afterFetch gatewayImage now (Key.of .server trigger) name (.ok (some server))).run
        Memory.answer m := by
  rw [run_reconcile h, Memory.get_of_read hreads hread]
  rfl

end

def verdict : Option PassError → Except PassError Unit
  | some e => .error e
  | none => .ok ()

def ending (failure : Option PassError) : Except StoreError Unit → Except PassError Unit
  | .error e => .error (.store e)
  | .ok _ => verdict failure

theorem afterFetch_eq (gatewayImage : String) (now : Instant) (key : Key) (name : String)
    (server : McpServer) : afterFetch gatewayImage now key name (.ok (some server)) =
    (evaluate gatewayImage key name server).bind fun a =>
      (persist now server a.1).bind fun r => .done (ending a.2 r) := by
  rw [afterFetch]
  congr
  funext ⟨report, failure⟩
  dsimp only
  congr
  funext r
  cases r with
  | error e => rfl
  | ok => cases failure <;> rfl

theorem run_afterFetch {report : Report} {failure : Option PassError}
    (h : (evaluate gatewayImage key name server).run Memory.answer m = ((report, failure), m')) :
    (afterFetch gatewayImage now key name (.ok (some server))).run Memory.answer m =
      (ending failure ((persist now server report).run Memory.answer m').1,
        ((persist now server report).run Memory.answer m').2) := by
  rw [afterFetch_eq, Work.run_bind, h, Work.run_bind]
  rfl

theorem run_pass (gatewayImage : String) (key : Key) (name : String) (now : Instant) (hm : m.Sound)
    (hlive : m.Holds (Key.of .server server) server) :
    ∃ report failure m₁, Evaluated gatewayImage server m m₁ ∧
      Rests gatewayImage key name server m₁ (report, failure) ∧
      ((∃ m₂, (afterFetch gatewayImage now key name (.ok (some server))).run Memory.answer m =
          (verdict failure, m₂) ∧ Finished now report server m₁ m₂) ∨
        0 < m₁.statusConflicts ∧
          (afterFetch gatewayImage now key name (.ok (some server))).run Memory.answer m =
            (.error (.store (.conflict (Key.of .server server).display)),
              { m₁ with statusConflicts := m₁.statusConflicts - 1 })) := by
  obtain ⟨⟨report, failure⟩, m₁, hrun, hrests, hevaluated⟩ := run_evaluate gatewayImage key name server hm
  refine ⟨report, failure, m₁, hevaluated, hrests, ?_⟩
  rw [run_afterFetch hrun]
  rcases run_persist_of_holds now report (hevaluated.holds hlive) with
    ⟨m₂, hpersist, hfinished⟩ | ⟨hconflicts, hpersist⟩
  · rw [hpersist]
    exact .inl ⟨m₂, rfl, hfinished⟩
  · rw [hpersist]
    exact .inr ⟨hconflicts, rfl⟩

def finalReport (key : Key) (m : Memory) : Report :=
  .applied (readinessOf (m.get ⟨.deployment, key.ns, key.name⟩))

theorem finalReport_of_rests {outputs : Gateway.Outputs}
    (hderive : (Gateway.derive gatewayImage server).run Memory.answer m = (.ok outputs, m))
    (hrests : RestsAll m' (steps outputs) (.ok ())) : ∃ deployment : Deployment,
      m'.read ⟨.deployment, (Key.of .server server).ns, (Key.of .server server).name⟩ =
        .ok (some deployment) ∧
      finalReport (Key.of .server server) m' = .applied (.of (some deployment)) := by
  obtain ⟨⟨planKey, owner, pod⟩, content, hplan, rfl⟩ := Gateway.derive_ok hderive
  change planKey = Key.of .server server at hplan
  subst hplan
  obtain ⟨hreadable, deployment, hread, -⟩ := hrests.settled _ List.mem_cons_self
  refine ⟨deployment, hread, ?_⟩
  have hget : m'.get ⟨.deployment, (Key.of .server server).ns, (Key.of .server server).name⟩ =
      .ok (some deployment) := Memory.get_of_read hreadable hread
  rw [finalReport, hget]
  rfl

theorem run_reconcile_ok {trigger : McpServer} (hm : m.Sound)
    (hread : m.read (Key.of .server trigger) = .ok (some server))
    (hrun : (reconcile gatewayImage now trigger).run Memory.answer m = (.ok (), m')) :
    ∃ name outputs m₁, nameOf trigger = .ok name ∧ server.spec.validate name = .ok () ∧
      (Gateway.derive gatewayImage server).run Memory.answer m = (.ok outputs, m) ∧
      Evaluated gatewayImage server m m₁ ∧ RestsAll m₁ (steps outputs) (.ok ()) ∧
      Finished now (finalReport (Key.of .server trigger) m₁) server m₁ m' := by
  cases hname : nameOf trigger with
  | error e =>
      rw [run_reconcile_of_rejected hname] at hrun
      cases hrun
  | ok name =>
      by_cases hreads : Kind.server ∈ m.failingReads
      · rw [run_reconcile_of_failing hname hreads] at hrun
        cases hrun
      rw [run_reconcile_of_some hname hreads hread] at hrun
      obtain ⟨report, failure, m₁, hevaluated, hrests, ⟨m₂, hpass, hfinished⟩ | ⟨-, hpass⟩⟩ :=
        run_pass gatewayImage (Key.of .server trigger) name now hm (hm.holds hread).self
      · rw [hpass] at hrun
        cases hrests with
        | applied hvalid hderive hall =>
            cases hrun
            exact ⟨name, _, m₁, rfl, hvalid, hevaluated.derive hderive, hevaluated, hall, hfinished⟩
        | invalid | underived | stopped => cases hrun
      · rw [hpass] at hrun
        cases hrun

theorem run_reconcile_succeeds (now : Instant) {trigger : McpServer} (hm : m.Sound)
    (hreads : m.failingReads = []) (hwrites : m.failingWrites = []) (hconflicts : m.statusConflicts = 0)
    (hname : nameOf trigger = .ok name) (hread : m.read (Key.of .server trigger) = .ok (some server))
    (hvalid : server.spec.validate name = .ok ()) {outputs : Gateway.Outputs}
    (hderive : (Gateway.derive gatewayImage server).run Memory.answer m = (.ok outputs, m)) :
    ∃ m', (reconcile gatewayImage now trigger).run Memory.answer m = (.ok (), m') := by
  have hreadable : Kind.server ∉ m.failingReads := by simp [hreads]
  rw [run_reconcile_of_some hname hreadable hread]
  obtain ⟨report, failure, m₁, hevaluated, hrests, ⟨m₂, hpass, -⟩ | ⟨hpending, -⟩⟩ :=
    run_pass gatewayImage (Key.of .server trigger) name now hm (hm.holds hread).self
  · refine ⟨m₂, hpass.trans ?_⟩
    cases hrests with
    | invalid hinvalid =>
        rw [hvalid] at hinvalid
        cases hinvalid
    | underived _ hunderived =>
        have hbefore := hevaluated.derive hunderived
        rw [hderive] at hbefore
        cases hbefore
    | stopped _ _ hstopped =>
        have hok := hstopped.of_healthy fun s _ => by
          rw [hevaluated.faults.failingReads, hevaluated.faults.failingWrites, hreads, hwrites]
          simp
        cases hok
    | applied => rfl
  · rw [hevaluated.faults.statusConflicts, hconflicts] at hpending
    exact absurd hpending (Nat.lt_irrefl 0)

def echoServer : McpServer where
  metadata := { ObjectMeta.empty with
    name := some "echo"
    uid := some "12345678-1234-1234-1234-123456789abc"
    generation := some 1 }
  spec := {
    deployment := ⟨some "echo:1", 3000, some "echo", [], .empty, [], [], [], [], [], none⟩
    transportType := some .stdio
    httpTransport := none
    authn := none
    authz := none
    routeFilter := none }
  status := none

def echoStore : Memory := Memory.empty.seed .server echoServer

def storedEcho : McpServer := Kind.server.withResourceVersion echoServer (some "1")

theorem nameOf_echoServer : nameOf echoServer = .ok "echo" := by decide

theorem reachable_echoStore : echoStore.Reachable := .act (.seed .server echoServer) .empty

theorem holds_echoStore : echoStore.Holds (Key.of .server echoServer) storedEcho :=
  ⟨Memory.get?_write_self .empty .server echoServer, rfl, rfl⟩

theorem validate_storedEcho : storedEcho.spec.validate "echo" = .ok () := by decide

theorem derive_storedEcho (m : Memory) : ∃ outputs,
    (Gateway.derive Gateway.defaultImage storedEcho).run Memory.answer m = (.ok outputs, m) :=
  ⟨_, rfl⟩

theorem run_reconcile_echo (now : Instant) : ∃ m',
    (reconcile Gateway.defaultImage now echoServer).run Memory.answer echoStore = (.ok (), m') := by
  obtain ⟨outputs, hderive⟩ := derive_storedEcho echoStore
  exact run_reconcile_succeeds now reachable_echoStore.sound rfl rfl rfl nameOf_echoServer
    holds_echoStore.read validate_storedEcho hderive

end McpOperator.Pass
