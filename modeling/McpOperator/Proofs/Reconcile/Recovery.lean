import McpOperator.Proofs.Reconcile.Pass
import Mathlib.Data.List.Nodup

namespace McpOperator

structure Faults where
  failingReads : List Kind
  failingWrites : List Kind
  createRaces : List Kind
  statusConflicts : Nat

def Faults.none : Faults := ⟨[], [], [], 0⟩

def Memory.withFaults (m : Memory) (f : Faults) : Memory :=
  { m with
    failingReads := f.failingReads
    failingWrites := f.failingWrites
    createRaces := f.createRaces
    statusConflicts := f.statusConflicts }

theorem Memory.get_withFaults_none (m : Memory) (key : Key) :
    (m.withFaults .none).get key = (m.read key).mapError .ofDecode := by
  have hreads : key.kind ∉ (m.withFaults .none).failingReads := List.not_mem_nil
  rw [get, if_neg hreads]
  rfl

theorem Memory.Sound.withFaults {m : Memory} (hm : m.Sound) (f : Faults) : (m.withFaults f).Sound :=
  hm.grow (.same rfl rfl)

/-- One pass of several, with the faults that it meets. -/
structure Attempt where
  faults : Faults
  now : Instant
  trigger : McpServer

def attempt (gatewayImage : String) (m : Memory) (a : Attempt) : Except PassError Unit × Memory :=
  (reconcile gatewayImage a.now a.trigger).run Memory.answer (m.withFaults a.faults)

def attempts (gatewayImage : String) (m : Memory) (l : List Attempt) : Memory :=
  l.foldl (fun m a => (attempt gatewayImage m a).2) m

def Kind.timeless : (kind : Kind) → kind.Object → kind.Object
  | .server, o => Kind.server.withResourceVersion
      { (o : McpServer) with status := (o : McpServer).status.map ServerStatus.untimed } none
  | .deployment, o => Kind.deployment.withResourceVersion o none
  | .service, o => Kind.service.withResourceVersion o none
  | .configMap, o => Kind.configMap.withResourceVersion o none
  | .secret, o => Kind.secret.withResourceVersion o none

@[simp] theorem Kind.timeless_withResourceVersion (kind : Kind) (o : kind.Object)
    (version : Option String) : kind.timeless (kind.withResourceVersion o version) = kind.timeless o := by
  cases kind <;> rfl

/-- Two stores with the same objects, up to versions and to the times of conditions. -/
def Memory.Alike (m m' : Memory) : Prop :=
  ∀ key, (m.read key).map (Option.map key.kind.timeless) = (m'.read key).map (Option.map key.kind.timeless)

theorem Memory.Alike.of_objects {m m' : Memory} (h : m.objects = m'.objects) : m.Alike m' := by
  intro key
  rw [read, read, h]

theorem Readiness.of_timeless (d : Deployment) :
    Readiness.of (some (Kind.deployment.timeless d)) = .of (some d) := rfl

namespace Pass

variable {gatewayImage : String} {server₀ server server' : McpServer} {m₀ m m' : Memory} {now : Instant}

/-- A server as passes may have left it: what it asks for is untouched, and its status makes no
difference for the status after another pass. -/
structure Kin (server₀ server : McpServer) : Prop where
  spec : server.spec = server₀.spec
  metadata : server.metadata = { server₀.metadata with resourceVersion := server.metadata.resourceVersion }
  reports (now now' : Instant) (r : Report) :
    (ServerStatus.after now server r).untimed = (ServerStatus.after now' server₀ r).untimed

namespace Kin

theorem refl (server : McpServer) : Kin server server where
  spec := rfl
  metadata := rfl
  reports now now' r := by rw [ServerStatus.untimed_after, ServerStatus.untimed_after]

theorem published (h : Kin server₀ server) {r : Report} (hp : Published now r server server') :
    Kin server₀ server' where
  spec := hp.spec.trans h.spec
  metadata := by
    rw [hp.metadata, h.metadata]
  reports t t' r' := by
    rw [ServerStatus.untimed_after_after now server r hp.status (by rw [hp.metadata]) t t r']
    exact h.reports t t' r'

theorem timeless (h : Kin server₀ server) : Kind.server.timeless server = Kind.server.withResourceVersion
    { server₀ with status := server.status.map ServerStatus.untimed } none := by
  have hmetadata : { server.metadata with resourceVersion := none } =
      { server₀.metadata with resourceVersion := none } := by
    rw [h.metadata]
  change McpServer.mk { server.metadata with resourceVersion := none } server.spec _ = _
  rw [hmetadata, h.spec]
  rfl

theorem design (h : Kin server₀ server) : SameDesign server₀ server := .of_metadata h.spec h.metadata

end Kin

/-- What is derived from a server where nothing fails. -/
def Derives (gatewayImage : String) (server : McpServer) (m : Memory) (outputs : Gateway.Outputs) : Prop :=
  (Gateway.derive gatewayImage server).run Memory.answer (m.withFaults .none) =
    (.ok outputs, m.withFaults .none)

namespace Derives

variable {outputs : Gateway.Outputs}

theorem unique (h : Derives gatewayImage server m outputs) {outputs' : Gateway.Outputs}
    (h' : Derives gatewayImage server m outputs') : outputs = outputs' := by
  rw [Derives, h] at h'
  cases h'
  rfl

theorem step_unique (h : Derives gatewayImage server m outputs) {s t : Step} (hs : s ∈ steps outputs)
    (ht : t ∈ steps outputs) (hkey : s.key = t.key) : s = t := by
  obtain ⟨plan, content, -, rfl⟩ := Gateway.derive_ok h
  exact List.inj_on_of_nodup_map (Gateway.Outputs.nodup_keys_steps plan content) hs ht hkey

end Derives

def Rewritten (m₀ m : Memory) (s : Step) : Prop :=
  ¬ Upsert.Settled m₀ s.kind s.object ∧ ∃ n : Nat, m.objects.get? s.key = some (s.kind.encode
    (s.kind.withResourceVersion (Upsert.desired s.kind s.object) (some (toString n))))

/-- A store that passes over one server have made of another one. -/
structure Underway (gatewayImage : String) (server₀ : McpServer) (m₀ m : Memory) : Prop where
  server : ∃ server : McpServer, m.Holds (Key.of .server server₀) server ∧ Kin server₀ server
  others (key : Key) (h : Key.of .server server₀ ≠ key) : m.objects.get? key = m₀.objects.get? key ∨
    ∃ outputs, Derives gatewayImage server₀ m₀ outputs ∧
      ∃ s ∈ steps outputs, s.key = key ∧ Rewritten m₀ m s

theorem Rewritten.congr {s : Step} (h : Rewritten m₀ m s)
    (hobjects : m'.objects.get? s.key = m.objects.get? s.key) : Rewritten m₀ m' s := by
  obtain ⟨hsettled, n, hobject⟩ := h
  exact ⟨hsettled, n, hobjects.trans hobject⟩

namespace Underway

theorem refl (gatewayImage : String) (h : m₀.Holds (Key.of .server server₀) server₀) :
    Underway gatewayImage server₀ m₀ m₀ :=
  ⟨⟨server₀, h, .refl server₀⟩, fun _ _ => .inl rfl⟩

theorem of_objects (h : Underway gatewayImage server₀ m₀ m) (hobjects : m'.objects = m.objects) :
    Underway gatewayImage server₀ m₀ m' := by
  obtain ⟨⟨server, hlive, hkin⟩, hothers⟩ := h
  refine ⟨⟨server, ⟨hobjects ▸ hlive.objects, hlive.key_eq, hlive.whole⟩, hkin⟩, ?_⟩
  intro key hkey
  rcases hothers key hkey with heq | ⟨outputs, hderives, s, hs, hskey, hrewritten⟩
  · exact .inl (hobjects ▸ heq)
  · exact .inr ⟨outputs, hderives, s, hs, hskey, hrewritten.congr (by rw [hobjects])⟩

theorem secrets (h : Underway gatewayImage server₀ m₀ m) {key : Key} (hkey : key.kind = .secret) :
    m.objects.get? key = m₀.objects.get? key := by
  have hne : Key.of .server server₀ ≠ key := by
    rintro rfl
    cases hkey
  rcases h.others key hne with heq | ⟨outputs, -, s, hs, hskey, -⟩
  · exact heq
  · exact absurd (List.mem_map.2 ⟨s, hs, hskey⟩) (not_mem_steps (.inr hkey))

theorem derives (h : Underway gatewayImage server₀ m₀ m) (hkin : Kin server₀ server)
    {outputs : Gateway.Outputs}
    (hderive : (Gateway.derive gatewayImage server).run Memory.answer m = (.ok outputs, m)) :
    Derives gatewayImage server₀ m₀ outputs := by
  have hdesign := hkin.design
  apply Gateway.run_derive_of_ok hdesign.spec.symm hdesign.key.symm hdesign.owner.symm hderive
  intro key hkey
  by_cases hreads : key.kind ∈ m.failingReads
  · exact .inr ⟨_, Memory.get_of_failing hreads⟩
  · refine .inl ?_
    rw [Memory.get_withFaults_none, Memory.read_congr (h.secrets hkey).symm, Memory.get, if_neg hreads]

theorem not_settled (h : Underway gatewayImage server₀ m₀ m) {outputs : Gateway.Outputs}
    (hderives : Derives gatewayImage server₀ m₀ outputs) {s : Step} (hs : s ∈ steps outputs)
    (hsettled : ¬ Upsert.Settled m s.kind s.object) : ¬ Upsert.Settled m₀ s.kind s.object := by
  rcases h.others s.key (server_ne_step hs) with heq | ⟨outputs', hderives', t, ht, hkey, hrewritten⟩
  · exact mt (Upsert.settled_congr heq).2 hsettled
  · -- What has been written on the way under this key is this very object.
    obtain rfl := hderives.unique hderives'
    obtain rfl := hderives.step_unique ht hs hkey
    exact hrewritten.1

theorem others_of_eq (h : Underway gatewayImage server₀ m₀ m) {key : Key}
    (hne : Key.of .server server₀ ≠ key) (heq : m'.objects.get? key = m.objects.get? key) :
    m'.objects.get? key = m₀.objects.get? key ∨ ∃ outputs, Derives gatewayImage server₀ m₀ outputs ∧
      ∃ s ∈ steps outputs, s.key = key ∧ Rewritten m₀ m' s := by
  rcases h.others key hne with hsame | ⟨outputs, hderives, s, hs, rfl, hrewritten⟩
  · exact .inl (heq.trans hsame)
  · exact .inr ⟨outputs, hderives, s, hs, rfl, hrewritten.congr heq⟩

variable (hkey : Key.of .server server = Key.of .server server₀)

include hkey

/-- An evaluation writes what is desired over what is not settled, or nothing. -/
theorem evaluated (h : Underway gatewayImage server₀ m₀ m)
    (hlive : m.Holds (Key.of .server server) server) (hkin : Kin server₀ server)
    (hevaluated : Evaluated gatewayImage server m m') : Underway gatewayImage server₀ m₀ m' := by
  refine ⟨⟨server, ?_, hkin⟩, ?_⟩
  · exact (hevaluated.holds hlive).of_key_eq hkey
  · intro key hne
    rcases hevaluated with rfl | ⟨outputs, hderive, happlied⟩
    · exact h.others key hne
    · have hderives := h.derives hkin hderive
      by_cases hmem : key ∈ (steps outputs).map Step.key
      · obtain ⟨s, hs, rfl⟩ := List.mem_map.1 hmem
        rcases happlied.step s hs with heq | ⟨hsettled, hobject⟩
        · exact h.others_of_eq hne heq
        · exact .inr ⟨outputs, hderives, s, hs, rfl, h.not_settled hderives hs hsettled, hobject⟩
      · exact h.others_of_eq hne (happlied.others key hmem)

theorem finished (h : Underway gatewayImage server₀ m₀ m) (hkin : Kin server₀ server) {report : Report}
    (hfinished : Finished now report server m m') : Underway gatewayImage server₀ m₀ m' := by
  obtain ⟨server', hlive', hpublished⟩ := hfinished.published
  refine ⟨⟨server', ?_, hkin.published hpublished⟩, ?_⟩
  · exact hlive'.of_key_eq hkey
  · exact fun key hne => h.others_of_eq hne (hfinished.others (hkey ▸ hne))

omit hkey

theorem after_attempt (h : Underway gatewayImage server₀ m₀ m) (hm : m.Sound) (a : Attempt)
    (hkey : Key.of .server a.trigger = Key.of .server server₀) :
    Underway gatewayImage server₀ m₀ (attempt gatewayImage m a).2 := by
  have hf : Underway gatewayImage server₀ m₀ (m.withFaults a.faults) := h.of_objects rfl
  have hsound := hm.withFaults a.faults
  obtain ⟨server, hlive, hkin⟩ := hf.server
  rw [attempt]
  cases hname : nameOf a.trigger with
  | error e =>
      rw [run_reconcile_of_rejected hname]
      exact hf
  | ok name =>
      by_cases hreads : Kind.server ∈ (m.withFaults a.faults).failingReads
      · rw [run_reconcile_of_failing hname hreads]
        exact hf
      have hread := (Memory.read_of_key_eq (m.withFaults a.faults) hkey).trans hlive.read
      rw [run_reconcile_of_some hname hreads hread]
      obtain ⟨report, failure, m₁, hevaluated, -, ⟨m₂, hpass, hfinished⟩ | ⟨-, hpass⟩⟩ :=
        run_pass gatewayImage (Key.of .server a.trigger) name a.now hsound hlive.self
      · rw [hpass]
        exact (hf.evaluated hlive.key_eq hlive.self hkin hevaluated).finished hlive.key_eq hkin hfinished
      · rw [hpass]
        exact (hf.evaluated hlive.key_eq hlive.self hkin hevaluated).of_objects rfl

end Underway

structure Complete (gatewayImage : String) (server₀ : McpServer) (m₀ m : Memory) : Prop
    extends Underway gatewayImage server₀ m₀ m where
  settled : ∃ outputs, Derives gatewayImage server₀ m₀ outputs ∧
    ∀ s ∈ steps outputs, Upsert.Settled m s.kind s.object
  status : ∃ (server : McpServer) (deployment : Deployment), m.Holds (Key.of .server server₀) server ∧
    Kin server₀ server ∧
    m.read ⟨.deployment, (Key.of .server server₀).ns, (Key.of .server server₀).name⟩ =
      .ok (some deployment) ∧
    server.status.map ServerStatus.untimed =
      some (ServerStatus.after .epoch server₀ (.applied (.of (some deployment)))).untimed

theorem Underway.complete (h : Underway gatewayImage server₀ m₀ m) (hm : m.Sound) {a : Attempt}
    (hkey : Key.of .server a.trigger = Key.of .server server₀)
    (hok : (attempt gatewayImage m a).1 = .ok ()) :
    Complete gatewayImage server₀ m₀ (attempt gatewayImage m a).2 ∧
      ∃ name, nameOf a.trigger = .ok name ∧ server₀.spec.validate name = .ok () := by
  have hf : Underway gatewayImage server₀ m₀ (m.withFaults a.faults) := h.of_objects rfl
  obtain ⟨server, hlive, hkin⟩ := hf.server
  have hserver : Key.of .server server = Key.of .server server₀ := hlive.key_eq
  have hread := (Memory.read_of_key_eq (m.withFaults a.faults) hkey).trans hlive.read
  obtain ⟨name, outputs, m₁, hname, hvalid, hderive, hevaluated, hrests, hfinished⟩ :=
    run_reconcile_ok (hm.withFaults a.faults) hread (Prod.ext hok rfl)
  obtain ⟨deployment, hfound, hreport⟩ := finalReport_of_rests hderive hrests
  rw [hkey, ← hserver, hreport] at hfinished
  have hunderway := (hf.evaluated hserver hlive.self hkin hevaluated).finished hserver hkin hfinished
  obtain ⟨server', hlive', hpublished⟩ := hfinished.published
  refine ⟨⟨hunderway, ⟨outputs, hf.derives hkin hderive, ?_⟩, server', deployment, ?_,
    hkin.published hpublished, ?_, ?_⟩, name, hname, hkin.spec ▸ hvalid⟩
  · exact hfinished.settled hrests
  · exact hlive'.of_key_eq hserver
  · rw [← hfound, hserver]
    exact Memory.read_congr (hfinished.sameOthers.objects _ (by simp))
  · rw [hpublished.status, Option.map_some, ServerStatus.untimed_wholeSeconds]
    exact congrArg some (hkin.reports _ _ _)

theorem Rewritten.read {s : Step} (h : Rewritten m₀ m s) :
    (m.read s.key).map (Option.map s.key.kind.timeless) =
      .ok (some (s.kind.timeless (s.kind.wholeSeconds (Upsert.desired s.kind s.object)))) := by
  obtain ⟨-, n, hobject⟩ := h
  have hread : (m.read s.key : Except DecodeError (Option s.kind.Object)) = .ok (some (s.kind.wholeSeconds
      (s.kind.withResourceVersion (Upsert.desired s.kind s.object) (some (toString n))))) := by
    rw [Memory.read, hobject]
    exact congrArg (Except.map some) (Kind.decode_encode _)
  apply (congrArg (Except.map (Option.map s.kind.timeless)) hread).trans
  apply congrArg (fun o => Except.ok (some o))
  rw [Kind.wholeSeconds_withResourceVersion, Kind.timeless_withResourceVersion]

namespace Complete

theorem not_rewritten (h : Complete gatewayImage server₀ m₀ m) {outputs : Gateway.Outputs}
    (hderives : Derives gatewayImage server₀ m₀ outputs) {s : Step} (hs : s ∈ steps outputs)
    (hsame : m.objects.get? s.key = m₀.objects.get? s.key) : ¬ Rewritten m₀ m' s := by
  obtain ⟨outputs', hderives', hsettled⟩ := h.settled
  obtain rfl := hderives.unique hderives'
  exact fun hrewritten => hrewritten.1 ((Upsert.settled_congr hsame).1 (hsettled s hs))

theorem read_others (h : Complete gatewayImage server₀ m₀ m) (h' : Complete gatewayImage server₀ m₀ m')
    {key : Key} (hkey : Key.of .server server₀ ≠ key) :
    (m.read key).map (Option.map key.kind.timeless) = (m'.read key).map (Option.map key.kind.timeless) := by
  rcases h.others key hkey with hsame | ⟨outputs, hderives, s, hs, rfl, hrewritten⟩
  · rcases h'.others key hkey with hsame' | ⟨outputs, hderives, s, hs, rfl, hrewritten⟩
    · rw [Memory.read_congr (hsame.trans hsame'.symm)]
    · exact absurd hrewritten (h.not_rewritten hderives hs hsame)
  · rcases h'.others s.key hkey with hsame' | ⟨outputs', hderives', t, ht, heq, hrewritten'⟩
    · exact absurd hrewritten (h'.not_rewritten hderives hs hsame')
    · obtain rfl := hderives.unique hderives'
      obtain rfl := hderives.step_unique ht hs heq
      rw [hrewritten.read, hrewritten'.read]

theorem alike (h : Complete gatewayImage server₀ m₀ m) (h' : Complete gatewayImage server₀ m₀ m') :
    m.Alike m' := by
  intro key
  by_cases hkey : Key.of .server server₀ = key
  · subst hkey
    obtain ⟨server, deployment, hlive, hkin, hread, hstatus⟩ := h.status
    obtain ⟨server', deployment', hlive', hkin', hread', hstatus'⟩ := h'.status
    -- The status tells of the deployment, which is the same both ways, up to its version.
    have hne : Key.of .server server₀ ≠
      ⟨.deployment, (Key.of .server server₀).ns, (Key.of .server server₀).name⟩ := by
      intro h
      cases congrArg Key.kind h
    have hreads := h.read_others h' hne
    rw [hread, hread'] at hreads
    have hdeployment : Kind.deployment.timeless deployment = Kind.deployment.timeless deployment' :=
      Option.some.inj (Except.ok.inj hreads)
    rw [← Readiness.of_timeless, hdeployment, Readiness.of_timeless, ← hstatus'] at hstatus
    have hserver : Kind.server.timeless server = Kind.server.timeless server' := by
      rw [hkin.timeless, hkin'.timeless, hstatus]
    rw [hlive.read, hlive'.read]
    exact congrArg (fun s => Except.ok (some s)) hserver
  · exact h.read_others h' hkey

end Complete

theorem name_of_nameOf {trigger : McpServer} {name : String} (h : nameOf trigger = .ok name) :
    (Key.of .server trigger).name = name := by
  rw [nameOf] at h
  split at h
  · cases h
  · cases h
  · rename_i hname _
    split at h
    · cases h
      change (trigger.metadata.name.or _).getD "" = name
      rw [hname]
      rfl
    · cases h

theorem objects_attempt_of_none (gatewayImage : String) (a : Attempt)
    (h : m.objects.get? (Key.of .server a.trigger) = none) :
    (attempt gatewayImage m a).2.objects = m.objects := by
  have hread : (m.withFaults a.faults).read (Key.of .server a.trigger) = .ok none := by
    rw [Memory.read]
    exact h ▸ rfl
  rw [attempt]
  cases hname : nameOf a.trigger with
  | error e => rw [run_reconcile_of_rejected hname]; rfl
  | ok name =>
      by_cases hreads : Kind.server ∈ (m.withFaults a.faults).failingReads
      · rw [run_reconcile_of_failing hname hreads]
        rfl
      · rw [run_reconcile_of_none hname hreads hread]
        rfl

theorem sound_attempt (hm : m.Sound) (gatewayImage : String) (a : Attempt) :
    (attempt gatewayImage m a).2.Sound :=
  (hm.withFaults a.faults).grow (Memory.grows_run _ _)

theorem sound_attempts (hm : m.Sound) (gatewayImage : String) (l : List Attempt) :
    (attempts gatewayImage m l).Sound := by
  induction l generalizing m with
  | nil => exact hm
  | cons a rest ih => exact ih (sound_attempt hm gatewayImage a)

theorem objects_attempts_of_none (gatewayImage : String) {key : Key} (h : m.objects.get? key = none)
    {l : List Attempt} (hl : ∀ a ∈ l, Key.of .server a.trigger = key) :
    (attempts gatewayImage m l).objects = m.objects := by
  induction l generalizing m with
  | nil => rfl
  | cons a rest ih =>
      rw [List.forall_mem_cons] at hl
      have hobjects := objects_attempt_of_none gatewayImage a (hl.1 ▸ h)
      exact (ih (hobjects ▸ h) hl.2).trans hobjects

theorem Underway.succeeds (h : Underway gatewayImage server₀ m₀ m) (hm : m.Sound) {a : Attempt}
    (hkey : Key.of .server a.trigger = Key.of .server server₀) (hfaults : a.faults = .none) {name : String}
    (hname : nameOf a.trigger = .ok name) (hvalid : server₀.spec.validate name = .ok ())
    {outputs : Gateway.Outputs} (hderives : Derives gatewayImage server₀ m₀ outputs) :
    (attempt gatewayImage m a).1 = .ok () := by
  obtain ⟨server, hlive, hkin⟩ := h.server
  have hread := (Memory.read_of_key_eq m hkey).trans hlive.read
  have hdesign := hkin.design
  have hderive : (Gateway.derive gatewayImage server).run Memory.answer (m.withFaults .none) =
      (.ok outputs, m.withFaults .none) := by
    apply Gateway.run_derive_of_ok hdesign.spec hdesign.key hdesign.owner hderives
    intro key hkey
    refine .inl ?_
    rw [Memory.get_withFaults_none, Memory.get_withFaults_none, Memory.read_congr (h.secrets hkey)]
  obtain ⟨m', hrun⟩ := run_reconcile_succeeds a.now (hm.withFaults .none) rfl rfl rfl hname hread
    (hkin.spec ▸ hvalid) hderive
  rw [attempt, hfaults, hrun]

theorem Underway.after_attempts (h : Underway gatewayImage server₀ m₀ m) (hm : m.Sound) {l : List Attempt}
    (hl : ∀ a ∈ l, Key.of .server a.trigger = Key.of .server server₀) :
    Underway gatewayImage server₀ m₀ (attempts gatewayImage m l) := by
  induction l generalizing m with
  | nil => exact h
  | cons a rest ih =>
      rw [List.forall_mem_cons] at hl
      exact ih (h.after_attempt hm a hl.1) (sound_attempt hm gatewayImage a) hl.2

end Pass

/-- However many passes failed before it, a pass that succeeds leaves what a single pass over the first
store, without faults, leaves as well. -/
theorem reconcile_recovers {m : Memory} (hm : m.Reachable) (gatewayImage : String) (before : List Attempt)
    (last : Attempt) (now : Instant) (trigger : McpServer)
    (hbefore : ∀ a ∈ before, Key.of .server a.trigger = Key.of .server trigger)
    (hlast : Key.of .server last.trigger = Key.of .server trigger)
    (haccepted : ∃ name, Pass.nameOf trigger = .ok name)
    (hok : (attempt gatewayImage (attempts gatewayImage m before) last).1 = .ok ()) :
    (attempt gatewayImage m ⟨.none, now, trigger⟩).1 = .ok () ∧
      (attempt gatewayImage (attempts gatewayImage m before) last).2.Alike
        (attempt gatewayImage m ⟨.none, now, trigger⟩).2 := by
  have hsound := hm.sound
  obtain ⟨name, hname⟩ := haccepted
  rcases hsound.read_of .server trigger with ⟨hnone, hread⟩ | ⟨server, hlive, -⟩
  · have hbetween := Pass.objects_attempts_of_none gatewayImage hnone hbefore
    have hafter := Pass.objects_attempt_of_none gatewayImage last (hbetween ▸ hlast ▸ hnone)
    have hsingle : attempt gatewayImage m ⟨.none, now, trigger⟩ = (.ok (), m.withFaults .none) :=
      Pass.run_reconcile_of_none hname List.not_mem_nil hread
    rw [hsingle]
    exact ⟨rfl, .of_objects (hafter.trans hbetween)⟩
  · have hserver : Key.of .server server = Key.of .server trigger := hlive.key_eq
    rw [← hserver] at hlast
    have hfirst := Pass.Underway.refl gatewayImage hlive.self
    have hunderway := hfirst.after_attempts hsound (hserver ▸ hbefore)
    obtain ⟨hcomplete, name', hname', hvalid⟩ :=
      hunderway.complete (Pass.sound_attempts hsound gatewayImage before) hlast hok
    obtain ⟨outputs, hderives, -⟩ := hcomplete.settled
    have hnames : name' = name := by
      rw [← Pass.name_of_nameOf hname, ← Pass.name_of_nameOf hname', hlast, hserver]
    have hsingle : (attempt gatewayImage m ⟨.none, now, trigger⟩).1 = .ok () :=
      hfirst.succeeds hsound hserver.symm rfl hname (hnames ▸ hvalid) hderives
    obtain ⟨hcomplete', -⟩ := hfirst.complete hsound hserver.symm hsingle
    exact ⟨hsingle, hcomplete.alike hcomplete'⟩

def failedAttempts : List Attempt :=
  [⟨⟨[], [.service], [.deployment], 0⟩, .epoch, Pass.echoServer⟩, ⟨⟨[], [], [], 1⟩, .epoch, Pass.echoServer⟩]

theorem reconcile_recovers_echo :
    (attempt Gateway.defaultImage (attempts Gateway.defaultImage Pass.echoStore failedAttempts)
      ⟨.none, .epoch, Pass.echoServer⟩).1 = .ok () ∧
    (attempt Gateway.defaultImage (attempts Gateway.defaultImage Pass.echoStore failedAttempts)
      ⟨.none, .epoch, Pass.echoServer⟩).2.Alike
        (attempt Gateway.defaultImage Pass.echoStore ⟨.none, .epoch, Pass.echoServer⟩).2 := by
  have hsound := Pass.reachable_echoStore.sound
  obtain ⟨outputs, hderives⟩ := Pass.derive_storedEcho (Pass.echoStore.withFaults .none)
  have hkeys : ∀ a ∈ failedAttempts, Key.of .server a.trigger = Key.of .server Pass.echoServer := by
    simp [failedAttempts]
  have hfirst := Pass.Underway.refl Gateway.defaultImage Pass.holds_echoStore.self
  have hok : (attempt Gateway.defaultImage (attempts Gateway.defaultImage Pass.echoStore failedAttempts)
      ⟨.none, .epoch, Pass.echoServer⟩).1 = .ok () :=
    (hfirst.after_attempts hsound hkeys).succeeds (Pass.sound_attempts hsound _ _) rfl rfl
      Pass.nameOf_echoServer Pass.validate_storedEcho hderives
  exact ⟨hok, (reconcile_recovers Pass.reachable_echoStore Gateway.defaultImage failedAttempts _ .epoch
    Pass.echoServer hkeys rfl ⟨_, Pass.nameOf_echoServer⟩ hok).2⟩

end McpOperator
