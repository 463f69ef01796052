import McpOperator.Proofs.Reconcile.Pass
import McpOperator.Proofs.Store.Interleaving

namespace McpOperator

def Seen.Version (seen : Seen) (key : Key) (version : Option String) : Prop :=
  ∃ live, seen key = some live ∧ version = key.kind.resourceVersion live

namespace Call

/-- A write that goes over what has been seen. -/
def Based (seen : Seen) : Call → Prop
  | get _ | create _ _ => True
  | replace kind o => seen.Version (Key.of kind o) (kind.resourceVersion o)
  | replaceStatus server => seen.Version (Key.of .server server) server.metadata.resourceVersion

def OfStatus : Call → Prop
  | get _ | create _ _ | replace _ _ => False
  | replaceStatus _ => True

end Call

/-- A write that succeeds has gone over nothing, or over what was read last of its key. -/
def Call.Lossless (past : List Event) (store : Memory) : Call → Prop
  | get _ => True
  | create kind o =>
      (∃ p, (store.create kind o).1 = .ok p) → store.objects.get? (Key.of kind o) = none
  | replace kind o =>
      (∃ p, (store.replace kind o).1 = .ok p) →
        ∃ live, lastGot past (Key.of kind o) = some live ∧ store.Holds (Key.of kind o) live
  | replaceStatus server =>
      (∃ p, (store.replaceStatus server).1 = .ok p) →
        ∃ live, lastGot past (Key.of .server server) = some live ∧ store.Holds (Key.of .server server) live

theorem Seen.Version.seen {seen : Seen} {m : Memory} {key : Key} {version : Option String}
    (h : seen.Version key version) (hseen : seen.Recalls m) {live : key.kind.Object}
    (hlive : m.Holds key live) (hversion : key.kind.resourceVersion live = version) :
    seen key = some live := by
  obtain ⟨old, hold, rfl⟩ := h
  obtain ⟨m₀, hsound, hheld, hgrows⟩ := hseen key old hold
  obtain rfl := hgrows.holds_eq hsound hheld hlive hversion
  exact hold

theorem Call.Based.lossless {past : List Event} {store : Memory} {c : Call} (h : c.Based (lastGot past))
    (hm : store.Sound) (hpast : (lastGot past).Recalls store) : c.Lossless past store := by
  cases c with
  | get key => trivial
  | create kind o =>
      rintro ⟨p, hp⟩
      exact Memory.create_ok hp
  | replace kind o =>
      rintro ⟨p, hp⟩
      obtain ⟨live, hlive, hversion⟩ := Memory.replace_ok hm hp
      exact ⟨live, Seen.Version.seen h hpast hlive hversion, hlive⟩
  | replaceStatus server =>
      rintro ⟨p, hp⟩
      obtain ⟨-, live, hlive, hversion⟩ := Memory.replaceStatus_ok hm hp
      exact ⟨live, Seen.Version.seen h hpast hlive hversion, hlive⟩

/-- Work on other objects than servers, based on what it has seen. -/
def Work.Aside {α : Type} (w : Work α) : Prop :=
  ∀ seen, w.Ensures (fun seen c => c.Based seen ∧ ¬ c.OfStatus)
    (fun seen' _ => ∀ key : Key, key.kind = .server → seen' key = seen key) seen

namespace Work.Aside

variable {α β : Type}

theorem done (a : α) : (Work.done a).Aside := fun _ _ _ => rfl

theorem bind {w : Work α} {f : α → Work β} (h : w.Aside) (hf : ∀ a, (f a).Aside) : (w.bind f).Aside := by
  intro seen
  apply (h seen).bind
  intro seen' a hseen'
  apply (hf a seen').mono (fun _ _ hcall => hcall)
  intro seen'' b hseen'' key hkey
  rw [hseen'' key hkey, hseen' key hkey]

theorem get {key : Key} {next : (Call.get key).Answer → Work α} (hkey : key.kind ≠ .server)
    (h : ∀ (seen : Seen) (m : Memory), seen key = (m.get key).toOption.join → (next (m.get key)).Ensures
      (fun seen c => c.Based seen ∧ ¬ c.OfStatus)
      (fun seen' _ => ∀ key : Key, key.kind = .server → seen' key = seen key) seen) :
    (Work.call (.get key) next).Aside := by
  intro seen
  constructor
  · exact ⟨trivial, id⟩
  · intro m _
    apply (h _ m (Function.update_self _ _ _)).mono (fun _ _ hcall => hcall)
    intro seen' a hseen' server hserver
    rw [hseen' server hserver]
    refine Function.update_of_ne ?_ _ _
    rintro rfl
    exact hkey hserver

end Work.Aside

namespace Pass

theorem aside_attempt {kind : Kind} (hkind : kind ≠ .server) (d : kind.Object) (hash : String) :
    (Upsert.attempt kind d hash).Aside := by
  apply Work.Aside.get hkind
  intro seen m hseen
  cases hget : m.get (Key.of kind d) with
  | error e => exact fun _ _ => rfl
  | ok found =>
      cases found with
      | none =>
          constructor
          · exact ⟨trivial, id⟩
          · intro m' _
            cases (Memory.answer (.create kind d) m').1 <;> exact fun _ _ => rfl
      | some live =>
          rw [hget] at hseen
          have hversion : seen.Version (Key.of kind d) (kind.resourceVersion live) := ⟨live, hseen, rfl⟩
          dsimp only
          split
          · exact fun _ _ => rfl
          · constructor
            · refine ⟨?_, id⟩
              rw [Call.Based, Key.of_withResourceVersion, Kind.resourceVersion_withResourceVersion]
              exact hversion
            · intro m' _
              cases (Memory.answer (.replace kind _) m').1 <;> exact fun _ _ => rfl

theorem aside_upsert {kind : Kind} (hkind : kind ≠ .server) (o : kind.Object) : (upsert kind o).Aside := by
  apply (aside_attempt hkind _ _).bind
  intro r
  cases r with
  | ok outcome => exact .done _
  | error e =>
      cases e with
      | alreadyExists => exact aside_attempt hkind _ _
      | conflict | timeout | missingResourceVersion | api | transport | request | unreadable | serialization =>
          exact .done _

theorem aside_applyAll {l : List Step} (hl : ∀ s ∈ l, s.kind ≠ .server) : (applyAll l).Aside := by
  induction l with
  | nil => exact .done _
  | cons s rest ih =>
      rw [List.forall_mem_cons] at hl
      have hone : (applyOne s.step s.kind s.object).Aside := by
        apply (aside_upsert hl.1 s.object).bind
        intro r
        cases r <;> exact .done _
      apply hone.bind
      intro r
      cases r with
      | error e => exact .done _
      | ok => exact ih hl.2

theorem aside_apply (o : Gateway.Outputs) : (apply o).Aside := by
  rw [apply_eq]
  apply aside_applyAll
  simp [steps]

theorem aside_derive (gatewayImage : String) (server : McpServer) :
    (Gateway.derive gatewayImage server).Aside := by
  rw [Gateway.derive]
  cases Gateway.Plan.of gatewayImage server with
  | error e => exact .done _
  | ok plan =>
      apply Work.Aside.bind
      · rw [Gateway.resolveJwks]
        split
        · exact .done _
        · split
          · refine Work.Aside.get ?_ ?_
            · intro hkind
              cases hkind
            · intro seen m _ key _
              rfl
          · split <;> exact .done _
      · intro jwks
        cases jwks <;> exact .done _

theorem aside_evaluate (gatewayImage : String) (key : Key) (name : String) (server : McpServer) :
    (evaluate gatewayImage key name server).Aside := by
  rw [evaluate]
  cases server.spec.validate name with
  | error e => exact .done _
  | ok =>
      apply (aside_derive gatewayImage server).bind
      intro r
      cases r with
      | error e => exact .done _
      | ok outputs =>
          apply (aside_apply outputs).bind
          intro r
          cases r with
          | error e => exact .done _
          | ok =>
              refine Work.Aside.bind ?_ fun readiness => .done _
              refine Work.Aside.get ?_ ?_
              · intro hkind
                cases hkind
              · intro seen m _ key _
                rfl

variable {gatewayImage : String} {key : Key} {name : String} {server trigger : McpServer} {now : Instant}
  {seen : Seen} {report : Report}

theorem ensures_persist (h : seen.Version (Key.of .server server) server.metadata.resourceVersion) :
    (persist now server report).Ensures (fun seen c => c.Based seen) (fun _ _ => True) seen := by
  rw [persist]
  split
  · trivial
  · constructor
    · exact h
    · intro m _
      cases (Memory.answer (.replaceStatus _) m).1 <;> trivial

/-- Whatever others do, a pass writes over nothing but what it has seen. -/
theorem ensures_reconcile (gatewayImage : String) (now : Instant) (trigger : McpServer) (seen : Seen) :
    (reconcile gatewayImage now trigger).Ensures (fun seen c => c.Based seen) (fun _ _ => True) seen := by
  rw [reconcile]
  cases nameOf trigger with
  | error e => trivial
  | ok name =>
      constructor
      · trivial
      intro m hm
      have hseen : Event.see seen (.own m (.get (Key.of .server trigger))) (Key.of .server trigger) =
          (m.get (Key.of .server trigger)).toOption.join := Function.update_self _ _ _
      revert hseen
      generalize Event.see seen (.own m (.get (Key.of .server trigger))) = seen
      intro hseen
      change Work.Ensures _ _ (afterFetch _ _ _ _ (m.get (Key.of .server trigger))) _
      cases hget : m.get (Key.of .server trigger) with
      | error e => trivial
      | ok found =>
          cases found with
          | none => trivial
          | some server =>
              rw [hget] at hseen
              have hread : m.read (Key.of .server trigger) = .ok (some server) :=
                Memory.read_of_get (by rw [hget]; rfl)
              have hserver : Key.of .server server = Key.of .server trigger := (hm.holds hread).key_eq
              have hevaluate := (aside_evaluate gatewayImage (Key.of .server trigger) name server seen).mono
                (fun _ _ h => h.1) fun _ _ h => h
              apply hevaluate.bind
              -- The evaluation has read no server, so the fetched one is what has been seen last.
              rintro seen' ⟨report, failure⟩ hseen'
              have hversion : seen'.Version (Key.of .server server) server.metadata.resourceVersion := by
                rw [hserver]
                exact ⟨server, (hseen' _ rfl).trans hseen, rfl⟩
              apply (ensures_persist hversion).bind
              intro seen'' r _
              cases r with
              | error e => trivial
              | ok => cases failure <;> trivial

variable {m m' store : Memory} {past rest : List Event} {written : McpServer} {r : Except PassError Unit}

theorem own_persist {failure : Option PassError} (h : Interleaved
    ((persist now server report).bind fun r => .done (ending failure r)) m
    (past ++ .own store (.replaceStatus written) :: rest) r m') :
    Interleaved (.done ()) m past () store ∧
      written = { server with status := some (ServerStatus.after now server report) } ∧
      r = ending failure ((store.replaceStatus written).1.map fun _ => ()) := by
  rw [persist_eq] at h
  split at h
  · exact absurd h Interleaved.not_own_of_done
  · simp only [Work.bind] at h
    obtain ⟨others, m₁, hothers, ⟨rfl, rfl, hcall, hrest⟩ | ⟨past', rfl, hrest⟩⟩ := h.own_of_call
    · cases hcall
      exact ⟨hothers, rfl, hrest.eq_of_done⟩
    · exact absurd hrest Interleaved.not_own_of_done

theorem own_afterFetch (hm : m.Sound) (h : Interleaved
    (afterFetch gatewayImage now key name (.ok (some server))) m
    (past ++ .own store (.replaceStatus written) :: rest) r m') :
    ∃ report failure,
      Interleaved (evaluate gatewayImage key name server) m past (report, failure) store ∧
      written = { server with status := some (ServerStatus.after now server report) } ∧
      r = ending failure ((store.replaceStatus written).1.map fun _ => ()) := by
  rw [afterFetch_eq] at h
  rcases h.own_of_bind with ⟨rest', a, m₁, hevaluate⟩ |
    ⟨⟨report, failure⟩, m₁, between, others, rfl, hevaluate, hpersist⟩
  · have hcalls := ((aside_evaluate gatewayImage key name server fun _ => none).interleaved hm hevaluate).1
    exact absurd trivial (hcalls _ _ _ _ rfl).2
  · obtain ⟨hothers, hwritten, hr⟩ := own_persist hpersist
    exact ⟨report, failure, hevaluate.append hothers, hwritten, hr⟩

/-- A pass that writes a status has fetched the server before and has evaluated what it fetched. -/
theorem own_replaceStatus (hm : m.Sound) (h : Interleaved (reconcile gatewayImage now trigger) m
    (past ++ .own store (.replaceStatus written) :: rest) r m') :
    ∃ name before fetched server between report failure, nameOf trigger = .ok name ∧
      past = before ++ .own fetched (.get (Key.of .server trigger)) :: between ∧
      fetched.get (Key.of .server trigger) = .ok (some server) ∧
      Interleaved (evaluate gatewayImage (Key.of .server trigger) name server) fetched between
        (report, failure) store ∧
      written = { server with status := some (ServerStatus.after now server report) } ∧
      r = ending failure ((store.replaceStatus written).1.map fun _ => ()) := by
  rw [reconcile] at h
  cases hname : nameOf trigger with
  | error e =>
      rw [hname] at h
      exact absurd h Interleaved.not_own_of_done
  | ok name =>
      rw [hname] at h
      obtain ⟨before, fetched, hbefore, ⟨-, -, hcall, -⟩ | ⟨past', rfl, hafter⟩⟩ := h.own_of_call
      · cases hcall
      change Interleaved (afterFetch _ _ _ _ (fetched.get (Key.of .server trigger))) _ _ _ _ at hafter
      have hfetched : fetched.Sound := hm.grow hbefore.chain.grows
      cases hget : fetched.get (Key.of .server trigger) with
      | error e =>
          rw [hget] at hafter
          exact absurd hafter Interleaved.not_own_of_done
      | ok found =>
          rw [hget] at hafter
          cases found with
          | none => exact absurd hafter Interleaved.not_own_of_done
          | some server =>
              obtain ⟨report, failure, hevaluate, hwritten, hr⟩ := own_afterFetch hfetched hafter
              exact ⟨name, before, fetched, server, past', report, failure, rfl, rfl, hget, hevaluate,
                hwritten, hr⟩

/-- The write of a status that was computed from a server, since it was fetched. Where it succeeds, it
is that server still that is stored, and nothing but its status changes. Where the server has been
rewritten since, the pass ends in a conflict. -/
structure StatusWrite (gatewayImage : String) (now : Instant) (trigger : McpServer) (name : String)
    (fetched : Memory) (server : McpServer) (between : List Event) (store : Memory) (written : McpServer)
    (r : Except PassError Unit) : Prop where
  fetch : fetched.get (Key.of .server trigger) = .ok (some server)
  computed : ∃ report failure,
    Interleaved (evaluate gatewayImage (Key.of .server trigger) name server) fetched between
      (report, failure) store ∧
    written = { server with status := some (ServerStatus.after now server report) } ∧
    ∀ p m', store.replaceStatus written = (.ok p, m') →
      store.Holds (Key.of .server trigger) server ∧ Finished now report server store m' ∧
        r = verdict failure
  conflict : (∃ e ∈ between, e.Rewrites (Key.of .server trigger)) →
    r = .error (.store (.conflict (Key.of .server trigger).display))

theorem finished_of_replaceStatus {fetched : Memory} (hfetched : fetched.Sound)
    (hlive : fetched.Holds (Key.of .server server) server) (hgrows : fetched.Grows store) {p : McpServer}
    (h : store.replaceStatus { server with status := some (ServerStatus.after now server report) } =
      (.ok p, m')) : store.Holds (Key.of .server server) server ∧ Finished now report server store m' := by
  obtain ⟨hconflicts, live, hheld, hversion⟩ :=
    Memory.replaceStatus_ok (hfetched.grow hgrows) (congrArg Prod.fst h)
  obtain rfl : live = server := hgrows.holds_eq hfetched hlive hheld hversion
  have hheld : store.Holds (Key.of .server live) live := hheld
  obtain ⟨q, m'', hrun, hstored⟩ := replaceStatus_of_holds hheld hconflicts
    (some (ServerStatus.after now live report))
  rw [h] at hrun
  cases hrun
  exact ⟨hheld, finished_of_stored hheld hstored⟩

theorem replaceStatus_of_rewritten {fetched : Memory} (hfetched : fetched.Sound)
    (hlive : fetched.Holds (Key.of .server server) server) {between : List Event}
    (hchain : Chain fetched between store) {e : Event} (he : e ∈ between)
    (hrewrites : e.Rewrites (Key.of .server server)) (status : Option ServerStatus) :
    (store.replaceStatus { server with status }).1 =
      .error (.conflict (Key.of .server server).display) := by
  obtain ⟨past, rest, rfl⟩ := List.append_of_mem he
  obtain ⟨hpast, hrest⟩ := hchain.split
  obtain ⟨json, hjson, hversion⟩ :=
    Memory.Grows.version_ne hfetched hpast.grows e.grows hrest.grows hrewrites hlive.objects
  have hstore : store.Sound := hfetched.grow hchain.grows
  rcases hstore.read_of .server server with ⟨hnone, -⟩ | ⟨live, hheld, -⟩
  · rw [hnone] at hjson
    cases hjson
  · rw [hheld.objects] at hjson
    cases hjson
    have hne : live.metadata.resourceVersion ≠ server.metadata.resourceVersion := by
      intro heq
      apply hversion
      exact (@Kind.versionOf_encode .server live).trans
        (heq.trans (@Kind.versionOf_encode .server server).symm)
    have hheld' : store.Holds (Key.of .server { server with status }) live := hheld
    rw [Memory.replaceStatus_eq hheld', if_neg hne]
    split <;> rfl

end Pass

/-- However others interleave with a pass, none of its writes goes over anything that it has not read,
and its status belongs to the server that it is written to. -/
theorem reconcile_loses_nothing {m m' : Memory} (hm : m.Reachable) (gatewayImage : String) (now : Instant)
    (trigger : McpServer) {past rest : List Event} {store : Memory} {call : Call}
    {r : Except PassError Unit} (h : Interleaved (reconcile gatewayImage now trigger) m
      (past ++ .own store call :: rest) r m') :
    call.Lossless past store ∧
      ∀ written, call = .replaceStatus written → ∃ name before fetched server between,
        Pass.nameOf trigger = .ok name ∧
        past = before ++ .own fetched (.get (Key.of .server trigger)) :: between ∧
        Pass.StatusWrite gatewayImage now trigger name fetched server between store written r := by
  have hsound := hm.sound
  obtain ⟨hpast, -⟩ := h.chain.split
  constructor
  · have hcalls := ((Pass.ensures_reconcile gatewayImage now trigger fun _ => none).interleaved hsound h).1
    have hrecalls : (lastGot past).Recalls store := Seen.Recalls.chain hsound (by intro _ _ h; cases h) hpast
    exact (hcalls past store call rest rfl).lossless (hsound.grow hpast.grows) hrecalls
  · rintro written rfl
    obtain ⟨name, before, fetched, server, between, report, failure, hname, rfl, hget, hevaluate, rfl, rfl⟩ :=
      Pass.own_replaceStatus hsound h
    obtain ⟨hbefore, -⟩ := hpast.split
    have hfetched : fetched.Sound := hsound.grow hbefore.grows
    have hlive := hfetched.holds (Memory.read_of_get (by rw [hget]; rfl))
    have hserver : Key.of .server server = Key.of .server trigger := hlive.key_eq
    refine ⟨name, before, fetched, server, between, hname, rfl, hget,
      ⟨report, failure, hevaluate, rfl, ?_⟩, ?_⟩
    · intro p m' hwrite
      obtain ⟨hheld, hfinished⟩ :=
        Pass.finished_of_replaceStatus hfetched hlive.self hevaluate.chain.grows hwrite
      refine ⟨?_, hfinished, ?_⟩
      · exact hheld.of_key_eq hserver
      · rw [hwrite]
        rfl
    · rintro ⟨e, he, hrewrites⟩
      rw [← hserver] at hrewrites
      rw [Pass.replaceStatus_of_rewritten hfetched hlive.self hevaluate.chain he hrewrites, hserver]
      rfl

namespace Pass

def strangeServer : McpServer :=
  { echoServer with spec := { echoServer.spec with transportType := some .unsupported } }

def strangeStore : Memory := Memory.empty.seed .server strangeServer

def storedStrange : McpServer := Kind.server.withResourceVersion strangeServer (some "1")

def strangePast : List Event :=
  [.own strangeStore (.get (Key.of .server strangeServer)), .other strangeStore (.seed .server strangeServer)]

def strangeStatus : McpServer :=
  { storedStrange with
    status := some (ServerStatus.after .epoch storedStrange (.invalid .unsupportedTransport)) }

def strangeMoment : Memory := strangeStore.seed .server strangeServer

theorem nameOf_strangeServer : nameOf strangeServer = .ok "echo" := by decide

theorem holds_strangeStore : strangeStore.Holds (Key.of .server strangeServer) storedStrange :=
  ⟨Memory.get?_write_self .empty .server strangeServer, rfl, rfl⟩

theorem afterFetch_storedStrange :
    afterFetch Gateway.defaultImage .epoch (Key.of .server strangeServer) "echo" (.ok (some storedStrange)) =
      .call (.replaceStatus strangeStatus) fun answer =>
        .done (ending (some (.invalid .unsupportedTransport)) (answer.map fun _ => ())) := by
  have hinvalid : storedStrange.spec.validate "echo" = .error .unsupportedTransport := by decide
  rw [afterFetch_eq, evaluate, hinvalid]
  change (persist _ _ _).bind _ = _
  rw [persist_eq, if_neg (by intro h; cases h)]
  rfl

theorem interleaved_strange : Interleaved (reconcile Gateway.defaultImage .epoch strangeServer)
    strangeStore (strangePast ++ .own strangeMoment (.replaceStatus strangeStatus) :: [])
    (ending (some (.invalid .unsupportedTransport))
      ((strangeMoment.replaceStatus strangeStatus).1.map fun _ => ()))
    (strangeMoment.replaceStatus strangeStatus).2 := by
  have hget : strangeStore.get (Key.of .server strangeServer) = .ok (some storedStrange) :=
    Memory.get_of_read List.not_mem_nil holds_strangeStore.read
  rw [reconcile, nameOf_strangeServer]
  apply Interleaved.own
  change Interleaved (afterFetch _ _ _ _ (strangeStore.get (Key.of .server strangeServer))) _ _ _ _
  rw [hget]
  change Interleaved (afterFetch _ _ (Key.of .server strangeServer) _ (.ok (some storedStrange))) _ _ _ _
  rw [afterFetch_storedStrange]
  exact .other _ (.own (.done _ _))

end Pass

theorem reconcile_loses_nothing_strange : ∃ r m',
    Interleaved (reconcile Gateway.defaultImage .epoch Pass.strangeServer) Pass.strangeStore
      (Pass.strangePast ++ .own Pass.strangeMoment (.replaceStatus Pass.strangeStatus) :: []) r m' ∧
    (Call.replaceStatus Pass.strangeStatus).Lossless Pass.strangePast Pass.strangeMoment ∧
    r = .error (.store (.conflict "default.echo")) := by
  have hreachable : Pass.strangeStore.Reachable := .act (.seed .server Pass.strangeServer) .empty
  obtain ⟨hlossless, hstatus⟩ := reconcile_loses_nothing hreachable Gateway.defaultImage .epoch
    Pass.strangeServer Pass.interleaved_strange
  obtain ⟨name, before, fetched, server, between, -, hpast, hwrite⟩ := hstatus _ rfl
  refine ⟨_, _, Pass.interleaved_strange, hlossless, hwrite.conflict ⟨_, ?_,
    Event.rewrites_seed hreachable.sound .server Pass.strangeServer⟩⟩
  -- The fetch is the first event of the past, so what is written anew comes after it.
  rw [Pass.strangePast] at hpast
  cases before with
  | nil =>
      cases hpast
      exact List.mem_cons_self
  | cons e before =>
      rw [List.cons_append, List.cons.injEq] at hpast
      cases before with
      | nil => cases hpast.2
      | cons f before => cases before <;> cases hpast.2

end McpOperator
