import McpOperator.Proofs.Cluster.Evaluation
import McpOperator.Proofs.Cluster.StandIn
import McpOperator.Proofs.Reconcile.LostUpdate

namespace McpOperator

open Cluster (Addressable ApiServer Contents Corresponds IsManager Linkage Request Tied)

namespace Pass

def reported (now : Instant) (server : McpServer) (report : Report) : McpServer :=
  { server with status := some (ServerStatus.after now server report) }

/-- The outcome of the write when the server is no longer the one that was read. -/
inductive TooLate (current : Option ServerStatus) (status : ServerStatus) : Except StoreError Unit → Prop
  | needless (h : current = some status) : TooLate current status (.ok ())
  | conflict (h : current ≠ some status) (what : String) :
      TooLate current status (.error (.conflict what))

section

variable {now : Instant} {server server' : McpServer} {report report' : Report}

theorem reported_self (h : server.status = some (ServerStatus.after now server report)) :
    reported now server report = server := by
  rw [reported, ← h]

theorem unversioned_reported (hsame : Kind.server.unversioned server' = Kind.server.unversioned server) :
    Kind.server.unversioned (McpServer.wholeSeconds (reported now server' report)) =
      Kind.server.unversioned (McpServer.wholeSeconds (reported now server report)) := by
  have hset : Kind.server.unversioned (reported now server' report) =
      Kind.server.unversioned (reported now server report) := by
    rw [reported, after_congr hsame]
    exact congrArg (fun s : McpServer => { s with status := some (ServerStatus.after now server report) })
      hsame
  exact Kind.unversioned_wholeSeconds hset

theorem wordless_reported (h : (ServerStatus.after now server report).unworded =
      (ServerStatus.after now server report').unworded) :
    wordless (Key.of .server server) (Key.of .server server)
        (Kind.server.unversioned (McpServer.wholeSeconds (reported now server report))) =
      wordless (Key.of .server server) (Key.of .server server)
        (Kind.server.unversioned (McpServer.wholeSeconds (reported now server report'))) := by
  have hstatus : (ServerStatus.after now server report).wholeSeconds.unworded =
      (ServerStatus.after now server report').wholeSeconds.unworded := by
    rw [ServerStatus.unworded_wholeSeconds, h, ServerStatus.unworded_wholeSeconds]
  have hself := fun report => wordless_self (Key.of .server server)
    (Kind.server.unversioned (McpServer.wholeSeconds (reported now server report)))
  refine (hself report).trans (Eq.trans ?_ (hself report').symm)
  exact congrArg (fun s : ServerStatus =>
    ({ Kind.server.unversioned (McpServer.wholeSeconds server) with status := some s } : McpServer)) hstatus

end

section

variable {σ α : Type} (write : (kind : Kind) → kind.Object → σ → σ)
  (answer : (c : Call) → σ → c.Answer × σ) (now : Instant) (server : McpServer) (report : Report)

theorem run_persist_eq (s : σ) : (persist now server report).run answer s =
    if server.status = some (ServerStatus.after now server report) then (.ok (), s)
    else
      let (reply, s') := answer (.replaceStatus (reported now server report)) s
      (reply.map fun _ => (), s') := by
  rw [persist_eq]
  split <;> rfl

theorem runAmid_persist (f : Except StoreError Unit → α) (coming : Schedule) (s : σ) :
    Work.runAmid write answer ((persist now server report).bind fun r => .done (f r)) coming s =
      let (r, s') := (persist now server report).run answer (Work.writeAll write (coming.headD []) s)
      (f r, Work.writeAll write coming.tail.flatten s') := by
  rw [persist_eq]
  split
  · exact congrArg (Prod.mk _) (Work.writeAll_flatten write coming s)
  · rfl

end

section

variable {n : Memory} {server : McpServer} (now : Instant) (report : Report)

theorem run_persist_current (hlive : n.Holds (Key.of .server server) server) (hsound : n.Sound)
    (hfaultless : n.Faultless) :
    ∃ n', (persist now server report).run Memory.answer n = (.ok (), n') ∧ n'.Sound ∧ n'.Faultless ∧
      (∀ k, Key.of .server server ≠ k → n'.objects.get? k = n.objects.get? k) ∧
      n'.unversioned (Key.of .server server) =
        .ok (some (Kind.server.unversioned (McpServer.wholeSeconds (reported now server report)))) := by
  rw [run_persist_eq]
  split
  · rename_i hstatus
    have hwhole : McpServer.wholeSeconds server = server := hlive.whole
    refine ⟨n, rfl, hsound, hfaultless, fun _ _ => rfl, ?_⟩
    rw [reported_self hstatus, hwhole]
    exact hlive.unversioned
  · have hheld : n.Holds (Key.of .server (reported now server report)) server := hlive
    have hcurrent : server.metadata.resourceVersion =
        (reported now server report).metadata.resourceVersion := rfl
    rw [Memory.answer, hfaultless.replaceStatus hheld, if_pos hcurrent]
    refine ⟨_, rfl, hsound.grow (Memory.grows_mutate n .server _), hfaultless.mutate .server _, ?_, ?_⟩
    · exact fun k hk => Memory.get?_mutate_of_ne hk
    · have hwritten := Memory.unversioned_of_get?
        (Memory.get?_write_self n .server (reported now server report))
      rw [Kind.wholeSeconds_withResourceVersion, Kind.unversioned_withResourceVersion] at hwritten
      exact hwritten

theorem run_persist_late {live : McpServer} (hlive : n.Holds (Key.of .server server) live)
    (hfaultless : n.Faultless) (hlate : live.metadata.resourceVersion ≠ server.metadata.resourceVersion) :
    ∃ r, (persist now server report).run Memory.answer n = (r, n) ∧
      TooLate server.status (ServerStatus.after now server report) r := by
  rw [run_persist_eq]
  split
  · rename_i hstatus
    exact ⟨_, rfl, .needless hstatus⟩
  · rename_i hstatus
    have hheld : n.Holds (Key.of .server (reported now server report)) live := hlive
    have hlate : live.metadata.resourceVersion ≠
        (reported now server report).metadata.resourceVersion := hlate
    rw [Memory.answer, hfaultless.replaceStatus hheld, if_neg hlate]
    exact ⟨_, rfl, .conflict hstatus _⟩

end

section

variable {σ : Type} {api : ApiServer σ} {manager version : String} {now : Instant} {server live : McpServer}
  {report : Report} {s : σ}

theorem answers_persist {coming : Schedule} (hmanager : IsManager manager)
    (hkey : Addressable (Key.of .server server)) (hversion : server.metadata.resourceVersion = some version)
    (habides : api.Abides manager (persist now server report) (s, coming))
    (hstatus : server.status ≠ some (ServerStatus.after now server report)) :
    api.Answers manager (Work.writeAll api.write (coming.headD []) s)
      (.replaceStatus (reported now server report)) := by
  rw [persist_eq, if_neg hstatus] at habides
  obtain ⟨reply, s', hanswer, hanswers, -⟩ := habides.call
    (Cluster.ofCall_replaceStatus hmanager hversion hkey)
    (fun _ _ _ => Cluster.answers_replaceStatus hversion)
  obtain ⟨rfl, hstate⟩ := Prod.mk.inj hanswer
  obtain ⟨rfl, -⟩ := Prod.mk.inj hstate
  exact hanswers

theorem serve_persist_current
    (hanswers : server.status ≠ some (ServerStatus.after now server report) →
      api.Answers manager s (.replaceStatus (reported now server report)))
    (hfind : (api.contents s).stored? .server server = some live)
    (hcurrent : live.metadata.resourceVersion = server.metadata.resourceVersion)
    (hversion : server.metadata.resourceVersion = some version) (hissued : version ∈ (api.contents s).issued)
    (hsame : Kind.server.unversioned live = Kind.server.unversioned server)
    (hwhole : Kind.server.unversioned (McpServer.wholeSeconds server) = Kind.server.unversioned server) :
    ∃ s', (persist now server report).run (Cluster.answer manager api.send) s = (.ok (), s') ∧
      (api.contents s).issued ⊆ (api.contents s').issued ∧
      (∀ k, Key.of .server server ≠ k → (api.contents s').find? k = (api.contents s).find? k) ∧
      ∃ (p : McpServer) (version : String), (api.contents s').stored? .server server = some p ∧
        Kind.server.unversioned p =
          Kind.server.unversioned (McpServer.wholeSeconds (reported now server report)) ∧
        version ∈ (api.contents s').issued ∧ p.metadata.resourceVersion = some version := by
  rw [run_persist_eq]
  split
  · rename_i hstatus
    refine ⟨s, rfl, subset_rfl, fun _ _ => rfl, live, version, hfind, ?_, hissued, hcurrent.trans hversion⟩
    rw [reported_self hstatus, hsame, hwhole]
  · rename_i hstatus
    have hanswers := hanswers hstatus
    rw [ApiServer.Answers] at hanswers
    generalize Cluster.answer manager api.send _ s = answered at hanswers ⊢
    obtain ⟨reply, s'⟩ := answered
    have hstored : (api.contents s).stored? .server (reported now server report) = some live := hfind
    rw [Contents.Answers, hstored] at hanswers
    obtain ⟨⟨p, hreply⟩, version, hgains⟩ := Eq.mp (if_pos hcurrent) hanswers
    let stored : McpServer := { live with status := (reported now server report).status }
    have hwritten : Kind.server.unversioned stored = Kind.server.unversioned (reported now server report) :=
      congrArg (fun s : McpServer => { s with status := (reported now server report).status }) hsame
    have hkeys : Key.of .server live = Key.of .server server := Kind.key_congr hsame
    refine ⟨s', ?_, ?_, ?_,
      Kind.server.withResourceVersion stored.wholeSeconds (some version), version, ?_, ?_, ?_, ?_⟩
    · cases hreply
      rfl
    · rw [hgains.issued]
      exact Set.subset_insert _ _
    · exact fun k hk => hgains.others k (hkeys ▸ hk)
    · exact (Contents.stored?_congr hkeys.symm).trans hgains.stored
    · rw [Kind.unversioned_withResourceVersion]
      exact Kind.unversioned_wholeSeconds hwritten
    · rw [hgains.issued]
      exact Set.mem_insert _ _
    · exact Kind.resourceVersion_withResourceVersion .server _ _

theorem serve_persist_late
    (hanswers : server.status ≠ some (ServerStatus.after now server report) →
      api.Answers manager s (.replaceStatus (reported now server report)))
    (hfind : (api.contents s).stored? .server server = some live)
    (hlate : live.metadata.resourceVersion ≠ server.metadata.resourceVersion) :
    ∃ r s', (persist now server report).run (Cluster.answer manager api.send) s = (r, s') ∧
      api.contents s' = api.contents s ∧ TooLate server.status (ServerStatus.after now server report) r := by
  rw [run_persist_eq]
  split
  · rename_i hstatus
    exact ⟨_, s, rfl, rfl, .needless hstatus⟩
  · rename_i hstatus
    have hanswers := hanswers hstatus
    rw [ApiServer.Answers] at hanswers
    generalize Cluster.answer manager api.send _ s = answered at hanswers ⊢
    obtain ⟨reply, s'⟩ := answered
    have hstored : (api.contents s).stored? .server (reported now server report) = some live := hfind
    rw [Contents.Answers, hstored] at hanswers
    obtain ⟨⟨what, hreply⟩, hcontents⟩ := Eq.mp (if_neg hlate) hanswers
    cases hreply
    exact ⟨_, s', rfl, hcontents, .conflict hstatus what⟩

end

inductive Persisted (now : Instant) (server : McpServer) (report report' : Report) :
    Except StoreError Unit × Memory → Except StoreError Unit × Contents → Prop
  | made {n : Memory} {c : Contents}
      (h : ∀ view : (key : Key) → key.kind.Object → key.kind.Object,
        view (Key.of .server server)
            (Kind.server.unversioned (McpServer.wholeSeconds (reported now server report))) =
          view (Key.of .server server)
            (Kind.server.unversioned (McpServer.wholeSeconds (reported now server report'))) →
        Corresponds view n c) : Persisted now server report report' (.ok (), n) (.ok (), c)
  | late {r r' : Except StoreError Unit} {n : Memory} {c : Contents} (h : Corresponds Cluster.plain n c)
      (hlate : TooLate server.status (ServerStatus.after now server report) r)
      (hlate' : TooLate server.status (ServerStatus.after now server report') r') :
      Persisted now server report report' (r, n) (r', c)

/-- The same end of a pass and the same objects, but for the texts of a conflict. -/
inductive Agrees (key : Key) : Except PassError Unit × Memory → Except PassError Unit × Contents → Prop
  | same (r : Except PassError Unit) {m : Memory} {c : Contents} (h : Corresponds Cluster.plain m c) :
      Agrees key (r, m) (r, c)
  | conflict (what what' : String) {m : Memory} {c : Contents} (h : Corresponds (wordless key) m c) :
      Agrees key (.error (.store (.conflict what)), m) (.error (.store (.conflict what')), c)

section

variable {σ : Type} {api : ApiServer σ} {manager gatewayImage v w : String} {ν : Linkage} {m n : Memory}
  {s : σ} {now : Instant} {server server' : McpServer} {report report' : Report}

theorem Agrees.writeAll {key : Key} {r r' : Except PassError Unit}
    (h : Agrees key (r, m) (r', api.contents s)) (l : List (Sigma Kind.Object)) :
    Agrees key (r, m.seedAll l) (r', api.contents (Work.writeAll api.write l s)) := by
  cases h with
  | same r h => exact .same r (h.writeAll l)
  | conflict what what' h => exact .conflict what what' (h.writeAll l)

theorem TooLate.ending_conflict {current : Option ServerStatus} {status : ServerStatus}
    {r : Except StoreError Unit} (h : TooLate current status r) (what : String) :
    ∃ what', ending (some (.store (.conflict what))) r = .error (.store (.conflict what')) := by
  cases h with
  | needless => exact ⟨what, rfl⟩
  | conflict _ what' => exact ⟨what', rfl⟩

theorem Persisted.agrees {r r' : Except StoreError Unit} {c : Contents} {a a' : Report × Option PassError}
    (h : Persisted now server a.1 a'.1 (r, n) (r', c)) (hend : SameEnd a a') :
    Agrees (Key.of .server server) (ending a.2 r, n) (ending a'.2 r', c) := by
  cases h with
  | made h =>
      cases hend with
      | same a => exact .same (verdict a.2) (h _ rfl)
      | conflict step what what' =>
          have hwords := ServerStatus.unworded_after now server step
            (StoreError.conflict what).message (StoreError.conflict what').message
          exact .conflict what what' (h _ (wordless_reported hwords))
  | late h hlate hlate' =>
      cases hend with
      | same a =>
          cases hlate with
          | needless hstatus =>
              cases hlate' with
              | needless => exact .same (verdict a.2) h
              | conflict hother => exact absurd hstatus hother
          | conflict hstatus what =>
              cases hlate' with
              | needless hother => exact absurd hother hstatus
              | conflict _ what' => exact .conflict what what' (h.seen _)
      | conflict step what what' =>
          obtain ⟨text, htext⟩ := hlate.ending_conflict what
          obtain ⟨text', htext'⟩ := hlate'.ending_conflict what'
          dsimp only
          rw [htext, htext']
          exact .conflict text text' (h.seen _)

/-- What is current on one side is current on the other, so the write of the status is made on both sides or
comes too late on both. -/
theorem persisted {m₀ : Memory} (hsound : m₀.Sound) (hheld : m₀.Holds (Key.of .server server) server)
    (hgrows : m₀.Grows n) (hsame : Kind.server.unversioned server' = Kind.server.unversioned server)
    (hv : server.metadata.resourceVersion = some v) (hw : server'.metadata.resourceVersion = some w)
    (h : Tied ν n (api.contents s)) (hlinked : ν (Key.of .server server) v w)
    (hanswers : server'.status ≠ some (ServerStatus.after now server' report') →
      api.Answers manager s (.replaceStatus (reported now server' report'))) :
    Persisted now server report report' ((persist now server report).run Memory.answer n)
      (Prod.map id api.contents
        ((persist now server' report').run (Cluster.answer manager api.send) s)) := by
  have hkeys : Key.of .server server' = Key.of .server server := Kind.key_congr hsame
  rcases h.find? (Key.of .server server) with
    ⟨hnone, -⟩ | ⟨live, live', v', w', hlive, hfind, hboth, hv', hw', hlinked'⟩
  · exact absurd hnone (h.known _ _ _ hlinked).2.2
  · have hcurrent : v' = v ↔ w' = w := h.unique _ _ _ _ _ hlinked' hlinked
    have hstored : (api.contents s).stored? .server server' = some live' :=
      (Contents.stored?_congr hkeys).trans hfind
    by_cases hversion : v' = v
    · -- What is held is still what was read.
      have hunchanged : live = server := hgrows.holds_eq hsound hheld hlive
        (hv'.trans ((congrArg some hversion).trans hv.symm))
      rw [hunchanged] at hlive hboth
      have hwhole : Kind.server.unversioned (McpServer.wholeSeconds server') =
          Kind.server.unversioned server' :=
        (Kind.unversioned_wholeSeconds hsame).trans ((congrArg _ hheld.whole).trans hsame.symm)
      obtain ⟨n', hrun, hsound', hfaultless', hothers, hwritten⟩ :=
        run_persist_current now report hlive h.sound h.faultless
      obtain ⟨s', hserve, hissued, hothers', p, version, hstored', hwritten', hmem, hnew⟩ :=
        serve_persist_current hanswers hstored
          (hw'.trans ((congrArg some (hcurrent.1 hversion)).trans hw.symm)) hw
          (h.known _ _ _ hlinked).2.1 (hboth.trans hsame.symm) hwhole
      have hfind' : (api.contents s').find? (Key.of .server server) = some p :=
        (Contents.stored?_congr hkeys.symm).trans hstored'
      rw [unversioned_reported hsame] at hwritten'
      rw [hrun, hserve]
      refine .made fun view hview => ?_
      refine (h.toCorresponds.seen view).changed hsound' hfaultless' hissued hothers (hkeys ▸ hothers') ?_ ?_
      · rw [hwritten, Contents.unversioned?, hfind']
        exact congrArg (fun o => Except.ok (some o)) (hview.trans (congrArg _ hwritten'.symm))
      · intro live hlive
        cases hfind'.symm.trans hlive
        exact ⟨version, hmem, hnew⟩
    · -- What was read has been written over, so neither side takes the status.
      have hlate : Kind.server.resourceVersion live ≠ Kind.server.resourceVersion server :=
        fun heq => hversion (Option.some.inj (hv'.symm.trans (heq.trans hv)))
      have hlate' : Kind.server.resourceVersion live' ≠ Kind.server.resourceVersion server' :=
        fun heq => hversion (hcurrent.2 (Option.some.inj (hw'.symm.trans (heq.trans hw))))
      obtain ⟨r, hrun, htoo⟩ := run_persist_late now report hlive h.faultless hlate
      obtain ⟨r', s', hserve, hcontents, htoo'⟩ := serve_persist_late hanswers hstored hlate'
      have hstatus : server'.status = server.status :=
        Kind.congr_of_unversioned (f := McpServer.status) (fun _ _ => rfl) hsame
      rw [hstatus, after_congr hsame] at htoo'
      have hkept : Corresponds Cluster.plain n (api.contents s') := hcontents ▸ h.toCorresponds
      rw [hrun, hserve]
      exact .late hkept htoo htoo'

theorem agrees_afterFetch {name : String} {coming : Schedule} {key : Key} (hmanager : IsManager manager)
    (hkey : Key.of .server server = key) (haddress : Addressable key)
    (hsecret : ∀ key ∈ secretKey? server, Addressable key) (h : Tied ν m (api.contents s))
    (hheld : m.Holds (Key.of .server server) server)
    (hsame : Kind.server.unversioned server' = Kind.server.unversioned server)
    (hv : server.metadata.resourceVersion = some v) (hw : server'.metadata.resourceVersion = some w)
    (hlinked : ν key v w)
    (habides : api.Abides manager (afterFetch gatewayImage now key name (.ok (some server'))) (s, coming)) :
    Agrees key (m.runAmid (afterFetch gatewayImage now key name (.ok (some server))) coming)
      (api.runAmid manager (afterFetch gatewayImage now key name (.ok (some server'))) coming s) := by
  subst hkey
  rw [afterFetch_eq, evaluate_congr (sameDesign_of_unversioned hsame)] at habides
  rw [afterFetch_eq, afterFetch_eq, evaluate_congr (sameDesign_of_unversioned hsame)]
  obtain ⟨hfirst, hlast⟩ := habides.bind
  obtain ⟨ν₁, a, m₁, a', s₁, rest, hle, hrun, hrun', htied, hend⟩ :=
    lockstep_evaluate hmanager h haddress hsecret coming hfirst
  rw [hrun'] at hlast
  have haddress' : Addressable (Key.of .server server') := Kind.key_congr hsame ▸ haddress
  have hanswers := answers_persist hmanager haddress' hw hlast.bind.1
  have hgrows := Memory.grows_answerAmid
    (evaluate gatewayImage (Key.of .server server) name server) m coming
  rw [hrun] at hgrows
  obtain ⟨ν₂, hle₂, htied₂⟩ := htied.writeAll (rest.headD [])
  have hpersisted : Persisted now server a.1 a'.1 _ _ := persisted h.sound hheld
    (hgrows.trans (Memory.grows_seedAll (rest.headD []) m₁)) hsame hv hw htied₂
    (hle₂ _ _ _ (hle _ _ _ hlinked)) hanswers
  rw [Memory.runAmid, ApiServer.runAmid, Work.runAmid_bind _ _ hrun, Work.runAmid_bind _ _ hrun',
    runAmid_persist, runAmid_persist]
  exact (hpersisted.agrees hend).writeAll rest.tail.flatten

end

end Pass

section

variable {σ : Type}

/-- A pass over a cluster and the same pass over a store in memory that holds the same, with the same writes
of others before each call, end the same way and leave the same objects. All that names and references
have to be is texts that a location can hold. -/
theorem reconcile_agrees (api : ApiServer σ) {manager : String} (hmanager : IsManager manager)
    (gatewayImage : String) (now : Instant) (trigger : McpServer) {m : Memory} {s : σ} {coming : Schedule}
    (hkey : Addressable (Key.of .server trigger))
    (hheld : ∀ server : McpServer, m.Holds (Key.of .server trigger) server →
      ∀ key ∈ Pass.secretKey? server, Addressable key)
    (hwritten : ∀ server : McpServer, ⟨.server, server⟩ ∈ coming.flatten →
      Key.of .server server = Key.of .server trigger → ∀ key ∈ Pass.secretKey? server, Addressable key)
    (hcorresponds : Corresponds Cluster.plain m (api.contents s))
    (habides : api.Abides manager (reconcile gatewayImage now trigger) (s, coming)) :
    Pass.Agrees (Key.of .server trigger) (m.runAmid (reconcile gatewayImage now trigger) coming)
      (api.runAmid manager (reconcile gatewayImage now trigger) coming s) := by
  rw [reconcile] at habides ⊢
  cases hname : Pass.nameOf trigger with
  | error e => exact .same (.error (.trigger e)) (hcorresponds.writeAll _)
  | ok name =>
      rw [hname] at habides
      obtain ⟨reply, s₁, hanswer, ⟨rfl, hcontents⟩, habides⟩ :=
        habides.call (Cluster.ofCall_get manager hkey) fun _ _ _ => Cluster.answers_get
      obtain ⟨ν₀, htied₀⟩ := hcorresponds.tied
      obtain ⟨ν, -, htied⟩ := htied₀.writeAll (coming.headD [])
      rw [← hcontents] at htied hanswer habides
      have hreads : ∀ server : McpServer,
          (m.seedAll (coming.headD [])).Holds (Key.of .server trigger) server →
            ∀ key ∈ Pass.secretKey? server, Addressable key := by
        intro server hserver
        have hself : Key.of .server server = Key.of .server trigger := hserver.key_eq
        rcases Memory.holds_seedAll hserver with hserver | ⟨⟨kind, o⟩, hmem, version, heq⟩
        · exact hheld server hserver
        · cases heq
          rw [Key.of_withResourceVersion, Key.of_wholeSeconds] at hself
          refine hwritten o ?_ hself
          cases coming with
          | nil => cases hmem
          | cons l rest => exact List.mem_append_left _ hmem
      obtain ⟨found, hget, hfinds⟩ := htied.get (Key.of .server trigger)
      have hmemory : Memory.answerAmid (.get (Key.of .server trigger)) (m, coming) =
          (.ok found, (m.seedAll (coming.headD []), coming.tail)) := congrArg (Prod.mk · _) hget
      rw [Memory.runAmid, ApiServer.runAmid, Work.runAmid_call _ _ hmemory, Work.runAmid_call _ _ hanswer]
      generalize (api.contents s₁).find? (Key.of .server trigger) = found' at hfinds habides ⊢
      rcases hfinds with - | @⟨server, server', v, w, hlive, hsame, hv, hw, hlinked⟩
      · exact .same (.ok ()) (htied.toCorresponds.writeAll _)
      · exact Pass.agrees_afterFetch hmanager hlive.key_eq hkey (hreads server hlive) htied hlive.self
          hsame hv hw hlinked habides

end

namespace Pass

def strayService : Service where
  metadata := { ObjectMeta.empty with name := some "echo" }
  spec := none
  status := none

def straySchedule : Schedule := [[⟨.service, strayService⟩]]

theorem addressable_echoServer : Addressable (Key.of .server echoServer) :=
  ⟨by decide, by decide, by decide, by decide⟩

theorem holds_strayStore : (echoStore.seed .service strayService).Holds (Key.of .server echoServer) storedEcho :=
  ⟨(Memory.get?_write_of_ne echoStore .service strayService (by decide)).trans holds_echoStore.objects, rfl, rfl⟩

theorem runAmid_stray : ∃ outputs m,
    echoStore.runAmid (reconcile Gateway.defaultImage .epoch echoServer) straySchedule = (.ok (), m) ∧
    ∀ s ∈ steps outputs, Upsert.Settled m s.kind s.object := by
  have hsound : (echoStore.seed .service strayService).Sound :=
    reachable_echoStore.sound.grow (Memory.grows_write _ _ _)
  have hread := holds_strayStore.read
  obtain ⟨outputs, hderive⟩ := derive_storedEcho (echoStore.seed .service strayService)
  obtain ⟨m, hrun⟩ := run_reconcile_succeeds .epoch hsound rfl rfl rfl nameOf_echoServer hread
    validate_storedEcho hderive
  obtain ⟨_, outputs, _, -, -, -, -, hrests, hfinished⟩ := run_reconcile_ok hsound hread hrun
  refine ⟨outputs, m, ?_, hfinished.settled hrests⟩
  rw [← hrun, reconcile, nameOf_echoServer]
  exact Work.runAmid_first _ _ _ _ _ _

theorem exists_stamped {m : Memory} {c : Contents} (h : Corresponds Cluster.plain m c) {kind : Kind}
    {o : kind.Object} (hsettled : Upsert.Settled m kind o) :
    ∃ live, c.find? (Key.of kind o) = some live ∧
      Upsert.storedHash kind live = some (Upsert.appliedHash kind o) := by
  obtain ⟨live, hlive, hcurrent⟩ := hsettled
  rw [Upsert.isCurrent, Bool.and_eq_true, decide_eq_true_iff] at hcurrent
  rcases h.find? (Key.of kind o) with ⟨-, hnone, -⟩ | ⟨_, live', hheld, hfind, hsame⟩
  · cases hnone.symm.trans hlive
  · cases hheld.read.symm.trans hlive
    have hstored : Upsert.storedHash kind live' = Upsert.storedHash kind live :=
      congrArg (fun annotations => annotations.bind (·.get? Upsert.hashKey)) (Kind.annotations_congr hsame)
    exact ⟨live', hfind, hstored.trans hcurrent.1⟩

end Pass

/-- The pass creates the Deployment and the ConfigMap and replaces the Service, on both sides. -/
theorem reconcile_agrees_echo : ∃ outputs m c,
    Pass.echoStore.runAmid (reconcile Gateway.defaultImage .epoch Pass.echoServer) Pass.straySchedule =
      (.ok (), m) ∧
    ApiServer.inMemory.runAmid "kagent" (reconcile Gateway.defaultImage .epoch Pass.echoServer)
      Pass.straySchedule Pass.echoStore = (.ok (), c) ∧
    Corresponds Cluster.plain m c ∧
    ∀ s ∈ Pass.steps outputs, ∃ live, c.find? (Key.of s.kind s.object) = some live ∧
      Upsert.storedHash s.kind live = some (Upsert.appliedHash s.kind s.object) := by
  have hsound := Pass.reachable_echoStore.sound
  have hagrees : Pass.Agrees (Key.of .server Pass.echoServer)
      (Pass.echoStore.runAmid (reconcile Gateway.defaultImage .epoch Pass.echoServer) Pass.straySchedule)
      (ApiServer.inMemory.runAmid "kagent" (reconcile Gateway.defaultImage .epoch Pass.echoServer)
        Pass.straySchedule Pass.echoStore) := by
    apply reconcile_agrees ApiServer.inMemory (show IsManager "kagent" by decide) Gateway.defaultImage .epoch
      Pass.echoServer Pass.addressable_echoServer
    · intro server hserver key hkey
      cases hserver.read.symm.trans Pass.holds_echoStore.read
      cases hkey
    · intro server hserver
      cases List.mem_singleton.1 hserver
    · exact Cluster.corresponds_ofMemory hsound ⟨⟨rfl, rfl⟩, rfl, rfl⟩
    · exact ApiServer.abides_inMemory "kagent" _ hsound
  obtain ⟨outputs, m, hamid, hsettled⟩ := Pass.runAmid_stray
  rw [hamid] at hagrees
  generalize ApiServer.inMemory.runAmid "kagent" _ _ _ = ended at hagrees ⊢
  cases hagrees with
  | @same _ _ c h =>
      exact ⟨outputs, m, c, hamid, rfl, h, fun s hs => Pass.exists_stamped h (hsettled s hs)⟩

namespace Pass

def blankServer : McpServer :=
  { echoServer with metadata := { echoServer.metadata with name := some "my echo" } }

end Pass

/-- A name that a location cannot hold is looked up in a store in memory, but nothing is sent to a
cluster for it. -/
theorem reconcile_disagrees_blank : (Key.of .server Pass.blankServer).name ≠ "" ∧
    Pass.secretKey? Pass.blankServer = none ∧
    Corresponds Cluster.plain .empty (ApiServer.inMemory.contents .empty) ∧
    ∀ (σ : Type) (api : ApiServer σ) (s : σ),
      api.Abides "kagent" (reconcile Gateway.defaultImage .epoch Pass.blankServer) (s, []) ∧
      ¬ Pass.Agrees (Key.of .server Pass.blankServer)
        (Memory.empty.runAmid (reconcile Gateway.defaultImage .epoch Pass.blankServer) [])
        (api.runAmid "kagent" (reconcile Gateway.defaultImage .epoch Pass.blankServer) [] s) := by
  have hrequest : Request.ofCall "kagent" (.get (Key.of .server Pass.blankServer)) =
      .error (.request .badPath) := by decide +kernel
  have hname : Pass.nameOf Pass.blankServer = .ok "my echo" := by decide
  have hempty : Memory.empty.Sound := Memory.Grows.refl .empty
  refine ⟨by decide, rfl, Cluster.corresponds_ofMemory hempty ⟨⟨rfl, rfl⟩, rfl, rfl⟩, ?_⟩
  intro σ api s
  rw [reconcile, hname]
  have hmemory : Memory.answerAmid (.get (Key.of .server Pass.blankServer)) (.empty, []) =
      (.ok none, (.empty, [])) := rfl
  have hcluster : api.answerAmid "kagent" (.get (Key.of .server Pass.blankServer)) (s, []) =
      (.error (.request .badPath), (s, [])) := by
    rw [ApiServer.answerAmid, Work.answerAmid, Cluster.answer, hrequest]
    rfl
  refine ⟨⟨?_, ?_⟩, ?_⟩
  · intro request h
    rw [hrequest] at h
    cases h
  · rw [hcluster]
    trivial
  · rw [Memory.runAmid, ApiServer.runAmid, Work.runAmid_call _ _ hmemory, Work.runAmid_call _ _ hcluster]
    intro hagrees
    cases hagrees

end McpOperator
