import McpOperator.Proofs.Reconcile.Determined
import Mathlib.Logic.Function.Basic

namespace McpOperator

open Memory (Matches Spares)

/-- What the end of a pass leads to: when to look at the server again, and the failures counted. -/
def settle (backoff : Backoff) (trigger : McpServer) :
    Except PassError Unit → Action × Backoff
  | .ok _ => (.awaitChange, afterPass backoff trigger (.ok ()))
  | .error e => afterFailure (afterPass backoff trigger (.error e)) trigger e

inductive Progress where
  | passing (work : Work (Except PassError Unit))
  | settled (result : Except PassError Unit) (action : Action)

def Progress.work : Progress → Work (Except PassError Unit)
  | passing w => w
  | settled r _ => .done r

/-- What all passes share. -/
structure Shared where
  memory : Memory
  backoff : Backoff

structure Party where
  trigger : McpServer
  progress : Progress

/-- One call of the pass, or what its end leads to. -/
def Party.turn (p : Party) (s : Shared) : Party × Shared :=
  match p.progress with
  | .passing (.call c next) =>
      let (reply, memory) := Memory.answer c s.memory
      ({ p with progress := .passing (next reply) }, { s with memory })
  | .passing (.done r) =>
      let (action, backoff) := settle s.backoff p.trigger r
      ({ p with progress := .settled r action }, { s with backoff })
  | .settled _ _ => (p, s)

inductive Side where
  | left
  | right
deriving DecidableEq

def Side.other : Side → Side
  | left => right
  | right => left

@[simp] theorem Side.other_other (side : Side) : side.other.other = side := by
  cases side <;> rfl

structure Pair where
  party : Side → Party
  shared : Shared

namespace Pair

def turn (s : Pair) (side : Side) : Pair :=
  let (p, shared) := (s.party side).turn s.shared
  ⟨Function.update s.party side p, shared⟩

def run (s : Pair) (schedule : List Side) : Pair := schedule.foldl turn s

theorem run_append (s : Pair) (first second : List Side) :
    s.run (first ++ second) = (s.run first).run second := List.foldl_append ..

def start (gatewayImage : String) (trigger : Side → McpServer) (now : Side → Instant) (shared : Shared) :
    Pair where
  party side := ⟨trigger side, .passing (reconcile gatewayImage (now side) (trigger side))⟩
  shared := shared

end Pair

theorem Party.turn_cases (p : Party) (s : Shared) :
    (∃ c next, p.progress.work = .call c next ∧
      (p.turn s).1.progress.work = next (Memory.answer c s.memory).1 ∧
      (p.turn s).2.memory = (Memory.answer c s.memory).2) ∨
    ((p.turn s).1.progress.work = p.progress.work ∧ (p.turn s).2.memory = s.memory) := by
  rcases p with ⟨trigger, (_ | ⟨c, next⟩) | ⟨r, action⟩⟩
  · exact .inr ⟨rfl, rfl⟩
  · exact .inl ⟨c, next, rfl, rfl, rfl⟩
  · exact .inr ⟨rfl, rfl⟩

namespace Pair

variable {s : Pair} {side : Side}

theorem party_turn_self (s : Pair) (side : Side) :
    (s.turn side).party side = ((s.party side).turn s.shared).1 := Function.update_self _ _ _

theorem party_turn_other (s : Pair) (side : Side) :
    (s.turn side).party side.other = s.party side.other := by
  apply Function.update_of_ne
  cases side <;> decide

theorem party_turn_of_other (s : Pair) (side : Side) :
    (s.turn side.other).party side = s.party side := by
  apply Function.update_of_ne
  cases side <;> decide

/-- From each side, the calls of the other one are those of others that leave its keys alone. -/
theorem spared_run {F W : Set Key} (hdisjoint : ∀ key ∈ F, key ∉ W) (schedule : List Side)
    (hsound : s.shared.memory.Sound) (hquiet : s.shared.memory.Quiet)
    (hother : (s.party side.other).progress.work.WritesOnly W fun _ => True)
    {r : Except PassError Unit} {action : Action}
    (hend : ((s.run schedule).party side).progress = .settled r action) :
    Spared F (s.party side).progress.work s.shared.memory r (s.run schedule).shared.memory := by
  induction schedule generalizing s with
  | nil =>
      have hwork : (s.party side).progress.work = .done r := congrArg Progress.work hend
      rw [hwork]
      exact .done r (.refl F _)
  | cons t rest ih =>
      have ht : t = side ∨ t = side.other := by cases t <;> cases side <;> decide
      rcases ht with rfl | rfl
      · -- One call of the work itself, or its end.
        have hparty := party_turn_self s t
        have hkept : ((s.turn t).party t.other).progress.work.WritesOnly W fun _ => True := by
          rwa [party_turn_other]
        rcases (s.party t).turn_cases s.shared with ⟨c, next, hwork, hnext, hmemory⟩ | ⟨hwork, hmemory⟩
        · have hrest := ih (s := s.turn t) (hmemory ▸ hsound.grow (Memory.grows_answer _ c))
            (hmemory ▸ hquiet.answer c) hkept hend
          rw [hparty, hnext] at hrest
          rw [hwork]
          exact .call (.refl F _) (hmemory ▸ hrest)
        · have hrest := ih (s := s.turn t) (hmemory ▸ hsound) (hmemory ▸ hquiet) hkept hend
          rw [hparty, hwork] at hrest
          exact hmemory ▸ hrest
      · -- A call of the other side writes to none of the keys, and comes in between.
        have hparty := party_turn_of_other s side
        have hself := party_turn_self s side.other
        rcases (s.party side.other).turn_cases s.shared with
          ⟨c, next, hwork, hnext, hmemory⟩ | ⟨hwork, hmemory⟩
        · rw [hwork] at hother
          obtain ⟨hcall, hrest⟩ := hother
          have hspares : Spares F s.shared.memory (Memory.answer c s.shared.memory).2 :=
            hquiet.spares hsound fun key hkey htarget => hdisjoint key hkey (hcall key htarget)
          have hafter := ih (s := s.turn side.other) (hmemory ▸ hsound.grow (Memory.grows_answer _ c))
            (hmemory ▸ hquiet.answer c) (by rw [hself, hnext]; exact hrest _ hsound) hend
          rw [hparty] at hafter
          exact .after (hmemory ▸ hspares) hafter
        · have hafter := ih (s := s.turn side.other) (hmemory ▸ hsound) (hmemory ▸ hquiet)
            (by rwa [hself, hwork]) hend
          rw [hparty] at hafter
          exact hmemory ▸ hafter

end Pair

structure Backoff.SameFor (key : Key) (b b' : Backoff) : Prop where
  base : b'.base = b.base
  max : b'.max = b.max
  failures : b'.failuresOf key = b.failuresOf key

namespace Backoff.SameFor

variable {key : Key} {b b' : Backoff}

theorem refl (key : Key) (b : Backoff) : SameFor key b b := ⟨rfl, rfl, rfl⟩

theorem trans {a b c : Backoff} (h : SameFor key a b) (h' : SameFor key b c) : SameFor key a c :=
  ⟨h'.base.trans h.base, h'.max.trans h.max, h'.failures.trans h.failures⟩

theorem reset_of_ne {other : Key} (h : other ≠ key) (b : Backoff) : SameFor key b (b.reset other) :=
  ⟨rfl, rfl, by rw [failuresOf, failuresOf, reset, Table.get?_erase_of_ne _ h]⟩

theorem next_of_ne {other : Key} (h : other ≠ key) (b : Backoff) : SameFor key b (b.next other).2 :=
  ⟨rfl, rfl, by rw [failuresOf, failuresOf, next, Table.get?_put_of_ne _ _ h]⟩

theorem reset (h : SameFor key b b') : SameFor key (b.reset key) (b'.reset key) :=
  ⟨h.base, h.max, by simp [failuresOf, Backoff.reset, Table.get?_erase_self]⟩

theorem next (h : SameFor key b b') :
    (b'.next key).1 = (b.next key).1 ∧ SameFor key (b.next key).2 (b'.next key).2 := by
  constructor
  · simp [Backoff.next, delay, h.base, h.max, h.failures]
  · refine ⟨h.base, h.max, ?_⟩
    have hself : ∀ b : Backoff, (b.next key).2.failuresOf key = succSaturating (b.failuresOf key) := by
      intro b
      simp [Backoff.next, failuresOf]
    rw [hself, hself, h.failures]

theorem settle_of_ne {trigger : McpServer} (h : Key.of .server trigger ≠ key) (b : Backoff)
    (r : Except PassError Unit) : SameFor key b (settle b trigger r).2 := by
  cases r with
  | ok => exact reset_of_ne h b
  | error e =>
      rw [settle, afterPass, afterFailure]
      split
      · exact refl key b
      · exact next_of_ne h b

theorem settle {trigger : McpServer} (h : SameFor (Key.of .server trigger) b b')
    (r : Except PassError Unit) : (settle b' trigger r).1 = (McpOperator.settle b trigger r).1 ∧
      SameFor (Key.of .server trigger) (McpOperator.settle b trigger r).2
        (McpOperator.settle b' trigger r).2 := by
  cases r with
  | ok => exact ⟨rfl, h.reset⟩
  | error e =>
      simp only [McpOperator.settle, afterPass, afterFailure]
      split
      · exact ⟨rfl, h⟩
      · obtain ⟨hdelay, hsame⟩ := h.next
        exact ⟨congrArg Action.requeueAfter hdelay, hsame⟩

end Backoff.SameFor

namespace Party

open Backoff (SameFor)

variable {p : Party} {b : Backoff} {s : Shared}

@[simp] theorem trigger_turn (p : Party) (s : Shared) : (p.turn s).1.trigger = p.trigger := by
  rcases p with ⟨trigger, (_ | ⟨c, next⟩) | ⟨r, action⟩⟩ <;> rfl

/-- The failures are counted as they were at first, and once the pass is over, as its end has it. -/
def Counts (b : Backoff) (p : Party) (s : Shared) : Prop :=
  match p.progress with
  | .passing _ => SameFor (Key.of .server p.trigger) b s.backoff
  | .settled r action => action = (settle b p.trigger r).1 ∧
      SameFor (Key.of .server p.trigger) (settle b p.trigger r).2 s.backoff

theorem Counts.turn (h : p.Counts b s) : (p.turn s).1.Counts b (p.turn s).2 := by
  rcases p with ⟨trigger, (r | ⟨c, next⟩) | ⟨r, action⟩⟩
  · exact SameFor.settle h r
  · exact h
  · exact h

theorem Counts.of_sameFor {s' : Shared} (h : p.Counts b s)
    (hsame : SameFor (Key.of .server p.trigger) s.backoff s'.backoff) : p.Counts b s' := by
  rcases p with ⟨trigger, w | ⟨r, action⟩⟩
  · exact SameFor.trans h hsame
  · exact ⟨h.1, h.2.trans hsame⟩

theorem sameFor_turn {key : Key} (h : Key.of .server p.trigger ≠ key) :
    SameFor key s.backoff (p.turn s).2.backoff := by
  rcases p with ⟨trigger, (r | ⟨c, next⟩) | ⟨r, action⟩⟩
  · exact SameFor.settle_of_ne h s.backoff r
  · exact .refl key _
  · exact .refl key _

end Party

namespace Pair

variable {s : Pair} {side : Side} {b : Backoff}

theorem trigger_turn (s : Pair) (t side : Side) :
    ((s.turn t).party side).trigger = (s.party side).trigger := by
  by_cases h : side = t
  · subst h
    rw [party_turn_self, Party.trigger_turn]
  · exact congrArg Party.trigger (Function.update_of_ne h _ _)

theorem trigger_run (s : Pair) (schedule : List Side) (side : Side) :
    ((s.run schedule).party side).trigger = (s.party side).trigger := by
  induction schedule generalizing s with
  | nil => rfl
  | cons t rest ih => exact (ih (s.turn t)).trans (trigger_turn s t side)

theorem counts_run
    (hne : Key.of .server (s.party side.other).trigger ≠ Key.of .server (s.party side).trigger)
    (schedule : List Side) (h : (s.party side).Counts b s.shared) :
    ((s.run schedule).party side).Counts b (s.run schedule).shared := by
  induction schedule generalizing s with
  | nil => exact h
  | cons t rest ih =>
      apply ih (s := s.turn t)
      · rwa [trigger_turn, trigger_turn]
      · have ht : t = side ∨ t = side.other := by cases t <;> cases side <;> decide
        rcases ht with rfl | rfl
        · rw [party_turn_self]
          exact h.turn
        · rw [party_turn_of_other]
          exact h.of_sameFor (Party.sameFor_turn hne)

theorem sameFor_run {key : Key} (hne : ∀ side, Key.of .server (s.party side).trigger ≠ key)
    (schedule : List Side) : Backoff.SameFor key s.shared.backoff (s.run schedule).shared.backoff := by
  induction schedule generalizing s with
  | nil => exact .refl key _
  | cons t rest ih =>
      have hrest := ih (s := s.turn t) fun side => by
        rw [trigger_turn]
        exact hne side
      exact (Party.sameFor_turn (hne t)).trans hrest

end Pair

namespace Pair

def Settled (s : Pair) (side : Side) : Prop := ∃ r action, (s.party side).progress = .settled r action

theorem exists_settled_side (s : Pair) (side : Side) : ∃ schedule, (s.run schedule).Settled side ∧
    (s.run schedule).party side.other = s.party side.other := by
  cases hprogress : (s.party side).progress with
  | settled r action => exact ⟨[], ⟨r, action, hprogress⟩, rfl⟩
  | passing w =>
      induction w generalizing s with
      | done r =>
          refine ⟨[side], ⟨r, (settle s.shared.backoff (s.party side).trigger r).1, ?_⟩,
            party_turn_other s side⟩
          change ((s.turn side).party side).progress = _
          rw [party_turn_self, Party.turn, hprogress]
      | call c next ih =>
          have hturn : ((s.turn side).party side).progress =
              .passing (next (Memory.answer c s.shared.memory).1) := by
            rw [party_turn_self, Party.turn, hprogress]
          obtain ⟨schedule, hsettled, hother⟩ := ih _ _ hturn
          exact ⟨side :: schedule, hsettled, hother.trans (party_turn_other s side)⟩

theorem exists_settled (s : Pair) : ∃ schedule, ∀ side, (s.run schedule).Settled side := by
  obtain ⟨first, hleft, -⟩ := exists_settled_side s .left
  obtain ⟨second, hright, hkept⟩ := exists_settled_side (s.run first) .right
  refine ⟨first ++ second, ?_⟩
  intro side
  rw [run_append]
  cases side with
  | left =>
      obtain ⟨r, action, hprogress⟩ := hleft
      exact ⟨r, action, (congrArg Party.progress hkept).trans hprogress⟩
  | right => exact hright

end Pair

def Memory.SameObjects (m n : Memory) : Prop := ∀ key, n.unversioned key = m.unversioned key

namespace Pass

variable {gatewayImage : String} {m : Memory}

theorem own_disjoint {first second : McpServer} (h : Key.of .server first ≠ Key.of .server second) :
    ∀ key ∈ own (Key.of .server first), key ∉ own (Key.of .server second) := by
  rintro key ⟨-, hns, hname⟩ ⟨-, hns', hname'⟩
  exact h (Key.mk.injEq .. ▸ ⟨rfl, hns.symm.trans hns', hname.symm.trans hname'⟩)

theorem determined_of_ne (now : Instant) {first second : McpServer}
    (hne : Key.of .server first ≠ Key.of .server second) {m n : Memory}
    (h : Matches (own (Key.of .server second))ᶜ m n) :
    (reconcile gatewayImage now first).Determined (own (Key.of .server second))ᶜ m n := by
  apply determined_reconcile h
  · exact own_disjoint hne
  · intro server _ key hkey hmem
    obtain ⟨ref, -, rfl⟩ := Option.map_eq_some_iff.1 hkey
    exact hmem.1 rfl

theorem matches_after (hm : m.Sound) (hquiet : m.Quiet) (now : Instant) (trigger : McpServer) :
    Matches (own (Key.of .server trigger))ᶜ
      ((reconcile gatewayImage now trigger).run Memory.answer m).2 m where
  toSameFaults := (hquiet.sameFaults_run _).symm
  left := hm.run rfl
  right := hm
  objects key hkey := by
    have hsame := (writesOnly_reconcile gatewayImage now trigger).get?_run hm hkey
    exact (Memory.unversioned_congr hsame).symm

section Spared

variable {first second : McpServer} {now now' : Instant} {m' : Memory} {r r' : Except PassError Unit}

theorem run_of_spared (hne : Key.of .server first ≠ Key.of .server second) (hm : m.Sound)
    (h : Spared (own (Key.of .server second))ᶜ (reconcile gatewayImage now first) m r m') :
    ∃ m₁, (reconcile gatewayImage now first).run Memory.answer m = (r, m₁) ∧
      Matches (own (Key.of .server second))ᶜ m₁ m' :=
  determined_of_ne now hne (.of_objects hm hm ⟨rfl, rfl, rfl, rfl⟩ fun _ _ => rfl) _ _ h

theorem sameObjects_of_spared (hne : Key.of .server first ≠ Key.of .server second) (hm : m.Sound)
    (hquiet : m.Quiet)
    (hfirst : Spared (own (Key.of .server second))ᶜ (reconcile gatewayImage now first) m r m')
    (hsecond : Spared (own (Key.of .server first))ᶜ (reconcile gatewayImage now' second) m r' m') :
    ((reconcile gatewayImage now' second).run Memory.answer
      ((reconcile gatewayImage now first).run Memory.answer m).2).2.SameObjects m' := by
  intro key
  by_cases hkey : key ∈ own (Key.of .server second)
  · -- What the second pass writes, it writes after the first one as it does without it.
    obtain ⟨n, hpass, hmatches⟩ :=
      determined_of_ne now' hne.symm (matches_after hm hquiet now first) _ _ hsecond
    rw [hpass]
    exact hmatches.objects key (own_disjoint hne.symm key hkey)
  · obtain ⟨m₁, hpass, hmatches⟩ := run_of_spared hne hm hfirst
    have hsame := (writesOnly_reconcile gatewayImage now' second).get?_run (hm.run hpass) hkey
    rw [hpass, Memory.unversioned_congr hsame]
    exact hmatches.objects key hkey

end Spared

end Pass

namespace Pair

variable {gatewayImage : String} {trigger : Side → McpServer} {now : Side → Instant} {m : Memory}
  {backoff : Backoff} {schedule : List Side} {side : Side} {r : Except PassError Unit} {action : Action}

theorem spared_start (hm : m.Sound) (hquiet : m.Quiet)
    (hend : (((start gatewayImage trigger now ⟨m, backoff⟩).run schedule).party side).progress =
      .settled r action) :
    Spared (Pass.own (Key.of .server (trigger side.other)))ᶜ
      (reconcile gatewayImage (now side) (trigger side)) m r
      ((start gatewayImage trigger now ⟨m, backoff⟩).run schedule).shared.memory :=
  spared_run (s := start gatewayImage trigger now ⟨m, backoff⟩) (fun _ hkey => hkey) schedule hm hquiet
    (Pass.writesOnly_reconcile gatewayImage (now side.other) (trigger side.other)) hend

theorem counts_start
    (hne : Key.of .server (trigger side) ≠ Key.of .server (trigger side.other))
    (hend : (((start gatewayImage trigger now ⟨m, backoff⟩).run schedule).party side).progress =
      .settled r action) :
    action = (settle backoff (trigger side) r).1 ∧
      Backoff.SameFor (Key.of .server (trigger side)) (settle backoff (trigger side) r).2
        ((start gatewayImage trigger now ⟨m, backoff⟩).run schedule).shared.backoff := by
  have hcounts := counts_run (s := start gatewayImage trigger now ⟨m, backoff⟩) hne.symm schedule
    (.refl _ backoff)
  rwa [Party.Counts, hend, trigger_run] at hcounts

end Pair

/-- Passes over two servers do not interfere, in whatever order they take turns at the store: each ends
as it does alone, they leave the objects that they leave one after the other, and each server's failures
are counted as if there was no other. -/
theorem reconcile_independent {m : Memory} (hm : m.Reachable) (hquiet : m.Quiet) (gatewayImage : String)
    (trigger : Side → McpServer) (now : Side → Instant)
    (hne : Key.of .server (trigger .left) ≠ Key.of .server (trigger .right)) (backoff : Backoff)
    (schedule : List Side) {final : Pair}
    (hrun : (Pair.start gatewayImage trigger now ⟨m, backoff⟩).run schedule = final)
    {result : Side → Except PassError Unit} {action : Side → Action}
    (hend : ∀ side, (final.party side).progress = .settled (result side) (action side)) :
    (∀ side, ((reconcile gatewayImage (now side) (trigger side)).run Memory.answer m).1 = result side) ∧
    (∀ side, ((reconcile gatewayImage (now side.other) (trigger side.other)).run Memory.answer
      ((reconcile gatewayImage (now side) (trigger side)).run Memory.answer m).2).2.SameObjects
        final.shared.memory) ∧
    (∀ side, action side = (settle backoff (trigger side) (result side)).1 ∧
      final.shared.backoff.failuresOf (Key.of .server (trigger side)) =
        (settle backoff (trigger side) (result side)).2.failuresOf (Key.of .server (trigger side))) ∧
    ∀ key, (∀ side, Key.of .server (trigger side) ≠ key) →
      final.shared.backoff.failuresOf key = backoff.failuresOf key := by
  have hsound := hm.sound
  have hne' : ∀ side, Key.of .server (trigger side) ≠ Key.of .server (trigger side.other) := by
    intro side
    cases side with
    | left => exact hne
    | right => exact hne.symm
  subst hrun
  have hspared := fun side => Pair.spared_start hsound hquiet (hend side)
  refine ⟨?_, ?_, ?_, ?_⟩
  · intro side
    obtain ⟨m₁, hpass, -⟩ := Pass.run_of_spared (hne' side) hsound (hspared side)
    rw [hpass]
  · intro side
    have hother := hspared side.other
    rw [Side.other_other] at hother
    exact Pass.sameObjects_of_spared (hne' side) hsound hquiet (hspared side) hother
  · intro side
    obtain ⟨haction, hsame⟩ := Pair.counts_start (hne' side) (hend side)
    exact ⟨haction, hsame.failures⟩
  · intro key hkey
    exact (Pair.sameFor_run (s := Pair.start gatewayImage trigger now ⟨m, backoff⟩) hkey
      schedule).failures

namespace Pass

def otherServer : McpServer :=
  { echoServer with metadata := { echoServer.metadata with name := some "other" } }

def bothServers : Side → McpServer
  | .left => echoServer
  | .right => otherServer

end Pass

theorem reconcile_independent_echo : ∃ schedule final, ∃ result : Side → Except PassError Unit,
    (Pair.start Gateway.defaultImage Pass.bothServers (fun _ => .epoch)
      ⟨Pass.echoStore.seed .server Pass.otherServer, .new .zero .zero⟩).run
        ([.left, .right, .left, .right] ++ schedule) = final ∧
    (∀ side, ((reconcile Gateway.defaultImage .epoch (Pass.bothServers side)).run Memory.answer
      (Pass.echoStore.seed .server Pass.otherServer)).1 = result side) ∧
    ∀ side, ((reconcile Gateway.defaultImage .epoch (Pass.bothServers side.other)).run Memory.answer
      ((reconcile Gateway.defaultImage .epoch (Pass.bothServers side)).run Memory.answer
        (Pass.echoStore.seed .server Pass.otherServer)).2).2.SameObjects final.shared.memory := by
  have hreachable : (Pass.echoStore.seed .server Pass.otherServer).Reachable :=
    .act (.seed .server Pass.otherServer) Pass.reachable_echoStore
  obtain ⟨schedule, hsettled⟩ := ((Pair.start Gateway.defaultImage Pass.bothServers (fun _ => .epoch)
    ⟨Pass.echoStore.seed .server Pass.otherServer, .new .zero .zero⟩).run
      [.left, .right, .left, .right]).exists_settled
  choose result action hend using hsettled
  obtain ⟨hresult, hobjects, -⟩ := reconcile_independent hreachable ⟨rfl, rfl⟩ Gateway.defaultImage
    Pass.bothServers (fun _ => .epoch) (by decide) (.new .zero .zero)
    ([.left, .right, .left, .right] ++ schedule) (Pair.run_append _ _ _) hend
  exact ⟨schedule, _, result, Pair.run_append _ _ _, hresult, hobjects⟩

end McpOperator
