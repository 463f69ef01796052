import McpOperator.Proofs.Json.Additions
import McpOperator.Proofs.Store.Versions

namespace McpOperator

structure Memory.Wrote (m m' : Memory) (kind : Kind) (o : kind.Object) : Prop where
  object : ∃ version, m'.objects.get? (Key.of kind o) =
      some (kind.encode (kind.withResourceVersion o (some version))) ∧
    ∀ key json, m.objects.get? key = some json → versionOf json ≠ some version
  others (key : Key) (h : key ≠ Key.of kind o) : m'.objects.get? key = m.objects.get? key
  faults : KeepsFaults m m'

namespace Upsert

variable {m m' : Memory} {kind : Kind} {o live : kind.Object} {r : Except StoreError UpsertOutcome}

/-- An object carries the digest of the desired state, and holds all that is set in it. -/
structure UpToDate (kind : Kind) (o live : kind.Object) : Prop where
  hash : storedHash kind live = some (appliedHash kind o)
  held : (kind.encode (desired kind o)).isSubset (kind.encode live) = true

/-- How an upsert ends. -/
inductive Ends (m : Memory) (kind : Kind) (o : kind.Object) : Except StoreError UpsertOutcome → Prop
  | unreadable (hreads : kind ∈ m.failingReads) : Ends m kind o (.error (Memory.unavailable kind))
  | unchanged {live : kind.Object} (hreads : kind ∉ m.failingReads)
      (hlive : m.Holds (Key.of kind o) live) (h : UpToDate kind o live) : Ends m kind o (.ok .unchanged)
  | unwritable (hreads : kind ∉ m.failingReads)
      (hneeded : ∀ live : kind.Object, m.Holds (Key.of kind o) live → ¬ UpToDate kind o live)
      (hwrites : kind ∈ m.failingWrites) : Ends m kind o (.error (Memory.unavailable kind))
  | created (hreads : kind ∉ m.failingReads) (hwrites : kind ∉ m.failingWrites)
      (hnone : m.objects.get? (Key.of kind o) = none) (hraces : kind ∉ m.createRaces) :
      Ends m kind o (.ok .created)
  | outrun (hreads : kind ∉ m.failingReads) (hwrites : kind ∉ m.failingWrites)
      (hnone : m.objects.get? (Key.of kind o) = none) (hraces : kind ∈ m.createRaces) :
      Ends m kind o (.ok .updated)
  | updated {live : kind.Object} (hreads : kind ∉ m.failingReads) (hwrites : kind ∉ m.failingWrites)
      (hlive : m.Holds (Key.of kind o) live) (h : ¬ UpToDate kind o live) : Ends m kind o (.ok .updated)

/-- What an upsert leaves behind. -/
def Leaves (m m' : Memory) (kind : Kind) (o : kind.Object) : Except StoreError UpsertOutcome → Prop
  | .ok .created | .ok .updated => Memory.Wrote m m' kind (desired kind o)
  | .ok .unchanged | .error _ => m' = m

theorem upToDate_iff :
    UpToDate kind o live ↔ isCurrent kind (desired kind o) live (appliedHash kind o) = true := by
  rw [isCurrent, Bool.and_eq_true, decide_eq_true_iff]
  exact ⟨fun h => ⟨h.hash, h.held⟩, fun h => ⟨h.1, h.2⟩⟩

theorem settled_iff_upToDate (hlive : m.Holds (Key.of kind o) live) :
    Settled m kind o ↔ UpToDate kind o live :=
  (settled_iff hlive.read).trans upToDate_iff.symm

theorem wrote_of_stored (hm : m.Sound) (hversion : kind.resourceVersion o = none)
    (hrun : (upsert kind o).run Memory.answer m = (r, m')) (hsettled : ¬ Settled m kind o)
    (h : Memory.Stored m m' kind (desired kind o)) : Memory.Wrote m m' kind (desired kind o) := by
  have hgrows := Memory.grows_run m (upsert kind o)
  rw [hrun] at hgrows
  have hchanged : m'.objects.get? (Key.of kind o) ≠ m.objects.get? (Key.of kind o) :=
    fun heq => hsettled ((settled_congr heq).1 (settled_of_stored hversion h))
  obtain ⟨json, n, hjson, hlow, -, hwritten⟩ := (hgrows.written (Key.of kind o)).resolve_left hchanged
  obtain ⟨k, hobject⟩ := h.object
  have hk : some (toString k) = some (toString n) := by
    have hversions := hwritten.versionOf
    rw [key_desired, hjson] at hobject
    rwa [Option.some.inj hobject, Kind.versionOf_encode, Kind.resourceVersion_withResourceVersion]
      at hversions
  obtain rfl := Memory.toString_inj (Option.some.inj hk)
  refine ⟨⟨toString k, hobject, ?_⟩, fun key hne => h.others hne.symm, h.faults⟩
  intro key json hget hsame
  obtain ⟨l, hl, hold⟩ := hm.written hget
  rw [hold.versionOf, Option.some.injEq] at hsame
  have hlk := Memory.toString_inj hsame
  omega

theorem exists_ends (hm : m.Sound) (kind : Kind) (o : kind.Object) : ∃ r, Ends m kind o r := by
  by_cases hreads : kind ∈ m.failingReads
  · exact ⟨_, .unreadable hreads⟩
  by_cases hsettled : Settled m kind o
  · obtain ⟨live, hread, hcurrent⟩ := hsettled
    exact ⟨_, .unchanged hreads (hm.holds hread) (upToDate_iff.2 hcurrent)⟩
  by_cases hwrites : kind ∈ m.failingWrites
  · refine ⟨_, .unwritable hreads (fun live hlive h => ?_) hwrites⟩
    exact hsettled ((settled_iff_upToDate hlive).2 h)
  rcases hm.read_of kind o with ⟨hnone, -⟩ | ⟨live, hlive, -⟩
  · by_cases hraces : kind ∈ m.createRaces
    · exact ⟨_, .outrun hreads hwrites hnone hraces⟩
    · exact ⟨_, .created hreads hwrites hnone hraces⟩
  · exact ⟨_, .updated hreads hwrites hlive (mt (settled_iff_upToDate hlive).2 hsettled)⟩

theorem not_settled_of_none (h : m.objects.get? (Key.of kind o) = none) : ¬ Settled m kind o := by
  rintro ⟨live, hread, -⟩
  rw [Memory.read_of_none h] at hread
  cases hread

theorem Ends.run (hm : m.Sound) (hversion : kind.resourceVersion o = none) (h : Ends m kind o r) :
    ∃ m', (upsert kind o).run Memory.answer m = (r, m') ∧ Leaves m m' kind o r := by
  cases h with
  | unreadable hreads => exact ⟨m, (Rests.unreadable hreads).run hm, rfl⟩
  | unchanged hreads hlive h =>
      exact ⟨m, (Rests.current hreads ((settled_iff_upToDate hlive).2 h)).run hm, rfl⟩
  | unwritable hreads hneeded hwrites =>
      have hsettled : ¬ Settled m kind o := by
        rintro ⟨live, hread, hcurrent⟩
        exact hneeded live (hm.holds hread) (upToDate_iff.2 hcurrent)
      exact ⟨m, (Rests.unwritable hreads hsettled hwrites).run hm, rfl⟩
  | created hreads hwrites hnone hraces =>
      obtain ⟨m', hrun, hstored⟩ := run_upsert_of_none hreads hwrites hraces hnone
      exact ⟨m', hrun, wrote_of_stored hm hversion hrun (not_settled_of_none hnone) hstored⟩
  | outrun hreads hwrites hnone hraces =>
      obtain ⟨m', hrun, hstored⟩ :=
        run_upsert_of_race hm hreads hwrites hraces (Memory.read_of_none hnone)
      exact ⟨m', hrun, wrote_of_stored hm hversion hrun (not_settled_of_none hnone) hstored⟩
  | updated hreads hwrites hlive h =>
      have hsettled := mt (settled_iff_upToDate hlive).1 h
      obtain ⟨m', hrun, hstored⟩ := run_upsert_of_drifted hm hreads hwrites hlive.read hsettled
      exact ⟨m', hrun, wrote_of_stored hm hversion hrun hsettled hstored⟩

/-- What an upsert has written stays up to date whatever is added to it. -/
theorem upToDate_of_additions (hversion : kind.resourceVersion o = none)
    (h : Json.Additions (kind.encode (desired kind o)) (kind.encode (kind.unversioned live))) :
    UpToDate kind o live := by
  have hdesired := (resourceVersion_desired o).trans hversion
  have hheld : (kind.encode (desired kind o)).isSubset (kind.encode live) = true := by
    rw [← Kind.isSubset_unversioned hdesired]
    exact Json.isSubset_of_additions h (Json.isSubset_refl (Tidy.distinct _))
  have hannotation := Json.at?_of_isSubset hheld (at?_encode_desired kind o)
  rw [at?_storedHash] at hannotation
  obtain ⟨hash, hstored, heq⟩ := Option.map_eq_some_iff.1 hannotation
  rw [Json.str.inj heq] at hstored
  exact ⟨hstored, hheld⟩

end Upsert

/-- How an upsert ends, by the faults of the store and by what is stored under the key of the object:
which answer it gives, and what it leaves behind. Whatever else is added to an object that was written
is left to stand. -/
theorem upsert_ends {m : Memory} (hm : m.Reachable) {kind : Kind} {o : kind.Object}
    (hversion : kind.resourceVersion o = none) :
    (∃ r m', (upsert kind o).run Memory.answer m = (r, m') ∧
      (∀ r', Upsert.Ends m kind o r' ↔ r' = r) ∧ Upsert.Leaves m m' kind o r) ∧
    ∀ live : kind.Object, m.Holds (Key.of kind o) live → kind ∉ m.failingReads →
      Json.Additions (kind.encode (Upsert.desired kind o)) (kind.encode (kind.unversioned live)) →
      (upsert kind o).run Memory.answer m = (.ok .unchanged, m) := by
  have hsound := hm.sound
  constructor
  · obtain ⟨r, hr⟩ := Upsert.exists_ends hsound kind o
    obtain ⟨m', hrun, hleaves⟩ := hr.run hsound hversion
    refine ⟨r, m', hrun, fun r' => ⟨fun hr' => ?_, fun h => h ▸ hr⟩, hleaves⟩
    obtain ⟨m'', hrun', -⟩ := hr'.run hsound hversion
    rw [hrun] at hrun'
    exact (Prod.mk.inj hrun').1.symm
  · intro live hlive hreads hadditions
    have hcurrent := Upsert.upToDate_of_additions hversion hadditions
    obtain ⟨m', hrun, rfl⟩ := (Upsert.Ends.unchanged hreads hlive hcurrent).run hsound hversion
    exact hrun

def pickedService : Service where
  metadata := { ObjectMeta.empty with name := some "echo" }
  spec := some { selector := some (.ofList [("app", "echo")]) }
  status := none

def addressedService : Service :=
  { Upsert.desired .service pickedService with
    spec := some { clusterIP := some "10.0.0.1", selector := some (.ofList [("app", "echo")]) } }

theorem additions_addressedService : Json.Additions (Service.encode (Upsert.desired .service pickedService))
    (Service.encode addressedService) := by
  apply Relation.ReflTransGen.single
  exact .within [_, _, _] (.member [] (.str "10.0.0.1") (by decide))

theorem upsert_ends_service :
    (∃ m', (upsert .service pickedService).run Memory.answer .empty = (.ok .created, m')) ∧
    (upsert .service pickedService).run Memory.answer (Memory.empty.seed .service addressedService) =
      (.ok .unchanged, Memory.empty.seed .service addressedService) := by
  have hversion : Kind.service.resourceVersion pickedService = none := rfl
  obtain ⟨⟨r, m', hrun, hends, -⟩, -⟩ := upsert_ends .empty hversion
  have hcreated : Upsert.Ends .empty .service pickedService (.ok .created) :=
    .created nofun nofun rfl nofun
  obtain rfl := (hends _).1 hcreated
  refine ⟨⟨m', hrun⟩, ?_⟩
  refine (upsert_ends (.act (.seed .service addressedService) .empty) hversion).2
    (Kind.service.withResourceVersion addressedService (some "1")) ⟨?_, ?_, ?_⟩ nofun ?_
  · exact Memory.get?_write_self .empty .service addressedService
  · rfl
  · rfl
  · exact additions_addressedService

end McpOperator
