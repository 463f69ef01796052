import McpOperator.Proofs.Store.Reachable

namespace McpOperator

namespace Memory

theorem read_congr {m m' : Memory} {key : Key} (h : m'.objects.get? key = m.objects.get? key) :
    m'.read key = m.read key := by
  rw [read, read, h]

theorem read_of_none {m : Memory} {key : Key} (h : m.objects.get? key = none) : m.read key = .ok none := by
  rw [read, h]

theorem read_of_key_eq (m : Memory) {kind : Kind} {o p : kind.Object} (h : Key.of kind o = Key.of kind p) :
    (m.read (Key.of kind o) : Except DecodeError (Option kind.Object)) = m.read (Key.of kind p) := by
  have hparts : ∀ ns ns' name name' : String, ns = ns' → name = name' →
      (m.read ⟨kind, ns, name⟩ : Except DecodeError (Option kind.Object)) = m.read ⟨kind, ns', name'⟩ := by
    rintro ns _ name _ rfl rfl
    rfl
  exact hparts _ _ _ _ (congrArg Key.ns h) (congrArg Key.name h)

theorem get_of_failing {m : Memory} {key : Key} (h : key.kind ∈ m.failingReads) :
    m.get key = .error (unavailable key.kind) := if_pos h

theorem get_of_read {m : Memory} {key : Key} (h : key.kind ∉ m.failingReads)
    {found : Option key.kind.Object} (hread : m.read key = .ok found) : m.get key = .ok found := by
  rw [get, if_neg h, hread]
  rfl

/-- Faults that last stay as they are; a race that was set up may be over. -/
structure KeepsFaults (m m' : Memory) : Prop where
  failingReads : m'.failingReads = m.failingReads
  failingWrites : m'.failingWrites = m.failingWrites
  createRaces : m'.createRaces ⊆ m.createRaces
  statusConflicts : m'.statusConflicts = m.statusConflicts

namespace KeepsFaults

theorem refl (m : Memory) : KeepsFaults m m := ⟨rfl, rfl, fun _ h => h, rfl⟩

theorem trans {a b c : Memory} (h : KeepsFaults a b) (h' : KeepsFaults b c) : KeepsFaults a c where
  failingReads := h'.failingReads.trans h.failingReads
  failingWrites := h'.failingWrites.trans h.failingWrites
  createRaces _ hk := h.createRaces (h'.createRaces hk)
  statusConflicts := h'.statusConflicts.trans h.statusConflicts

end KeepsFaults

/-- A store in which an object has been stored, under its key and nowhere else. -/
structure Stored (m m' : Memory) (kind : Kind) (o : kind.Object) : Prop where
  version_lt : m.version < m'.version
  object : ∃ n, m'.objects.get? (Key.of kind o) =
    some (kind.encode (kind.withResourceVersion o (some (toString (n : Nat)))))
  others {key : Key} (h : Key.of kind o ≠ key) : m'.objects.get? key = m.objects.get? key
  faults : KeepsFaults m m'

namespace Stored

variable {m m' : Memory} {kind : Kind} {o : kind.Object}

theorem withResourceVersion {version : Option String}
    (h : Stored m m' kind (kind.withResourceVersion o version)) : Stored m m' kind o where
  version_lt := h.version_lt
  object := by
    obtain ⟨n, hobject⟩ := h.object
    rw [Key.of_withResourceVersion, Kind.withResourceVersion_withResourceVersion] at hobject
    exact ⟨n, hobject⟩
  others hkey := h.others (by rwa [Key.of_withResourceVersion])
  faults := h.faults

theorem trans {m'' : Memory} {p : kind.Object} (h : Stored m m' kind p) (h' : Stored m' m'' kind o)
    (hkey : Key.of kind p = Key.of kind o) : Stored m m'' kind o where
  version_lt := Nat.lt_trans h.version_lt h'.version_lt
  object := h'.object
  others hne := (h'.others hne).trans (h.others (hkey ▸ hne))
  faults := h.faults.trans h'.faults

end Stored

section

variable (m : Memory) (kind : Kind) (o : kind.Object)

theorem stored_write : Stored m (m.write kind o).2 kind o where
  version_lt := Nat.lt_succ_self m.version
  object := ⟨m.version + 1, get?_write_self m kind o⟩
  others h := get?_write_of_ne m kind o h
  faults := ⟨rfl, rfl, fun _ h => h, rfl⟩

theorem stored_mutate : Stored m (m.mutate kind o).2 kind o where
  version_lt := Nat.lt_succ_self m.version
  object := ⟨m.version + 1, get?_write_self m kind o⟩
  others h := get?_write_of_ne m kind o h
  faults := ⟨rfl, rfl, fun _ h => h, rfl⟩

end

variable {m : Memory} {kind : Kind} {o : kind.Object}

theorem stored_race (h : kind ∈ m.createRaces) :
    Stored m (m.race kind o) kind (kind.withAnnotations o none) := by
  rw [race, if_pos h]
  have hstored := stored_write { m with createRaces := m.createRaces.filter (· ≠ kind) } kind
    (kind.withAnnotations o none)
  exact ⟨hstored.version_lt, hstored.object, hstored.others, hstored.faults.failingReads,
    hstored.faults.failingWrites, fun k hk => List.mem_of_mem_filter (hstored.faults.createRaces hk),
    hstored.faults.statusConflicts⟩

theorem create_of_failing (h : kind ∈ m.failingWrites) :
    m.create kind o = (.error (unavailable kind), m) := if_pos h

theorem replace_of_failing (h : kind ∈ m.failingWrites) :
    m.replace kind o = (.error (unavailable kind), m) := if_pos h

theorem create_of_none (hwrites : kind ∉ m.failingWrites) (hraces : kind ∉ m.createRaces)
    (hnone : m.objects.get? (Key.of kind o) = none) : ∃ p m', m.create kind o = (.ok p, m') ∧
      Stored m m' kind o := by
  refine ⟨(m.mutate kind o).1, (m.mutate kind o).2, ?_, stored_mutate m kind o⟩
  simp [create, if_neg hwrites, race, if_neg hraces, hnone]

theorem create_of_race (hwrites : kind ∉ m.failingWrites) (hraces : kind ∈ m.createRaces) :
    m.create kind o = (.error (.alreadyExists (Key.of kind o).display), m.race kind o) := by
  obtain ⟨n, hobject⟩ := (stored_race (o := o) hraces).object
  rw [Key.of_withAnnotations] at hobject
  simp [create, if_neg hwrites, hobject]

theorem replace_of_current (hwrites : kind ∉ m.failingWrites) {live : kind.Object}
    (hlive : m.objects.get? (Key.of kind o) = some (kind.encode live))
    (hversion : kind.resourceVersion o = kind.resourceVersion live) :
    ∃ p m', m.replace kind o = (.ok p, m') ∧ Stored m m' kind o := by
  refine ⟨(m.mutate kind o).1, (m.mutate kind o).2, ?_, stored_mutate m kind o⟩
  simp [replace, if_neg hwrites, hlive, Kind.versionOf_encode, hversion]

end Memory

namespace Upsert

variable {kind : Kind} (o : kind.Object)

def desired (kind : Kind) (o : kind.Object) : kind.Object := stamp kind o (appliedHash kind o)

@[simp] theorem key_desired : Key.of kind (desired kind o) = Key.of kind o := by
  rw [desired, stamp, Key.of_withAnnotations]

@[simp] theorem resourceVersion_desired :
    kind.resourceVersion (desired kind o) = kind.resourceVersion o := by
  rw [desired, stamp, Kind.resourceVersion_withAnnotations]

theorem storedHash_desired : storedHash kind (desired kind o) = some (appliedHash kind o) := by
  rw [storedHash, desired, stamp, Kind.annotations_withAnnotations]
  exact SortedMap.get?_insert_self _ hashKey _

theorem at?_storedHash : (kind.encode o).at? ["metadata", "annotations", hashKey] =
    (storedHash kind o).map Json.str :=
  Kind.at?_annotation o hashKey

theorem at?_encode_desired (kind : Kind) (o : kind.Object) :
    (kind.encode (desired kind o)).at? ["metadata", "annotations", hashKey] =
      some (.str (appliedHash kind o)) := by
  rw [at?_storedHash, storedHash_desired, Option.map_some]

/-- The object is there as it is desired, and no write is needed. -/
def Settled (m : Memory) (kind : Kind) (o : kind.Object) : Prop :=
  ∃ live : kind.Object, m.read (Key.of kind o) = .ok (some live) ∧
    isCurrent kind (desired kind o) live (appliedHash kind o) = true

/-- How an upsert ends that writes nothing. -/
inductive Rests (m : Memory) (kind : Kind) (o : kind.Object) : Except StoreError UpsertOutcome → Prop
  | unreadable (h : kind ∈ m.failingReads) : Rests m kind o (.error (Memory.unavailable kind))
  | current (hreads : kind ∉ m.failingReads) (h : Settled m kind o) : Rests m kind o (.ok .unchanged)
  | unwritable (hreads : kind ∉ m.failingReads) (h : ¬ Settled m kind o)
      (hwrites : kind ∈ m.failingWrites) : Rests m kind o (.error (Memory.unavailable kind))

variable {m m' : Memory} {o}

theorem settled_congr (h : m'.objects.get? (Key.of kind o) = m.objects.get? (Key.of kind o)) :
    Settled m' kind o ↔ Settled m kind o := by
  rw [Settled, Settled, Memory.read_congr h]

theorem Rests.congr {r : Except StoreError UpsertOutcome} (hr : Rests m kind o r)
    (hreads : m'.failingReads = m.failingReads) (hwrites : m'.failingWrites = m.failingWrites)
    (h : m'.objects.get? (Key.of kind o) = m.objects.get? (Key.of kind o)) : Rests m' kind o r := by
  cases hr with
  | unreadable hfail => exact .unreadable (hreads ▸ hfail)
  | current hfine hs => exact .current (hreads ▸ hfine) ((settled_congr h).2 hs)
  | unwritable hfine hs hfail =>
      exact .unwritable (hreads ▸ hfine) (mt (settled_congr h).1 hs) (hwrites ▸ hfail)

theorem settled_of_stored (hversion : kind.resourceVersion o = none)
    (h : Memory.Stored m m' kind (desired kind o)) : Settled m' kind o := by
  obtain ⟨n, hobject⟩ := h.object
  rw [key_desired] at hobject
  refine ⟨kind.wholeSeconds (kind.withResourceVersion (desired kind o) (some (toString n))), ?_, ?_⟩
  · rw [Memory.read, hobject]
    exact congrArg (Except.map some) (Kind.decode_encode _)
  · have hhash : storedHash kind (kind.wholeSeconds
        (kind.withResourceVersion (desired kind o) (some (toString n)))) =
        some (appliedHash kind o) := by
      rw [storedHash, Kind.annotations_wholeSeconds, Kind.annotations_withResourceVersion]
      exact storedHash_desired o
    have hsubset := Kind.isSubset_withResourceVersion
      ((resourceVersion_desired o).trans hversion) (some (toString n))
    rw [isCurrent, hhash, Kind.encode_wholeSeconds, hsubset]
    simp

section

variable (d : kind.Object) (hash : String)

theorem run_attempt : (attempt kind d hash).run Memory.answer m =
    match m.get (Key.of kind d) with
    | .error e => (.error e, m)
    | .ok none =>
        match m.create kind d with
        | (.error e, m') => (.error e, m')
        | (.ok _, m') => (.ok .created, m')
    | .ok (some live) =>
        if isCurrent kind d live hash then (.ok .unchanged, m)
        else match m.replace kind (kind.withResourceVersion d (kind.resourceVersion live)) with
          | (.error e, m') => (.error e, m')
          | (.ok _, m') => (.ok .updated, m') := by
  simp only [attempt, Work.run, Memory.answer]
  cases m.get (Key.of kind d) with
  | error e => rfl
  | ok found =>
      cases found with
      | none =>
          simp only [Work.run, Memory.answer]
          rcases m.create kind d with ⟨e | p, m'⟩ <;> rfl
      | some live =>
          dsimp only
          split
          · rfl
          · simp only [Work.run, Memory.answer]
            rcases m.replace kind _ with ⟨e | p, m'⟩ <;> rfl

theorem run_attempt_of_failing (h : kind ∈ m.failingReads) :
    (attempt kind d hash).run Memory.answer m = (.error (Memory.unavailable kind), m) := by
  have hget : m.get (Key.of kind d) = .error (Memory.unavailable kind) := Memory.get_of_failing h
  rw [run_attempt, hget]

theorem run_attempt_of_none (hreads : kind ∉ m.failingReads) (h : m.read (Key.of kind d) = .ok none) :
    (attempt kind d hash).run Memory.answer m =
      match m.create kind d with
      | (.error e, m') => (.error e, m')
      | (.ok _, m') => (.ok .created, m') := by
  rw [run_attempt, Memory.get_of_read hreads h]

variable {live : kind.Object}

theorem run_attempt_of_current (hreads : kind ∉ m.failingReads)
    (h : m.read (Key.of kind d) = .ok (some live)) (hcurrent : isCurrent kind d live hash = true) :
    (attempt kind d hash).run Memory.answer m = (.ok .unchanged, m) := by
  rw [run_attempt, Memory.get_of_read hreads h]
  exact if_pos hcurrent

theorem run_attempt_of_drifted (hreads : kind ∉ m.failingReads)
    (h : m.read (Key.of kind d) = .ok (some live)) (hcurrent : isCurrent kind d live hash = false) :
    (attempt kind d hash).run Memory.answer m =
      match m.replace kind (kind.withResourceVersion d (kind.resourceVersion live)) with
      | (.error e, m') => (.error e, m')
      | (.ok _, m') => (.ok .updated, m') := by
  rw [run_attempt, Memory.get_of_read hreads h]
  exact if_neg (by simp [hcurrent])

theorem run_attempt_replaces (hm : m.Sound) (hreads : kind ∉ m.failingReads)
    (hwrites : kind ∉ m.failingWrites) (h : m.read (Key.of kind d) = .ok (some live))
    (hcurrent : isCurrent kind d live hash = false) :
    ∃ m', (attempt kind d hash).run Memory.answer m = (.ok .updated, m') ∧ Memory.Stored m m' kind d := by
  have hlive := (hm.holds h).objects
  obtain ⟨p, m', hreplace, hstored⟩ := Memory.replace_of_current
    (o := kind.withResourceVersion d (kind.resourceVersion live)) hwrites
    (by rw [Key.of_withResourceVersion]; exact hlive) (by rw [Kind.resourceVersion_withResourceVersion])
  refine ⟨m', ?_, hstored.withResourceVersion⟩
  rw [run_attempt_of_drifted d hash hreads h hcurrent, hreplace]

end

theorem run_upsert : (upsert kind o).run Memory.answer m =
    match (attempt kind (desired kind o) (appliedHash kind o)).run Memory.answer m with
    | (.error (.alreadyExists _), m') =>
        (attempt kind (desired kind o) (appliedHash kind o)).run Memory.answer m'
    | other => other := by
  rw [upsert, Work.run_bind, ← desired]
  rcases (attempt kind (desired kind o) (appliedHash kind o)).run Memory.answer m with ⟨e | r, m'⟩
  · cases e <;> rfl
  · rfl

theorem read_desired (m : Memory) (o : kind.Object) :
    (m.read (Key.of kind (desired kind o)) : Except DecodeError (Option kind.Object)) =
      m.read (Key.of kind o) :=
  Memory.read_of_key_eq m (key_desired o)

theorem settled_iff {live : kind.Object} (h : m.read (Key.of kind o) = .ok (some live)) :
    Settled m kind o ↔ isCurrent kind (desired kind o) live (appliedHash kind o) = true := by
  constructor
  · rintro ⟨other, hread, hcurrent⟩
    rw [h] at hread
    cases hread
    exact hcurrent
  · exact fun hcurrent => ⟨live, h, hcurrent⟩

theorem Rests.run {r : Except StoreError UpsertOutcome} (hm : m.Sound) (hr : Rests m kind o r) :
    (upsert kind o).run Memory.answer m = (r, m) := by
  rw [run_upsert]
  cases hr with
  | unreadable h =>
      rw [run_attempt_of_failing _ _ h]
      rfl
  | current hreads h =>
      obtain ⟨live, hread, hcurrent⟩ := h
      rw [run_attempt_of_current _ _ hreads ((read_desired m o).trans hread) hcurrent]
  | unwritable hreads h hwrites =>
      rcases hm.read (Key.of kind o) with ⟨-, hread⟩ | ⟨live, -, hread⟩
      · rw [run_attempt_of_none _ _ hreads ((read_desired m o).trans hread),
          Memory.create_of_failing hwrites]
        rfl
      · have hcurrent : isCurrent kind (desired kind o) live (appliedHash kind o) = false :=
          Bool.eq_false_iff.2 (mt (settled_iff hread).2 h)
        rw [run_attempt_of_drifted _ _ hreads ((read_desired m o).trans hread) hcurrent,
          Memory.replace_of_failing hwrites]
        rfl

theorem run_upsert_of_race (hm : m.Sound) (hreads : kind ∉ m.failingReads)
    (hwrites : kind ∉ m.failingWrites) (hraces : kind ∈ m.createRaces)
    (h : m.read (Key.of kind o) = .ok none) :
    ∃ m', (upsert kind o).run Memory.answer m = (.ok .updated, m') ∧
      Memory.Stored m m' kind (desired kind o) := by
  have hrace := Memory.stored_race (o := desired kind o) hraces
  have hsound : (m.race kind (desired kind o)).Sound := hm.grow (Memory.grows_race m kind _)
  obtain ⟨n, hobject⟩ := hrace.object
  rw [Key.of_withAnnotations] at hobject
  have hread : (m.race kind (desired kind o)).read (Key.of kind (desired kind o)) = .ok (some
      (kind.wholeSeconds (kind.withResourceVersion (kind.withAnnotations (desired kind o) none)
        (some (toString n))))) := by
    rw [Memory.read, hobject]
    exact congrArg (Except.map some) (Kind.decode_encode _)
  -- Whatever else it holds, without annotations it has no digest.
  have hcurrent : isCurrent kind (desired kind o)
      (kind.wholeSeconds (kind.withResourceVersion (kind.withAnnotations (desired kind o) none)
        (some (toString n)))) (appliedHash kind o) = false := by
    simp [isCurrent, storedHash]
  obtain ⟨m', hrun, hstored⟩ := run_attempt_replaces (desired kind o) (appliedHash kind o) hsound
    (hrace.faults.failingReads ▸ hreads) (hrace.faults.failingWrites ▸ hwrites) hread hcurrent
  refine ⟨m', ?_, hrace.trans hstored (Key.of_withAnnotations kind _ _)⟩
  rw [run_upsert, run_attempt_of_none _ _ hreads ((read_desired m o).trans h),
    Memory.create_of_race hwrites hraces]
  exact hrun

theorem run_upsert_of_none (hreads : kind ∉ m.failingReads) (hwrites : kind ∉ m.failingWrites)
    (hraces : kind ∉ m.createRaces) (hnone : m.objects.get? (Key.of kind o) = none) :
    ∃ m', (upsert kind o).run Memory.answer m = (.ok .created, m') ∧
      Memory.Stored m m' kind (desired kind o) := by
  obtain ⟨p, m', hcreate, hstored⟩ := Memory.create_of_none (o := desired kind o) hwrites hraces
    (by rwa [key_desired])
  refine ⟨m', ?_, hstored⟩
  have hread := (read_desired m o).trans (Memory.read_of_none hnone)
  rw [run_upsert, run_attempt_of_none _ _ hreads hread, hcreate]

theorem run_upsert_of_drifted (hm : m.Sound) (hreads : kind ∉ m.failingReads)
    (hwrites : kind ∉ m.failingWrites) {live : kind.Object}
    (hread : m.read (Key.of kind o) = .ok (some live)) (hsettled : ¬ Settled m kind o) :
    ∃ m', (upsert kind o).run Memory.answer m = (.ok .updated, m') ∧
      Memory.Stored m m' kind (desired kind o) := by
  have hcurrent : isCurrent kind (desired kind o) live (appliedHash kind o) = false :=
    Bool.eq_false_iff.2 (mt (settled_iff hread).2 hsettled)
  obtain ⟨m', hrun, hstored⟩ := run_attempt_replaces (desired kind o) (appliedHash kind o) hm hreads
    hwrites ((read_desired m o).trans hread) hcurrent
  refine ⟨m', ?_, hstored⟩
  rw [run_upsert, hrun]

/-- An upsert rests, or it ends well and leaves the object stored. -/
theorem upsert_cases (hm : m.Sound) (kind : Kind) (o : kind.Object) :
    (∃ r, Rests m kind o r ∧ (upsert kind o).run Memory.answer m = (r, m)) ∨
      ∃ outcome m', (upsert kind o).run Memory.answer m = (.ok outcome, m') ∧
        kind ∉ m.failingReads ∧ ¬ Settled m kind o ∧ Memory.Stored m m' kind (desired kind o) := by
  by_cases hreads : kind ∈ m.failingReads
  · have hrests : Rests m kind o (.error (Memory.unavailable kind)) := .unreadable hreads
    exact .inl ⟨_, hrests, hrests.run hm⟩
  by_cases hsettled : Settled m kind o
  · have hrests : Rests m kind o (.ok .unchanged) := .current hreads hsettled
    exact .inl ⟨_, hrests, hrests.run hm⟩
  by_cases hwrites : kind ∈ m.failingWrites
  · have hrests : Rests m kind o (.error (Memory.unavailable kind)) :=
      .unwritable hreads hsettled hwrites
    exact .inl ⟨_, hrests, hrests.run hm⟩
  refine .inr ?_
  rcases hm.read (Key.of kind o) with ⟨hnone, hread⟩ | ⟨live, -, hread⟩
  · by_cases hraces : kind ∈ m.createRaces
    · obtain ⟨m', hrun, hstored⟩ := run_upsert_of_race hm hreads hwrites hraces hread
      exact ⟨_, m', hrun, hreads, hsettled, hstored⟩
    · obtain ⟨m', hrun, hstored⟩ := run_upsert_of_none hreads hwrites hraces hnone
      exact ⟨_, m', hrun, hreads, hsettled, hstored⟩
  · obtain ⟨m', hrun, hstored⟩ := run_upsert_of_drifted hm hreads hwrites hread hsettled
    exact ⟨_, m', hrun, hreads, hsettled, hstored⟩

theorem eq_of_run_error (hm : m.Sound) {e : StoreError}
    (h : (upsert kind o).run Memory.answer m = (.error e, m')) : m' = m := by
  rcases upsert_cases hm kind o with ⟨r, -, hrun⟩ | ⟨outcome, m₁, hrun, -⟩
  · rw [h] at hrun
    exact (Prod.mk.inj hrun).2
  · rw [h] at hrun
    cases hrun

end Upsert
end McpOperator
