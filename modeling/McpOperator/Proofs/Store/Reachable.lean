import McpOperator.Proofs.Codec.Kind

namespace McpOperator.Memory

inductive Act where
  | seed (kind : Kind) (object : kind.Object)
  | call (call : Call)
  | failReads (kind : Kind)
  | failWrites (kind : Kind)
  | heal
  | raceCreate (kind : Kind)
  | conflictStatus (n : Nat)

def Act.apply : Act → Memory → Memory
  | seed kind o, m => m.seed kind o
  | call c, m => (answer c m).2
  | failReads kind, m => m.failReads kind
  | failWrites kind, m => m.failWrites kind
  | heal, m => m.heal
  | raceCreate kind, m => m.raceCreate kind
  | conflictStatus n, m => m.conflictStatus n

inductive Reachable : Memory → Prop
  | empty : Reachable .empty
  | act {m : Memory} (a : Act) (h : Reachable m) : Reachable (a.apply m)

/-- A tree that was written under a key as the given version. -/
def Written (key : Key) (n : Nat) (json : Json) : Prop :=
  ∃ o : key.kind.Object, Key.of key.kind o = key ∧
    json = key.kind.encode (key.kind.withResourceVersion o (some (toString n)))

/-- A store that came of another one: what differs was written under a new version. -/
structure Grows (m m' : Memory) : Prop where
  version_le : m.version ≤ m'.version
  written (key : Key) : m'.objects.get? key = m.objects.get? key ∨
    ∃ json n, m'.objects.get? key = some json ∧ m.version < n ∧ n ≤ m'.version ∧ Written key n json

namespace Grows

theorem same {m m' : Memory} (hversion : m'.version = m.version) (hobjects : m'.objects = m.objects) :
    Grows m m' :=
  ⟨Nat.le_of_eq hversion.symm, fun _ => .inl (by rw [hobjects])⟩

theorem refl (m : Memory) : Grows m m := same rfl rfl

theorem trans {a b c : Memory} (h : Grows a b) (h' : Grows b c) : Grows a c := by
  refine ⟨Nat.le_trans h.version_le h'.version_le, ?_⟩
  intro key
  rcases h'.written key with heq | ⟨json, n, hget, hlow, hhigh, hw⟩
  · rw [heq]
    rcases h.written key with heq | ⟨json, n, hget, hlow, hhigh, hw⟩
    · exact .inl heq
    · exact .inr ⟨json, n, hget, hlow, Nat.le_trans hhigh h'.version_le, hw⟩
  · exact .inr ⟨json, n, hget, Nat.lt_of_le_of_lt h.version_le hlow, hhigh, hw⟩

end Grows

section

variable (m : Memory) (kind : Kind) (o : kind.Object)

theorem get?_write_self : (m.write kind o).2.objects.get? (Key.of kind o) =
    some (kind.encode (kind.withResourceVersion o (some (toString (m.version + 1))))) := by
  simp [write]

theorem get?_write_of_ne {key : Key} (h : Key.of kind o ≠ key) :
    (m.write kind o).2.objects.get? key = m.objects.get? key := by
  simp [write, Table.get?_put_of_ne _ _ h]

theorem grows_write : Grows m (m.write kind o).2 := by
  refine ⟨Nat.le_succ m.version, ?_⟩
  intro key
  by_cases h : Key.of kind o = key
  · subst h
    exact .inr ⟨_, m.version + 1, get?_write_self m kind o, Nat.lt_succ_self _, Nat.le_refl _, o, rfl, rfl⟩
  · exact .inl (get?_write_of_ne m kind o h)

theorem grows_mutate : Grows m (m.mutate kind o).2 :=
  (grows_write m kind o).trans (.same rfl rfl)

theorem grows_race : Grows m (m.race kind o) := by
  rw [race]
  split
  · have hrace : Grows m { m with createRaces := m.createRaces.filter (· ≠ kind) } := .same rfl rfl
    exact hrace.trans (grows_write _ kind _)
  · exact .refl m

theorem grows_create : Grows m (m.create kind o).2 := by
  rw [create]
  split
  · exact .refl m
  · have hrace := grows_race m kind o
    dsimp only
    split
    · exact hrace
    · exact hrace.trans (grows_mutate _ kind o)

theorem grows_replace : Grows m (m.replace kind o).2 := by
  rw [replace]
  split
  · exact .refl m
  · dsimp only
    split
    · exact .refl m
    · split
      · exact grows_mutate m kind o
      · exact .refl m

theorem grows_replaceStatus (server : McpServer) : Grows m (m.replaceStatus server).2 := by
  rw [replaceStatus]
  dsimp only
  split
  · exact .same rfl rfl
  · split
    · exact .refl m
    · split
      · exact .refl m
      · split
        · exact grows_mutate m .server _
        · exact .refl m

end

theorem grows_answer (m : Memory) (c : Call) : Grows m (answer c m).2 := by
  cases c with
  | get key => exact .refl m
  | create kind o => exact grows_create m kind o
  | replace kind o => exact grows_replace m kind o
  | replaceStatus server => exact grows_replaceStatus m server

theorem grows_act (m : Memory) (a : Act) : Grows m (a.apply m) := by
  cases a with
  | seed kind o => exact grows_write m kind o
  | call c => exact grows_answer m c
  | failReads | failWrites | heal | raceCreate | conflictStatus => exact .same rfl rfl

theorem grows_run {α : Type} (m : Memory) (w : Work α) : Grows m (w.run answer m).2 := by
  induction w generalizing m with
  | done a => exact .refl m
  | call c next ih => exact (grows_answer m c).trans (ih _ _)

/-- Every tree was written under a version that the store has had. -/
def Sound (m : Memory) : Prop := Grows .empty m

theorem Sound.grow {m m' : Memory} (hm : m.Sound) (h : Grows m m') : m'.Sound := Grows.trans hm h

theorem Sound.run {α : Type} {m m' : Memory} {w : Work α} {a : α} (hm : m.Sound)
    (h : w.run answer m = (a, m')) : m'.Sound := by
  have hgrows := grows_run m w
  rw [h] at hgrows
  exact hm.grow hgrows

theorem Reachable.sound {m : Memory} (h : Reachable m) : m.Sound := by
  induction h with
  | empty => exact .refl _
  | act a _ ih => exact ih.trans (grows_act _ a)

theorem Sound.written {m : Memory} (h : m.Sound) {key : Key} {json : Json}
    (hget : m.objects.get? key = some json) : ∃ n, n ≤ m.version ∧ Written key n json := by
  rcases Grows.written h key with heq | ⟨_, n, hjson, -, hhigh, hw⟩
  · rw [heq] at hget
    cases hget
  · rw [hjson] at hget
    cases hget
    exact ⟨n, hhigh, hw⟩

theorem Written.versionOf {key : Key} {n : Nat} {json : Json} (h : Written key n json) :
    versionOf json = some (toString n) := by
  obtain ⟨o, -, rfl⟩ := h
  rw [Kind.versionOf_encode, Kind.resourceVersion_withResourceVersion]

theorem toString_inj {m n : Nat} (h : toString m = toString n) : m = n := by
  have hdigits : Nat.toDigits 10 m = Nat.toDigits 10 n := by
    rw [← Nat.toList_repr, ← Nat.toList_repr, ← Nat.toString_eq_repr, h, Nat.toString_eq_repr]
  rw [← Nat.ofDigitChars_ten_toDigits (n := m), hdigits, Nat.ofDigitChars_ten_toDigits]

/-- No version is used twice: a key that has the version it had before has the tree it had before. -/
theorem Grows.eq_of_versionOf {m m' : Memory} (h : m.Grows m') (hm : m.Sound) {key : Key}
    {json json' : Json} (hget : m.objects.get? key = some json)
    (hget' : m'.objects.get? key = some json') (hversion : Memory.versionOf json' = Memory.versionOf json) :
    json' = json := by
  rcases h.written key with heq | ⟨other, n, hother, hlow, -, hw⟩
  · rw [heq, hget] at hget'
    exact (Option.some.inj hget').symm
  · rw [hother] at hget'
    cases hget'
    obtain ⟨k, hk, hwritten⟩ := hm.written hget
    rw [hw.versionOf, hwritten.versionOf, Option.some.injEq] at hversion
    have := toString_inj hversion
    omega

/-- The object that is stored under a key, as it is read. -/
structure Holds (m : Memory) (key : Key) (live : key.kind.Object) : Prop where
  objects : m.objects.get? key = some (key.kind.encode live)
  key_eq : Key.of key.kind live = key
  whole : key.kind.wholeSeconds live = live

theorem Holds.read {m : Memory} {key : Key} {live : key.kind.Object} (h : m.Holds key live) :
    m.read key = .ok (some live) := by
  rw [Memory.read, h.objects]
  simp only [Kind.decode_encode, Except.map]
  rw [h.whole]

theorem Holds.of_key_eq {m : Memory} {kind : Kind} {o p live : kind.Object}
    (h : m.Holds (Key.of kind o) live) (hkey : Key.of kind o = Key.of kind p) :
    m.Holds (Key.of kind p) live :=
  ⟨(congrArg m.objects.get? hkey).symm.trans h.objects, h.key_eq.trans hkey, h.whole⟩

theorem Holds.self {m : Memory} {kind : Kind} {o live : kind.Object} (h : m.Holds (Key.of kind o) live) :
    m.Holds (Key.of kind live) live :=
  h.of_key_eq h.key_eq.symm

theorem read_of_get {m : Memory} {key : Key} {live : key.kind.Object}
    (h : (m.get key).toOption.join = some live) : m.read key = .ok (some live) := by
  rw [get] at h
  split at h
  · cases h
  · cases hread : m.read key with
    | error e =>
        rw [hread] at h
        cases h
    | ok found =>
        rw [hread] at h
        exact congrArg Except.ok h

theorem Sound.read {m : Memory} (h : m.Sound) (key : Key) :
    (m.objects.get? key = none ∧ m.read key = .ok none) ∨
      ∃ live, m.Holds key live ∧ m.read key = .ok (some live) := by
  cases hget : m.objects.get? key with
  | none =>
      refine .inl ⟨rfl, ?_⟩
      rw [Memory.read, hget]
  | some json =>
      obtain ⟨n, -, o, hkey, rfl⟩ := h.written hget
      have hholds : m.Holds key
          (key.kind.wholeSeconds (key.kind.withResourceVersion o (some (toString n)))) := by
        refine ⟨?_, ?_, Kind.wholeSeconds_wholeSeconds _⟩
        · rw [hget, Kind.encode_wholeSeconds]
        · rw [Key.of_wholeSeconds, Key.of_withResourceVersion, hkey]
      exact .inr ⟨_, hholds, hholds.read⟩

theorem Sound.read_of {m : Memory} (h : m.Sound) (kind : Kind) (o : kind.Object) :
    (m.objects.get? (Key.of kind o) = none ∧ m.read (Key.of kind o) = .ok none) ∨
      ∃ live : kind.Object, m.Holds (Key.of kind o) live ∧ m.read (Key.of kind o) = .ok (some live) :=
  h.read (Key.of kind o)

theorem Sound.holds {m : Memory} (h : m.Sound) {key : Key} {live : key.kind.Object}
    (hread : m.read key = .ok (some live)) : m.Holds key live := by
  rcases h.read key with ⟨-, hnone⟩ | ⟨other, hholds, hsome⟩
  · rw [hnone] at hread
    cases hread
  · rw [hsome] at hread
    cases hread
    exact hholds

theorem Grows.holds_eq {m m' : Memory} (h : m.Grows m') (hm : m.Sound) {key : Key}
    {live live' : key.kind.Object} (hlive : m.Holds key live) (hlive' : m'.Holds key live')
    (hversion : key.kind.resourceVersion live' = key.kind.resourceVersion live) : live' = live := by
  have hencode : key.kind.encode live' = key.kind.encode live := by
    apply h.eq_of_versionOf hm hlive.objects hlive'.objects
    rw [Kind.versionOf_encode, Kind.versionOf_encode, hversion]
  have hdecode := Kind.decode_encode live'
  rw [hencode, Kind.decode_encode, hlive.whole, hlive'.whole] at hdecode
  exact (Except.ok.inj hdecode).symm

theorem Grows.version_ne {m₀ m₁ m₂ m₃ : Memory} (hm : m₀.Sound) (h : m₀.Grows m₁) (hact : m₁.Grows m₂)
    (h' : m₂.Grows m₃) {key : Key} (hne : m₂.objects.get? key ≠ m₁.objects.get? key) {json : Json}
    (hget : m₀.objects.get? key = some json) :
    ∃ json', m₃.objects.get? key = some json' ∧ Memory.versionOf json' ≠ Memory.versionOf json := by
  obtain ⟨k, hk, hold⟩ := hm.written hget
  -- What is there in the end has a version that is later than all that there were at first.
  suffices hnew : ∃ json' n, m₃.objects.get? key = some json' ∧ m₁.version < n ∧ Written key n json' by
    obtain ⟨json', n, hjson, hlow, hwritten⟩ := hnew
    refine ⟨json', hjson, ?_⟩
    rw [hwritten.versionOf, hold.versionOf]
    intro heq
    have hnk := toString_inj (Option.some.inj heq)
    have hle := h.version_le
    omega
  obtain ⟨json₂, n₂, hjson₂, hlow₂, hhigh₂, hwritten₂⟩ := (hact.written key).resolve_left hne
  rcases h'.written key with hsame | ⟨json₃, n₃, hjson₃, hlow₃, -, hwritten₃⟩
  · exact ⟨json₂, n₂, hsame.trans hjson₂, hlow₂, hwritten₂⟩
  · exact ⟨json₃, n₃, hjson₃, by omega, hwritten₃⟩

section

variable {m : Memory} {kind : Kind} {o : kind.Object}

theorem create_ok {p : kind.Object} (h : (m.create kind o).1 = .ok p) :
    m.objects.get? (Key.of kind o) = none := by
  rw [create] at h
  split at h
  · cases h
  · dsimp only at h
    split at h
    · cases h
    · rename_i hnone
      rw [Bool.not_eq_true, Option.isSome_eq_false_iff, Option.isNone_iff_eq_none] at hnone
      rw [race] at hnone
      split at hnone
      · have hwritten := get?_write_self { m with createRaces := m.createRaces.filter (· ≠ kind) } kind
          (kind.withAnnotations o none)
        rw [Key.of_withAnnotations] at hwritten
        cases hnone.symm.trans hwritten
      · exact hnone

theorem replace_ok (hm : m.Sound) {p : kind.Object} (h : (m.replace kind o).1 = .ok p) :
    ∃ live : kind.Object, m.Holds (Key.of kind o) live ∧
      kind.resourceVersion live = kind.resourceVersion o := by
  rcases hm.read_of kind o with ⟨hnone, -⟩ | ⟨live, hlive, -⟩
  · rw [replace] at h
    split at h
    · cases h
    · simp only [hnone] at h
      cases h
  · refine ⟨live, hlive, ?_⟩
    have hobject : m.objects.get? (Key.of kind o) = some (kind.encode live) := hlive.objects
    rw [replace] at h
    split at h
    · cases h
    · simp only [hobject, Kind.versionOf_encode] at h
      split at h
      · assumption
      · cases h

theorem replaceStatus_eq {server live : McpServer} (hlive : m.Holds (Key.of .server server) live) :
    m.replaceStatus server =
      if 0 < m.statusConflicts then (.error (.conflict (Key.of .server server).display),
        { m with statusConflicts := m.statusConflicts - 1 })
      else if live.metadata.resourceVersion = server.metadata.resourceVersion then
        let (o, m') := m.mutate .server { live with status := server.status }
        (.ok o, m')
      else (.error (.conflict (Key.of .server server).display), m) := by
  have hwhole : McpServer.wholeSeconds live = live := hlive.whole
  have hdecode := Codec.decode_written McpServer.encode McpServer.decode live
  rw [hwhole] at hdecode
  have hobject : m.objects.get? (Key.of .server server) = some (McpServer.encode live) := hlive.objects
  simp only [replaceStatus, hobject, hdecode]

theorem replaceStatus_ok (hm : m.Sound) {server p : McpServer} (h : (m.replaceStatus server).1 = .ok p) :
    m.statusConflicts = 0 ∧ ∃ live : McpServer, m.Holds (Key.of .server server) live ∧
      live.metadata.resourceVersion = server.metadata.resourceVersion := by
  rcases hm.read_of .server server with ⟨hnone, -⟩ | ⟨live, hlive, -⟩
  · simp only [replaceStatus, hnone] at h
    split at h <;> cases h
  · rw [replaceStatus_eq hlive] at h
    split at h
    · cases h
    · rename_i hconflicts
      split at h
      · rename_i hversion
        exact ⟨Nat.eq_zero_of_not_pos hconflicts, live, hlive, hversion⟩
      · cases h

end

end McpOperator.Memory
