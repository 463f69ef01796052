import McpOperator.Proofs.Store.Upsert
import Mathlib.Data.Set.Basic

namespace McpOperator

namespace Json

theorem isSubset_record (fields others : List (String × Option Json)) :
    (record fields).isSubset (record others) =
      membersSubset (Members.present fields) (Members.present others) := by
  rw [record, record, isSubset]

@[simp] theorem membersSubset_present_nil (live : Members) :
    membersSubset (Members.present []) live = true := rfl

@[simp] theorem membersSubset_present_cons (key : String) (o : Option Json)
    (fields : List (String × Option Json)) (live : Members) :
    membersSubset (Members.present ((key, o) :: fields)) live =
      ((o.all fun json => (live.lookup key).any json.isSubset) &&
        membersSubset (Members.present fields) live) := by
  cases o with
  | none => rfl
  | some json =>
      have hpresent : Members.present ((key, some json) :: fields) =
          (key, json) :: Members.present fields := rfl
      rw [hpresent, membersSubset]
      cases live.lookup key <;> rfl

end Json

def Kind.unversioned (kind : Kind) (o : kind.Object) : kind.Object := kind.withResourceVersion o none

namespace Kind

variable {kind : Kind} {o p : kind.Object}

@[simp] theorem unversioned_withResourceVersion (o : kind.Object) (version : Option String) :
    kind.unversioned (kind.withResourceVersion o version) = kind.unversioned o := by
  rw [unversioned, unversioned, withResourceVersion_withResourceVersion]

theorem congr_of_unversioned {α : Type} {f : kind.Object → α}
    (hf : ∀ o version, f (kind.withResourceVersion o version) = f o)
    (h : kind.unversioned p = kind.unversioned o) : f p = f o := by
  rw [← hf p none, ← hf o none]
  exact congrArg f h

theorem key_congr (h : kind.unversioned p = kind.unversioned o) : Key.of kind p = Key.of kind o :=
  congr_of_unversioned (Key.of_withResourceVersion kind) h

theorem annotations_congr (h : kind.unversioned p = kind.unversioned o) :
    kind.annotations p = kind.annotations o :=
  congr_of_unversioned (annotations_withResourceVersion kind) h

theorem unversioned_wholeSeconds (h : kind.unversioned p = kind.unversioned o) :
    kind.unversioned (kind.wholeSeconds p) = kind.unversioned (kind.wholeSeconds o) := by
  apply congr_of_unversioned (f := fun o => kind.unversioned (kind.wholeSeconds o)) _ h
  intro o version
  rw [wholeSeconds_withResourceVersion, unversioned_withResourceVersion]

theorem isSubset_withMetadata {d : kind.Object} {m : ObjectMeta}
    (h : (kind.metadata d).encode.isSubset m.encode =
      (kind.metadata d).encode.isSubset (kind.metadata o).encode) :
    (kind.encode d).isSubset (kind.encode (kind.withMetadata o m)) =
      (kind.encode d).isSubset (kind.encode o) := by
  cases kind
  all_goals
    simp only [metadata] at h
    simp [encode, McpServer.encode, Deployment.encode, Service.encode, ConfigMap.encode, Secret.encode,
      withMetadata, Json.isSubset_record, h]

theorem isSubset_unversioned {d : kind.Object} (hd : kind.resourceVersion d = none) (o : kind.Object) :
    (kind.encode d).isSubset (kind.encode (kind.unversioned o)) =
      (kind.encode d).isSubset (kind.encode o) := by
  rw [resourceVersion] at hd
  apply isSubset_withMetadata
  simp [ObjectMeta.encode, Json.isSubset_record, hd]

end Kind

namespace Memory

def unversioned (m : Memory) (key : Key) : Except DecodeError (Option key.kind.Object) :=
  (m.read key).map (Option.map key.kind.unversioned)

variable {m n : Memory} {kind : Kind} {o p : kind.Object}

theorem unversioned_congr {key : Key} (h : n.objects.get? key = m.objects.get? key) :
    n.unversioned key = m.unversioned key := by
  rw [unversioned, unversioned, read_congr h]

theorem Holds.unversioned {key : Key} {live : key.kind.Object} (h : m.Holds key live) :
    m.unversioned key = .ok (some (key.kind.unversioned live)) := by
  rw [Memory.unversioned, h.read]
  rfl

theorem unversioned_of_get? (h : m.objects.get? (Key.of kind o) = some (kind.encode p)) :
    m.unversioned (Key.of kind o) = .ok (some (kind.unversioned (kind.wholeSeconds p))) := by
  have hread : m.read (Key.of kind o) = .ok (some (kind.wholeSeconds p)) := by
    rw [read, h]
    exact congrArg (Except.map some) (Kind.decode_encode p)
  rw [unversioned, hread]
  rfl

theorem get?_eq_none_iff (key : Key) :
    m.objects.get? key = none ↔ m.unversioned key = .ok none := by
  constructor
  · intro h
    rw [unversioned, read, h]
    rfl
  · intro h
    cases hobject : m.objects.get? key with
    | none => rfl
    | some json =>
        rw [unversioned, read, hobject] at h
        dsimp only at h
        cases hdecode : key.kind.decode json <;> rw [hdecode] at h <;> cases h

/-- Two stores with the same faults to come. -/
structure SameFaults (m n : Memory) : Prop where
  failingReads : n.failingReads = m.failingReads
  failingWrites : n.failingWrites = m.failingWrites
  createRaces : n.createRaces = m.createRaces
  statusConflicts : n.statusConflicts = m.statusConflicts

theorem SameFaults.symm (h : SameFaults m n) : SameFaults n m :=
  ⟨h.failingReads.symm, h.failingWrites.symm, h.createRaces.symm, h.statusConflicts.symm⟩

theorem SameFaults.trans {a b c : Memory} (h : SameFaults a b) (h' : SameFaults b c) : SameFaults a c where
  failingReads := h'.failingReads.trans h.failingReads
  failingWrites := h'.failingWrites.trans h.failingWrites
  createRaces := h'.createRaces.trans h.createRaces
  statusConflicts := h'.statusConflicts.trans h.statusConflicts

/-- Two stores that hold the same under some keys, up to versions. -/
structure Matches (F : Set Key) (m n : Memory) : Prop extends SameFaults m n where
  left : m.Sound
  right : n.Sound
  objects : ∀ key ∈ F, n.unversioned key = m.unversioned key

namespace Matches

variable {F : Set Key}

theorem of_objects (hm : m.Sound) (hn : n.Sound) (hfaults : SameFaults m n)
    (h : ∀ key ∈ F, n.objects.get? key = m.objects.get? key) : Matches F m n :=
  ⟨hfaults, hm, hn, fun key hkey => unversioned_congr (h key hkey)⟩

theorem trans {a b c : Memory} (h : Matches F a b) (h' : Matches F b c) : Matches F a c where
  toSameFaults := h.toSameFaults.trans h'.toSameFaults
  left := h.left
  right := h'.right
  objects key hkey := (h'.objects key hkey).trans (h.objects key hkey)

theorem holds (h : Matches F m n) {key : Key} (hkey : key ∈ F) {live : key.kind.Object}
    (hlive : m.Holds key live) : ∃ live', n.Holds key live' ∧
      key.kind.unversioned live' = key.kind.unversioned live := by
  have hsame := h.objects key hkey
  rw [hlive.unversioned] at hsame
  rcases h.right.read key with ⟨hnone, -⟩ | ⟨live', hlive', -⟩
  · rw [(get?_eq_none_iff key).1 hnone] at hsame
    cases hsame
  · rw [hlive'.unversioned] at hsame
    exact ⟨live', hlive', Option.some.inj (Except.ok.inj hsame)⟩

theorem get (h : Matches F m n) {key : Key} (hkey : key ∈ F) :
    (∃ e, m.get key = .error e ∧ n.get key = .error e) ∨
      (m.get key = .ok none ∧ n.get key = .ok none) ∨
      ∃ live live', m.get key = .ok (some live) ∧ n.get key = .ok (some live') ∧ m.Holds key live ∧
        n.Holds key live' ∧ key.kind.unversioned live' = key.kind.unversioned live := by
  by_cases hreads : key.kind ∈ m.failingReads
  · have hreads' : key.kind ∈ n.failingReads := h.failingReads ▸ hreads
    exact .inl ⟨_, get_of_failing hreads, get_of_failing hreads'⟩
  · have hreads' : key.kind ∉ n.failingReads := h.failingReads ▸ hreads
    rcases h.left.read key with ⟨hnone, hread⟩ | ⟨live, hlive, hread⟩
    · have hnone' : n.objects.get? key = none := by
        rw [get?_eq_none_iff, h.objects key hkey, ← get?_eq_none_iff]
        exact hnone
      have hread' : n.read key = .ok none := by rw [Memory.read, hnone']
      exact .inr (.inl ⟨get_of_read hreads hread, get_of_read hreads' hread'⟩)
    · obtain ⟨live', hlive', hsame⟩ := h.holds hkey hlive
      exact .inr (.inr ⟨live, live', get_of_read hreads hread, get_of_read hreads' hlive'.read, hlive,
        hlive', hsame⟩)

theorem write (h : Matches F m n) (ho : kind.unversioned p = kind.unversioned o) :
    Matches F (m.write kind o).2 (n.write kind p).2 where
  toSameFaults := ⟨h.failingReads, h.failingWrites, h.createRaces, h.statusConflicts⟩
  left := h.left.grow (grows_write m kind o)
  right := h.right.grow (grows_write n kind p)
  objects key hkey := by
    have hp := Kind.key_congr ho
    by_cases hself : Key.of kind o = key
    · subst hself
      have hleft := unversioned_of_get? (get?_write_self m kind o)
      have hright := get?_write_self n kind p
      rw [hp] at hright
      rw [hleft, unversioned_of_get? hright, Kind.wholeSeconds_withResourceVersion,
        Kind.wholeSeconds_withResourceVersion, Kind.unversioned_withResourceVersion,
        Kind.unversioned_withResourceVersion, Kind.unversioned_wholeSeconds ho]
    · have hleft := unversioned_congr (get?_write_of_ne m kind o hself)
      have hright := unversioned_congr (get?_write_of_ne n kind p (hp ▸ hself))
      rw [hleft, hright, h.objects key hkey]

theorem mutate (h : Matches F m n) (ho : kind.unversioned p = kind.unversioned o) :
    Matches F (m.mutate kind o).2 (n.mutate kind p).2 :=
  have hwrite := h.write ho
  ⟨⟨h.failingReads, h.failingWrites, h.createRaces, h.statusConflicts⟩,
    h.left.grow (grows_mutate m kind o), h.right.grow (grows_mutate n kind p), hwrite.objects⟩

theorem race (h : Matches F m n) (o : kind.Object) : Matches F (m.race kind o) (n.race kind o) := by
  rw [Memory.race, Memory.race, h.createRaces]
  split
  · have hraces : Matches F { m with createRaces := m.createRaces.filter (· ≠ kind) }
        { n with createRaces := m.createRaces.filter (· ≠ kind) } :=
      ⟨⟨h.failingReads, h.failingWrites, rfl, h.statusConflicts⟩, h.left.grow (.same rfl rfl),
        h.right.grow (.same rfl rfl), h.objects⟩
    exact hraces.write rfl
  · exact h

def Alike {α β : Type} (r : Except StoreError α) (s : Except StoreError β) : Prop :=
  s.map (fun _ => ()) = r.map fun _ => ()

theorem create (h : Matches F m n) (hkey : Key.of kind o ∈ F) :
    Alike (m.create kind o).1 (n.create kind o).1 ∧
      Matches F (m.create kind o).2 (n.create kind o).2 := by
  rw [Memory.create, Memory.create, h.failingWrites]
  split
  · exact ⟨rfl, h⟩
  · have hrace := h.race o
    have hsome : ((n.race kind o).objects.get? (Key.of kind o)).isSome =
        ((m.race kind o).objects.get? (Key.of kind o)).isSome := by
      rw [Bool.eq_iff_iff, ← not_iff_not, Bool.not_eq_true, Bool.not_eq_true,
        Option.isSome_eq_false_iff, Option.isSome_eq_false_iff, Option.isNone_iff_eq_none,
        Option.isNone_iff_eq_none, get?_eq_none_iff, get?_eq_none_iff, hrace.objects _ hkey]
    dsimp only
    rw [hsome]
    split
    · exact ⟨rfl, hrace⟩
    · exact ⟨rfl, hrace.mutate rfl⟩

theorem replace (h : Matches F m n) {live live' : kind.Object}
    (hlive : m.Holds (Key.of kind o) live) (hlive' : n.Holds (Key.of kind o) live') :
    Alike (m.replace kind (kind.withResourceVersion o (kind.resourceVersion live))).1
        (n.replace kind (kind.withResourceVersion o (kind.resourceVersion live'))).1 ∧
      Matches F (m.replace kind (kind.withResourceVersion o (kind.resourceVersion live))).2
        (n.replace kind (kind.withResourceVersion o (kind.resourceVersion live'))).2 := by
  have hobject : m.objects.get? (Key.of kind o) = some (kind.encode live) := hlive.objects
  have hobject' : n.objects.get? (Key.of kind o) = some (kind.encode live') := hlive'.objects
  rw [Memory.replace, Memory.replace, h.failingWrites]
  split
  · exact ⟨rfl, h⟩
  · simp only [Key.of_withResourceVersion, hobject, hobject', Kind.versionOf_encode,
      Kind.resourceVersion_withResourceVersion, if_pos]
    refine ⟨rfl, h.mutate ?_⟩
    rw [Kind.unversioned_withResourceVersion, Kind.unversioned_withResourceVersion]

theorem replaceStatus (h : Matches F m n) {server server' : McpServer}
    (hlive : m.Holds (Key.of .server server) server) (hlive' : n.Holds (Key.of .server server') server')
    (hserver : Kind.server.unversioned server' = Kind.server.unversioned server)
    (status : Option ServerStatus) :
    Alike (m.replaceStatus { server with status }).1 (n.replaceStatus { server' with status }).1 ∧
      Matches F (m.replaceStatus { server with status }).2 (n.replaceStatus { server' with status }).2 := by
  have hheld : m.Holds (Key.of .server { server with status }) server := hlive
  have hheld' : n.Holds (Key.of .server { server' with status }) server' := hlive'
  have hwritten : Kind.server.unversioned { server' with status } =
      Kind.server.unversioned { server with status } :=
    congrArg (fun s : McpServer => { s with status }) hserver
  rw [replaceStatus_eq hheld, replaceStatus_eq hheld', h.statusConflicts, Kind.key_congr hwritten]
  split
  · exact ⟨rfl, ⟨h.failingReads, h.failingWrites, h.createRaces, rfl⟩, h.left.grow (.same rfl rfl),
      h.right.grow (.same rfl rfl), h.objects⟩
  · rw [if_pos rfl, if_pos rfl]
    exact ⟨rfl, h.mutate hwritten⟩

end Matches
end Memory
end McpOperator
