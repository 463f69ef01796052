import McpOperator.Proofs.Cluster.ApiServer
import McpOperator.Proofs.Store.Footprint

namespace McpOperator

/-- What others write: something before the first call, something before the second one, and so on. -/
abbrev Schedule := List (List (Sigma Kind.Object))

namespace Work

variable {σ α β : Type} (write : (kind : Kind) → kind.Object → σ → σ)
  (answer : (c : Call) → σ → c.Answer × σ)

def writeAll (l : List (Sigma Kind.Object)) (s : σ) : σ := l.foldl (fun s w => write w.1 w.2 s) s

def answerAmid (c : Call) (s : σ × Schedule) : c.Answer × (σ × Schedule) :=
  let (reply, s') := answer c (writeAll write (s.2.headD []) s.1)
  (reply, (s', s.2.tail))

/-- Runs work among others. What they have not written by its end they write then. -/
def runAmid (w : Work α) (coming : Schedule) (s : σ) : α × σ :=
  let (a, s, coming) := w.run (answerAmid write answer) (s, coming)
  (a, writeAll write coming.flatten s)

theorem writeAll_flatten (coming : Schedule) (s : σ) : writeAll write coming.flatten s =
    writeAll write coming.tail.flatten (writeAll write (coming.headD []) s) := by
  cases coming with
  | nil => rfl
  | cons l rest => exact List.foldl_append

theorem runAmid_bind {w : Work α} {f : α → Work β} {coming rest : Schedule} {s s' : σ} {a : α}
    (h : w.run (answerAmid write answer) (s, coming) = (a, (s', rest))) :
    runAmid write answer (w.bind f) coming s = runAmid write answer (f a) rest s' := by
  rw [runAmid, run_bind, h, runAmid]

theorem run_answerAmid_nil (w : Work α) (s : σ) :
    w.run (answerAmid write answer) (s, []) = ((w.run answer s).1, ((w.run answer s).2, [])) := by
  induction w generalizing s with
  | done a => rfl
  | call c next ih => exact ih _ _

theorem runAmid_first (c : Call) (next : c.Answer → Work α) (l : List (Sigma Kind.Object)) (s : σ) :
    runAmid write answer (.call c next) [l] s = (Work.call c next).run answer (writeAll write l s) := by
  have hrest := run_answerAmid_nil write answer (next (answer c (writeAll write l s)).1)
    (answer c (writeAll write l s)).2
  rw [runAmid, run, answerAmid]
  exact (congrArg (fun r => (r.1, writeAll write r.2.2.flatten r.2.1)) hrest)

theorem runAmid_call {c : Call} {next : c.Answer → Work α} {coming rest : Schedule} {s s' : σ}
    {reply : c.Answer} (h : answerAmid write answer c (s, coming) = (reply, (s', rest))) :
    runAmid write answer (.call c next) coming s = runAmid write answer (next reply) rest s' := by
  rw [runAmid, run, h, runAmid]

end Work

namespace Memory

abbrev seedAll (l : List (Sigma Kind.Object)) (m : Memory) : Memory :=
  Work.writeAll (fun kind o m => m.seed kind o) l m

def answerAmid : (c : Call) → Memory × Schedule → c.Answer × (Memory × Schedule) :=
  Work.answerAmid (fun kind o m => m.seed kind o) Memory.answer

def runAmid {α : Type} (w : Work α) (coming : Schedule) (m : Memory) : α × Memory :=
  Work.runAmid (fun kind o m => m.seed kind o) Memory.answer w coming m

theorem grows_seedAll (l : List (Sigma Kind.Object)) (m : Memory) : m.Grows (seedAll l m) := by
  induction l generalizing m with
  | nil => exact .refl m
  | cons w rest ih => exact (grows_write m w.1 w.2).trans (ih _)

theorem grows_answerAmid {α : Type} (w : Work α) (m : Memory) (coming : Schedule) :
    m.Grows (w.run answerAmid (m, coming)).2.1 := by
  induction w generalizing m coming with
  | done a => exact .refl m
  | call c next ih =>
      exact ((grows_seedAll _ m).trans (grows_answer _ c)).trans (ih _ _ coming.tail)

end Memory

namespace Cluster

/-- A cluster's interface: what it does with a request and with a write of somebody else, and what it
holds. -/
structure ApiServer (σ : Type) where
  send : Request → σ → Exchange × σ
  write (kind : Kind) (o : kind.Object) : σ → σ
  contents : σ → Contents
  gains (kind : Kind) (o : kind.Object) (s : σ) :
    ∃ version, (contents s).Gains (contents (write kind o s)) kind o version

namespace ApiServer

variable {σ α β : Type} (api : ApiServer σ) (manager : String)

def Answers (s : σ) (c : Call) : Prop :=
  (api.contents s).Answers c (answer manager api.send c s).1 (api.contents (answer manager api.send c s).2)

def answerAmid : (c : Call) → σ × Schedule → c.Answer × (σ × Schedule) :=
  Work.answerAmid api.write (answer manager api.send)

/-- Runs work among others, up to what the cluster holds in the end. -/
def runAmid (w : Work α) (coming : Schedule) (s : σ) : α × Contents :=
  Prod.map id api.contents (Work.runAmid api.write (answer manager api.send) w coming s)

/-- Every request of the work is dealt with by the rules. -/
def Abides : Work α → σ × Schedule → Prop
  | .done _, _ => True
  | .call c next, s =>
      let before := Work.writeAll api.write (s.2.headD []) s.1
      (∀ request, Request.ofCall manager c = .ok request →
        Serves (api.contents before) request (api.send request before).1
          (api.contents (api.send request before).2)) ∧
      Abides (next (api.answerAmid manager c s).1) (api.answerAmid manager c s).2

variable {api manager}

theorem Abides.bind {w : Work α} {f : α → Work β} {s : σ × Schedule}
    (h : api.Abides manager (w.bind f) s) : api.Abides manager w s ∧
      api.Abides manager (f (w.run (api.answerAmid manager) s).1) (w.run (api.answerAmid manager) s).2 := by
  induction w generalizing s with
  | done a => exact ⟨trivial, h⟩
  | call c next ih =>
      obtain ⟨hserves, hnext⟩ := h
      obtain ⟨hfirst, hsecond⟩ := ih _ hnext
      exact ⟨⟨hserves, hfirst⟩, hsecond⟩

end ApiServer
end Cluster

namespace Memory

structure Faultless (m : Memory) : Prop extends Quiet m where
  failingReads : m.failingReads = []
  failingWrites : m.failingWrites = []

theorem Faultless.write {m : Memory} (h : m.Faultless) (kind : Kind) (o : kind.Object) :
    (m.write kind o).2.Faultless :=
  ⟨⟨h.createRaces, h.statusConflicts⟩, h.failingReads, h.failingWrites⟩

theorem Faultless.mutate {m : Memory} (h : m.Faultless) (kind : Kind) (o : kind.Object) :
    (m.mutate kind o).2.Faultless :=
  ⟨⟨h.createRaces, h.statusConflicts⟩, h.failingReads, h.failingWrites⟩

theorem read_write_self (m : Memory) (kind : Kind) (o : kind.Object) :
    (m.write kind o).2.read (Key.of kind o) =
      .ok (some (kind.withResourceVersion (kind.wholeSeconds o) (some (toString (m.version + 1))))) := by
  rw [read, get?_write_self]
  exact congrArg (Except.map some) ((Kind.decode_encode _).trans
    (congrArg Except.ok (Kind.wholeSeconds_withResourceVersion kind o _)))

theorem holds_seedAll {l : List (Sigma Kind.Object)} {m : Memory} {key : Key} {live : key.kind.Object}
    (h : (seedAll l m).Holds key live) :
    m.Holds key live ∨ ∃ w ∈ l, ∃ version, (⟨key.kind, live⟩ : Sigma Kind.Object) =
      ⟨w.1, w.1.withResourceVersion (w.1.wholeSeconds w.2) version⟩ := by
  induction l generalizing m with
  | nil => exact .inl h
  | cons w rest ih =>
      rcases ih h with hheld | ⟨w', hmem, hwritten⟩
      · by_cases hkey : Key.of w.1 w.2 = key
        · subst hkey
          cases hheld.read.symm.trans (read_write_self m w.1 w.2)
          exact .inr ⟨w, List.mem_cons_self, _, rfl⟩
        · have hobject := hheld.objects
          exact .inl ⟨(get?_write_of_ne m w.1 w.2 hkey).symm.trans hobject, hheld.key_eq, hheld.whole⟩
      · exact .inr ⟨w', List.mem_cons_of_mem _ hmem, hwritten⟩

theorem Faultless.get {m : Memory} (h : m.Faultless) {key : Key} {o : Option key.kind.Object}
    (hread : m.read key = .ok o) : m.get key = .ok o := by
  refine get_of_read ?_ hread
  rw [h.failingReads]
  exact List.not_mem_nil

theorem Faultless.create {m : Memory} (h : m.Faultless) (kind : Kind) (o : kind.Object) :
    m.create kind o =
      if (m.objects.get? (Key.of kind o)).isSome then (.error (.alreadyExists (Key.of kind o).display), m)
      else (.ok (m.mutate kind o).1, (m.mutate kind o).2) := by
  simp [Memory.create, h.failingWrites, h.race]

theorem Faultless.replace {m : Memory} (h : m.Faultless) {kind : Kind} {o live : kind.Object}
    (hlive : m.Holds (Key.of kind o) live) :
    m.replace kind o = if kind.resourceVersion live = kind.resourceVersion o then
        (.ok (m.mutate kind o).1, (m.mutate kind o).2)
      else (.error (.conflict (Key.of kind o).display), m) := by
  have hobject : m.objects.get? (Key.of kind o) = some (kind.encode live) := hlive.objects
  simp [Memory.replace, h.failingWrites, hobject, Kind.versionOf_encode]

theorem Faultless.replaceStatus {m : Memory} (h : m.Faultless) {server live : McpServer}
    (hlive : m.Holds (Key.of .server server) live) :
    m.replaceStatus server = if live.metadata.resourceVersion = server.metadata.resourceVersion then
        (.ok (m.mutate .server { live with status := server.status }).1,
          (m.mutate .server { live with status := server.status }).2)
      else (.error (.conflict (Key.of .server server).display), m) := by
  rw [replaceStatus_eq hlive, h.statusConflicts, if_neg (Nat.lt_irrefl 0)]

end Memory

namespace Cluster

def Contents.unversioned? (c : Contents) (key : Key) : Option key.kind.Object :=
  (c.find? key).map key.kind.unversioned

/-- A store in memory and a cluster that hold the same objects, as far as a view shows them. Their
versions are their own. -/
structure Corresponds (view : (key : Key) → key.kind.Object → key.kind.Object) (m : Memory)
    (c : Contents) : Prop where
  sound : m.Sound
  faultless : m.Faultless
  objects (key : Key) :
    (m.unversioned key).map (Option.map (view key)) = .ok ((c.unversioned? key).map (view key))
  versions (key : Key) (live : key.kind.Object) (h : c.find? key = some live) :
    ∃ version ∈ c.issued, key.kind.resourceVersion live = some version

def plain (key : Key) (o : key.kind.Object) : key.kind.Object := o

namespace Corresponds

variable {view view' : (key : Key) → key.kind.Object → key.kind.Object} {m m' : Memory} {c c' : Contents}

theorem find? (h : Corresponds plain m c) (key : Key) :
    (m.objects.get? key = none ∧ m.read key = .ok none ∧ c.find? key = none) ∨
      ∃ live live', m.Holds key live ∧ c.find? key = some live' ∧
        key.kind.unversioned live' = key.kind.unversioned live := by
  have hobjects := h.objects key
  rcases h.sound.read key with ⟨hnone, hread⟩ | ⟨live, hlive, -⟩
  · rw [(Memory.get?_eq_none_iff key).1 hnone] at hobjects
    refine .inl ⟨hnone, hread, ?_⟩
    exact Option.map_eq_none_iff.1 (Option.map_eq_none_iff.1 (Except.ok.inj hobjects).symm)
  · rw [hlive.unversioned] at hobjects
    obtain ⟨o, ho, hview⟩ := Option.map_eq_some_iff.1 (Except.ok.inj hobjects).symm
    obtain ⟨live', hfind, rfl⟩ := Option.map_eq_some_iff.1 ho
    exact .inr ⟨live, live', hlive, hfind, hview⟩

theorem seen (h : Corresponds plain m c) (view : (key : Key) → key.kind.Object → key.kind.Object) :
    Corresponds view m c where
  sound := h.sound
  faultless := h.faultless
  objects key := by
    rcases h.find? key with ⟨hnone, -, hfind⟩ | ⟨live, live', hlive, hfind, hsame⟩
    · rw [(Memory.get?_eq_none_iff key).1 hnone, Contents.unversioned?, hfind]
      rfl
    · rw [hlive.unversioned, Contents.unversioned?, hfind, Option.map_some, hsame]
      rfl
  versions := h.versions

theorem changed (h : Corresponds view m c) {key : Key} (hsound : m'.Sound) (hfaultless : m'.Faultless)
    (hissued : c.issued ⊆ c'.issued) (hobjects : ∀ k, key ≠ k → m'.objects.get? k = m.objects.get? k)
    (hfind : ∀ k, key ≠ k → c'.find? k = c.find? k)
    (hkey : (m'.unversioned key).map (Option.map (view key)) = .ok ((c'.unversioned? key).map (view key)))
    (hversion : ∀ live, c'.find? key = some live →
      ∃ version ∈ c'.issued, key.kind.resourceVersion live = some version) : Corresponds view m' c' where
  sound := hsound
  faultless := hfaultless
  objects k := by
    by_cases hk : key = k
    · exact hk ▸ hkey
    · rw [Memory.unversioned_congr (hobjects k hk), Contents.unversioned?, hfind k hk]
      exact h.objects k
  versions k live hlive := by
    by_cases hk : key = k
    · subst hk
      exact hversion live hlive
    · rw [hfind k hk] at hlive
      obtain ⟨version, hmem, hlive⟩ := h.versions k live hlive
      exact ⟨version, hissued hmem, hlive⟩

theorem write (h : Corresponds view m c) {kind : Kind} {o o' : kind.Object}
    (hsame : kind.unversioned o' = kind.unversioned o) {version : String}
    (hgains : c.Gains c' kind o' version) : Corresponds view (m.write kind o).2 c' := by
  have hkey : Key.of kind o' = Key.of kind o := Kind.key_congr hsame
  have hfind := hgains.find? hkey
  refine h.changed (h.sound.grow (Memory.grows_write m kind o)) (h.faultless.write kind o) ?_
    (fun k hk => Memory.get?_write_of_ne m kind o hk) (fun k hk => hgains.others k (hkey ▸ hk)) ?_ ?_
  · rw [hgains.issued]
    exact Set.subset_insert _ _
  · have hwritten : kind.unversioned (kind.wholeSeconds (kind.withResourceVersion o
          (some (toString (m.version + 1))))) =
        kind.unversioned (kind.withResourceVersion (kind.wholeSeconds o') (some version)) := by
      rw [Kind.wholeSeconds_withResourceVersion, Kind.unversioned_withResourceVersion,
        Kind.unversioned_withResourceVersion, Kind.unversioned_wholeSeconds hsame]
    rw [Memory.unversioned_of_get? (Memory.get?_write_self m kind o), Contents.unversioned?, hfind]
    exact congrArg (fun p => Except.ok (some (view (Key.of kind o) p))) hwritten
  · intro live hlive
    cases hfind.symm.trans hlive
    exact ⟨version, hgains.issued ▸ Set.mem_insert _ _, Kind.resourceVersion_withResourceVersion _ _ _⟩

end Corresponds

/-- Which version of a store in memory was given out to a key with which version of a cluster. -/
abbrev Linkage := Key → String → String → Prop

def Linkage.Present (ν : Linkage) (key : Key) : Prop := ∃ v w, ν key v w

/-- What a read finds on both sides: nothing, or the same but for linked versions. -/
inductive Finds (ν : Linkage) (m : Memory) (key : Key) :
    Option key.kind.Object → Option key.kind.Object → Prop
  | absent (h : ¬ ν.Present key) : Finds ν m key none none
  | present {live live' : key.kind.Object} {v w : String} (hlive : m.Holds key live)
      (hsame : key.kind.unversioned live' = key.kind.unversioned live)
      (hv : key.kind.resourceVersion live = some v) (hw : key.kind.resourceVersion live' = some w)
      (hlinked : ν key v w) : Finds ν m key (some live) (some live')

/-- A store in memory and a cluster that hold the same under linked versions. -/
structure Tied (ν : Linkage) (m : Memory) (c : Contents) : Prop extends Corresponds plain m c where
  linked (key : Key) (live live' : key.kind.Object) (h : m.Holds key live) (h' : c.find? key = some live') :
    ∃ v w, key.kind.resourceVersion live = some v ∧ key.kind.resourceVersion live' = some w ∧ ν key v w
  known (key : Key) (v w : String) (h : ν key v w) :
    (∃ n ≤ m.version, v = toString n) ∧ w ∈ c.issued ∧ m.objects.get? key ≠ none
  unique (key : Key) (v w v' w' : String) (h : ν key v w) (h' : ν key v' w') : v = v' ↔ w = w'

theorem Corresponds.tied {m : Memory} {c : Contents} (h : Corresponds plain m c) :
    ∃ ν, Tied ν m c := by
  refine ⟨fun key v w => ∃ live live', m.Holds key live ∧ c.find? key = some live' ∧
    key.kind.resourceVersion live = some v ∧ key.kind.resourceVersion live' = some w, h, ?_, ?_, ?_⟩
  · intro key live live' hlive hlive'
    obtain ⟨n, -, hwritten⟩ := h.sound.written hlive.objects
    have hversion := hwritten.versionOf
    rw [Kind.versionOf_encode] at hversion
    obtain ⟨w, -, hw⟩ := h.versions key live' hlive'
    exact ⟨_, w, hversion, hw, live, live', hlive, hlive', hversion, hw⟩
  · rintro key v w ⟨live, live', hlive, hlive', hv, hw⟩
    obtain ⟨n, hn, hwritten⟩ := h.sound.written hlive.objects
    have hversion := hwritten.versionOf
    rw [Kind.versionOf_encode, hv] at hversion
    obtain ⟨w', hissued, hw'⟩ := h.versions key live' hlive'
    rw [hw] at hw'
    refine ⟨⟨n, hn, Option.some.inj hversion⟩, Option.some.inj hw' ▸ hissued, ?_⟩
    rw [hlive.objects]
    exact Option.some_ne_none _
  · rintro key v w v' w' ⟨live, live', hlive, hlive', hv, hw⟩ ⟨again, again', hagain, hagain', hv', hw'⟩
    have hread := hlive.read.symm.trans hagain.read
    have hfind := hlive'.symm.trans hagain'
    cases hread
    cases hfind
    cases hv.symm.trans hv'
    cases hw.symm.trans hw'
    exact ⟨fun _ => rfl, fun _ => rfl⟩

namespace Tied

variable {ν : Linkage} {m m' : Memory} {c c' : Contents}

theorem find? (h : Tied ν m c) (key : Key) :
    (m.objects.get? key = none ∧ m.read key = .ok none ∧ c.find? key = none) ∨
      ∃ live live' v w, m.Holds key live ∧ c.find? key = some live' ∧
        key.kind.unversioned live' = key.kind.unversioned live ∧
        key.kind.resourceVersion live = some v ∧ key.kind.resourceVersion live' = some w ∧ ν key v w := by
  rcases h.toCorresponds.find? key with habsent | ⟨live, live', hlive, hlive', hsame⟩
  · exact .inl habsent
  · obtain ⟨v, w, hv, hw, hlinked⟩ := h.linked key live live' hlive hlive'
    exact .inr ⟨live, live', v, w, hlive, hlive', hsame, hv, hw, hlinked⟩

theorem same (h : Tied ν m c) (hobjects : m'.objects = m.objects) (hversion : m'.version = m.version)
    (hfaultless : m'.Faultless) : Tied ν m' c where
  sound := h.sound.grow (.same hversion hobjects)
  faultless := hfaultless
  objects key := by
    rw [Memory.unversioned_congr (congrArg (·.get? key) hobjects)]
    exact h.objects key
  versions := h.versions
  linked key live live' hlive := h.linked key live live' ⟨hobjects ▸ hlive.objects, hlive.key_eq, hlive.whole⟩
  known key v w hvw := by
    rw [hobjects, hversion]
    exact h.known key v w hvw
  unique := h.unique

/-- What is written on both sides gets versions that are linked from then on. -/
theorem write (h : Tied ν m c) {kind : Kind} {o o' : kind.Object}
    (hsame : kind.unversioned o' = kind.unversioned o) {version : String}
    (hgains : c.Gains c' kind o' version) :
    ∃ ν', ν ≤ ν' ∧ Tied ν' (m.write kind o).2 c' ∧ ν'.Present (Key.of kind o) := by
  have hkey : Key.of kind o' = Key.of kind o := Kind.key_congr hsame
  have hfind := hgains.find? hkey
  have hothers : ∀ key, Key.of kind o ≠ key → c'.find? key = c.find? key :=
    fun key hne => hgains.others key (hkey ▸ hne)
  let added : Linkage := fun key v w => key = Key.of kind o ∧ v = toString (m.version + 1) ∧ w = version
  refine ⟨fun key v w => ν key v w ∨ added key v w, fun key v w => Or.inl, ⟨?_, ?_, ?_, ?_⟩,
    _, _, .inr ⟨rfl, rfl, rfl⟩⟩
  · exact h.toCorresponds.write hsame hgains
  · intro key live live' hlive hlive'
    by_cases hself : Key.of kind o = key
    · subst hself
      cases hlive.read.symm.trans (Memory.read_write_self m kind o)
      cases hfind.symm.trans hlive'
      exact ⟨_, _, Kind.resourceVersion_withResourceVersion _ _ _,
        Kind.resourceVersion_withResourceVersion _ _ _, .inr ⟨rfl, rfl, rfl⟩⟩
    · rw [hothers key hself] at hlive'
      have hobject := hlive.objects
      rw [Memory.get?_write_of_ne m kind o hself] at hobject
      obtain ⟨v, w, hv, hw, hlinked⟩ := h.linked key live live' ⟨hobject, hlive.key_eq, hlive.whole⟩ hlive'
      exact ⟨v, w, hv, hw, .inl hlinked⟩
  · rintro key v w (hknown | ⟨rfl, rfl, rfl⟩)
    · obtain ⟨⟨n, hn, hv⟩, hw, hpresent⟩ := h.known key v w hknown
      refine ⟨⟨n, Nat.le_succ_of_le hn, hv⟩, hgains.issued ▸ Set.mem_insert_of_mem _ hw, ?_⟩
      by_cases hself : Key.of kind o = key
      · rw [← hself, Memory.get?_write_self]
        exact Option.some_ne_none _
      · rwa [Memory.get?_write_of_ne m kind o hself]
    · refine ⟨⟨m.version + 1, Nat.le_refl _, rfl⟩, hgains.issued ▸ Set.mem_insert _ _, ?_⟩
      rw [Memory.get?_write_self]
      exact Option.some_ne_none _
  · -- A version that is new on one side is new on the other.
    have hnew : ∀ key v w, ν key v w → v ≠ toString (m.version + 1) ∧ w ≠ version := by
      intro key v w hknown
      obtain ⟨⟨n, hn, rfl⟩, hw, -⟩ := h.known key v w hknown
      refine ⟨fun heq => ?_, fun heq => hgains.fresh (heq ▸ hw)⟩
      have := Memory.toString_inj heq
      omega
    rintro key v w v' w' (hold | ⟨-, rfl, rfl⟩) (hold' | ⟨-, rfl, rfl⟩)
    · exact h.unique key v w v' w' hold hold'
    · exact iff_of_false (hnew key v w hold).1 (hnew key v w hold).2
    · exact iff_of_false (hnew key v' w' hold').1.symm (hnew key v' w' hold').2.symm
    · exact ⟨fun _ => rfl, fun _ => rfl⟩

theorem get (h : Tied ν m c) (key : Key) :
    ∃ found, m.get key = .ok found ∧ Finds ν m key found (c.find? key) := by
  rcases h.find? key with ⟨hobject, hread, hfind⟩ | ⟨live, live', v, w, hlive, hfind, hsame, hv, hw, hlinked⟩
  · rw [hfind]
    refine ⟨none, h.faultless.get hread, .absent ?_⟩
    rintro ⟨v, w, hlinked⟩
    exact (h.known key v w hlinked).2.2 hobject
  · rw [hfind]
    exact ⟨some live, h.faultless.get hlive.read, .present hlive hsame hv hw hlinked⟩

theorem mutate (h : Tied ν m c) {kind : Kind} {o o' : kind.Object}
    (hsame : kind.unversioned o' = kind.unversioned o) {version : String}
    (hgains : c.Gains c' kind o' version) :
    ∃ ν', ν ≤ ν' ∧ Tied ν' (m.mutate kind o).2 c' ∧ ν'.Present (Key.of kind o) := by
  obtain ⟨ν', hle, hwrite, hpresent⟩ := h.write hsame hgains
  exact ⟨ν', hle, hwrite.same rfl rfl (h.faultless.mutate kind o), hpresent⟩

theorem create (h : Tied ν m c) {kind : Kind} {o : kind.Object} {answer : Except StoreError kind.Object}
    (hanswers : c.Answers (.create kind o) answer c') :
    ∃ ν', ν ≤ ν' ∧ Tied ν' (m.create kind o).2 c' ∧ ν'.Present (Key.of kind o) ∧
      ((∃ p p', (m.create kind o).1 = .ok p ∧ answer = .ok p') ∨
        ∃ what what', (m.create kind o).1 = .error (.alreadyExists what) ∧
          answer = .error (.alreadyExists what')) := by
  rw [h.faultless.create]
  rcases h.find? (Key.of kind o) with ⟨hnone, -, hfind⟩ | ⟨live, live', v, w, hlive, hfind, -, -, -, hlinked⟩
  · have hstored : c.stored? kind o = none := hfind
    rw [Contents.Answers, hstored] at hanswers
    obtain ⟨⟨p, rfl⟩, version, hgains⟩ := hanswers
    obtain ⟨ν', hle, htied, hpresent⟩ := h.mutate rfl hgains
    rw [hnone]
    exact ⟨ν', hle, htied, hpresent, .inl ⟨_, p, rfl, rfl⟩⟩
  · have hstored : c.stored? kind o = some live' := hfind
    rw [Contents.Answers, hstored] at hanswers
    obtain ⟨⟨what, rfl⟩, rfl⟩ := hanswers
    rw [hlive.objects]
    exact ⟨ν, le_rfl, h, ⟨v, w, hlinked⟩, .inr ⟨_, what, rfl, rfl⟩⟩

/-- Replacements of what was read on both sides at once go through on both, or come too late on both. -/
theorem replace (h : Tied ν m c) {kind : Kind} {o o' : kind.Object}
    (hsame : kind.unversioned o' = kind.unversioned o) {v w : String}
    (hv : kind.resourceVersion o = some v) (hw : kind.resourceVersion o' = some w)
    (hread : ν (Key.of kind o) v w) {answer : Except StoreError kind.Object}
    (hanswers : c.Answers (.replace kind o') answer c') :
    ∃ ν', ν ≤ ν' ∧ Tied ν' (m.replace kind o).2 c' ∧
      ((∃ p p', (m.replace kind o).1 = .ok p ∧ answer = .ok p') ∨
        ∃ what what', (m.replace kind o).1 = .error (.conflict what) ∧
          answer = .error (.conflict what')) := by
  rcases h.find? (Key.of kind o) with ⟨hnone, -⟩ | ⟨live, live', v', w', hlive, hfind, -, hv', hw', hlinked⟩
  · exact absurd hnone (h.known _ _ _ hread).2.2
  · have hstored : c.stored? kind o' = some live' :=
      (Contents.stored?_congr (Kind.key_congr hsame)).trans hfind
    have hcurrent : kind.resourceVersion live = kind.resourceVersion o ↔
        kind.resourceVersion live' = kind.resourceVersion o' := by
      have hv' : kind.resourceVersion live = some v' := hv'
      have hw' : kind.resourceVersion live' = some w' := hw'
      rw [hv', hw', hv, hw, Option.some.injEq, Option.some.injEq]
      exact h.unique _ _ _ _ _ hlinked hread
    rw [Contents.Answers, hstored] at hanswers
    dsimp only at hanswers
    rw [h.faultless.replace hlive]
    by_cases hversion : kind.resourceVersion live = kind.resourceVersion o
    · rw [if_pos (hcurrent.1 hversion)] at hanswers
      obtain ⟨⟨p, rfl⟩, version, hgains⟩ := hanswers
      obtain ⟨ν', hle, htied, -⟩ := h.mutate hsame hgains
      rw [if_pos hversion]
      exact ⟨ν', hle, htied, .inl ⟨_, p, rfl, rfl⟩⟩
    · rw [if_neg fun heq => hversion (hcurrent.2 heq)] at hanswers
      obtain ⟨⟨what, rfl⟩, rfl⟩ := hanswers
      rw [if_neg hversion]
      exact ⟨ν, le_rfl, h, .inr ⟨_, what, rfl, rfl⟩⟩

end Tied

section

variable {σ α β γ δ : Type} {api : ApiServer σ} {manager : String} {ν ν' : Linkage} {m : Memory} {s : σ}

theorem Corresponds.writeAll {view : (key : Key) → key.kind.Object → key.kind.Object}
    (h : Corresponds view m (api.contents s)) (l : List (Sigma Kind.Object)) :
    Corresponds view (Memory.seedAll l m)
      (api.contents (Work.writeAll api.write l s)) := by
  induction l generalizing m s with
  | nil => exact h
  | cons w rest ih =>
      obtain ⟨version, hgains⟩ := api.gains w.1 w.2 s
      exact ih (h.write rfl hgains)

theorem Tied.writeAll (h : Tied ν m (api.contents s)) (l : List (Sigma Kind.Object)) :
    ∃ ν', ν ≤ ν' ∧ Tied ν' (Memory.seedAll l m)
      (api.contents (Work.writeAll api.write l s)) := by
  induction l generalizing ν m s with
  | nil => exact ⟨ν, le_rfl, h⟩
  | cons w rest ih =>
      obtain ⟨version, hgains⟩ := api.gains w.1 w.2 s
      obtain ⟨ν₁, hle, htied, -⟩ := h.write rfl hgains
      obtain ⟨ν₂, hle', htied'⟩ := ih htied
      exact ⟨ν₂, hle.trans hle', htied'⟩

theorem ApiServer.Abides.call {c : Call} {next : c.Answer → Work α} {coming : Schedule}
    (h : api.Abides manager (.call c next) (s, coming)) {request : Request}
    (hrequest : Request.ofCall manager c = .ok request)
    (hclient : ∀ c₁ x c₂, Serves c₁ request x c₂ → c₁.Answers c (answerOf c x) c₂) :
    ∃ reply s', api.answerAmid manager c (s, coming) = (reply, (s', coming.tail)) ∧
      (api.contents (Work.writeAll api.write (coming.headD []) s)).Answers c reply (api.contents s') ∧
      api.Abides manager (next reply) (s', coming.tail) := by
  obtain ⟨hserves, habides⟩ := h
  have hanswer : api.answerAmid manager c (s, coming) =
      (answerOf c (api.send request (Work.writeAll api.write (coming.headD []) s)).1,
        ((api.send request (Work.writeAll api.write (coming.headD []) s)).2, coming.tail)) := by
    simp only [ApiServer.answerAmid, Work.answerAmid, answer, hrequest]
  rw [hanswer] at habides
  exact ⟨_, _, hanswer, hclient _ _ _ (hserves request hrequest), habides⟩

/-- Two pieces of work, one on a store in memory and one on a cluster, end tied, with results that are
related. -/
def Lockstep (api : ApiServer σ) (manager : String) (ν : Linkage) (w : Work α) (w' : Work β) (m : Memory)
    (s : σ) (Q : Linkage → α → β → Prop) : Prop :=
  ∀ coming, api.Abides manager w' (s, coming) →
    ∃ ν' a m' b s' rest, ν ≤ ν' ∧ w.run Memory.answerAmid (m, coming) = (a, (m', rest)) ∧
      w'.run (api.answerAmid manager) (s, coming) = (b, (s', rest)) ∧ Tied ν' m' (api.contents s') ∧
      Q ν' a b

namespace Lockstep

variable {Q : Linkage → α → β → Prop}

theorem done (h : Tied ν m (api.contents s)) {a : α} {b : β} (hQ : Q ν a b) :
    Lockstep api manager ν (.done a) (.done b) m s Q :=
  fun coming _ => ⟨ν, a, m, b, s, coming, le_rfl, rfl, rfl, h, hQ⟩

theorem mono {w : Work α} {w' : Work β} {P : Linkage → α → β → Prop}
    (h : Lockstep api manager ν w w' m s P) (hPQ : ∀ ν' a b, P ν' a b → Q ν' a b) :
    Lockstep api manager ν w w' m s Q := by
  intro coming habides
  obtain ⟨ν', a, m', b, s', rest, hle, hrun, hrun', htied, hP⟩ := h coming habides
  exact ⟨ν', a, m', b, s', rest, hle, hrun, hrun', htied, hPQ ν' a b hP⟩

theorem bind {w : Work γ} {w' : Work δ} {f : γ → Work α} {f' : δ → Work β} {P : Linkage → γ → δ → Prop}
    (hw : Lockstep api manager ν w w' m s P)
    (hf : ∀ ν₁ m₁ s₁ a b, ν ≤ ν₁ → Tied ν₁ m₁ (api.contents s₁) → P ν₁ a b →
      Lockstep api manager ν₁ (f a) (f' b) m₁ s₁ Q) :
    Lockstep api manager ν (w.bind f) (w'.bind f') m s Q := by
  intro coming habides
  obtain ⟨habides, hnext⟩ := habides.bind
  obtain ⟨ν₁, a, m₁, b, s₁, rest, hle, hrun, hrun', htied, hP⟩ := hw coming habides
  rw [hrun'] at hnext
  obtain ⟨ν₂, a₂, m₂, b₂, s₂, rest₂, hle₂, hrun₂, hrun₂', htied₂, hQ⟩ :=
    hf ν₁ m₁ s₁ a b hle htied hP rest hnext
  refine ⟨ν₂, a₂, m₂, b₂, s₂, rest₂, hle.trans hle₂, ?_, ?_, htied₂, hQ⟩
  · rw [Work.run_bind, hrun, hrun₂]
  · rw [Work.run_bind, hrun', hrun₂']

theorem call {c c' : Call} {next : c.Answer → Work α} {next' : c'.Answer → Work β}
    (h : Tied ν m (api.contents s)) {request : Request} (hrequest : Request.ofCall manager c' = .ok request)
    (hclient : ∀ c₁ x c₂, Serves c₁ request x c₂ → c₁.Answers c' (answerOf c' x) c₂)
    (hnext : ∀ ν₁ m₁ s₁ s₂ reply, ν ≤ ν₁ → Tied ν₁ m₁ (api.contents s₁) →
      (api.contents s₁).Answers c' reply (api.contents s₂) →
      ∃ ν₂, ν₁ ≤ ν₂ ∧ Tied ν₂ (Memory.answer c m₁).2 (api.contents s₂) ∧
        Lockstep api manager ν₂ (next (Memory.answer c m₁).1) (next' reply) (Memory.answer c m₁).2 s₂ Q) :
    Lockstep api manager ν (.call c next) (.call c' next') m s Q := by
  intro coming habides
  obtain ⟨reply, s₂, hanswer, hanswers, habides⟩ := habides.call hrequest hclient
  obtain ⟨ν₁, hle₁, htied₁⟩ := h.writeAll (coming.headD [])
  obtain ⟨ν₂, hle₂, htied₂, hlockstep⟩ := hnext _ _ _ _ _ hle₁ htied₁ hanswers
  obtain ⟨ν₃, a, m₃, b, s₃, rest, hle₃, hrun, hrun', htied₃, hQ⟩ := hlockstep coming.tail habides
  refine ⟨ν₃, a, m₃, b, s₃, rest, (hle₁.trans hle₂).trans hle₃, hrun, ?_, htied₃, hQ⟩
  rw [Work.run, hanswer]
  exact hrun'

theorem get {key : Key} (hkey : Addressable key)
    {next : Except StoreError (Option key.kind.Object) → Work α}
    {next' : Except StoreError (Option key.kind.Object) → Work β} (h : Tied ν m (api.contents s))
    (hnext : ∀ ν₁ m₁ s₁ found found', ν ≤ ν₁ → Tied ν₁ m₁ (api.contents s₁) → Finds ν₁ m₁ key found found' →
      Lockstep api manager ν₁ (next (.ok found)) (next' (.ok found')) m₁ s₁ Q) :
    Lockstep api manager ν (.call (.get key) next) (.call (.get key) next') m s Q := by
  refine call h (ofCall_get manager hkey) (fun _ _ _ => answers_get) ?_
  rintro ν₁ m₁ s₁ s₂ reply hle htied ⟨rfl, hcontents⟩
  rw [← hcontents] at htied ⊢
  obtain ⟨found, hget, hfinds⟩ := htied.get key
  have hanswer : Memory.answer (.get key) m₁ = (.ok found, m₁) := Prod.ext hget rfl
  rw [hanswer]
  exact ⟨ν₁, le_rfl, htied, hnext ν₁ m₁ s₂ found _ hle htied hfinds⟩

end Lockstep

end

end Cluster
end McpOperator
