import McpOperator.Proofs.Store.Reachable
import McpOperator.Proofs.Table
import Mathlib.Data.List.Induction

namespace McpOperator.Memory

structure Entry where
  kind : Kind
  object : kind.Object

namespace Entry

def key (e : Entry) : Key := Key.of e.kind e.object

def json (e : Entry) : Json := e.kind.encode e.object

def next (m : Memory) (kind : Kind) (o : kind.Object) : Entry :=
  ⟨kind, kind.withResourceVersion o (some (toString (m.version + 1)))⟩

@[simp] theorem key_next (m : Memory) (kind : Kind) (o : kind.Object) :
    (next m kind o).key = Key.of kind o :=
  Key.of_withResourceVersion kind o _

end Entry

def Raced (m : Memory) (kind : Kind) : Prop := kind ∈ m.createRaces ∧ kind ∉ m.failingWrites

instance (m : Memory) (kind : Kind) : Decidable (m.Raced kind) :=
  inferInstanceAs (Decidable (_ ∧ _))

/-- What a call says that it wrote. -/
def written? : (c : Call) → c.Answer → Option Entry
  | .get _, _ => none
  | .create kind _, answer => answer.toOption.map fun p : kind.Object => ⟨kind, p⟩
  | .replace kind _, answer => answer.toOption.map fun p : kind.Object => ⟨kind, p⟩
  | .replaceStatus _, answer => answer.toOption.map fun p : McpServer => ⟨.server, p⟩

namespace Act

/-- What an act writes in the operator's name. -/
def own? : Act → Memory → Option Entry
  | .call c, m => written? c (answer c m).1
  | _, _ => none

/-- What an act writes in somebody else's name. Who wins a race has the same object without its
annotations. -/
def others? : Act → Memory → Option Entry
  | .seed kind o, m => some (.next m kind o)
  | .call (.create kind o), m =>
      if m.Raced kind then some (.next m kind (kind.withAnnotations o none)) else none
  | _, _ => none

def write? (a : Act) (m : Memory) : Option Entry := (a.others? m).or (a.own? m)

end Act

def perform (acts : List Act) (m : Memory) : Memory := acts.foldl (fun m a => a.apply m) m

def course : List Act → Memory → List (Act × Memory)
  | [], _ => []
  | a :: acts, m => (a, m) :: course acts (a.apply m)

/-- Everything that acts write to a store that was empty at first. -/
def record (acts : List Act) : List Entry :=
  (course acts .empty).filterMap fun met => met.1.write? met.2

def ownWrites (acts : List Act) : Nat :=
  (course acts .empty).countP fun met => (met.1.own? met.2).isSome

theorem perform_append (acts : List Act) (a : Act) (m : Memory) :
    perform (acts ++ [a]) m = a.apply (perform acts m) := by
  simp [perform]

theorem course_append (acts : List Act) (a : Act) (m : Memory) :
    course (acts ++ [a]) m = course acts m ++ [(a, perform acts m)] := by
  induction acts generalizing m with
  | nil => rfl
  | cons b acts ih =>
      rw [List.cons_append, course, course, List.cons_append, ih]
      rfl

theorem record_append (acts : List Act) (a : Act) :
    record (acts ++ [a]) = record acts ++ (a.write? (perform acts .empty)).toList := by
  rw [record, course_append, List.filterMap_append, ← record]
  cases h : a.write? (perform acts .empty) <;> simp [h]

theorem ownWrites_append (acts : List Act) (a : Act) :
    ownWrites (acts ++ [a]) = ownWrites acts + (a.own? (perform acts .empty)).toList.length := by
  rw [ownWrites, course_append, List.countP_append, ← ownWrites]
  cases h : a.own? (perform acts .empty) <;> simp [h]

structure SameContent (m m' : Memory) : Prop where
  objects : m'.objects = m.objects
  version : m'.version = m.version
  mutations : m'.mutations = m.mutations

structure Adds (m m' : Memory) (kind : Kind) (o : kind.Object) (own : Nat) : Prop where
  objects : m'.objects = m.objects.put (Key.of kind o) (Entry.next m kind o).json
  version : m'.version = m.version + 1
  mutations : m'.mutations = m.mutations + own

theorem SameContent.refl (m : Memory) : SameContent m m := ⟨rfl, rfl, rfl⟩

section

variable (m : Memory) (kind : Kind) (o : kind.Object)

theorem adds_write : Adds m (m.write kind o).2 kind o 0 :=
  ⟨by simp [write, Entry.json, Entry.next], rfl, rfl⟩

theorem adds_mutate : Adds m (m.mutate kind o).2 kind o 1 :=
  ⟨(adds_write m kind o).objects, rfl, rfl⟩

end

inductive Goes (m : Memory) : Call → Prop
  | refused {c : Call} (why : StoreError) (hanswer : (answer c m).1 = .error why)
      (hsame : SameContent m (answer c m).2) (hrace : (Act.call c).others? m = none) : Goes m c
  | read (key : Key) : Goes m (.get key)
  | wrote {c : Call} {kind : Kind} (o : kind.Object) (hadds : Adds m (answer c m).2 kind o 1)
      (hown : written? c (answer c m).1 = some (.next m kind o)) (hrace : (Act.call c).others? m = none) :
      Goes m c
  | lost {kind : Kind} {o : kind.Object} (hraced : m.Raced kind)
      (hanswer : (m.create kind o).1 = .error (.alreadyExists (Key.of kind o).display))
      (hadds : Adds m (m.create kind o).2 kind (kind.withAnnotations o none) 0) : Goes m (.create kind o)

section

variable {m : Memory} {c : Call}

theorem Goes.of_refusal {why : StoreError} (heq : answer c m = (.error why, m))
    (hrace : (Act.call c).others? m = none) : Goes m c := by
  refine .refused why (congrArg Prod.fst heq) ?_ hrace
  rw [heq]
  exact .refl m

theorem Goes.of_write {kind : Kind} {o : kind.Object} (hmemory : (answer c m).2 = (m.mutate kind o).2)
    (hown : written? c (answer c m).1 = some (.next m kind o))
    (hrace : (Act.call c).others? m = none) : Goes m c :=
  .wrote o (hmemory ▸ adds_mutate m kind o) hown hrace

end

theorem goes_create (m : Memory) (kind : Kind) (o : kind.Object) : Goes m (.create kind o) := by
  by_cases hfailing : kind ∈ m.failingWrites
  · have heq : m.create kind o = (.error (unavailable kind), m) := by
      rw [create, if_pos hfailing]
    exact .of_refusal heq (if_neg fun hraced => hraced.2 hfailing)
  by_cases hrace : kind ∈ m.createRaces
  · -- The winner stands under the key whether something was there before or not.
    have hwinner := adds_write { m with createRaces := m.createRaces.filter (· ≠ kind) } kind
      (kind.withAnnotations o none)
    have htaken : ((m.race kind o).objects.get? (Key.of kind o)).isSome := by
      rw [race, if_pos hrace, seed, hwinner.objects, Key.of_withAnnotations, Table.get?_put_self]
      rfl
    have heq : m.create kind o = (.error (.alreadyExists (Key.of kind o).display), m.race kind o) := by
      rw [create, if_neg hfailing]
      exact if_pos htaken
    refine .lost ⟨hrace, hfailing⟩ (congrArg Prod.fst heq) ?_
    rw [heq, race, if_pos hrace]
    exact ⟨hwinner.objects, hwinner.version, hwinner.mutations⟩
  · have hothers : (Act.call (.create kind o)).others? m = none := if_neg fun hraced => hrace hraced.1
    cases hget : m.objects.get? (Key.of kind o) with
    | some json =>
        have heq : m.create kind o = (.error (.alreadyExists (Key.of kind o).display), m) := by
          simp [create, hfailing, race, hrace, hget]
        exact .of_refusal heq hothers
    | none =>
        have heq : m.create kind o = (.ok (m.mutate kind o).1, (m.mutate kind o).2) := by
          simp [create, hfailing, race, hrace, hget]
        refine .of_write (congrArg Prod.snd heq) ?_ hothers
        rw [answer, heq]
        rfl

theorem goes_replace (m : Memory) (kind : Kind) (o : kind.Object) : Goes m (.replace kind o) := by
  by_cases hfailing : kind ∈ m.failingWrites
  · have heq : m.replace kind o = (.error (unavailable kind), m) := by
      rw [replace, if_pos hfailing]
    exact .of_refusal heq rfl
  cases hget : m.objects.get? (Key.of kind o) with
  | none =>
      have heq : m.replace kind o = (.error (notFound (Key.of kind o)), m) := by
        simp [replace, hfailing, hget]
      exact .of_refusal heq rfl
  | some json =>
      by_cases hversion : versionOf json = kind.resourceVersion o
      · have heq : m.replace kind o = (.ok (m.mutate kind o).1, (m.mutate kind o).2) := by
          simp [replace, hfailing, hget, hversion]
        refine .of_write (congrArg Prod.snd heq) ?_ rfl
        rw [answer, heq]
        rfl
      · have heq : m.replace kind o = (.error (.conflict (Key.of kind o).display), m) := by
          simp [replace, hfailing, hget, hversion]
        exact .of_refusal heq rfl

theorem goes_replaceStatus (m : Memory) (server : McpServer) : Goes m (.replaceStatus server) := by
  by_cases hconflicts : 0 < m.statusConflicts
  · -- The conflict that was set up is used up, which is no change of what is stored.
    have heq : m.replaceStatus server = (.error (.conflict (Key.of .server server).display),
        { m with statusConflicts := m.statusConflicts - 1 }) := by
      simp [replaceStatus, hconflicts]
    refine .refused _ (congrArg Prod.fst heq) ?_ rfl
    rw [answer, heq]
    exact ⟨rfl, rfl, rfl⟩
  cases hget : m.objects.get? (Key.of .server server) with
  | none =>
      have heq : m.replaceStatus server = (.error (notFound (Key.of .server server)), m) := by
        simp [replaceStatus, hconflicts, hget]
      exact .of_refusal heq rfl
  | some json =>
      cases hdecode : McpServer.decode json with
      | error why =>
          have heq : m.replaceStatus server = (.error (.ofDecode why), m) := by
            simp [replaceStatus, hconflicts, hget, hdecode]
          exact .of_refusal heq rfl
      | ok stored =>
          by_cases hversion : stored.metadata.resourceVersion = server.metadata.resourceVersion
          · have heq : m.replaceStatus server =
                (.ok (m.mutate .server { stored with status := server.status }).1,
                  (m.mutate .server { stored with status := server.status }).2) := by
              simp [replaceStatus, hconflicts, hget, hdecode, hversion]
            refine .of_write (congrArg Prod.snd heq) ?_ rfl
            rw [answer, heq]
            rfl
          · have heq : m.replaceStatus server = (.error (.conflict (Key.of .server server).display), m) := by
              simp [replaceStatus, hconflicts, hget, hdecode, hversion]
            exact .of_refusal heq rfl

theorem goes (m : Memory) (c : Call) : Goes m c := by
  cases c with
  | get key => exact .read key
  | create kind o => exact goes_create m kind o
  | replace kind o => exact goes_replace m kind o
  | replaceStatus server => exact goes_replaceStatus m server

theorem act_writes (m : Memory) (a : Act) :
    (a.write? m = none ∧ a.own? m = none ∧ SameContent m (a.apply m)) ∨
      ∃ (kind : Kind) (o : kind.Object), a.write? m = some (.next m kind o) ∧
        Adds m (a.apply m) kind o (a.own? m).toList.length := by
  cases a with
  | seed kind o => exact .inr ⟨kind, o, rfl, adds_write m kind o⟩
  | call c =>
      cases goes m c with
      | read key => exact .inl ⟨rfl, rfl, .refl m⟩
      | refused why hanswer hsame hrace =>
          have hown : (Act.call c).own? m = none := by
            rw [Act.own?, hanswer]
            cases c <;> rfl
          exact .inl ⟨by rw [Act.write?, hrace, hown, Option.or_none], hown, hsame⟩
      | wrote o hadds hown hrace =>
          refine .inr ⟨_, o, ?_, ?_⟩
          · rw [Act.write?, hrace, Option.none_or]
            exact hown
          · rw [Act.own?, hown]
            exact hadds
      | lost hraced hanswer hadds =>
          rename_i kind o
          refine .inr ⟨kind, kind.withAnnotations o none, ?_, ?_⟩
          · rw [Act.write?, Act.others?, if_pos hraced, Option.some_or]
          · rw [Act.own?, answer, hanswer]
            exact hadds
  | failReads | failWrites | heal | raceCreate | conflictStatus => exact .inl ⟨rfl, rfl, rfl, rfl, rfl⟩

def last? (log : List Entry) (key : Key) : Option Entry :=
  log.reverse.find? fun e => e.key = key

theorem last?_append (log : List Entry) (e : Entry) (key : Key) :
    last? (log ++ [e]) key = if e.key = key then some e else last? log key := by
  by_cases h : e.key = key <;> simp [last?, h]

/-- A store that is told by a record of writes and the number of the operator's own among them. -/
structure Told (log : List Entry) (own : Nat) (m : Memory) : Prop where
  keys_nodup : m.objects.keys.Nodup
  stored (key : Key) : m.objects.get? key = (last? log key).map Entry.json
  numbered (i : Nat) (h : i < log.length) :
    log[i].kind.resourceVersion log[i].object = some (toString (i + 1))
  version_eq : m.version = log.length
  mutations_eq : m.mutations = own

theorem told_empty : Told [] 0 .empty where
  keys_nodup := List.nodup_nil
  stored _ := rfl
  numbered i h := absurd h (Nat.not_lt_zero i)
  version_eq := rfl
  mutations_eq := rfl

section

variable {log : List Entry} {own : Nat} {m m' : Memory}

theorem Told.same (h : Told log own m) (hsame : SameContent m m') : Told log own m' where
  keys_nodup := hsame.objects ▸ h.keys_nodup
  stored key := hsame.objects ▸ h.stored key
  numbered := h.numbered
  version_eq := hsame.version.trans h.version_eq
  mutations_eq := hsame.mutations.trans h.mutations_eq

theorem Told.add (h : Told log own m) {kind : Kind} {o : kind.Object} {n : Nat}
    (hadds : Adds m m' kind o n) : Told (log ++ [.next m kind o]) (own + n) m' where
  keys_nodup := by
    rw [hadds.objects]
    exact Table.nodup_keys_put h.keys_nodup _ _
  stored key := by
    rw [hadds.objects, last?_append, Entry.key_next]
    by_cases hkey : Key.of kind o = key
    · rw [if_pos hkey, ← hkey, Table.get?_put_self]
      rfl
    · rw [if_neg hkey, Table.get?_put_of_ne _ _ hkey, h.stored]
  numbered i hi := by
    rw [List.length_append, List.length_singleton] at hi
    rcases Nat.lt_or_ge i log.length with hlt | hge
    · rw [List.getElem_append_left hlt]
      exact h.numbered i hlt
    · obtain rfl : i = log.length := by omega
      rw [List.getElem_concat_length rfl, Entry.next, Kind.resourceVersion_withResourceVersion,
        h.version_eq]
  version_eq := by
    rw [hadds.version, h.version_eq, List.length_append, List.length_singleton]
  mutations_eq := by
    rw [hadds.mutations, h.mutations_eq]

end

theorem told_record (acts : List Act) : Told (record acts) (ownWrites acts) (perform acts .empty) := by
  induction acts using List.reverseRecOn with
  | nil => exact told_empty
  | append_singleton acts a ih =>
      rw [record_append, ownWrites_append, perform_append]
      rcases act_writes (perform acts .empty) a with ⟨hwrite, hown, hsame⟩ | ⟨kind, o, hwrite, hadds⟩
      · rw [hwrite, hown, Option.toList_none, List.append_nil]
        exact ih.same hsame
      · rw [hwrite, Option.toList_some]
        exact ih.add hadds

theorem sound_perform (acts : List Act) : (perform acts .empty).Sound := by
  induction acts using List.reverseRecOn with
  | nil => exact .refl _
  | append_singleton acts a ih =>
      rw [perform_append]
      exact ih.grow (grows_act _ a)

namespace Told

variable {log : List Entry} {own : Nat} {m : Memory} (h : Told log own m)

include h

theorem get_eq_none {key : Key} (hnever : ∀ e ∈ log, e.key ≠ key) (hreads : key.kind ∉ m.failingReads) :
    m.get key = .ok none := by
  have hlast : last? log key = none := by
    rw [last?, List.find?_eq_none]
    intro e he
    simpa using hnever e (List.mem_reverse.1 he)
  rw [get, if_neg hreads, read, h.stored key, hlast]
  rfl

theorem get_eq_last {past later : List Entry} {e : Entry} (hlog : log = past ++ e :: later)
    (hlater : ∀ e' ∈ later, e'.key ≠ e.key) (hreads : e.kind ∉ m.failingReads) :
    m.get e.key = .ok (some (e.kind.wholeSeconds e.object)) := by
  have hlast : last? log e.key = some e := by
    rw [last?, hlog, List.reverse_append, List.reverse_cons, List.append_assoc, List.find?_append,
      List.find?_eq_none.2]
    · simp
    · intro e' he'
      simpa using hlater e' (List.mem_reverse.1 he')
  have hstored : m.objects.get? e.key = some e.json := by
    rw [h.stored, hlast]
    rfl
  have hdecode : e.kind.decode e.json = .ok (e.kind.wholeSeconds e.object) := Kind.decode_encode e.object
  have hkind : e.key.kind ∉ m.failingReads := hreads
  rw [get, if_neg hkind, read, hstored]
  exact congrArg (fun r => (r.map some).mapError StoreError.ofDecode) hdecode

theorem decodes {key : Key} {json : Json} (hmem : (key, json) ∈ m.objects) :
    ∃ (o : key.kind.Object) (n : Nat), key.kind.decode json = .ok o ∧ Key.of key.kind o = key ∧
      key.kind.resourceVersion o = some (toString n) ∧ 1 ≤ n ∧ n ≤ m.version := by
  have hget : m.objects.get? key = some json := Table.get?_of_mem h.keys_nodup hmem
  rw [h.stored, Option.map_eq_some_iff] at hget
  obtain ⟨e, hlast, rfl⟩ := hget
  have hkey : e.key = key := by simpa using List.find?_some hlast
  have he : e ∈ log := List.mem_reverse.1 (List.mem_of_find?_eq_some hlast)
  obtain ⟨i, hi, rfl⟩ := List.mem_iff_getElem.1 he
  subst hkey
  refine ⟨log[i].kind.wholeSeconds log[i].object, i + 1, Kind.decode_encode _, ?_, ?_, ?_, ?_⟩
  · exact Key.of_wholeSeconds _ _
  · rw [← h.numbered i hi]
    exact Kind.resourceVersion_wholeSeconds _ _
  · exact Nat.le_add_left 1 i
  · rw [h.version_eq]
    exact hi

end Told

/-- Everything that is known of the store that acts lead to, by the record of what they wrote. -/
structure Consistent (acts : List Act) (m : Memory) : Prop where
  keys_nodup : m.objects.keys.Nodup
  /-- Every tree is read as an object of its key, of a version that the store has had. -/
  decodes : ∀ key json, (key, json) ∈ m.objects →
    ∃ (o : key.kind.Object) (n : Nat), key.kind.decode json = .ok o ∧ Key.of key.kind o = key ∧
      key.kind.resourceVersion o = some (toString n) ∧ 1 ≤ n ∧ n ≤ m.version
  /-- Writes are numbered one after the other, and their numbers are their versions. -/
  numbered : ∀ (i : Nat) (h : i < (record acts).length),
    (record acts)[i].kind.resourceVersion (record acts)[i].object = some (toString (i + 1))
  version_eq : m.version = (record acts).length
  /-- A key that was never written to has nothing under it. -/
  get_none : ∀ key, (∀ e ∈ record acts, e.key ≠ key) → key.kind ∉ m.failingReads → m.get key = .ok none
  /-- Any other key has what was written to it last. -/
  get_last : ∀ past e later, record acts = past ++ e :: later → (∀ e' ∈ later, e'.key ≠ e.key) →
    e.kind ∉ m.failingReads → m.get e.key = .ok (some (e.kind.wholeSeconds e.object))
  mutations_eq : m.mutations = ownWrites acts
  /-- A replacement goes through with the version that is stored only. -/
  replaces : ∀ kind o p, (m.replace kind o).1 = .ok p →
    ∃ json, m.objects.get? (Key.of kind o) = some json ∧ versionOf json = kind.resourceVersion o
  /-- A call that fails leaves everything as it was, unless it is a create that loses a race. -/
  refused : ∀ c why, (answer c m).1 = .error why → (∀ kind o, c = .create kind o → ¬ m.Raced kind) →
    SameContent m (answer c m).2
  /-- A create that loses a race leaves the object of who won it, and nothing else. -/
  raced : ∀ kind o, m.Raced kind →
    (m.create kind o).1 = .error (.alreadyExists (Key.of kind o).display) ∧
      Adds m (m.create kind o).2 kind (kind.withAnnotations o none) 0

/-- Whatever is done to a store that was empty at first, it is what the record of all writes says. -/
theorem perform_consistent (acts : List Act) : Consistent acts (perform acts .empty) where
  keys_nodup := (told_record acts).keys_nodup
  decodes _ _ := (told_record acts).decodes
  numbered := (told_record acts).numbered
  version_eq := (told_record acts).version_eq
  get_none _ := (told_record acts).get_eq_none
  get_last _ _ _ := (told_record acts).get_eq_last
  mutations_eq := (told_record acts).mutations_eq
  replaces kind o p hok := by
    obtain ⟨live, hlive, hversion⟩ := replace_ok (sound_perform acts) hok
    exact ⟨kind.encode live, hlive.objects, (Kind.versionOf_encode live).trans hversion⟩
  refused c why hwhy hrace := by
    cases goes (perform acts .empty) c with
    | refused _ _ hsame _ => exact hsame
    | read key => exact .refl _
    | wrote o _ hown _ =>
        have hnone : written? c (answer c (perform acts .empty)).1 = none := by
          rw [hwhy]
          cases c <;> rfl
        cases hnone.symm.trans hown
    | lost hraced => exact absurd hraced (hrace _ _ rfl)
  raced kind o hraced := by
    cases goes (perform acts .empty) (.create kind o) with
    | refused _ _ _ hothers =>
        rw [Act.others?, if_pos hraced] at hothers
        cases hothers
    | wrote _ _ _ hothers =>
        rw [Act.others?, if_pos hraced] at hothers
        cases hothers
    | lost _ hanswer hadds => exact ⟨hanswer, hadds⟩

end McpOperator.Memory
