import McpOperator.Proofs.Codec.Portable
import McpOperator.Proofs.Store.Upsert

namespace McpOperator

theorem SortedMap.insert_erase {α : Type} (m : SortedMap α) (k : String) (v : α) :
    (m.erase k).insert k v = m.insert k v := by
  suffices hentries : ∀ es : List (String × α), es.Pairwise (fun a b => a.1 < b.1) →
      insertEntry k v (es.filter fun e => e.1 ≠ k) = insertEntry k v es by
    have h := hentries m.entries m.ascending
    exact SortedMap.mk.injEq .. |>.mpr h
  intro es hes
  -- Behind the place of the key there is nothing that goes by it.
  have hbehind : ∀ rest : List (String × α), (∀ e ∈ rest, k < e.1) →
      (rest.filter fun e => e.1 ≠ k) = rest := by
    intro rest hrest
    apply List.filter_eq_self.2
    intro e he
    simpa using (String.ne_of_lt (hrest e he)).symm
  induction es with
  | nil => rfl
  | cons e rest ih =>
      obtain ⟨l, w⟩ := e
      obtain ⟨hl, hrest⟩ := List.pairwise_cons.1 hes
      by_cases hk : l = k
      · subst hk
        have hfirst : insertEntry l v rest = (l, v) :: rest := by
          cases rest with
          | nil => rfl
          | cons d others => rw [insertEntry, if_pos (hl d List.mem_cons_self)]
        rw [List.filter_cons_of_neg (by simp), hbehind rest hl, hfirst]
        simp [insertEntry]
      · rw [List.filter_cons_of_pos (by simpa using hk), insertEntry, insertEntry]
        by_cases hlt : k < l
        · rw [if_pos hlt, if_pos hlt, hbehind rest fun e he => String.lt_trans hlt (hl e he)]
        · rw [if_neg hlt, if_neg hlt, if_neg (Ne.symm hk), if_neg (Ne.symm hk), ih hrest]

theorem SortedMap.eq_empty_of_isEmpty {α : Type} {m : SortedMap α} (h : m.isEmpty = true) : m = .empty := by
  rw [isEmpty, List.isEmpty_iff] at h
  exact SortedMap.mk.injEq .. |>.mpr h

namespace Kind

variable {kind : Kind}

theorem get?_withMetadata (o : kind.Object) (m : ObjectMeta) (step : String) :
    (kind.encode (kind.withMetadata o m)).get? step =
      if step = "metadata" then some m.encode else (kind.encode o).get? step := by
  by_cases h : step = "metadata"
  · rw [if_pos h, h, get?_metadata, metadata_withMetadata]
  · rw [if_neg h]
    cases kind <;> simp [encode, McpServer.encode, Deployment.encode, Service.encode, ConfigMap.encode,
      Secret.encode, withMetadata, Json.record, Json.get?, h]

end Kind

theorem ObjectMeta.get?_withVersion (m : ObjectMeta) (version : Option String) (step : String) :
    ({ m with resourceVersion := version } : ObjectMeta).encode.get? step =
      if step = "resourceVersion" then version.map .str else m.encode.get? step := by
  by_cases h : step = "resourceVersion"
  · subst h
    cases version <;> simp [encode, Json.record, Json.get?]
  · simp [encode, Json.record, Json.get?, h]

theorem Json.at?_record (fields : List (String × Option Json)) (step : String) (rest : List String) :
    (record fields).at? (step :: rest) = ((record fields).get? step).bind fun json => json.at? rest := by
  rw [record, at?]
  rfl

namespace Kind

variable {kind : Kind}

theorem at?_encode (o : kind.Object) (step : String) (rest : List String) :
    (kind.encode o).at? (step :: rest) =
      ((kind.encode o).get? step).bind fun json => json.at? rest := by
  cases kind <;> exact Json.at?_record _ step rest

theorem at?_withResourceVersion {o : kind.Object} {version : Option String} {path : List String}
    (h : ((kind.encode (kind.withResourceVersion o version)).at? path).isSome) :
    path = ["metadata", "resourceVersion"] ∨ ((kind.encode o).at? path).isSome := by
  cases path with
  | nil => exact .inr (by rw [Json.at?]; rfl)
  | cons step rest =>
      rw [at?_encode, withResourceVersion, get?_withMetadata] at h
      rw [at?_encode]
      by_cases hstep : step = "metadata"
      · rw [if_pos hstep, Option.bind_some] at h
        rw [hstep, get?_metadata, Option.bind_some]
        cases rest with
        | nil => exact .inr (by rw [Json.at?]; rfl)
        | cons field rest =>
            rw [ObjectMeta.encode, Json.at?_record] at h ⊢
            rw [← ObjectMeta.encode] at h ⊢
            rw [ObjectMeta.get?_withVersion] at h
            by_cases hfield : field = "resourceVersion"
            · left
              rw [if_pos hfield] at h
              cases rest with
              | nil => rw [hfield]
              | cons => cases version <;> cases h
            · rw [if_neg hfield] at h
              exact .inr h
      · rw [if_neg hstep] at h
        exact .inr h

end Kind

namespace Upsert

variable {kind : Kind} {o p : kind.Object} {m m' : Memory}

def text (kind : Kind) (o : kind.Object) : String := (kind.encode (content kind o)).compact

theorem appliedHash_eq (o : kind.Object) : appliedHash kind o = Sha256.ofText (text kind o) := rfl

theorem insert_withoutHash (annotations : Option StringMap) (hash : String) :
    ((withoutHash annotations).getD .empty).insert hashKey hash =
      (annotations.getD .empty).insert hashKey hash := by
  cases annotations with
  | none => rfl
  | some a =>
      rw [Option.getD_some, ← a.insert_erase, withoutHash, Option.map_some, Option.filter]
      split
      · rfl
      · rename_i hempty
        rw [Bool.not_eq_true, Bool.not_eq_false'] at hempty
        rw [SortedMap.eq_empty_of_isEmpty hempty]
        rfl

theorem desired_eq (h : kind.resourceVersion o = none) :
    desired kind o = stamp kind (content kind o) (appliedHash kind o) := by
  have hannotations : kind.annotations (content kind o) = withoutHash (kind.annotations o) := by
    rw [content, Kind.annotations_withResourceVersion, Kind.annotations_withAnnotations]
  rw [desired, stamp, stamp, hannotations, insert_withoutHash]
  rw [Kind.resourceVersion] at h
  simp only [content, Kind.withAnnotations, Kind.withResourceVersion, Kind.withMetadata_withMetadata,
    Kind.metadata_withMetadata]
  rw [← h]

theorem wholeSeconds_stamp (o : kind.Object) (hash : String) :
    kind.wholeSeconds (stamp kind o hash) = stamp kind (kind.wholeSeconds o) hash := by
  rw [stamp, stamp, Kind.annotations_wholeSeconds]
  cases kind <;> rfl

theorem desired_congr (ho : kind.resourceVersion o = none) (hp : kind.resourceVersion p = none)
    (h : text kind o = text kind p) :
    kind.wholeSeconds (desired kind o) = kind.wholeSeconds (desired kind p) := by
  rw [desired_eq ho, desired_eq hp, wholeSeconds_stamp, wholeSeconds_stamp,
    Kind.wholeSeconds_eq_of_compact h, appliedHash_eq, appliedHash_eq, h]

/-- The object is stored as it is desired, in some version or other, and as nothing else. -/
def Carries (m : Memory) (kind : Kind) (o : kind.Object) : Prop :=
  ∃ n : Nat, m.objects.get? (Key.of kind o) =
    some (kind.encode (kind.withResourceVersion (desired kind o) (some (toString n))))

theorem Carries.of_text (h : Carries m kind p) (hkey : Key.of kind p = Key.of kind o)
    (ho : kind.resourceVersion o = none) (hp : kind.resourceVersion p = none)
    (htext : text kind p = text kind o) : Carries m kind o := by
  obtain ⟨n, hobject⟩ := h
  refine ⟨n, ?_⟩
  rw [← hkey, hobject, ← Kind.encode_wholeSeconds, Kind.wholeSeconds_withResourceVersion,
    desired_congr hp ho htext, ← Kind.wholeSeconds_withResourceVersion, Kind.encode_wholeSeconds]

theorem Carries.storedHash (h : Carries m kind p) (hkey : Key.of kind p = Key.of kind o)
    {live : kind.Object} (hread : m.read (Key.of kind o) = .ok (some live)) :
    storedHash kind live = some (appliedHash kind p) := by
  obtain ⟨n, hobject⟩ := h
  rw [hkey] at hobject
  have hlive : live = kind.wholeSeconds
      (kind.withResourceVersion (desired kind p) (some (toString n))) := by
    rw [Memory.read, hobject] at hread
    have hdecode := Kind.decode_encode
      (kind.withResourceVersion (desired kind p) (some (toString n)))
    obtain ⟨found, hfound, heq⟩ := map_eq_ok_iff.1 hread
    cases heq
    exact Except.ok.inj (hfound.symm.trans hdecode)
  rw [hlive, Upsert.storedHash, Kind.annotations_wholeSeconds, Kind.annotations_withResourceVersion]
  exact storedHash_desired p

/-- What may be under the key of an object before it is upserted: nothing that carries a digest, or an
object that is told from it by its digest. -/
def Distinguished (m : Memory) (kind : Kind) (o : kind.Object) : Prop :=
  (∀ live : kind.Object, m.read (Key.of kind o) = .ok (some live) → storedHash kind live = none) ∨
    ∃ p : kind.Object, Key.of kind p = Key.of kind o ∧ Carries m kind p ∧
      kind.resourceVersion p = none ∧ (appliedHash kind p = appliedHash kind o → text kind p = text kind o)

theorem carries_of_run (hm : m.Sound) (hreads : kind ∉ m.failingReads) (hwrites : kind ∉ m.failingWrites)
    (hversion : kind.resourceVersion o = none) (h : Distinguished m kind o) :
    ∃ outcome m', (upsert kind o).run Memory.answer m = (.ok outcome, m') ∧ m'.Sound ∧
      Memory.KeepsFaults m m' ∧ Carries m' kind o := by
  rcases upsert_cases hm kind o with ⟨r, hrests, hrun⟩ | ⟨outcome, m', hrun, -, -, hstored⟩
  · cases hrests with
    | unreadable hfail => exact absurd hfail hreads
    | unwritable _ _ hfail => exact absurd hfail hwrites
    | current _ hsettled =>
        refine ⟨_, m, hrun, hm, .refl m, ?_⟩
        obtain ⟨live, hread, hcurrent⟩ := hsettled
        rw [isCurrent, Bool.and_eq_true, decide_eq_true_iff] at hcurrent
        rcases h with hplain | ⟨p, hkey, hcarries, hp, htext⟩
        · rw [hplain live hread] at hcurrent
          cases hcurrent.1
        · have hhash := hcarries.storedHash hkey hread
          rw [hcurrent.1, Option.some.injEq] at hhash
          exact hcarries.of_text hkey hversion hp (htext hhash.symm)
  · refine ⟨outcome, m', hrun, hm.run hrun, hstored.faults, ?_⟩
    obtain ⟨n, hobject⟩ := hstored.object
    rw [key_desired] at hobject
    exact ⟨n, hobject⟩

structure Revision (kind : Kind) where
  races : List Kind
  object : kind.Object

def Revision.upsert (r : Revision kind) (m : Memory) : Except StoreError UpsertOutcome × Memory :=
  (McpOperator.upsert kind r.object).run Memory.answer (r.races.foldl Memory.raceCreate m)

/-- Upserts one after another: how each of them ends, and the store in the end. -/
def upsertAll : List (Revision kind) → Memory → List (Except StoreError UpsertOutcome) × Memory
  | [], m => ([], m)
  | r :: rest, m =>
      let (outcome, m) := r.upsert m
      let (outcomes, m) := upsertAll rest m
      (outcome :: outcomes, m)

theorem raceCreate_foldl (races : List Kind) (m : Memory) :
    ∃ createRaces, races.foldl Memory.raceCreate m = { m with createRaces } := by
  induction races generalizing m with
  | nil => exact ⟨m.createRaces, rfl⟩
  | cons kind rest ih =>
      obtain ⟨createRaces, h⟩ := ih (m.raceCreate kind)
      exact ⟨createRaces, h⟩

theorem carries_of_upsert {r : Revision kind} (hm : m.Sound) (hreads : kind ∉ m.failingReads)
    (hwrites : kind ∉ m.failingWrites) (hversion : kind.resourceVersion r.object = none)
    (h : Distinguished m kind r.object) :
    ∃ outcome m', r.upsert m = (.ok outcome, m') ∧ m'.Sound ∧ kind ∉ m'.failingReads ∧
      kind ∉ m'.failingWrites ∧ Carries m' kind r.object := by
  obtain ⟨createRaces, hraces⟩ := raceCreate_foldl r.races m
  have hsound : Memory.Sound { m with createRaces } := hm.grow (.same rfl rfl)
  rw [Revision.upsert, hraces]
  obtain ⟨outcome, m', hrun, hm', hfaults, hcarries⟩ :=
    carries_of_run (m := { m with createRaces }) hsound hreads hwrites hversion h
  refine ⟨outcome, m', hrun, hm', ?_, ?_, hcarries⟩
  · rw [hfaults.failingReads]
    exact hreads
  · rw [hfaults.failingWrites]
    exact hwrites

theorem carries_of_upsertAll {rs : List (Revision kind)} (hne : rs ≠ []) (hm : m.Sound)
    (hreads : kind ∉ m.failingReads) (hwrites : kind ∉ m.failingWrites)
    (hkeys : ∀ r ∈ rs, ∀ s ∈ rs, Key.of kind r.object = Key.of kind s.object)
    (hversions : ∀ r ∈ rs, kind.resourceVersion r.object = none)
    (hdigests : ∀ r ∈ rs, ∀ s ∈ rs, appliedHash kind r.object = appliedHash kind s.object →
      text kind r.object = text kind s.object)
    (hstart : Distinguished m kind (rs.head hne).object) :
    ∃ (outcomes : List UpsertOutcome) (m' : Memory), upsertAll rs m = (outcomes.map .ok, m') ∧
      Carries m' kind (rs.getLast hne).object := by
  induction rs generalizing m with
  | nil => exact absurd rfl hne
  | cons r rest ih =>
      obtain ⟨outcome, m₁, hrun, hm₁, hreads₁, hwrites₁, hcarries⟩ :=
        carries_of_upsert hm hreads hwrites (hversions r List.mem_cons_self) hstart
      cases rest with
      | nil =>
          refine ⟨[outcome], m₁, ?_, hcarries⟩
          simp [upsertAll, hrun]
      | cons s rest =>
          have hs : s ∈ r :: s :: rest := List.mem_cons_of_mem _ List.mem_cons_self
          -- What has just been stored is told from what comes next by its digest.
          have hnext : Distinguished m₁ kind s.object := .inr ⟨r.object,
            hkeys r List.mem_cons_self s hs, hcarries, hversions r List.mem_cons_self,
            hdigests r List.mem_cons_self s hs⟩
          obtain ⟨outcomes, m', hrest, hlast⟩ := ih (List.cons_ne_nil _ _) hm₁ hreads₁ hwrites₁
            (fun r hr t ht => hkeys r (List.mem_cons_of_mem _ hr) t (List.mem_cons_of_mem _ ht))
            (fun r hr => hversions r (List.mem_cons_of_mem _ hr))
            (fun r hr t ht => hdigests r (List.mem_cons_of_mem _ hr) t (List.mem_cons_of_mem _ ht)) hnext
          refine ⟨outcome :: outcomes, m', ?_, ?_⟩
          · rw [upsertAll, hrun]
            simp only [hrest, List.map_cons]
          · rw [List.getLast_cons (List.cons_ne_nil s rest)]
            exact hlast

end Upsert

open Upsert in
/-- Of objects that are upserted one after the other under one key, the last one is what is stored in the
end, with its digest and a version and with nothing that it does not hold itself. -/
theorem upserts_last_wins {m : Memory} (hm : m.Reachable) {kind : Kind} (hreads : kind ∉ m.failingReads)
    (hwrites : kind ∉ m.failingWrites) {rs : List (Revision kind)} (hne : rs ≠ [])
    (hkeys : ∀ r ∈ rs, ∀ s ∈ rs, Key.of kind r.object = Key.of kind s.object)
    (hversions : ∀ r ∈ rs, kind.resourceVersion r.object = none)
    (hstart : ∀ live : kind.Object, m.read (Key.of kind (rs.head hne).object) = .ok (some live) →
      storedHash kind live = none)
    (hdigests : ∀ r ∈ rs, ∀ s ∈ rs, Sha256.ofText (text kind r.object) = Sha256.ofText (text kind s.object) →
      text kind r.object = text kind s.object) :
    ∃ (outcomes : List UpsertOutcome) (final : Memory) (stamped : kind.Object) (json : Json) (n : Nat),
      upsertAll rs m = (outcomes.map .ok, final) ∧
      stamped = stamp kind (rs.getLast hne).object (appliedHash kind (rs.getLast hne).object) ∧
      final.objects.get? (Key.of kind (rs.getLast hne).object) = some json ∧
      json = kind.encode (kind.withResourceVersion stamped (some (toString n))) ∧
      ∀ path, (json.at? path).isSome →
        path = ["metadata", "resourceVersion"] ∨ ((kind.encode stamped).at? path).isSome := by
  obtain ⟨outcomes, final, hrun, n, hobject⟩ :=
    carries_of_upsertAll hne hm.sound hreads hwrites hkeys hversions hdigests (.inl hstart)
  exact ⟨outcomes, final, _, _, n, hrun, rfl, hobject, rfl, fun _ => Kind.at?_withResourceVersion⟩

namespace Upsert

def note (content : String) (labels : Option StringMap) : ConfigMap where
  binaryData := none
  data := some (.ofList [("note", content)])
  immutable := none
  metadata := { ObjectMeta.empty with name := some "echo", ns := some "tools", labels }

def notes : List (Revision .configMap) :=
  [⟨[.configMap], note "first" (some (.ofList [("stale", "true")]))⟩, ⟨[], note "second" none⟩]

end Upsert

open Upsert in
theorem upserts_last_wins_notes :
    ∃ (outcomes : List UpsertOutcome) (final : Memory) (json : Json) (n : Nat),
      upsertAll notes (Memory.empty.seed .configMap (note "old" (some (.ofList [("stale", "true")])))) =
        (outcomes.map .ok, final) ∧
      final.objects.get? ⟨.configMap, "tools", "echo"⟩ = some json ∧
      json = Kind.configMap.encode (Kind.configMap.withResourceVersion
        (stamp .configMap (note "second" none) (appliedHash .configMap (note "second" none)))
        (some (toString n))) := by
  have hreachable : (Memory.empty.seed .configMap (note "old" (some (.ofList [("stale", "true")])))).Reachable :=
    .act (.seed .configMap _) .empty
  have hplain : ∀ live : ConfigMap,
      (Memory.empty.seed .configMap (note "old" (some (.ofList [("stale", "true")])))).read
        (Key.of .configMap (note "first" (some (.ofList [("stale", "true")])))) = .ok (some live) →
      storedHash .configMap live = none := by
    rintro live ⟨⟩
    rfl
  have hnotes : notes ≠ [] := List.cons_ne_nil _ _
  obtain ⟨outcomes, final, stamped, json, n, hrun, rfl, hobject, hjson, -⟩ :=
    upserts_last_wins hreachable (by decide) (by decide) hnotes (by decide) (by decide) hplain
      (by decide +kernel)
  exact ⟨outcomes, final, json, n, hrun, hobject, hjson⟩

end McpOperator
