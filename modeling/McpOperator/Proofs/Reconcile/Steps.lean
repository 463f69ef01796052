import McpOperator.Reconcile.Pass
import McpOperator.Proofs.Store.Upsert

namespace McpOperator

theorem Work.bind_done {α : Type} (w : Work α) {f : α → Work α} (hf : ∀ a, f a = .done a) :
    w.bind f = w := by
  induction w with
  | done a => exact hf a
  | call c next ih => exact congrArg (Work.call c) (funext ih)

namespace Pass

structure Step where
  step : ApplyStep
  kind : Kind
  object : kind.Object

def Step.key (s : Step) : Key := Key.of s.kind s.object

def applyAll : List Step → Work (Except (ApplyStep × StoreError) Unit)
  | [] => .done (.ok ())
  | s :: rest => (applyOne s.step s.kind s.object).bind fun
      | .error e => .done (.error e)
      | .ok _ => applyAll rest

def steps (o : Gateway.Outputs) : List Step :=
  [⟨.deployment, .deployment, o.deployment⟩, ⟨.service, .service, o.service⟩,
    ⟨.configMap, .configMap, o.configMap⟩]

theorem apply_eq (o : Gateway.Outputs) : apply o = applyAll (steps o) := by
  have hlast : (applyOne .configMap .configMap o.configMap).bind (fun
      | .error e => .done (.error e)
      | .ok _ => .done (.ok ())) = applyOne .configMap .configMap o.configMap := by
    apply Work.bind_done _
    intro r
    cases r <;> rfl
  rw [apply, steps, applyAll]
  congr
  funext r
  cases r with
  | error e => rfl
  | ok =>
      dsimp only
      rw [applyAll]
      congr
      funext r
      cases r with
      | error e => rfl
      | ok =>
          dsimp only
          rw [applyAll]
          exact hlast.symm

variable {m m' : Memory}

theorem run_applyAll_cons (s : Step) (rest : List Step) :
    (applyAll (s :: rest)).run Memory.answer m =
      match (upsert s.kind s.object).run Memory.answer m with
      | (.ok _, m') => (applyAll rest).run Memory.answer m'
      | (.error e, m') => (.error (s.step, e), m') := by
  rw [applyAll, Work.run_bind, applyOne, Work.run_bind]
  rcases (upsert s.kind s.object).run Memory.answer m with ⟨e | outcome, m'⟩ <;> rfl

/-- How applying objects ends that writes nothing. -/
inductive RestsAll (m : Memory) : List Step → Except (ApplyStep × StoreError) Unit → Prop
  | nil : RestsAll m [] (.ok ())
  | stop {s : Step} {rest : List Step} {e : StoreError}
      (h : Upsert.Rests m s.kind s.object (.error e)) : RestsAll m (s :: rest) (.error (s.step, e))
  | next {s : Step} {rest : List Step} {outcome : UpsertOutcome}
      {r : Except (ApplyStep × StoreError) Unit} (h : Upsert.Rests m s.kind s.object (.ok outcome))
      (hrest : RestsAll m rest r) : RestsAll m (s :: rest) r

namespace RestsAll

variable {l : List Step} {r : Except (ApplyStep × StoreError) Unit}

theorem run (hm : m.Sound) (h : RestsAll m l r) : (applyAll l).run Memory.answer m = (r, m) := by
  induction h with
  | nil => rfl
  | stop h => rw [run_applyAll_cons, h.run hm]
  | next h _ ih =>
      rw [run_applyAll_cons, h.run hm]
      exact ih

theorem congr (h : RestsAll m l r) (hreads : m'.failingReads = m.failingReads)
    (hwrites : m'.failingWrites = m.failingWrites)
    (hobjects : ∀ s ∈ l, m'.objects.get? s.key = m.objects.get? s.key) : RestsAll m' l r := by
  induction h with
  | nil => exact .nil
  | stop h => exact .stop (h.congr hreads hwrites (hobjects _ List.mem_cons_self))
  | next h _ ih =>
      rw [List.forall_mem_cons] at hobjects
      exact .next (h.congr hreads hwrites hobjects.1) (ih hobjects.2)

theorem settled (h : RestsAll m l (.ok ())) :
    ∀ s ∈ l, s.kind ∉ m.failingReads ∧ Upsert.Settled m s.kind s.object := by
  generalize hr : (Except.ok () : Except (ApplyStep × StoreError) Unit) = r at h
  induction h with
  | nil => simp
  | stop => cases hr
  | next h _ ih =>
      rw [List.forall_mem_cons]
      refine ⟨?_, ih hr⟩
      cases h with
      | current hreads hs => exact ⟨hreads, hs⟩

theorem of_healthy (h : RestsAll m l r)
    (hl : ∀ s ∈ l, s.kind ∉ m.failingReads ∧ s.kind ∉ m.failingWrites) : r = .ok () := by
  induction h with
  | nil => rfl
  | stop h =>
      obtain ⟨hreads, hwrites⟩ := hl _ List.mem_cons_self
      cases h with
      | unreadable hfail => exact absurd hfail hreads
      | unwritable _ _ hfail => exact absurd hfail hwrites
  | next _ _ ih => exact ih fun s hs => hl s (List.mem_cons_of_mem _ hs)

end RestsAll

/-- What applying objects can make of a store. -/
structure Applied (l : List Step) (m m' : Memory) : Prop where
  step (s : Step) (hs : s ∈ l) : m'.objects.get? s.key = m.objects.get? s.key ∨
    ¬ Upsert.Settled m s.kind s.object ∧ ∃ n : Nat, m'.objects.get? s.key = some (s.kind.encode
      (s.kind.withResourceVersion (Upsert.desired s.kind s.object) (some (toString n))))
  others (key : Key) (h : key ∉ l.map Step.key) : m'.objects.get? key = m.objects.get? key
  faults : Memory.KeepsFaults m m'

theorem Applied.refl (l : List Step) (m : Memory) : Applied l m m :=
  ⟨fun _ _ => .inl rfl, fun _ _ => rfl, .refl m⟩

theorem Applied.skip {s : Step} {rest : List Step} (h : Applied rest m m') (hs : s.key ∉ rest.map Step.key) :
    Applied (s :: rest) m m' where
  step := List.forall_mem_cons.2 ⟨.inl (h.others s.key hs), h.step⟩
  others key hkey := h.others key (fun hmem => hkey (List.mem_cons_of_mem _ hmem))
  faults := h.faults

theorem Applied.store {s : Step} {rest : List Step} {m₁ : Memory}
    (hsettled : ¬ Upsert.Settled m s.kind s.object)
    (hstored : Memory.Stored m m₁ s.kind (Upsert.desired s.kind s.object)) (h : Applied rest m₁ m')
    (hs : s.key ∉ rest.map Step.key) : Applied (s :: rest) m m' where
  step := by
    rw [List.forall_mem_cons]
    constructor
    · obtain ⟨n, hobject⟩ := hstored.object
      rw [Upsert.key_desired] at hobject
      exact .inr ⟨hsettled, n, (h.others s.key hs).trans hobject⟩
    · intro t ht
      have hne : Key.of s.kind (Upsert.desired s.kind s.object) ≠ t.key := by
        rw [Upsert.key_desired]
        rintro heq
        exact hs (List.mem_map.2 ⟨t, ht, heq.symm⟩)
      have hsame := hstored.others hne
      rcases h.step t ht with heq | ⟨ht, hn⟩
      · exact .inl (heq.trans hsame)
      · exact .inr ⟨mt (Upsert.settled_congr hsame).2 ht, hn⟩
  others key hkey := by
    rw [List.map_cons, List.mem_cons, not_or] at hkey
    refine (h.others key hkey.2).trans (hstored.others ?_)
    rw [Upsert.key_desired]
    exact Ne.symm hkey.1
  faults := hstored.faults.trans h.faults

/-- Applying objects ends in a store in which applying them again rests. -/
theorem run_applyAll (hm : m.Sound) {l : List Step} (hkeys : (l.map Step.key).Nodup)
    (hversions : ∀ s ∈ l, s.kind.resourceVersion s.object = none) :
    ∃ r m', (applyAll l).run Memory.answer m = (r, m') ∧ RestsAll m' l r ∧ Applied l m m' := by
  -- Later objects go to other keys, so where the first one rests it still does in the end.
  induction l generalizing m with
  | nil => exact ⟨_, m, rfl, .nil, .refl [] m⟩
  | cons s rest ih =>
      rw [List.forall_mem_cons] at hversions
      obtain ⟨hfresh, hrest⟩ := List.nodup_cons.1 hkeys
      rcases Upsert.upsert_cases hm s.kind s.object with
        ⟨e | outcome, hrests, hrun⟩ | ⟨outcome, m₁, hrun, hreads, hsettled, hstored⟩
      · refine ⟨.error (s.step, e), m, ?_, .stop hrests, .refl _ m⟩
        rw [run_applyAll_cons, hrun]
      · obtain ⟨r, m', hrun', hrests', happlied⟩ := ih hm hrest hversions.2
        refine ⟨r, m', ?_, .next (hrests.congr happlied.faults.failingReads
          happlied.faults.failingWrites (happlied.others s.key hfresh)) hrests', happlied.skip hfresh⟩
        rw [run_applyAll_cons, hrun]
        exact hrun'
      · have hcurrent : Upsert.Rests m₁ s.kind s.object (.ok .unchanged) :=
          .current (hstored.faults.failingReads ▸ hreads)
            (Upsert.settled_of_stored hversions.1 hstored)
        obtain ⟨r, m', hrun', hrests', happlied⟩ := ih (hm.run hrun) hrest hversions.2
        refine ⟨r, m', ?_, .next (hcurrent.congr happlied.faults.failingReads
          happlied.faults.failingWrites (happlied.others s.key hfresh)) hrests',
          .store hsettled hstored happlied hfresh⟩
        rw [run_applyAll_cons, hrun]
        exact hrun'

end Pass
end McpOperator
