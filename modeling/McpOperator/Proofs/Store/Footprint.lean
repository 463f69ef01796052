import McpOperator.Proofs.Store.Versions
import McpOperator.Proofs.Store.Interleaving

namespace McpOperator

namespace Memory

/-- A store that came of another one, with the same faults to come and the same objects under some
keys. -/
structure Spares (F : Set Key) (m n : Memory) : Prop extends SameFaults m n where
  grows : m.Grows n
  objects : ∀ key ∈ F, n.objects.get? key = m.objects.get? key

namespace Spares

variable {F : Set Key} {a b c m n : Memory}

theorem refl (F : Set Key) (m : Memory) : Spares F m m := ⟨⟨rfl, rfl, rfl, rfl⟩, .refl m, fun _ _ => rfl⟩

theorem trans (h : Spares F a b) (h' : Spares F b c) : Spares F a c where
  toSameFaults := h.toSameFaults.trans h'.toSameFaults
  grows := h.grows.trans h'.grows
  objects key hkey := (h'.objects key hkey).trans (h.objects key hkey)

theorem matches_right (h : Spares F b c) (hmatches : Matches F a b) : Matches F a c :=
  hmatches.trans (.of_objects hmatches.right (hmatches.right.grow h.grows) h.toSameFaults h.objects)

theorem get (h : Spares F m n) {key : Key} (hkey : key ∈ F) : n.get key = m.get key := by
  rw [Memory.get, Memory.get, h.failingReads, read_congr (h.objects key hkey)]

theorem holds (h : Spares F m n) {key : Key} (hkey : key ∈ F) {live : key.kind.Object}
    (hlive : m.Holds key live) : n.Holds key live :=
  ⟨(h.objects key hkey).trans hlive.objects, hlive.key_eq, hlive.whole⟩

end Spares
end Memory

def Call.target? : Call → Option Key
  | get _ => none
  | create kind o => some (Key.of kind o)
  | replace kind o => some (Key.of kind o)
  | replaceStatus server => some (Key.of .server server)

namespace Memory

variable {m : Memory} {kind : Kind} {o : kind.Object} {key : Key}

theorem get?_race_of_ne (h : Key.of kind o ≠ key) :
    (m.race kind o).objects.get? key = m.objects.get? key := by
  rw [race]
  split
  · exact get?_write_of_ne _ kind _ (by rwa [Key.of_withAnnotations])
  · rfl

theorem get?_mutate_of_ne (h : Key.of kind o ≠ key) :
    (m.mutate kind o).2.objects.get? key = m.objects.get? key := get?_write_of_ne m kind o h

theorem get?_create_of_ne (h : Key.of kind o ≠ key) :
    (m.create kind o).2.objects.get? key = m.objects.get? key := by
  rw [create]
  split
  · rfl
  · dsimp only
    split
    · exact get?_race_of_ne h
    · exact (get?_mutate_of_ne h).trans (get?_race_of_ne h)

theorem get?_replace_of_ne (h : Key.of kind o ≠ key) :
    (m.replace kind o).2.objects.get? key = m.objects.get? key := by
  rw [replace]
  split
  · rfl
  · dsimp only
    split
    · rfl
    · split
      · exact get?_mutate_of_ne h
      · rfl

theorem get?_replaceStatus_of_ne (hm : m.Sound) {server : McpServer} (h : Key.of .server server ≠ key) :
    (m.replaceStatus server).2.objects.get? key = m.objects.get? key := by
  rcases hm.read_of .server server with ⟨hnone, -⟩ | ⟨live, hlive, -⟩
  · simp only [replaceStatus, hnone]
    split <;> rfl
  · rw [replaceStatus_eq hlive]
    split
    · rfl
    · split
      · -- What is written is the server that is stored, under the key that it is stored under.
        have hkey : Key.of .server { live with status := server.status } = Key.of .server server :=
          hlive.key_eq
        exact get?_mutate_of_ne (hkey ▸ h)
      · rfl

theorem get?_answer_of_ne (hm : m.Sound) {c : Call} (h : c.target? ≠ some key) :
    (answer c m).2.objects.get? key = m.objects.get? key := by
  cases c with
  | get key => rfl
  | create kind o => exact get?_create_of_ne fun heq => h (congrArg some heq)
  | replace kind o => exact get?_replace_of_ne fun heq => h (congrArg some heq)
  | replaceStatus server => exact get?_replaceStatus_of_ne hm fun heq => h (congrArg some heq)

/-- No race and no conflict is set up. -/
structure Quiet (m : Memory) : Prop where
  createRaces : m.createRaces = []
  statusConflicts : m.statusConflicts = 0

namespace Quiet

theorem race (h : m.Quiet) (kind : Kind) (o : kind.Object) : m.race kind o = m := by
  rw [Memory.race, if_neg]
  simp [h.createRaces]

theorem sameFaults (h : m.Quiet) (c : Call) : SameFaults m (answer c m).2 := by
  cases c with
  | get key => exact ⟨rfl, rfl, rfl, rfl⟩
  | create kind o =>
      change SameFaults m (m.create kind o).2
      rw [create, h.race]
      dsimp only
      split
      · exact ⟨rfl, rfl, rfl, rfl⟩
      · split <;> exact ⟨rfl, rfl, rfl, rfl⟩
  | replace kind o =>
      change SameFaults m (m.replace kind o).2
      rw [replace]
      dsimp only
      repeat' split
      all_goals exact ⟨rfl, rfl, rfl, rfl⟩
  | replaceStatus server =>
      change SameFaults m (m.replaceStatus server).2
      rw [replaceStatus, h.statusConflicts]
      dsimp only
      repeat' split
      all_goals first | exact ⟨rfl, rfl, rfl, rfl⟩ | omega

theorem answer (h : m.Quiet) (c : Call) : (answer c m).2.Quiet :=
  ⟨(h.sameFaults c).createRaces.trans h.createRaces,
    (h.sameFaults c).statusConflicts.trans h.statusConflicts⟩

theorem sameFaults_run {α : Type} (h : m.Quiet) (w : Work α) :
    SameFaults m (w.run Memory.answer m).2 := by
  induction w generalizing m with
  | done a => exact ⟨rfl, rfl, rfl, rfl⟩
  | call c next ih => exact (h.sameFaults c).trans (ih _ (h.answer c))

theorem spares (h : m.Quiet) (hm : m.Sound) {F : Set Key} {c : Call}
    (hc : ∀ key ∈ F, c.target? ≠ some key) : Spares F m (Memory.answer c m).2 :=
  ⟨h.sameFaults c, grows_answer m c, fun key hkey => get?_answer_of_ne hm (hc key hkey)⟩

end Quiet
end Memory

namespace Work

variable {α β : Type} {W : Set Key} {P Q : α → Prop}

/-- Whatever a store answers, the work writes under these keys only, and ends in such a way. -/
def WritesOnly (W : Set Key) (Q : α → Prop) : Work α → Prop
  | done a => Q a
  | call c next => (∀ key, c.target? = some key → key ∈ W) ∧
      ∀ m : Memory, m.Sound → (next (Memory.answer c m).1).WritesOnly W Q

namespace WritesOnly

theorem mono {W' : Set Key} {w : Work α} (h : w.WritesOnly W P) (hW : W ⊆ W') (hend : ∀ a, P a → Q a) :
    w.WritesOnly W' Q := by
  induction w with
  | done a => exact hend a h
  | call c next ih =>
      obtain ⟨hcall, hnext⟩ := h
      exact ⟨fun key hkey => hW (hcall key hkey), fun m hm => ih _ (hnext m hm)⟩

theorem get {key : Key} {next : (Call.get key).Answer → Work α}
    (h : ∀ m : Memory, m.Sound → (next (m.get key)).WritesOnly W Q) :
    (Work.call (.get key) next).WritesOnly W Q :=
  ⟨fun _ htarget => (Option.some_ne_none _ htarget.symm).elim, h⟩

theorem last {c : Call} {key : Key} (hc : c.target? = some key) (hkey : key ∈ W) (f : c.Answer → α) :
    (Work.call c fun answer => .done (f answer)).WritesOnly W fun _ => True := by
  constructor
  · intro k hk
    cases hc.symm.trans hk
    exact hkey
  · intro m _
    trivial

theorem bind {Q : β → Prop} {w : Work α} {f : α → Work β} (h : w.WritesOnly W P)
    (hf : ∀ a, P a → (f a).WritesOnly W Q) : (w.bind f).WritesOnly W Q := by
  induction w with
  | done a => exact hf a h
  | call c next ih =>
      obtain ⟨hcall, hnext⟩ := h
      exact ⟨hcall, fun m hm => ih _ (hnext m hm)⟩

end WritesOnly
end Work

/-- Work from its start to its end, with others in between its calls that spare some keys. -/
inductive Spared {α : Type} (F : Set Key) : Work α → Memory → α → Memory → Prop
  | done (a : α) {m m' : Memory} (hothers : Memory.Spares F m m') : Spared F (.done a) m a m'
  | call {c : Call} {next : c.Answer → Work α} {m m₁ m' : Memory} {a : α}
      (hothers : Memory.Spares F m m₁)
      (h : Spared F (next (Memory.answer c m₁).1) (Memory.answer c m₁).2 a m') :
      Spared F (.call c next) m a m'

namespace Spared

variable {α β : Type} {F : Set Key} {w : Work α} {m m₁ m' : Memory} {a : α}

theorem after (hothers : Memory.Spares F m m₁) (h : Spared F w m₁ a m') : Spared F w m a m' := by
  cases h with
  | done a h => exact .done a (hothers.trans h)
  | call h hnext => exact .call (hothers.trans h) hnext

theorem of_run (F : Set Key) (w : Work α) (m : Memory) :
    Spared F w m (w.run Memory.answer m).1 (w.run Memory.answer m).2 := by
  induction w generalizing m with
  | done a => exact .done a (.refl F m)
  | call c next ih => exact .call (.refl F m) (ih _ _)

theorem grows (h : Spared F w m a m') : m.Grows m' := by
  induction h with
  | done a hothers => exact hothers.grows
  | call hothers _ ih => exact (hothers.grows.trans (Memory.grows_answer _ _)).trans ih

theorem of_bind {f : α → Work β} {b : β} (h : Spared F (w.bind f) m b m') :
    ∃ a m₁, Spared F w m a m₁ ∧ Spared F (f a) m₁ b m' := by
  induction w generalizing m with
  | done a => exact ⟨a, m, .done a (.refl F m), h⟩
  | call c next ih =>
      cases h with
      | call hothers h =>
          obtain ⟨a, m₁, hleft, hright⟩ := ih _ h
          exact ⟨a, m₁, .call hothers hleft, hright⟩

theorem get? (h : Spared F w m a m') {W : Set Key} {Q : α → Prop} (hw : w.WritesOnly W Q) (hm : m.Sound) {key : Key}
    (hF : key ∈ F) (hW : key ∉ W) : m'.objects.get? key = m.objects.get? key := by
  induction h with
  | done a hothers => exact hothers.objects key hF
  | call hothers _ ih =>
      obtain ⟨hcall, hnext⟩ := hw
      have hm₁ := hm.grow hothers.grows
      refine (ih (hnext _ hm₁) (hm₁.grow (Memory.grows_answer _ _))).trans ?_
      refine (Memory.get?_answer_of_ne hm₁ ?_).trans (hothers.objects key hF)
      exact fun htarget => hW (hcall key htarget)

end Spared

theorem Work.WritesOnly.get?_run {α : Type} {W : Set Key} {Q : α → Prop} {w : Work α} (h : w.WritesOnly W Q)
    {m : Memory}
    (hm : m.Sound) {key : Key} (hkey : key ∉ W) :
    (w.run Memory.answer m).2.objects.get? key = m.objects.get? key :=
  (Spared.of_run Set.univ w m).get? h hm (Set.mem_univ key) hkey

end McpOperator
