import McpOperator.Proofs.Store.Reachable
import Mathlib.Logic.Function.Basic

namespace McpOperator

/-- What happens to a store, told with the store right before it: a call of the work that is looked
at, or an act of somebody else. -/
inductive Event where
  | own (store : Memory) (call : Call)
  | other (store : Memory) (act : Memory.Act)

namespace Event

def before : Event → Memory
  | own m _ => m
  | other m _ => m

def after : Event → Memory
  | own m c => (Memory.answer c m).2
  | other m act => act.apply m

def Rewrites (e : Event) (key : Key) : Prop := e.after.objects.get? key ≠ e.before.objects.get? key

theorem grows (e : Event) : e.before.Grows e.after := by
  cases e with
  | own m c => exact Memory.grows_answer m c
  | other m act => exact Memory.grows_act m act

/-- Also an object that is stored again as it was is stored as something else. -/
theorem rewrites_seed {m : Memory} (hm : m.Sound) (kind : Kind) (o : kind.Object) :
    (other m (.seed kind o)).Rewrites (Key.of kind o) := by
  intro heq
  have hafter := Memory.get?_write_self m kind o
  obtain ⟨n, hn, hwritten⟩ := hm.written (heq.symm.trans hafter)
  have hversion := hwritten.versionOf
  rw [Kind.versionOf_encode, Kind.resourceVersion_withResourceVersion] at hversion
  have hnext := Memory.toString_inj (Option.some.inj hversion)
  omega

end Event

def Chain (m : Memory) : List Event → Memory → Prop
  | [], m' => m = m'
  | e :: rest, m' => e.before = m ∧ Chain e.after rest m'

namespace Chain

variable {m m' : Memory} {l : List Event}

theorem grows (h : Chain m l m') : m.Grows m' := by
  induction l generalizing m with
  | nil =>
      obtain rfl := h
      exact .refl _
  | cons e rest ih =>
      obtain ⟨rfl, hrest⟩ := h
      exact e.grows.trans (ih hrest)

theorem of_append {l' : List Event} (h : Chain m (l ++ l') m') : ∃ m₁, Chain m l m₁ ∧ Chain m₁ l' m' := by
  induction l generalizing m with
  | nil => exact ⟨m, rfl, h⟩
  | cons e rest ih =>
      obtain ⟨hbefore, hrest⟩ := h
      obtain ⟨m₁, hleft, hright⟩ := ih hrest
      exact ⟨m₁, ⟨hbefore, hleft⟩, hright⟩

theorem split {past rest : List Event} {e : Event} (h : Chain m (past ++ e :: rest) m') :
    Chain m past e.before ∧ Chain e.after rest m' := by
  obtain ⟨m₁, hpast, rfl, hrest⟩ := h.of_append
  exact ⟨hpast, hrest⟩

end Chain

abbrev Seen : Type := (key : Key) → Option key.kind.Object

def Event.see (seen : Seen) : Event → Seen
  | own m (.get key) => Function.update seen key (m.get key).toOption.join
  | own _ (.create _ _) | own _ (.replace _ _) | own _ (.replaceStatus _) | other _ _ => seen

def lastGot (past : List Event) : Seen := past.foldl Event.see fun _ => none

/-- Whatever has been seen was once there. -/
def Seen.Recalls (seen : Seen) (m : Memory) : Prop :=
  ∀ key live, seen key = some live → ∃ m₀ : Memory, m₀.Sound ∧ m₀.Holds key live ∧ m₀.Grows m

namespace Seen.Recalls

variable {seen : Seen} {m m' : Memory}

theorem grow (h : seen.Recalls m) (hgrows : m.Grows m') : seen.Recalls m' := by
  intro key live hseen
  obtain ⟨m₀, hsound, hlive, hbefore⟩ := h key live hseen
  exact ⟨m₀, hsound, hlive, hbefore.trans hgrows⟩

theorem see {e : Event} (hm : e.before.Sound) (h : seen.Recalls e.before) :
    (e.see seen).Recalls e.after := by
  have hold : seen.Recalls e.after := h.grow e.grows
  cases e with
  | other m act => exact hold
  | own m c =>
      cases c with
      | create | replace | replaceStatus => exact hold
      | get key =>
          intro key' live hseen
          by_cases hkey : key' = key
          · subst hkey
            rw [Event.see, Function.update_self] at hseen
            exact ⟨m, hm, hm.holds (Memory.read_of_get hseen), .refl m⟩
          · rw [Event.see, Function.update_of_ne hkey] at hseen
            exact hold key' live hseen

theorem chain {l : List Event} (hm : m.Sound) (h : seen.Recalls m) (hl : Chain m l m') :
    (l.foldl Event.see seen).Recalls m' := by
  induction l generalizing m seen with
  | nil =>
      cases hl
      exact h
  | cons e rest ih =>
      obtain ⟨rfl, hrest⟩ := hl
      exact ih (hm.grow e.grows) (see hm h) hrest

end Seen.Recalls

/-- Work from its start to its end, with what others do meanwhile. -/
inductive Interleaved {α : Type} : Work α → Memory → List Event → α → Memory → Prop
  | done (a : α) (m : Memory) : Interleaved (.done a) m [] a m
  | own {c : Call} {next : c.Answer → Work α} {m m' : Memory} {l : List Event} {a : α}
      (h : Interleaved (next (Memory.answer c m).1) (Memory.answer c m).2 l a m') :
      Interleaved (.call c next) m (.own m c :: l) a m'
  | other {w : Work α} {m m' : Memory} {l : List Event} {a : α} (act : Memory.Act)
      (h : Interleaved w (act.apply m) l a m') : Interleaved w m (.other m act :: l) a m'

namespace Interleaved

variable {α β : Type} {w : Work α} {m m' : Memory} {l : List Event} {a : α}

theorem chain (h : Interleaved w m l a m') : Chain m l m' := by
  induction h with
  | done a m => rfl
  | own h ih => exact ⟨rfl, ih⟩
  | other act h ih => exact ⟨rfl, ih⟩

theorem eq_of_done {b : α} (h : Interleaved (.done b) m l a m') : a = b := by
  induction l generalizing m with
  | nil =>
      cases h with
      | done => rfl
  | cons e rest ih =>
      cases h with
      | other act h => exact ih h

theorem done_of_done {b : β} (h : Interleaved (.done b) m l b m') (a : α) :
    Interleaved (.done a) m l a m' := by
  induction l generalizing m with
  | nil =>
      cases h with
      | done => exact .done a _
  | cons e rest ih =>
      cases h with
      | other act h => exact .other act (ih h)

theorem append (h : Interleaved w m l a m') {m'' : Memory} {l' : List Event}
    (h' : Interleaved (.done ()) m' l' () m'') : Interleaved w m (l ++ l') a m'' := by
  induction h with
  | done a m => exact done_of_done h' a
  | own h ih => exact .own (ih h')
  | other act h ih => exact .other act (ih h')

theorem of_bind {f : α → Work β} {b : β} (h : Interleaved (w.bind f) m l b m') :
    ∃ a m₁ l₁ l₂, l = l₁ ++ l₂ ∧ Interleaved w m l₁ a m₁ ∧ Interleaved (f a) m₁ l₂ b m' := by
  generalize hbind : w.bind f = w' at h
  -- By induction on the events. Once the first part is done, all that follows belongs to the second.
  induction h generalizing w with
  | done b m =>
      cases w with
      | done a =>
          have hf : f a = .done b := hbind
          exact ⟨a, m, [], [], rfl, .done a m, hf ▸ .done b m⟩
      | call c next => cases hbind
  | own h ih =>
      cases w with
      | done a =>
          have hf : f a = .call _ _ := hbind
          exact ⟨a, _, [], _, rfl, .done a _, hf ▸ .own h⟩
      | call c next =>
          cases hbind
          obtain ⟨a, m₁, l₁, l₂, rfl, hleft, hright⟩ := ih rfl
          exact ⟨a, m₁, _ :: l₁, l₂, rfl, .own hleft, hright⟩
  | other act h ih =>
      obtain ⟨a, m₁, l₁, l₂, rfl, hleft, hright⟩ := ih hbind
      exact ⟨a, m₁, _ :: l₁, l₂, rfl, .other act hleft, hright⟩

variable {past rest : List Event} {store : Memory} {c : Call}

theorem not_own_of_done {b : α} : ¬ Interleaved (.done b) m (past ++ .own store c :: rest) a m' := by
  intro h
  induction past generalizing m with
  | nil => cases h
  | cons e past ih =>
      cases h with
      | other act h => exact ih h

theorem own_of_call {c' : Call} {next : c'.Answer → Work α}
    (h : Interleaved (.call c' next) m (past ++ .own store c :: rest) a m') :
    ∃ others m₁, Interleaved (.done ()) m others () m₁ ∧
      ((past = others ∧ store = m₁ ∧ c = c' ∧
          Interleaved (next (Memory.answer c' m₁).1) (Memory.answer c' m₁).2 rest a m') ∨
        ∃ past', past = others ++ .own m₁ c' :: past' ∧
          Interleaved (next (Memory.answer c' m₁).1) (Memory.answer c' m₁).2
            (past' ++ .own store c :: rest) a m') := by
  induction past generalizing m with
  | nil =>
      cases h with
      | own h => exact ⟨[], store, .done () store, .inl ⟨rfl, rfl, rfl, h⟩⟩
  | cons e past ih =>
      cases h with
      | own h => exact ⟨[], _, .done () _, .inr ⟨past, rfl, h⟩⟩
      | other act h =>
          obtain ⟨others, m₁, hothers, hcall⟩ := ih h
          refine ⟨.other m act :: others, m₁, .other act hothers, ?_⟩
          rcases hcall with ⟨rfl, hrest⟩ | ⟨past', rfl, hrest⟩
          · exact .inl ⟨rfl, hrest⟩
          · exact .inr ⟨past', rfl, hrest⟩

theorem own_of_bind {f : α → Work β} {b : β}
    (h : Interleaved (w.bind f) m (past ++ .own store c :: rest) b m') :
    (∃ rest' a m₁, Interleaved w m (past ++ .own store c :: rest') a m₁) ∨
      ∃ a m₁ before between, past = before ++ between ∧ Interleaved w m before a m₁ ∧
        Interleaved (f a) m₁ (between ++ .own store c :: rest) b m' := by
  obtain ⟨a, m₁, l₁, l₂, hsplit, hleft, hright⟩ := h.of_bind
  rcases List.append_eq_append_iff.1 hsplit with ⟨between, rfl, hbetween⟩ | ⟨between, rfl, hbetween⟩
  · cases between with
    | nil =>
        rw [List.nil_append] at hbetween
        subst hbetween
        exact .inr ⟨a, m₁, past, [], by simp, by simpa using hleft, hright⟩
    | cons e between =>
        cases hbetween
        exact .inl ⟨between, a, m₁, hleft⟩
  · subst hbetween
    exact .inr ⟨a, m₁, l₁, between, rfl, hleft, hright⟩

end Interleaved

namespace Work

variable {α β : Type} {allowed allowed' : Seen → Call → Prop} {P Q : Seen → α → Prop}

/-- All calls are allowed by what has been seen before them, and the end is as it should be. -/
def Ensures (allowed : Seen → Call → Prop) (Q : Seen → α → Prop) : Work α → Seen → Prop
  | done a, seen => Q seen a
  | call c next, seen => allowed seen c ∧ ∀ m : Memory, m.Sound →
      (next (Memory.answer c m).1).Ensures allowed Q (Event.see seen (.own m c))

namespace Ensures

theorem mono {w : Work α} {seen : Seen} (h : w.Ensures allowed P seen)
    (hallowed : ∀ seen c, allowed seen c → allowed' seen c) (hend : ∀ seen a, P seen a → Q seen a) :
    w.Ensures allowed' Q seen := by
  induction w generalizing seen with
  | done a => exact hend seen a h
  | call c next ih =>
      obtain ⟨hcall, hnext⟩ := h
      constructor
      · exact hallowed seen c hcall
      · intro m hm
        exact ih _ (hnext m hm)

theorem bind {Q : Seen → β → Prop} {w : Work α} {f : α → Work β} {seen : Seen}
    (h : w.Ensures allowed P seen) (hf : ∀ seen a, P seen a → (f a).Ensures allowed Q seen) :
    (w.bind f).Ensures allowed Q seen := by
  induction w generalizing seen with
  | done a => exact hf seen a h
  | call c next ih =>
      obtain ⟨hcall, hnext⟩ := h
      constructor
      · exact hcall
      · intro m hm
        exact ih _ (hnext m hm)

end Ensures

/-- What work ensures holds of it also where others interleave. -/
theorem Ensures.interleaved {w : Work α} {seen : Seen} {m m' : Memory} {l : List Event} {a : α}
    (hw : w.Ensures allowed Q seen) (hm : m.Sound) (h : Interleaved w m l a m') :
    (∀ past store c rest, l = past ++ .own store c :: rest → allowed (past.foldl Event.see seen) c) ∧
      Q (l.foldl Event.see seen) a := by
  induction h generalizing seen with
  | done a m =>
      constructor
      · intro past store c rest hsplit
        simp at hsplit
      · exact hw
  | own h ih =>
      obtain ⟨hcall, hnext⟩ := hw
      obtain ⟨hcalls, hend⟩ := ih (hnext _ hm) (hm.grow (Memory.grows_answer _ _))
      constructor
      · intro past store c rest hsplit
        cases past with
        | nil =>
            cases hsplit
            exact hcall
        | cons e past =>
            cases hsplit
            exact hcalls past store c rest rfl
      · exact hend
  | other act h ih =>
      -- The store is another one now, but not what has been seen of it.
      obtain ⟨hcalls, hend⟩ := ih hw (hm.grow (Memory.grows_act _ _))
      constructor
      · intro past store c rest hsplit
        cases past with
        | nil => cases hsplit
        | cons e past =>
            cases hsplit
            exact hcalls past store c rest rfl
      · exact hend

end Work
end McpOperator
