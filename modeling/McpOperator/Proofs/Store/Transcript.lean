import McpOperator.Store.Call

namespace McpOperator

structure Exchange where
  call : Call
  answer : call.Answer

namespace Work

variable {α β : Type} {l : List Exchange} {a : α} {b : β}

/-- Work from its start to its end, by the answers that it got. -/
inductive Transcript : Work α → List Exchange → α → Prop
  | done (a : α) : Transcript (.done a) [] a
  | call {c : Call} {next : c.Answer → Work α} {answer : c.Answer} {l : List Exchange} {a : α}
      (h : Transcript (next answer) l a) : Transcript (.call c next) (⟨c, answer⟩ :: l) a

/-- What work asks of a store that answers in a way of its own, and what it is told. -/
def trace {σ : Type} (answer : (c : Call) → σ → c.Answer × σ) : Work α → σ → List Exchange
  | done _, _ => []
  | call c next, s => ⟨c, (answer c s).1⟩ :: (next (answer c s).1).trace answer (answer c s).2

theorem transcript_trace {σ : Type} (answer : (c : Call) → σ → c.Answer × σ) (w : Work α) (s : σ) :
    w.Transcript (w.trace answer s) (w.run answer s).1 := by
  induction w generalizing s with
  | done a => exact .done a
  | call c next ih => exact .call (ih _ _)

namespace Transcript

theorem of_done {a' : α} (h : (Work.done a).Transcript l a') : l = [] ∧ a' = a := by
  cases h with
  | done => exact ⟨rfl, rfl⟩

theorem of_call {c : Call} {next : c.Answer → Work α} (h : (Work.call c next).Transcript l a) :
    ∃ answer rest, l = ⟨c, answer⟩ :: rest ∧ (next answer).Transcript rest a := by
  cases h with
  | call h => exact ⟨_, _, rfl, h⟩

theorem of_last {c : Call} {f : c.Answer → α}
    (h : (Work.call c fun answer => .done (f answer)).Transcript l a) :
    ∃ answer, l = [⟨c, answer⟩] ∧ a = f answer := by
  obtain ⟨answer, rest, rfl, hrest⟩ := h.of_call
  obtain ⟨rfl, rfl⟩ := hrest.of_done
  exact ⟨answer, rfl, rfl⟩

theorem of_bind {w : Work α} {f : α → Work β} (h : (w.bind f).Transcript l b) :
    ∃ first second a, l = first ++ second ∧ w.Transcript first a ∧ (f a).Transcript second b := by
  induction w generalizing l with
  | done a => exact ⟨[], l, a, rfl, .done a, h⟩
  | call c next ih =>
      obtain ⟨answer, rest, rfl, hrest⟩ := h.of_call
      obtain ⟨first, second, a, rfl, hfirst, hsecond⟩ := ih _ hrest
      exact ⟨⟨c, answer⟩ :: first, second, a, rfl, .call hfirst, hsecond⟩

theorem of_map {w : Work α} {f : α → β} (h : (w.bind fun a => .done (f a)).Transcript l b) :
    ∃ a, w.Transcript l a ∧ b = f a := by
  obtain ⟨first, second, a, rfl, hfirst, hsecond⟩ := h.of_bind
  obtain ⟨rfl, rfl⟩ := hsecond.of_done
  rw [List.append_nil]
  exact ⟨a, hfirst, rfl⟩

end Transcript
end Work
end McpOperator
