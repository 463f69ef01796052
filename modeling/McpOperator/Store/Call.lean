import McpOperator.Objects.Kind
import McpOperator.Store.Error

namespace McpOperator

inductive Call where
  | get (key : Key)
  | create (kind : Kind) (object : kind.Object)
  | replace (kind : Kind) (object : kind.Object)
  | replaceStatus (server : McpServer)

abbrev Call.Reply : Call → Type
  | .get key => Option key.kind.Object
  | .create kind _ => kind.Object
  | .replace kind _ => kind.Object
  | .replaceStatus _ => McpServer

abbrev Call.Answer (call : Call) : Type := Except StoreError call.Reply

/-- Work on a store as a tree of calls, each with a continuation for every answer. The same work is
run against a store in memory, against a cluster, or taken apart call by call. -/
inductive Work (α : Type) where
  | done (value : α)
  | call (call : Call) (next : call.Answer → Work α)

namespace Work

def bind : Work α → (α → Work β) → Work β
  | done a, f => f a
  | call c next, f => call c fun answer => (next answer).bind f

instance : Monad Work where
  pure := done
  bind := bind

def ask (c : Call) : Work c.Answer := call c done

/-- Runs work against a store that answers calls and moves from state to state. -/
def run (answer : (c : Call) → σ → c.Answer × σ) : Work α → σ → α × σ
  | done a, s => (a, s)
  | call c next, s =>
      let (reply, s) := answer c s
      (next reply).run answer s

theorem run_bind (answer : (c : Call) → σ → c.Answer × σ) (w : Work α) (f : α → Work β) (s : σ) :
    (w.bind f).run answer s = (f (w.run answer s).1).run answer (w.run answer s).2 := by
  induction w generalizing s with
  | done a => rfl
  | call c next ih => exact ih _ _

end Work
end McpOperator
