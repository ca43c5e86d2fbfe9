import Wimax.Query

/-!
Runs of a machine: any interleaving of ticks, goals, selections, notices and queries, with any
behaviour of the card. Each step of a run keeps the history of its dialog.
-/

namespace Wimax

inductive Operation
  | tick
  | aim (goal : Goal)
  | prefer (name : String)
  | notice (notice : Notice)
  | query (query : Query)
  deriving DecidableEq, Repr

namespace Machine

def carryOut (m : Machine) : Operation → Dialog Machine
  | .tick => m.tick
  | .aim g => .done (m.aim g)
  | .prefer name => m.prefer name
  | .notice n => m.handle n
  | .query q => do
    let (m, _) ← m.ask q
    return m

/-- `Run m steps n` when the operations in `steps`, with the histories beside them, can lead from
`m` to `n`. -/
inductive Run (m : Machine) : List (Operation × List Act) → Machine → Prop
  | nil : Run m [] m
  | snoc {steps : List (Operation × List Act)} {n n' : Machine} {op : Operation}
      {acts : List Act} (prior : Run m steps n) (last : (n.carryOut op).Runs acts n') :
      Run m (steps ++ [(op, acts)]) n'

/-- A machine that some run from a start leads to. -/
def Reachable (m : Machine) : Prop := ∃ settings steps, Run (start settings) steps m

theorem Run.append {m n k : Machine} {first rest : List (Operation × List Act)}
    (h₁ : Run m first n) (h₂ : Run n rest k) : Run m (first ++ rest) k := by
  induction h₂ with
  | nil => simpa using h₁
  | snoc prior last ih =>
    rw [← List.append_assoc]
    exact .snoc ih last

theorem reachable_start (settings : Settings) : (start settings).Reachable := ⟨settings, [], .nil⟩

theorem Reachable.step {m n : Machine} {op : Operation} {acts : List Act} (h : m.Reachable)
    (last : (m.carryOut op).Runs acts n) : n.Reachable := by
  obtain ⟨settings, steps, run⟩ := h
  exact ⟨settings, _, .snoc run last⟩

end Machine

end Wimax
