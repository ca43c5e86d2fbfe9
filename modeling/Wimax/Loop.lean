import Wimax.Query

/-!
The control loop of a session. A pass takes the notices that wait and ticks; then the loop waits for
the next pass and carries out the orders of callers meanwhile. An order to halt ends it.
-/

namespace Wimax

/-- What a caller waits to be told. -/
inductive Question
  | view
  | query (query : Query)
  | halt
  deriving DecidableEq, Repr

inductive Order
  | aim (goal : Goal)
  | prefer (name : String)
  | ask (question : Question)
  deriving DecidableEq, Repr

/-- An order on its way to the loop. The number tells which request an answer belongs to. -/
structure Letter where
  number : Nat
  order : Order
  deriving DecidableEq, Repr

inductive Told
  | nothing
  | view (view : View)
  | answer (answer : Answer)
  deriving DecidableEq, Repr

instance instDecidableEqExcept {ε α : Type} [DecidableEq ε] [DecidableEq α] :
    DecidableEq (Except ε α)
  | .ok a, .ok b => decidable_of_iff (a = b) ⟨congrArg _, Except.ok.inj⟩
  | .error a, .error b => decidable_of_iff (a = b) ⟨congrArg _, Except.error.inj⟩
  | .ok _, .error _ => isFalse nofun
  | .error _, .ok _ => isFalse nofun

/-- A piece of work, which comes to a machine and to an answer if one is due. -/
abbrev Work := Dialog (Machine × Option (Except Fault Told))

def Work.quiet (d : Dialog Machine) : Work := do
  let m ← d
  return (m, none)

def Machine.obey (m : Machine) : Order → Work
  | .aim g => .done (m.aim g, none)
  | .prefer name => Work.quiet (m.prefer name)
  | .ask .view => .done (m, some (.ok (.view m.view)))
  | .ask (.query q) => do
    let (m, result) ← m.ask q
    return (m, some (result.map .answer))
  | .ask .halt => .done (m, some (.ok .nothing))

inductive Job
  | notice
  | tick
  /-- The deadline of the next pass stands meanwhile. -/
  | order (letter : Letter) (deadline : Nat)
  deriving DecidableEq, Repr

/-- Where the loop stands. It waits for a deadline or an order, or for a call to end. -/
inductive Loop
  | passing (m : Machine)
  | waiting (m : Machine) (deadline : Nat)
  | working (job : Job) (work : Work)
  | calling (job : Job) (request : Request) (next : Outcome → Work)
  | stopped

namespace Loop

def job? : Loop → Option Job
  | working job _ | calling job _ _ => some job
  | passing _ | waiting _ _ | stopped => none

/-- The letter that the loop is busy with. -/
def letter? (loop : Loop) : Option Letter :=
  match loop.job? with
  | some (.order l _) => some l
  | _ => none

def deadline? : Loop → Option Nat
  | waiting _ deadline => some deadline
  | _ => none

end Loop

end Wimax
