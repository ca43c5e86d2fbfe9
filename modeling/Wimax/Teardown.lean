import Wimax.Cursor
import Wimax.Step

/-! Teardown: cancels every subscription, detaches and closes the driver. -/

namespace Wimax

def Teardown.script : List Command :=
  Channel.all.map .unsubscribe ++ [.disconnect, .deviceClose, .apiClose]

structure Teardown where
  cursor : Cursor Teardown.script := {}
  deriving DecidableEq, Repr

/-- Runs the current command and moves on, whatever the answer. -/
def Teardown.step (t : Teardown) (d : Driver) : Dialog (Step Teardown) :=
  match t.cursor.pick with
  | none => .done ⟨t, d, .finished, none⟩
  | some (c, cursor) => do
    let (d, _) ← d.attempt c .nothing
    let (ended, cursor) := cursor.forward
    return ⟨⟨cursor⟩, d, if ended then .finished else .underway, none⟩

end Wimax
