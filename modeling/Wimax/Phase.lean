import Wimax.Attach
import Wimax.Bringup
import Wimax.Lifecycle
import Wimax.Monitor
import Wimax.Teardown

/-! A stage of the lifecycle together with the progress of the visit to it. -/

namespace Wimax

inductive Phase
  | ready
  | initializing (progress : Bringup)
  | initialized
  | connecting (progress : Attach)
  | connected (progress : Monitor)
  | disconnecting (progress : Teardown)
  | disconnected
  deriving DecidableEq, Repr

namespace Phase

def stage : Phase → Stage
  | ready => .ready
  | initializing _ => .initializing
  | initialized => .initialized
  | connecting _ => .connecting
  | connected _ => .connected
  | disconnecting _ => .disconnecting
  | disconnected => .disconnected

/-- A new visit to a stage, at the start of its script. -/
def fresh : Stage → Phase
  | .ready => ready
  | .initializing => initializing {}
  | .initialized => initialized
  | .connecting => connecting {}
  | .connected => connected {}
  | .disconnecting => disconnecting {}
  | .disconnected => disconnected

def position? : Phase → Option Nat
  | initializing b => b.cursor.position
  | connecting a => a.cursor.position
  | connected m => m.cursor.position
  | disconnecting t => t.cursor.position
  | ready | initialized | disconnected => none

@[simp]
theorem stage_fresh (s : Stage) : (fresh s).stage = s := by cases s <;> rfl

@[simp]
theorem position?_fresh (s : Stage) : (fresh s).position? = none := by cases s <;> rfl

end Phase

end Wimax
