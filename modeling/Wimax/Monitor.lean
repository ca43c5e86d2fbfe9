import Wimax.Cursor
import Wimax.Step

/-! The watch over an attachment: rounds of a radio probe and a link probe. -/

namespace Wimax

def Monitor.script : List Command := [.deviceStatus, .linkStatus]

structure Monitor where
  cursor : Cursor Monitor.script := {}
  /-- The link probe was the last one. -/
  roundComplete : Bool := false
  deriving DecidableEq, Repr

namespace Monitor

/-- Decides by the answer to the radio probe. Only a lost data path ends the visit. -/
def afterStatus (m : Monitor) (d : Driver) (response : Response) : Step Monitor :=
  let m := { m with roundComplete := false }
  if response = .success then
    match d.record.status with
    | some .dataConnected => ⟨{ m with cursor := m.cursor.forward.2 }, d, .underway, none⟩
    | some s => if s.isUnsettled then ⟨m, d, .scanning, some .scanning⟩ else ⟨m, d, .failed, none⟩
    | none => ⟨m, d, .failed, none⟩
  else ⟨m, d, .failed, none⟩

/-- Ends a round, whatever the link probe was answered. -/
def endRound (m : Monitor) (d : Driver) : Step Monitor :=
  ⟨⟨m.cursor.forward.2, true⟩, d, .finished, none⟩

/-- The signal strength that a successful link probe has brought. -/
def sample? (d : Driver) (response : Response) : Option Int :=
  if response = .success then d.record.link.map Link.signalDbm else none

/-- Runs the current probe. The second result is the signal strength read by a link probe. -/
def step (m : Monitor) (d : Driver) : Dialog (Step Monitor × Option Int) :=
  match m.cursor.pick with
  | none => .done (⟨m, d, .finished, none⟩, none)
  | some (c, cursor) => do
    let m := { m with cursor }
    let (d, response) ← d.attempt c .nothing
    if c = .deviceStatus then return (m.afterStatus d response, none)
    else return (m.endRound d, sample? d response)

end Monitor

end Wimax
