import Wimax.Cursor
import Wimax.Step

/-! Attachment to a network: a connect request, then probes until the data path is up. -/

namespace Wimax

/-- The commands of an attachment. The last two run in one step. -/
def Attach.script : List Command := [.connect, .deviceStatus, .linkStatus, .ipInterface]

structure Attach where
  cursor : Cursor Attach.script := {}
  deriving DecidableEq, Repr

namespace Attach

def forward (a : Attach) (d : Driver) : Step Attach := ⟨⟨a.cursor.forward.2⟩, d, .underway, none⟩

def stay (a : Attach) (d : Driver) : Step Attach := ⟨a, d, .underway, none⟩

def leave (a : Attach) (d : Driver) (v : Verdict) (m : Option Message) : Step Attach :=
  ⟨⟨a.cursor.clear⟩, d, v, m⟩

def loseCard (a : Attach) (d : Driver) (response : Response) : Dialog (Step Attach) := do
  let (d, m) ← d.lossMessage response
  return a.leave d .failed (some m)

/-- The network to attach to: the preferred one if it is in sight, or else the first. -/
def target? (r : Record) (preferred : String) : Option Network :=
  (r.findNetwork? preferred).or r.networks.head?

/-- Asks for the attachment; without a network in sight there is nothing to attach to. -/
def request (a : Attach) (d : Driver) (preferred : String) : Dialog (Step Attach) :=
  match target? d.record preferred with
  | none => .done (a.leave d .scanning none)
  | some n => do
    let (d, response) ← d.attempt .connect (.connect n.name n.id "")
    if response = .success ∨ response = .alreadyConnected then return a.forward d
    else if response.meansCardLost then a.loseCard d response
    else return a.stay d

def afterStatus (a : Attach) (d : Driver) : Step Attach :=
  match d.record.status with
  | some .dataConnected | some .ready =>
    if d.record.phase = some .ranging then a.stay d else a.forward d
  | some .uninitialized => a.leave d .failed none
  | some s => if s.isOff then a.leave d .failed none else a.stay d
  | none => a.stay d

def checkRadio (a : Attach) (d : Driver) : Dialog (Step Attach) := do
  let (d, response) ← d.attempt .deviceStatus .nothing
  if response.meansCardLost then a.loseCard d response
  else if response = .success then return a.afterStatus d
  else return a.stay d

/-- Ends the attempt with the data path up. The name of the interface is only kept if known. -/
def finish (a : Attach) (d : Driver) : Dialog (Step Attach) := do
  let (d, _) ← d.attempt .ipInterface .nothing
  return a.leave d .finished none

/-- Probes the link. Figures of a link that is reported down show that it is coming up. -/
def checkLink (a : Attach) (d : Driver) : Dialog (Step Attach) := do
  let (d, response) ← d.attempt .linkStatus .nothing
  if response = .success then a.finish d
  else if response = .linkNotConnected then
    if d.record.link.isSome then a.finish d else return a.leave d .scanning none
  else if response.meansCardLost then a.loseCard d response
  else return a.stay d

def step (a : Attach) (d : Driver) (preferred : String) : Dialog (Step Attach) :=
  match a.cursor.pick with
  | none => .done ⟨a, d, .finished, none⟩
  | some (.connect, cursor) => { a with cursor }.request d preferred
  | some (.deviceStatus, cursor) => { a with cursor }.checkRadio d
  | some (_, cursor) => { a with cursor }.checkLink d

end Attach

end Wimax
