import Wimax.Cursor
import Wimax.Step

/-!
Initialization: from a closed driver to a powered, subscribed device with a network in sight.
-/

namespace Wimax

def Bringup.script : List Command :=
  [.apiOpen, .listDevices, .deviceOpen, .subscribe .connect, .subscribe .insertRemove,
    .subscribe .disconnect, .subscribe .power, .subscribe .wideScan, .subscribe .packageUpdate,
    .subscribe .provisioning, .subscribe .statusChange, .deviceStatus, .powerOn, .deviceStatus,
    .networkList, .deviceStatus]

structure Bringup where
  cursor : Cursor Bringup.script := {}
  /-- Failed or empty network lists since the last useful one. -/
  idleScans : Nat := 0
  deriving DecidableEq, Repr

namespace Bringup

def forward (b : Bringup) (d : Driver) : Step Bringup :=
  let (ended, cursor) := b.cursor.forward
  ⟨{ b with cursor }, d, if ended then .finished else .underway, none⟩

def abandon (b : Bringup) (d : Driver) (m : Message) : Step Bringup :=
  ⟨{ b with cursor := b.cursor.clear }, d, .failed, some m⟩

/-- Stays where it is until the radio has settled or sees a network. -/
def scan (b : Bringup) (d : Driver) : Step Bringup := ⟨b, d, .scanning, some .scanning⟩

def countIdleScan (b : Bringup) (d : Driver) (budget : Nat) : Step Bringup :=
  if budget ≤ b.idleScans + 1 then { b with idleScans := 0 }.abandon d .noNetwork
  else { b with idleScans := b.idleScans + 1 }.scan d

def afterStatus (b : Bringup) (d : Driver) : Step Bringup :=
  match d.record.status with
  | some .ready | some .uninitialized | some .dataConnected => b.forward d
  | some s =>
    if s.isUnsettled then
      if b.cursor.before? = some .networkList then { b with cursor := b.cursor.back 2 }.scan d
      else b.scan d
    else if b.cursor.after? = some .powerOn then b.forward d
    else ⟨b, d, .underway, none⟩
  | none => ⟨b, d, .underway, none⟩

def afterSuccess (b : Bringup) (d : Driver) (c : Command) (budget : Nat) : Step Bringup :=
  match c with
  | .listDevices => if d.record.cardListed then b.forward d else b.abandon d .deviceRemoved
  | .networkList =>
    if d.record.networks.isEmpty then b.countIdleScan d budget
    else { b with idleScans := 0 }.forward d
  | .deviceStatus => b.afterStatus d
  | _ => b.forward d

def afterFailure (b : Bringup) (d : Driver) (c : Command) (budget : Nat) : Step Bringup :=
  match c with
  | .networkList => b.countIdleScan d budget
  | .listDevices => b.abandon d .deviceRemoved
  | _ => b.abandon d .callFailure

/-- The step after a command, by its response. A refused power-on does no harm, a lost card ends
the visit, and a response that is neither is no reason to go on or to give up. -/
def afterResponse (b : Bringup) (d : Driver) (c : Command) (budget : Nat) (response : Response) :
    Dialog (Step Bringup) :=
  if response = .success then .done (b.afterSuccess d c budget)
  else if c = .powerOn then .done (b.forward d)
  else if response.meansCardLost then do
    let (d, m) ← d.lossMessage response
    return b.abandon d m
  else if response = .failed then .done (b.afterFailure d c budget)
  else .done ⟨b, d, .underway, none⟩

/-- Runs the current command. `budget` bounds the failed or empty network lists in a row. -/
def step (b : Bringup) (d : Driver) (budget : Nat) : Dialog (Step Bringup) :=
  match b.cursor.pick with
  | none => .done ⟨b, d, .finished, none⟩
  | some (c, cursor) => do
    let (d, response) ← d.attempt c .nothing
    { b with cursor }.afterResponse d c budget response

end Bringup

end Wimax
