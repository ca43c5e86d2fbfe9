import Wimax.Dialog
import Wimax.Fault
import Wimax.Record
import Wimax.Settings

/-!
The rules around every command: opening, closing and subscribing twice is harmless, a command that
needs an open driver is refused without a call, and each answer is kept in the record.
-/

namespace Wimax

structure Driver where
  settings : DriverSettings
  record : Record := {}
  deriving DecidableEq, Repr

namespace Driver

/-- The answer to a command that the card need not be asked for. -/
def localResponse? (r : Record) (c : Command) : Option Response :=
  if c.isReserved then some .notImplemented
  else if c.needsOpenApi && !r.apiOpen then some .failed
  else match c with
    | .apiOpen => if r.apiOpen then some .success else none
    | .apiClose | .deviceClose => if r.apiOpen then none else some .success
    | .deviceOpen => if r.deviceOpen then some .success else none
    | _ => none

/-- The name of the first network in sight, which some queries are about. -/
def queriedNetwork? (r : Record) : Option String :=
  (r.networks.head?.map (·.name)).filter (· ≠ "")

/-- The arguments a command is sent with; `none` if it needs a network and there is none. -/
def sentArgs? (r : Record) (c : Command) (args : Args) : Option Args :=
  match c with
  | .powerOn => some (.power .on)
  | .powerOff => some (.power .off)
  | .provisioningStatus | .contactInfo => (queriedNetwork? r).map .network
  | .packageUpdateState =>
    match args with
    | .decision d => some (.decision d)
    | _ => some (.decision default)
  | _ => some args

def beforeCall (r : Record) (c : Command) : Record :=
  if c = .connect then r.clearAttachmentFigures else r

def timeoutFault (d : Driver) (c : Command) : Fault :=
  .callTimeout c (.ofMillis (d.settings.callLimit.getD 0))

def call (d : Driver) (request : Request) (keep : Record → Reply → Record) :
    Dialog (Driver × Except Fault Response) :=
  .ask request fun
    | .reply reply => .done ({ d with record := keep d.record reply }, .ok reply.response)
    | .fault text => .done (d, .error (.cardFault text))
    | .timedOut => .done (d, .error (d.timeoutFault request.command))

def subscribe (d : Driver) (c : Channel) : Dialog (Driver × Except Fault Response) :=
  if d.record.subscriptions.has c then .done (d, .ok .success)
  else if d.settings.notices then
    d.call ⟨.subscribe c, .nothing⟩ fun r reply =>
      if reply.response.isSuccess then r.setSubscribed c true else r
  else .done ({ d with record := d.record.setSubscribed c true }, .ok .success)

/-- Cancels the subscription to a channel, which counts as cancelled whatever the card answers. -/
def unsubscribe (d : Driver) (c : Channel) : Dialog (Driver × Except Fault Response) :=
  if d.record.subscriptions.has c then
    let d := { d with record := d.record.setSubscribed c false }
    if d.settings.notices then d.call ⟨.unsubscribe c, .nothing⟩ fun r _ => r
    else .done (d, .ok .success)
  else .done (d, .ok .success)

def perform (d : Driver) (c : Command) (args : Args) : Dialog (Driver × Except Fault Response) :=
  match c with
  | .subscribe ch => d.subscribe ch
  | .unsubscribe ch => d.unsubscribe ch
  | c =>
    match localResponse? d.record c with
    | some response => .done (d, .ok response)
    | none =>
      match sentArgs? d.record c args with
      | none => .done (d, .ok .failed)
      | some args =>
        { d with record := beforeCall d.record c }.call ⟨c, args⟩ fun r reply => r.store c reply

/-- Performs a command; a fault or a passed time limit counts as the response `failed`. -/
def attempt (d : Driver) (c : Command) (args : Args) : Dialog (Driver × Response) := do
  let (d, result) ← d.perform c args
  match result with
  | .ok response => return (d, response)
  | .error _ => return (d, .failed)

/-- Opens the driver, lists the cards and tells whether there is one. -/
def cardPresent (d : Driver) : Dialog (Driver × Bool) := do
  let (d, _) ← d.attempt .apiOpen .nothing
  let (d, response) ← d.attempt .listDevices .nothing
  return (d, response.isSuccess && d.record.cardListed)

end Driver

end Wimax
