import Wimax.Machine

/-!
Questions of callers. Each is open to a stage of the lifecycle, sends one command and reads the
answer from the record.
-/

namespace Wimax

inductive Query
  | deviceList | networkList | wideScan | connectedNsp | statistics | linkStatus | deviceInfo
  | packageInfo | contacts | provisioning
  | decidePackage (decision : PackageDecision)
  deriving DecidableEq, Repr

inductive Answer
  | accepted
  | devices (devices : List Device)
  | networks (networks : List Network)
  | attachment (attachment : Attachment)
  | traffic (traffic : Traffic)
  | link (link : Link)
  | identity (identity : Identity)
  | package (package : Package)
  | contacts (contacts : List Contact)
  | provisioned (value : Bool)
  deriving DecidableEq, Repr

namespace Query

def command : Query → Command
  | deviceList => .listDevices
  | networkList => .networkList
  | wideScan => .wideScan
  | connectedNsp => .connectedNsp
  | statistics => .statistics
  | linkStatus => .linkStatus
  | deviceInfo => .deviceInfo
  | packageInfo => .packageInfo
  | contacts => .contactInfo
  | provisioning => .provisioningStatus
  | decidePackage _ => .packageUpdateState

def args : Query → Args
  | decidePackage d => .decision d
  | _ => .nothing

/-- The query is about the attachment and not only about the device. -/
def needsConnection : Query → Bool
  | connectedNsp | statistics | linkStatus => true
  | _ => false

/-- Why a query cannot be put in the given stage. -/
def refusal? (q : Query) (s : Stage) : Option Fault :=
  if q.needsConnection then if s = .connected then none else some .noConnection
  else if s.takesQueries then none else some .noDevice

/-- The answer to a query after its command succeeded; `none` if the reading is missing. -/
def read? (q : Query) (r : Record) : Option Answer :=
  match q with
  | deviceList => some (.devices r.devices)
  | networkList => some (.networks r.networks)
  | wideScan | decidePackage _ => some .accepted
  | connectedNsp => r.attachment.map .attachment
  | statistics => r.traffic.map .traffic
  | linkStatus => r.link.map .link
  | deviceInfo => r.identity.map .identity
  | packageInfo => r.package.map .package
  | contacts => some (.contacts r.contacts)
  | provisioning => r.provisioned.map .provisioned

def conclude (q : Query) (r : Record) (result : Except Fault Response) : Except Fault Answer :=
  match result with
  | .error fault => .error fault
  | .ok response =>
    if response = .success then
      match q.read? r with
      | some answer => .ok answer
      | none => .error (.noReading q.command)
    else .error (.refused q.command response)

end Query

def Machine.ask (m : Machine) (q : Query) : Dialog (Machine × Except Fault Answer) :=
  match q.refusal? m.stage with
  | some fault => .done (m, .error fault)
  | none => do
    let (driver, result) ← m.driver.perform q.command q.args
    return ({ m with driver }, q.conclude driver.record result)

end Wimax
