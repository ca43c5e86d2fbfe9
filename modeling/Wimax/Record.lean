import Wimax.Request

/-!
What is known about the driver: the latest readings, and which of its parts are open. Each command
owns its readings and replaces them by what its answer brings.
-/

namespace Wimax

/-- The set of channels subscribed to, as one flag per channel. -/
structure Subscriptions where
  flags : Vector Bool 8
  deriving DecidableEq, Repr

namespace Subscriptions

def empty : Subscriptions := ⟨Vector.replicate 8 false⟩

def has (s : Subscriptions) (c : Channel) : Bool := s.flags[c.index]

def set (s : Subscriptions) (c : Channel) (on : Bool) : Subscriptions :=
  ⟨s.flags.set c.index on⟩

def toList (s : Subscriptions) : List Channel := Channel.all.filter s.has

def isEmpty (s : Subscriptions) : Bool := s.toList.isEmpty

@[simp]
theorem has_empty (c : Channel) : empty.has c = false := by simp [has, empty]

@[simp]
theorem has_set (s : Subscriptions) (c d : Channel) (on : Bool) :
    (s.set c on).has d = if c = d then on else s.has d := by
  by_cases h : c = d
  · simp [has, set, h]
  · have : c.index ≠ d.index := fun e => h (Channel.index_injective e)
    simp [has, set, h, Fin.val_inj, this]

end Subscriptions

instance : Inhabited Subscriptions := ⟨.empty⟩

structure Record where
  devices : List Device := []
  /-- Presence of the card as last announced. -/
  present : Option Bool := none
  status : Option RadioStatus := none
  phase : Option AttachPhase := none
  networks : List Network := []
  link : Option Link := none
  interface : Option String := none
  traffic : Option Traffic := none
  attachment : Option Attachment := none
  identity : Option Identity := none
  package : Option Package := none
  provisioned : Option Bool := none
  contacts : List Contact := []
  apiOpen : Bool := false
  deviceOpen : Bool := false
  subscriptions : Subscriptions := .empty
  deriving DecidableEq, Repr

namespace Record

/-- The last enumeration listed a card. -/
def cardListed (r : Record) : Bool := !r.devices.isEmpty

def findNetwork? (r : Record) (name : String) : Option Network :=
  r.networks.find? fun n => sameName n.name name

/-- The record of a driver whose interface has been closed. -/
def closed (r : Record) : Record :=
  { r with apiOpen := false, deviceOpen := false, subscriptions := .empty }

/-- Replaces the listed cards; without a card its identity goes too. -/
def setDevices (r : Record) (devices : List Device) : Record :=
  { r with devices, identity := if devices.isEmpty then none else r.identity }

def setSubscribed (r : Record) (c : Channel) (on : Bool) : Record :=
  { r with subscriptions := r.subscriptions.set c on }

def clearAttachmentFigures (r : Record) : Record :=
  { r with link := none, traffic := none }

/-- Keeps the answer to a command. Lists and the radio status count only when the answer reports
success; the other readings are kept whatever code they come with. -/
def store (r : Record) (c : Command) (reply : Reply) : Record :=
  match c with
  | .apiOpen => { r with apiOpen := r.apiOpen || reply.response.isSuccess }
  | .apiClose => if reply.response.isSuccess then r.closed else r
  | .deviceOpen => { r with deviceOpen := r.deviceOpen || reply.response.isSuccess }
  | .deviceClose => { r with deviceOpen := false }
  | .listDevices => r.setDevices reply.successPayload.devicesOrNil
  | .networkList => { r with networks := reply.successPayload.networksOrNil }
  | .deviceStatus =>
    { r with status := reply.successPayload.status?, phase := reply.successPayload.phase? }
  | .linkStatus => { r with link := reply.payload.link? }
  | .ipInterface => { r with interface := reply.payload.interface? }
  | .statistics => { r with traffic := reply.payload.traffic? }
  | .connectedNsp => { r with attachment := reply.payload.attachment? }
  | .deviceInfo => { r with identity := reply.payload.identity? }
  | .packageInfo => { r with package := reply.payload.package? }
  | .provisioningStatus => { r with provisioned := reply.payload.provisioned? }
  | .contactInfo => { r with contacts := reply.payload.contactsOrNil }
  | _ => r

end Record

end Wimax
