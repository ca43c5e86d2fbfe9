import Wimax.Command
import Wimax.Reading
import Wimax.Response
import Wimax.Status

/-! What is sent to the card, what it answers, and how a call can end. -/

namespace Wimax

inductive Args
  | nothing
  | power (state : Power)
  | connect (name : String) (id : UInt32) (password : String)
  | network (name : String)
  | decision (decision : PackageDecision)
  deriving DecidableEq, Repr

structure Request where
  command : Command
  args : Args := .nothing
  deriving DecidableEq, Repr

inductive Payload
  | nothing
  | devices (devices : List Device)
  | radio (status : RadioStatus) (phase : Option AttachPhase)
  | networks (networks : List Network)
  | link (link : Link)
  | interface (name : String)
  | traffic (traffic : Traffic)
  | attachment (attachment : Attachment)
  | identity (identity : Identity)
  | package (package : Package)
  | provisioned (value : Bool)
  | contacts (contacts : List Contact)
  deriving DecidableEq, Repr

namespace Payload

def devicesOrNil : Payload → List Device
  | devices ds => ds
  | _ => []

def networksOrNil : Payload → List Network
  | networks ns => ns
  | _ => []

def contactsOrNil : Payload → List Contact
  | contacts cs => cs
  | _ => []

def status? : Payload → Option RadioStatus
  | radio s _ => some s
  | _ => none

def phase? : Payload → Option AttachPhase
  | radio _ p => p
  | _ => none

def link? : Payload → Option Link
  | link l => some l
  | _ => none

def interface? : Payload → Option String
  | interface name => some name
  | _ => none

def traffic? : Payload → Option Traffic
  | traffic t => some t
  | _ => none

def attachment? : Payload → Option Attachment
  | attachment a => some a
  | _ => none

def identity? : Payload → Option Identity
  | identity i => some i
  | _ => none

def package? : Payload → Option Package
  | package p => some p
  | _ => none

def provisioned? : Payload → Option Bool
  | provisioned b => some b
  | _ => none

end Payload

structure Reply where
  response : Response
  payload : Payload := .nothing
  deriving DecidableEq, Repr

namespace Reply

def reading (p : Payload) : Reply := ⟨.success, p⟩

/-- The reading of an answer that reports success, and nothing otherwise. -/
def successPayload (r : Reply) : Payload := if r.response = .success then r.payload else .nothing

theorem successPayload_of_ne {r : Reply} (h : r.response ≠ .success) :
    r.successPayload = .nothing := by simp [successPayload, h]

end Reply

/-- How a call ends: with an answer, with a fault of the backend, or at the time limit. -/
inductive Outcome
  | reply (reply : Reply)
  | fault (text : String)
  | timedOut
  deriving DecidableEq, Repr

end Wimax
