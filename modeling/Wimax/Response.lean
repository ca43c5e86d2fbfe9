import Wimax.Coded

/-! The response codes a driver command ends with. -/

namespace Wimax

inductive Response
  | firstCommonError | success | failed | bufferTooSmall | permissionDenied | invalidDevice
  | invalidParameter | alreadyConnected | linkNotConnected | networkProhibited | deviceMissing
  | invalidProfile | roamingNotAllowed | connectionInProgress | notImplemented | lastCommonError
  deriving DecidableEq, Repr

namespace Response

def all : List Response :=
  [firstCommonError, success, failed, bufferTooSmall, permissionDenied, invalidDevice,
    invalidParameter, alreadyConnected, linkNotConnected, networkProhibited, deviceMissing,
    invalidProfile, roamingNotAllowed, connectionInProgress, notImplemented, lastCommonError]

def code (r : Response) : Nat := all.idxOf r

instance : Coded Response where
  all := all
  code := code
  all_code r := by cases r <;> rfl

def name : Response → String
  | firstCommonError => "FirstCommonError"
  | success => "Success"
  | failed => "Failed"
  | bufferTooSmall => "BufferSizeTooSmall"
  | permissionDenied => "PermissionDenied"
  | invalidDevice => "InvalidDevice"
  | invalidParameter => "InvalidParameter"
  | alreadyConnected => "AlreadyConnected"
  | linkNotConnected => "LinkNotConnected"
  | networkProhibited => "NetworkProhibited"
  | deviceMissing => "DeviceMissing"
  | invalidProfile => "InvalidProfile"
  | roamingNotAllowed => "RoamingNotAllowed"
  | connectionInProgress => "ConnectionInProgress"
  | notImplemented => "NotImplemented"
  | lastCommonError => "LastCommonError"

def text (r : Response) : String := r.name ++ "(" ++ toString r.code ++ ")"

def isSuccess (r : Response) : Bool := r == success

/-- The card is gone or unusable, so repeating the command cannot help. -/
def meansCardLost : Response → Bool
  | invalidDevice | deviceMissing => true
  | _ => false

@[simp]
theorem isSuccess_iff {r : Response} : r.isSuccess = true ↔ r = success := by
  simp [isSuccess]

end Response

end Wimax
