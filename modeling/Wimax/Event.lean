import Wimax.Lifecycle
import Wimax.Reading
import Wimax.Status

/-!
Notices come from the driver and events go to observers. An outlet says who receives the events
that are published.
-/

namespace Wimax

/-- What the driver announces of its own accord. -/
inductive Notice
  | statusChange (status : Option RadioStatus) (reason : Option ChangeReason)
      (phase : Option AttachPhase)
  | insertRemove (present : Bool)
  | power (state : Power)
  /-- The result of an attachment; zero reports success. -/
  | connectResult (code : Int)
  /-- The result of a detachment; one reports that the link dropped. -/
  | disconnectResult (code : Int)
  | wideScan (networks : List Network)
  | provisioning (stage : ProvisioningStage) (contactKind : UInt32)
  | packageUpdate (stage : PackageStage)
  deriving DecidableEq, Repr

/-- A change of status announced by raw codes; a code without meaning is dropped. -/
def Notice.ofStatusCodes (status reason phase : Int) : Notice :=
  .statusChange (Coded.ofCode? _ status) (Coded.ofCode? _ reason) (Coded.ofCode? _ phase)

inductive Event
  /-- The report changed. A report of a connection carries the base station, if it is known. -/
  | state (state previous : Report) (bsid : Option String)
  | rssi (dbm : Int)
  | provisioning (message : String)
  | packageUpdate (message : String)
  | wideScan (networks : List Network)
  deriving DecidableEq, Repr

inductive Outlet
  /-- Functions that are called with every event. -/
  | listeners (count : Nat)
  /-- A shared buffer of bounded size with its own place in it for each receiver. -/
  | broadcast (receivers : Nat) (capacity : Nat := 64)
  /-- A queue with one receiver, which may have gone away. -/
  | queue (isOpen : Bool)
  deriving DecidableEq, Repr

namespace Outlet

/-- What each receiver has seen after the events were published. Nobody listening is no error. -/
def deliver (events : List Event) : Outlet → List (List Event)
  | listeners n => List.replicate n events
  | broadcast n capacity => List.replicate n (events.drop (events.length - capacity))
  | queue isOpen => [if isOpen then events else []]

end Outlet

end Wimax
