import Wimax.Coded

/-!
Driver commands and the notification channels they subscribe to. A command's number is what the
driver is given; its text is what messages show.
-/

namespace Wimax

/-- A kind of notification the driver sends while the channel is subscribed. -/
inductive Channel
  | statusChange | insertRemove | power | connect | disconnect | wideScan | provisioning
  | packageUpdate
  deriving DecidableEq, Repr

namespace Channel

def all : List Channel :=
  [statusChange, insertRemove, power, connect, disconnect, wideScan, provisioning, packageUpdate]

def index : Channel → Fin 8
  | statusChange => 0
  | insertRemove => 1
  | power => 2
  | connect => 3
  | disconnect => 4
  | wideScan => 5
  | provisioning => 6
  | packageUpdate => 7

instance : Coded Channel where
  all := all
  code c := c.index
  all_code c := by cases c <;> rfl

theorem index_injective {c d : Channel} (h : c.index = d.index) : c = d := by
  revert h; cases c <;> cases d <;> decide

theorem mem_all (c : Channel) : c ∈ all := by cases c <;> decide

def text : Channel → String
  | statusChange => "DEVICE_STATUS_CHANGE"
  | insertRemove => "DEVICE_INSERT_REMOVE"
  | power => "CONTROL_POWER_MANAGEMENT"
  | connect => "CONNECT_TO_NETWORK"
  | disconnect => "DISCONNECT_TO_NETWORK"
  | wideScan => "NETWORK_SEARCH_WIDE_SCAN"
  | provisioning => "PROVISIONING_OPERATION"
  | packageUpdate => "PACKAGE_UPDATE"

end Channel

inductive Command
  | apiOpen | listDevices | deviceOpen | deviceClose | apiClose | powerOn | powerOff
  | resetDevice | factoryReset | errorString | providerUnlock | providerLockStatus | networkList
  | connect | disconnect | wideScan | ipInterface | profileList | linkStatus | deviceInfo
  | deviceStatus | connectedNsp | setRoaming | getRoaming | statistics | provisioningStatus
  | contactInfo | packageInfo | packageUpdateState
  | subscribe (channel : Channel)
  | unsubscribe (channel : Channel)
  deriving DecidableEq, Repr

namespace Command

/-- The commands that concern no channel, by number from one. -/
def plain : List Command :=
  [apiOpen, listDevices, deviceOpen, deviceClose, apiClose, powerOn, powerOff, resetDevice,
    factoryReset, errorString, providerUnlock, providerLockStatus, networkList, connect,
    disconnect, wideScan, ipInterface, profileList, linkStatus, deviceInfo, deviceStatus,
    connectedNsp, setRoaming, getRoaming, statistics, provisioningStatus, contactInfo,
    packageInfo, packageUpdateState]

/-- Every command, by number from one: the plain ones, the subscriptions, the cancellations. -/
def all : List Command :=
  plain ++ Channel.all.map subscribe ++ Channel.all.map unsubscribe

/-- The number handed to the driver. -/
def code : Command → Nat
  | subscribe c => 30 + c.index
  | unsubscribe c => 38 + c.index
  | c => plain.idxOf c + 1

def ofCode? (n : Int) : Option Command :=
  if 1 ≤ n then all[n.toNat - 1]? else none

theorem mem_all (c : Command) : c ∈ all := by
  cases c with
  | subscribe c => cases c <;> decide
  | unsubscribe c => cases c <;> decide
  | _ => decide

@[simp]
theorem ofCode?_code (c : Command) : ofCode? c.code = some c := by
  cases c with
  | subscribe c => cases c <;> rfl
  | unsubscribe c => cases c <;> rfl
  | _ => rfl

def text : Command → String
  | apiOpen => "API_OPEN"
  | listDevices => "LIST_DEVICES"
  | deviceOpen => "DEVICE_OPEN"
  | deviceClose => "DEVICE_CLOSE"
  | apiClose => "API_CLOSE"
  | powerOn => "POWER_ON"
  | powerOff => "POWER_OFF"
  | resetDevice => "RESET_DEVICE"
  | factoryReset => "FACTORY_RESET"
  | errorString => "ERROR_STRING"
  | providerUnlock => "SP_UNLOCK"
  | providerLockStatus => "SP_LOCK_STATUS"
  | networkList => "NETWORK_LIST"
  | connect => "CONNECT"
  | disconnect => "DISCONNECT"
  | wideScan => "WIDE_SCAN"
  | ipInterface => "IP_INTERFACE"
  | profileList => "PROFILE_LIST"
  | linkStatus => "LINK_STATUS"
  | deviceInfo => "DEVICE_INFO"
  | deviceStatus => "DEVICE_STATUS"
  | connectedNsp => "CONNECTED_NSP"
  | setRoaming => "SET_ROAMING"
  | getRoaming => "GET_ROAMING"
  | statistics => "STATISTICS"
  | provisioningStatus => "PROVISIONING_STATUS"
  | contactInfo => "CONTACT_INFO"
  | packageInfo => "PACKAGE_INFO"
  | packageUpdateState => "PACKAGE_UPDATE_STATE"
  | subscribe c => "SUBSCRIBE_" ++ c.text
  | unsubscribe c => "UNSUBSCRIBE_" ++ c.text

def subscribes? : Command → Option Channel
  | subscribe c => some c
  | _ => none

def unsubscribes? : Command → Option Channel
  | unsubscribe c => some c
  | _ => none

/-- The driver serves these only after `apiOpen`. -/
def needsOpenApi : Command → Bool
  | powerOn | powerOff | deviceStatus | deviceInfo | connectedNsp | packageInfo
  | packageUpdateState | provisioningStatus | contactInfo => true
  | _ => false

/-- Numbered commands with no behaviour behind them. -/
def isReserved : Command → Bool
  | factoryReset | errorString | providerUnlock | providerLockStatus | setRoaming
  | getRoaming => true
  | _ => false

end Command

end Wimax
