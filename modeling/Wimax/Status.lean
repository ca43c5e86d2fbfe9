import Wimax.Coded

/-!
Status codes the driver reports: the radio, the phases of an attachment, and the progress of
package updates and provisioning with the texts shown to users.
-/

namespace Wimax

inductive Power
  | on | off
  deriving DecidableEq, Repr

instance : Coded Power where
  all := [.on, .off]
  code p := [Power.on, .off].idxOf p
  all_code p := by cases p <;> rfl

inductive RadioStatus
  | uninitialized | rfOffBoth | rfOffHardware | rfOffSoftware | ready | scanning | connecting
  | dataConnected
  deriving DecidableEq, Repr

namespace RadioStatus

def all : List RadioStatus :=
  [uninitialized, rfOffBoth, rfOffHardware, rfOffSoftware, ready, scanning, connecting,
    dataConnected]

instance : Coded RadioStatus where
  all := all
  code s := all.idxOf s
  all_code s := by cases s <;> rfl

/-- The radio is switched off by a hardware or software switch. -/
def isOff : RadioStatus → Bool
  | rfOffBoth | rfOffHardware | rfOffSoftware => true
  | _ => false

/-- The radio is searching or negotiating and has not settled. -/
def isUnsettled : RadioStatus → Bool
  | scanning | connecting => true
  | _ => false

end RadioStatus

inductive AttachPhase
  | ranging | sbc | eapDevice | eapUser | handshake | registration | deregistration | registered
  deriving DecidableEq, Repr

namespace AttachPhase

def all : List AttachPhase :=
  [ranging, sbc, eapDevice, eapUser, handshake, registration, deregistration, registered]

instance : Coded AttachPhase where
  all := all
  code p := all.idxOf p
  all_code p := by cases p <;> rfl

end AttachPhase

/-- Why the driver announced a change of status: `normal`, or the step an attachment failed in. -/
inductive ChangeReason
  | normal | network | ranging | sbc | eapDevice | eapUser | handshake | registration | dataPath
  deriving DecidableEq, Repr

namespace ChangeReason

def all : List ChangeReason :=
  [normal, network, ranging, sbc, eapDevice, eapUser, handshake, registration, dataPath]

instance : Coded ChangeReason where
  all := all
  code r := all.idxOf r
  all_code r := by cases r <;> rfl

end ChangeReason

inductive PackageStage
  | received | receivedLowerStack | receivedFullStack | receivedManagementClient | started
  | completed | failedDisconnected | failedInvalidPackage | failedAuthentication | failed
  deriving DecidableEq, Repr

namespace PackageStage

def all : List PackageStage :=
  [received, receivedLowerStack, receivedFullStack, receivedManagementClient, started, completed,
    failedDisconnected, failedInvalidPackage, failedAuthentication, failed]

instance : Coded PackageStage where
  all := all
  code s := all.idxOf s
  all_code s := by cases s <;> rfl

def description : PackageStage → String
  | received =>
    "WiMAX PACKAGE RECEIVED: A software update package is available for your WiMAX device. " ++
    "Do you want to start downloading it?"
  | receivedLowerStack => "Update package received for firmware update only."
  | receivedFullStack => "Update package received for firmware, SDK and driver."
  | receivedManagementClient => "Update package received for OMA-DM client."
  | started =>
    "WiMAX SOFTWARE UPDATE DOWNLOADED: It is HIGHLY recommended that you install this software " ++
    "update package. Do you want to install it?"
  | completed => "Update package successfully installed."
  | failedDisconnected => "Update package failed to install because of network disconnection."
  | failedInvalidPackage => "Update package failed to install because of invalid package."
  | failedAuthentication => "Update package failed to install because of bas authentication."
  | failed =>
    "WiMAX SOFTWARE FAILED DOWNLOAD: The package you attempted to download seems to have failed."

end PackageStage

inductive ProvisioningStage
  | started | completed | failedDisconnected | failed | failedInvalidProvisioning
  | failedAuthentication | requestInitial | requestOngoing | requestReset | triggerContact
  deriving DecidableEq, Repr

namespace ProvisioningStage

def all : List ProvisioningStage :=
  [started, completed, failedDisconnected, failed, failedInvalidProvisioning,
    failedAuthentication, requestInitial, requestOngoing, requestReset, triggerContact]

instance : Coded ProvisioningStage where
  all := all
  code s := all.idxOf s
  all_code s := by cases s <;> rfl

def description : ProvisioningStage → String
  | started =>
    "WiMAX UPDATE: Your WiMAX Adapter is being updated by the network. " ++
    "DO NOT REMOVE THE CARD UNTIL COMPLETION!"
  | completed => "WiMAX UPDATE: Your WiMAX Adapter has been updated."
  | failedDisconnected => "Update failed because of network disconnect."
  | failed =>
    "WiMAX UPDATE: Update failed. Please contact customer care for more details or help."
  | failedInvalidProvisioning => "Update failed because of invalid provisioning."
  | failedAuthentication => "Update failed because of authentication failure."
  | requestInitial => "Update requested initial provisioning."
  | requestOngoing => "Update ongoing provisioning."
  | requestReset => "Update requested reset provisioning."
  | triggerContact => "Specifies to invoke the URI specified in the contact information."

end ProvisioningStage

inductive PackageDecision
  | delay | accepted | denied
  deriving DecidableEq, Repr

instance : Inhabited PackageDecision := ⟨.delay⟩

end Wimax
