import Wimax.Bsid

/-! What the driver can report about the card, the networks in sight and the attachment. -/

namespace Wimax

structure Device where
  index : UInt32
  name : String
  kind : UInt32
  deriving DecidableEq, Repr

/-- A network service provider in sight of the radio. -/
structure Network where
  name : String
  id : UInt32
  rssi : UInt8
  cinr : UInt8
  kind : UInt32
  deriving DecidableEq, Repr

/-- Equality of names up to the case of ASCII letters. -/
def sameName (a b : String) : Bool := a.toList.map Char.toLower == b.toList.map Char.toLower

structure Link where
  centerFrequency : UInt32
  rssi : UInt8
  cinr : UInt8
  txPower : UInt8
  bsid : Bsid
  deriving DecidableEq, Repr

namespace Link

def signalDbm (l : Link) : Int := l.rssi.toNat - 123

def carrierDb (l : Link) : Int := l.cinr.toNat - 10

/-- Transmit power; the raw figure counts half decibels. -/
def powerDbm (l : Link) : Int := (l.txPower.toNat / 2 : Nat) - 84

end Link

structure Traffic where
  rxBytes : UInt64
  txBytes : UInt64
  rxPackets : UInt64
  txPackets : UInt64
  deriving DecidableEq, Repr

structure Attachment where
  name : String
  realm : String
  id : UInt32
  activated : Bool
  rssi : UInt8
  cinr : UInt8
  kind : UInt32
  deriving DecidableEq, Repr

structure Version where
  name : String := ""
  version : String := ""
  deriving DecidableEq, Repr

structure Identity where
  hardware : Version := {}
  software : Version := {}
  radio : Version := {}
  asic : Version := {}
  mac : Vector UInt8 6
  vendor : String
  vendorInfo : String := ""
  deriving DecidableEq, Repr

structure Package where
  path : String := ""
  file : String := ""
  forceReboot : Bool := false
  mandatory : Bool := false
  warn : Bool := false
  deriving DecidableEq, Repr

structure Contact where
  text : String
  uri : String
  kind : UInt32
  deriving DecidableEq, Repr

end Wimax
