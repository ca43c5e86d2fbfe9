/-! Settings of a session. All times are whole milliseconds. -/

namespace Wimax

structure DriverSettings where
  /-- The longest a command may take; `none` sets no limit. -/
  callLimit : Option Nat := some 30000
  /-- Without notices, subscriptions are kept in the record alone. -/
  notices : Bool := true
  deriving DecidableEq, Repr

structure Settings where
  tickPause : Nat := 100
  /-- The pause after a completed round of the connection monitor. Zero begins the next round in the
  same instant. -/
  roundPause : Nat := 1000
  /-- The failed or empty network lists in a row that end an initialization. -/
  scanAllowance : Nat := 10
  preferred : String := "CLEAR"
  /-- An inserted card asks for a connection when the session is at rest. -/
  connectOnInsert : Bool := true
  /-- The orders that may wait for the control loop. -/
  queueCapacity : Nat := 128
  driver : DriverSettings := {}
  deriving DecidableEq, Repr

end Wimax
