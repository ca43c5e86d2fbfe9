/-!
Signal bars. The span from -100 dBm to -70 dBm is cut into equal parts, one for each level below
the top one. The computation is in machine words.
-/

namespace Wimax.Signal

/-- Signals at or below this strength have no bar. -/
def floorDbm : Int32 := -100

/-- Signals at or above this strength have every bar. -/
def ceilingDbm : Int32 := -70

/-- The decibels that one level covers when `top` is the highest level. -/
def stepSize (top : UInt32) : UInt32 := max ((ceilingDbm - floorDbm).toUInt32 / top) 1

/-- The level of a signal strength among `levels` levels, counted from zero. -/
def level (dbm : Int32) (levels : UInt32) : UInt32 :=
  if levels < 2 then 0
  else if dbm ≤ floorDbm then 0
  else if ceilingDbm ≤ dbm then levels - 1
  else min ((dbm - floorDbm).toUInt32 / stepSize (levels - 1)) (levels - 1)

end Wimax.Signal
