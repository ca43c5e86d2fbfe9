import Wimax.Coded

/-!
The lifecycle of a session, the goals callers set, and the step from a stage that does not lead to
the goal. There is one way up (ready, initializing, initialized, connecting, connected) and one way
down (disconnecting, disconnected, ready).
-/

namespace Wimax

inductive Stage
  | ready | initializing | initialized | connecting | connected | disconnecting | disconnected
  deriving DecidableEq, Repr

namespace Stage

/-- The device is open and takes queries. -/
def takesQueries : Stage → Bool
  | initialized | connecting | connected => true
  | _ => false

/-- The stage lies on the way up. -/
def isUpward : Stage → Bool
  | initializing | initialized | connecting | connected => true
  | _ => false

end Stage

inductive Goal
  | ready | initialized | connected | disconnected
  deriving DecidableEq, Repr

instance : Inhabited Goal := ⟨.ready⟩

namespace Goal

/-- The goal lies on the way up. -/
def isUpward : Goal → Bool
  | initialized | connected => true
  | _ => false

/-- The stage is the goal's own or leads to it without a change of direction. -/
def isServedBy : Goal → Stage → Bool
  | initialized, .initializing | initialized, .initialized => true
  | connected, .initializing | connected, .initialized | connected, .connecting => true
  | ready, .ready => true
  | disconnected, .ready | disconnected, .disconnected => true
  | _, _ => false

/-- The stage to enter when the current one does not lead to the goal. -/
def redirect? (g : Goal) (s : Stage) : Option Stage :=
  if g.isUpward then
    if g.isServedBy s then none else some .initializing
  else if s.isUpward then some .disconnecting
  else if g == .ready && s == .disconnected then some .ready
  else none

theorem redirect?_ne {g : Goal} {s t : Stage} (h : g.redirect? s = some t) : t ≠ s := by
  revert h
  cases g <;> cases s <;> simp [redirect?, isUpward, Stage.isUpward, isServedBy] <;>
    (intro h; subst h; decide)

end Goal

/-- The state shown to observers. `unknown` precedes the first report; `scanning` is shown while
initialization waits for the radio. -/
inductive Report
  | unknown | ready | initializing | scanning | initialized | connecting | connected
  | disconnecting | disconnected
  deriving DecidableEq, Repr

instance : Inhabited Report := ⟨.unknown⟩

namespace Report

def all : List Report :=
  [unknown, ready, initializing, scanning, initialized, connecting, connected, disconnecting,
    disconnected]

/-- The number of a report; two is not used. -/
def code : Report → Nat
  | unknown => 0
  | ready => 1
  | initializing => 3
  | scanning => 4
  | initialized => 5
  | connecting => 6
  | connected => 7
  | disconnecting => 8
  | disconnected => 9

def ofCode? (n : Int) : Option Report := all.find? fun r => (r.code : Int) == n

@[simp]
theorem ofCode?_code (r : Report) : ofCode? r.code = some r := by cases r <;> rfl

def showsConnection (r : Report) : Bool := r == connected

def text : Report → String
  | unknown => "UNKNOWN"
  | ready => "READY"
  | initializing => "INITIALIZING"
  | scanning => "SCANNING"
  | initialized => "INITIALIZED"
  | connecting => "CONNECTING"
  | connected => "CONNECTED"
  | disconnecting => "DISCONNECTING"
  | disconnected => "DISCONNECTED"

end Report

def Stage.report : Stage → Report
  | ready => .ready
  | initializing => .initializing
  | initialized => .initialized
  | connecting => .connecting
  | connected => .connected
  | disconnecting => .disconnecting
  | disconnected => .disconnected

def Stage.text (s : Stage) : String := s.report.text

theorem Stage.report_injective {s t : Stage} (h : s.report = t.report) : s = t := by
  revert h; cases s <;> cases t <;> decide

theorem Stage.report_ne_scanning (s : Stage) : s.report ≠ .scanning := by cases s <;> decide

end Wimax
