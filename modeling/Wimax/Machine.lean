import Wimax.Phase

/-!
The session's state machine. A tick runs one step of the current phase and the change of stage it
leads to; notices of the driver and callers only move the goal. Observers hear of every change of
the report and of the signal strength.
-/

namespace Wimax

structure Machine where
  settings : Settings
  driver : Driver
  phase : Phase := .ready
  goal : Goal := .ready
  /-- The network to attach to when it is in sight. -/
  preferred : String
  /-- The last report published. -/
  shown : Report := .unknown
  /-- The last signal strength published. -/
  shownRssi : Option Int := none
  latestMessage : Option Message := none
  /-- The message of the last visit that was given up for good. -/
  partingMessage : Option Message := none
  deriving DecidableEq, Repr

/-- What callers may see of a machine at one moment. -/
structure View where
  stage : Stage
  shown : Report
  goal : Goal
  preferred : String
  latestMessage : Option Message
  partingMessage : Option Message
  deriving DecidableEq, Repr

namespace Machine

def start (settings : Settings) : Machine where
  settings
  driver := { settings := settings.driver }
  preferred := settings.preferred

def stage (m : Machine) : Stage := m.phase.stage

@[simp]
theorem stage_start (settings : Settings) : (start settings).stage = .ready := rfl

def view (m : Machine) : View where
  stage := m.stage
  shown := m.shown
  goal := m.goal
  preferred := m.preferred
  latestMessage := m.latestMessage
  partingMessage := m.partingMessage

/-- The last tick has completed a round of the monitor. -/
def roundComplete (m : Machine) : Bool :=
  match m.phase with
  | .connected monitor => monitor.roundComplete
  | _ => false

/-- The pause before the next tick; a completed round of the monitor has one of its own. -/
def pause (m : Machine) : Nat :=
  if m.roundComplete then m.settings.roundPause else m.settings.tickPause

/-- The base station that a report carries. -/
def shownBsid? (m : Machine) (r : Report) : Option String :=
  if r.showsConnection then m.driver.record.link.map (·.bsid.text) else none

/-- Publishes a report, unless it was the last one. -/
def announce (m : Machine) (r : Report) : Dialog Machine :=
  if m.shown = r then .done m
  else .publish (.state r m.shown (m.shownBsid? r)) (.done { m with shown := r })

@[simp]
theorem announce_shown (m : Machine) : m.announce m.shown = .done m := by simp [announce]

def announceRssi (m : Machine) (dbm : Int) : Dialog Machine :=
  if m.shownRssi = some dbm then .done m
  else .publish (.rssi dbm) (.done { m with shownRssi := some dbm })

/-- Begins a visit to another stage and reports it. -/
def moveTo (m : Machine) (s : Stage) : Dialog Machine :=
  if m.stage = s then .done m else { m with phase := .fresh s }.announce s.report

/-- Turns toward the goal if the current stage does not lead there. -/
def redirect (m : Machine) : Dialog Machine :=
  match m.goal.redirect? m.stage with
  | some s => m.moveTo s
  | none => .done m

def aim (m : Machine) (g : Goal) : Machine := { m with goal := g }

@[simp]
theorem goal_aim (m : Machine) (g : Goal) : (m.aim g).goal = g := rfl

@[simp]
theorem stage_aim (m : Machine) (g : Goal) : (m.aim g).stage = m.stage := rfl

/-- Prefers another network. An attachment that exists or is under way is given up for it. -/
def prefer (m : Machine) (name : String) : Dialog Machine :=
  if sameName m.preferred name then .done m
  else
    let m := { m with preferred := name }
    if m.goal = .connected ∧ (m.stage = .connecting ∨ m.stage = .connected) then
      m.moveTo .disconnecting
    else .done m

/-- Gives the session up for good with a message. -/
def giveUp (m : Machine) (message : Option Message) : Machine :=
  { m with partingMessage := message, goal := .ready }

def tickBringup (m : Machine) (b : Bringup) : Dialog Machine := do
  let s ← b.step m.driver m.settings.scanAllowance
  let m := { m with phase := .initializing s.phase, driver := s.driver, latestMessage := s.message }
  match s.verdict with
  | .underway => return m
  | .scanning => m.announce .scanning
  | .finished => m.moveTo .initialized
  | .failed => (m.giveUp s.message).redirect

/-- The tick of an attachment that serves the goal. A lost card ends the session, any other failure
lets it climb again. -/
def tickAttach (m : Machine) (a : Attach) : Dialog Machine := do
  let s ← a.step m.driver m.preferred
  let m := { m with phase := .connecting s.phase, driver := s.driver }
  match s.verdict with
  | .underway => return m
  | .scanning => m.moveTo .initializing
  | .finished => m.moveTo .connected
  | .failed =>
    match s.message with
    | some message => ({ m with latestMessage := some message }.giveUp (some message)).moveTo .ready
    | none => m.moveTo .ready

def tickMonitor (m : Machine) (monitor : Monitor) : Dialog Machine := do
  let (s, sample) ← monitor.step m.driver
  let m := { m with phase := .connected s.phase, driver := s.driver, latestMessage := s.message }
  match s.verdict with
  | .underway | .scanning => return m
  | .finished =>
    match sample with
    | some dbm => m.announceRssi dbm
    | none => return m
  | .failed => m.moveTo .connecting

/-- The tick of a teardown, which no goal interrupts. -/
def tickTeardown (m : Machine) (t : Teardown) : Dialog Machine := do
  let s ← t.step m.driver
  let m := { m with phase := .disconnecting s.phase, driver := s.driver }
  if s.verdict = .finished then m.moveTo .disconnected else return m

def tickPhase (m : Machine) : Dialog Machine :=
  match m.phase with
  | .ready | .disconnected => m.redirect
  | .initialized => if m.goal = .connected then m.moveTo .connecting else m.redirect
  | .initializing b => if m.goal.isUpward then m.tickBringup b else m.redirect
  | .connecting a => if m.goal = .connected then m.tickAttach a else m.redirect
  | .connected monitor => if m.goal = .connected then m.tickMonitor monitor else m.redirect
  | .disconnecting t => m.tickTeardown t

/-- Reports the stage if nothing was shown yet, then takes a step. -/
def tick (m : Machine) : Dialog Machine := do
  let m ← if m.shown = .unknown then m.announce m.stage.report else pure m
  m.tickPhase

/-- Looks for the card: without one the session comes to rest, with one it leaves its rest. -/
def seekCard (m : Machine) : Dialog Machine := do
  let (driver, present) ← m.driver.cardPresent
  let m := { m with driver }
  return if present then
      if m.goal = .ready then m.aim .connected else m
    else m.aim .ready

def noteCard (m : Machine) (present : Bool) : Machine :=
  let record := { m.driver.record with present := some present }
  let m := { m with driver := { m.driver with record } }
  if present then
    if m.goal = .ready ∧ m.settings.connectOnInsert then m.aim .connected else m
  else m.aim .ready

/-- Takes a notice of the driver. The stage changes at the next tick at the earliest. -/
def handle (m : Machine) : Notice → Dialog Machine
  | .insertRemove present => .done (m.noteCard present)
  | .power state =>
    .done (if state = .off ∧ m.goal = .connected then m.aim .ready else m)
  | .connectResult code =>
    if code = 0 ∧ m.goal ≠ .connected then m.seekCard else .done m
  | .disconnectResult code =>
    if code = 1 ∧ m.goal ≠ .disconnected then m.seekCard else .done m
  | .wideScan networks => do
    let m ← m.seekCard
    .publish (.wideScan networks) (.done m)
  | .provisioning stage _ => .publish (.provisioning stage.description) (.done m)
  | .packageUpdate stage => .publish (.packageUpdate stage.description) (.done m)
  | .statusChange .. => .done m

end Machine

end Wimax
