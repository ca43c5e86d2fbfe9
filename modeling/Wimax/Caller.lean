import Wimax.Session

/-!
The operations of a session's only caller on the bench. An operation lets the tasks go on until its
result is there; then the loop goes on until it has to wait. Once the loop has stopped every
operation fails.
-/

namespace Wimax

namespace Session

def start (settings : Settings) (card : Card) : Session :=
  let s : Session := {
    system := .start .bench settings
    bench := { card }
    limit := settings.driver.callLimit }
  s.runUntil 0

def takeResult (s : Session) : Except Fault Told × Session :=
  match s.system.caller with
  | .back call result => (result, s.log (.result call result) { s.system with caller := .idle })
  | .idle | .away _ => (.error .loopStopped, s)

def perform (s : Session) (call : Call) : Except Fault Told × Session :=
  match s.system.caller, s.system.released with
  | .idle, false =>
    let s := s.log (.begin call) { s.system with caller := .away call.errand }
    (s.runUntil s.now).takeResult
  | _, _ => (.error .loopStopped, s)

/-- The result of a call whose success tells nothing. -/
def unit (r : Except Fault Told × Session) : Except Fault Unit × Session :=
  (r.1.map fun _ => (), r.2)

def aim (s : Session) (g : Goal) : Except Fault Unit × Session := unit (s.perform (.aim g))

def prefer (s : Session) (name : String) : Except Fault Unit × Session :=
  unit (s.perform (.prefer name))

def connect (s : Session) (name : String) : Except Fault Unit × Session :=
  unit (s.perform (.connect name))

def view (s : Session) : Except Fault View × Session :=
  match s.perform (.ask .view) with
  | (.ok (.view view), s) => (.ok view, s)
  | (.ok _, s) => (.error .loopStopped, s)
  | (.error fault, s) => (.error fault, s)

def ask (s : Session) (q : Query) : Except Fault Answer × Session :=
  match s.perform (.ask (.query q)) with
  | (.ok (.answer answer), s) => (.ok answer, s)
  | (.ok _, s) => (.error .loopStopped, s)
  | (.error fault, s) => (.error fault, s)

def halt (s : Session) : Except Fault Unit × Session := unit (s.perform (.ask .halt))

/-- Asks for rest, waits for it up to `millis`, and stops the loop either way. -/
def retire (s : Session) (millis : Nat) : Except Fault Unit × Session :=
  unit (s.perform (.retire millis))

def post (s : Session) (n : Notice) : Except Fault Unit × Session := s.postNotice n

/-- Gives the session up: the loop stops when it next looks for an order. -/
def release (s : Session) : Session :=
  match s.system.caller, s.system.released with
  | .idle, false =>
    let s := s.log .release { s.system with released := true }
    s.runUntil s.now
  | _, _ => s

end Session

end Wimax
