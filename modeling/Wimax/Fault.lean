import Wimax.Command
import Wimax.Response
import Wimax.Span

/-! Why an operation of the session fails, and the text and category of each cause. -/

namespace Wimax

inductive Fault
  | loopStopped
  | callTimeout (command : Command) (after : Span)
  | cardFault (text : String)
  | noDevice
  | noConnection
  | refused (command : Command) (response : Response)
  | noReading (command : Command)
  | restTimeout (after : Span)
  deriving DecidableEq, Repr

namespace Fault

def message : Fault → String
  | loopStopped => "Internal channel is broken"
  | callTimeout c after => "Driver command " ++ c.text ++ " timed out after " ++ after.text
  | cardFault text => "Driver backend failure: " ++ text
  | noDevice => "Device is not ready"
  | noConnection => "Session not connected"
  | refused c r => "Driver command " ++ c.text ++ " failed with " ++ r.name
  | noReading c => "Driver command " ++ c.text ++ " produced no reading"
  | restTimeout after => "Session did not return to ready within " ++ after.text

/-- The kinds of input and output errors that faults are reported as. -/
inductive Category
  | brokenPipe | timedOut | other | notFound | notConnected | invalidData
  deriving DecidableEq, Repr

def category : Fault → Category
  | loopStopped => .brokenPipe
  | callTimeout .. | restTimeout _ => .timedOut
  | cardFault _ | refused .. => .other
  | noDevice => .notFound
  | noConnection => .notConnected
  | noReading _ => .invalidData

/-- The text of a backend's own, which its category alone would lose. -/
def detail? : Fault → Option String
  | cardFault text => some text
  | _ => none

end Fault

end Wimax
