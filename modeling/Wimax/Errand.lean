import Wimax.Loop

/-!
The operations of a session's caller. Goals and selections are sent without waiting for the loop;
the other operations send an order and wait for its answer. An operation is an errand that goes from
one wait to the next.
-/

namespace Wimax

inductive Call
  | aim (goal : Goal)
  | prefer (name : String)
  | connect (name : String)
  | ask (question : Question)
  /-- Asks for rest, waits for it up to so many milliseconds and halts either way. -/
  | retire (millis : Nat)
  deriving DecidableEq, Repr

/-- How far a call to retire has come. -/
inductive Leg
  | aim
  | look (limit : Nat)
  | hear (limit : Nat)
  | pause (limit : Nat) (moment : Nat)
  | halt (result : Except Fault Told)
  | part (result : Except Fault Told)
  deriving DecidableEq, Repr

inductive Errand
  | aim (goal : Goal)
  | prefer (name : String)
  | connect (name : String)
  /-- The network was sent and the goal follows. -/
  | connectAim (name : String)
  | ask (question : Question)
  | hear (question : Question)
  | retire (millis : Nat) (leg : Leg)
  deriving DecidableEq, Repr

inductive Caller
  | idle
  | away (errand : Errand)
  | back (call : Call) (result : Except Fault Told)
  deriving DecidableEq, Repr

def Call.errand : Call → Errand
  | aim g => .aim g
  | prefer name => .prefer name
  | connect name => .connect name
  | ask q => .ask q
  | retire millis => .retire millis .aim

/-- What an errand waits for, with what follows at the time the wait is over. -/
inductive Wait
  | send (order : Order) (sent : Nat → Caller) (refused : Caller)
  | answer (heard : Nat → Except Fault Told → Caller) (lost : Caller)
  | sleep (moment : Nat) (woken : Caller)

/-- An answer that shows the session at rest. -/
def showsRest : Except Fault Told → Bool
  | .ok (.view view) => view.stage == .ready
  | _ => false

namespace Errand

/-- A call that sends an order and does not wait for it to be carried out. -/
def tell (call : Call) (order : Order) : Wait :=
  .send order (fun _ => .back call (.ok .nothing)) (.back call (.error .loopStopped))

def wait (pause : Nat) : Errand → Wait
  | aim g => tell (.aim g) (.aim g)
  | prefer name => tell (.prefer name) (.prefer name)
  | connect name =>
    .send (.prefer name) (fun _ => .away (.connectAim name))
      (.back (.connect name) (.error .loopStopped))
  | connectAim name => tell (.connect name) (.aim .connected)
  | ask q =>
    .send (.ask q) (fun _ => .away (.hear q)) (.back (.ask q) (.error .loopStopped))
  | hear q => .answer (fun _ result => .back (.ask q) result) (.back (.ask q) (.error .loopStopped))
  | retire millis leg =>
    let go (leg : Leg) : Caller := .away (.retire millis leg)
    match leg with
    | .aim =>
      .send (.aim .ready) (fun now => go (.look (now + millis)))
        (.back (.retire millis) (.error .loopStopped))
    | .look limit =>
      .send (.ask .view) (fun _ => go (.hear limit)) (go (.halt (.error .loopStopped)))
    | .hear limit =>
      .answer
        (fun now result =>
          go (if showsRest result then .halt (.ok .nothing) else .pause limit (now + pause)))
        (go (.halt (.error .loopStopped)))
    | .pause limit moment => .sleep moment (go (.look limit))
    | .halt result =>
      .send (.ask .halt) (fun _ => go (.part result))
        (.back (.retire millis) (.error .loopStopped))
    | .part result =>
      .answer (fun _ _ => .back (.retire millis) result)
        (.back (.retire millis) (.error .loopStopped))

def limit? : Errand → Option (Nat × Caller)
  | retire millis (.look limit) | retire millis (.hear limit)
  | retire millis (.pause limit _) =>
    some (limit, .away (.retire millis (.halt (.error (.restTimeout (.ofMillis millis))))))
  | _ => none

def timers (pause : Nat) (e : Errand) : List Nat :=
  let limit := (e.limit?.map (·.1)).toList
  match e.wait pause with
  | .sleep moment _ => moment :: limit
  | _ => limit

end Errand

end Wimax
