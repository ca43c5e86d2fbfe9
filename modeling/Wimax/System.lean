import Wimax.Errand
import Wimax.Runtime

/-!
A session as a system of two tasks, the control loop and its caller, on any runtime. Between two of
its waits a task is not interrupted; otherwise the steps of the tasks, the notices of the driver and
the passing of time come in any order, and every call to the card ends in any way. Where a task
waits for more than one thing, any of them that is ready may be the first.
-/

namespace Wimax

structure Runtime where
  orders : Queue Letter
  notices : Queue Notice
  reply : Slot (Except Fault Told)
  clock : Clock

structure Runtime.Lawful (rt : Runtime) : Prop where
  orders : rt.orders.Lawful
  notices : rt.notices.Lawful
  reply : rt.reply.Lawful
  clock : rt.clock.Lawful

structure System (rt : Runtime) where
  loop : Loop
  caller : Caller := .idle
  orders : rt.orders.State
  notices : rt.notices.State
  /-- The number of the last letter that was sent. Only its answer is still waited for. -/
  number : Nat := 0
  reply : rt.reply.State := rt.reply.fresh
  /-- No caller is left who could give an order. -/
  released : Bool := false
  /-- The pause of a retiring caller between two looks. -/
  lookPause : Nat

/-- What the tasks of a system do, step by step. -/
inductive Deed
  | receive (notice : Notice)
  | tick
  | publish (event : Event)
  | ask (request : Request)
  | conclude (outcome : Outcome)
  | finish (job : Job) (m : Machine) (answer : Option (Except Fault Told))
  | pass
  | take (letter : Letter)
  | leave
  | begin (call : Call)
  | send (letter : Letter)
  | refused
  | hear (answer : Except Fault Told)
  | lose
  | wake
  | expire
  | result (call : Call) (result : Except Fault Told)
  | release
  | post (notice : Notice) (result : Except Fault Unit)
  deriving DecidableEq, Repr

namespace System

variable {rt : Runtime}

def start (rt : Runtime) (settings : Settings) : System rt where
  loop := .passing (.start settings)
  orders := rt.orders.make (some settings.queueCapacity)
  notices := rt.notices.make none
  lookPause := settings.tickPause

/-- Ends the loop. It takes nothing any more, and the letters that wait are lost. -/
def shut (s : System rt) : System rt :=
  { s with
    loop := .stopped
    orders := rt.orders.close s.orders
    notices := rt.notices.close s.notices
    reply :=
      if (rt.orders.entries s.orders).any (·.number == s.number) then rt.reply.abandon s.reply
      else s.reply }

/-- Answers a letter. The caller who gave up waiting for it does not hear of it. -/
def respond (s : System rt) (l : Letter) : Option (Except Fault Told) → System rt
  | some answer =>
    if l.number = s.number then { s with reply := rt.reply.fill s.reply answer } else s
  | none => s

/-- What the loop does behind a piece of work. -/
def finish (s : System rt) (now : Nat) (m : Machine) (answer : Option (Except Fault Told)) :
    Job → System rt
  | .notice => { s with loop := .passing m }
  | .tick => { s with loop := .waiting m (now + m.pause) }
  | .order l deadline =>
    if l.order = .ask .halt then (s.respond l answer).shut
    else { s.respond l answer with loop := .waiting m deadline }

inductive LoopStep (now : Nat) (s : System rt) : Deed → System rt → Prop
  | receive {m : Machine} {n : Notice} {q : rt.notices.State} (h : s.loop = .passing m)
      (taken : rt.notices.Takes s.notices n q) :
      LoopStep now s (.receive n)
        { s with notices := q, loop := .working .notice (.quiet (m.handle n)) }
  | tick {m : Machine} (h : s.loop = .passing m) (none : rt.notices.FoundEmpty s.notices) :
      LoopStep now s .tick { s with loop := .working .tick (.quiet m.tick) }
  | publish {job : Job} {e : Event} {rest : Work} (h : s.loop = .working job (.publish e rest)) :
      LoopStep now s (.publish e) { s with loop := .working job rest }
  | ask {job : Job} {r : Request} {next : Outcome → Work}
      (h : s.loop = .working job (.ask r next)) :
      LoopStep now s (.ask r) { s with loop := .calling job r next }
  | conclude {job : Job} {r : Request} {next : Outcome → Work} (h : s.loop = .calling job r next)
      (o : Outcome) :
      LoopStep now s (.conclude o) { s with loop := .working job (next o) }
  | finish {job : Job} {m : Machine} {answer : Option (Except Fault Told)}
      (h : s.loop = .working job (.done (m, answer))) :
      LoopStep now s (.finish job m answer) (s.finish now m answer job)
  | pass {m : Machine} {deadline : Nat} (h : s.loop = .waiting m deadline)
      (due : rt.clock.IsDue now deadline) :
      LoopStep now s .pass { s with loop := .passing m }
  | take {m : Machine} {deadline : Nat} {l : Letter} {q : rt.orders.State}
      (h : s.loop = .waiting m deadline) (taken : rt.orders.Takes s.orders l q) :
      LoopStep now s (.take l)
        { s with orders := q, loop := .working (.order l deadline) (m.obey l.order) }
  | leave {m : Machine} {deadline : Nat} (h : s.loop = .waiting m deadline)
      (released : s.released = true) (none : rt.orders.FoundEmpty s.orders) :
      LoopStep now s .leave s.shut

def IsOver (s : System rt) (now : Nat) : Wait → Prop
  | .send order _ _ =>
    (∃ q, rt.orders.Puts s.orders ⟨s.number + 1, order⟩ q) ∨ rt.orders.Refuses s.orders
  | .answer _ _ => (∃ answer, rt.reply.Yields s.reply answer) ∨ rt.reply.Fails s.reply
  | .sleep moment _ => rt.clock.IsDue now moment

/-- The steps of the caller. -/
inductive CallerStep (now : Nat) (s : System rt) : Deed → System rt → Prop
  | begin (h : s.caller = .idle) (kept : s.released = false) (call : Call) :
      CallerStep now s (.begin call) { s with caller := .away call.errand }
  | send {e : Errand} {order : Order} {sent : Nat → Caller} {refused : Caller}
      {q : rt.orders.State} (h : s.caller = .away e)
      (wait : e.wait s.lookPause = .send order sent refused)
      (put : rt.orders.Puts s.orders ⟨s.number + 1, order⟩ q) :
      CallerStep now s (.send ⟨s.number + 1, order⟩)
        { s with orders := q, number := s.number + 1, reply := rt.reply.fresh, caller := sent now }
  | refused {e : Errand} {order : Order} {sent : Nat → Caller} {refused : Caller}
      (h : s.caller = .away e) (wait : e.wait s.lookPause = .send order sent refused)
      (gone : rt.orders.Refuses s.orders) :
      CallerStep now s .refused { s with caller := refused }
  | hear {e : Errand} {heard : Nat → Except Fault Told → Caller} {lost : Caller}
      {answer : Except Fault Told} (h : s.caller = .away e)
      (wait : e.wait s.lookPause = .answer heard lost)
      (yields : rt.reply.Yields s.reply answer) :
      CallerStep now s (.hear answer) { s with caller := heard now answer }
  | lose {e : Errand} {heard : Nat → Except Fault Told → Caller} {lost : Caller}
      (h : s.caller = .away e) (wait : e.wait s.lookPause = .answer heard lost)
      (fails : rt.reply.Fails s.reply) :
      CallerStep now s .lose { s with caller := lost }
  | wake {e : Errand} {moment : Nat} {woken : Caller} (h : s.caller = .away e)
      (wait : e.wait s.lookPause = .sleep moment woken) (due : rt.clock.IsDue now moment) :
      CallerStep now s .wake { s with caller := woken }
  | expire {e : Errand} {limit : Nat} {after : Caller} (h : s.caller = .away e)
      (limited : e.limit? = some (limit, after))
      (expires : rt.clock.Expires (s.IsOver now (e.wait s.lookPause)) now limit) :
      CallerStep now s .expire { s with caller := after }
  | result {call : Call} {result : Except Fault Told} (h : s.caller = .back call result) :
      CallerStep now s (.result call result) { s with caller := .idle }
  | release (h : s.caller = .idle) (kept : s.released = false) :
      CallerStep now s .release { s with released := true }

/-- A step at the time `now`: one of the loop, one of the caller or a notice that is posted. -/
inductive Step (now : Nat) (s : System rt) : Deed → System rt → Prop
  | loop {d : Deed} {t : System rt} (h : LoopStep now s d t) : Step now s d t
  | caller {d : Deed} {t : System rt} (h : CallerStep now s d t) : Step now s d t
  | post {q : rt.notices.State} (n : Notice) (put : rt.notices.Puts s.notices n q) :
      Step now s (.post n (.ok ())) { s with notices := q }
  | postRefused (n : Notice) (gone : rt.notices.Refuses s.notices) :
      Step now s (.post n (.error .loopStopped)) s

/-- The moments for which timers run. -/
def timers (s : System rt) : List Nat :=
  s.loop.deadline?.toList ++
    match s.caller with
    | .away e => e.timers s.lookPause
    | .idle | .back _ _ => []

/-- `s.Run begun history now t` when the deeds of `history`, each with its time, can lead from `s` at
the time `begun` to `t` at the time `now`. -/
inductive Run (s : System rt) (begun : Nat) : List (Nat × Deed) → Nat → System rt → Prop
  | nil : Run s begun [] begun s
  | step {history : List (Nat × Deed)} {now : Nat} {t u : System rt} {d : Deed}
      (prior : Run s begun history now t) (last : t.Step now d u) :
      Run s begun (history ++ [(now, d)]) now u
  | wait {history : List (Nat × Deed)} {now later : Nat} {t : System rt}
      (prior : Run s begun history now t) (passes : rt.clock.Passes t.timers now later) :
      Run s begun history later t

end System

end Wimax
