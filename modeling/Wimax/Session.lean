import Wimax.Bench
import Wimax.System

/-!
A session on the bench. Its runtime keeps lists for queues and a clock that goes on only while every
task waits, to the next moment that one of them waits for. The caller goes before the loop, and a
pass that is due before the orders that wait.
-/

namespace Wimax

structure ListQueue (α : Type) where
  entries : List α := []
  room : Option Nat
  isOpen : Bool := true
  deriving DecidableEq, Repr

namespace ListQueue

variable {α : Type}

def put? (q : ListQueue α) (a : α) : Option (ListQueue α) :=
  if q.isOpen && q.room.all (q.entries.length < ·) then some { q with entries := q.entries ++ [a] }
  else none

def take? (q : ListQueue α) : Option (α × ListQueue α) :=
  match q.entries with
  | [] => none
  | a :: rest => some (a, { q with entries := rest })

def close (q : ListQueue α) : ListQueue α := { q with entries := [], isOpen := false }

end ListQueue

def Queue.list (α : Type) : Queue α where
  State := ListQueue α
  make room := { room }
  entries := ListQueue.entries
  room := ListQueue.room
  IsOpen q := q.isOpen = true
  Puts q a q' := q.put? a = some q'
  Refuses q := q.isOpen = false
  Takes q a q' := q.take? = some (a, q')
  FoundEmpty q := q.take? = none
  close := ListQueue.close

inductive ReplySlot (α : Type)
  | fresh
  | filled (a : α)
  | abandoned
  deriving DecidableEq, Repr

def Slot.plain (α : Type) : Slot α where
  State := ReplySlot α
  fresh := .fresh
  fill _ a := .filled a
  abandon _ := .abandoned
  Yields s a := s = .filled a
  Fails s := s = .abandoned

/-- A clock that stands still while a task can go on. -/
def Clock.paused : Clock where
  Passes timers now later := now ≤ later ∧ ∀ moment ∈ timers, now ≤ moment → later ≤ moment
  IsDue now moment := moment ≤ now
  Expires ready now limit := ¬ ready ∧ limit ≤ now

def Runtime.bench : Runtime where
  orders := .list Letter
  notices := .list Notice
  reply := .plain (Except Fault Told)
  clock := .paused

structure Session where
  system : System .bench
  bench : Bench := {}
  limit : Option Nat
  /-- How the call under way ends, or what it hangs on. -/
  ending : Option (Outcome ⊕ Hang) := none
  /-- The deeds of the system with their times, the newest first. -/
  history : List (Nat × Deed) := []

namespace Session

def now (s : Session) : Nat := s.bench.clock

def log (s : Session) (d : Deed) (system : System .bench) : Session :=
  { s with system, history := (s.now, d) :: s.history }

def postNotice (s : Session) (n : Notice) : Except Fault Unit × Session :=
  match s.system.notices.put? n with
  | some notices => (.ok (), s.log (.post n (.ok ())) { s.system with notices })
  | none => (.error .loopStopped, s.log (.post n (.error .loopStopped)) s.system)

/-- Posts the notices that the card has given meanwhile. -/
def postDue (s : Session) : Session :=
  let (due, card) := s.bench.card.takeNotices s.now
  due.foldl (fun s n => (s.postNotice n).2) { s with bench := { s.bench with card } }

def loopStep? (s : Session) : Option Session :=
  match s.system.loop with
  | .passing m =>
    let s := s.postDue
    match s.system.notices.take? with
    | some (n, notices) =>
      some (s.log (.receive n)
        { s.system with notices, loop := .working .notice (.quiet (m.handle n)) })
    | none => some (s.log .tick { s.system with loop := .working .tick (.quiet m.tick) })
  | .working job (.publish e rest) =>
    let s := s.log (.publish e) { s.system with loop := .working job rest }
    some { s with bench := s.bench.publish e }
  | .working job (.ask r next) =>
    let (ending, bench) := s.bench.begin s.limit r
    let s := s.log (.ask r) { s.system with loop := .calling job r next }
    some { s with bench, ending := some ending }
  | .working job (.done (m, answer)) =>
    some (s.log (.finish job m answer) (s.system.finish s.now m answer job))
  | .calling job _ next =>
    match s.ending with
    | some (.inl o) => some (s.log (.conclude o) { s.system with loop := .working job (next o) })
    | some (.inr hang) =>
      if hang.wake ≤ s.now then
        let (o, bench) := s.bench.finish hang
        let s := s.log (.conclude o) { s.system with loop := .working job (next o) }
        some { s with bench }
      else none
    | none => none
  | .waiting m deadline =>
    if deadline ≤ s.now then some (s.log .pass { s.system with loop := .passing m })
    else
      match s.system.orders.take? with
      | some (l, orders) =>
        some (s.log (.take l)
          { s.system with orders, loop := .working (.order l deadline) (m.obey l.order) })
      | none => if s.system.released then some (s.log .leave s.system.shut) else none
  | .stopped => none

/-- What a wait of the caller leads to, if it is over. -/
def overStep? (s : Session) : Wait → Option Session
  | .send order sent refused =>
    if s.system.orders.isOpen then
      let l : Letter := ⟨s.system.number + 1, order⟩
      (s.system.orders.put? l).map fun orders =>
        s.log (.send l)
          { s.system with
            orders, number := s.system.number + 1, reply := .fresh, caller := sent s.now }
    else some (s.log .refused { s.system with caller := refused })
  | .answer heard lost =>
    match s.system.reply with
    | .filled answer => some (s.log (.hear answer) { s.system with caller := heard s.now answer })
    | .abandoned => some (s.log .lose { s.system with caller := lost })
    | .fresh => none
  | .sleep moment woken =>
    if moment ≤ s.now then some (s.log .wake { s.system with caller := woken }) else none

def callerStep? (s : Session) : Option Session :=
  match s.system.caller with
  | .away e =>
    match s.overStep? (e.wait s.system.lookPause) with
    | some t => some t
    | none =>
      match e.limit? with
      | some (limit, after) =>
        if limit ≤ s.now then some (s.log .expire { s.system with caller := after }) else none
      | none => none
  | .idle | .back _ _ => none

def step? (s : Session) : Option Session :=
  match s.callerStep? with
  | some t => some t
  | none => s.loopStep?

def moments (s : Session) : List Nat :=
  s.system.timers ++
    match s.system.loop, s.ending with
    | .calling .., some (.inr hang) => [hang.wake]
    | _, _ => []

/-- Lets time pass to the next moment, if there is one. An idle caller waits no longer than until
`time`. -/
def wait? (s : Session) (time : Nat) : Option Session :=
  let moments :=
    match s.system.caller with
    | .away _ => s.moments
    | .idle | .back _ _ => time :: s.moments
  match moments.min? with
  | some later =>
    if s.now < later then some { s with bench := { s.bench with clock := later } } else none
  | none => none

/-- Lets the tasks go on, with at most so many steps, until they wait and the caller, who is idle
then, has waited until `time`. -/
def run (time : Nat) : (steps : Nat) → Session → Session
  | 0, s => s
  | steps + 1, s =>
    match s.step? with
    | some t => run time steps t
    | none =>
      match s.wait? time with
      | some t => run time steps t
      | none => s

/-- More steps than the tasks of a session take between two operations, unless a loop that makes no
pauses goes on for ever. -/
def patience : Nat := 1000000000

def runUntil (s : Session) (time : Nat) : Session := s.run time patience

end Session

end Wimax
