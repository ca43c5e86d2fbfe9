/-!
The asynchronous runtime under a session, of which only the rules are known: queues between tasks,
slots for single answers and timers. A runtime says which steps it lets its tasks take; the rules of
a lawful one are those that a task may count on.
-/

namespace Wimax

/-- A queue into which many may put and from which a single taker takes. -/
structure Queue (α : Type) where
  State : Type
  /-- A new queue for so many entries; `none` sets no bound. -/
  make (room : Option Nat) : State
  /-- The entries that wait, the oldest first. -/
  entries : State → List α
  room : State → Option Nat
  /-- The taker has not gone away. -/
  IsOpen : State → Prop
  Puts : State → α → State → Prop
  /-- To put something into the queue fails. -/
  Refuses : State → Prop
  Takes : State → α → State → Prop
  /-- The taker finds nothing. -/
  FoundEmpty : State → Prop
  /-- The taker goes away. -/
  close : State → State

namespace Queue

variable {α : Type}

structure Lawful (Q : Queue α) : Prop where
  isOpen_make (room : Option Nat) : Q.IsOpen (Q.make room)
  entries_make (room : Option Nat) : Q.entries (Q.make room) = []
  room_make (room : Option Nat) : Q.room (Q.make room) = room
  /-- An entry that is put into a queue goes behind those that wait. -/
  of_puts {q q' : Q.State} {a : α} (h : Q.Puts q a q') :
    Q.IsOpen q ∧ Q.IsOpen q' ∧ Q.entries q' = Q.entries q ++ [a] ∧ Q.room q' = Q.room q
  exists_puts {q : Q.State} (hopen : Q.IsOpen q)
    (hroom : ∀ room, Q.room q = some room → (Q.entries q).length < room) (a : α) :
    ∃ q', Q.Puts q a q'
  /-- A queue refuses entries if and only if its taker has gone away. -/
  refuses_iff {q : Q.State} : Q.Refuses q ↔ ¬ Q.IsOpen q
  /-- The oldest entry is taken. -/
  of_takes {q q' : Q.State} {a : α} (h : Q.Takes q a q') :
    Q.entries q = a :: Q.entries q' ∧ (Q.IsOpen q' ↔ Q.IsOpen q) ∧ Q.room q' = Q.room q
  exists_takes {q : Q.State} {a : α} {rest : List α} (h : Q.entries q = a :: rest) :
    ∃ q', Q.Takes q a q'
  foundEmpty_iff {q : Q.State} : Q.FoundEmpty q ↔ Q.entries q = []
  not_isOpen_close (q : Q.State) : ¬ Q.IsOpen (Q.close q)
  /-- What waits in a queue is lost with the taker. -/
  entries_close (q : Q.State) : Q.entries (Q.close q) = []
  room_close (q : Q.State) : Q.room (Q.close q) = Q.room q

end Queue

/-- A slot that one task fills at most once for another that waits for it. -/
structure Slot (α : Type) where
  State : Type
  fresh : State
  fill : State → α → State
  /-- The task that should fill the slot goes away. -/
  abandon : State → State
  Yields : State → α → Prop
  /-- To wait for the slot fails. -/
  Fails : State → Prop

namespace Slot

variable {α : Type}

structure Lawful (S : Slot α) : Prop where
  not_yields_fresh (a : α) : ¬ S.Yields S.fresh a
  not_fails_fresh : ¬ S.Fails S.fresh
  yields_fill_iff {a b : α} : S.Yields (S.fill S.fresh a) b ↔ b = a
  not_fails_fill (a : α) : ¬ S.Fails (S.fill S.fresh a)
  not_yields_abandon (a : α) : ¬ S.Yields (S.abandon S.fresh) a
  fails_abandon : S.Fails (S.abandon S.fresh)

end Slot

/-- The passing of time and the timers that wait for a moment. -/
structure Clock where
  /-- Time may go on from one moment to another while timers run for the given moments. -/
  Passes (timers : List Nat) (now later : Nat) : Prop
  /-- A timer that was set for a moment has run out. -/
  IsDue (now moment : Nat) : Prop
  /-- A time limit cuts off a wait for what may be ready or not. -/
  Expires (ready : Prop) (now limit : Nat) : Prop

namespace Clock

structure Lawful (C : Clock) : Prop where
  le_of_passes {timers : List Nat} {now later : Nat} (h : C.Passes timers now later) : now ≤ later
  /-- No timer runs out early. -/
  le_of_isDue {now moment : Nat} (h : C.IsDue now moment) : moment ≤ now
  /-- Time goes on until a timer runs out. -/
  exists_passes {timers : List Nat} (h : timers ≠ []) (now : Nat) :
    ∃ moment ∈ timers, ∃ later, C.Passes timers now later ∧ C.IsDue later moment
  /-- What is ready comes before the time limit. -/
  expires_iff {ready : Prop} {now limit : Nat} :
    C.Expires ready now limit ↔ ¬ ready ∧ C.IsDue now limit

/-- Time does not go past a moment before the task that waits for it has gone on. -/
def Punctual (C : Clock) : Prop :=
  ∀ timers now later, C.Passes timers now later → ∀ moment ∈ timers, now ≤ moment → later ≤ moment

end Clock

end Wimax
