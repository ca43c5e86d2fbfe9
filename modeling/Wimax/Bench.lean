import Wimax.Card
import Wimax.Dialog

/-!
A card on a bench with a clock. Time is counted in milliseconds and passes only while a call hangs;
a call that hangs longer than the time limit ends there without an answer.
-/

namespace Wimax

structure Bench where
  card : Card := {}
  clock : Nat := 0
  /-- The published events with their times, the newest first. -/
  published : List (Nat × Event) := []
  deriving DecidableEq, Repr

/-- A call that hangs until `wake`, where it ends by itself unless it has expired. -/
structure Hang where
  command : Command
  wake : Nat
  expires : Bool
  ending : Ending
  deriving DecidableEq, Repr

namespace Bench

/-- The call that hangs for `millis` from the time `now` on under a time limit. -/
def hang (now : Nat) (limit : Option Nat) (c : Command) (millis : Nat) (ending : Ending) : Hang :=
  match limit with
  | some n =>
    if n < millis then ⟨c, now + n, true, ending⟩ else ⟨c, now + millis, false, ending⟩
  | none => ⟨c, now + millis, false, ending⟩

/-- Puts a request to the card: the call ends at once or hangs. -/
def begin (b : Bench) (limit : Option Nat) (r : Request) : (Outcome ⊕ Hang) × Bench :=
  let (start, card) := b.card.begin r
  let b := { b with card }
  match start with
  | .ended o => (.inl o, b)
  | .hangs n ending => (.inr (hang b.clock limit r.command n ending), b)

def finish (b : Bench) (h : Hang) : Outcome × Bench :=
  let b := { b with clock := max b.clock h.wake }
  if h.expires then (.timedOut, b)
  else let (o, card) := b.card.conclude h.command h.ending; (o, { b with card })

theorem clock_begin (b : Bench) (limit : Option Nat) (r : Request) :
    (b.begin limit r).2.clock = b.clock := by
  unfold begin
  dsimp only
  split <;> rfl

theorem clock_finish (b : Bench) (h : Hang) : (b.finish h).2.clock = max b.clock h.wake := by
  unfold finish
  dsimp only
  split <;> rfl

def publish (b : Bench) (e : Event) : Bench :=
  { b with published := (b.clock, e) :: b.published }

def world (limit : Option Nat) : World Bench where
  answer b r :=
    match b.begin limit r with
    | (.inl o, b) => (o, b)
    | (.inr h, b) => b.finish h
  publish := publish

def takePublished (b : Bench) : List (Nat × Event) × Bench :=
  (b.published.reverse, { b with published := [] })

end Bench

namespace Dialog

def onBench {α : Type} (d : Dialog α) (limit : Option Nat) (b : Bench) : α × Bench :=
  d.run (Bench.world limit) b

end Dialog

end Wimax
