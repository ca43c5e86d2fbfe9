import Wimax.Command

/-! A place in a script of commands. Without a place the script has not been started. -/

namespace Wimax

structure Cursor (script : List Command) where
  position : Option Nat := none
  deriving DecidableEq, Repr

namespace Cursor

variable {script : List Command}

def place (c : Cursor script) : Nat :=
  match c.position with
  | some i => if i < script.length then i else 0
  | none => 0

/-- The command to run next, with the cursor placed on it. An empty script has none. -/
def pick (c : Cursor script) : Option (Command × Cursor script) :=
  script[c.place]?.map fun command => (command, ⟨some c.place⟩)

theorem place_lt (c : Cursor script) (h : script ≠ []) : c.place < script.length := by
  have := List.length_pos_iff.mpr h
  unfold place
  split
  · split <;> omega
  · exact this

theorem pick_eq_none_iff {c : Cursor script} : c.pick = none ↔ script = [] := by
  constructor
  · intro h
    by_cases hs : script = []
    · exact hs
    · simp [pick, List.getElem?_eq_getElem (c.place_lt hs)] at h
  · rintro rfl
    simp [pick]

def before? (c : Cursor script) : Option Command :=
  match c.position with
  | some (i + 1) => script[i]?
  | _ => none

def after? (c : Cursor script) : Option Command :=
  c.position.bind fun i => script[i + 1]?

def nextPlace (c : Cursor script) : Nat :=
  match c.position with
  | some i => i + 1
  | none => 0

/-- Moves on. At the end of the script the answer is `true` and the place is given up. -/
def forward (c : Cursor script) : Bool × Cursor script :=
  if c.nextPlace < script.length then (false, ⟨some c.nextPlace⟩) else (true, ⟨none⟩)

/-- Moves back, but not before the beginning. -/
def back (c : Cursor script) (steps : Nat) : Cursor script :=
  ⟨c.position.map (· - steps)⟩

def clear (_ : Cursor script) : Cursor script := ⟨none⟩

end Cursor

end Wimax
