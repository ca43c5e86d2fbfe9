import Wimax.Proofs.Steps

/-!
Cursors over arbitrary scripts. Whatever is done to a cursor, it has no place or one in the script,
and what it says of the script is read off around that place. Strides from the beginning go through
the commands in order and give the place up at the end.
-/

namespace Wimax

/-- What can be done to a cursor. -/
inductive Move
  | pick | forward | back (steps : Nat) | clear
  deriving DecidableEq, Repr

namespace Cursor

variable {script : List Command} {c : Cursor script} {i : Nat}

/-- The cursor afterwards. A script without commands leaves nothing to pick. -/
def move (c : Cursor script) : Move → Cursor script
  | .pick => (c.pick.map (·.2)).getD c
  | .forward => c.forward.2
  | .back steps => c.back steps
  | .clear => c.clear

def moves (c : Cursor script) (ms : List Move) : Cursor script := ms.foldl move c

/-- A place of the cursor is one of the script. -/
def InScript (c : Cursor script) : Prop := ∀ i, c.position = some i → i < script.length

theorem inScript_none : (⟨none⟩ : Cursor script).InScript := nofun

theorem inScript_some (h : i < script.length) : (⟨some i⟩ : Cursor script).InScript := by
  rintro _ ⟨⟩
  exact h

theorem InScript.move (hc : c.InScript) (m : Move) : (c.move m).InScript := by
  cases m with
  | pick =>
    by_cases hs : script = []
    · rw [Cursor.move, pick_eq_none_iff.mpr hs]
      exact hc
    · obtain ⟨command, -, hpick⟩ := c.exists_pick hs
      rw [Cursor.move, hpick]
      exact inScript_some (c.place_lt hs)
  | forward =>
    simp only [Cursor.move, forward]
    split_ifs with hnext
    · exact inScript_some hnext
    · exact inScript_none
  | back steps =>
    intro i hi
    obtain ⟨j, hj, rfl⟩ := Option.map_eq_some_iff.mp hi
    exact Nat.lt_of_le_of_lt (Nat.sub_le j steps) (hc j hj)
  | clear => exact inScript_none

theorem InScript.moves (hc : c.InScript) (ms : List Move) : (c.moves ms).InScript := by
  induction ms generalizing c with
  | nil => exact hc
  | cons m ms ih => exact ih (hc.move m)

theorem InScript.place_eq (hc : c.InScript) : c.place = c.position.getD 0 := by
  rcases c with ⟨_ | i⟩
  · rfl
  · exact place_some (hc i rfl)

/-- What the cursor says at a place: the command there and those before and after it. -/
theorem InScript.neighbours (hc : c.InScript) (hi : c.position = some i) :
    ∃ before command after, script = before ++ command :: after ∧ before.length = i ∧
      c.before? = before.getLast? ∧ c.pick = some (command, c) ∧ c.after? = after.head? := by
  have hlt := hc i hi
  obtain rfl : c = ⟨some i⟩ := by
    cases c
    exact congrArg mk hi
  refine ⟨script.take i, script[i], script.drop (i + 1), ?_,
    List.length_take_of_le (Nat.le_of_lt hlt), ?_, ?_, ?_⟩
  · rw [← List.drop_eq_getElem_cons hlt, List.take_append_drop]
  · cases i with
    | zero => rfl
    | succ j =>
      have hj : j < script.length := by omega
      simp [before?, List.getLast?_take, List.getElem?_eq_getElem hj]
  · rw [pick, place_some hlt, List.getElem?_eq_getElem hlt, Option.map_some]
  · rw [after?, Option.bind_some, List.head?_drop]

/-- Picks a command and moves on: the command, and whether it was the last one. -/
def stride (c : Cursor script) : Option ((Command × Bool) × Cursor script) :=
  c.pick.map fun (command, picked) => ((command, picked.forward.1), picked.forward.2)

/-- So many strides. -/
def strides : Nat → Cursor script → Option (List (Command × Bool) × Cursor script)
  | 0, c => some ([], c)
  | k + 1, c => do
    let (taken, c) ← c.stride
    let (more, c) ← c.strides k
    return (taken :: more, c)

/-- The commands of a script, each with whether it is the last one. -/
def marked (script : List Command) : List (Command × Bool) :=
  script.mapIdx fun i command => (command, i + 1 = script.length)

theorem stride_eq (h : c.place < script.length) :
    c.stride = some ((script[c.place], decide (c.place + 1 = script.length)),
      ⟨if c.place + 1 = script.length then none else some (c.place + 1)⟩) := by
  obtain ⟨command, hcommand, hpick⟩ := c.exists_pick (List.ne_nil_of_length_pos (by omega))
  obtain rfl : script[c.place] = command :=
    Option.some.inj ((List.getElem?_eq_getElem h).symm.trans hcommand)
  simp only [stride, hpick, Option.map_some, forward_placed]
  by_cases hend : c.place + 1 = script.length
  · simp [hend]
  · have hmore : c.place + 1 < script.length := by omega
    simp [hend, hmore]

theorem drop_marked (h : i < script.length) :
    (marked script).drop i =
      (script[i], decide (i + 1 = script.length)) :: (marked script).drop (i + 1) := by
  have hi : i < (marked script).length := by rwa [marked, List.length_mapIdx]
  rw [List.drop_eq_getElem_cons hi]
  simp only [marked, List.getElem_mapIdx]

theorem strides_eq {k : Nat} (hk : c.place + (k + 1) ≤ script.length) :
    c.strides (k + 1) = some (((marked script).drop c.place).take (k + 1),
      ⟨if c.place + (k + 1) = script.length then none else some (c.place + (k + 1))⟩) := by
  induction k generalizing c with
  | zero =>
    have hlt : c.place < script.length := hk
    rw [strides, stride_eq hlt, drop_marked hlt, List.take_succ_cons]
    rfl
  | succ k ih =>
    have hlt : c.place < script.length := by omega
    -- The end is not reached yet, so the first stride leaves the cursor on the next command.
    have hnext : c.place + 1 ≠ script.length := by omega
    have hplace : (⟨some (c.place + 1)⟩ : Cursor script).place = c.place + 1 :=
      place_some (by omega)
    have hrest := ih (c := ⟨some (c.place + 1)⟩) (by omega)
    rw [hplace, Nat.add_assoc, Nat.add_comm 1 (k + 1)] at hrest
    rw [strides, stride_eq hlt, if_neg hnext, drop_marked hlt, List.take_succ_cons]
    simp only [Option.bind_eq_bind, Option.bind_some, hrest, Option.pure_def]

/-- Whatever has been done to a new cursor, it has no place or one in the script. It has a command
to run unless the script is empty, and the command is the one at the place it is then put on. The
commands before and after it are those around its place. Going back it stops at the beginning, and
without a place it stays without. From the beginning the commands are run in order, and the end is
reported and the place given up behind the last one, and not before. -/
theorem cursor_points (script : List Command) (ms : List Move) :
    let c := ({} : Cursor script).moves ms
    (c.position = none ∨ ∃ i < script.length, c.position = some i) ∧
      (c.pick = none ↔ script = []) ∧
      (∀ command picked, c.pick = some (command, picked) →
        ∃ i, picked.position = some i ∧ script[i]? = some command ∧ i = c.position.getD 0) ∧
      (c.position = none → c.before? = none ∧ c.after? = none) ∧
      (∀ i, c.position = some i → ∃ before command after,
        script = before ++ command :: after ∧ before.length = i ∧
          c.before? = before.getLast? ∧ c.pick = some (command, c) ∧ c.after? = after.head?) ∧
      (∀ steps, c.position = none → (c.back steps).position = none) ∧
      (∀ steps i, c.position = some i → ∃ j, (c.back steps).position = some j ∧
        (j + steps = i ∨ j = 0 ∧ i < steps)) ∧
      ∀ k, 0 < k → k ≤ script.length →
        c.clear.strides k = some ((marked script).take k,
          ⟨if k = script.length then none else some k⟩) := by
  intro c
  have hc : c.InScript := inScript_none.moves ms
  refine ⟨?_, pick_eq_none_iff, fun command picked hpick => ?_, fun hnone => ?_,
    fun i hi => hc.neighbours hi, fun steps hnone => ?_, fun steps i hi => ?_, fun k hk hle => ?_⟩
  · cases hp : c.position with
    | none => exact .inl rfl
    | some i => exact .inr ⟨i, hc i hp, rfl⟩
  · obtain ⟨command', hcommand, hpair⟩ := Option.map_eq_some_iff.mp hpick
    obtain ⟨rfl, rfl⟩ := Prod.mk.inj hpair
    exact ⟨c.place, rfl, hcommand, hc.place_eq⟩
  · rw [before?, after?, hnone]
    exact ⟨rfl, rfl⟩
  · rw [back, hnone]
    rfl
  · refine ⟨i - steps, by rw [back, hi]; rfl, by omega⟩
  · cases k with
    | zero => exact absurd hk (Nat.lt_irrefl 0)
    | succ k =>
      have hplace : c.clear.place = 0 := rfl
      have hstrides := strides_eq (c := c.clear) (k := k) (by omega)
      simpa only [hplace, Nat.zero_add, List.drop_zero] using hstrides

theorem cursor_points_rewound :
    let script := [Command.apiOpen, .listDevices, .deviceStatus]
    let c := ({} : Cursor script).moves [.pick, .forward, .forward, .back 5]
    c.position = some 0 ∧ c.pick = some (.apiOpen, c) ∧
      c.clear.strides 3 = some
        ([(.apiOpen, false), (.listDevices, false), (.deviceStatus, true)], ⟨none⟩) := by
  intro script c
  have ⟨_, _, _, _, hplaced, _, _, hstrides⟩ :=
    cursor_points script [.pick, .forward, .forward, .back 5]
  obtain ⟨before, command, after, hscript, hlength, -, hpick, -⟩ := hplaced 0 rfl
  obtain rfl : before = [] := List.length_eq_zero_iff.mp hlength
  obtain ⟨rfl, -⟩ := List.cons_eq_cons.mp hscript
  exact ⟨rfl, hpick, hstrides 3 (by decide) (by decide)⟩

end Cursor

end Wimax
