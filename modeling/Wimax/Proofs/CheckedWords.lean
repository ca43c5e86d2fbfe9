import Mathlib.Algebra.Group.Int.Defs
import Mathlib.Algebra.Group.Nat.Defs

/-!
Arithmetic on machine words that stops where a word would not hold the exact result. A computation
that goes through with every operation checked does without wrapping, without a division by zero
and without shifting by more than the width of the word.
-/

namespace Wimax.Checked

section Unsigned

variable {a b c : UInt32}

def add (a b : UInt32) : Option UInt32 :=
  if a.toNat + b.toNat < 2 ^ 32 then some (a + b) else none

theorem add_eq_some_iff : add a b = some c ↔ c.toNat = a.toNat + b.toNat := by
  have hc := c.toNat_lt
  simp only [add, Option.ite_none_right_eq_some, Option.some.injEq, ← UInt32.toNat_inj,
    UInt32.toNat_add]
  omega

/-- The difference of two unsigned words of one width. -/
def sub {W : Type} [Sub W] [LE W] [DecidableLE W] (a b : W) : Option W :=
  if b ≤ a then some (a - b) else none

theorem sub_eq_some_iff : sub a b = some c ↔ c.toNat + b.toNat = a.toNat := by
  have ha := a.toNat_lt
  have hb := b.toNat_lt
  simp only [sub, Option.ite_none_right_eq_some, Option.some.injEq, ← UInt32.toNat_inj,
    UInt32.toNat_sub, UInt32.le_iff_toNat_le]
  omega

theorem sub_eq_some_iff_wide {a b c : UInt64} :
    sub a b = some c ↔ c.toNat + b.toNat = a.toNat := by
  have ha := a.toNat_lt
  have hb := b.toNat_lt
  simp only [sub, Option.ite_none_right_eq_some, Option.some.injEq, ← UInt64.toNat_inj,
    UInt64.toNat_sub, UInt64.le_iff_toNat_le]
  omega

def div (a b : UInt32) : Option UInt32 := if b ≠ 0 then some (a / b) else none

theorem div_eq_some_iff : div a b = some c ↔ 0 < b.toNat ∧ c.toNat = a.toNat / b.toNat := by
  simp only [div, Option.ite_none_right_eq_some, Option.some.injEq, ← UInt32.toNat_inj,
    UInt32.toNat_div, ne_eq, UInt32.toNat_zero]
  omega

end Unsigned

section Signed

variable {a b c : Int32} {w : UInt32}

/-- The difference of two signed words. -/
def signedSub (a b : Int32) : Option Int32 :=
  if -2 ^ 31 ≤ a.toInt - b.toInt ∧ a.toInt - b.toInt < 2 ^ 31 then some (a - b) else none

theorem signedSub_eq_some_iff : signedSub a b = some c ↔ c.toInt = a.toInt - b.toInt := by
  have hlow := c.le_toInt
  have hhigh := c.toInt_lt
  simp only [signedSub, Option.ite_none_right_eq_some, Option.some.injEq, ← Int32.toInt_inj,
    Int32.toInt_sub]
  constructor
  · rintro ⟨hfits, hc⟩
    rw [← hc, Int.bmod_eq_of_le] <;> omega
  · intro hc
    rw [Int.bmod_eq_of_le] <;> omega

/-- A signed word read as an unsigned one of the same value. -/
def unsigned (a : Int32) : Option UInt32 := if 0 ≤ a then some a.toUInt32 else none

theorem unsigned_eq_some_iff : unsigned a = some w ↔ (w.toNat : Int) = a.toInt := by
  have hvalue : 0 ≤ a.toInt → (a.toUInt32.toNat : Int) = a.toInt := fun h => by
    rw [Int32.toNat_toUInt32_of_le (Int32.le_iff_toInt_le.mpr h)]
    exact Int.toNat_of_nonneg h
  simp only [unsigned, Option.ite_none_right_eq_some, Option.some.injEq, ← UInt32.toNat_inj,
    Int32.le_iff_toInt_le, Int32.toInt_zero]
  omega

end Signed

section Shifts

variable {a c : UInt64} {s : UInt32}

/-- Shifts to the left. Bits may leave the word on that side. -/
def shiftLeft (a : UInt64) (s : UInt32) : Option UInt64 :=
  if s.toNat < 64 then some (a <<< s.toUInt64) else none

theorem shiftLeft_eq_some_iff :
    shiftLeft a s = some c ↔ s.toNat < 64 ∧ c.toNat = a.toNat * 2 ^ s.toNat % 2 ^ 64 := by
  simp only [shiftLeft, Option.ite_none_right_eq_some, Option.some.injEq, ← UInt64.toNat_inj,
    UInt64.toNat_shiftLeft, UInt32.toNat_toUInt64, Nat.shiftLeft_eq]
  refine and_congr_right fun hs => ?_
  rw [Nat.mod_eq_of_lt hs, eq_comm]

def shiftRight (a : UInt64) (s : UInt32) : Option UInt64 :=
  if s.toNat < 64 then some (a >>> s.toUInt64) else none

theorem shiftRight_eq_some_iff :
    shiftRight a s = some c ↔ s.toNat < 64 ∧ c.toNat = a.toNat / 2 ^ s.toNat := by
  simp only [shiftRight, Option.ite_none_right_eq_some, Option.some.injEq, ← UInt64.toNat_inj,
    UInt64.toNat_shiftRight, UInt32.toNat_toUInt64, Nat.shiftRight_eq_div_pow]
  refine and_congr_right fun hs => ?_
  rw [Nat.mod_eq_of_lt hs, eq_comm]

end Shifts

end Wimax.Checked
