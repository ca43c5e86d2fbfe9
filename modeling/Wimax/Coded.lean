/-!
Enumerations whose members are numbered from zero in a fixed order. `Coded.ofCode?` is the only
reader of such numbers: it accepts exactly the codes of the members.
-/

namespace Wimax

/-- A finite enumeration whose member number `i` carries the code `i`. -/
class Coded (α : Type) where
  all : List α
  code : α → Nat
  all_code : ∀ a, all[code a]? = some a

namespace Coded

variable {α : Type} [Coded α]

def ofCode? (α : Type) [Coded α] (n : Int) : Option α :=
  if 0 ≤ n then (all : List α)[n.toNat]? else none

@[simp]
theorem ofCode?_code (a : α) : ofCode? α (code a : Int) = some a := by
  simp [ofCode?, all_code]

end Coded

end Wimax
