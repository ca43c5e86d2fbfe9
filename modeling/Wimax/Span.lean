/-!
Spans of time and their exact text: the largest unit of which there is at least one whole, and a
decimal fraction without trailing zeros.
-/

namespace Wimax

structure Span where
  nanos : Nat
  deriving DecidableEq, Repr

namespace Span

def ofMillis (n : Nat) : Span := ⟨n * 1000000⟩

def ofSeconds (seconds nanos : Nat) : Span := ⟨seconds * 1000000000 + nanos⟩

/-- A unit of time: its sign, and the number of decimal places that reach down to nanoseconds. -/
structure Scale where
  sign : String
  places : Nat
  deriving DecidableEq, Repr

/-- The unit in which a span is written. -/
def scale (s : Span) : Scale :=
  if 1000000000 ≤ s.nanos then ⟨"s", 9⟩
  else if 1000000 ≤ s.nanos then ⟨"ms", 6⟩
  else if 1000 ≤ s.nanos then ⟨"µs", 3⟩
  else ⟨"ns", 0⟩

/-- The last `places` decimal digits of `n`, the most significant first. -/
def digits : (places : Nat) → (n : Nat) → List Char
  | 0, _ => []
  | places + 1, n => digits places (n / 10) ++ [Char.ofNat (48 + n % 10)]

def dropTrailingZeros (ds : List Char) : List Char :=
  (ds.reverse.dropWhile (· == '0')).reverse

def text (s : Span) : String :=
  let unit := Nat.pow 10 s.scale.places
  let fraction := dropTrailingZeros (digits s.scale.places (s.nanos % unit))
  let tail := if fraction.isEmpty then "" else "." ++ String.ofList fraction
  toString (s.nanos / unit) ++ tail ++ s.scale.sign

end Span

end Wimax
