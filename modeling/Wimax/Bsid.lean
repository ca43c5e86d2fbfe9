/-!
Base station identifiers: 48 bits, written as six hexadecimal pairs or, in the layout of a vendor,
as decimal fields of given widths.
-/

namespace Wimax

/-- Six bytes, the most significant first. -/
structure Bsid where
  bytes : Vector UInt8 6
  deriving DecidableEq, Repr

namespace Bsid

def toNat (b : Bsid) : Nat := b.bytes.toList.foldl (fun n byte => n * 256 + byte.toNat) 0

def hexDigit (n : Nat) : Char :=
  if n < 10 then Char.ofNat (48 + n) else Char.ofNat (55 + n)

def hexByte (byte : UInt8) : String :=
  String.ofList [hexDigit (byte.toNat / 16), hexDigit (byte.toNat % 16)]

/-- The usual notation, such as `00:1A:2B:3C:4D:5E`. -/
def text (b : Bsid) : String := ":".intercalate (b.bytes.toList.map hexByte)

/-- Cuts the low `bits` bits of `n` into fields of the given widths, the highest field first. -/
def fields (n : Nat) : (bits : Nat) → (widths : List Nat) → List Nat
  | _, [] => []
  | bits, w :: ws => n / Nat.pow 2 (bits - w) % Nat.pow 2 w :: fields n (bits - w) ws

/-- Widths are usable when none is zero and together they cover all 48 bits. -/
def Covers (widths : List Nat) : Prop := 0 ∉ widths ∧ widths.foldr (· + ·) 0 = 48

instance (widths : List Nat) : Decidable (Covers widths) :=
  inferInstanceAs (Decidable (_ ∧ _))

/-- The decimal fields joined by dots, for widths that cover the identifier. -/
def dotted? (b : Bsid) (widths : List Nat) : Option String :=
  if Covers widths then some (".".intercalate ((fields b.toNat 48 widths).map toString))
  else none

theorem dotted?_eq_none_iff {b : Bsid} {widths : List Nat} :
    b.dotted? widths = none ↔ ¬Covers widths := by
  simp [dotted?]

theorem length_fields (n bits : Nat) (widths : List Nat) :
    (fields n bits widths).length = widths.length := by
  induction widths generalizing bits with
  | nil => rfl
  | cons w ws ih => simp [fields, ih]

end Bsid

/-- A vendor's way of cutting an identifier into fields. -/
inductive Vendor
  | samsung | motorola | nokia
  deriving DecidableEq, Repr

namespace Vendor

/-- Field widths in bits, the highest field first. -/
def fieldWidths : Vendor → List Nat
  | samsung | motorola => [24, 1, 2, 5, 4, 10, 2]
  | nokia => [24, 1, 2, 8, 10, 3]

theorem covers_fieldWidths (l : Vendor) : Bsid.Covers l.fieldWidths := by
  cases l <;> decide

end Vendor

def Bsid.dotted (b : Bsid) (l : Vendor) : String :=
  ".".intercalate ((Bsid.fields b.toNat 48 l.fieldWidths).map toString)

theorem Bsid.dotted?_fieldWidths (b : Bsid) (l : Vendor) :
    b.dotted? l.fieldWidths = some (b.dotted l) := by
  simp [dotted?, l.covers_fieldWidths, dotted]

end Wimax
