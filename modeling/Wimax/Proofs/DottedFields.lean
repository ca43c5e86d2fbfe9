import Mathlib.Data.List.Induction
import Mathlib.Data.Nat.Digits.Defs
import Mathlib.Tactic.IntervalCases
import Std.Data.String.ToNat
import Wimax.Bsid
import Wimax.Proofs.CheckedWords

/-!
The dotted form of an identifier keeps all of its bits. The fields are put together again at their
widths, the numerals between the dots are read back, and the six bytes come out of the number. The
computation in machine words makes the same fields.
-/

namespace Wimax.Bsid

section Bytes

variable {bytes : List UInt8}

/-- The number that bytes write, the most significant first. -/
def valueOf (bytes : List UInt8) : Nat := bytes.foldl (fun n byte => n * 256 + byte.toNat) 0

theorem valueOf_snoc (bytes : List UInt8) (byte : UInt8) :
    valueOf (bytes ++ [byte]) = valueOf bytes * 256 + byte.toNat := by
  simp [valueOf]

theorem valueOf_eq_ofDigits (bytes : List UInt8) :
    valueOf bytes = Nat.ofDigits 256 (bytes.reverse.map UInt8.toNat) := by
  induction bytes using List.reverseRecOn with
  | nil => rfl
  | append_singleton bytes byte ih =>
    rw [valueOf_snoc, ih, List.reverse_append, List.reverse_singleton, List.singleton_append,
      List.map_cons, Nat.ofDigits_cons]
    omega

theorem valueOf_lt (bytes : List UInt8) : valueOf bytes < 256 ^ bytes.length := by
  induction bytes using List.reverseRecOn with
  | nil => decide
  | append_singleton bytes byte ih =>
    have hbyte := byte.toNat_lt
    rw [valueOf_snoc, List.length_append, List.length_singleton, Nat.pow_succ]
    omega

theorem toNat_getElem (bytes : List UInt8) {i : Nat} (hi : i < bytes.length) :
    bytes[i].toNat = valueOf bytes / 256 ^ (bytes.length - 1 - i) % 256 := by
  induction bytes using List.reverseRecOn with
  | nil => simp at hi
  | append_singleton bytes byte ih =>
    have hbyte := byte.toNat_lt
    rw [valueOf_snoc]
    -- The last byte is the lowest digit, and those before it are the digits of the quotient.
    by_cases hlast : i < bytes.length
    · have hexp : (bytes ++ [byte]).length - 1 - i = (bytes.length - 1 - i) + 1 := by
        rw [List.length_append, List.length_singleton]
        omega
      rw [List.getElem_append_left hlast, ih hlast, hexp, Nat.pow_succ', ← Nat.div_div_eq_div_mul]
      congr 2
      omega
    · obtain rfl : i = bytes.length := by
        rw [List.length_append, List.length_singleton] at hi
        omega
      simp [Nat.mod_eq_of_lt hbyte]

/-- The number made in a machine word. -/
def wordOf (bytes : List UInt8) : UInt64 :=
  bytes.foldl (fun n byte => n <<< 8 ||| byte.toUInt64) 0

theorem toNat_wordOf (h : bytes.length ≤ 8) : (wordOf bytes).toNat = valueOf bytes := by
  induction bytes using List.reverseRecOn with
  | nil => rfl
  | append_singleton bytes byte ih =>
    rw [List.length_append, List.length_singleton] at h
    have ih := ih (by omega)
    have hbyte : byte.toNat < 2 ^ 8 := byte.toNat_lt
    have hvalue : valueOf bytes < 2 ^ 56 :=
      (valueOf_lt bytes).trans_le (Nat.pow_le_pow_right (by decide) (by omega : bytes.length ≤ 7))
    have hfits : (wordOf bytes).toNat <<< 8 < 2 ^ 64 := by
      rw [ih, Nat.shiftLeft_eq]
      omega
    calc (wordOf (bytes ++ [byte])).toNat
        = (wordOf bytes <<< 8 ||| byte.toUInt64).toNat := by simp [wordOf]
      _ = (wordOf bytes).toNat <<< 8 % 2 ^ 64 ||| byte.toNat := by
          rw [UInt64.toNat_or, UInt64.toNat_shiftLeft, UInt8.toNat_toUInt64]
          rfl
      _ = valueOf bytes * 256 + byte.toNat := by
          rw [Nat.mod_eq_of_lt hfits, ← Nat.shiftLeft_add_eq_or_of_lt hbyte, ih, Nat.shiftLeft_eq]
      _ = valueOf (bytes ++ [byte]) := (valueOf_snoc bytes byte).symm

end Bytes

section Fields

variable {n bits : Nat} {widths : List Nat}

/-- Fields put together at their widths, the highest one first. -/
def joined : (widths fields : List Nat) → Nat
  | _ :: ws, f :: fs => f * 2 ^ ws.sum + joined ws fs
  | _, _ => 0

theorem forall₂_fields (n bits : Nat) (widths : List Nat) :
    List.Forall₂ (fun f w => f < 2 ^ w) (fields n bits widths) widths := by
  induction widths generalizing bits with
  | nil => exact .nil
  | cons w ws ih => exact .cons (Nat.mod_lt _ (Nat.two_pow_pos w)) (ih (bits - w))

/-- Fields of widths that add up to `bits` hold the low `bits` bits. -/
theorem joined_fields (n : Nat) (widths : List Nat) :
    joined widths (fields n widths.sum widths) = n % 2 ^ widths.sum := by
  induction widths with
  | nil => exact (Nat.mod_one n).symm
  | cons w ws ih =>
    have hrest : (w :: ws).sum - w = ws.sum := by
      rw [List.sum_cons]
      omega
    calc joined (w :: ws) (fields n (w :: ws).sum (w :: ws))
        = n / 2 ^ ws.sum % 2 ^ w * 2 ^ ws.sum + joined ws (fields n ws.sum ws) := by
          rw [fields, joined, hrest]
          rfl
      _ = n / 2 ^ ws.sum % 2 ^ w * 2 ^ ws.sum + n % 2 ^ ws.sum := by rw [ih]
      _ = n % 2 ^ (w :: ws).sum := by
          rw [List.sum_cons, Nat.add_comm w, Nat.pow_add, Nat.mod_mul]
          ring

end Fields

section Reading

/-- The numbers between the dots. -/
def numerals? (s : String) : Option (List Nat) :=
  ((s.split '.').toList.map (·.copy)).mapM String.toNat?

theorem mapM_toNat?_toString (ns : List Nat) : (ns.map toString).mapM String.toNat? = some ns := by
  induction ns with
  | nil => rfl
  | cons n ns ih =>
    rw [List.map_cons, List.mapM_cons, ih]
    simp [Nat.toString_eq_repr]

theorem not_mem_toList_toString (n : Nat) : '.' ∉ (toString n).toList := by
  intro hdot
  rw [Nat.toString_eq_repr, Nat.toList_repr] at hdot
  exact absurd (Nat.isDigit_of_mem_toDigits (by decide) (by decide) hdot) (by decide)

theorem numerals?_intercalate {ns : List Nat} (h : ns ≠ []) :
    numerals? (".".intercalate (ns.map toString)) = some ns := by
  have hdots : ∀ s ∈ ns.map toString, '.' ∉ s.toList := by
    intro s hs
    obtain ⟨n, -, rfl⟩ := List.mem_map.mp hs
    exact not_mem_toList_toString n
  have hsplit := String.toList_split_intercalate hdots
  rw [if_neg (by simpa using h), show String.singleton '.' = "." from rfl] at hsplit
  rw [numerals?, hsplit, mapM_toNat?_toString]

/-- The identifier of that number. -/
def ofNat (n : Nat) : Bsid := ⟨.ofFn fun i => .ofNat (n / 256 ^ (5 - i.val))⟩

theorem ofNat_toNat (b : Bsid) : ofNat b.toNat = b := by
  obtain ⟨bytes⟩ := b
  refine congrArg Bsid.mk (Vector.ext fun i hi => UInt8.toNat_inj.mp ?_)
  have hbyte := toNat_getElem bytes.toList (i := i) (by simpa using hi)
  simp only [Vector.getElem_toList, Vector.length_toList] at hbyte
  rw [Vector.getElem_ofFn, UInt8.toNat_ofNat', hbyte]
  rfl

theorem toNat_lt (b : Bsid) : b.toNat < 2 ^ 48 := by
  have hlt := valueOf_lt b.bytes.toList
  rw [Vector.length_toList] at hlt
  exact hlt

/-- Reads the dotted form with fields of the given widths. -/
def readDotted? (widths : List Nat) (s : String) : Option Bsid :=
  (numerals? s).map fun fields => ofNat (joined widths fields)

variable {b : Bsid} {widths : List Nat} {s : String}

theorem Covers.joined_fields (h : Covers widths) (b : Bsid) :
    joined widths (fields b.toNat 48 widths) = b.toNat := by
  have hsum : widths.sum = 48 := h.2
  rw [← hsum, Bsid.joined_fields, hsum, Nat.mod_eq_of_lt b.toNat_lt]

theorem Covers.ne_nil (h : Covers widths) : widths ≠ [] := by
  rintro rfl
  exact absurd h.2 (by decide)

theorem readDotted?_of_dotted? (h : b.dotted? widths = some s) : readDotted? widths s = some b := by
  obtain ⟨hcovers, hs⟩ := Option.ite_none_right_eq_some.mp h
  obtain rfl := Option.some.inj hs
  have hfields : fields b.toNat 48 widths ≠ [] := by
    rw [← List.length_pos_iff, length_fields]
    exact List.length_pos_iff.mpr hcovers.ne_nil
  rw [readDotted?, numerals?_intercalate hfields, Option.map_some, hcovers.joined_fields,
    ofNat_toNat]

theorem eq_of_dotted? {other : Bsid} (h : b.dotted? widths = some s)
    (hother : other.dotted? widths = some s) : other = b := by
  have hread := readDotted?_of_dotted? hother
  rw [readDotted?_of_dotted? h] at hread
  exact (Option.some.inj hread).symm

end Reading

section Words

/-- The number of the identifier in a machine word. -/
def word (b : Bsid) : UInt64 := wordOf b.bytes.toList

theorem toNat_word (b : Bsid) : b.word.toNat = b.toNat := by
  rw [word, toNat_wordOf (by simp)]
  rfl

/-- The word whose lowest bits are set. -/
def checkedMask (w : UInt32) : Option UInt64 := do
  Checked.sub (← Checked.shiftLeft 1 w) 1

/-- `fields` in machine words with every operation checked. -/
def checkedFields (value : UInt64) : (remaining : UInt32) → List UInt32 → Option (List UInt64)
  | _, [] => some []
  | remaining, w :: ws => do
    let rest ← Checked.sub remaining w
    let mask ← checkedMask w
    let high ← Checked.shiftRight value rest
    return (high &&& mask) :: (← checkedFields value rest ws)

/-- `dotted?` in machine words with every operation checked. -/
def checkedDotted? (b : Bsid) (widths : List UInt32) : Option (Option String) :=
  if 0 ∈ widths then some none
  else do
    if (← widths.foldlM Checked.add 0) ≠ 48 then return none
    let fields ← checkedFields b.word 48 widths
    return some (".".intercalate (fields.map toString))

theorem foldlM_add (start : UInt32) (widths : List UInt32)
    (h : start.toNat + (widths.map UInt32.toNat).sum < 2 ^ 32) :
    ∃ total, widths.foldlM Checked.add start = some total ∧
      total.toNat = start.toNat + (widths.map UInt32.toNat).sum := by
  induction widths generalizing start with
  | nil => exact ⟨start, rfl, rfl⟩
  | cons w ws ih =>
    rw [List.map_cons, List.sum_cons] at h ⊢
    have hnext : (start + w).toNat = start.toNat + w.toNat := by
      rw [UInt32.toNat_add]
      omega
    obtain ⟨total, hfold, htotal⟩ := ih (start + w) (by omega)
    refine ⟨total, ?_, by omega⟩
    rw [List.foldlM_cons, Checked.add_eq_some_iff.mpr hnext]
    exact hfold

theorem checkedMask_eq (w : UInt32) (hw : w.toNat < 64) :
    ∃ mask, checkedMask w = some mask ∧ mask.toNat = 2 ^ w.toNat - 1 := by
  have hlt : 2 ^ w.toNat < 2 ^ 64 := Nat.pow_lt_pow_right (by decide) hw
  have hpos : 0 < 2 ^ w.toNat := Nat.two_pow_pos _
  have hbit : Checked.shiftLeft 1 w = some (.ofNat (2 ^ w.toNat)) := by
    rw [Checked.shiftLeft_eq_some_iff, UInt64.toNat_ofNat', UInt64.toNat_one, Nat.one_mul]
    exact ⟨hw, rfl⟩
  have hmask : Checked.sub (UInt64.ofNat (2 ^ w.toNat)) 1 = some (.ofNat (2 ^ w.toNat - 1)) := by
    rw [Checked.sub_eq_some_iff_wide, UInt64.toNat_ofNat', UInt64.toNat_ofNat', UInt64.toNat_one]
    omega
  refine ⟨.ofNat (2 ^ w.toNat - 1), ?_, ?_⟩
  · rw [checkedMask, hbit]
    exact hmask
  · rw [UInt64.toNat_ofNat', Nat.mod_eq_of_lt (by omega)]

/-- As long as the widths do not ask for more bits than remain, every operation has a result, and
the words are the fields. -/
theorem checkedFields_eq (value : UInt64) (remaining : UInt32) (widths : List UInt32)
    (hlt : remaining.toNat < 64) (hfit : (widths.map UInt32.toNat).sum ≤ remaining.toNat) :
    ∃ vs, checkedFields value remaining widths = some vs ∧
      vs.map UInt64.toNat = fields value.toNat remaining.toNat (widths.map UInt32.toNat) := by
  induction widths generalizing remaining with
  | nil => exact ⟨[], rfl, rfl⟩
  | cons w ws ih =>
    rw [List.map_cons, List.sum_cons] at hfit
    have hrest : (remaining - w).toNat = remaining.toNat - w.toNat :=
      UInt32.toNat_sub_of_le _ _ (UInt32.le_iff_toNat_le.mpr (by omega))
    have hsub : Checked.sub remaining w = some (remaining - w) :=
      Checked.sub_eq_some_iff.mpr (by omega)
    obtain ⟨mask, hmask, hmaskValue⟩ := checkedMask_eq w (by omega)
    have hshift : Checked.shiftRight value (remaining - w) =
        some (value >>> (remaining - w).toUInt64) := if_pos (by omega)
    obtain ⟨-, hhigh⟩ := Checked.shiftRight_eq_some_iff.mp hshift
    obtain ⟨vs, hvs, hvalues⟩ := ih (remaining - w) (by omega) (by omega)
    refine ⟨(value >>> (remaining - w).toUInt64 &&& mask) :: vs, ?_, ?_⟩
    · simp only [checkedFields, hsub, hmask, hshift, hvs, Option.bind_eq_bind, Option.bind_some,
        Option.pure_def]
    · rw [List.map_cons, List.map_cons, fields, hvalues, UInt64.toNat_and, hmaskValue, hhigh, hrest,
        Nat.and_two_pow_sub_one_eq_mod]
      rfl

theorem covers_map_iff {widths : List UInt32} :
    Covers (widths.map UInt32.toNat) ↔ 0 ∉ widths ∧ (widths.map UInt32.toNat).sum = 48 := by
  have hzero : 0 ∈ widths.map UInt32.toNat ↔ 0 ∈ widths := by
    simp only [List.mem_map, ← UInt32.toNat_zero, UInt32.toNat_inj, exists_eq_right]
  rw [← hzero]
  rfl

theorem checkedDotted?_eq {widths : List UInt32} (h : (widths.map UInt32.toNat).sum < 2 ^ 32)
    (b : Bsid) : b.checkedDotted? widths = some (b.dotted? (widths.map UInt32.toNat)) := by
  unfold checkedDotted?
  by_cases hzero : 0 ∈ widths
  · rw [if_pos hzero, dotted?_eq_none_iff.mpr fun hcovers => (covers_map_iff.mp hcovers).1 hzero]
  obtain ⟨total, hfold, htotal⟩ := foldlM_add 0 widths (by simpa using h)
  rw [UInt32.toNat_zero, Nat.zero_add] at htotal
  have hfull : total = 48 ↔ (widths.map UInt32.toNat).sum = 48 := by
    rw [← htotal, ← UInt32.toNat_inj]
    rfl
  rw [if_neg hzero, hfold, Option.bind_eq_bind, Option.bind_some]
  by_cases hsum : (widths.map UInt32.toNat).sum = 48
  · obtain ⟨vs, hvs, hvalues⟩ := checkedFields_eq b.word 48 widths (by decide) hsum.le
    have htexts : vs.map toString = (fields b.toNat 48 (widths.map UInt32.toNat)).map toString := by
      rw [← toNat_word, ← show (48 : UInt32).toNat = 48 from rfl, ← hvalues, List.map_map]
      rfl
    rw [dotted?, if_pos (covers_map_iff.mpr ⟨hzero, hsum⟩), ← htexts,
      if_neg (not_not.mpr (hfull.mpr hsum)), hvs]
    rfl
  · rw [dotted?_eq_none_iff.mpr fun hcovers => hsum (covers_map_iff.mp hcovers).2,
      if_pos (mt hfull.mp hsum)]
    rfl

end Words

/-- There is no dotted form exactly if a width is zero or the widths do not add up to 48. Otherwise
the machine makes it without leaving its words, each field fits its width, the fields put together
at their widths are the number whose digits to the base 256 are the six bytes, and the identifier
can be read back from the form, so that no other has the same. -/
theorem dotted_lossless (b : Bsid) (widths : List UInt32)
    (hsum : (widths.map UInt32.toNat).sum < 2 ^ 32) :
    let ws := widths.map UInt32.toNat
    (b.dotted? ws = none ↔ 0 ∈ widths ∨ ws.sum ≠ 48) ∧
      b.checkedDotted? widths = some (b.dotted? ws) ∧
      (∀ s, b.dotted? ws = some s →
        (∃ fs, s = ".".intercalate (fs.map toString) ∧
          List.Forall₂ (fun f w => f < 2 ^ w) fs ws ∧ joined ws fs = b.word.toNat) ∧
        readDotted? ws s = some b ∧ ∀ other, other.dotted? ws = some s → other = b) ∧
      b.word.toNat = Nat.ofDigits 256 (b.bytes.toList.reverse.map UInt8.toNat) ∧
      ∀ v : Vendor, readDotted? v.fieldWidths (b.dotted v) = some b ∧
        ∀ other, other.dotted v = b.dotted v → other = b := by
  refine ⟨?_, checkedDotted?_eq hsum b,
    fun s hs => ⟨?_, readDotted?_of_dotted? hs, fun other hother => eq_of_dotted? hs hother⟩, ?_,
    fun v => ⟨readDotted?_of_dotted? (b.dotted?_fieldWidths v), fun other hother => ?_⟩⟩
  · rw [dotted?_eq_none_iff, covers_map_iff, Classical.not_and_iff_not_or_not, Classical.not_not]
  · obtain ⟨hcovers, hs⟩ := Option.ite_none_right_eq_some.mp hs
    refine ⟨_, (Option.some.inj hs).symm, forall₂_fields _ _ _, ?_⟩
    rw [hcovers.joined_fields, toNat_word]
  · rw [toNat_word, ← valueOf_eq_ofDigits]
    rfl
  · exact eq_of_dotted? (b.dotted?_fieldWidths v) (hother ▸ other.dotted?_fieldWidths v)

theorem dotted_lossless_sixFields :
    let b : Bsid := ⟨#v[0, 0, 1, 0x80, 0, 1]⟩
    b.checkedDotted? [24, 1, 2, 8, 10, 3] = some (some "1.1.0.0.0.1") ∧
      readDotted? [24, 1, 2, 8, 10, 3] "1.1.0.0.0.1" = some b := by
  intro b
  have hform : b.dotted? [24, 1, 2, 8, 10, 3] = some "1.1.0.0.0.1" := by decide +kernel
  have ⟨_, hchecked, hread, _⟩ := dotted_lossless b [24, 1, 2, 8, 10, 3] (by decide)
  exact ⟨hchecked.trans (congrArg some hform), (hread _ hform).2.1⟩

end Wimax.Bsid
