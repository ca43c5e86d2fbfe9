import Mathlib.Data.Int.Interval
import Mathlib.Data.Set.Card
import Mathlib.Tactic.SplitIfs
import Wimax.Proofs.CheckedWords
import Wimax.Signal

/-!
Signal bars as a function of integers. The computation in machine words keeps its values, so the
bars follow the laws of a scale: more signal and more levels never give a lower level, and as long
as the span has a decibel for each of them the levels between the lowest and the highest are equally
wide.
-/

namespace Wimax.Signal

/-- The decibels that one level covers when `top` is the highest level. -/
def partSize (top : Nat) : Nat := max (30 / top) 1

/-- The level of a signal so many decibels above the floor, when `top` is the highest level. -/
def levelAt (height : Int) (top : Nat) : Nat :=
  if height ≤ 0 then 0
  else if 30 ≤ height then top
  else min (height.toNat / partSize top) top

section Scale

variable {h h' : Int} {t t' k : Nat}

theorem levelAt_of_floor (hlow : h ≤ 0) (t : Nat) : levelAt h t = 0 := if_pos hlow

theorem levelAt_of_ceiling (htop : 30 ≤ h) (t : Nat) : levelAt h t = t := by
  rw [levelAt, if_neg (by omega), if_pos htop]

theorem levelAt_of_between (hlow : 0 < h) (htop : h < 30) (t : Nat) :
    levelAt h t = min (h.toNat / partSize t) t := by
  rw [levelAt, if_neg (by omega), if_neg (by omega)]

theorem levelAt_le (h : Int) (t : Nat) : levelAt h t ≤ t := by
  unfold levelAt
  split_ifs
  · exact Nat.zero_le t
  · exact Nat.le_refl t
  · exact Nat.min_le_right ..

theorem levelAt_mono_height (hle : h ≤ h') (t : Nat) : levelAt h t ≤ levelAt h' t := by
  by_cases hlow : h ≤ 0
  · rw [levelAt_of_floor hlow]
    exact Nat.zero_le _
  by_cases htop : 30 ≤ h'
  · rw [levelAt_of_ceiling htop]
    exact levelAt_le h t
  rw [levelAt_of_between (by omega) (by omega), levelAt_of_between (by omega) (by omega)]
  have hdiv := Nat.div_le_div_right (c := partSize t) (Int.toNat_le_toNat hle)
  omega

theorem partSize_pos (t : Nat) : 0 < partSize t := Nat.le_max_right ..

theorem partSize_anti (ht : 0 < t) (hle : t ≤ t') : partSize t' ≤ partSize t := by
  have hdiv : 30 / t' ≤ 30 / t := Nat.div_le_div_left hle ht
  unfold partSize
  omega

theorem levelAt_mono_top (h : Int) (hle : t ≤ t') : levelAt h t ≤ levelAt h t' := by
  obtain rfl | ht := Nat.eq_zero_or_pos t
  · have := levelAt_le h 0
    omega
  unfold levelAt
  split_ifs
  · exact Nat.le_refl 0
  · exact hle
  · have hdiv : h.toNat / partSize t ≤ h.toNat / partSize t' :=
      Nat.div_le_div_left (partSize_anti ht hle) (partSize_pos t')
    omega

theorem partSize_of_le (ht : 0 < t) (ht' : t ≤ 30) : partSize t = 30 / t :=
  Nat.max_eq_left (Nat.div_pos ht' ht)

theorem mul_partSize_le (hk : k ≤ t) (ht : 0 < t) (ht' : t ≤ 30) : k * partSize t ≤ 30 := by
  rw [partSize_of_le ht ht']
  exact (Nat.mul_le_mul_right _ hk).trans (Nat.mul_div_le 30 t)

/-- The inner levels are parts of equal size. -/
theorem levelAt_eq_iff (hk : 0 < k) (hkt : k < t) (ht : t ≤ 30) :
    levelAt h t = k ↔ (k * partSize t : Nat) ≤ h ∧ h < (k * partSize t + partSize t : Nat) := by
  have hpart := partSize_pos t
  -- The part lies above the floor and ends at the ceiling at the latest, so no cut-off reaches it.
  have hlow : partSize t ≤ k * partSize t := Nat.le_mul_of_pos_left _ hk
  have hhigh := mul_partSize_le (k := k + 1) hkt (by omega) ht
  rw [Nat.succ_mul] at hhigh
  by_cases hfloor : h ≤ 0
  · rw [levelAt_of_floor hfloor]
    omega
  by_cases hceiling : 30 ≤ h
  · rw [levelAt_of_ceiling hceiling]
    omega
  rw [levelAt_of_between (by omega) (by omega)]
  have hdiv : h.toNat / partSize t = k ↔
      k * partSize t ≤ h.toNat ∧ h.toNat < k * partSize t + partSize t := by
    rw [Nat.div_eq_iff hpart]
    omega
  omega

theorem exists_levelAt_eq (hkt : k ≤ t) (ht : t ≤ 30) :
    ∃ h : Int, 0 ≤ h ∧ h ≤ 30 ∧ levelAt h t = k := by
  obtain rfl | hk := Nat.eq_zero_or_pos k
  · exact ⟨0, by omega, by omega, rfl⟩
  obtain rfl | hlt := Nat.eq_or_lt_of_le hkt
  · exact ⟨30, by omega, by omega, rfl⟩
  have hpart := partSize_pos t
  have hhigh := mul_partSize_le hkt (by omega) ht
  exact ⟨(k * partSize t : Nat), by omega, by omega, (levelAt_eq_iff hk hlt ht).mpr (by omega)⟩

end Scale

section Words

variable {dbm : Int32} {levels l : UInt32}

theorem toInt_floorDbm : floorDbm.toInt = -100 := by decide

theorem toInt_ceilingDbm : ceilingDbm.toInt = -70 := by decide

theorem le_floorDbm_iff : dbm ≤ floorDbm ↔ dbm.toInt + 100 ≤ 0 := by
  rw [Int32.le_iff_toInt_le, toInt_floorDbm]
  omega

theorem ceilingDbm_le_iff : ceilingDbm ≤ dbm ↔ 30 ≤ dbm.toInt + 100 := by
  rw [Int32.le_iff_toInt_le, toInt_ceilingDbm]
  omega

theorem lt_two_iff : levels < 2 ↔ levels.toNat < 2 := UInt32.lt_iff_toNat_lt

theorem toNat_stepSize (top : UInt32) : (stepSize top).toNat = partSize top.toNat := by
  have hspan : (ceilingDbm - floorDbm).toUInt32 = 30 := by decide
  rw [stepSize, hspan, UInt32.toNat_max, UInt32.toNat_div]
  rfl

theorem checked_top (hfew : ¬levels < 2) : Checked.sub levels 1 = some (levels - 1) := by
  have hone : (1 : UInt32) ≤ levels := by
    rw [lt_two_iff] at hfew
    rw [UInt32.le_iff_toNat_le, UInt32.toNat_one]
    omega
  exact if_pos hone

theorem toNat_top (hfew : ¬levels < 2) : (levels - 1).toNat = levels.toNat - 1 := by
  have := Checked.sub_eq_some_iff.mp (checked_top hfew)
  rw [UInt32.toNat_one] at this
  omega

section Between

variable (hlow : ¬dbm ≤ floorDbm) (hhigh : ¬ceilingDbm ≤ dbm)
include hlow hhigh

/-- Between the floor and the ceiling the difference stays in its word. -/
theorem checked_difference : Checked.signedSub dbm floorDbm = some (dbm - floorDbm) := by
  rw [le_floorDbm_iff] at hlow
  rw [ceilingDbm_le_iff] at hhigh
  rw [Checked.signedSub, toInt_floorDbm, if_pos (by omega)]

theorem toInt_difference : (dbm - floorDbm).toInt = dbm.toInt + 100 := by
  have := Checked.signedSub_eq_some_iff.mp (checked_difference hlow hhigh)
  rw [toInt_floorDbm] at this
  omega

/-- It is not negative, so that the sign bit is not read as a part of the number. -/
theorem checked_height :
    Checked.unsigned (dbm - floorDbm) = some (dbm - floorDbm).toUInt32 := by
  have hpos : 0 ≤ dbm - floorDbm := by
    rw [Int32.le_iff_toInt_le, toInt_difference hlow hhigh, Int32.toInt_zero]
    rw [le_floorDbm_iff] at hlow
    omega
  exact if_pos hpos

theorem toNat_height : (dbm - floorDbm).toUInt32.toNat = (dbm.toInt + 100).toNat := by
  have := Checked.unsigned_eq_some_iff.mp (checked_height hlow hhigh)
  rw [toInt_difference hlow hhigh] at this
  omega

end Between

theorem toNat_level (dbm : Int32) (levels : UInt32) :
    (level dbm levels).toNat = levelAt (dbm.toInt + 100) (levels.toNat - 1) := by
  unfold level
  split_ifs with hfew hlow hhigh
  · have hle := levelAt_le (dbm.toInt + 100) (levels.toNat - 1)
    rw [lt_two_iff] at hfew
    rw [UInt32.toNat_zero]
    omega
  · rw [levelAt_of_floor (le_floorDbm_iff.mp hlow), UInt32.toNat_zero]
  · rw [levelAt_of_ceiling (ceilingDbm_le_iff.mp hhigh), toNat_top hfew]
  · rw [UInt32.toNat_min, UInt32.toNat_div, toNat_height hlow hhigh, toNat_stepSize, toNat_top hfew]
    rw [le_floorDbm_iff] at hlow
    rw [ceilingDbm_le_iff] at hhigh
    rw [levelAt_of_between (by omega) (by omega)]

/-- `stepSize` with every operation checked. -/
def checkedStepSize (top : UInt32) : Option UInt32 := do
  let span ← Checked.unsigned (← Checked.signedSub ceilingDbm floorDbm)
  return max (← Checked.div span top) 1

/-- `level` with every operation checked. -/
def checkedLevel (dbm : Int32) (levels : UInt32) : Option UInt32 :=
  if levels < 2 then some 0
  else do
    let top ← Checked.sub levels 1
    if dbm ≤ floorDbm then return 0
    if ceilingDbm ≤ dbm then return top
    let step ← checkedStepSize top
    let height ← Checked.unsigned (← Checked.signedSub dbm floorDbm)
    return min (← Checked.div height step) top

theorem checkedStepSize_eq {top : UInt32} (htop : 0 < top.toNat) :
    checkedStepSize top = some (stepSize top) := by
  have hspan : Checked.signedSub ceilingDbm floorDbm = some (ceilingDbm - floorDbm) := by decide
  have hword : Checked.unsigned (ceilingDbm - floorDbm) =
      some (ceilingDbm - floorDbm).toUInt32 := by decide
  have hpart : Checked.div (ceilingDbm - floorDbm).toUInt32 top =
      some ((ceilingDbm - floorDbm).toUInt32 / top) :=
    Checked.div_eq_some_iff.mpr ⟨htop, UInt32.toNat_div ..⟩
  simp only [checkedStepSize, hspan, hword, hpart, Option.bind_eq_bind, Option.bind_some,
    Option.pure_def]
  rfl

theorem checkedLevel_eq (dbm : Int32) (levels : UInt32) :
    checkedLevel dbm levels = some (level dbm levels) := by
  unfold checkedLevel level
  by_cases hfew : levels < 2
  · rw [if_pos hfew, if_pos hfew]
  simp only [hfew, ↓reduceIte, checked_top hfew, Option.bind_eq_bind, Option.bind_some,
    Option.pure_def]
  by_cases hlow : dbm ≤ floorDbm
  · simp only [hlow, ↓reduceIte]
  by_cases hhigh : ceilingDbm ≤ dbm
  · simp only [hlow, hhigh, ↓reduceIte]
  have htop : 0 < (levels - 1).toNat := by
    rw [toNat_top hfew]
    rw [lt_two_iff] at hfew
    omega
  have hquotient := Checked.div_eq_some_iff.mpr
    ⟨(toNat_stepSize (levels - 1)).symm ▸ partSize_pos _,
      UInt32.toNat_div (dbm - floorDbm).toUInt32 (stepSize (levels - 1))⟩
  simp only [hlow, hhigh, ↓reduceIte, checkedStepSize_eq htop, checked_difference hlow hhigh,
    checked_height hlow hhigh, hquotient, Option.bind_some]

theorem exists_toInt {n : Int} (hlow : 0 ≤ n) (hhigh : n ≤ 30) :
    ∃ dbm : Int32, dbm.toInt + 100 = n := by
  refine ⟨.ofInt (n - 100), ?_⟩
  rw [Int32.toInt_ofInt_of_le (by omega) (by omega)]
  omega

theorem ncard_level (hl : 0 < l.toNat) (hltop : l.toNat < levels.toNat - 1)
    (hmany : levels.toNat - 1 ≤ 30) :
    {dbm | level dbm levels = l}.ncard = partSize (levels.toNat - 1) := by
  generalize hsize : partSize (levels.toNat - 1) = size
  have hmem (dbm : Int32) : level dbm levels = l ↔
      (l.toNat * size : Nat) ≤ dbm.toInt + 100 ∧ dbm.toInt + 100 < (l.toNat * size + size : Nat) := by
    rw [← UInt32.toNat_inj, toNat_level, levelAt_eq_iff hl hltop hmany, hsize]
  have hfits := mul_partSize_le (k := l.toNat + 1) hltop (by omega) hmany
  rw [hsize, Nat.succ_mul] at hfits
  have himage : Int32.toInt '' {dbm | level dbm levels = l} =
      Finset.Ico (l.toNat * size - 100 : Int) (l.toNat * size - 100 + size) := by
    ext n
    simp only [Set.mem_image, Set.mem_ofPred_eq, hmem, Finset.coe_Ico, Set.mem_Ico]
    constructor
    · rintro ⟨dbm, hdbm, rfl⟩
      omega
    · intro hn
      obtain ⟨dbm, hdbm⟩ := exists_toInt (n := n + 100) (by omega) (by omega)
      exact ⟨dbm, by omega, by omega⟩
  rw [← Set.ncard_image_of_injective _ fun _ _ => Int32.toInt_inj.mp, himage,
    Set.ncard_coe_finset, Int.card_Ico]
  omega

theorem exists_level (hl : l.toNat ≤ levels.toNat - 1) (hmany : levels.toNat - 1 ≤ 30) :
    ∃ dbm, level dbm levels = l := by
  obtain ⟨h, hlow, hhigh, hlevel⟩ := exists_levelAt_eq hl hmany
  obtain ⟨dbm, rfl⟩ := exists_toInt hlow hhigh
  exact ⟨dbm, by rw [← UInt32.toNat_inj, toNat_level, hlevel]⟩

/-- The level is computed without overflow, division by zero or change of sign. It is zero with
fewer than two levels and below the number of levels otherwise, zero up to the floor and the highest
from the ceiling on, and never lower for a stronger signal or more levels. Among up to 31 levels
each is shown for some strength, and all those between the lowest and the highest for equally many
strengths. -/
theorem level_forms_scale (dbm : Int32) (levels : UInt32) :
    checkedLevel dbm levels = some (level dbm levels) ∧
      (levels < 2 → level dbm levels = 0) ∧
      (2 ≤ levels → level dbm levels < levels) ∧
      (dbm ≤ -100 → level dbm levels = 0) ∧
      (2 ≤ levels → -70 ≤ dbm → level dbm levels = levels - 1) ∧
      (∀ stronger, dbm ≤ stronger → level dbm levels ≤ level stronger levels) ∧
      (∀ more, levels ≤ more → level dbm levels ≤ level dbm more) ∧
      (2 ≤ levels → levels ≤ 31 →
        (∀ l < levels, ∃ x, level x levels = l) ∧
          ∀ l, 0 < l → l < levels - 1 →
            {x | level x levels = l}.ncard = 30 / (levels.toNat - 1)) := by
  refine ⟨checkedLevel_eq dbm levels, fun hfew => if_pos hfew, fun htwo => ?_, fun hlow => ?_,
    fun htwo hhigh => ?_, fun stronger hdbm => ?_, fun more hlevels => ?_, fun htwo hmany => ?_⟩
  · have htwo : 2 ≤ levels.toNat := UInt32.le_iff_toNat_le.mp htwo
    have hle := levelAt_le (dbm.toInt + 100) (levels.toNat - 1)
    rw [UInt32.lt_iff_toNat_lt, toNat_level]
    omega
  · rw [← UInt32.toNat_inj, toNat_level, levelAt_of_floor (le_floorDbm_iff.mp hlow),
      UInt32.toNat_zero]
  · rw [← UInt32.toNat_inj, toNat_level, levelAt_of_ceiling (ceilingDbm_le_iff.mp hhigh),
      toNat_top (UInt32.not_lt.mpr htwo)]
  · have hdbm := Int32.le_iff_toInt_le.mp hdbm
    rw [UInt32.le_iff_toNat_le, toNat_level, toNat_level]
    exact levelAt_mono_height (by omega) _
  · have hlevels := UInt32.le_iff_toNat_le.mp hlevels
    rw [UInt32.le_iff_toNat_le, toNat_level, toNat_level]
    exact levelAt_mono_top _ (by omega)
  · have hfew : ¬levels < 2 := UInt32.not_lt.mpr htwo
    have htwo : 2 ≤ levels.toNat := UInt32.le_iff_toNat_le.mp htwo
    have hmany : levels.toNat ≤ 31 := UInt32.le_iff_toNat_le.mp hmany
    refine ⟨fun l hl => ?_, fun l hpos hl => ?_⟩
    · have hl := UInt32.lt_iff_toNat_lt.mp hl
      exact exists_level (by omega) (by omega)
    · have hpos : 0 < l.toNat := UInt32.lt_iff_toNat_lt.mp hpos
      have hl := UInt32.lt_iff_toNat_lt.mp hl
      rw [toNat_top hfew] at hl
      rw [ncard_level hpos hl (by omega), partSize_of_le (by omega) (by omega)]

/-- Of the 30 decibels below the ceiling four parts of seven leave two over, which show the highest
level as well. -/
theorem level_forms_scale_fiveBars :
    level (-86) 5 = 2 ∧ level (-86) 5 ≤ level (-86) 30 ∧ {x | level x 5 = 2}.ncard = 7 :=
  have ⟨_, _, _, _, _, _, hmore, hparts⟩ := level_forms_scale (-86) 5
  ⟨by decide, hmore 30 (by decide), (hparts (by decide) (by decide)).2 2 (by decide) (by decide)⟩

end Words

end Wimax.Signal
