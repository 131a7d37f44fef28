import Mathlib

/-! # Rounding to 53 binary digits

The core library computes with floats on mantissas and exponents: it cuts an exact result off,
remembers in an `Accuracy` where the exact number lies, and rounds.  Here this is read over the
rational numbers.

* **Accuracy.** `Describes m x acc` says that `x` was cut off to `m`, and that `acc` is right about
  the rest.  Shifting by a digit halves the number and keeps the description
  (`Describes.shiftRight`).
* **Grid.** `Dyadic y` says that `y` has at most 53 digits and an exponent that is not too small.
* **Rounding.** `Rounds s v u` says that `u` has the sign `s`, and that no number of the grid is
  nearer to `v` than the magnitude of `u`.  So whatever bound of the grid the exact number keeps,
  the rounded one keeps too (`Rounds.le`, `Rounds.ge`), and rounding keeps the order
  (`Rounds.mono`).  `rounds_roundWithAccuracy` is the rounding of the core library. -/

namespace MediaSender.Binary64

open Float.Model Float.Model.UnpackedFloat

/-! ### Digits that are cut off -/

/-- The number `x` was cut off to the integer `m`, and the accuracy tells where it lies between `m`
and the next integer. -/
def Describes (m : ℕ) (x : ℚ) : Accuracy → Prop
  | .exact => x = m
  | .inexact .lt => m < x ∧ x < m + 1 / 2
  | .inexact .eq => x = m + 1 / 2
  | .inexact .gt => m + 1 / 2 < x ∧ x < m + 1

section describes

variable {m : ℕ} {x : ℚ} {acc : Accuracy} {em : ExtendedMantissa}

theorem Describes.le (h : Describes m x acc) : (m : ℚ) ≤ x := by
  cases acc with
  | exact => exact ge_of_eq h
  | inexact o => cases o <;> simp only [Describes] at h <;> linarith

theorem Describes.lt (h : Describes m x acc) : x < m + 1 := by
  cases acc with
  | exact => rw [show x = m from h]; linarith
  | inexact o => cases o <;> simp only [Describes] at h <;> linarith

/-- What is rounded to the nearest integer is off by a half at most. -/
theorem Describes.abs_round_sub_le (h : Describes m x acc) :
    |(acc.roundToNearestEven m : ℚ) - x| ≤ 1 / 2 := by
  rw [abs_le]
  cases acc with
  | exact =>
      have hx : x = m := h
      simp only [Accuracy.roundToNearestEven]
      constructor <;> linarith
  | inexact o =>
      cases o with
      | lt =>
          obtain ⟨h₁, h₂⟩ := h
          simp only [Accuracy.roundToNearestEven]
          constructor <;> linarith
      | eq =>
          have hx : x = m + 1 / 2 := h
          obtain hm | hm : m % 2 = 0 ∨ m % 2 = 1 := by omega
          all_goals
            simp only [Accuracy.roundToNearestEven, hm]
            push_cast
            constructor <;> linarith
      | gt =>
          obtain ⟨h₁, h₂⟩ := h
          simp only [Accuracy.roundToNearestEven]
          push_cast
          constructor <;> linarith

theorem Describes.shiftRightOne (h : Describes em.mantissa x em.accuracy) :
    Describes em.shiftRightOne.mantissa (x / 2) em.shiftRightOne.accuracy := by
  obtain ⟨m, r, s⟩ := em
  have hdiv : (m : ℚ) = 2 * (m / 2 : ℕ) + (m % 2 : ℕ) := by
    exact_mod_cast (Nat.div_add_mod m 2).symm
  -- the digit that goes becomes the first one after the point
  obtain hm | hm : m % 2 = 0 ∨ m % 2 = 1 := by omega
  all_goals
    rw [hm] at hdiv
    cases r <;> cases s <;>
      simp [Describes, ExtendedMantissa.accuracy, ExtendedMantissa.shiftRightOne, hm]
        at h hdiv ⊢ <;>
      first | linarith | constructor <;> linarith

theorem Describes.shiftRight (h : Describes em.mantissa x em.accuracy) (k : ℕ) :
    Describes (em >>> k).mantissa (x / 2 ^ k) (em >>> k).accuracy := by
  induction k with
  | zero => simpa [HShiftRight.hShiftRight, Nat.repeat] using h
  | succ k ih =>
      rw [pow_succ, ← div_div]
      exact ih.shiftRightOne

end describes

/-! ### The grid -/

/-- A number of at most 53 digits whose last one is not too small. -/
def Dyadic (y : ℚ) : Prop := ∃ (m : ℕ) (e : ℤ), m < 2 ^ 53 ∧ -1074 ≤ e ∧ y = m * 2 ^ e

/-- The magnitude of a finite number. -/
def magnitude : UnpackedFloat → ℚ
  | .finite _ m e _ => m * 2 ^ e
  | _ => 0

/-- A finite number has 53 digits, or fewer if its exponent is the least. -/
def Canonical : UnpackedFloat → Prop
  | .finite _ m e _ => m < 2 ^ 53 ∧ -1074 ≤ e ∧ (2 ^ 52 ≤ m ∨ e = -1074)
  | _ => True

/-- `u` is finite and of the sign `s`. -/
def Signed (s : Sign) : UnpackedFloat → Prop
  | .zero s' => s' = s
  | .finite s' _ _ _ => s' = s
  | _ => False

/-- `u` has the sign `s`, and its magnitude is as near to `v` as a number of the grid can be. -/
structure Rounds (s : Sign) (v : ℚ) (u : UnpackedFloat) : Prop where
  canonical : Canonical u
  sign : Signed s u
  near : ∀ {y}, Dyadic y → |magnitude u - v| ≤ |y - v|

section nearest

variable {s s' : Sign} {v v' q y : ℚ} {u u' : UnpackedFloat}

/-- The grid's number nearest to `v` keeps each upper bound of the grid. -/
theorem le_of_near (hnear : |q - v| ≤ |y - v|) (h : v ≤ y) : q ≤ y := by
  rw [abs_of_nonneg (sub_nonneg.mpr h)] at hnear
  linarith [le_abs_self (q - v)]

@[inherit_doc le_of_near]
theorem ge_of_near (hnear : |q - v| ≤ |y - v|) (h : y ≤ v) : y ≤ q := by
  rw [abs_of_nonpos (sub_nonpos.mpr h)] at hnear
  linarith [neg_abs_le (q - v)]

theorem Rounds.le (h : Rounds s v u) (hy : Dyadic y) (hle : v ≤ y) : magnitude u ≤ y :=
  le_of_near (h.near hy) hle

theorem Rounds.ge (h : Rounds s v u) (hy : Dyadic y) (hle : y ≤ v) : y ≤ magnitude u :=
  ge_of_near (h.near hy) hle

theorem Canonical.dyadic_magnitude (hu : Canonical u) : Dyadic (magnitude u) := by
  cases u with
  | finite s m e hm => exact ⟨m, e, hu.1, hu.2.1, rfl⟩
  | _ => exact ⟨0, 0, by norm_num, by norm_num, by simp [magnitude]⟩

/-- Rounding keeps the order. -/
theorem Rounds.mono (h : Rounds s v u) (h' : Rounds s' v' u') (hv : v < v') :
    magnitude u ≤ magnitude u' := by
  by_contra hlt
  rw [not_le] at hlt
  -- otherwise the middle of the two magnitudes is above `v'` and below `v`
  have hnear := h.near h'.canonical.dyadic_magnitude
  have hnear' := h'.near h.canonical.dyadic_magnitude
  rw [← sq_le_sq] at hnear hnear'
  have hbelow : magnitude u + magnitude u' ≤ 2 * v := by nlinarith
  have habove : 2 * v' ≤ magnitude u + magnitude u' := by nlinarith
  linarith

end nearest

section grid

variable {m r : ℕ} {e t : ℤ} {v y : ℚ}

theorem two_zpow_pos (e : ℤ) : (0 : ℚ) < 2 ^ e := zpow_pos (by norm_num) e

/-- A number of the grid is a multiple of the last place of a rounding, or smaller than each number
with that last place. -/
theorem Dyadic.multiple_or_lt (hy : Dyadic y) (t : ℤ) :
    (∃ n : ℕ, y = n * 2 ^ t) ∨ (-1074 < t ∧ y < 2 ^ 52 * 2 ^ t) := by
  obtain ⟨m, e, hm, he, rfl⟩ := hy
  obtain h | h := le_or_gt t e
  · refine .inl ⟨m * 2 ^ (e - t).toNat, ?_⟩
    have hexp : e = (e - t).toNat + t := by omega
    rw [hexp, zpow_add₀ (by norm_num), zpow_natCast]
    push_cast
    rw [show (((e - t).toNat : ℤ) + t - t).toNat = (e - t).toNat by omega]
    ring
  · refine .inr ⟨by omega, ?_⟩
    have hm' : (m : ℚ) < 2 ^ 53 := by exact_mod_cast hm
    have hstep : (2 : ℚ) ^ (e + 1) ≤ 2 ^ t := zpow_le_zpow_right₀ (by norm_num) (by omega)
    rw [zpow_add_one₀ (by norm_num)] at hstep
    have hpos := two_zpow_pos e
    nlinarith

/-- The nearest integer is as near as any integer. -/
theorem abs_round_sub_le_of_int {q : ℚ} (hr : |(r : ℚ) - q| ≤ 1 / 2) (n : ℕ) :
    |(r : ℚ) - q| ≤ |(n : ℚ) - q| := by
  obtain rfl | hne := eq_or_ne r n
  · exact le_rfl
  · have hone : (1 : ℚ) ≤ |(r : ℚ) - n| := by
      have hint : (1 : ℤ) ≤ |(r : ℤ) - n| := Int.one_le_abs (by omega)
      exact_mod_cast hint
    have htriangle : |(r : ℚ) - n| ≤ |(r : ℚ) - q| + |(n : ℚ) - q| := by
      rw [abs_sub_comm (n : ℚ) q]
      exact abs_sub_le _ _ _
    linarith

/-- The nearest multiple of the last place is as near as any number of the grid. -/
theorem near_of_nearest (hr : |(r : ℚ) - v / 2 ^ t| ≤ 1 / 2) (ht : t = -1074 ∨ 2 ^ 52 * 2 ^ t ≤ v)
    (hy : Dyadic y) : |r * 2 ^ t - v| ≤ |y - v| := by
  have hpos := two_zpow_pos t
  have hscale (n : ℕ) : |(n : ℚ) * 2 ^ t - v| = |(n : ℚ) - v / 2 ^ t| * 2 ^ t := by
    rw [← abs_of_pos hpos, ← abs_mul, sub_mul, abs_of_pos hpos, div_mul_cancel₀ _ hpos.ne']
  have hmultiple (n : ℕ) : |(r : ℚ) * 2 ^ t - v| ≤ |(n : ℚ) * 2 ^ t - v| := by
    rw [hscale, hscale]
    exact mul_le_mul_of_nonneg_right (abs_round_sub_le_of_int hr n) hpos.le
  obtain ⟨n, rfl⟩ | ⟨hlt, hsmall⟩ := hy.multiple_or_lt t
  · exact hmultiple n
  · obtain rfl | hv := ht
    · omega
    · -- the least number with the last place `t` lies between `y` and `v`
      have hstep := hmultiple (2 ^ 52)
      rw [Nat.cast_pow, Nat.cast_ofNat, abs_of_nonpos (sub_nonpos.mpr hv)] at hstep
      rw [abs_of_nonpos (by linarith : y - v ≤ 0)]
      linarith

end grid

/-! ### The rounding of the core library -/

/-- The exponent of the last place that is kept of `m * 2 ^ e`. -/
def lastPlace (m : ℕ) (e : ℤ) : ℤ := max (m.log2 + e - 52) (-1074)

section round

variable {s : Sign} {m r : ℕ} {e t : ℤ} {v x : ℚ} {acc : Accuracy}

theorem targetExponent_eq (m : ℕ) (e : ℤ) :
    Format.binary64.targetExponent (totalExponent m e) = lastPlace m e := by
  simp only [Format.targetExponent, totalExponent, Format.mantissaBits, Format.minExponent,
    lastPlace]
  norm_num
  omega

theorem describes_ofMantissaAndAccuracy (h : Describes m x acc) :
    Describes (ExtendedMantissa.ofMantissaAndAccuracy m acc).mantissa x
      (ExtendedMantissa.ofMantissaAndAccuracy m acc).accuracy := by
  cases acc with
  | exact => exact h
  | inexact o => cases o <;> exact h

/-- Digits are cut off down to the last place. -/
theorem shiftToTargetExponent_spec (h : Describes m x acc) (he : e ≤ lastPlace m e) :
    (shiftToTargetExponent Format.binary64 m e acc).2 = lastPlace m e ∧
      Describes (shiftToTargetExponent Format.binary64 m e acc).1.mantissa
        (x * 2 ^ e / 2 ^ lastPlace m e)
        (shiftToTargetExponent Format.binary64 m e acc).1.accuracy := by
  have hshift : ((lastPlace m e - e).toNat : ℤ) = lastPlace m e - e := by omega
  have hquot : x * 2 ^ e / 2 ^ lastPlace m e = x / 2 ^ (lastPlace m e - e).toNat := by
    have hexp : (2 : ℚ) ^ lastPlace m e = 2 ^ e * 2 ^ (lastPlace m e - e).toNat := by
      rw [← zpow_natCast, hshift, ← zpow_add₀ (by norm_num)]
      congr 1
      omega
    rw [hexp, mul_comm x, mul_div_mul_left _ _ (two_zpow_pos e).ne']
  rw [hquot]
  simp only [shiftToTargetExponent, targetExponent_eq, shiftToExponent]
  exact ⟨by omega, (describes_ofMantissaAndAccuracy h).shiftRight _⟩

/-- A mantissa that has its last place already is not shifted. -/
theorem shiftToTargetExponent_of_le (ht : lastPlace m e ≤ e) :
    shiftToTargetExponent Format.binary64 m e .exact = (⟨m, false, false⟩, e) := by
  have hshift : (lastPlace m e - e).toNat = 0 := by omega
  simp [shiftToTargetExponent, targetExponent_eq, shiftToExponent, hshift,
    HShiftRight.hShiftRight, Nat.repeat, ExtendedMantissa.ofMantissaAndAccuracy]

/-- A mantissa that rounding made too long is shifted by a zero. -/
theorem shiftToTargetExponent_carry (he : -1074 ≤ e) :
    shiftToTargetExponent Format.binary64 (2 ^ 53) e .exact = (⟨2 ^ 52, false, false⟩, e + 1) := by
  have hlast : lastPlace (2 ^ 53) e = e + 1 := by
    rw [lastPlace, Nat.log2_two_pow]
    omega
  rw [shiftToTargetExponent, targetExponent_eq, hlast]
  simp [shiftToExponent, HShiftRight.hShiftRight, Nat.repeat,
    ExtendedMantissa.ofMantissaAndAccuracy, ExtendedMantissa.shiftRightOne]

theorem lastPlace_le_of_lt (hm : m < 2 ^ 53) (he : -1074 ≤ e) : lastPlace m e ≤ e := by
  have hlog : m.log2 ≤ 52 := by
    by_cases hzero : m = 0
    · simp [hzero]
    · exact Nat.lt_succ_iff.mp ((Nat.log2_lt hzero).mpr hm)
  rw [lastPlace]
  omega

/-- What a rounded mantissa stands for: `2 ^ 53` has a digit too many, which is a zero. -/
def carried (s : Sign) (r : ℕ) (t : ℤ) : UnpackedFloat :=
  if h : r = 0 then .zero s
  else if r < 2 ^ 53 then .finite s r t (Nat.pos_of_ne_zero h)
  else .finite s (2 ^ 52) (t + 1) (by decide)

theorem roundWithAccuracy_eq
    (hr : (shiftToTargetExponent Format.binary64 m e acc).1.roundedMantissa ≤ 2 ^ 53)
    (ht : -1074 ≤ (shiftToTargetExponent Format.binary64 m e acc).2) :
    roundWithAccuracy Format.binary64 s m e acc =
      carried s (shiftToTargetExponent Format.binary64 m e acc).1.roundedMantissa
        (shiftToTargetExponent Format.binary64 m e acc).2 := by
  unfold roundWithAccuracy carried
  generalize shiftToTargetExponent Format.binary64 m e acc = first at hr ht
  obtain ⟨em, t⟩ := first
  simp only at hr ht ⊢
  obtain hlt | heq := hr.lt_or_eq
  · rw [shiftToTargetExponent_of_le (lastPlace_le_of_lt hlt ht)]
    simp only [hlt, if_true]
  · rw [heq, shiftToTargetExponent_carry ht]
    rfl

theorem magnitude_carried (hr : r ≤ 2 ^ 53) : magnitude (carried s r t) = r * 2 ^ t := by
  unfold carried
  split
  next h => simp [magnitude, h]
  next h =>
    split
    next => rfl
    next hge =>
      rw [show r = 2 ^ 53 by omega, magnitude, zpow_add_one₀ (by norm_num)]
      push_cast
      ring

theorem rounds_carried (hr : r ≤ 2 ^ 53) (hnear : |(r : ℚ) - v / 2 ^ t| ≤ 1 / 2)
    (hlast : t = -1074 ∨ -1074 ≤ t ∧ 2 ^ 52 * 2 ^ t ≤ v) : Rounds s v (carried s r t) := by
  have hlast' : t = -1074 ∨ 2 ^ 52 * 2 ^ t ≤ v := hlast.imp_right And.right
  have hmin : -1074 ≤ t := by omega
  have hnormal : t = -1074 ∨ 2 ^ 52 ≤ r := by
    refine hlast.imp_right fun h => ?_
    have hle : ((2 ^ 52 : ℕ) : ℚ) * 2 ^ t ≤ r * 2 ^ t :=
      ge_of_near (near_of_nearest hnear hlast' ⟨2 ^ 52, t, by norm_num, hmin, rfl⟩)
        (by push_cast; exact h.2)
    exact_mod_cast le_of_mul_le_mul_right hle (two_zpow_pos t)
  refine ⟨?_, ?_, ?_⟩
  · unfold carried
    split
    next => trivial
    next => split <;> simp only [Canonical] <;> omega
  · unfold carried
    split
    next => exact rfl
    next => split <;> exact rfl
  · intro y hy
    rw [magnitude_carried hr]
    exact near_of_nearest hnear hlast' hy

/-- The core library rounds the exact number, unless it has too few digits for its exponent. -/
theorem rounds_roundWithAccuracy (h : Describes m x acc) (he : e ≤ lastPlace m e) :
    Rounds s (x * 2 ^ e) (roundWithAccuracy Format.binary64 s m e acc) := by
  obtain ⟨ht, hd⟩ := shiftToTargetExponent_spec h he
  have hnear := hd.abs_round_sub_le
  have hpos := two_zpow_pos (lastPlace m e)
  have hmin : -1074 ≤ lastPlace m e := le_max_right _ _
  -- the quotient has 53 digits at most
  have hupper : x * 2 ^ e < 2 ^ 53 * 2 ^ lastPlace m e := by
    have hx : x < 2 ^ (m.log2 + 1) := by
      have hlt : (m : ℚ) + 1 ≤ 2 ^ (m.log2 + 1) := by exact_mod_cast Nat.lt_log2_self
      exact h.lt.trans_le hlt
    calc x * 2 ^ e < 2 ^ (m.log2 + 1) * 2 ^ e := mul_lt_mul_of_pos_right hx (two_zpow_pos e)
      _ = 2 ^ ((m.log2 : ℤ) + 1 + e) := by
        rw [← zpow_natCast, ← zpow_add₀ (by norm_num)]
        push_cast
        rfl
      _ ≤ 2 ^ (53 + lastPlace m e) :=
        zpow_le_zpow_right₀ (by norm_num) (by rw [lastPlace]; omega)
      _ = 2 ^ 53 * 2 ^ lastPlace m e := by
        rw [zpow_add₀ (by norm_num)]
        norm_num
  have hr : (shiftToTargetExponent Format.binary64 m e acc).1.roundedMantissa ≤ 2 ^ 53 := by
    have hquot := (div_lt_iff₀ hpos).mpr hupper
    have hlt : ((shiftToTargetExponent Format.binary64 m e acc).1.roundedMantissa : ℚ) <
        2 ^ 53 + 1 := by
      have := (abs_le.mp hnear).2
      unfold ExtendedMantissa.roundedMantissa
      linarith
    exact Nat.lt_succ_iff.mp (by exact_mod_cast hlt)
  rw [roundWithAccuracy_eq hr (by rw [ht]; exact hmin), ht]
  refine rounds_carried hr hnear ?_
  by_cases hlast : lastPlace m e = -1074
  · exact .inl hlast
  · have hm : m ≠ 0 := by
      rintro rfl
      rw [lastPlace, Nat.log2_zero] at hlast he
      omega
    have hdigits : (2 : ℚ) ^ m.log2 ≤ m := by exact_mod_cast Nat.log2_self_le hm
    refine .inr ⟨hmin, ?_⟩
    calc (2 : ℚ) ^ 52 * 2 ^ lastPlace m e = 2 ^ m.log2 * 2 ^ e := by
          have hexp : 52 + lastPlace m e = m.log2 + e := by rw [lastPlace] at hlast ⊢; omega
          rw [← zpow_natCast 2 m.log2, ← zpow_add₀ (by norm_num), ← hexp,
            zpow_add₀ (by norm_num)]
          norm_num
      _ ≤ x * 2 ^ e :=
          mul_le_mul_of_nonneg_right (hdigits.trans h.le) (two_zpow_pos e).le

theorem lastPlace_shiftLeft (hm : 0 < m) (k : ℕ) (e : ℤ) :
    lastPlace (m <<< k) (e - k) = lastPlace m e := by
  have hlog : (m <<< k).log2 = m.log2 + k := by
    rw [Nat.log2_eq_iff (by rw [Nat.shiftLeft_eq]; positivity), Nat.shiftLeft_eq, pow_add,
      show m.log2 + k + 1 = m.log2 + 1 + k by omega, pow_add _ _ k]
    exact ⟨Nat.mul_le_mul_right _ (Nat.log2_self_le hm.ne'),
      Nat.mul_lt_mul_of_pos_right Nat.lt_log2_self (by positivity)⟩
  rw [lastPlace, lastPlace, hlog]
  push_cast
  congr 1
  omega

theorem shiftLeft_mul_two_zpow (m k : ℕ) (e : ℤ) :
    ((m <<< k : ℕ) : ℚ) * 2 ^ (e - k) = m * 2 ^ e := by
  rw [Nat.shiftLeft_eq, zpow_sub₀ (by norm_num), zpow_natCast]
  push_cast
  field_simp

/-- Whatever the exponent is, zeros are appended first if there are too few digits. -/
theorem rounds_round (hm : 0 < m) (s : Sign) (e : ℤ) :
    Rounds s (m * 2 ^ e) (UnpackedFloat.round Format.binary64 s m e) := by
  rw [UnpackedFloat.round, targetExponent_eq, decreaseExponent, ← shiftLeft_mul_two_zpow m _ e]
  refine rounds_roundWithAccuracy (by exact rfl) ?_
  rw [lastPlace_shiftLeft hm]
  omega

end round

end MediaSender.Binary64
