import MediaSender.Proofs.Binary64.Rounding

/-! # Operations on finite floats

A product, a quotient, a sum or a difference of finite floats is the exact one, rounded.

* **Value.** `value u` is the rational number that `u` stands for, and `AtMost y u` and
  `AtLeast y u` bound it; infinities count, and what is not a number keeps every bound.
* **Result.** `RoundsTo q u` says that `u` keeps each bound of the grid that `q` keeps, and has the
  sign of `q`.
* **Operations.** Each one computes an integer mantissa and hands it to the rounding, with the
  accuracy of the cut for a quotient; sums are brought to a common exponent first. -/

namespace MediaSender.Binary64

open Float.Model Float.Model.UnpackedFloat

/-! ### Values and bounds -/

/-- The number of the given sign and magnitude. -/
def signed : Sign → ℚ → ℚ
  | .positive, v => v
  | .negative, v => -v

/-- The rational number that a finite float stands for. -/
def value : UnpackedFloat → ℚ
  | .finite s m e _ => signed s (m * 2 ^ e)
  | _ => 0

@[simp] theorem value_zero (s : Sign) : value (.zero s) = 0 := rfl

@[simp] theorem value_finite (s : Sign) {m : ℕ} (e : ℤ) (hm : 0 < m) :
    value (.finite s m e hm) = signed s (m * 2 ^ e) := rfl

/-- `u` is at most `y`, or not a number. -/
def AtMost (y : ℚ) : UnpackedFloat → Prop
  | .notANumber => True
  | .infinity s => s = .negative
  | u => value u ≤ y

/-- `u` is at least `y`, or not a number. -/
def AtLeast (y : ℚ) : UnpackedFloat → Prop
  | .notANumber => True
  | .infinity s => s = .positive
  | u => y ≤ value u

section values

variable {s s₁ s₂ : Sign} {u : UnpackedFloat} {q v v₁ v₂ y : ℚ}

theorem signed_mul (s₁ s₂ : Sign) (v₁ v₂ : ℚ) :
    signed (s₁ * s₂) (v₁ * v₂) = signed s₁ v₁ * signed s₂ v₂ := by
  cases s₁ <;> cases s₂
  · exact (neg_mul_neg v₁ v₂).symm
  · exact (neg_mul v₁ v₂).symm
  · exact (mul_neg v₁ v₂).symm
  · rfl

theorem signed_div (s₁ s₂ : Sign) (v₁ v₂ : ℚ) :
    signed (s₁ / s₂) (v₁ / v₂) = signed s₁ v₁ / signed s₂ v₂ := by
  cases s₁ <;> cases s₂
  · exact (neg_div_neg_eq v₁ v₂).symm
  · exact (neg_div v₂ v₁).symm
  · exact (div_neg v₁).symm
  · rfl

theorem signed_neg (s : Sign) (v : ℚ) : signed (-s) v = -signed s v := by
  cases s
  · exact (neg_neg v).symm
  · rfl

theorem signed_apply (s : Sign) (m : ℕ) : ((s.apply m : ℤ) : ℚ) = signed s m := by
  cases s
  · exact Int.cast_neg m
  · rfl

theorem value_of_signed (h : Signed s u) : value u = signed s (magnitude u) := by
  cases u with
  | zero s' => cases s <;> simp [value, magnitude, signed]
  | finite s' m e hm => rw [value, magnitude, show s' = s from h]
  | infinity s' => exact h.elim
  | notANumber => exact h.elim

theorem atMost_of_signed (h : Signed s u) (hy : value u ≤ y) : AtMost y u := by
  cases u with
  | infinity s' => exact h.elim
  | notANumber => trivial
  | zero s' => exact hy
  | finite s' m e hm => exact hy

theorem atLeast_of_signed (h : Signed s u) (hy : y ≤ value u) : AtLeast y u := by
  cases u with
  | infinity s' => exact h.elim
  | notANumber => trivial
  | zero s' => exact hy
  | finite s' m e hm => exact hy

end values

/-! ### Rounded results -/

/-- A number whose magnitude is on the grid. -/
def OnGrid (y : ℚ) : Prop := Dyadic |y|

/-- `u` is `q`, rounded. -/
structure RoundsTo (q : ℚ) (u : UnpackedFloat) : Prop where
  canonical : Canonical u
  positive : 0 < q → Signed .positive u
  negative : q < 0 → Signed .negative u
  atMost : ∀ {y}, OnGrid y → q ≤ y → AtMost y u
  atLeast : ∀ {y}, OnGrid y → y ≤ q → AtLeast y u

section results

variable {s s₁ s₂ : Sign} {u : UnpackedFloat} {m m₁ m₂ : ℕ} {e e₁ e₂ : ℤ}
  {h₁ : 0 < m₁} {h₂ : 0 < m₂}
  {q v y : ℚ}

theorem magnitude_nonneg (u : UnpackedFloat) : 0 ≤ magnitude u := by
  cases u with
  | finite s m e hm => exact mul_nonneg (Nat.cast_nonneg m) (two_zpow_pos e).le
  | _ => exact le_refl _

theorem Rounds.roundsTo_positive (h : Rounds .positive v u) (hv : 0 < v) : RoundsTo v u where
  canonical := h.canonical
  positive _ := h.sign
  negative hneg := absurd hneg hv.not_gt
  atMost hy hle := by
    refine atMost_of_signed h.sign ?_
    rw [value_of_signed h.sign]
    exact h.le (by rwa [OnGrid, abs_of_nonneg (hv.le.trans hle)] at hy) hle
  atLeast {y} hy hle := by
    refine atLeast_of_signed h.sign ?_
    rw [value_of_signed h.sign]
    obtain hneg | hnonneg := lt_or_ge y 0
    · exact hneg.le.trans (magnitude_nonneg u)
    · exact h.ge (by rwa [OnGrid, abs_of_nonneg hnonneg] at hy) hle

theorem Rounds.roundsTo_negative (h : Rounds .negative v u) (hv : 0 < v) : RoundsTo (-v) u where
  canonical := h.canonical
  positive hpos := absurd hpos (by linarith)
  negative _ := h.sign
  atMost {y} hy hle := by
    refine atMost_of_signed h.sign ?_
    rw [value_of_signed h.sign, signed]
    obtain hneg | hnonneg := lt_or_ge y 0
    · have := h.ge (by rwa [OnGrid, abs_of_neg hneg] at hy) (by linarith)
      linarith
    · linarith [magnitude_nonneg u]
  atLeast {y} hy hle := by
    refine atLeast_of_signed h.sign ?_
    rw [value_of_signed h.sign, signed]
    have := h.le (by rwa [OnGrid, abs_of_neg (by linarith)] at hy) (show v ≤ -y by linarith)
    linarith

theorem Rounds.roundsTo (h : Rounds s v u) (hv : 0 < v) : RoundsTo (signed s v) u := by
  cases s with
  | positive => exact h.roundsTo_positive hv
  | negative => exact h.roundsTo_negative hv

theorem roundsTo_zero (s : Sign) : RoundsTo 0 (.zero s) where
  canonical := trivial
  positive h := absurd h (lt_irrefl 0)
  negative h := absurd h (lt_irrefl 0)
  atMost _ h := h
  atLeast _ h := h

/-- A canonical float is its own value, rounded. -/
theorem roundsTo_value (hu : Canonical u) (hs : Signed s u) : RoundsTo (value u) u where
  canonical := hu
  positive h := by
    rw [value_of_signed hs] at h
    cases s with
    | positive => exact hs
    | negative => exact absurd h (by rw [signed]; linarith [magnitude_nonneg u])
  negative h := by
    rw [value_of_signed hs] at h
    cases s with
    | positive => exact absurd h (by rw [signed]; linarith [magnitude_nonneg u])
    | negative => exact hs
  atMost _ h := atMost_of_signed hs h
  atLeast _ h := atLeast_of_signed hs h

end results

/-! ### Products and quotients -/

section products

variable {s s₁ s₂ : Sign} {u v : UnpackedFloat} {m m₁ m₂ : ℕ} {e e₁ e₂ : ℤ} {h₁ : 0 < m₁}
  {h₂ : 0 < m₂}

theorem le_lastPlace_of_le_log2 (h : 52 ≤ m.log2) (e : ℤ) : e ≤ lastPlace m e := by
  rw [lastPlace]
  omega

/-- A product of canonical mantissas has enough digits, or too small an exponent. -/
theorem add_le_lastPlace (hu : Canonical (.finite s₁ m₁ e₁ h₁))
    (hv : Canonical (.finite s₂ m₂ e₂ h₂)) : e₁ + e₂ ≤ lastPlace (m₁ * m₂) (e₁ + e₂) := by
  obtain ⟨-, -, hu⟩ := hu
  obtain ⟨-, -, hv⟩ := hv
  have hne : m₁ * m₂ ≠ 0 := (Nat.mul_pos h₁ h₂).ne'
  obtain hlarge | hsmall := le_or_gt (2 ^ 52) (m₁ * m₂)
  · exact le_lastPlace_of_le_log2 ((Nat.le_log2 hne).mpr hlarge) _
  · have hle₁ : m₁ ≤ m₁ * m₂ := Nat.le_mul_of_pos_right m₁ h₂
    have hle₂ : m₂ ≤ m₁ * m₂ := Nat.le_mul_of_pos_left m₂ h₁
    have he : e₁ + e₂ ≤ -1074 := by omega
    exact he.trans (le_max_right _ _)

theorem value_pos (hm : 0 < m) (e : ℤ) : (0 : ℚ) < m * 2 ^ e :=
  mul_pos (Nat.cast_pos.mpr hm) (two_zpow_pos e)

theorem rounds_mul (hu : Canonical (.finite s₁ m₁ e₁ h₁)) (hv : Canonical (.finite s₂ m₂ e₂ h₂)) :
    Rounds (s₁ * s₂) (m₁ * 2 ^ e₁ * (m₂ * 2 ^ e₂))
      (UnpackedFloat.mul Format.binary64 (.finite s₁ m₁ e₁ h₁) (.finite s₂ m₂ e₂ h₂)) := by
  have h : Rounds (s₁ * s₂) ((m₁ * m₂ : ℕ) * 2 ^ (e₁ + e₂)) (roundWithAccuracy Format.binary64
      (s₁ * s₂) (m₁ * m₂) (e₁ + e₂) .exact) :=
    rounds_roundWithAccuracy (by exact rfl) (add_le_lastPlace hu hv)
  rw [zpow_add₀ (by norm_num), Nat.cast_mul, mul_mul_mul_comm] at h
  exact h

theorem roundsTo_mul (hu : Canonical u) (hv : Canonical v) (hsu : Signed s₁ u) (hsv : Signed s₂ v) :
    RoundsTo (value u * value v) (UnpackedFloat.mul Format.binary64 u v) := by
  cases u with
  | infinity => exact hsu.elim
  | notANumber => exact hsu.elim
  | zero s =>
      rw [value_zero, zero_mul]
      cases v with
      | infinity => exact hsv.elim
      | notANumber => exact hsv.elim
      | zero => exact roundsTo_zero _
      | finite => exact roundsTo_zero _
  | finite s m e hm =>
      cases v with
      | infinity => exact hsv.elim
      | notANumber => exact hsv.elim
      | zero =>
          rw [value_zero, mul_zero]
          exact roundsTo_zero _
      | finite s' m' e' hm' =>
          rw [value_finite, value_finite, ← signed_mul]
          exact (rounds_mul hu hv).roundsTo (mul_pos (value_pos hm e) (value_pos hm' e'))

/-- What a division of integers leaves tells how the quotient was cut off. -/
theorem describes_div (n : ℕ) {k : ℕ} (hk : 0 < k) :
    Describes (n / k) ((n : ℚ) / k) (accuracyOfFraction (n % k) k) := by
  have hk' : (0 : ℚ) < k := Nat.cast_pos.mpr hk
  have hdiv : (n : ℚ) / k = (n / k : ℕ) + (n % k : ℕ) / k := by
    have hmul : (n : ℚ) = k * (n / k : ℕ) + (n % k : ℕ) := by
      exact_mod_cast (Nat.div_add_mod n k).symm
    rw [div_eq_iff hk'.ne', add_mul, div_mul_cancel₀ _ hk'.ne']
    linarith
  have hmod : ((n % k : ℕ) : ℚ) / k < 1 := (div_lt_one hk').mpr (by exact_mod_cast Nat.mod_lt n hk)
  rw [hdiv, accuracyOfFraction]
  split
  next h => simp [Describes, h]
  next h =>
    have hpos : (0 : ℚ) < (n % k : ℕ) / k := div_pos (by exact_mod_cast Nat.pos_of_ne_zero h) hk'
    obtain hlt | heq | hgt := lt_trichotomy (2 * (n % k)) k
    · rw [Nat.compare_eq_lt.mpr hlt]
      have hhalf : ((n % k : ℕ) : ℚ) / k < 1 / 2 := by
        rw [div_lt_iff₀ hk']
        have : (2 : ℚ) * (n % k : ℕ) < k := by exact_mod_cast hlt
        linarith
      constructor <;> linarith
    · rw [Nat.compare_eq_eq.mpr heq]
      have hhalf : ((n % k : ℕ) : ℚ) / k = 1 / 2 := by
        rw [div_eq_iff hk'.ne']
        have : (2 : ℚ) * (n % k : ℕ) = k := by exact_mod_cast heq
        linarith
      rw [hhalf]
      exact rfl
    · rw [Nat.compare_eq_gt.mpr hgt]
      have hhalf : 1 / 2 < ((n % k : ℕ) : ℚ) / k := by
        rw [lt_div_iff₀ hk']
        have : (k : ℚ) < 2 * (n % k : ℕ) := by exact_mod_cast hgt
        linarith
      constructor <;> linarith

/-- A division appends enough zeros for its quotient to have all the digits that are kept. -/
theorem le_log2_div (h₁ : 0 < m₁) (h₂ : 0 < m₂) {k : ℕ} (h : 53 + m₂.log2 ≤ m₁.log2 + k) :
    52 ≤ ((m₁ <<< k) / m₂).log2 := by
  have hle : 2 ^ 52 ≤ (m₁ <<< k) / m₂ := by
    rw [Nat.le_div_iff_mul_le h₂, Nat.shiftLeft_eq]
    calc 2 ^ 52 * m₂ ≤ 2 ^ 52 * 2 ^ (m₂.log2 + 1) :=
          Nat.mul_le_mul_left _ Nat.lt_log2_self.le
      _ = 2 ^ (53 + m₂.log2) := by rw [← pow_add]; congr 1; omega
      _ ≤ 2 ^ (m₁.log2 + k) := Nat.pow_le_pow_right (by norm_num) h
      _ = 2 ^ m₁.log2 * 2 ^ k := pow_add ..
      _ ≤ m₁ * 2 ^ k := Nat.mul_le_mul_right _ (Nat.log2_self_le h₁.ne')
  have hpos : 0 < 2 ^ 52 := by norm_num
  exact (Nat.le_log2 (by omega)).mpr hle

theorem rounds_div (s₁ s₂ : Sign) (h₁ : 0 < m₁) (h₂ : 0 < m₂) (e₁ e₂ : ℤ) :
    Rounds (s₁ / s₂) (m₁ * 2 ^ e₁ / (m₂ * 2 ^ e₂))
      (UnpackedFloat.div Format.binary64 (.finite s₁ m₁ e₁ h₁) (.finite s₂ m₂ e₂ h₂)) := by
  have htarget : Format.binary64.targetExponent (totalExponent m₁ e₁ - totalExponent m₂ e₂) =
      max (m₁.log2 + e₁ - (m₂.log2 + e₂) - 53) (-1074) := by
    simp only [Format.targetExponent, totalExponent, Format.mantissaBits, Format.minExponent]
    norm_num
    omega
  simp only [UnpackedFloat.div, divCore, htarget]
  generalize hte : min (e₁ - e₂) (max (m₁.log2 + e₁ - (m₂.log2 + e₂) - 53) (-1074)) = te
  generalize hk : (e₁ - e₂ - te).toNat = k
  have hle : te ≤ lastPlace ((m₁ <<< k) / m₂) te := by
    by_cases hmin : te ≤ -1074
    · exact hmin.trans (le_max_right _ _)
    · exact le_lastPlace_of_le_log2 (le_log2_div h₁ h₂ (by omega)) te
  have hquot : (m₁ * 2 ^ e₁ / (m₂ * 2 ^ e₂) : ℚ) = ((m₁ <<< k : ℕ) : ℚ) / m₂ * 2 ^ te := by
    have hexp : e₁ = e₂ + k + te := by omega
    have hm₂ : (m₂ : ℚ) ≠ 0 := (Nat.cast_pos.mpr h₂).ne'
    have he₂ : (2 : ℚ) ^ e₂ ≠ 0 := (two_zpow_pos e₂).ne'
    rw [hexp, zpow_add₀ (by norm_num), zpow_add₀ (by norm_num), zpow_natCast, Nat.shiftLeft_eq]
    push_cast
    field_simp
  rw [hquot]
  exact rounds_roundWithAccuracy (describes_div _ h₂) hle

theorem roundsTo_div (hsu : Signed s₁ u) (hsv : Signed s₂ v) (hv : value v ≠ 0) :
    RoundsTo (value u / value v) (UnpackedFloat.div Format.binary64 u v) := by
  cases v with
  | infinity => exact hsv.elim
  | notANumber => exact hsv.elim
  | zero => exact absurd rfl hv
  | finite s' m' e' hm' =>
      cases u with
      | infinity => exact hsu.elim
      | notANumber => exact hsu.elim
      | zero s =>
          rw [value_zero, zero_div]
          exact roundsTo_zero _
      | finite s m e hm =>
          rw [value_finite, value_finite, ← signed_div]
          exact (rounds_div s s' hm hm' e e').roundsTo (div_pos (value_pos hm e) (value_pos hm' e'))

end products

/-! ### Sums and differences -/

section sums

variable {s s₁ s₂ : Sign} {u v : UnpackedFloat}

theorem roundsTo_normalize (m e : ℤ) (s : Sign) :
    RoundsTo (m * 2 ^ e) (UnpackedFloat.normalize Format.binary64 m e s) := by
  unfold UnpackedFloat.normalize
  obtain hlt | rfl | hgt := lt_trichotomy m 0
  · rw [Int.compare_eq_lt.mpr hlt]
    have hpos : 0 < (-m).toNat := by omega
    have hcast : (((-m).toNat : ℕ) : ℚ) = -m := by
      exact_mod_cast Int.toNat_of_nonneg (by omega : 0 ≤ -m)
    have h := (rounds_round hpos .negative e).roundsTo (value_pos hpos e)
    rwa [signed, hcast, neg_mul, neg_neg] at h
  · rw [Int.cast_zero, zero_mul]
    exact roundsTo_zero s
  · rw [Int.compare_eq_gt.mpr hgt]
    have hpos : 0 < m.toNat := by omega
    have hcast : ((m.toNat : ℕ) : ℚ) = m := by exact_mod_cast Int.toNat_of_nonneg hgt.le
    have h := (rounds_round hpos .positive e).roundsTo (value_pos hpos e)
    rwa [signed, hcast] at h

/-- Appending zeros keeps the value. -/
theorem apply_decreaseExponent {m : ℕ} {e t : ℤ} (hm : 0 < m) (h : t ≤ e) :
    ((s.apply (decreaseExponent m e t).1 : ℤ) : ℚ) * 2 ^ t = value (.finite s m e hm) := by
  have hexp : t = e - (e - t).toNat := by omega
  have hshift := shiftLeft_mul_two_zpow m (e - t).toNat e
  rw [← hexp] at hshift
  rw [signed_apply, value_finite, ← hshift]
  cases s <;> simp [signed, decreaseExponent]

theorem roundsTo_add (hu : Canonical u) (hv : Canonical v) (hsu : Signed s₁ u) (hsv : Signed s₂ v) :
    RoundsTo (value u + value v) (UnpackedFloat.add Format.binary64 u v) := by
  cases u with
  | infinity => exact hsu.elim
  | notANumber => exact hsu.elim
  | zero s =>
      rw [value_zero, zero_add]
      cases v with
      | infinity => exact hsv.elim
      | notANumber => exact hsv.elim
      | zero s' =>
          rw [UnpackedFloat.add]
          split <;> exact roundsTo_zero _
      | finite => exact roundsTo_value hv hsv
  | finite s m e hm =>
      cases v with
      | infinity => exact hsv.elim
      | notANumber => exact hsv.elim
      | zero =>
          rw [value_zero, add_zero]
          exact roundsTo_value hu hsu
      | finite s' m' e' hm' =>
          rw [← apply_decreaseExponent hm (min_le_left e e'),
            ← apply_decreaseExponent hm' (min_le_right e e'), ← add_mul, ← Int.cast_add]
          exact roundsTo_normalize _ _ _

/-! ### Opposites -/

theorem value_neg (u : UnpackedFloat) : value u.neg = -value u := by
  cases u with
  | finite s m e hm => exact signed_neg s _
  | _ => exact neg_zero.symm

theorem Canonical.neg (hu : Canonical u) : Canonical u.neg := by
  cases u with
  | finite => exact hu
  | _ => exact trivial

/-- A difference is the sum with the opposite. -/
theorem sub_eq_add (u v : UnpackedFloat) :
    UnpackedFloat.sub Format.binary64 u v = UnpackedFloat.add Format.binary64 u v.neg := by
  cases u with
  | notANumber => cases v <;> rfl
  | infinity s =>
      cases v with
      | infinity s' => cases s <;> cases s' <;> rfl
      | _ => rfl
  | zero s =>
      cases v with
      | zero s' => cases s <;> cases s' <;> rfl
      | _ => rfl
  | finite s m e hm =>
      cases v with
      | finite s' m' e' hm' =>
          have hneg (n : ℕ) : ((-s').apply n : ℤ) = -(s'.apply n) := by
            cases s' with
            | positive => rfl
            | negative => exact (neg_neg (n : ℤ)).symm
          unfold UnpackedFloat.sub UnpackedFloat.neg UnpackedFloat.add
          simp only [hneg, ← sub_eq_add_neg]
      | _ => rfl

end sums

end MediaSender.Binary64
