import MediaSender.Proofs.Binary64.Bounds

/-! # Order of floats

Floats are compared by sign, exponent and mantissa.  On canonical floats this is the order of their
values (`compare_eq`), because a number with a larger exponent has all 53 digits
(`magnitude_lt_of_lt`).

* **Comparisons.** What a comparison with a finite float says is a bound (`atMost_of_lt`,
  `atLeast_of_not_le` and so on).
* **Selection.** The larger of two floats, and a float that is kept between two others, have the
  bounds that follow.
* **Shares.** A positive float does not grow by a factor of at most one (`mul_le_self`). -/

namespace MediaSender.Binary64

open Float.Model Float.Model.UnpackedFloat

/-! ### Comparison of parts -/

section parts

variable {s s₁ s₂ : Sign} {u v : UnpackedFloat} {m₁ m₂ : ℕ} {e₁ e₂ : ℤ} {h₁ : 0 < m₁} {h₂ : 0 < m₂}

theorem magnitude_lt_of_lt (hu : Canonical (.finite s₁ m₁ e₁ h₁))
    (hv : Canonical (.finite s₂ m₂ e₂ h₂)) (h : e₁ < e₂) : (m₁ : ℚ) * 2 ^ e₁ < m₂ * 2 ^ e₂ := by
  obtain ⟨hm₁, hmin, -⟩ := hu
  obtain ⟨-, -, hm₂⟩ := hv
  have hm₁' : (m₁ : ℚ) < 2 ^ 53 := by exact_mod_cast hm₁
  have hm₂' : (2 : ℚ) ^ 52 ≤ m₂ := by exact_mod_cast (by omega : 2 ^ 52 ≤ m₂)
  have hstep : (2 : ℚ) ^ e₁ * 2 ≤ 2 ^ e₂ := by
    rw [← zpow_add_one₀ (by norm_num)]
    exact zpow_le_zpow_right₀ (by norm_num) (by omega)
  calc (m₁ : ℚ) * 2 ^ e₁ < 2 ^ 53 * 2 ^ e₁ := mul_lt_mul_of_pos_right hm₁' (two_zpow_pos e₁)
    _ = 2 ^ 52 * (2 ^ e₁ * 2) := by ring
    _ ≤ m₂ * 2 ^ e₂ := mul_le_mul hm₂' hstep (by positivity) (Nat.cast_nonneg m₂)

/-- Exponents are compared first. -/
theorem lex_eq_compare (hu : Canonical (.finite s₁ m₁ e₁ h₁))
    (hv : Canonical (.finite s₂ m₂ e₂ h₂)) :
    (compare e₁ e₂).then (compare m₁ m₂) = compare ((m₁ : ℚ) * 2 ^ e₁) (m₂ * 2 ^ e₂) := by
  obtain hlt | rfl | hgt := lt_trichotomy e₁ e₂
  · rw [compare_lt_iff_lt.mpr hlt, compare_lt_iff_lt.mpr (magnitude_lt_of_lt hu hv hlt)]
    rfl
  · have hpos := two_zpow_pos e₁
    rw [compare_eq_iff_eq.mpr rfl]
    obtain hlt | rfl | hgt := lt_trichotomy m₁ m₂
    · rw [compare_lt_iff_lt.mpr hlt, compare_lt_iff_lt.mpr
        (mul_lt_mul_of_pos_right (Nat.cast_lt.mpr hlt) hpos)]
      rfl
    · rw [compare_eq_iff_eq.mpr rfl, compare_eq_iff_eq.mpr rfl]
      rfl
    · rw [compare_gt_iff_gt.mpr hgt, compare_gt_iff_gt.mpr
        (mul_lt_mul_of_pos_right (Nat.cast_lt.mpr hgt) hpos)]
      rfl
  · rw [compare_gt_iff_gt.mpr hgt, compare_gt_iff_gt.mpr (magnitude_lt_of_lt hv hu hgt)]
    rfl

theorem swap_compare (x y : ℚ) : (compare x y).swap = compare (-x) (-y) := by
  obtain hlt | rfl | hgt := lt_trichotomy x y
  · rw [compare_lt_iff_lt.mpr hlt, compare_gt_iff_gt.mpr (neg_lt_neg hlt)]
    rfl
  · rw [compare_eq_iff_eq.mpr rfl, compare_eq_iff_eq.mpr rfl]
    rfl
  · rw [compare_gt_iff_gt.mpr hgt, compare_lt_iff_lt.mpr (neg_lt_neg hgt)]
    rfl

/-- Canonical finite floats are compared as the numbers that they stand for. -/
theorem compare_eq (hu : Canonical u) (hv : Canonical v) (hsu : Signed s₁ u) (hsv : Signed s₂ v) :
    u.compare v = some (compare (value u) (value v)) := by
  cases u with
  | infinity => exact hsu.elim
  | notANumber => exact hsu.elim
  | zero s =>
      cases v with
      | infinity => exact hsv.elim
      | notANumber => exact hsv.elim
      | zero => rw [value_zero, value_zero, compare_eq_iff_eq.mpr rfl]; rfl
      | finite s' m e hm =>
          rw [value_zero, value_finite]
          cases s' with
          | positive => rw [signed, compare_lt_iff_lt.mpr (value_pos hm e)]; rfl
          | negative => rw [signed, compare_gt_iff_gt.mpr (neg_lt_zero.mpr (value_pos hm e))]; rfl
  | finite s m e hm =>
      cases v with
      | infinity => exact hsv.elim
      | notANumber => exact hsv.elim
      | zero =>
          rw [value_zero, value_finite]
          cases s with
          | positive => rw [signed, compare_gt_iff_gt.mpr (value_pos hm e)]; rfl
          | negative => rw [signed, compare_lt_iff_lt.mpr (neg_lt_zero.mpr (value_pos hm e))]; rfl
      | finite s' m' e' hm' =>
          have hpos := value_pos hm e
          have hpos' := value_pos hm' e'
          rw [value_finite, value_finite]
          cases s with
          | positive =>
              cases s' with
              | positive => rw [signed, signed, ← lex_eq_compare hu hv]; rfl
              | negative =>
                  rw [signed, signed, compare_gt_iff_gt.mpr (by show -_ < _; linarith)]
                  rfl
          | negative =>
              cases s' with
              | positive => rw [signed, signed, compare_lt_iff_lt.mpr (by linarith)]; rfl
              | negative =>
                  rw [signed, signed, ← swap_compare, ← lex_eq_compare hu hv]
                  rfl

/-- What the outcome of a comparison with a finite float says. -/
theorem compare_right (hu : Canonical u) (hv : Canonical v) (hsv : Signed s v) :
    (u = .notANumber ∧ u.compare v = none) ∨
      ∃ o, u.compare v = some o ∧ (o ≠ .gt → AtMost (value v) u) ∧
        (o ≠ .lt → AtLeast (value v) u) := by
  obtain rfl | ⟨s', rfl⟩ | ⟨s₁, hs₁⟩ := special_or_signed u
  · exact .inl ⟨rfl, rfl⟩
  · right
    cases s' with
    | positive =>
        refine ⟨.gt, ?_, fun h => absurd rfl h, fun _ => rfl⟩
        cases v <;> first | exact hsv.elim | rfl
    | negative =>
        refine ⟨.lt, ?_, fun _ => rfl, fun h => absurd rfl h⟩
        cases v <;> first | exact hsv.elim | rfl
  · refine .inr ⟨_, compare_eq hu hv hs₁ hsv, fun h => ?_, fun h => ?_⟩
    · exact atMost_of_signed hs₁ (not_lt.mp fun hgt => h (compare_gt_iff_gt.mpr hgt))
    · exact atLeast_of_signed hs₁ (not_lt.mp fun hlt => h (compare_lt_iff_lt.mpr hlt))

@[inherit_doc compare_right]
theorem compare_left (hu : Canonical u) (hv : Canonical v) (hsv : Signed s v) :
    (u = .notANumber ∧ v.compare u = none) ∨
      ∃ o, v.compare u = some o ∧ (o ≠ .lt → AtMost (value v) u) ∧
        (o ≠ .gt → AtLeast (value v) u) := by
  obtain rfl | ⟨s', rfl⟩ | ⟨s₁, hs₁⟩ := special_or_signed u
  · exact .inl ⟨rfl, by cases v <;> rfl⟩
  · right
    cases s' with
    | positive =>
        refine ⟨.lt, ?_, fun h => absurd rfl h, fun _ => rfl⟩
        cases v <;> first | exact hsv.elim | rfl
    | negative =>
        refine ⟨.gt, ?_, fun _ => rfl, fun h => absurd rfl h⟩
        cases v <;> first | exact hsv.elim | rfl
  · refine .inr ⟨_, compare_eq hv hu hsv hs₁, fun h => ?_, fun h => ?_⟩
    · exact atMost_of_signed hs₁ (not_lt.mp fun hlt => h (compare_lt_iff_lt.mpr hlt))
    · exact atLeast_of_signed hs₁ (not_lt.mp fun hgt => h (compare_gt_iff_gt.mpr hgt))

end parts

/-! ### Comparison of floats -/

section floats

variable {s : Sign} {x y : Float} {q : ℚ}

theorem le_iff (x y : Float) : x ≤ y ↔ ((parts x).compare (parts y)).any (·.isLE) = true :=
  decide_eq_true_iff

theorem lt_iff (x y : Float) : x < y ↔ ((parts x).compare (parts y) == some .lt) = true :=
  decide_eq_true_iff

/-- Finite floats are compared as the numbers that they stand for. -/
theorem le_iff_value_le {s₁ s₂ : Sign} (hx : Signed s₁ (parts x)) (hy : Signed s₂ (parts y)) :
    x ≤ y ↔ value (parts x) ≤ value (parts y) := by
  rw [le_iff, compare_eq (canonical_parts x) (canonical_parts y) hx hy, Option.any_some,
    ← Ordering.ne_gt_iff_isLE]
  exact compare_le_iff_le

theorem atLeast_of_le (hy : Signed s (parts y)) (h : y ≤ x) :
    AtLeast (value (parts y)) (parts x) := by
  rw [le_iff] at h
  obtain ⟨hn, -⟩ | ⟨o, ho, -, hleast⟩ := compare_left (canonical_parts x) (canonical_parts y) hy
  · rw [hn]
    exact trivial
  · rw [ho] at h
    exact hleast (by rintro rfl; cases h)

theorem atLeast_of_not_le (hy : Signed s (parts y)) (h : ¬x ≤ y) :
    AtLeast (value (parts y)) (parts x) := by
  rw [le_iff] at h
  obtain ⟨hn, -⟩ | ⟨o, ho, -, hleast⟩ := compare_right (canonical_parts x) (canonical_parts y) hy
  · rw [hn]
    exact trivial
  · rw [ho] at h
    exact hleast (by rintro rfl; exact h rfl)

theorem atLeast_of_not_lt (hy : Signed s (parts y)) (h : ¬x < y) :
    AtLeast (value (parts y)) (parts x) := by
  rw [lt_iff] at h
  obtain ⟨hn, -⟩ | ⟨o, ho, -, hleast⟩ := compare_right (canonical_parts x) (canonical_parts y) hy
  · rw [hn]
    exact trivial
  · rw [ho] at h
    exact hleast (by rintro rfl; exact h rfl)

theorem atMost_of_not_lt (hy : Signed s (parts y)) (h : ¬y < x) :
    AtMost (value (parts y)) (parts x) := by
  rw [lt_iff] at h
  obtain ⟨hn, -⟩ | ⟨o, ho, hmost, -⟩ := compare_left (canonical_parts x) (canonical_parts y) hy
  · rw [hn]
    exact trivial
  · rw [ho] at h
    exact hmost (by rintro rfl; exact h rfl)

theorem atMost_of_lt (hy : Signed s (parts y)) (h : x < y) :
    AtMost (value (parts y)) (parts x) := by
  rw [lt_iff] at h
  obtain ⟨hn, -⟩ | ⟨o, ho, hmost, -⟩ := compare_right (canonical_parts x) (canonical_parts y) hy
  · rw [hn]
    exact trivial
  · rw [ho] at h
    exact hmost (by rintro rfl; cases h)

end floats

/-! ### Selection -/

section selection

variable {s : Sign} {a b lo hi x : Float} {q : ℚ}

theorem atMost_value (hb : Signed s (parts b)) : AtMost (value (parts b)) (parts b) :=
  atMost_of_signed hb le_rfl

theorem atLeast_value (hb : Signed s (parts b)) : AtLeast (value (parts b)) (parts b) :=
  atLeast_of_signed hb le_rfl

theorem atMost_maximum (ha : AtMost q (parts a)) (hb : AtMost q (parts b)) :
    AtMost q (parts (maximum a b)) := by
  unfold maximum
  split
  next => exact hb
  next => exact ha

theorem atLeast_maximum (hb : Signed s (parts b)) :
    AtLeast (value (parts b)) (parts (maximum a b)) := by
  unfold maximum
  split
  next => exact atLeast_value hb
  next h =>
    rw [Bool.or_eq_true, not_or, decide_eq_true_iff] at h
    exact atLeast_of_not_le hb h.1

theorem atLeast_clamp (hlo : Signed s (parts lo)) (h : AtLeast (value (parts lo)) (parts hi))
    (x : Float) : AtLeast (value (parts lo)) (parts (clamp lo hi x)) := by
  unfold clamp
  split
  next => exact atLeast_value hlo
  next hx =>
    split
    next => exact h
    next => exact atLeast_of_not_lt hlo hx

theorem atMost_clamp (hhi : Signed s (parts hi)) (h : AtMost (value (parts hi)) (parts lo))
    (x : Float) : AtMost (value (parts hi)) (parts (clamp lo hi x)) := by
  unfold clamp
  split
  next => exact h
  next =>
    split
    next => exact atMost_value hhi
    next hx => exact atMost_of_not_lt hhi hx

end selection

/-! ### Shares -/

section shares

variable {x y : Float} {u : UnpackedFloat} {b q : ℚ}

/-- A positive number that is not too large is finite and positive in a word. -/
theorem RoundsTo.signed_pack (h : RoundsTo q u) (hq : 0 < q) (hb : Representable b) (hle : q ≤ b) :
    Signed .positive (Float.Model.pack u).unpack := by
  have hs := h.positive hq
  have hupper := (h.atMost hb.1 hle).value_le hs
  obtain hback | ⟨s, v, -, hs', hvalue, hlarge⟩ := unpack_pack_cases h.canonical
  · rwa [hback]
  · -- its magnitude would be `limit` at least
    have hlower := (h.atLeast onGrid_zero hq.le).le_value hs
    have hlimit : 0 < limit := by rw [limit]; positivity
    cases s with
    | negative =>
        rw [hvalue, signed] at hlower
        linarith
    | positive =>
        rw [hvalue, signed] at hupper
        linarith [le_abs_self b, hb.2]

/-- A positive number does not grow by a factor of at most one. -/
theorem mul_le_self (hx : Signed .positive (parts x)) (hx₀ : 0 < value (parts x))
    (hy : Signed .positive (parts y)) (hy₀ : 0 < value (parts y)) (hy₁ : value (parts y) ≤ 1) :
    x * y ≤ x := by
  have hrep := representable_value hx
  have hprod : value (parts x) * value (parts y) ≤ value (parts x) :=
    mul_le_of_le_one_right hx₀.le hy₁
  have hr := roundsTo_mul (canonical_parts x) (canonical_parts y) hx hy
  have hs : Signed .positive (parts (x * y)) := hr.signed_pack (mul_pos hx₀ hy₀) hrep hprod
  have hmost : AtMost (value (parts x)) (parts (x * y)) :=
    atMost_pack hr.canonical hrep.2 (hr.atMost hrep.1 hprod)
  rw [le_iff_value_le hs hx]
  exact hmost.value_le hs

end shares

end MediaSender.Binary64
