import MediaSender.Binary64
import MediaSender.Proofs.Binary64.Packing

/-! # Bounds of floats

What is known of a float in an estimate is often only that it is not above or not below a rational
number, or that it carries no minus sign.  Not a number satisfies every bound, because a quantity
that comes of it is zero.

* **Words.** A bound whose magnitude is below `2 ^ 1024` survives that the result of an operation
  is put into a word (`atMost_pack`, `atLeast_pack`).
* **Operations.** The exact bound of a result that is `Representable` is a bound of the float
  (`atMost_mul`, `atMost_div`, `atMost_add`, `atMost_sub`).
* **Signs.** Sums, products and quotients of floats without a minus sign are `Unsigned`. -/

namespace MediaSender.Binary64

open Float.Model Float.Model.UnpackedFloat

/-- What a float stands for. -/
def parts (x : Float) : UnpackedFloat := x.toModel.unpack

/-- `u` has no minus sign, or is not a number. -/
def Unsigned : UnpackedFloat → Prop
  | .notANumber => True
  | .infinity s => s = .positive
  | .zero s => s = .positive
  | .finite s _ _ _ => s = .positive

/-- The least power of two that no float reaches. -/
def limit : ℚ := 2 ^ 1024

/-- A float of this value exists. -/
def Representable (y : ℚ) : Prop := OnGrid y ∧ |y| < limit

theorem onGrid_zero : OnGrid 0 := ⟨0, 0, by norm_num, by norm_num, by norm_num⟩

/-! ### Words -/

section words

variable {u : UnpackedFloat} {y : ℚ}

/-- The parts of a float are finite, unless they are special. -/
theorem special_or_signed (u : UnpackedFloat) :
    u = .notANumber ∨ (∃ s, u = .infinity s) ∨ ∃ s, Signed s u := by
  cases u with
  | notANumber => exact .inl rfl
  | infinity s => exact .inr (.inl ⟨s, rfl⟩)
  | zero s => exact .inr (.inr ⟨s, rfl⟩)
  | finite s m e hm => exact .inr (.inr ⟨s, rfl⟩)

/-- A number that is too large for a word. -/
theorem limit_le_of_overflow {s : Sign} {m : ℕ} {e : ℤ} {hm : 0 < m}
    (hu : Canonical (.finite s m e hm)) (he : 971 < e) : limit ≤ m * 2 ^ e := by
  obtain ⟨-, -, hdigits⟩ := hu
  have hm' : ((2 ^ 52 : ℕ) : ℚ) ≤ m := by exact_mod_cast (by omega : 2 ^ 52 ≤ m)
  have he' : (2 : ℚ) ^ (972 : ℤ) ≤ 2 ^ e := zpow_le_zpow_right₀ (by norm_num) (by omega)
  have hlimit : limit = ((2 ^ 52 : ℕ) : ℚ) * 2 ^ (972 : ℤ) := by
    rw [limit, Nat.cast_pow, Nat.cast_ofNat, ← zpow_natCast, ← zpow_natCast,
      ← zpow_add₀ (by norm_num)]
    rfl
  rw [hlimit]
  exact mul_le_mul hm' he' (two_zpow_pos 972).le (Nat.cast_nonneg m)

/-- Either a float comes back from a word, or it is too large. -/
theorem unpack_pack_cases (hu : Canonical u) :
    (Float.Model.pack u).unpack = u ∨
      ∃ s v, (Float.Model.pack u).unpack = .infinity s ∧ Signed s u ∧ value u = signed s v ∧
        limit ≤ v := by
  by_cases hf : Fits u
  · exact .inl (unpack_pack hu hf)
  · cases u with
    | finite s m e hm =>
        have he : 971 < e := not_le.mp hf
        exact .inr ⟨s, m * 2 ^ e, unpack_pack_of_overflow he, rfl, rfl, limit_le_of_overflow hu he⟩
    | _ => exact absurd trivial hf

theorem atMost_pack (hu : Canonical u) (hy : |y| < limit) (h : AtMost y u) :
    AtMost y (Float.Model.pack u).unpack := by
  obtain hback | ⟨s, v, hinf, hs, hvalue, hlarge⟩ := unpack_pack_cases hu
  · rwa [hback]
  · rw [hinf]
    cases s with
    | negative => exact rfl
    | positive =>
        have hle : value u ≤ y := by
          cases u with
          | finite => exact h
          | zero => exact h
          | _ => exact hs.elim
        rw [hvalue, signed] at hle
        linarith [le_abs_self y]

theorem atLeast_pack (hu : Canonical u) (hy : |y| < limit) (h : AtLeast y u) :
    AtLeast y (Float.Model.pack u).unpack := by
  obtain hback | ⟨s, v, hinf, hs, hvalue, hlarge⟩ := unpack_pack_cases hu
  · rwa [hback]
  · rw [hinf]
    cases s with
    | positive => exact rfl
    | negative =>
        have hle : y ≤ value u := by
          cases u with
          | finite => exact h
          | zero => exact h
          | _ => exact hs.elim
        rw [hvalue, signed] at hle
        linarith [neg_abs_le y]

theorem unsigned_pack (hu : Canonical u) (h : Unsigned u) :
    Unsigned (Float.Model.pack u).unpack := by
  obtain hback | ⟨s, v, hinf, hs, -, -⟩ := unpack_pack_cases hu
  · rwa [hback]
  · rw [hinf]
    cases u with
    | finite => exact hs.symm.trans h
    | zero => exact hs.symm.trans h
    | _ => exact hs.elim

end words

/-! ### Operations on parts -/

section operations

variable {s : Sign} {u v : UnpackedFloat} {a b c y : ℚ}

theorem AtMost.value_le (h : AtMost y u) (hs : Signed s u) : value u ≤ y := by
  cases u with
  | finite => exact h
  | zero => exact h
  | _ => exact hs.elim

theorem AtLeast.le_value (h : AtLeast y u) (hs : Signed s u) : y ≤ value u := by
  cases u with
  | finite => exact h
  | zero => exact h
  | _ => exact hs.elim

theorem signed_finite (s : Sign) {m : ℕ} (e : ℤ) (hm : 0 < m) : Signed s (.finite s m e hm) := rfl

/-- A number that is finite, not zero and not below zero has the sign plus. -/
theorem AtLeast.positive_of_finite {s : Sign} {m : ℕ} {e : ℤ} {hm : 0 < m}
    (h : AtLeast 0 (.finite s m e hm)) : s = .positive := by
  cases s with
  | positive => rfl
  | negative =>
      have hle : 0 ≤ -((m : ℚ) * 2 ^ e) := h
      linarith [value_pos hm e]

theorem AtLeast.mono (h : AtLeast b u) (hab : a ≤ b) : AtLeast a u := by
  cases u with
  | finite => exact hab.trans h
  | zero => exact hab.trans h
  | _ => exact h

theorem AtMost.mono (h : AtMost a u) (hab : a ≤ b) : AtMost b u := by
  cases u with
  | finite => exact le_trans h hab
  | zero => exact le_trans h hab
  | _ => exact h

theorem Unsigned.atLeast_zero (h : Unsigned u) : AtLeast 0 u := by
  cases u with
  | finite s m e hm =>
      obtain rfl : s = .positive := h
      exact (value_pos hm e).le
  | zero => exact le_refl _
  | infinity => exact h
  | notANumber => exact trivial

/-- A number above zero has no minus sign. -/
theorem AtLeast.unsigned (h : AtLeast b u) (hb : 0 < b) : Unsigned u := by
  cases u with
  | finite s m e hm => exact (h.mono hb.le).positive_of_finite
  | zero => exact absurd h (not_le.mpr hb)
  | infinity => exact h
  | notANumber => exact trivial

theorem canonical_mul (hu : Canonical u) (hv : Canonical v) :
    Canonical (UnpackedFloat.mul Format.binary64 u v) := by
  cases u with
  | finite =>
      cases v with
      | finite => exact (roundsTo_mul hu hv rfl rfl).canonical
      | _ => exact trivial
  | _ => cases v <;> exact trivial

theorem canonical_div (v : UnpackedFloat) : Canonical (UnpackedFloat.div Format.binary64 u v) := by
  cases u with
  | finite s m e hm =>
      cases v with
      | finite s' m' e' hm' => exact (rounds_div s s' hm hm' e e').canonical
      | _ => exact trivial
  | _ => cases v <;> exact trivial

theorem canonical_add (hu : Canonical u) (hv : Canonical v) :
    Canonical (UnpackedFloat.add Format.binary64 u v) := by
  obtain rfl | ⟨s, rfl⟩ | ⟨s₁, hs₁⟩ := special_or_signed u
  · exact trivial
  · cases v <;> first | exact trivial | (rw [UnpackedFloat.add]; split <;> exact trivial)
  · obtain rfl | ⟨s, rfl⟩ | ⟨s₂, hs₂⟩ := special_or_signed v
    · cases u <;> exact trivial
    · cases u <;> first | exact trivial | exact hs₁.elim
    · exact (roundsTo_add hu hv hs₁ hs₂).canonical

theorem canonical_sub (hu : Canonical u) (hv : Canonical v) :
    Canonical (UnpackedFloat.sub Format.binary64 u v) := by
  rw [sub_eq_add]
  exact canonical_add hu hv.neg

theorem AtMost.mul (ha : AtMost a u) (hb : AtMost b v) (hu : Canonical u) (hv : Canonical v)
    (h₀ : AtLeast 0 u) (hb₀ : 0 ≤ b) (hc : OnGrid c) (h : a * b ≤ c) :
    AtMost c (UnpackedFloat.mul Format.binary64 u v) := by
  obtain rfl | ⟨s, rfl⟩ | ⟨s₁, hs₁⟩ := special_or_signed u
  · exact trivial
  · exact nomatch (show s = .negative from ha).symm.trans h₀
  · obtain rfl | ⟨s, rfl⟩ | ⟨s₂, hs₂⟩ := special_or_signed v
    · cases u <;> exact trivial
    · obtain rfl : s = .negative := hb
      cases u with
      | finite s' m e hm =>
          obtain rfl := h₀.positive_of_finite
          exact rfl
      | zero => exact trivial
      | _ => exact hs₁.elim
    · refine (roundsTo_mul hu hv hs₁ hs₂).atMost hc ?_
      calc value u * value v ≤ value u * b :=
            mul_le_mul_of_nonneg_left (hb.value_le hs₂) (h₀.le_value hs₁)
        _ ≤ a * b := mul_le_mul_of_nonneg_right (ha.value_le hs₁) hb₀
        _ ≤ c := h

theorem AtLeast.mul (ha : AtLeast a u) (hb : AtLeast b v) (hu : Canonical u) (hv : Canonical v)
    (ha₀ : 0 ≤ a) (hb₀ : 0 ≤ b) (hc : OnGrid c) (h : c ≤ a * b) :
    AtLeast c (UnpackedFloat.mul Format.binary64 u v) := by
  obtain rfl | ⟨s, rfl⟩ | ⟨s₁, hs₁⟩ := special_or_signed u
  · exact trivial
  · obtain rfl : s = .positive := ha
    cases v with
    | infinity s' =>
        obtain rfl : s' = .positive := hb
        exact rfl
    | finite s' m e hm =>
        obtain rfl := (hb.mono hb₀).positive_of_finite
        exact rfl
    | _ => exact trivial
  · obtain rfl | ⟨s, rfl⟩ | ⟨s₂, hs₂⟩ := special_or_signed v
    · cases u <;> exact trivial
    · obtain rfl : s = .positive := hb
      cases u with
      | finite s' m e hm =>
          obtain rfl := (ha.mono ha₀).positive_of_finite
          exact rfl
      | zero => exact trivial
      | _ => exact hs₁.elim
    · refine (roundsTo_mul hu hv hs₁ hs₂).atLeast hc (h.trans ?_)
      exact mul_le_mul (ha.le_value hs₁) (hb.le_value hs₂) hb₀ (ha₀.trans (ha.le_value hs₁))

theorem Signed.unsigned (h : Signed .positive u) : Unsigned u := by
  cases u with
  | finite => exact h
  | zero => exact h
  | _ => exact h.elim

theorem Unsigned.mul (hx : Unsigned u) (hy : Unsigned v) (hu : Canonical u) (hv : Canonical v) :
    Unsigned (UnpackedFloat.mul Format.binary64 u v) := by
  cases u with
  | notANumber => exact trivial
  | infinity s =>
      obtain rfl : s = .positive := hx
      cases v with
      | infinity s' => obtain rfl : s' = .positive := hy; exact rfl
      | finite s' => obtain rfl : s' = .positive := hy; exact rfl
      | _ => exact trivial
  | zero s =>
      obtain rfl : s = .positive := hx
      cases v with
      | zero s' => obtain rfl : s' = .positive := hy; exact rfl
      | finite s' => obtain rfl : s' = .positive := hy; exact rfl
      | _ => exact trivial
  | finite s m e hm =>
      obtain rfl : s = .positive := hx
      cases v with
      | notANumber => exact trivial
      | infinity s' => obtain rfl : s' = .positive := hy; exact rfl
      | zero s' => obtain rfl : s' = .positive := hy; exact rfl
      | finite s' m' e' hm' =>
          obtain rfl : s' = .positive := hy
          exact (rounds_mul hu hv).sign.unsigned

theorem AtMost.div (ha : AtMost a u) (hb : AtLeast b v) (h₀ : AtLeast 0 u) (hb₀ : 0 < b)
    (hc : OnGrid c) (h : a / b ≤ c) : AtMost c (UnpackedFloat.div Format.binary64 u v) := by
  obtain rfl | ⟨s, rfl⟩ | ⟨s₁, hs₁⟩ := special_or_signed u
  · exact trivial
  · exact nomatch (show s = .negative from ha).symm.trans h₀
  · have hua := ha.value_le hs₁
    have hu₀ := h₀.le_value hs₁
    obtain rfl | ⟨s, rfl⟩ | ⟨s₂, hs₂⟩ := special_or_signed v
    · cases u <;> exact trivial
    · have hc₀ : 0 ≤ c := (div_nonneg (hu₀.trans hua) hb₀.le).trans h
      cases u with
      | finite => exact hc₀
      | zero => exact hc₀
      | _ => exact hs₁.elim
    · have hbv := hb.le_value hs₂
      refine (roundsTo_div hs₁ hs₂ (hb₀.trans_le hbv).ne').atMost hc (le_trans ?_ h)
      exact div_le_div₀ (hu₀.trans hua) hua hb₀ hbv

/-- A divisor of zero must not have a minus sign. -/
theorem AtLeast.div (h₀ : AtLeast 0 u) (h₁ : Unsigned v) :
    AtLeast 0 (UnpackedFloat.div Format.binary64 u v) := by
  cases v with
  | notANumber => cases u <;> exact trivial
  | infinity s' =>
      cases u with
      | finite => exact le_refl _
      | zero => exact le_refl _
      | _ => exact trivial
  | zero s' =>
      obtain rfl : s' = .positive := h₁
      cases u with
      | infinity s =>
          obtain rfl : s = .positive := h₀
          exact rfl
      | finite s m e hm =>
          obtain rfl := h₀.positive_of_finite
          exact rfl
      | _ => exact trivial
  | finite s' m' e' hm' =>
      obtain rfl : s' = .positive := h₁
      cases u with
      | infinity s =>
          obtain rfl : s = .positive := h₀
          exact rfl
      | notANumber => exact trivial
      | zero => exact le_refl _
      | finite s m e hm =>
          obtain rfl := h₀.positive_of_finite
          have hne : value (.finite .positive m' e' hm') ≠ 0 := (value_pos hm' e').ne'
          have hquot : 0 ≤ value (.finite .positive m e hm) / value (.finite .positive m' e' hm') :=
            div_nonneg (value_pos hm e).le (value_pos hm' e').le
          exact (roundsTo_div (signed_finite _ e hm) (signed_finite _ e' hm') hne).atLeast
            onGrid_zero hquot

theorem AtMost.add (ha : AtMost a u) (hb : AtMost b v) (hu : Canonical u) (hv : Canonical v)
    (hc : OnGrid c) (h : a + b ≤ c) : AtMost c (UnpackedFloat.add Format.binary64 u v) := by
  obtain rfl | ⟨s, rfl⟩ | ⟨s₁, hs₁⟩ := special_or_signed u
  · exact trivial
  · obtain rfl : s = .negative := ha
    cases v with
    | infinity s' =>
        obtain rfl : s' = .negative := hb
        exact rfl
    | notANumber => exact trivial
    | _ => exact rfl
  · obtain rfl | ⟨s, rfl⟩ | ⟨s₂, hs₂⟩ := special_or_signed v
    · cases u <;> exact trivial
    · cases u with
      | finite => exact hb
      | zero => exact hb
      | _ => exact hs₁.elim
    · refine (roundsTo_add hu hv hs₁ hs₂).atMost hc (le_trans ?_ h)
      exact add_le_add (ha.value_le hs₁) (hb.value_le hs₂)

theorem AtLeast.add (ha : AtLeast a u) (hb : AtLeast b v) (hu : Canonical u) (hv : Canonical v)
    (hc : OnGrid c) (h : c ≤ a + b) : AtLeast c (UnpackedFloat.add Format.binary64 u v) := by
  obtain rfl | ⟨s, rfl⟩ | ⟨s₁, hs₁⟩ := special_or_signed u
  · exact trivial
  · obtain rfl : s = .positive := ha
    cases v with
    | infinity s' =>
        obtain rfl : s' = .positive := hb
        exact rfl
    | notANumber => exact trivial
    | _ => exact rfl
  · obtain rfl | ⟨s, rfl⟩ | ⟨s₂, hs₂⟩ := special_or_signed v
    · cases u <;> exact trivial
    · cases u with
      | finite => exact hb
      | zero => exact hb
      | _ => exact hs₁.elim
    · refine (roundsTo_add hu hv hs₁ hs₂).atLeast hc (h.trans ?_)
      exact add_le_add (ha.le_value hs₁) (hb.le_value hs₂)

theorem AtMost.neg (h : AtMost y u) : AtLeast (-y) u.neg := by
  cases u with
  | finite s m e hm => exact (neg_le_neg h).trans_eq (value_neg (.finite s m e hm)).symm
  | zero s => exact (neg_le_neg h).trans_eq (value_neg (.zero s)).symm
  | infinity s =>
      obtain rfl : s = .negative := h
      exact rfl
  | notANumber => exact trivial

theorem AtLeast.neg (h : AtLeast y u) : AtMost (-y) u.neg := by
  cases u with
  | finite s m e hm => exact (value_neg (.finite s m e hm)).trans_le (neg_le_neg h)
  | zero s => exact (value_neg (.zero s)).trans_le (neg_le_neg h)
  | infinity s =>
      obtain rfl : s = .positive := h
      exact rfl
  | notANumber => exact trivial

theorem AtMost.sub (ha : AtMost a u) (hb : AtLeast b v) (hu : Canonical u) (hv : Canonical v)
    (hc : OnGrid c) (h : a - b ≤ c) : AtMost c (UnpackedFloat.sub Format.binary64 u v) := by
  rw [sub_eq_add]
  exact ha.add hb.neg hu hv.neg hc (by rwa [← sub_eq_add_neg])

theorem AtLeast.sub (ha : AtLeast a u) (hb : AtMost b v) (hu : Canonical u) (hv : Canonical v)
    (hc : OnGrid c) (h : c ≤ a - b) : AtLeast c (UnpackedFloat.sub Format.binary64 u v) := by
  rw [sub_eq_add]
  exact ha.add hb.neg hu hv.neg hc (by rwa [← sub_eq_add_neg])

end operations

/-! ### Operations on floats -/

section floats

variable {s : Sign} {x y : Float} {a b c : ℚ}

theorem canonical_parts (x : Float) : Canonical (parts x) := (unpack_spec x.toModel).1

theorem representable_zero : Representable 0 := by
  refine ⟨onGrid_zero, ?_⟩
  rw [abs_zero, limit]
  positivity

theorem representable_value (hs : Signed s (parts x)) : Representable (value (parts x)) := by
  obtain ⟨hcanonical, hfits⟩ := unpack_spec x.toModel
  change Canonical (parts x) at hcanonical
  change Fits (parts x) at hfits
  have habs : |value (parts x)| = magnitude (parts x) := by
    rw [value_of_signed hs]
    cases s <;> simp [signed, abs_of_nonneg (magnitude_nonneg _)]
  refine ⟨by rw [OnGrid, habs]; exact hcanonical.dyadic_magnitude, ?_⟩
  rw [habs]
  cases hx : parts x with
  | finite s m e hm =>
      rw [hx] at hcanonical hfits
      have hm' : (m : ℚ) < 2 ^ 53 := by exact_mod_cast hcanonical.1
      have he : (2 : ℚ) ^ e ≤ 2 ^ (971 : ℤ) := zpow_le_zpow_right₀ (by norm_num) hfits
      calc (m : ℚ) * 2 ^ e < 2 ^ 53 * 2 ^ e := mul_lt_mul_of_pos_right hm' (two_zpow_pos e)
        _ ≤ 2 ^ 53 * 2 ^ (971 : ℤ) := mul_le_mul_of_nonneg_left he (by positivity)
        _ = limit := by
          rw [limit, ← zpow_natCast, ← zpow_natCast, ← zpow_add₀ (by norm_num)]
          rfl
  | _ => exact show (0 : ℚ) < limit by rw [limit]; positivity

theorem atMost_mul (ha : AtMost a (parts x)) (hb : AtMost b (parts y)) (h₀ : AtLeast 0 (parts x))
    (hb₀ : 0 ≤ b) (hc : Representable c) (h : a * b ≤ c) : AtMost c (parts (x * y)) :=
  atMost_pack (canonical_mul (canonical_parts x) (canonical_parts y)) hc.2
    (ha.mul hb (canonical_parts x) (canonical_parts y) h₀ hb₀ hc.1 h)

theorem atLeast_mul (ha : AtLeast a (parts x)) (hb : AtLeast b (parts y)) (ha₀ : 0 ≤ a)
    (hb₀ : 0 ≤ b) (hc : Representable c) (h : c ≤ a * b) : AtLeast c (parts (x * y)) :=
  atLeast_pack (canonical_mul (canonical_parts x) (canonical_parts y)) hc.2
    (ha.mul hb (canonical_parts x) (canonical_parts y) ha₀ hb₀ hc.1 h)

theorem nonneg_mul (hx : AtLeast 0 (parts x)) (hy : AtLeast 0 (parts y)) :
    AtLeast 0 (parts (x * y)) :=
  atLeast_mul hx hy le_rfl le_rfl representable_zero (by norm_num)

/-- A square is not negative. -/
theorem nonneg_mul_self (x : Float) : AtLeast 0 (parts (x * x)) := by
  have hx := canonical_parts x
  refine atLeast_pack (canonical_mul hx hx) representable_zero.2 ?_
  show AtLeast 0 (UnpackedFloat.mul Format.binary64 (parts x) (parts x))
  obtain hnan | ⟨s, hs⟩ | ⟨s, hs⟩ := special_or_signed (parts x)
  · rw [hnan]
    exact trivial
  · rw [hs]
    cases s <;> exact rfl
  · exact (roundsTo_mul hx hx hs hs).atLeast onGrid_zero (mul_self_nonneg _)

theorem unsigned_mul (hx : Unsigned (parts x)) (hy : Unsigned (parts y)) :
    Unsigned (parts (x * y)) :=
  unsigned_pack (canonical_mul (canonical_parts x) (canonical_parts y))
    (hx.mul hy (canonical_parts x) (canonical_parts y))

theorem atMost_div (ha : AtMost a (parts x)) (hb : AtLeast b (parts y)) (h₀ : AtLeast 0 (parts x))
    (hb₀ : 0 < b) (hc : Representable c) (h : a / b ≤ c) : AtMost c (parts (x / y)) :=
  atMost_pack (canonical_div (parts y)) hc.2 (ha.div hb h₀ hb₀ hc.1 h)

theorem nonneg_div (hx : AtLeast 0 (parts x)) (hy : Unsigned (parts y)) :
    AtLeast 0 (parts (x / y)) :=
  atLeast_pack (canonical_div (parts y)) representable_zero.2 (hx.div hy)

/-- Nothing finite is left of a number that is divided by infinity. -/
theorem atMost_div_infinity (hy : parts y = .infinity .positive) : AtMost 0 (parts (x / y)) := by
  refine atMost_pack (canonical_div (parts y)) representable_zero.2 ?_
  rw [show y.toModel.unpack = _ from hy]
  cases x.toModel.unpack with
  | finite => exact le_refl _
  | zero => exact le_refl _
  | _ => exact trivial

theorem atMost_add (ha : AtMost a (parts x)) (hb : AtMost b (parts y)) (hc : Representable c)
    (h : a + b ≤ c) : AtMost c (parts (x + y)) :=
  atMost_pack (canonical_add (canonical_parts x) (canonical_parts y)) hc.2
    (ha.add hb (canonical_parts x) (canonical_parts y) hc.1 h)

theorem atLeast_add (ha : AtLeast a (parts x)) (hb : AtLeast b (parts y)) (hc : Representable c)
    (h : c ≤ a + b) : AtLeast c (parts (x + y)) :=
  atLeast_pack (canonical_add (canonical_parts x) (canonical_parts y)) hc.2
    (ha.add hb (canonical_parts x) (canonical_parts y) hc.1 h)

theorem atMost_sub (ha : AtMost a (parts x)) (hb : AtLeast b (parts y)) (hc : Representable c)
    (h : a - b ≤ c) : AtMost c (parts (x - y)) :=
  atMost_pack (canonical_sub (canonical_parts x) (canonical_parts y)) hc.2
    (ha.sub hb (canonical_parts x) (canonical_parts y) hc.1 h)

theorem atLeast_sub (ha : AtLeast a (parts x)) (hb : AtMost b (parts y)) (hc : Representable c)
    (h : c ≤ a - b) : AtLeast c (parts (x - y)) :=
  atLeast_pack (canonical_sub (canonical_parts x) (canonical_parts y)) hc.2
    (ha.sub hb (canonical_parts x) (canonical_parts y) hc.1 h)

end floats

end MediaSender.Binary64
