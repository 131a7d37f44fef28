import MediaSender.Proofs.Binary64.Integers

/-! # Products that are exact

A product of floats is the exact one, rounded; it is the exact one itself if that is on the grid.

* **Rounding.** A number of the grid is rounded to itself (`RoundsTo.exactly`), and comes back from
  a word if it is in range (`RoundsTo.exactly_pack`).
* **Floats.** So a product is exact if a float of its value exists (`exactly_mul`), and so is the
  float of a natural number of at most 53 digits (`exactly_ofNat`).
* **Quarters.** A factor of some quarters lets an amount keep all its digits, so the one rounding is
  that to the nearest unit, a half going up (`Quantity.raw_scale_quarters`). -/

namespace MediaSender.Binary64

open Float.Model Float.Model.UnpackedFloat

/-- `u` is the number `q`, without a minus sign. -/
def Exactly (q : ℚ) (u : UnpackedFloat) : Prop := Signed .positive u ∧ value u = q

section exactly

variable {u : UnpackedFloat} {x y : Float} {a b q : ℚ} {n : ℕ} {lo hi : ℤ}

theorem Exactly.atMost (h : Exactly q u) : AtMost q u := atMost_of_signed h.1 h.2.le

theorem Exactly.atLeast (h : Exactly q u) : AtLeast q u := atLeast_of_signed h.1 h.2.ge

/-- A number of the grid is rounded to itself. -/
theorem RoundsTo.exactly (h : RoundsTo q u) (hq : 0 < q) (hgrid : OnGrid q) : Exactly q u := by
  have hs := h.positive hq
  have hle := (h.atMost hgrid le_rfl).value_le hs
  have hge := (h.atLeast hgrid le_rfl).le_value hs
  exact ⟨hs, le_antisymm hle hge⟩

/-- A number of the grid that is in range comes back from a word. -/
theorem RoundsTo.exactly_pack (h : RoundsTo q u) (hq : 0 < q) (hr : Representable q) :
    Exactly q (Float.Model.pack u).unpack := by
  have hu := h.exactly hq hr.1
  obtain hback | ⟨s, v, -, hs, hvalue, hlarge⟩ := unpack_pack_cases h.canonical
  · rwa [hback]
  · have hlt := hr.2
    rw [← hu.2, hvalue] at hlt
    cases s <;> simp only [signed, abs_neg] at hlt <;> linarith [le_abs_self v]

/-- A product is exact if there is a float of its value. -/
theorem exactly_mul (hx : Exactly a (parts x)) (hy : Exactly b (parts y)) (hpos : 0 < a * b)
    (hr : Representable (a * b)) : Exactly (a * b) (parts (x * y)) := by
  have h := roundsTo_mul (canonical_parts x) (canonical_parts y) hx.1 hy.1
  rw [hx.2, hy.2] at h
  exact h.exactly_pack hpos hr

theorem exactly_one : Exactly 1 (parts (Float.ofBits 0x3FF0000000000000)) := ⟨rfl, value_one⟩

/-- The float of a natural number of at most 53 digits is that number. -/
theorem exactly_ofNat (hn : 0 < n) (h : n < 2 ^ 53) : Exactly n (parts (Float.ofNat n)) := by
  have hn' : (0 : ℚ) < n := by exact_mod_cast hn
  have hr := representable_ofNat h.le
  have hword : Exactly n (parts n.toUInt64.toFloat) := by
    rw [parts_toFloat h]
    exact (roundsTo_toFloat n).exactly_pack hn' hr
  have hproduct := exactly_mul hword exactly_one
  rw [mul_one, ← ofNat_of_lt h] at hproduct
  exact hproduct hn' hr

/-- The float of a natural number other than zero is infinite, or it is positive. -/
theorem parts_ofNat_pos (hn : 0 < n) :
    parts (Float.ofNat n) = .infinity .positive ∨
      Signed .positive (parts (Float.ofNat n)) ∧ 0 < value (parts (Float.ofNat n)) := by
  obtain hlt | hge := lt_or_ge n (2 ^ 53)
  · have h := exactly_ofNat hn hlt
    exact .inr ⟨h.1, by rw [h.2]; exact_mod_cast hn⟩
  · obtain hinf | ⟨hs, hvalue, -⟩ := parts_ofNat_cases hge
    · exact .inl hinf
    · exact .inr ⟨hs, lt_of_lt_of_le (by norm_num) hvalue⟩

/-- The nearest integer of a number that is not negative. -/
theorem nearest_eq {r : ℕ} (hx : Exactly q (parts x)) (hr : r ≤ q + 1 / 2) (hr' : q + 1 / 2 < r + 1)
    (hlo : lo ≤ 0) (hhi : r ≤ hi) : nearest lo hi x = r := by
  unfold nearest toIntWithin
  change Exactly q x.toModel.unpack at hx
  cases hparts : x.toModel.unpack with
  | notANumber => rw [hparts] at hx; exact hx.1.elim
  | infinity s => rw [hparts] at hx; exact hx.1.elim
  | zero s =>
      rw [hparts] at hx
      have hq : q = 0 := hx.2.symm
      have hsmall : (r : ℚ) < 1 := by linarith
      have hzero : r < 1 := by exact_mod_cast hsmall
      simp only
      omega
  | finite s m e hm =>
      rw [hparts] at hx
      obtain rfl : s = .positive := hx.1
      have hq : (m : ℚ) * 2 ^ e = q := hx.2
      obtain ⟨hle, hlt⟩ := roundScaled_spec m e
      rw [hq] at hle hlt
      have hround : roundScaled m e = r := by
        have hupper : (roundScaled m e : ℚ) < r + 1 := by linarith
        have hlower : (r : ℚ) < roundScaled m e + 1 := by linarith
        have hupper' : roundScaled m e < r + 1 := by exact_mod_cast hupper
        have hlower' : r < roundScaled m e + 1 := by exact_mod_cast hlower
        omega
      show max lo (min ((roundScaled m e : ℕ) : ℤ) hi) = r
      rw [hround]
      omega

end exactly

end MediaSender.Binary64

namespace MediaSender.Quantity

open Binary64

variable {d : Dimension} {a : Quantity d} {x : Float} {k : ℕ}

theorem representable_quarters {m : ℕ} (h : m < 2 ^ 53) : Representable (m / 4) := by
  have hnonneg : (0 : ℚ) ≤ m / 4 := by positivity
  have hm : (m : ℚ) < 2 ^ 53 := by exact_mod_cast h
  refine ⟨⟨m, -2, h, by norm_num, ?_⟩, ?_⟩
  · rw [abs_of_nonneg hnonneg, div_eq_mul_inv]
    norm_num
  · rw [abs_of_nonneg hnonneg]
    calc (m : ℚ) / 4 < 2 ^ 53 := by linarith
      _ < limit := pow_lt_pow_right₀ (by norm_num) (by norm_num)

/-- An amount times `k` quarters, to the nearest unit, a half going up. -/
theorem raw_scale_quarters (ha : 0 ≤ a) (hk : 0 < k) (hx : Exactly (k / 4) (parts x))
    (hsmall : k * a.raw < 2 ^ 53) : (a.scale x).raw = (k * a.raw + 2) / 4 := by
  have ha' : 0 ≤ a.raw := ha
  have hle : a.raw ≤ k * a.raw := by nlinarith
  have hfinite : a.isInfinite = false := by
    rw [Bool.eq_false_iff, ne_eq, isInfinite_iff]
    omega
  obtain hzero | hpos := ha'.eq_or_lt
  · have hupper := scale_le_of_mul_le ha hfinite representable_zero (by rw [← hzero, Int.cast_zero])
      hx.atMost (by positivity) (le_refl (0 : Quantity d)) (by exact_mod_cast representable_zero)
      (by simp)
    have hlower := scale_nonneg ha (hx.atLeast.mono (by positivity))
    rw [le_def, raw_zero] at hupper hlower
    rw [← hzero, mul_zero]
    omega
  · obtain ⟨n, hn⟩ : ∃ n : ℕ, a.raw = n := ⟨a.raw.toNat, (Int.toNat_of_nonneg ha').symm⟩
    rw [hn] at hsmall hle hpos ⊢
    have hkn : k * n < 2 ^ 53 := by exact_mod_cast hsmall
    have hvalue : (n : ℚ) * (k / 4) = ((k * n : ℕ) : ℚ) / 4 := by
      push_cast
      ring
    have hamount : Exactly n (parts (Float.ofNat n)) := exactly_ofNat (by omega) (by omega)
    have hproduct := exactly_mul hamount hx
    rw [hvalue] at hproduct
    have hpositive : (0 : ℚ) < (k * n : ℕ) := by
      exact_mod_cast Nat.mul_pos hk (by omega : 0 < n)
    have hexact := hproduct (by linarith) (representable_quarters hkn)
    obtain ⟨r, hr⟩ : ∃ r, r = (k * n + 2) / 4 := ⟨_, rfl⟩
    have hlower : (4 * r : ℚ) ≤ (k * n : ℕ) + 2 := by exact_mod_cast (by omega : 4 * r ≤ k * n + 2)
    have hupper : ((k * n : ℕ) : ℚ) + 2 < 4 * r + 4 := by
      exact_mod_cast (by omega : k * n + 2 < 4 * r + 4)
    have hround : nearest (-0x8000000000000000) 0x7fffffffffffffff (Float.ofNat n * x) = r :=
      nearest_eq hexact (by linarith) (by linarith) (by norm_num) (by omega)
    rw [scale, hfinite, if_neg Bool.false_ne_true, raw_ofFloat, rawFloat_eq ha, hn,
      Int.toNat_natCast, hround, hr]
    push_cast
    rfl

end MediaSender.Quantity
