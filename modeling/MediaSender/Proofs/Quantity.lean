import Mathlib.Order.MinMax
import MediaSender.Quantity.Scaling

/-! # Order, sums and multiples of quantities

* **Order.** Quantities are in a total order, that of their raw values (`Quantity.le_def`), and a
  value that is clamped between two ends in order is between them (`Quantity.le_clamp`,
  `Quantity.clamp_le`).
* **Sums.** A sum of raw values is exact, unless an infinity takes part or the result is one
  (`raw_add`, `raw_sub`).  Adding amounts that are not negative saturates upwards only, so their
  order does not matter (`add_right_comm`).
* **Multiples.** Multiples by a positive number keep signs and order (`times_nonneg`,
  `times_le_times`), and a positive float leaves plus infinity alone
  (`Quantity.plusInfinity_scale`). -/

namespace MediaSender.Quantity

variable {d : Dimension} {a b lo hi : Quantity d}

/-- Quantities are ordered as their raw values. -/
instance : LinearOrder (Quantity d) :=
  Function.Injective.linearOrder raw (fun _ _ => Quantity.ext) Iff.rfl Iff.rfl raw_min raw_max
    fun _ _ => rfl

theorem le_plusInfinity (a : Quantity d) : a ≤ plusInfinity := Int.lt_add_one_iff.mp a.upper

theorem le_clamp (h : lo ≤ hi) (x : Quantity d) : lo ≤ clamp lo hi x := by
  unfold clamp
  split
  next => exact le_refl lo
  next hx =>
    split
    next => exact h
    next => exact not_lt.mp hx

theorem clamp_le (h : lo ≤ hi) (x : Quantity d) : clamp lo hi x ≤ hi := by
  unfold clamp
  split
  next => exact h
  next =>
    split
    next => exact le_refl hi
    next hx => exact not_lt.mp hx

/-- A quantity is finite if it lies between the infinities. -/
theorem isFinite_iff_lt :
    a.isFinite = true ↔ -0x8000000000000000 < a.raw ∧ a.raw < 0x7fffffffffffffff := by
  have hlower := a.lower
  have hupper := a.upper
  rw [isFinite_iff]
  omega

/-- An amount that is not negative, and not finite, is the largest. -/
theorem le_of_not_isFinite (ha : 0 ≤ a) (h : a.isFinite = false) (b : Quantity d) : b ≤ a := by
  have ha' : 0 ≤ a.raw := ha
  have hupper := b.upper
  have hinf : ¬a.isFinite = true := by rw [h]; exact Bool.false_ne_true
  rw [isFinite_iff] at hinf
  rw [le_def]
  omega

/-! ### Sums -/

theorem raw_add (a b : Quantity d) :
    (a + b).raw =
      if a.raw = 0x7fffffffffffffff ∨ b.raw = 0x7fffffffffffffff then 0x7fffffffffffffff
      else if a.raw = -0x8000000000000000 ∨ b.raw = -0x8000000000000000 then -0x8000000000000000
      else max (-0x8000000000000000) (min (a.raw + b.raw) 0x7fffffffffffffff) := by
  show (add a b).raw = _
  unfold add
  simp only [Bool.or_eq_true, isPlusInfinity_iff, isMinusInfinity_iff, apply_ite Quantity.raw,
    raw_plusInfinity, raw_minusInfinity, raw_ofInt]

theorem raw_sub (a b : Quantity d) :
    (a - b).raw =
      if a.raw = 0x7fffffffffffffff ∨ b.raw = -0x8000000000000000 then 0x7fffffffffffffff
      else if a.raw = -0x8000000000000000 ∨ b.raw = 0x7fffffffffffffff then -0x8000000000000000
      else max (-0x8000000000000000) (min (a.raw - b.raw) 0x7fffffffffffffff) := by
  show (sub a b).raw = _
  unfold sub
  simp only [Bool.or_eq_true, isPlusInfinity_iff, isMinusInfinity_iff, apply_ite Quantity.raw,
    raw_plusInfinity, raw_minusInfinity, raw_ofInt]

theorem plusInfinity_add (b : Quantity d) : plusInfinity + b = plusInfinity := rfl

theorem plusInfinity_sub (b : Quantity d) : plusInfinity - b = plusInfinity := rfl

theorem sub_self_of_isFinite (h : a.isFinite = true) : a - a = 0 := by
  rw [isFinite_iff] at h
  apply Quantity.ext
  rw [raw_sub, if_neg (by omega), if_neg (by omega), Int.sub_self]
  rfl

/-- What is taken away from at least as much leaves nothing negative, infinities included. -/
theorem sub_nonneg (h : b ≤ a) : 0 ≤ a - b := by
  have hlower := b.lower
  have hupper := a.upper
  rw [le_def] at h ⊢
  rw [raw_sub, raw_zero]
  split
  next => decide
  next =>
    rw [if_neg (by omega)]
    omega

/-- What is at most a difference of finite amounts, as it is computed, is at most the exact
difference. -/
theorem raw_le_of_le_sub {c : Quantity d} (ha : a.isFinite = true) (hb : b.isFinite = true)
    (hc : c ≠ minusInfinity) (h : c ≤ a - b) : c.raw ≤ a.raw - b.raw := by
  have hlower := c.lower
  have hne : c.raw ≠ -0x8000000000000000 := fun e => hc (Quantity.ext e)
  rw [isFinite_iff] at ha hb
  rw [le_def, raw_sub, if_neg (by omega), if_neg (by omega)] at h
  omega

/-- What is more than a difference of finite amounts, as it is computed, is more than the exact
difference. -/
theorem raw_sub_lt_of_sub_lt {c : Quantity d} (ha : a.isFinite = true) (hb : b.isFinite = true)
    (h : a - b < c) : a.raw - b.raw < c.raw := by
  have hupper := c.upper
  rw [isFinite_iff] at ha hb
  rw [lt_def, raw_sub, if_neg (by omega), if_neg (by omega)] at h
  omega

/-- Nothing is more than the distance from minus infinity. -/
theorem not_sub_minusInfinity_lt (a c : Quantity d) : ¬a - minusInfinity < c := by
  have hupper := c.upper
  rw [lt_def, raw_sub, if_pos (.inr rfl)]
  omega

/-- Adding an amount that is not negative saturates upwards only. -/
theorem raw_add_of_nonneg (c : Quantity d) (ha : 0 ≤ a) :
    (c + a).raw =
      if a.raw = 0x7fffffffffffffff then 0x7fffffffffffffff
      else if c.raw = -0x8000000000000000 then -0x8000000000000000
      else min (c.raw + a.raw) 0x7fffffffffffffff := by
  have ha' : 0 ≤ a.raw := ha
  have hc := c.lower
  rw [raw_add]
  split <;> split <;> omega

theorem add_nonneg (ha : 0 ≤ a) (hb : 0 ≤ b) : 0 ≤ a + b := by
  have ha' : 0 ≤ a.raw := ha
  have hb' : 0 ≤ b.raw := hb
  show 0 ≤ (a + b).raw
  rw [raw_add_of_nonneg _ hb]
  (repeat' split) <;> omega

/-- A finite amount becomes more by an amount above zero, also where the sum saturates. -/
theorem lt_add_of_pos (ha : a.isFinite = true) (hb : 0 < b) : a < a + b := by
  have hb' : 0 < b.raw := hb
  rw [isFinite_iff_lt] at ha
  rw [lt_def, raw_add]
  split
  next => omega
  next =>
    rw [if_neg (by omega)]
    omega

theorem add_le_add_left (c : Quantity d) (h : a ≤ b) : c + a ≤ c + b := by
  have hb := b.upper
  have ha := a.lower
  rw [le_def] at h ⊢
  rw [raw_add, raw_add]
  (repeat' split) <;> omega

theorem add_right_comm (c : Quantity d) (ha : 0 ≤ a) (hb : 0 ≤ b) : c + a + b = c + b + a := by
  have ha' : 0 ≤ a.raw := ha
  have hb' : 0 ≤ b.raw := hb
  have hc := c.lower
  apply Quantity.ext
  rw [raw_add_of_nonneg _ hb, raw_add_of_nonneg _ ha, raw_add_of_nonneg _ ha,
    raw_add_of_nonneg _ hb]
  by_cases hmax : a.raw = 0x7fffffffffffffff ∨ b.raw = 0x7fffffffffffffff
  · split <;> split <;> omega
  · rw [not_or] at hmax
    rw [if_neg hmax.1, if_neg hmax.1, if_neg hmax.2, if_neg hmax.2]
    by_cases hmin : c.raw = -0x8000000000000000
    · simp [hmin]
    · rw [if_neg hmin, if_neg hmin, if_neg (by omega), if_neg (by omega)]
      omega

/-! ### Multiples -/

theorem raw_times_of_pos {n : Int} (hn : 0 < n) (a : Quantity d) :
    (a.times n).raw =
      if a.raw = 0x7fffffffffffffff then 0x7fffffffffffffff
      else if a.raw = -0x8000000000000000 then -0x8000000000000000
      else max (-0x8000000000000000) (min (a.raw * n) 0x7fffffffffffffff) := by
  unfold times
  split
  next hinf =>
    rw [isInfinite_iff] at hinf
    obtain hplus | hminus := hinf
    · simp [hplus, hn, Int.ne_of_gt hn, infinite]
    · simp [hminus, hn, Int.ne_of_gt hn, infinite]
  next hfin =>
    rw [isInfinite_iff, not_or] at hfin
    rw [if_neg hfin.1, if_neg hfin.2, raw_ofInt]

theorem times_nonneg {n : Int} (ha : 0 ≤ a) (hn : 0 < n) : 0 ≤ a.times n := by
  have ha' : 0 ≤ a.raw := ha
  have hprod : 0 ≤ a.raw * n := Int.mul_nonneg ha' (Int.le_of_lt hn)
  rw [le_def, raw_times_of_pos hn, raw_zero]
  (repeat' split) <;> omega

theorem times_le_times {n : Int} (hn : 0 < n) (h : a ≤ b) : a.times n ≤ b.times n := by
  have hmul : a.raw * n ≤ b.raw * n := Int.mul_le_mul_of_nonneg_right h (Int.le_of_lt hn)
  have hlower := a.lower
  have hupper := b.upper
  rw [le_def] at h ⊢
  rw [raw_times_of_pos hn, raw_times_of_pos hn]
  (repeat' split) <;> omega

end MediaSender.Quantity

namespace MediaSender

/-! ### Factors -/

/-- A float above zero is neither zero nor not-a-number. -/
theorem Binary64.ne_zero_of_pos {u : Float.Model.UnpackedFloat}
    (h : (Float.Model.UnpackedFloat.zero .positive).lt u = true) :
    u.beq (.zero .positive) = false ∧ u.isNaN = false := by
  cases u with
  | notANumber => cases h
  | zero s => cases h
  | infinity s => cases s <;> exact ⟨rfl, rfl⟩
  | finite s m e hm => cases s <;> exact ⟨rfl, rfl⟩

/-- A positive factor leaves plus infinity alone. -/
theorem Quantity.plusInfinity_scale {d : Dimension} {g : Float} (hg : 0.0 < g) :
    (plusInfinity : Quantity d).scale g = plusInfinity := by
  have hzero : (0.0 : Float).toModel.unpack = .zero .positive := rfl
  have hlt : (0.0 : Float).toModel.unpack.lt g.toModel.unpack = true := of_decide_eq_true hg
  rw [hzero] at hlt
  have hne : (g == 0.0) = false ∧ g.isNaN = false := Binary64.ne_zero_of_pos hlt
  have hinf : (plusInfinity : Quantity d).isInfinite = true := rfl
  have hpos : (plusInfinity : Quantity d).isPlusInfinity = true := rfl
  rw [scale, if_pos hinf, hne.1, hne.2, hpos, decide_eq_true hg]
  rfl

end MediaSender
