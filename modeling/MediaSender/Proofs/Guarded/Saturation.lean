import Mathlib.Algebra.Order.Round
import Mathlib.Data.Rat.Floor
import Mathlib.Tactic.Ring
import Mathlib.Tactic.FieldSimp
import MediaSender.Proofs.Guarded.Arithmetic
import MediaSender.Timestamp

/-! # Exact results, saturated

What the arithmetic of quantities computes is an integer that is known without reference to words:
a sum, a difference, an opposite or a multiple of raw values, or a rational number made an integer.

* **Rational numbers.** A quotient is truncated (`truncate`), and the data that a rate carries is
  rounded with a half going away from zero (`roundAway`).  `truncate_div` and `roundAway_div` are
  the two divisions of words.
* **Saturation.** `Saturates n q` says that `q` is plus infinity exactly if `n` is at least the
  largest word, minus infinity exactly if it is at most the smallest, and `n` itself otherwise.
* **Opposites.** The range is not symmetric around zero: the finite amount closest to minus infinity
  has plus infinity as its opposite, so `a - b` and `a + -b` differ there if `a` is negative, and
  nowhere else (`sub_eq_add_neg_iff`). -/

namespace MediaSender

/-! ### Integers of rational numbers -/

/-- The integer part of `x`. -/
def truncate (x : ℚ) : ℤ := if 0 ≤ x then ⌊x⌋ else ⌈x⌉

/-- The integer nearest to `x`, a half going away from zero. -/
def roundAway (x : ℚ) : ℤ := if 0 ≤ x then ⌊x + 1 / 2⌋ else ⌈x - 1 / 2⌉

theorem truncate_neg (x : ℚ) : truncate (-x) = -truncate x := by
  unfold truncate
  obtain hx | rfl | hx := lt_trichotomy x 0
  · rw [if_pos (by linarith), if_neg (by linarith), Int.floor_neg]
  · simp
  · rw [if_neg (by linarith), if_pos (by linarith), Int.ceil_neg]

/-- Rounding moves by a half away from zero and truncates. -/
theorem roundAway_eq_truncate (x : ℚ) :
    roundAway x = if 0 ≤ x then truncate (x + 1 / 2) else truncate (x - 1 / 2) := by
  unfold roundAway
  split
  next hx => rw [truncate, if_pos (by linarith)]
  next hx => rw [truncate, if_neg (by linarith)]

/-- The integer part of a quotient of magnitudes. -/
theorem truncate_natCast_div (m k : ℕ) : truncate ((m : ℚ) / k) = m / k := by
  rw [truncate, if_pos (by positivity), Rat.floor_natCast_div_natCast]

/-- Truncating the exact quotient is the division of the words. -/
theorem truncate_div (n k : ℤ) : truncate ((n : ℚ) / k) = Int.tdiv n k := by
  obtain ⟨m, rfl | rfl⟩ := n.eq_nat_or_neg <;> obtain ⟨l, rfl | rfl⟩ := k.eq_nat_or_neg
  · simp [truncate_natCast_div]
  · simp [truncate_natCast_div, div_neg, truncate_neg]
  · simp [truncate_natCast_div, neg_div, truncate_neg]
  · simp [truncate_natCast_div, neg_div_neg_eq]

/-- Rounding the exact quotient is moving by half a byte and dividing the words. -/
theorem roundAway_div (n : ℤ) : roundAway ((n : ℚ) / 8000000) = roundToBytes n := by
  have hsign : (0 : ℚ) ≤ n / 8000000 ↔ 0 ≤ n := by
    rw [le_div_iff₀ (by norm_num), zero_mul, Int.cast_nonneg_iff]
  rw [roundAway_eq_truncate, roundToBytes]
  by_cases hn : 0 ≤ n
  · rw [if_pos (hsign.mpr hn), if_pos hn, ← truncate_div]
    congr 1
    push_cast
    ring
  · rw [if_neg (mt hsign.mp hn), if_neg hn, ← truncate_div]
    congr 1
    push_cast
    ring

/-! ### Saturation -/

/-- `q` is the integer `n`, or the infinity on its side if `n` is not strictly between the largest
and the smallest word. -/
structure Saturates {d : Dimension} (n : ℤ) (q : Quantity d) : Prop where
  plus : q = .plusInfinity ↔ 0x7fffffffffffffff ≤ n
  minus : q = .minusInfinity ↔ n ≤ -0x8000000000000000
  exact : q.isFinite = true → q.raw = n

/-- An exact result between the infinities is the result. -/
theorem Saturates.raw_eq {d : Dimension} {n : ℤ} {q : Quantity d} (h : Saturates n q)
    (hlower : -0x8000000000000000 < n) (hupper : n < 0x7fffffffffffffff) :
    q.isFinite = true ∧ q.raw = n := by
  have hfinite : q.isFinite = true := by
    rw [Quantity.isFinite_iff, ← Quantity.raw_plusInfinity (d := d),
      ← Quantity.raw_minusInfinity (d := d), ne_eq, ne_eq, ← Quantity.ext_iff, ← Quantity.ext_iff,
      h.plus, h.minus]
    omega
  exact ⟨hfinite, h.exact hfinite⟩

namespace Quantity

variable {d : Dimension} {a b : Quantity d}

theorem saturates_ofInt (n : ℤ) : Saturates n (ofInt n : Quantity d) where
  plus := by
    rw [Quantity.ext_iff, raw_ofInt, raw_plusInfinity]
    omega
  minus := by
    rw [Quantity.ext_iff, raw_ofInt, raw_minusInfinity]
    omega
  exact h := by
    rw [isFinite_iff, raw_ofInt] at h
    rw [raw_ofInt]
    omega

theorem saturates_add (ha : a.isFinite = true) (hb : b.isFinite = true) :
    Saturates (a.raw + b.raw) (a + b) := by
  rw [isFinite_iff] at ha hb
  have h : a + b = ofInt (a.raw + b.raw) := by
    apply Quantity.ext
    rw [raw_add, if_neg (by omega), if_neg (by omega), raw_ofInt]
  rw [h]
  exact saturates_ofInt _

theorem saturates_sub (ha : a.isFinite = true) (hb : b.isFinite = true) :
    Saturates (a.raw - b.raw) (a - b) := by
  rw [isFinite_iff] at ha hb
  have h : a - b = ofInt (a.raw - b.raw) := by
    apply Quantity.ext
    rw [raw_sub, if_neg (by omega), if_neg (by omega), raw_ofInt]
  rw [h]
  exact saturates_ofInt _

theorem raw_neg (a : Quantity d) :
    (-a).raw = if a.raw = -0x8000000000000000 then 0x7fffffffffffffff
      else if a.raw = 0x7fffffffffffffff then -0x8000000000000000 else -a.raw := by
  have hlower := a.lower
  have hupper := a.upper
  show (neg a).raw = _
  unfold neg
  simp only [isPlusInfinity_iff, isMinusInfinity_iff, apply_ite Quantity.raw, raw_plusInfinity,
    raw_minusInfinity, raw_ofInt]
  split <;> split <;> omega

theorem saturates_neg (ha : a.isFinite = true) : Saturates (-a.raw) (-a) := by
  have hlower := a.lower
  have hupper := a.upper
  rw [isFinite_iff] at ha
  have h : -a = ofInt (-a.raw) := by
    apply Quantity.ext
    rw [raw_neg, if_neg ha.2, if_neg ha.1, raw_ofInt]
    omega
  rw [h]
  exact saturates_ofInt _

theorem not_isInfinite (ha : a.isFinite = true) : ¬a.isInfinite = true := by
  rw [isFinite_iff] at ha
  rw [isInfinite_iff]
  omega

theorem saturates_times (ha : a.isFinite = true) (k : ℤ) : Saturates (k * a.raw) (a.times k) := by
  rw [times, if_neg (not_isInfinite ha), Int.mul_comm]
  exact saturates_ofInt _

theorem saturates_dividedBy (ha : a.isFinite = true) {k : ℤ} (hk : k ≠ 0) :
    Saturates (truncate (a.raw / k)) (a.dividedBy k) := by
  rw [dividedBy, if_neg (not_isInfinite ha), if_neg hk, truncate_div]
  exact saturates_ofInt _

/-- Subtracting is adding the opposite, except that the finite amount closest to minus infinity has
plus infinity as its opposite. -/
theorem sub_eq_add_neg_iff (a b : Quantity d) :
    a - b = a + -b ↔ ¬(a < 0 ∧ b.raw = -0x7fffffffffffffff) := by
  have ha := a.lower
  have ha' := a.upper
  have hb := b.lower
  have hb' := b.upper
  have hneg := raw_neg b
  rw [Quantity.ext_iff, raw_sub, raw_add, lt_def, raw_zero]
  grind

end Quantity

section flow

open Quantity

variable {r : DataRate} {s : DataSize} {δ : TimeDelta}

theorem DataRate.saturates_during (hr : r.isFinite = true) (hδ : δ.isFinite = true) :
    Saturates (roundAway (r.raw * δ.raw / 8000000)) (r.during δ) := by
  have h : r.during δ = .ofInt (roundToBytes (r.raw * δ.raw)) := by
    unfold during
    split
    next hzero =>
      have hprod : r.raw * δ.raw = 0 := by
        simpa [Bool.or_eq_true, isZero_iff, mul_eq_zero] using hzero
      rw [hprod]
      rfl
    next => rw [if_neg (by simp [not_isInfinite hr, not_isInfinite hδ])]
  rw [h, ← roundAway_div, Int.cast_mul]
  exact saturates_ofInt _

/-- A size in bit-microseconds, divided and truncated. -/
theorem DataSize.truncate_div (s : DataSize) (k : ℤ) :
    truncate (s.raw * 8000000 / k) = Int.tdiv (s.raw * 8000000) k := by
  rw [← MediaSender.truncate_div]
  push_cast
  rfl

theorem DataSize.saturates_over (hs : s.isFinite = true) (hδ : δ.isFinite = true)
    (hzero : δ.raw ≠ 0) : Saturates (truncate (s.raw * 8000000 / δ.raw)) (s.over δ) := by
  rw [truncate_div, DataSize.over, if_neg (by simp [not_isInfinite hs, hzero]),
    if_neg (not_isInfinite hδ)]
  exact saturates_ofInt _

theorem DataSize.saturates_at (hs : s.isFinite = true) (hr : r.isFinite = true)
    (hzero : r.raw ≠ 0) : Saturates (truncate (s.raw * 8000000 / r.raw)) (s.at r) := by
  rw [truncate_div, DataSize.at, if_neg (by simp [not_isInfinite hs, hzero]),
    if_neg (not_isInfinite hr)]
  exact saturates_ofInt _

end flow

/-! ### All operations -/

/-- None of the operations stops, and on finite operands each gives its exact result, saturated.
A difference is the sum with the opposite, also for infinities, unless the opposite is infinite
though the amount is not, and the other amount is negative. -/
theorem arithmetic_saturates {d : Dimension} (a b : Quantity d) (k : Int64) (t u : Timestamp)
    (δ ε : TimeDelta) (r : DataRate) (s : DataSize) :
    -- the operations that a machine does in 64 or 128 bits
    (a.guardedNeg = .ok (-a) ∧ a.guardedTimes k.toInt = .ok (a.times k.toInt) ∧
      a.guardedDividedBy k.toInt = .ok (a.dividedBy k.toInt) ∧
      r.guardedDuring δ = .ok (r.during δ) ∧ s.guardedOver δ = .ok (s.over δ) ∧
      s.guardedAt r = .ok (s.at r)) ∧
    -- integers
    (a.isFinite = true → b.isFinite = true →
      Saturates (a.raw + b.raw) (a + b) ∧ Saturates (a.raw - b.raw) (a - b)) ∧
    (a.isFinite = true → Saturates (-a.raw) (-a) ∧ Saturates (k.toInt * a.raw) (a.times k.toInt) ∧
      (k ≠ 0 → Saturates (truncate (a.raw / k.toInt)) (a.dividedBy k.toInt))) ∧
    (t.isFinite = true → δ.isFinite = true → Saturates (t.raw + δ.raw) (t + δ).sinceEpoch ∧
      Saturates (t.raw - δ.raw) (t - δ).sinceEpoch) ∧
    (t.isFinite = true → u.isFinite = true → Saturates (t.raw - u.raw) (t - u)) ∧
    -- rational numbers
    (s.isFinite = true → δ.isFinite = true → δ.raw ≠ 0 →
      Saturates (truncate (s.raw * 8000000 / δ.raw)) (s.over δ)) ∧
    (s.isFinite = true → r.isFinite = true → r.raw ≠ 0 →
      Saturates (truncate (s.raw * 8000000 / r.raw)) (s.at r)) ∧
    (r.isFinite = true → δ.isFinite = true →
      Saturates (roundAway (r.raw * δ.raw / 8000000)) (r.during δ)) ∧
    -- differences and opposites
    (δ - ε = δ + -ε ↔ ¬(δ < 0 ∧ ε.raw = -0x7fffffffffffffff)) := by
  have hlower := k.le_toInt
  have hupper := k.toInt_lt
  have hword : k.toInt.natAbs ≤ 0x8000000000000000 := by omega
  have hzero (hk : k ≠ 0) : k.toInt ≠ 0 := fun e => hk (Int64.toInt_inj.mp e)
  refine ⟨⟨a.guardedNeg_eq, a.guardedTimes_eq hword, a.guardedDividedBy_eq k.toInt,
    r.guardedDuring_eq δ, s.guardedOver_eq δ, s.guardedAt_eq r⟩, ?_, ?_, ?_, ?_, ?_, ?_, ?_,
    Quantity.sub_eq_add_neg_iff δ ε⟩
  · exact fun ha hb => ⟨Quantity.saturates_add ha hb, Quantity.saturates_sub ha hb⟩
  · exact fun ha => ⟨Quantity.saturates_neg ha, Quantity.saturates_times ha k.toInt,
      fun hk => Quantity.saturates_dividedBy ha (hzero hk)⟩
  · exact fun ht hδ => ⟨Quantity.saturates_add ht hδ, Quantity.saturates_sub ht hδ⟩
  · exact fun ht hu => Quantity.saturates_sub ht hu
  · exact DataSize.saturates_over
  · exact DataSize.saturates_at
  · exact DataRate.saturates_during

/-- The largest finite time saturates when one is added, and its third is truncated;
minus eight bits per second carry minus half a byte in half a second, which counts as minus one
byte, and seven bytes take minus seven seconds at that rate. -/
theorem arithmetic_saturates_of_largest :
    let a : TimeDelta := ⟨0x7ffffffffffffffe, by decide, by decide⟩
    let b : TimeDelta := ⟨1, by decide, by decide⟩
    let δ : TimeDelta := ⟨500000, by decide, by decide⟩
    let r : DataRate := ⟨-8, by decide, by decide⟩
    let s : DataSize := ⟨7, by decide, by decide⟩
    (Saturates (a.raw + b.raw) (a + b) ∧ a + b = .plusInfinity) ∧
    (Saturates (truncate (a.raw / Int64.toInt 3)) (a.dividedBy (Int64.toInt 3)) ∧
      (a.dividedBy (Int64.toInt 3)).raw = 0x2aaaaaaaaaaaaaaa) ∧
    (Saturates (a.raw - b.raw) ((⟨a⟩ : Timestamp) - (⟨b⟩ : Timestamp)) ∧
      Saturates (a.raw + δ.raw) ((⟨a⟩ : Timestamp) + δ).sinceEpoch) ∧
    (Saturates (truncate (s.raw * 8000000 / δ.raw)) (s.over δ) ∧ (s.over δ).raw = 112) ∧
    (Saturates (truncate (s.raw * 8000000 / r.raw)) (s.at r) ∧ (s.at r).raw = -7000000) ∧
    (Saturates (roundAway (r.raw * δ.raw / 8000000)) (r.during δ) ∧ (r.during δ).raw = -1) := by
  intro a b δ r s
  obtain ⟨-, hsums, hmultiples, hlater, hbetween, hover, hat, hduring, -⟩ :=
    arithmetic_saturates a b 3 ⟨a⟩ ⟨b⟩ δ 0 r s
  exact ⟨⟨(hsums rfl rfl).1, rfl⟩, ⟨(hmultiples rfl).2.2 (by decide), by decide⟩,
    ⟨hbetween rfl rfl, (hlater rfl rfl).1⟩, ⟨hover rfl rfl (by decide), by decide⟩,
    ⟨hat rfl rfl (by decide), by decide⟩, ⟨hduring rfl rfl, by decide⟩⟩

/-- The opposite of the smallest finite time is plus infinity, so adding it to a negative time is
not the same as subtracting the smallest finite time. -/
theorem not_sub_eq_add_neg : ¬∀ a b : TimeDelta, a - b = a + -b := by
  intro h
  have hsmallest := h ⟨-5, by decide, by decide⟩ ⟨-0x7fffffffffffffff, by decide, by decide⟩
  exact absurd hsmallest (by decide)

end MediaSender
