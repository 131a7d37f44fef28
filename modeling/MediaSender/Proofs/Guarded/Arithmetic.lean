import MediaSender.Binary64
import MediaSender.Proofs.Quantity
import MediaSender.Quantity.Flow
import MediaSender.RateControl.SlidingMinimum

/-! # Arithmetic that may stop

A machine computes with words of fixed width, and some of its operations stop the program where the
exact ones have a value.  For each definition that rests on such an operation there is a guarded
one of the same shape, which stops with a `Fault` where the machine does.

* **Wide products.** The product of two 64-bit words is taken in 128 bits (`wide`), and a quotient
  stops if the divisor is zero (`quotient`); only then a result saturates to 64 bits.  Sums of
  quantities saturate directly and never stop.
* **Narrow results.** The opposite of a finite amount and its share by a 64-bit word are taken in
  64 bits (`word`), with nothing to saturate them.
* **Clamps.** Clamping stops if the ends are in the wrong order, for floats also if one of them is
  not a number.
* **Counter.** The counter of a sliding minimum is a 64-bit word without sign.

The theorems say that an operation agrees with its guarded one, and under which condition. -/

namespace MediaSender

/-- Why a guarded operation stops. -/
inductive Fault where
  /-- A result does not fit its word. -/
  | overflow
  | zeroDivisor
  /-- The ends of a clamp are in the wrong order. -/
  | invertedEnds
  /-- Bounds on the target rate in the wrong order. -/
  | invertedBounds (lower upper : DataRate)
deriving DecidableEq

/-- A step that does not stop hands its value to the next. -/
theorem Fault.ok_bind {α β : Type} (a : α) (next : α → Except Fault β) :
    (Except.ok a >>= next) = next a := rfl

/-! ### Wide integers -/

/-- An integer as a signed 128-bit word. -/
def wide (n : Int) : Except Fault Int :=
  if -0x80000000000000000000000000000000 ≤ n ∧ n < 0x80000000000000000000000000000000 then .ok n
  else .error .overflow

/-- The truncated quotient of signed 128-bit words. -/
def quotient (n k : Int) : Except Fault Int :=
  if k = 0 then .error .zeroDivisor else wide (Int.tdiv n k)

theorem wide_eq {n : Int} (h₁ : -0x80000000000000000000000000000000 ≤ n)
    (h₂ : n < 0x80000000000000000000000000000000) : wide n = .ok n := if_pos ⟨h₁, h₂⟩

/-- A divisor other than zero does not make the magnitude larger. -/
theorem quotient_eq {n k : Int} (hk : k ≠ 0) (h₁ : -0x80000000000000000000000000000000 < n)
    (h₂ : n < 0x80000000000000000000000000000000) : quotient n k = .ok (Int.tdiv n k) := by
  have h : (Int.tdiv n k).natAbs ≤ n.natAbs := by
    rw [Int.natAbs_tdiv]
    exact Nat.div_le_self _ _
  rw [quotient, if_neg hk]
  exact wide_eq (by omega) (by omega)

/-- An integer as a signed 64-bit word. -/
def word (n : Int) : Except Fault Int :=
  if -0x8000000000000000 ≤ n ∧ n < 0x8000000000000000 then .ok n else .error .overflow

theorem word_eq {n : Int} (h₁ : -0x8000000000000000 ≤ n) (h₂ : n < 0x8000000000000000) :
    word n = .ok n := if_pos ⟨h₁, h₂⟩

/-- The product of a magnitude below `A` and one of at most `B`. -/
theorem mul_lt_of_natAbs {m n : Int} {A B C : Nat} (hm : m.natAbs ≤ A) (hn : n.natAbs ≤ B)
    (hC : A * B < C) : -(C : Int) < m * n ∧ m * n < C := by
  have h : (m * n).natAbs ≤ A * B := by
    rw [Int.natAbs_mul]
    exact Nat.mul_le_mul hm hn
  omega

/-! ### Quantities -/

namespace Quantity

variable {d : Dimension}

theorem natAbs_raw_le (a : Quantity d) : a.raw.natAbs ≤ 0x8000000000000000 := by
  have hlower := a.lower
  have hupper := a.upper
  omega

/-- `x` kept between `lo` and `hi`. -/
def guardedClamp (lo hi x : Quantity d) : Except Fault (Quantity d) :=
  if hi < lo then .error .invertedEnds else .ok (clamp lo hi x)

/-- `k` times the amount, the product taken in 128 bits. -/
def guardedTimes (a : Quantity d) (k : Int) : Except Fault (Quantity d) :=
  if a.isInfinite then .ok (a.times k)
  else do
    let product ← wide (a.raw * k)
    return ofInt product

theorem guardedClamp_eq {lo hi : Quantity d} (h : lo ≤ hi) (x : Quantity d) :
    guardedClamp lo hi x = .ok (clamp lo hi x) := if_neg (not_lt.mpr h)

theorem guardedTimes_eq (a : Quantity d) {k : Int} (hk : k.natAbs ≤ 0x8000000000000000) :
    a.guardedTimes k = .ok (a.times k) := by
  obtain ⟨h₁, h₂⟩ := mul_lt_of_natAbs a.natAbs_raw_le hk
    (by decide : _ < 0x80000000000000000000000000000000)
  unfold guardedTimes times
  split
  next => rfl
  next => rw [wide_eq (Int.le_of_lt h₁) h₂]; rfl

/-- The opposite amount, the opposite of a finite one taken in 64 bits. -/
def guardedNeg (a : Quantity d) : Except Fault (Quantity d) :=
  if a.isPlusInfinity || a.isMinusInfinity then .ok (-a)
  else do
    let opposite ← word (-a.raw)
    return ofInt opposite

/-- The amount divided by `k`, the share of a finite one taken in 64 bits. -/
def guardedDividedBy (a : Quantity d) (k : Int) : Except Fault (Quantity d) :=
  if a.isInfinite || k == 0 then .ok (a.dividedBy k)
  else do
    let share ← if k = 0 then .error .zeroDivisor else word (Int.tdiv a.raw k)
    return ofInt share

/-- Minus infinity is the one word without an opposite. -/
theorem guardedNeg_eq (a : Quantity d) : a.guardedNeg = .ok (-a) := by
  have hlower := a.lower
  have hupper := a.upper
  unfold guardedNeg
  split
  next => rfl
  next h =>
    rw [Bool.or_eq_true, not_or] at h
    have hmin : a.raw ≠ -0x8000000000000000 := fun e => h.2 (isMinusInfinity_iff.mpr e)
    rw [word_eq (by omega) (by omega), Fault.ok_bind]
    show _ = Except.ok (neg a)
    rw [neg, if_neg h.1, if_neg h.2]
    rfl

/-- Minus infinity is the one word whose share by another than zero leaves the range. -/
theorem guardedDividedBy_eq (a : Quantity d) (k : Int) :
    a.guardedDividedBy k = .ok (a.dividedBy k) := by
  unfold guardedDividedBy
  split
  next => rfl
  next h =>
    simp only [Bool.or_eq_true, beq_iff_eq, not_or] at h
    obtain ⟨hfinite, hk⟩ := h
    have hlower := a.lower
    have hupper := a.upper
    have hmin : a.raw ≠ -0x8000000000000000 := fun e => hfinite (isInfinite_iff.mpr (.inr e))
    have hshare : (Int.tdiv a.raw k).natAbs ≤ a.raw.natAbs := by
      rw [Int.natAbs_tdiv]
      exact Nat.div_le_self _ _
    rw [if_neg hk, word_eq (by omega) (by omega), Fault.ok_bind, dividedBy, if_neg hfinite,
      if_neg hk]
    rfl

end Quantity

/-- The data that the rate carries in the time `t`, the product taken in 128 bits. -/
def DataRate.guardedDuring (r : DataRate) (t : TimeDelta) : Except Fault DataSize :=
  if (r.isZero || t.isZero) || (r.isInfinite || t.isInfinite) then .ok (r.during t)
  else do
    let product ← wide (r.raw * t.raw)
    let shifted ← wide (if 0 ≤ product then product + 4000000 else product - 4000000)
    let bytes ← quotient shifted 8000000
    return .ofInt bytes

/-- The average rate that moves the data in the time `t`, the product taken in 128 bits. -/
def DataSize.guardedOver (s : DataSize) (t : TimeDelta) : Except Fault DataRate :=
  if (s.isInfinite || t.isZero) || t.isInfinite then .ok (s.over t)
  else do
    let product ← wide (s.raw * 8000000)
    let rate ← quotient product t.raw
    return .ofInt rate

/-- The time that moving the data takes at the rate `r`, the product taken in 128 bits. -/
def DataSize.guardedAt (s : DataSize) (r : DataRate) : Except Fault TimeDelta :=
  if (s.isInfinite || r.isZero) || r.isInfinite then .ok (s.at r)
  else do
    let product ← wide (s.raw * 8000000)
    let time ← quotient product r.raw
    return .ofInt time

theorem DataRate.guardedDuring_eq (r : DataRate) (t : TimeDelta) :
    r.guardedDuring t = .ok (r.during t) := by
  obtain ⟨h₁, h₂⟩ := mul_lt_of_natAbs r.natAbs_raw_le t.natAbs_raw_le
    (by decide : _ < 0x50000000000000000000000000000000)
  unfold guardedDuring
  split
  next => rfl
  next h =>
    rw [Bool.or_eq_true, not_or] at h
    rw [wide_eq (by omega) (by omega), Fault.ok_bind, during, if_neg h.1, if_neg h.2, roundToBytes]
    split
    next =>
      rw [wide_eq (by omega) (by omega), Fault.ok_bind,
        quotient_eq (by decide) (by omega) (by omega)]
      rfl
    next =>
      rw [wide_eq (by omega) (by omega), Fault.ok_bind,
        quotient_eq (by decide) (by omega) (by omega)]
      rfl

/-- A size in bit-microseconds, divided by anything but zero, does not stop. -/
theorem DataSize.quotient_bind (s : DataSize) {k : Int} (hk : k ≠ 0) {α : Type}
    (next : Int → Except Fault α) :
    (do let product ← wide (s.raw * 8000000)
        let share ← quotient product k
        next share) = next (Int.tdiv (s.raw * 8000000) k) := by
  obtain ⟨h₁, h₂⟩ := mul_lt_of_natAbs s.natAbs_raw_le
    (by decide : (8000000 : Int).natAbs ≤ 8000000)
    (by decide : _ < 0x80000000000000000000000000000000)
  rw [wide_eq (Int.le_of_lt h₁) h₂, Fault.ok_bind, quotient_eq hk h₁ h₂, Fault.ok_bind]

theorem DataSize.guardedOver_eq (s : DataSize) (t : TimeDelta) :
    s.guardedOver t = .ok (s.over t) := by
  unfold guardedOver
  split
  next => rfl
  next h =>
    rw [Bool.or_eq_true, not_or] at h
    have hzero : t.raw ≠ 0 := fun ht =>
      h.1 (by rw [Bool.or_eq_true]; exact .inr (Quantity.isZero_iff.mpr ht))
    rw [s.quotient_bind hzero, DataSize.over, if_neg h.1, if_neg h.2]
    rfl

theorem DataSize.guardedAt_eq (s : DataSize) (r : DataRate) :
    s.guardedAt r = .ok (s.at r) := by
  unfold guardedAt
  split
  next => rfl
  next h =>
    rw [Bool.or_eq_true, not_or] at h
    have hzero : r.raw ≠ 0 := fun hr =>
      h.1 (by rw [Bool.or_eq_true]; exact .inr (Quantity.isZero_iff.mpr hr))
    rw [s.quotient_bind hzero, DataSize.at, if_neg h.1, if_neg h.2]
    rfl

/-! ### Floats -/

namespace Binary64

/-- `x` kept between `lo` and `hi`. -/
def guardedClamp (lo hi x : Float) : Except Fault Float :=
  if lo ≤ hi then .ok (clamp lo hi x) else .error .invertedEnds

theorem guardedClamp_eq {lo hi : Float} (h : lo ≤ hi) (x : Float) :
    guardedClamp lo hi x = .ok (clamp lo hi x) := if_pos h

end Binary64

/-! ### Sliding minimum -/

namespace SlidingMinimum

variable {α : Type} [LT α] [DecidableRel (LT.lt : α → α → Prop)] {w : SlidingMinimum α}

/-- Insert `v` and count the insertion in a 64-bit word. -/
def guardedInsert (w : SlidingMinimum α) (v : α) : Except Fault (SlidingMinimum α) :=
  if w.inserted + 1 < 0x10000000000000000 then .ok (w.insert v) else .error .overflow

theorem guardedInsert_eq (h : w.inserted + 1 < 0x10000000000000000) (v : α) :
    w.guardedInsert v = .ok (w.insert v) := if_pos h

theorem guardedInsert_eq_error (h : ¬w.inserted + 1 < 0x10000000000000000) (v : α) :
    w.guardedInsert v = .error .overflow := if_neg h

end SlidingMinimum

end MediaSender
