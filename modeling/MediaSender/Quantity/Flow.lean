import MediaSender.Quantity.Basic

/-! # Rate, size and time

Eight million bit-microseconds are a byte-second in bits, so a rate `r` carries `r * t / 8000000`
bytes in the time `t`.

* **Product.** `DataRate.during` rounds to the nearest byte, a half going away from zero.
* **Quotients.** `DataSize.over` (a rate) and `DataSize.at` (a time) truncate.
* **Infinities.** Zero times anything is zero; an infinite size, or a division by zero, gives an
  infinity with the sign of the quotient, zero counting as positive; dividing a finite size by
  an infinity gives zero. -/

namespace MediaSender

/-- `n / 8000000` to the nearest integer, a half going away from zero. -/
def roundToBytes (n : Int) : Int :=
  if 0 ≤ n then Int.tdiv (n + 4000000) 8000000 else Int.tdiv (n - 4000000) 8000000

/-- The data that the rate carries in the time `t`. -/
def DataRate.during (r : DataRate) (t : TimeDelta) : DataSize :=
  if r.isZero || t.isZero then 0
  else if r.isInfinite || t.isInfinite then .infinite (decide (0 < r.raw) == decide (0 < t.raw))
  else .ofInt (roundToBytes (r.raw * t.raw))

/-- The average rate that moves the data in the time `t`. -/
def DataSize.over (s : DataSize) (t : TimeDelta) : DataRate :=
  if s.isInfinite || t.isZero then .infinite (decide (0 ≤ s.raw) == decide (0 ≤ t.raw))
  else if t.isInfinite then 0
  else .ofInt (Int.tdiv (s.raw * 8000000) t.raw)

/-- The time that moving the data takes at the rate `r`. -/
def DataSize.at (s : DataSize) (r : DataRate) : TimeDelta :=
  if s.isInfinite || r.isZero then .infinite (decide (0 ≤ s.raw) == decide (0 ≤ r.raw))
  else if r.isInfinite then 0
  else .ofInt (Int.tdiv (s.raw * 8000000) r.raw)

end MediaSender
