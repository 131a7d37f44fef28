import MediaSender.Binary64
import MediaSender.Quantity.Basic

/-! # Quantities and floats

* **Reading.** `toFloat` gives the float nearest to the raw value, and the float infinities for
  the quantity infinities.
* **Writing.** `ofFloat` rounds to the nearest unit, a half going away from zero; values out of
  range become infinities and not-a-number becomes zero.
* **Factors.** `scale` and `per` work on floats and round once; an infinite amount keeps its
  magnitude under a factor (`scale`), except that zero and not-a-number give zero. -/

namespace MediaSender

namespace Quantity

variable {d : Dimension}

/-- The float nearest to the raw value. -/
def rawFloat (a : Quantity d) : Float := Float.ofInt a.raw

/-- The amount as a float, infinities included. -/
def toFloat (a : Quantity d) : Float :=
  if a.isPlusInfinity then Binary64.infinity
  else if a.isMinusInfinity then -Binary64.infinity
  else a.rawFloat

/-- The amount nearest to `x` units. -/
def ofFloat (x : Float) : Quantity d :=
  ofInt (Binary64.nearest (-0x8000000000000000) 0x7fffffffffffffff x)

theorem raw_ofFloat (x : Float) :
    (ofFloat x : Quantity d).raw = Binary64.nearest (-0x8000000000000000) 0x7fffffffffffffff x := by
  have h₁ : -0x8000000000000000 ≤ Binary64.nearest (-0x8000000000000000) 0x7fffffffffffffff x :=
    Binary64.le_toIntWithin _ x (by decide) (by decide)
  have h₂ : Binary64.nearest (-0x8000000000000000) 0x7fffffffffffffff x ≤ 0x7fffffffffffffff :=
    Binary64.toIntWithin_le _ x (by decide) (by decide)
  exact raw_ofInt_of_mem h₁ (Int.lt_of_le_sub_one h₂)

/-- The amount times `x`. -/
def scale (a : Quantity d) (x : Float) : Quantity d :=
  if a.isInfinite then
    if x == 0.0 || x.isNaN then 0 else infinite (a.isPlusInfinity == decide (0.0 < x))
  else ofFloat (a.rawFloat * x)

/-- The amount divided by `x`. -/
def per (a : Quantity d) (x : Float) : Quantity d := ofFloat (a.toFloat / x)

/-- How many times `b` fits into `a`. -/
def ratio (a b : Quantity d) : Float := a.toFloat / b.toFloat

end Quantity

/-! ### Other units of a rate -/

namespace DataRate

/-- `n` thousand bits per second. -/
def ofKbps (n : Int) : DataRate := .ofInt (n * 1000)

/-- Whole thousands of bits per second, truncated; an infinity keeps its raw value. -/
def kbps (r : DataRate) : Int := if r.isInfinite then r.raw else Int.tdiv r.raw 1000

/-- Thousands of bits per second. -/
def kbpsFloat (r : DataRate) : Float := r.toFloat / 1000.0

end DataRate

/-! ### Other units of a time -/

namespace TimeDelta

/-- `n` milliseconds. -/
def ofMillis (n : Int) : TimeDelta := .ofInt (n * 1000)

/-- `n` seconds. -/
def ofSeconds (n : Int) : TimeDelta := .ofInt (n * 1000000)

/-- `n` minutes. -/
def ofMinutes (n : Int) : TimeDelta := .ofInt (n * 60000000)

/-- `s` seconds and `n` nanoseconds, truncated to microseconds. -/
def ofSecondsNanos (s n : Nat) : TimeDelta := .ofInt (s * 1000000 + n / 1000 : Nat)

/-- `x` seconds, to the nearest microsecond. -/
def ofSecondsFloat (x : Float) : TimeDelta := .ofFloat (x * 1000000.0)

/-- `x` milliseconds, to the nearest microsecond. -/
def ofMillisFloat (x : Float) : TimeDelta := .ofFloat (x * 1000.0)

/-- Milliseconds to the nearest, a half going away from zero; an infinity keeps its raw value. -/
def ms (t : TimeDelta) : Int :=
  if t.isInfinite then t.raw else (Quantity.ofFloat (t.rawFloat / 1000.0) : TimeDelta).raw

/-- Milliseconds. -/
def msFloat (t : TimeDelta) : Float := t.toFloat / 1000.0

/-- Seconds. -/
def secondsFloat (t : TimeDelta) : Float := t.toFloat / 1000000.0

end TimeDelta

end MediaSender
