/-! # Integers from floats

* **Exact value.** A float is not a number, an infinity, a zero, or a sign with a mantissa `m`
  and an exponent `e` that stand for `m * 2 ^ e`; the core library's model of `Float` gives
  these parts (`Float.Model.unpack`).
* **Integers.** `roundScaled` and `truncScaled` turn `m * 2 ^ e` into an integer with exact
  arithmetic, `toIntWithin` keeps the result in a range: not a number gives zero, an infinity
  the end on its side.
* **Selection.** `maximum` and `minimum` prefer a number to not-a-number, and of two that compare
  equal, which matters for the zeros of either sign, they give the second; `clamp` keeps
  not-a-number as it is. -/

namespace MediaSender.Binary64

/-- Positive infinity. -/
def infinity : Float := 1.0 / 0.0

/-- Not a number. -/
def nan : Float := 0.0 / 0.0

/-! ### Integers -/

/-- The integer nearest to `m * 2 ^ e`, a half going up. -/
def roundScaled (m : Nat) : Int → Nat
  | .ofNat k => m <<< k
  | .negSucc k => (m + 1 <<< k) >>> (k + 1)

/-- The integer part of `m * 2 ^ e`. -/
def truncScaled (m : Nat) : Int → Nat
  | .ofNat k => m <<< k
  | .negSucc k => m >>> (k + 1)

/-- The integer that `rounding` makes of the magnitude of `x`, with the sign of `x`, kept
between `lo` and `hi`. -/
def toIntWithin (rounding : Nat → Int → Nat) (lo hi : Int) (x : Float) : Int :=
  match x.toModel.unpack with
  | .notANumber => 0
  | .zero _ => 0
  | .infinity .negative => lo
  | .infinity .positive => hi
  | .finite s m e _ => max lo (min (s.apply (rounding m e)) hi)

/-- The integer nearest to `x` between `lo` and `hi`, a half going away from zero. -/
def nearest (lo hi : Int) (x : Float) : Int := toIntWithin roundScaled lo hi x

/-- The integer part of `x`, kept between `lo` and `hi`. -/
def truncated (lo hi : Int) (x : Float) : Int := toIntWithin truncScaled lo hi x

theorem le_toIntWithin (rounding : Nat → Int → Nat) {lo hi : Int} (x : Float) (h₀ : lo ≤ 0)
    (h : lo ≤ hi) : lo ≤ toIntWithin rounding lo hi x := by
  unfold toIntWithin
  split <;> omega

theorem toIntWithin_le (rounding : Nat → Int → Nat) {lo hi : Int} (x : Float) (h₀ : 0 ≤ hi)
    (h : lo ≤ hi) : toIntWithin rounding lo hi x ≤ hi := by
  unfold toIntWithin
  split <;> omega

/-! ### Selection -/

/-- The larger of two floats, `b` if they compare equal; one that is not a number gives way to the
other. -/
def maximum (a b : Float) : Float := if a ≤ b || a.isNaN then b else a

/-- The smaller of two floats, `b` if they compare equal; one that is not a number gives way to the
other. -/
def minimum (a b : Float) : Float := if b ≤ a || a.isNaN then b else a

/-- `x` kept between `lo` and `hi`; not-a-number stays. -/
def clamp (lo hi x : Float) : Float := if x < lo then lo else if hi < x then hi else x

end MediaSender.Binary64
