import MediaSender.Json.Token

/-! # Values of JSON numbers

* **Integers.** A number without fraction and exponent is an integer if it fits 64 bits, signed if
  it is negative.  Minus zero is a float.
* **Floats.** The digits are read into a 64-bit significand as long as they fit; digits of the
  whole part that no longer fit raise the exponent, digits of the fraction that no longer fit are
  dropped.  The significand is rounded once to a float and then multiplied or divided by a power
  of ten, so the last place need not be that of the nearest float.
* **Range.** A float beyond the finite ones is out of range. -/

namespace MediaSender.Json

/-- The value of a number. -/
inductive Number where
  | integer (n : Int)
  | float (x : Float)

/-- Append digits to `m` as long as the result is below `2 ^ 64`; the rest is left over. -/
def significand (m : Nat) : List Char → Nat × List Char
  | [] => (m, [])
  | c :: cs =>
    if 10 * m + Text.Decimal.digitValue c < 0x10000000000000000 then
      significand (10 * m + Text.Decimal.digitValue c) cs
    else (m, c :: cs)

/-- The float nearest to `10 ^ k`. -/
def powerOfTen (k : Nat) : Float := Float.ofScientific 1 false k

/-- `x` times `10 ^ e`, if it is in range.  Powers of ten beyond `10 ^ 308` are taken in steps. -/
def scaleByTen? (x : Float) (e : Int) : Option Float :=
  if 0 ≤ e then
    if e ≤ 308 then
      let y := x * powerOfTen e.toNat
      if y.isInf then none else some y
    else if x == 0.0 then some x
    else none
  else if -308 ≤ e then some (x / powerOfTen (-e).toNat)
  else if x == 0.0 then some x
  else scaleByTen? (x / 1e308) (e + 308)
termination_by e.natAbs

/-- The exponent as written; `none` beyond the signed 32-bit range. -/
def writtenExponent? (negative : Bool) (digits : List Char) : Option Int :=
  let n : Int := Text.Decimal.value digits
  if n < 0x80000000 then some (if negative then -n else n) else none

/-- The magnitude of a float with significand `m` and exponent `e`, and the exponent that is
written after it.  A written exponent out of range makes it zero if it is negative or `m` is. -/
def floatMagnitude? (m : Nat) (e : Int) (written : Option (Bool × List Char)) : Option Float :=
  match written with
  | none => scaleByTen? (Float.ofNat m) e
  | some (negative, digits) =>
    match writtenExponent? negative digits with
    | some w => scaleByTen? (Float.ofNat m) (e + w)
    | none => if m = 0 ∨ negative then some 0.0 else none

/-- The value of a number, if it is in range. -/
def NumberText.value? (t : NumberText) : Option Number :=
  let (m, cut) := significand 0 t.whole
  if cut.isEmpty && !t.hasFraction && t.exponent.isNone then
    if t.negative then
      some (if m = 0 ∨ 0x8000000000000000 < m then .float (-Float.ofNat m) else .integer (-m))
    else some (.integer m)
  else
    let (m, dropped) := significand m t.fraction
    let e : Int := cut.length - (t.fraction.length - dropped.length : Nat)
    (floatMagnitude? m e t.exponent).map fun x => .float (if t.negative then -x else x)

/-- Whether a token denotes a value: strings a text, numbers one in range. -/
def Token.isSound : Token → Bool
  | .string s => s.isSome
  | .number n => n.value?.isSome
  | _ => true

/-- The text of an integer. -/
def NumberText.ofInt (n : Int) : NumberText where
  negative := decide (n < 0)
  whole := Nat.toDigits 10 n.natAbs

end MediaSender.Json
