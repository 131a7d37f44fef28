import MediaSender.Binary64

/-! # Numbers in decimal

* **Digits** are the ASCII digits; `value` reads a run of them.
* **Integers** are an optional sign and at least one digit.
* **Floats** are an optional sign and then a name (`inf`, `infinity`, `nan`, in any case) or
  digits with at most one point and at least one digit, and an optional exponent.  The value is
  the nearest float to the exact decimal. -/

namespace MediaSender.Text.Decimal

/-- The value of an ASCII digit. -/
def digitValue (c : Char) : Nat := c.toNat - '0'.toNat

/-- The number that a run of digits denotes. -/
def value (digits : List Char) : Nat := digits.foldl (fun n c => 10 * n + digitValue c) 0

/-- Whether the sign in front is a minus, and what follows the sign. -/
def sign : List Char → Bool × List Char
  | '-' :: cs => (true, cs)
  | '+' :: cs => (false, cs)
  | cs => (false, cs)

/-- A run of one or more digits, as a number. -/
def natural? (cs : List Char) : Option Nat :=
  if !cs.isEmpty && cs.all Char.isDigit then some (value cs) else none

/-- An integer with an optional sign. -/
def integer? (cs : List Char) : Option Int :=
  let (negative, digits) := sign cs
  (natural? digits).map fun n => if negative then -n else n

/-- An integer between `lo` and `hi`. -/
def integerWithin? (lo hi : Int) (cs : List Char) : Option Int :=
  (integer? cs).filter fun n => decide (lo ≤ n ∧ n ≤ hi)

/-- The exponent that a float ends with: a letter, an optional sign and digits; zero for nothing
at all. -/
def exponent? : List Char → Option Int
  | [] => some 0
  | c :: cs => if c == 'e' || c == 'E' then integer? cs else none

/-- The float nearest to `m * 10 ^ e`.  An exponent far outside the range of floats is settled by
the number of digits. -/
def scaled (m : Nat) (e : Int) : Float :=
  let top := (Nat.toDigits 10 m).length + e
  if m = 0 ∨ top < -400 then 0.0
  else if 400 < top then Binary64.infinity
  else
    match e with
    | .ofNat k => Float.ofScientific m false k
    | .negSucc k => Float.ofScientific m true (k + 1)

/-- A float without sign or name. -/
def unsigned? (cs : List Char) : Option Float :=
  let whole := cs.takeWhile Char.isDigit
  let rest := cs.dropWhile Char.isDigit
  let (fraction, rest) :=
    match rest with
    | '.' :: rest => (rest.takeWhile Char.isDigit, rest.dropWhile Char.isDigit)
    | _ => ([], rest)
  if whole.isEmpty && fraction.isEmpty then none
  else (exponent? rest).map fun e => scaled (value (whole ++ fraction)) (e - fraction.length)

/-- The float that a name stands for. -/
def named? (cs : List Char) : Option Float :=
  let name := String.ofList (cs.map Char.toLower)
  if name == "inf" || name == "infinity" then some Binary64.infinity
  else if name == "nan" then some Binary64.nan
  else none

/-- A float. -/
def float? (cs : List Char) : Option Float :=
  let (negative, magnitude) := sign cs
  (named? magnitude <|> unsigned? magnitude).map fun x => if negative then -x else x

end MediaSender.Text.Decimal
