import MediaSender.Quantity.Scaling
import MediaSender.Text.Blank
import MediaSender.Text.Decimal

/-! # Values of trial parameters

A value is a number, a flag, or a quantity: a number and the name of a unit, which may be left
out (milliseconds, bytes, thousands of bits per second). -/

namespace MediaSender

/-- What kind of value a parameter takes. -/
inductive ValueKind where
  | float
  | integer
  | flag
  | time
  | size
  | rate
deriving DecidableEq, Repr

/-- The values of a kind. -/
abbrev ValueKind.Value : ValueKind → Type
  | .float => Float
  | .integer => Int
  | .flag => Bool
  | .time => TimeDelta
  | .size => DataSize
  | .rate => DataRate

namespace ValueKind

/-- Whether a character may stand in the number of a quantity. -/
def isNumeral (c : Char) : Bool := c.isDigit || c == '.' || c == '-' || c == '+'

/-- The number and the unit of a quantity. -/
def numberAndUnit? (cs : List Char) : Option (Float × String) :=
  (Text.Decimal.float? (cs.takeWhile isNumeral)).map fun x =>
    (x, String.ofList (Text.trim (cs.dropWhile isNumeral)))

/-- A time of `x` units. -/
def timeIn? (x : Float) : String → Option TimeDelta
  | "" | "ms" => some (.ofMillisFloat x)
  | "s" => some (.ofSecondsFloat x)
  | "us" => some (.ofSecondsFloat (x / 1000000.0))
  | "min" => some (.ofSecondsFloat (x * 60.0))
  | _ => none

/-- A size of `x` units. -/
def sizeIn? (x : Float) : String → Option DataSize
  | "" | "B" | "bytes" => some (.ofFloat x)
  | _ => none

/-- A rate of `x` units. -/
def rateIn? (x : Float) : String → Option DataRate
  | "" | "kbps" => some (.ofFloat (x * 1000.0))
  | "bps" => some (.ofFloat x)
  | _ => none

/-- A quantity whose unit `inUnit?` reads. -/
def quantity? {α : Type} (inUnit? : Float → String → Option α) (s : String) : Option α :=
  (numberAndUnit? s.toList).bind fun p => inUnit? p.1 p.2

/-- A flag. -/
def flag? : String → Option Bool
  | "true" | "1" => some true
  | "false" | "0" => some false
  | _ => none

/-- The value of kind `k` that a text denotes. -/
def parse? (k : ValueKind) (s : String) : Option k.Value :=
  match k with
  | .float => Text.Decimal.float? s.toList
  | .integer => Text.Decimal.integerWithin? (-0x80000000) 0x7fffffff s.toList
  | .flag => flag? s
  | .time => if s = "inf" then some .plusInfinity else quantity? timeIn? s
  | .size => quantity? sizeIn? s
  | .rate => if s = "inf" then some .plusInfinity else quantity? rateIn? s

end ValueKind

end MediaSender
