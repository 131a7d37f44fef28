/-! # Quantities

* **Raw value.** A quantity is an integer of its dimension's unit (bits per second, bytes,
  microseconds) that fits a signed 64-bit word, so it lies between `-0x8000000000000000` and
  `0x7fffffffffffffff`.
* **Infinities.** The two ends of that range stand for plus and minus infinity; every other
  value is finite.
* **Saturation.** Arithmetic is exact on integers, and a result outside the range becomes the
  infinity on its side (`Quantity.ofInt`).  With an infinite operand the result is an infinity,
  and where two infinities disagree plus infinity wins (`Quantity.add`, `Quantity.sub`). -/

namespace MediaSender

/-- What a quantity measures. -/
inductive Dimension where
  | rate
  | size
  | time
deriving DecidableEq, Repr

/-- The name of the unit that a dimension is counted in. -/
def Dimension.unit : Dimension → String
  | .rate => "bps"
  | .size => "bytes"
  | .time => "us"

/-- An amount of dimension `d`, counted in the unit of `d`. -/
@[ext] structure Quantity (d : Dimension) where
  raw : Int
  lower : -0x8000000000000000 ≤ raw := by decide
  upper : raw < 0x8000000000000000 := by decide
deriving DecidableEq

/-- Bits per second. -/
abbrev DataRate := Quantity .rate

/-- Bytes. -/
abbrev DataSize := Quantity .size

/-- Microseconds. -/
abbrev TimeDelta := Quantity .time

namespace Quantity

variable {d : Dimension}

/-- The quantity of raw value `n`, or the infinity on its side if `n` does not fit. -/
def ofInt (n : Int) : Quantity d :=
  ⟨max (-0x8000000000000000) (min n 0x7fffffffffffffff), by omega, by omega⟩

theorem raw_ofInt (n : Int) :
    (ofInt n : Quantity d).raw = max (-0x8000000000000000) (min n 0x7fffffffffffffff) := rfl

theorem raw_ofInt_of_mem {n : Int} (h₁ : -0x8000000000000000 ≤ n) (h₂ : n < 0x8000000000000000) :
    (ofInt n : Quantity d).raw = n := by
  rw [raw_ofInt]
  omega

@[simp] theorem ofInt_raw (a : Quantity d) : ofInt a.raw = a :=
  Quantity.ext (raw_ofInt_of_mem a.lower a.upper)

instance : Zero (Quantity d) := ⟨⟨0, by decide, by decide⟩⟩

@[simp] theorem raw_zero : (0 : Quantity d).raw = 0 := rfl

instance : Inhabited (Quantity d) := ⟨0⟩

/-- The upper end of the range. -/
def plusInfinity : Quantity d := ⟨0x7fffffffffffffff, by decide, by decide⟩

/-- The lower end of the range. -/
def minusInfinity : Quantity d := ⟨-0x8000000000000000, by decide, by decide⟩

@[simp] theorem raw_plusInfinity : (plusInfinity : Quantity d).raw = 0x7fffffffffffffff := rfl

@[simp] theorem raw_minusInfinity : (minusInfinity : Quantity d).raw = -0x8000000000000000 := rfl

/-! ### Order -/

instance : LE (Quantity d) := ⟨fun a b => a.raw ≤ b.raw⟩

instance : LT (Quantity d) := ⟨fun a b => a.raw < b.raw⟩

theorem le_def {a b : Quantity d} : a ≤ b ↔ a.raw ≤ b.raw := Iff.rfl

theorem lt_def {a b : Quantity d} : a < b ↔ a.raw < b.raw := Iff.rfl

instance (a b : Quantity d) : Decidable (a ≤ b) := inferInstanceAs (Decidable (a.raw ≤ b.raw))

instance (a b : Quantity d) : Decidable (a < b) := inferInstanceAs (Decidable (a.raw < b.raw))

instance : Min (Quantity d) := ⟨fun a b => if a ≤ b then a else b⟩

instance : Max (Quantity d) := ⟨fun a b => if a ≤ b then b else a⟩

instance : Ord (Quantity d) := ⟨fun a b => compare a.raw b.raw⟩

theorem raw_min (a b : Quantity d) : (min a b).raw = min a.raw b.raw := by
  show (if a ≤ b then a else b).raw = _
  split <;> rename_i h <;> rw [le_def] at h <;> omega

theorem raw_max (a b : Quantity d) : (max a b).raw = max a.raw b.raw := by
  show (if a ≤ b then b else a).raw = _
  split <;> rename_i h <;> rw [le_def] at h <;> omega

/-- `x` kept between `lo` and `hi`. -/
def clamp (lo hi x : Quantity d) : Quantity d := if x < lo then lo else if hi < x then hi else x

/-! ### Kinds of value -/

/-- Whether the amount is zero. -/
def isZero (a : Quantity d) : Bool := a.raw == 0

/-- Whether the amount is plus infinity. -/
def isPlusInfinity (a : Quantity d) : Bool := a.raw == 0x7fffffffffffffff

/-- Whether the amount is minus infinity. -/
def isMinusInfinity (a : Quantity d) : Bool := a.raw == -0x8000000000000000

/-- Whether the amount is one of the infinities. -/
def isInfinite (a : Quantity d) : Bool := a.isPlusInfinity || a.isMinusInfinity

/-- Whether the amount is none of the infinities. -/
def isFinite (a : Quantity d) : Bool := !a.isInfinite

/-- The infinity with the sign that the flag gives. -/
def infinite (positive : Bool) : Quantity d := if positive then plusInfinity else minusInfinity

@[simp] theorem isZero_iff {a : Quantity d} : a.isZero = true ↔ a.raw = 0 := by simp [isZero]

@[simp] theorem isPlusInfinity_iff {a : Quantity d} :
    a.isPlusInfinity = true ↔ a.raw = 0x7fffffffffffffff := by simp [isPlusInfinity]

@[simp] theorem isMinusInfinity_iff {a : Quantity d} :
    a.isMinusInfinity = true ↔ a.raw = -0x8000000000000000 := by simp [isMinusInfinity]

@[simp] theorem isInfinite_iff {a : Quantity d} :
    a.isInfinite = true ↔ a.raw = 0x7fffffffffffffff ∨ a.raw = -0x8000000000000000 := by
  simp [isInfinite]

@[simp] theorem isFinite_iff {a : Quantity d} :
    a.isFinite = true ↔ a.raw ≠ 0x7fffffffffffffff ∧ a.raw ≠ -0x8000000000000000 := by
  simp [isFinite, isInfinite, isPlusInfinity, isMinusInfinity]

/-! ### Sums -/

/-- The sum; plus infinity wins over minus infinity. -/
def add (a b : Quantity d) : Quantity d :=
  if a.isPlusInfinity || b.isPlusInfinity then plusInfinity
  else if a.isMinusInfinity || b.isMinusInfinity then minusInfinity
  else ofInt (a.raw + b.raw)

/-- The difference; plus infinity wins over minus infinity. -/
def sub (a b : Quantity d) : Quantity d :=
  if a.isPlusInfinity || b.isMinusInfinity then plusInfinity
  else if a.isMinusInfinity || b.isPlusInfinity then minusInfinity
  else ofInt (a.raw - b.raw)

/-- The opposite amount; the infinities change places. -/
def neg (a : Quantity d) : Quantity d :=
  if a.isPlusInfinity then minusInfinity
  else if a.isMinusInfinity then plusInfinity
  else ofInt (-a.raw)

instance : Add (Quantity d) := ⟨add⟩

instance : Sub (Quantity d) := ⟨sub⟩

instance : Neg (Quantity d) := ⟨neg⟩

/-- The magnitude. -/
def abs (a : Quantity d) : Quantity d := if a.raw < 0 then -a else a

/-! ### Whole multiples and shares -/

/-- `k` times the amount.  An infinity times zero is zero, times another number an infinity of
the product's sign. -/
def times (a : Quantity d) (k : Int) : Quantity d :=
  if a.isInfinite then
    if k = 0 then 0 else infinite (decide (0 < a.raw) == decide (0 < k))
  else ofInt (a.raw * k)

/-- The amount divided by `k`, truncated.  An infinity keeps its sign unless `k` is negative, and
a finite amount divided by zero is the infinity of its own sign, or zero if it was zero. -/
def dividedBy (a : Quantity d) (k : Int) : Quantity d :=
  if a.isInfinite then if k < 0 then -a else a
  else if k = 0 then if a.raw = 0 then 0 else infinite (decide (0 < a.raw))
  else ofInt (Int.tdiv a.raw k)

/-! ### Text -/

/-- The amount with its unit: a decimal integer, or the infinity's sign and name. -/
def text (a : Quantity d) : String :=
  (if a.isPlusInfinity then "+inf" else if a.isMinusInfinity then "-inf" else toString a.raw)
    ++ " " ++ d.unit

end Quantity

end MediaSender
