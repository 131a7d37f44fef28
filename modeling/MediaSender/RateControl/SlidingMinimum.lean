/-! # Minimum over a sliding window

The minimum of the last `windowLength` inserted values, without keeping them all: a value that is
not less than a later one can never be the minimum again, and is dropped.  What is left are the
candidates, each with the index of its insertion, values increasing from the oldest on. -/

namespace MediaSender

/-- The candidates for the minimum of the last `windowLength` inserted values. -/
structure SlidingMinimum (α : Type) where
  windowLength : Nat
  inserted : Nat := 0
  candidates : List (Nat × α) := []
deriving DecidableEq

namespace SlidingMinimum

variable {α : Type} [LT α] [DecidableRel (LT.lt : α → α → Prop)]

/-- A window of at least one value, with none inserted yet. -/
def ofLength (n : Nat) : SlidingMinimum α := { windowLength := max n 1 }

/-- Insert `v`: it displaces the candidates that are not less, and the window moves on. -/
def insert (w : SlidingMinimum α) (v : α) : SlidingMinimum α :=
  let kept := (w.candidates.reverse.dropWhile fun c => !decide (c.2 < v)).reverse
  { w with
    inserted := w.inserted + 1
    candidates := (kept ++ [(w.inserted, v)]).dropWhile fun c =>
      decide (c.1 < w.inserted + 1 - w.windowLength) }

/-- The minimum of the window, if anything was inserted. -/
def minimum? (w : SlidingMinimum α) : Option α := w.candidates.head?.map (·.2)

end SlidingMinimum

end MediaSender
