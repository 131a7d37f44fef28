import MediaSender.Quantity.Scaling

/-! # Points in time

A timestamp is the time passed since an epoch that its clock chose, so its arithmetic is that of
times.  Minus infinity stands for an event that has not happened, plus infinity for an instant
that is not known. -/

namespace MediaSender

/-- A point in time. -/
@[ext] structure Timestamp where
  sinceEpoch : TimeDelta
deriving DecidableEq

namespace Timestamp

/-- The instant `n` microseconds after the epoch. -/
def ofMicros (n : Int) : Timestamp := ⟨.ofInt n⟩

/-- The instant `n` milliseconds after the epoch. -/
def ofMillis (n : Int) : Timestamp := ⟨TimeDelta.ofMillis n⟩

/-- The instant `n` seconds after the epoch. -/
def ofSeconds (n : Int) : Timestamp := ⟨TimeDelta.ofSeconds n⟩

/-- Microseconds since the epoch. -/
def raw (t : Timestamp) : Int := t.sinceEpoch.raw

/-- An instant that is not known. -/
def plusInfinity : Timestamp := ⟨.plusInfinity⟩

/-- An instant before every other: the event has not happened. -/
def minusInfinity : Timestamp := ⟨.minusInfinity⟩

instance : Zero Timestamp := ⟨⟨0⟩⟩

instance : Inhabited Timestamp := ⟨0⟩

/-- Whether the instant is the epoch. -/
def isZero (t : Timestamp) : Bool := t.sinceEpoch.isZero

/-- Whether the instant is plus infinity. -/
def isPlusInfinity (t : Timestamp) : Bool := t.sinceEpoch.isPlusInfinity

/-- Whether the instant is minus infinity. -/
def isMinusInfinity (t : Timestamp) : Bool := t.sinceEpoch.isMinusInfinity

/-- Whether the instant is one of the infinities. -/
def isInfinite (t : Timestamp) : Bool := t.sinceEpoch.isInfinite

/-- Whether the instant is none of the infinities. -/
def isFinite (t : Timestamp) : Bool := t.sinceEpoch.isFinite

/-! ### Order -/

instance : LE Timestamp := ⟨fun s t => s.sinceEpoch ≤ t.sinceEpoch⟩

instance : LT Timestamp := ⟨fun s t => s.sinceEpoch < t.sinceEpoch⟩

theorem le_def {s t : Timestamp} : s ≤ t ↔ s.raw ≤ t.raw := Iff.rfl

instance (s t : Timestamp) : Decidable (s ≤ t) := inferInstanceAs (Decidable (s.raw ≤ t.raw))

instance (s t : Timestamp) : Decidable (s < t) := inferInstanceAs (Decidable (s.raw < t.raw))

instance : Ord Timestamp := ⟨fun s t => compare s.sinceEpoch t.sinceEpoch⟩

/-! ### Passing time -/

instance : HAdd Timestamp TimeDelta Timestamp := ⟨fun t δ => ⟨t.sinceEpoch + δ⟩⟩

instance : HSub Timestamp TimeDelta Timestamp := ⟨fun t δ => ⟨t.sinceEpoch - δ⟩⟩

instance : HSub Timestamp Timestamp TimeDelta := ⟨fun t s => t.sinceEpoch - s.sinceEpoch⟩

/-- Milliseconds since the epoch, to the nearest. -/
def ms (t : Timestamp) : Int := TimeDelta.ms t.sinceEpoch

/-- Seconds since the epoch. -/
def secondsFloat (t : Timestamp) : Float := TimeDelta.secondsFloat t.sinceEpoch

/-- The microseconds since the epoch, with their unit. -/
def text (t : Timestamp) : String := t.sinceEpoch.text

end Timestamp

end MediaSender
