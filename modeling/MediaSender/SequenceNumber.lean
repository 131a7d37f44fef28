/-! # Packet sequence numbers

Packets of a stream are numbered modulo `2 ^ 16`.  Two numbers are compared along the shorter
way round the circle; at exactly half the circle the numerically larger one counts as newer, so
that of two different numbers exactly one is newer. -/

namespace MediaSender

/-- The number of a packet within its stream, modulo `2 ^ 16`. -/
abbrev SequenceNumber := UInt16

namespace SequenceNumber

/-- Half the circle of sequence numbers. -/
def halfCircle : UInt16 := 0x8000

/-- Whether `a` comes after `b`. -/
def isNewer (a b : SequenceNumber) : Bool :=
  if a - b = halfCircle then decide (b < a) else decide (a - b ≠ 0 ∧ a - b < halfCircle)

/-- The newer of two sequence numbers. -/
def latest (a b : SequenceNumber) : SequenceNumber := if isNewer a b then a else b

/-- How many numbers `a` lies after `base`; negative if it lies before. -/
def offset (a base : SequenceNumber) : Int :=
  if isNewer a base || a - base = 0 then (a - base).toNat else (a - base).toNat - 0x10000

end SequenceNumber

end MediaSender
