import MediaSender.History.Slots

/-! # Culling old packets

A packet is kept for the retention time, three round trips but no less than a second, and longer
while there is room: up to the number of slots that was asked for, and at most three retention
times.  Culling goes from the oldest sequence number on and stops at the first packet that stays.
A packet that waits for its retransmission stays, unless the slots are exhausted. -/

namespace MediaSender

namespace Retention

/-- The number of slots that a history is kept below. -/
def maxSlots : Nat := 9600

/-- The shortest time a packet is kept. -/
def minimum : TimeDelta := TimeDelta.ofSeconds 1

/-- Round trips that a packet is kept at least. -/
def roundTrips : Int := 3

/-- Retention times after which a packet goes even if there is room. -/
def delayFactor : Int := 3

/-- The retention time. -/
def duration (rtt : Option TimeDelta) : TimeDelta :=
  match rtt with
  | some r => max (r.times roundTrips) minimum
  | none => minimum

/-- Whether the first of `n` slots is given up at `now`, if it holds `e`. -/
def givesUp (numberToStore : Nat) (d : TimeDelta) (now : Timestamp) (n : Nat) (e : Entry) : Bool :=
  decide (maxSlots ≤ n) ||
    (!e.pending && decide (e.sentAt + d ≤ now) &&
      (decide (numberToStore ≤ n) || decide (e.sentAt + d.times delayFactor ≤ now)))

end Retention

/-- The slots left after culling at `now`. -/
def Slots.cull (numberToStore : Nat) (d : TimeDelta) (now : Timestamp) : Slots → Slots
  | [] => []
  | none :: rest => cull numberToStore d now rest
  | some e :: rest =>
    if Retention.givesUp numberToStore d now (rest.length + 1) e then
      cull numberToStore d now rest
    else some e :: rest

theorem Slots.cull_suffix (numberToStore : Nat) (d : TimeDelta) (now : Timestamp) (slots : Slots) :
    slots.cull numberToStore d now <:+ slots := by
  induction slots with
  | nil => exact List.suffix_refl _
  | cons slot rest ih =>
    cases slot with
    | none => exact ih.trans (List.suffix_cons _ _)
    | some e =>
      rw [cull]
      split
      · exact ih.trans (List.suffix_cons _ _)
      · exact List.suffix_refl _

end MediaSender
