import MediaSender.Quantity.Basic

/-! # Errors of the rate control

Bounds on the target rate must be in order; a controller that takes messages from outside checks
them first, and takes nothing once it is closed. -/

namespace MediaSender

/-- Why the rate control refuses. -/
inductive ControlError where
  /-- Bounds on the target rate in the wrong order. -/
  | invertedBounds (lower upper : DataRate)
  /-- Constraints in the wrong order, found by checking them. -/
  | invalidConstraints (lower upper : DataRate)
  | closed
deriving DecidableEq

/-- The text of an error. -/
def ControlError.message : ControlError → String
  | .invertedBounds lower upper =>
    "max target bitrate " ++ upper.text ++ " is below min target bitrate " ++ lower.text
  | .invalidConstraints lower upper =>
    "target rate constraints: max " ++ upper.text ++ " is below min " ++ lower.text
  | .closed => "network controller: closed"

end MediaSender
