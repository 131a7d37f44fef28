import MediaSender.Timestamp

/-! # Reports on the rate control

The state after each round of feedback, as told to whoever watches, and a log that keeps such
reports in the order they came. -/

namespace MediaSender

/-- The state of the rate control after a round of feedback. -/
structure RateReport where
  atTime : Timestamp
  refWindow : DataSize
  dataInFlight : DataSize
  targetRate : DataRate
  smoothedRtt : TimeDelta
  queueDelay : TimeDelta
  /-- Average share of marked packets, in thousandths. -/
  markedPermille : UInt32
deriving DecidableEq

/-- The reports so far, oldest first. -/
structure ReportLog where
  reports : List RateReport := []
deriving DecidableEq

namespace ReportLog

/-- Add a report. -/
def record (l : ReportLog) (r : RateReport) : ReportLog := ⟨l.reports ++ [r]⟩

/-- Hand out the reports and start again. -/
def take (l : ReportLog) : List RateReport × ReportLog := (l.reports, {})

/-- The number of reports. -/
def size (l : ReportLog) : Nat := l.reports.length

/-- Whether there are no reports. -/
def isEmpty (l : ReportLog) : Bool := l.reports.isEmpty

end ReportLog

end MediaSender
