import MediaSender.History.Run
import MediaSender.Controller.Session
import MediaSender.RateControl.ParametersJson
import MediaSender.RateControl.ReportJson
import MediaSender.Proofs.History.Layout
import MediaSender.Proofs.History.Consistency
import MediaSender.Proofs.History.Ledger
import MediaSender.Proofs.History.Refinement
import MediaSender.Proofs.History.Retransmission
import MediaSender.Proofs.History.Pending
import MediaSender.Proofs.Quantity
import MediaSender.Proofs.RateControl.Runs
import MediaSender.Proofs.RateControl.WindowFloor
import MediaSender.Proofs.RateControl.PacketOrder
import MediaSender.Proofs.RateControl.Measured
import MediaSender.Proofs.RateControl.TargetRate
import MediaSender.Proofs.Controller.RouteChange
import MediaSender.Proofs.Controller.Polling
import MediaSender.Proofs.Controller.Pacing
import MediaSender.Proofs.Controller.Limits
import MediaSender.Proofs.Epoch.Runs
import MediaSender.Proofs.Guarded.Runs
import MediaSender.Proofs.Guarded.Sessions
import MediaSender.Proofs.History.Lookup
import MediaSender.Proofs.RateControl.Reactions
import MediaSender.Proofs.Controller.Refusals
import MediaSender.Proofs.Controller.PaddingBudget
import MediaSender.Proofs.Controller.PacingWindow
import MediaSender.Proofs.Controller.PacingRates
import MediaSender.Proofs.Controller.Timer
import MediaSender.Proofs.RateControl.GrowthCeiling
import MediaSender.Proofs.History.Capacity
import MediaSender.Proofs.Guarded.Saturation
import MediaSender.Proofs.RateControl.LossBackoff
import MediaSender.Proofs.RateControl.BaseDelay
import MediaSender.Proofs.RateControl.Inflection
import MediaSender.Proofs.RateControl.AverageDelay
import MediaSender.Proofs.History.Retention
import MediaSender.Proofs.History.Storing
import MediaSender.Proofs.History.Acknowledgement
import MediaSender.Proofs.History.Refusals
import MediaSender.Proofs.History.LargePadding
import MediaSender.Proofs.Trials.Grammar
import MediaSender.Proofs.RateControl.Overrides
import MediaSender.Proofs.RateControl.ReportJson
import MediaSender.Proofs.History.Decapsulation
