import MediaSender.Transport.Error
import MediaSender.Transport.Message
import MediaSender.Transport.Update

/-! # Network controllers

A network controller answers each kind of message with an update.  An answer is an error if the
message breaks a rule of the controller. -/

namespace MediaSender

/-- The answers of a controller with states `σ` to the messages. -/
class Controller (σ : Type) where
  onAvailability : σ → Availability → Except ControlError (σ × ControlUpdate)
  onRouteChange : σ → RouteChange → Except ControlError (σ × ControlUpdate)
  onProcessInterval : σ → ProcessInterval → Except ControlError (σ × ControlUpdate)
  onRemoteBitrate : σ → RemoteBitrate → Except ControlError (σ × ControlUpdate)
  onRoundTrip : σ → RoundTripUpdate → Except ControlError (σ × ControlUpdate)
  onSentPacket : σ → SentPacket → Except ControlError (σ × ControlUpdate)
  onReceivedPacket : σ → ReceivedPacket → Except ControlError (σ × ControlUpdate)
  onStreams : σ → StreamSettings → Except ControlError (σ × ControlUpdate)
  onConstraints : σ → RateConstraints → Except ControlError (σ × ControlUpdate)
  onLossReport : σ → LossReport → Except ControlError (σ × ControlUpdate)
  onFeedback : σ → Feedback → Except ControlError (σ × ControlUpdate)
  onLinkEstimate : σ → LinkEstimate → Except ControlError (σ × ControlUpdate)
  /-- Whether the controller reacts to congestion marks. -/
  supportsMarking : σ → Bool := fun _ => false
  /-- The time between two `onProcessInterval`. -/
  processInterval : σ → TimeDelta := fun _ => TimeDelta.ofMillis 25

/-- Hand a message to a controller. -/
def NetworkMessage.deliver {σ : Type} [Controller σ] (c : σ) :
    NetworkMessage → Except ControlError (σ × ControlUpdate)
  | .availability m => Controller.onAvailability c m
  | .routeChange m => Controller.onRouteChange c m
  | .processInterval m => Controller.onProcessInterval c m
  | .remoteBitrate m => Controller.onRemoteBitrate c m
  | .roundTrip m => Controller.onRoundTrip c m
  | .sentPacket m => Controller.onSentPacket c m
  | .receivedPacket m => Controller.onReceivedPacket c m
  | .streams m => Controller.onStreams c m
  | .constraints m => Controller.onConstraints c m
  | .lossReport m => Controller.onLossReport c m
  | .feedback m => Controller.onFeedback c m
  | .linkEstimate m => Controller.onLinkEstimate c m

end MediaSender
