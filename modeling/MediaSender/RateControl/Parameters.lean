import MediaSender.Trials.Basic
import MediaSender.Trials.Value

/-! # Parameters of the rate control

* **Tunables.** Each setting is a `Tunable`: it has a key in trial texts, a field name in JSON,
  and a kind of value.
* **Records.** `Parameters` holds one value for each tunable; `get` and `put` are the access by
  tunable, and a `put` is seen by the `get` of the same tunable alone (`get_put_self`,
  `get_put_of_ne`).
* **Trials.** `Parameters.ofTrials` reads the entries of the group one after the other and leaves
  out those it cannot read. -/

namespace MediaSender

/-- A setting of the rate control. -/
inductive Tunable where
  /-- Lower bound on the reference window. -/
  | minRefWindow
  /-- Gain of the average share of marked packets. -/
  | markGain
  /-- Largest packet that is sent. -/
  | maxSegmentSize
  /-- Room over the data in flight that the reference window may grow into. -/
  | inFlightHeadRoom
  /-- Factor on the reference window after a loss. -/
  | lossFactor
  /-- Round trips of cautious growth after a reaction to congestion. -/
  | postCongestionRtts
  /-- Share of the reference window that it may grow by in a round trip. -/
  | growthShare
  /-- Flows with a shorter round trip are treated as if they had this one. -/
  | virtualRtt
  /-- Steepness of the slow zone around the inflection point. -/
  | inflectionScale
  /-- Round trips without reaction after which a mark resets the window. -/
  | resetRtts
  /-- Share of the reference window from which on data in flight lowers the rate. -/
  | inFlightLimit
  /-- Largest divisor of the rate for data in flight. -/
  | maxInFlightCompensation
  /-- Gain of the average queue delay. -/
  | queueDelayGain
  /-- Epochs over which the base delay is the minimum. -/
  | baseDelayEpochs
  /-- Length of such an epoch. -/
  | baseDelayEpochLength
  /-- The queue delay aimed at. -/
  | queueDelayTarget
  /-- Share of the target from which on queue delay counts as detected. -/
  | detectionThreshold
  /-- Share of the target from which on the reference window is reduced. -/
  | reductionThreshold
  /-- Whether every packet enters the average queue delay. -/
  | useAllPackets
  /-- Time from one start of periodic padding to the next. -/
  | paddingInterval
  /-- How long periodic padding lasts. -/
  | paddingDuration
deriving DecidableEq, Repr

namespace Tunable

/-- Every tunable, in the order of declaration. -/
def all : List Tunable :=
  [.minRefWindow, .markGain, .maxSegmentSize, .inFlightHeadRoom, .lossFactor, .postCongestionRtts,
    .growthShare, .virtualRtt, .inflectionScale, .resetRtts, .inFlightLimit,
    .maxInFlightCompensation, .queueDelayGain, .baseDelayEpochs, .baseDelayEpochLength,
    .queueDelayTarget, .detectionThreshold, .reductionThreshold, .useAllPackets,
    .paddingInterval, .paddingDuration]

/-- The kind of a tunable's values. -/
abbrev kind : Tunable → ValueKind
  | .minRefWindow | .maxSegmentSize => .size
  | .markGain | .inFlightHeadRoom | .lossFactor | .growthShare | .inflectionScale
  | .inFlightLimit | .maxInFlightCompensation | .queueDelayGain | .detectionThreshold
  | .reductionThreshold => .float
  | .postCongestionRtts | .resetRtts | .baseDelayEpochs => .integer
  | .virtualRtt | .baseDelayEpochLength | .queueDelayTarget | .paddingInterval
  | .paddingDuration => .time
  | .useAllPackets => .flag

/-- The key of a tunable in a trial text. -/
def key : Tunable → String
  | .minRefWindow => "MinRefWindow"
  | .markGain => "L4sAvgG"
  | .maxSegmentSize => "MaxSegmentSize"
  | .inFlightHeadRoom => "BytesInFlightHeadRoom"
  | .lossFactor => "BetaLoss"
  | .postCongestionRtts => "PostCongestionDelayRtts"
  | .growthShare => "MultiplicativeIncreaseFactor"
  | .virtualRtt => "VirtualRtt"
  | .inflectionScale => "BackoffScaleFactorCloseToRefWindowI"
  | .resetRtts => "NumberOfRttsBetweenResetRefWindowIOnCongestion"
  | .inFlightLimit => "DataInFlightLimit"
  | .maxInFlightCompensation => "MaxDataInFlightLimitCompensation"
  | .queueDelayGain => "QDelayAvgG"
  | .baseDelayEpochs => "BaseDelayWindowLength"
  | .baseDelayEpochLength => "BaseDelayHistoryUpdateInterval"
  | .queueDelayTarget => "QDelayTarget"
  | .detectionThreshold => "QDelayIncreasedThreshold"
  | .reductionThreshold => "QDelayThreshold"
  | .useAllPackets => "UseAllPacketsWhenCalculatingQDelay"
  | .paddingInterval => "PeriodicPadding"
  | .paddingDuration => "PaddingDuration"

/-- The name of a tunable in a JSON record. -/
def field : Tunable → String
  | .minRefWindow => "min_ref_window"
  | .markGain => "l4s_avg_g"
  | .maxSegmentSize => "max_segment_size"
  | .inFlightHeadRoom => "bytes_in_flight_head_room"
  | .lossFactor => "beta_loss"
  | .postCongestionRtts => "post_congestion_delay_rtts"
  | .growthShare => "multiplicative_increase_factor"
  | .virtualRtt => "virtual_rtt"
  | .inflectionScale => "backoff_scale_factor_close_to_ref_window_i"
  | .resetRtts => "number_of_rtts_between_reset_ref_window_i_on_congestion"
  | .inFlightLimit => "data_in_flight_limit"
  | .maxInFlightCompensation => "max_data_in_flight_limit_compensation"
  | .queueDelayGain => "queue_delay_avg_g"
  | .baseDelayEpochs => "base_delay_window_length"
  | .baseDelayEpochLength => "base_delay_history_update_interval"
  | .queueDelayTarget => "queue_delay_target"
  | .detectionThreshold => "queue_delay_increased_threshold"
  | .reductionThreshold => "queue_delay_threshold"
  | .useAllPackets => "use_all_packets_when_calculating_queue_delay"
  | .paddingInterval => "periodic_padding_interval"
  | .paddingDuration => "periodic_padding_duration"

/-- The tunable with this key. -/
def ofKey? (key : String) : Option Tunable := all.find? (·.key == key)

/-- The tunable with this field name. -/
def ofField? (field : String) : Option Tunable := all.find? (·.field == field)

@[simp] theorem ofKey?_key (t : Tunable) : ofKey? t.key = some t := by cases t <;> decide

@[simp] theorem ofField?_field (t : Tunable) : ofField? t.field = some t := by cases t <;> decide

end Tunable

/-- The settings of the rate control. -/
structure Parameters where
  minRefWindow : DataSize := .ofInt 3000
  markGain : Float := 1.0 / 16.0
  maxSegmentSize : DataSize := .ofInt 1000
  inFlightHeadRoom : Float := 1.1
  lossFactor : Float := 0.7
  postCongestionRtts : Int := 100
  growthShare : Float := 0.02
  virtualRtt : TimeDelta := TimeDelta.ofMillis 25
  inflectionScale : Float := 2.0
  resetRtts : Int := 100
  inFlightLimit : Float := 0.9
  maxInFlightCompensation : Float := 1.5
  queueDelayGain : Float := 1.0 / 4.0
  baseDelayEpochs : Int := 10
  baseDelayEpochLength : TimeDelta := TimeDelta.ofMinutes 1
  queueDelayTarget : TimeDelta := TimeDelta.ofMillis 100
  detectionThreshold : Float := 0.25
  reductionThreshold : Float := 0.5
  useAllPackets : Bool := true
  paddingInterval : TimeDelta := TimeDelta.ofSeconds 10
  paddingDuration : TimeDelta := TimeDelta.ofSeconds 1

namespace Parameters

instance : Inhabited Parameters := ⟨{}⟩

/-- The trial group that overrides parameters. -/
def trialGroup : String := "WebRTC-Bwe-ScreamV2"

/-- The value of a tunable. -/
def get (p : Parameters) : (t : Tunable) → t.kind.Value
  | .minRefWindow => p.minRefWindow
  | .markGain => p.markGain
  | .maxSegmentSize => p.maxSegmentSize
  | .inFlightHeadRoom => p.inFlightHeadRoom
  | .lossFactor => p.lossFactor
  | .postCongestionRtts => p.postCongestionRtts
  | .growthShare => p.growthShare
  | .virtualRtt => p.virtualRtt
  | .inflectionScale => p.inflectionScale
  | .resetRtts => p.resetRtts
  | .inFlightLimit => p.inFlightLimit
  | .maxInFlightCompensation => p.maxInFlightCompensation
  | .queueDelayGain => p.queueDelayGain
  | .baseDelayEpochs => p.baseDelayEpochs
  | .baseDelayEpochLength => p.baseDelayEpochLength
  | .queueDelayTarget => p.queueDelayTarget
  | .detectionThreshold => p.detectionThreshold
  | .reductionThreshold => p.reductionThreshold
  | .useAllPackets => p.useAllPackets
  | .paddingInterval => p.paddingInterval
  | .paddingDuration => p.paddingDuration

/-- The parameters with another value for one tunable. -/
def put (p : Parameters) : (t : Tunable) → t.kind.Value → Parameters
  | .minRefWindow, v => { p with minRefWindow := v }
  | .markGain, v => { p with markGain := v }
  | .maxSegmentSize, v => { p with maxSegmentSize := v }
  | .inFlightHeadRoom, v => { p with inFlightHeadRoom := v }
  | .lossFactor, v => { p with lossFactor := v }
  | .postCongestionRtts, v => { p with postCongestionRtts := v }
  | .growthShare, v => { p with growthShare := v }
  | .virtualRtt, v => { p with virtualRtt := v }
  | .inflectionScale, v => { p with inflectionScale := v }
  | .resetRtts, v => { p with resetRtts := v }
  | .inFlightLimit, v => { p with inFlightLimit := v }
  | .maxInFlightCompensation, v => { p with maxInFlightCompensation := v }
  | .queueDelayGain, v => { p with queueDelayGain := v }
  | .baseDelayEpochs, v => { p with baseDelayEpochs := v }
  | .baseDelayEpochLength, v => { p with baseDelayEpochLength := v }
  | .queueDelayTarget, v => { p with queueDelayTarget := v }
  | .detectionThreshold, v => { p with detectionThreshold := v }
  | .reductionThreshold, v => { p with reductionThreshold := v }
  | .useAllPackets, v => { p with useAllPackets := v }
  | .paddingInterval, v => { p with paddingInterval := v }
  | .paddingDuration, v => { p with paddingDuration := v }

@[simp] theorem get_put_self (p : Parameters) (t : Tunable) (v : t.kind.Value) :
    (p.put t v).get t = v := by cases t <;> rfl

theorem get_put_of_ne (p : Parameters) {t u : Tunable} (v : t.kind.Value) (h : u ≠ t) :
    (p.put t v).get u = p.get u := by
  cases t <;> cases u <;> first | exact absurd rfl h | rfl

/-- Two records that agree in every tunable are equal. -/
theorem ext_get {p q : Parameters} (h : ∀ t, p.get t = q.get t) : p = q := by
  cases p
  cases q
  rw [Parameters.mk.injEq]
  exact ⟨h .minRefWindow, h .markGain, h .maxSegmentSize, h .inFlightHeadRoom, h .lossFactor,
    h .postCongestionRtts, h .growthShare, h .virtualRtt, h .inflectionScale, h .resetRtts,
    h .inFlightLimit, h .maxInFlightCompensation, h .queueDelayGain, h .baseDelayEpochs,
    h .baseDelayEpochLength, h .queueDelayTarget, h .detectionThreshold, h .reductionThreshold,
    h .useAllPackets, h .paddingInterval, h .paddingDuration⟩

/-- Override the parameter with this key by the value that a text denotes. -/
def set (p : Parameters) (key value : String) : Except TrialError Parameters :=
  match Tunable.ofKey? key with
  | none => .error (.unknownParameter key)
  | some t =>
    match t.kind.parse? value with
    | none => .error (.invalidValue key value)
    | some v => .ok (p.put t v)

/-- Follow one entry of a trial group; an entry that cannot be read changes nothing. -/
def follow (p : Parameters) (entry : Except TrialError (String × String)) : Parameters :=
  match entry with
  | .error _ => p
  | .ok (key, value) => (p.set key value).toOption.getD p

/-- The defaults with the overrides of a group's value. -/
def ofGroup (group : String) : Parameters := (Trials.parameters group).foldl follow {}

/-- The parameters under the given trials. -/
def ofTrials (t : Trials) : Parameters := ofGroup (t.lookup trialGroup)

end Parameters

end MediaSender
