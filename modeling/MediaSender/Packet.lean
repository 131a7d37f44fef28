import MediaSender.SequenceNumber
import MediaSender.Timestamp

/-! # Outgoing packets

A packet of a media stream with the sender's own notes on it.  `RtpPacket.toRtx` builds its
retransmission on a separate stream (RFC 4588): the payload starts with the sequence number of the
media packet, high byte first, and the payload of the media packet follows. -/

namespace MediaSender

/-- What an outgoing packet carries. -/
inductive MediaKind where
  | audio
  | video
  | retransmission
  | forwardErrorCorrection
  | padding
deriving DecidableEq, Repr

/-- Bytes of a fixed header without extensions. -/
def headerSize : Nat := 12

/-- Bytes of the sequence number that a retransmission's payload starts with. -/
def rtxHeaderSize : Nat := 2

/-- An outgoing packet. -/
structure RtpPacket where
  ssrc : UInt32 := 0
  sequenceNumber : SequenceNumber := 0
  timestamp : UInt32 := 0
  payloadType : UInt8 := 0
  marker : Bool := false
  payload : List UInt8 := []
  /-- Bytes of padding after the payload. -/
  paddingSize : Nat := 0
  captureTime : Timestamp := 0
  kind : Option MediaKind := none
  /-- Whether the packet may be stored for retransmission. -/
  allowRetransmission : Bool := false
  /-- The packet that this one resends. -/
  retransmittedSequenceNumber : Option SequenceNumber := none
  /-- The stream of the packet that this one resends. -/
  retransmittedSsrc : Option UInt32 := none
deriving DecidableEq

instance : Inhabited RtpPacket := ⟨{}⟩

/-- The two bytes of a sequence number, high byte first. -/
def SequenceNumber.bytes (s : SequenceNumber) : List UInt8 := [(s >>> 8).toUInt8, s.toUInt8]

namespace RtpPacket

/-- Bytes of payload. -/
def payloadSize (p : RtpPacket) : Nat := p.payload.length

/-- Bytes on the wire. -/
def size (p : RtpPacket) : Nat := headerSize + p.payloadSize + p.paddingSize

/-- The retransmission of `p` as packet `sequenceNumber` of the stream `ssrc`. -/
def toRtx (p : RtpPacket) (ssrc : UInt32) (payloadType : UInt8) (sequenceNumber : SequenceNumber) :
    RtpPacket where
  ssrc := ssrc
  sequenceNumber := sequenceNumber
  timestamp := p.timestamp
  payloadType := payloadType
  marker := p.marker
  payload := p.sequenceNumber.bytes ++ p.payload
  paddingSize := p.paddingSize
  captureTime := p.captureTime
  kind := some .retransmission
  allowRetransmission := false
  retransmittedSequenceNumber := some p.sequenceNumber
  retransmittedSsrc := some p.ssrc

theorem size_toRtx (p : RtpPacket) (ssrc : UInt32) (payloadType : UInt8) (s : SequenceNumber) :
    (p.toRtx ssrc payloadType s).size = p.size + rtxHeaderSize := by
  simp [size, payloadSize, SequenceNumber.bytes, toRtx, rtxHeaderSize]
  omega

end RtpPacket

/-- How a stored packet is dressed for sending again; `none` declines. -/
abbrev Encapsulation := RtpPacket → Option RtpPacket

end MediaSender
