import Mathlib.Data.Int.Notation
import Mathlib.Data.Nat.Notation

/-! The libobs data the plugin reads: outputs, encoded packets and their timing. -/
namespace ObsBeacon

/-- `enum obs_encoder_type`. -/
inductive EncoderType where
  | audio | video
  deriving DecidableEq, Repr

/-- `struct encoder_packet`. A null data pointer is `none`; any other points to `size` bytes. -/
structure EncoderPacket where
  data : Option (List UInt8)
  size : ℕ
  type : EncoderType
  keyframe : Bool
  pts : ℤ
  dts : ℤ
  timebaseNum : ℤ
  timebaseDen : ℤ
  dtsUsec : ℤ
  sysDtsUsec : ℤ
  priority : ℤ
  dropPriority : ℤ
  trackIdx : ℕ
  data_size : ∀ d ∈ data, d.length = size

/-- A video packet over `d`, with every other field 0. -/
def EncoderPacket.video (d : List UInt8) (keyframe : Bool) : EncoderPacket where
  data := some d
  size := d.length
  type := .video
  keyframe := keyframe
  pts := 0
  dts := 0
  timebaseNum := 0
  timebaseDen := 0
  dtsUsec := 0
  sysDtsUsec := 0
  priority := 0
  dropPriority := 0
  trackIdx := 0
  data_size := by simp

/-- The packet pointed at another block of bytes. -/
def EncoderPacket.setData (pkt : EncoderPacket) (d : List UInt8) : EncoderPacket :=
  { pkt with
    data := some d
    size := d.length
    data_size := by simp }

/-- `struct encoder_packet_time`: monotonic stamps in nanoseconds, 0 when unset. -/
structure EncoderPacketTime where
  cts : UInt64
  fer : UInt64
  ferc : UInt64
  pir : UInt64
  deriving DecidableEq, Repr

/-- The two clocks read while a packet is handled: `os_gettime_ns` and the system clock. -/
structure Clock where
  monoNow : UInt64
  wallNow : UInt64
  deriving DecidableEq, Repr

/-- The address of an output, which is also the identity of its signal handler. -/
abbrev Handle := ℕ

/-- An `obs_output_t` as the plugin sees it. `videoEncoders` holds, for each video track,
the codec of its encoder, or `none` where the track has no encoder. -/
structure Output where
  handle : Handle
  id : String
  videoEncoders : List (Option String)
  deriving DecidableEq, Repr

/-- The server URL an `obs_service_t` reports, `none` for a null pointer. -/
structure Service where
  serverUrl : Option String
  deriving DecidableEq, Repr

/-- The codec of `obs_output_get_video_encoder`, the encoder of the first video track. -/
def Output.videoCodec (o : Output) : Option String := o.videoEncoders[0]?.join

end ObsBeacon
