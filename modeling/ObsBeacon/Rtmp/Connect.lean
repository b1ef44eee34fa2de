import Mathlib.Data.Int.Notation
import ObsBeacon.Lib.Decimal
import ObsBeacon.Rtmp.Amf

/-! The connect command of librtmp, and the extras the Beacon output hands to it. -/
namespace ObsBeacon.Rtmp
open Amf0 BoundedWriter Decimal

/-- The members of `RTMP_LNK` that `SendConnectPacket` reads. `write` and `authFlag` are the
tests of a protocol and of a flag bit; `customConnectEncode`, which nothing sets, is left out. -/
structure Link where
  write : Bool
  app : List UInt8
  swfUrl : List UInt8
  tcUrl : List UInt8
  flashVer : List UInt8
  pageUrl : List UInt8
  auth : List UInt8
  authFlag : Bool
  extras : AmfProps

/-- The other members it reads; doubles are their bits. -/
structure RTMP where
  link : Link
  sendChunkSizeInfo : Bool
  outChunkSize : ℕ
  numInvokes : ℤ
  encoding : UInt64
  sendEncoding : Bool
  audioCodecs : UInt64
  videoCodecs : UInt64

/-- The bits of an `int` converted to a double. -/
def doubleBits (n : ℤ) : UInt64 :=
  if n = 0 then 0
  else
    let exponent := n.natAbs.log2
    let sign := if n < 0 then 2 ^ 63 else 0
    UInt64.ofNat (sign + (1023 + exponent) * 2 ^ 52 +
      (n.natAbs - 2 ^ exponent) * 2 ^ 52 / 2 ^ exponent)

/-- `d != 0.0`, true for neither zero. -/
def doubleNonzero (bits : UInt64) : Bool := bits &&& 0x7fffffffffffffff ≠ 0

/-- The room for the body in `pbuf`, after `RTMP_MAX_HEADER_SIZE` bytes. -/
def pend : ℕ := 4096 - 18

/-- An unchecked store. -/
def putByte (b : UInt8) : Writer := fun output => some (output ++ [b])

/-- The writers of `SendConnectPacket` up to the last member of the command object. -/
def connectFields (r : RTMP) : List Writer :=
  [amfEncodeString pend (ascii "connect"),
    amfEncodeNumber pend (doubleBits (r.numInvokes + 1)),
    putByte 0x03,
    amfEncodeNamedString pend (ascii "app") r.link.app,
    onlyIf r.link.write (amfEncodeNamedString pend (ascii "type") (ascii "nonprivate")),
    onlyIf (r.link.flashVer.length ≠ 0)
      (amfEncodeNamedString pend (ascii "flashVer") r.link.flashVer),
    onlyIf (r.link.swfUrl.length ≠ 0) (amfEncodeNamedString pend (ascii "swfUrl") r.link.swfUrl),
    onlyIf (r.link.tcUrl.length ≠ 0) (amfEncodeNamedString pend (ascii "tcUrl") r.link.tcUrl),
    onlyIf (!r.link.write)
      (runAll
        [amfEncodeNamedBoolean pend (ascii "fpad") false,
          amfEncodeNamedNumber pend (ascii "capabilities") (doubleBits 15),
          amfEncodeNamedNumber pend (ascii "audioCodecs") r.audioCodecs,
          amfEncodeNamedNumber pend (ascii "videoCodecs") r.videoCodecs,
          amfEncodeNamedNumber pend (ascii "videoFunction") (doubleBits 1),
          onlyIf (r.link.pageUrl.length ≠ 0)
            (amfEncodeNamedString pend (ascii "pageUrl") r.link.pageUrl)]),
    onlyIf (doubleNonzero r.encoding || r.sendEncoding)
      (amfEncodeNamedNumber pend (ascii "objectEncoding") r.encoding)]

/-- The name, the transaction number and the whole command object. -/
def connectCommand (r : RTMP) : Writer := fun output =>
  (runAll (connectFields r) output).bind (endMarker pend)

def connectAuth (r : RTMP) : Writer :=
  onlyIf (r.link.auth.length ≠ 0)
    (runAll [amfEncodeBoolean pend r.link.authFlag, amfEncodeString pend r.link.auth])

/-- The loop over `Link.extras`, which gives up at the first property that fails. -/
def connectExtras : AmfProps → Writer
  | .nil, output => some output
  | .cons name value rest, output =>
    (amfPropEncode pend name value output).bind (connectExtras rest)

def connectBody (r : RTMP) : Option (List UInt8) :=
  runAll [connectCommand r, connectAuth r, connectExtras r.link.extras] []

structure RTMPPacket where
  channel : ℕ
  packetType : ℕ
  body : List UInt8
  deriving DecidableEq, Repr

def rtmpPacketTypeChunkSize : ℕ := 0x01
def rtmpPacketTypeInvoke : ℕ := 0x14

/-- The packets handed to `RTMP_SendPacket`, and the result of the call. -/
structure Sent where
  packets : List RTMPPacket
  returned : Bool
  deriving DecidableEq, Repr

def chunkSizePacket (r : RTMP) : RTMPPacket :=
  ⟨0x02, rtmpPacketTypeChunkSize, (amfEncodeInt32 pend r.outChunkSize []).getD []⟩

/-- The packet that announces the chunk size, where it is due. -/
def announcement (r : RTMP) : List RTMPPacket :=
  if r.link.write && r.sendChunkSizeInfo then [chunkSizePacket r] else []

/-- `SendConnectPacket`; `send` tells which packets `RTMP_SendPacket` gets out. -/
def sendConnectPacket (send : RTMPPacket → Bool) (r : RTMP) (cp : Option RTMPPacket) : Sent :=
  match cp with
  | some packet => ⟨[packet], send packet⟩
  | none =>
    if (announcement r).all send then
      match connectBody r with
      | none => ⟨announcement r, false⟩
      | some body =>
        let packet := ⟨0x03, rtmpPacketTypeInvoke, body⟩
        ⟨announcement r ++ [packet], send packet⟩
    else ⟨announcement r, false⟩

/-- `beacon_user_props`, with the session id as it stands in the stream. -/
def beaconUserProps (sessionId : List UInt8) : AmfProps :=
  .cons (ascii "app") (.string (ascii "obs-beacon"))
    (.cons (ascii "streamSessionId") (.string sessionId) .nil)

/-- `Link.extras` as `try_connect` sets it: one anonymous object around the user properties. -/
def beaconExtras (sessionId : List UInt8) : AmfProps :=
  .cons [] (.object (beaconUserProps sessionId)) .nil

end ObsBeacon.Rtmp
