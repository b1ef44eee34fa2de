import Mathlib.Data.Int.Notation
import ObsBeacon.Rtmp.Chunk

/-! `RTMP_ReadPacket`: one chunk off the socket, on top of what is known of its channel. -/
namespace ObsBeacon.Rtmp.Chunk
open Amf0

/-- A packet being read. A body is the block that `RTMPPacket_Alloc` returned for it. -/
structure InPacket extends Packet where
  body : Option (List UInt8) := none
  deriving DecidableEq, Repr

/-- The members of `RTMP` that `RTMP_ReadPacket` uses. -/
structure In where
  inChunkSize : ℤ
  vecChannelsIn : ℕ → Option InPacket
  channelTimestamp : ℕ → UInt32

/-- What comes of a call: it fails, it stores past the end of a block, or it returns the
packet with the rest of the input. -/
inductive Read where
  | failed
  | overflow
  | chunk (r : In) (packet : InPacket) (rest : List UInt8)

/-- The header type and the channel. -/
def readBasicHeader : List UInt8 → Option (ℕ × ℕ × List UInt8)
  | [] => none
  | b :: bs =>
    let headerType := ((b &&& 0xc0) >>> 6).toNat
    let channel := (b &&& 0x3f).toNat
    if channel = 0 then (split 1 bs).map fun r => (headerType, ofBigEndian r.1 + 64, r.2)
    else if channel = 1 then
      (split 2 bs).map fun r => (headerType, ofBigEndian r.1.reverse + 64, r.2)
    else some (headerType, channel, bs)

/-- The packet before the message header is read: the caller's own where the header is a full
one, else that of the last chunk on the channel, if there is one. -/
def recallPacket (r : In) (packet : InPacket) (headerType channel : ℕ) : InPacket :=
  let packet := { packet with headerType := headerType, channel := channel }
  if packetSize headerType = 12 then { packet with hasAbsTimestamp := true }
  else (r.vecChannelsIn channel).getD packet

/-- The fields a header of `nSize` bytes carries. -/
def withHeader (nSize : ℕ) (header : List UInt8) (packet : InPacket) : InPacket :=
  let packet := { packet with timeStamp := UInt32.ofNat (ofBigEndian (header.take 3)) }
  let packet :=
    if 6 ≤ nSize then
      { packet with bodySize := ofBigEndian ((header.drop 3).take 3), bytesRead := 0 }
    else packet
  let packet := if 6 < nSize then { packet with packetType := header.getD 6 0 } else packet
  if nSize = 11 then
    { packet with
      infoField2 := UInt32.ofNat (ofBigEndian ((header.drop 7).take 4).reverse) }
  else packet

/-- The message header and the extended timestamp, which only a header with a timestamp has. -/
def readMessageHeader (nSize : ℕ) (packet : InPacket) (bs : List UInt8) :
    Option (InPacket × Bool × List UInt8) :=
  (split nSize bs).bind fun (header, bs) =>
    if 3 ≤ nSize then
      let packet := withHeader nSize header packet
      if packet.timeStamp = 0xffffff then
        (split 4 bs).map fun (extended, bs) =>
          ({ packet with timeStamp := UInt32.ofNat (ofBigEndian extended) }, true, bs)
      else some (packet, false, bs)
    else some (packet, false, bs)

/-- `RTMPPacket_Alloc`, where the packet has a body to come and no block for it. -/
def allocate (headerType : ℕ) (packet : InPacket) : InPacket :=
  if 0 < packet.bodySize ∧ packet.body = none then
    { packet with
      body := some (List.replicate packet.bodySize 0)
      bytesRead := 0
      headerType := headerType }
  else packet

/-- `nChunk`: how much of the body the chunk holds. -/
def chunkLength (r : In) (packet : InPacket) : ℤ :=
  min (packet.bodySize - packet.bytesRead) r.inChunkSize

/-- `RTMPPacket_IsReady`. -/
def isReady (packet : InPacket) : Bool := packet.bytesRead = packet.bodySize

/-- The packet as it is kept for its channel. -/
def kept (packet : InPacket) (extended : Bool) : InPacket :=
  { packet with timeStamp := if extended then 0xffffff else packet.timeStamp }

/-- A kept packet once its body is handed out. -/
def InPacket.reset (packet : InPacket) : InPacket :=
  { packet with body := none, bytesRead := 0, hasAbsTimestamp := false }

/-- The packet with an absolute timestamp. -/
def absolute (r : In) (packet : InPacket) : InPacket :=
  { packet with
    timeStamp :=
      if packet.hasAbsTimestamp then packet.timeStamp
      else packet.timeStamp + r.channelTimestamp packet.channel }

/-- The end of the call: the packet is kept for its channel, and a whole one is handed out. -/
def finish (r : In) (packet : InPacket) (extended : Bool) : In × InPacket :=
  if isReady packet then
    ({ r with
        vecChannelsIn :=
          Function.update r.vecChannelsIn packet.channel (some (kept packet extended).reset)
        channelTimestamp :=
          Function.update r.channelTimestamp packet.channel (absolute r packet).timeStamp },
      absolute r packet)
  else
    ({ r with
        vecChannelsIn :=
          Function.update r.vecChannelsIn packet.channel (some (kept packet extended)) },
      { packet with body := none })

/-- A packet with more of its body to come is kept as it is. -/
theorem finish_unready {packet : InPacket} (h : isReady packet = false) (r : In) :
    finish r packet false =
      ({ r with vecChannelsIn := Function.update r.vecChannelsIn packet.channel (some packet) },
        { packet with body := none }) := by
  have hkept : kept packet false = packet := rfl
  rw [finish, h, hkept]
  rfl

/-- The part of the body that is in the chunk, read to where the body is filled so far. -/
def readBody (r : In) (headerType : ℕ) (packet : InPacket) (extended : Bool)
    (bs : List UInt8) : Read :=
  let packet := allocate headerType packet
  let nChunk := chunkLength r packet
  if nChunk < 0 then .failed
  else if (packet.body.getD []).length < packet.bytesRead + min nChunk.toNat bs.length then
    .overflow
  else
    match split nChunk.toNat bs with
    | none => .failed
    | some (data, rest) =>
      let packet :=
        { packet with
          body := packet.body.map fun block => store block packet.bytesRead data
          bytesRead := packet.bytesRead + nChunk.toNat }
      let done := finish r packet extended
      .chunk done.1 done.2 rest

/-- `RTMP_ReadPacket`, with memory to be had for every packet. -/
def readPacket (r : In) (packet : InPacket) (bs : List UInt8) : Read :=
  match readBasicHeader bs with
  | none => .failed
  | some (headerType, channel, bs) =>
    match readMessageHeader (packetSize headerType - 1) (recallPacket r packet headerType channel) bs with
    | none => .failed
    | some (packet, extended, bs) => readBody r headerType packet extended bs

end ObsBeacon.Rtmp.Chunk
