import Mathlib.Logic.Function.Basic
import ObsBeacon.Lib.Amf0

/-! `RTMP_SendPacket`: a message is cut into chunks inside its own block of memory, each header
written over bytes that are already sent. -/
namespace ObsBeacon.Rtmp.Chunk
open Amf0

/-- The members of an `RTMPPacket`, its body apart. -/
structure Packet where
  headerType : ℕ := 0
  packetType : UInt8 := 0
  hasAbsTimestamp : Bool := false
  channel : ℕ := 0
  timeStamp : UInt32 := 0
  lastWireTimeStamp : UInt32 := 0
  infoField2 : UInt32 := 0
  bodySize : ℕ := 0
  bytesRead : ℕ := 0
  deriving DecidableEq, Repr

def rtmpMaxHeaderSize : ℕ := 18
def rtmpPacketSizeLarge : ℕ := 0
def rtmpPacketSizeMedium : ℕ := 1
def rtmpPacketSizeSmall : ℕ := 2
def rtmpPacketSizeMinimum : ℕ := 3

/-- `packetSize`, by header type. -/
def packetSize (headerType : ℕ) : ℕ := [12, 8, 4, 1].getD headerType 0

/-- A packet to be sent. Its body lies in a block with room for a header before it. -/
structure Message where
  packet : Packet
  block : List UInt8
  room : rtmpMaxHeaderSize + packet.bodySize ≤ block.length

def Message.body (m : Message) : List UInt8 :=
  (m.block.drop rtmpMaxHeaderSize).take m.packet.bodySize

/-- A packet with its body in a block of its own. -/
def Message.ofBody (p : Packet) (body : List UInt8) : Message where
  packet := { p with bodySize := body.length }
  block := List.replicate rtmpMaxHeaderSize 0 ++ body
  room := by rw [List.length_append, List.length_replicate]

@[simp] theorem Message.ofBody_body (p : Packet) (body : List UInt8) :
    (Message.ofBody p body).body = body := by
  rw [Message.body, Message.ofBody, List.drop_left' (List.length_replicate ..), List.take_length]

/-- The members of `RTMP` that `RTMP_SendPacket` uses. -/
structure Out where
  outChunkSize : ℕ
  vecChannelsOut : ℕ → Option Packet
  chunk_pos : 0 < outChunkSize

/-- The header type after the compression against the previous packet of the channel. -/
def compress (prev packet : Packet) : ℕ :=
  let headerType :=
    if prev.bodySize = packet.bodySize ∧ prev.packetType = packet.packetType ∧
        packet.headerType = rtmpPacketSizeMedium then rtmpPacketSizeSmall
    else packet.headerType
  if packet.timeStamp - prev.timeStamp = prev.lastWireTimeStamp ∧
      headerType = rtmpPacketSizeSmall then rtmpPacketSizeMinimum
  else headerType

/-- The packet with the header type and the wire timestamp it is sent with. -/
def planned (prev : Option Packet) (packet : Packet) : Packet :=
  match prev with
  | none => { packet with lastWireTimeStamp := packet.timeStamp }
  | some prev =>
    if packet.headerType = rtmpPacketSizeLarge then
      { packet with lastWireTimeStamp := packet.timeStamp }
    else
      { packet with
        headerType := compress prev packet
        lastWireTimeStamp := packet.timeStamp - prev.timeStamp }

/-- `cSize`: how many bytes of the channel follow the first byte. -/
def channelSize (channel : ℕ) : ℕ := if 319 < channel then 2 else if 63 < channel then 1 else 0

def firstByte (headerType channel : ℕ) : UInt8 :=
  let c := UInt8.ofNat headerType <<< 6
  if channelSize channel = 0 then c ||| UInt8.ofNat channel
  else if channelSize channel = 2 then c ||| 1
  else c

def channelBytes (channel : ℕ) : List UInt8 :=
  let tmp := channel - 64
  if channelSize channel = 0 then []
  else if channelSize channel = 2 then [UInt8.ofNat tmp, UInt8.ofNat (tmp / 256)]
  else [UInt8.ofNat tmp]

/-- `EncodeInt32LE`. -/
def encodeInt32LE (n : UInt32) : List UInt8 := (bigEndian 4 n.toNat).reverse

/-- The header of the first chunk, for a planned packet. -/
def firstHeader (p : Packet) : List UInt8 :=
  let nSize := packetSize p.headerType
  let t := p.lastWireTimeStamp.toNat
  firstByte p.headerType p.channel :: channelBytes p.channel ++
    (if 1 < nSize then bigEndian 3 (if 0xffffff < t then 0xffffff else t) else []) ++
    (if 4 < nSize then bigEndian 3 p.bodySize ++ [p.packetType] else []) ++
    (if 8 < nSize then encodeInt32LE p.infoField2 else []) ++
    (if 1 < nSize ∧ 0xffffff ≤ t then bigEndian 4 t else [])

/-- The header of every other chunk. -/
def nextHeader (p : Packet) : List UInt8 :=
  let t := p.lastWireTimeStamp.toNat
  (0xc0 ||| firstByte p.headerType p.channel) :: channelBytes p.channel ++
    (if 0xffffff ≤ t then bigEndian 4 t else [])

/-- `len` bytes of memory from an offset on. -/
def slice (mem : List UInt8) (offset len : ℕ) : List UInt8 := (mem.drop offset).take len

/-- The memory with some bytes stored at an offset. -/
def store (mem : List UInt8) (offset : ℕ) (bs : List UInt8) : List UInt8 :=
  mem.take offset ++ bs ++ mem.drop (offset + bs.length)

/-- The loop over the chunks: what it hands to `WriteN`. A chunk holds a byte at least, so the
fuel is the size of the body and one more. -/
def sendLoop (chunkSize : ℕ) (next : List UInt8) :
    ℕ → ℕ → ℕ → ℕ → ℕ → List UInt8 → List (List UInt8)
  | 0, _, _, _, _, _ => []
  | fuel + 1, header, hSize, buffer, nSize, mem =>
    if nSize + hSize = 0 then []
    else
      let n := min nSize chunkSize
      let wrote := slice mem header (n + hSize)
      if 0 < nSize - n then
        let header := buffer + n - next.length
        wrote :: sendLoop chunkSize next fuel header next.length (buffer + n) (nSize - n)
          (store mem header next)
      else wrote :: sendLoop chunkSize next fuel header 0 (buffer + n) (nSize - n) mem

/-- What `RTMP_SendPacket` writes, the state it leaves and its result. -/
structure Sending where
  out : Out
  writes : List (List UInt8)
  returned : Bool

def remember (r : Out) (p : Packet) : Out :=
  { r with vecChannelsOut := Function.update r.vecChannelsOut p.channel (some p) }

/-- `RTMP_SendPacket` over a plain socket that takes all it is given. -/
def sendPacket (r : Out) (m : Message) : Sending :=
  let p := planned (r.vecChannelsOut m.packet.channel) m.packet
  if rtmpPacketSizeMinimum < p.headerType then ⟨r, [], false⟩
  else
    let header := rtmpMaxHeaderSize - (firstHeader p).length
    let mem := store m.block header (firstHeader p)
    ⟨remember r p,
      sendLoop r.outChunkSize (nextHeader p) (p.bodySize + 1) header (firstHeader p).length
        rtmpMaxHeaderSize p.bodySize mem,
      true⟩

/-- The chunks of a body, the first with its own header and the others with the common one. -/
def chunks (chunkSize : ℕ) (next : List UInt8) : ℕ → List UInt8 → List UInt8 → List (List UInt8)
  | 0, _, _ => []
  | fuel + 1, header, body =>
    if body.length ≤ chunkSize then [header ++ body]
    else
      (header ++ body.take chunkSize) ::
        chunks chunkSize next fuel next (body.drop chunkSize)

variable {chunkSize : ℕ} {next : List UInt8}

theorem slice_append (a b c : List UInt8) : slice (a ++ b ++ c) a.length b.length = b := by
  rw [slice, List.append_assoc, List.drop_left, List.take_left]

/-- A store into the end of the first part leaves the second part alone. -/
theorem store_end {a bs : List UInt8} (b : List UInt8) (h : bs.length ≤ a.length) :
    store (a ++ b) (a.length - bs.length) bs = a.take (a.length - bs.length) ++ bs ++ b := by
  have hend : a.length - bs.length + bs.length = a.length := Nat.sub_add_cancel h
  rw [store, hend, List.drop_left, List.take_append_of_le_length (Nat.sub_le _ _)]

theorem sendLoop_done (fuel header buffer : ℕ) (mem : List UInt8) :
    sendLoop chunkSize next fuel header 0 buffer 0 mem = [] := by
  cases fuel <;> rfl

/-- A header is only ever written over bytes that are sent, so the loop writes the chunks of
the body it was given. -/
theorem sendLoop_eq_chunks (chunkSize : ℕ) {next : List UInt8} (hnext : next ≠ []) (fuel : ℕ)
    (pre header body post : List UInt8) (hheader : header ≠ [])
    (hroom : next.length ≤ pre.length + header.length) :
    sendLoop chunkSize next fuel pre.length header.length (pre.length + header.length) body.length
      (pre ++ header ++ (body ++ post)) = chunks chunkSize next fuel header body := by
  induction fuel generalizing pre header body with
  | zero => rfl
  | succ fuel ih =>
    have hpos := List.length_pos_iff.mpr hheader
    rw [sendLoop, chunks, if_neg (by omega)]
    by_cases hlast : body.length ≤ chunkSize
    · have hwrote : slice (pre ++ header ++ (body ++ post)) pre.length
          (body.length + header.length) = header ++ body := by
        have hslice := slice_append pre (header ++ body) post
        rw [List.length_append, Nat.add_comm] at hslice
        simpa only [List.append_assoc] using hslice
      simp only [Nat.min_eq_left hlast, Nat.sub_self, Nat.lt_irrefl, if_false, hlast, if_true,
        hwrote, sendLoop_done]
    · have hmore : 0 < body.length - chunkSize := by omega
      have hmin : min body.length chunkSize = chunkSize := by omega
      let sent := pre ++ header ++ body.take chunkSize
      have hsent : sent.length = pre.length + header.length + chunkSize := by
        simp only [sent, List.length_append, List.length_take]
        omega
      have hmem : pre ++ header ++ (body ++ post) = sent ++ (body.drop chunkSize ++ post) := by
        conv_lhs => rw [← List.take_append_drop chunkSize body]
        simp only [sent, List.append_assoc]
      have hwrote : slice (pre ++ header ++ (body ++ post)) pre.length
          (chunkSize + header.length) = header ++ body.take chunkSize := by
        have hslice := slice_append pre (header ++ body.take chunkSize)
          (body.drop chunkSize ++ post)
        have hlen : (header ++ body.take chunkSize).length = chunkSize + header.length := by
          rw [List.length_append, List.length_take]
          omega
        rw [hlen] at hslice
        rw [hmem]
        simpa only [sent, List.append_assoc] using hslice
      have hfits : next.length ≤ sent.length := by omega
      have hkept : (sent.take (sent.length - next.length)).length = sent.length - next.length := by
        rw [List.length_take]
        omega
      have hrest := ih (sent.take (sent.length - next.length)) next (body.drop chunkSize) hnext
        (by omega)
      rw [hkept, Nat.sub_add_cancel hfits, List.length_drop] at hrest
      simp only [hmin, hmore, if_true, hlast, if_false, hwrote]
      rw [hmem, ← hsent, store_end _ hfits, hrest]

theorem length_channelBytes (channel : ℕ) :
    (channelBytes channel).length = channelSize channel := by
  unfold channelBytes channelSize
  split_ifs <;> simp_all

theorem channelSize_le (channel : ℕ) : channelSize channel ≤ 2 := by
  unfold channelSize
  split_ifs <;> omega

theorem length_nextHeader (p : Packet) :
    (nextHeader p).length =
      1 + channelSize p.channel + (if 0xffffff ≤ p.lastWireTimeStamp.toNat then 4 else 0) := by
  simp only [nextHeader, List.length_append, List.length_cons, length_channelBytes]
  split_ifs
  · rw [length_bigEndian]
    omega
  · rw [List.length_nil]
    omega

theorem length_firstHeader (p : Packet) :
    (firstHeader p).length = 1 + channelSize p.channel +
      (if 1 < packetSize p.headerType then 3 else 0) +
      (if 4 < packetSize p.headerType then 4 else 0) +
      (if 8 < packetSize p.headerType then 4 else 0) +
      (if 1 < packetSize p.headerType ∧ 0xffffff ≤ p.lastWireTimeStamp.toNat then 4 else 0) := by
  simp only [firstHeader, encodeInt32LE, List.length_append, List.length_cons,
    length_channelBytes, apply_ite List.length, List.length_nil, List.length_reverse,
    length_bigEndian, Nat.reduceAdd]
  omega

theorem length_firstHeader_le (p : Packet) : (firstHeader p).length ≤ rtmpMaxHeaderSize := by
  have hchannel := channelSize_le p.channel
  rw [length_firstHeader, rtmpMaxHeaderSize]
  split_ifs <;> omega

theorem firstHeader_ne_nil (p : Packet) : firstHeader p ≠ [] := by
  simp [firstHeader]

theorem nextHeader_ne_nil (p : Packet) : nextHeader p ≠ [] := by
  simp [nextHeader]

theorem planned_bodySize (prev : Option Packet) (p : Packet) :
    (planned prev p).bodySize = p.bodySize := by
  cases prev with
  | none => rfl
  | some prev =>
    simp only [planned]
    split_ifs <;> rfl

theorem length_body (m : Message) : m.body.length = m.packet.bodySize := by
  have hroom := m.room
  rw [Message.body, List.length_take, List.length_drop]
  omega

/-- The block of a message: room for a header, the body, and what else the block holds. -/
theorem block_eq (m : Message) :
    m.block = m.block.take rtmpMaxHeaderSize ++
      (m.body ++ m.block.drop (rtmpMaxHeaderSize + m.packet.bodySize)) := by
  rw [Message.body, ← List.drop_drop, List.take_append_drop, List.take_append_drop]

@[simp] theorem remember_self (r : Out) (p : Packet) :
    (remember r p).vecChannelsOut p.channel = some p := Function.update_self _ _ _

theorem remember_of_ne (r : Out) {p : Packet} {c : ℕ} (hc : c ≠ p.channel) :
    (remember r p).vecChannelsOut c = r.vecChannelsOut c := Function.update_of_ne hc _ _

theorem sendPacket_out (r : Out) (m : Message)
    (htype : (planned (r.vecChannelsOut m.packet.channel) m.packet).headerType ≤ 3) :
    (sendPacket r m).out =
      remember r (planned (r.vecChannelsOut m.packet.channel) m.packet) := by
  simp only [sendPacket]
  rw [if_neg (by rw [rtmpPacketSizeMinimum]; omega)]

/-- What `RTMP_SendPacket` writes are the chunks of the body as the caller passed it. -/
theorem sendPacket_writes (r : Out) (m : Message)
    (htype : (planned (r.vecChannelsOut m.packet.channel) m.packet).headerType ≤ 3) :
    let p := planned (r.vecChannelsOut m.packet.channel) m.packet
    (sendPacket r m).writes =
      chunks r.outChunkSize (nextHeader p) (m.packet.bodySize + 1) (firstHeader p) m.body := by
  intro p
  have hfirst := length_firstHeader_le p
  have hnext : (nextHeader p).length ≤ rtmpMaxHeaderSize := by
    have hchannel := channelSize_le p.channel
    rw [length_nextHeader, rtmpMaxHeaderSize]
    split_ifs <;> omega
  have htake : (m.block.take rtmpMaxHeaderSize).length = rtmpMaxHeaderSize := by
    have hroom := m.room
    rw [List.length_take]
    omega
  have hpre : ((m.block.take rtmpMaxHeaderSize).take
      (rtmpMaxHeaderSize - (firstHeader p).length)).length =
        rtmpMaxHeaderSize - (firstHeader p).length := by
    rw [List.length_take, htake]
    omega
  have hmem : store m.block (rtmpMaxHeaderSize - (firstHeader p).length) (firstHeader p) =
      (m.block.take rtmpMaxHeaderSize).take (rtmpMaxHeaderSize - (firstHeader p).length) ++
        firstHeader p ++ (m.body ++ m.block.drop (rtmpMaxHeaderSize + m.packet.bodySize)) := by
    have hfits : (firstHeader p).length ≤ (m.block.take rtmpMaxHeaderSize).length := by omega
    have hstore := store_end (m.body ++ m.block.drop (rtmpMaxHeaderSize + m.packet.bodySize)) hfits
    rw [← block_eq, htake] at hstore
    exact hstore
  have hloop := sendLoop_eq_chunks r.outChunkSize (nextHeader_ne_nil p) (m.packet.bodySize + 1)
    ((m.block.take rtmpMaxHeaderSize).take (rtmpMaxHeaderSize - (firstHeader p).length))
    (firstHeader p) m.body (m.block.drop (rtmpMaxHeaderSize + m.packet.bodySize))
    (firstHeader_ne_nil p) (by omega)
  rw [hpre, Nat.sub_add_cancel hfirst, length_body] at hloop
  simp only [sendPacket]
  rw [if_neg (by rw [rtmpPacketSizeMinimum]; omega)]
  simp only [planned_bodySize]
  rw [hmem, hloop]

end ObsBeacon.Rtmp.Chunk
