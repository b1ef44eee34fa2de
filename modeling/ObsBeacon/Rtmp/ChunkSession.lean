import ObsBeacon.Lib.Transport
import ObsBeacon.Rtmp.ReadPacket

/-! Sessions over the chunk stream: what one end sends, the other end reads. -/
namespace ObsBeacon.Rtmp.Chunk
open Amf0 Transport

/-- What the receiver makes of a packet. -/
structure Delivered where
  channel : ℕ
  packetType : UInt8
  timeStamp : UInt32
  infoField2 : UInt32
  body : List UInt8
  deriving DecidableEq, Repr

def Message.delivered (m : Message) : Delivered :=
  ⟨m.packet.channel, m.packet.packetType, m.packet.timeStamp, m.packet.infoField2, m.body⟩

def InPacket.delivered (packet : InPacket) : Delivered :=
  ⟨packet.channel, packet.packetType, packet.timeStamp, packet.infoField2,
    (packet.body.getD []).take packet.bodySize⟩

def rtmpPacketTypeChunkSize : UInt8 := 0x01

/-- The chunk size a message announces, an `int`. -/
def announcement (packetType : UInt8) (body : List UInt8) : Option ℤ :=
  if packetType = rtmpPacketTypeChunkSize ∧ 4 ≤ body.length then
    some (Int.bmod (ofBigEndian (body.take 4)) (2 ^ 32))
  else none

/-- `HandleChangeChunkSize`, for a packet of any type. -/
def handleChangeChunkSize (r : In) (d : Delivered) : In :=
  { r with inChunkSize := (announcement d.packetType d.body).getD r.inChunkSize }

/-- A receiver between two calls of `RTMP_ReadPacket`: `packet` is the caller's variable. -/
structure Peer where
  r : In
  packet : InPacket

/-- What becomes of a chunk that was read: a packet it completes is handled and its body freed. -/
def handled (r : In) (packet : InPacket) : Peer × Option Delivered :=
  if isReady packet then
    (⟨handleChangeChunkSize r packet.delivered, { packet with body := none }⟩,
      some packet.delivered)
  else (⟨r, packet⟩, none)

/-- A pass of the loop in `RTMP_ConnectStream` and `RTMP_GetNextMediaPacket`. -/
def receive : Receiver Peer Delivered UInt8 := fun peer bs =>
  match readPacket peer.r peer.packet bs with
  | .failed => none
  | .overflow => none
  | .chunk r packet rest => some ((handled r packet).1, (handled r packet).2, rest)

/-- A sender, and the chunk size its peer goes by. -/
structure Link where
  out : Out
  announced : ℤ

def Link.send (l : Link) (m : Message) : Link × List UInt8 :=
  let sending := sendPacket l.out m
  (⟨sending.out, (announcement m.packet.packetType m.body).getD l.announced⟩,
    sending.writes.flatten)

/-- The packet as it goes out on the link. -/
def Link.planned (l : Link) (m : Message) : Packet :=
  Chunk.planned (l.out.vecChannelsOut m.packet.channel) m.packet

/-- A header that leaves fields out leaves them to the last packet of the channel. -/
def LeftOut (prev p : Packet) : Prop :=
  (p.headerType ≠ rtmpPacketSizeLarge → p.infoField2 = prev.infoField2) ∧
    (rtmpPacketSizeMedium < p.headerType →
      p.bodySize = prev.bodySize ∧ p.packetType = prev.packetType) ∧
    (p.headerType = rtmpPacketSizeMinimum →
      p.timeStamp - prev.timeStamp = prev.lastWireTimeStamp)

/-- What a message must be like to get through: its fields fit the header, the first one on a
channel has a full header, both ends cut its body alike, and a wire timestamp that needs the
extended field is neither left out nor repeated in further chunks. -/
structure Transportable (l : Link) (m : Message) : Prop where
  channel : 2 ≤ m.packet.channel ∧ m.packet.channel < 65600
  size : m.packet.bodySize < 2 ^ 24
  headerType : m.packet.headerType ≤ rtmpPacketSizeMinimum
  fresh : l.out.vecChannelsOut m.packet.channel = none →
    m.packet.headerType = rtmpPacketSizeLarge
  leftOut : ∀ prev, l.out.vecChannelsOut m.packet.channel = some prev → LeftOut prev m.packet
  alike : l.announced = l.out.outChunkSize ∨
    (m.packet.bodySize ≤ l.out.outChunkSize ∧ m.packet.bodySize ≤ l.announced)
  stamp : (l.planned m).lastWireTimeStamp < 0xffffff ∨
    (m.packet.bodySize ≤ l.out.outChunkSize ∧
      ((l.planned m).headerType ≠ rtmpPacketSizeMinimum ∨
        (l.planned m).lastWireTimeStamp = 0xffffff))

/-- The timestamp field of a header. -/
def wireStamp (n : UInt32) : UInt32 := if 0xffffff < n then 0xffffff else n

/-- A packet kept for a channel, as the sender remembers it. -/
structure Kept (p : Packet) (q : InPacket) : Prop where
  channel : q.channel = p.channel
  packetType : q.packetType = p.packetType
  infoField2 : q.infoField2 = p.infoField2
  bodySize : q.bodySize = p.bodySize
  timeStamp : q.timeStamp = wireStamp p.lastWireTimeStamp
  fresh : q.body = none ∧ q.bytesRead = 0 ∧ q.hasAbsTimestamp = false

/-- Both ends know the same of every channel that is in use. -/
structure Agrees (l : Link) (peer : Peer) : Prop where
  chunkSize : peer.r.inChunkSize = l.announced
  packet : peer.packet.body = none
  channels : ∀ c p, l.out.vecChannelsOut c = some p → p.channel = c ∧
    (∃ q, peer.r.vecChannelsIn c = some q ∧ Kept p q) ∧ peer.r.channelTimestamp c = p.timeStamp

/-- A packet filled up to byte `k` of the body. -/
structure Filling (p : Packet) (body : List UInt8) (k : ℕ) (q : InPacket) : Prop where
  channel : q.channel = p.channel
  packetType : q.packetType = p.packetType
  infoField2 : q.infoField2 = p.infoField2
  bodySize : q.bodySize = p.bodySize
  timeStamp : q.timeStamp = p.lastWireTimeStamp
  abs : q.hasAbsTimestamp = decide (p.headerType = rtmpPacketSizeLarge)
  bytesRead : q.bytesRead = k
  block : ∃ tail, q.body.getD [] = body.take k ++ tail ∧ tail.length = body.length - k
  allocated : q.body = none → p.bodySize = 0

/-- The low six bits of the first byte. -/
def lowBits (channel : ℕ) : ℕ :=
  if channelSize channel = 0 then channel else if channelSize channel = 2 then 1 else 0

theorem firstByte_eq (headerType channel : ℕ) :
    firstByte headerType channel =
      UInt8.ofNat headerType <<< 6 ||| UInt8.ofNat (lowBits channel) := by
  unfold firstByte lowBits
  split_ifs
  · rfl
  · rfl
  · exact (UInt8.or_zero).symm

theorem lowBits_lt (channel : ℕ) : lowBits channel < 64 := by
  unfold lowBits channelSize
  split_ifs <;> simp_all
  omega

/-- The two parts of the first byte, and the byte with both type bits set. -/
theorem byte_parts : ∀ h : Fin 4, ∀ low : Fin 64,
    (((UInt8.ofNat h.val <<< 6 ||| UInt8.ofNat low.val) &&& 0xc0) >>> 6).toNat = h.val ∧
      ((UInt8.ofNat h.val <<< 6 ||| UInt8.ofNat low.val) &&& 0x3f).toNat = low.val ∧
      (0xc0 : UInt8) ||| (UInt8.ofNat h.val <<< 6 ||| UInt8.ofNat low.val) =
        UInt8.ofNat 3 <<< 6 ||| UInt8.ofNat low.val := by
  decide +kernel

theorem or_firstByte {headerType : ℕ} (h : headerType ≤ 3) (channel : ℕ) :
    0xc0 ||| firstByte headerType channel = firstByte rtmpPacketSizeMinimum channel := by
  rw [firstByte_eq, firstByte_eq]
  exact (byte_parts ⟨headerType, by omega⟩ ⟨lowBits channel, lowBits_lt channel⟩).2.2

theorem readBasicHeader_firstByte {headerType channel : ℕ} (h : headerType ≤ 3)
    (hlow : 2 ≤ channel) (hhigh : channel < 65600) (bs : List UInt8) :
    readBasicHeader (firstByte headerType channel :: channelBytes channel ++ bs) =
      some (headerType, channel, bs) := by
  obtain ⟨htype, hbits, -⟩ :=
    byte_parts ⟨headerType, by omega⟩ ⟨lowBits channel, lowBits_lt channel⟩
  rw [List.cons_append, readBasicHeader, firstByte_eq, htype, hbits]
  by_cases hdirect : channel ≤ 63
  · have hsize : channelSize channel = 0 := by
      rw [channelSize, if_neg (by omega), if_neg (by omega)]
    simp only [lowBits, channelBytes, hsize, if_true, List.nil_append]
    rw [if_neg (by omega), if_neg (by omega)]
  · by_cases hone : channel ≤ 319
    · have hsize : channelSize channel = 1 := by
        rw [channelSize, if_neg (by omega), if_pos (by omega)]
      have hbyte : ofBigEndian [UInt8.ofNat (channel - 64)] = channel - 64 := by
        rw [ofBigEndian, List.foldl_cons, List.foldl_nil, UInt8.toNat_ofNat_of_lt' (by
          rw [UInt8.size]
          omega)]
        omega
      have hsplit : split 1 ([UInt8.ofNat (channel - 64)] ++ bs) = some (_, bs) :=
        split_append rfl bs
      simp only [lowBits, channelBytes, hsize, Nat.reduceEqDiff, if_false, if_true,
        Nat.one_ne_zero, hsplit, Option.map_some, hbyte]
      rw [Nat.sub_add_cancel (by omega)]
    · have hsize : channelSize channel = 2 := by
        rw [channelSize, if_pos (by omega)]
      have hbytes : ofBigEndian
          [UInt8.ofNat (channel - 64), UInt8.ofNat ((channel - 64) / 256)].reverse =
            channel - 64 := by
        have hdigits : [UInt8.ofNat (channel - 64), UInt8.ofNat ((channel - 64) / 256)].reverse =
            bigEndian 2 (channel - 64) := by
          simp [bigEndian]
        rw [hdigits, ofBigEndian_bigEndian (by omega)]
      have hsplit : split 2 ([UInt8.ofNat (channel - 64), UInt8.ofNat ((channel - 64) / 256)] ++
          bs) = some (_, bs) := split_append rfl bs
      simp only [lowBits, channelBytes, hsize, Nat.reduceEqDiff, if_false, if_true,
        Nat.one_ne_zero, hsplit, Option.map_some, hbytes]
      rw [Nat.sub_add_cancel (by omega)]

/-- What a packet recalled for a header gives to the fields the header leaves out. -/
structure Recalled (p : Packet) (q : InPacket) : Prop where
  channel : q.channel = p.channel
  body : q.body = none
  abs : q.hasAbsTimestamp = decide (p.headerType = rtmpPacketSizeLarge)
  infoField2 : p.headerType ≠ rtmpPacketSizeLarge → q.infoField2 = p.infoField2
  size : rtmpPacketSizeMedium < p.headerType →
    q.bodySize = p.bodySize ∧ q.packetType = p.packetType ∧ q.bytesRead = 0
  timeStamp : p.headerType = rtmpPacketSizeMinimum → q.timeStamp = p.lastWireTimeStamp

/-- The message header with the fields of a packet in it. -/
def messageHeader (p : Packet) : List UInt8 :=
  let nSize := packetSize p.headerType
  let t := p.lastWireTimeStamp.toNat
  (if 1 < nSize then bigEndian 3 (if 0xffffff < t then 0xffffff else t) else []) ++
    (if 4 < nSize then bigEndian 3 p.bodySize ++ [p.packetType] else []) ++
    (if 8 < nSize then encodeInt32LE p.infoField2 else [])

def extendedTimestamp (p : Packet) : List UInt8 :=
  if 1 < packetSize p.headerType ∧ 0xffffff ≤ p.lastWireTimeStamp.toNat then
    bigEndian 4 p.lastWireTimeStamp.toNat
  else []

theorem firstHeader_eq (p : Packet) :
    firstHeader p = firstByte p.headerType p.channel :: channelBytes p.channel ++
      (messageHeader p ++ extendedTimestamp p) := by
  simp only [firstHeader, messageHeader, extendedTimestamp, List.append_assoc, List.cons_append]

/-- The packet with the fields of `p` that its header carries, up to the timestamp. -/
def filled (p : Packet) (q : InPacket) (stamp : UInt32) : InPacket :=
  let q := { q with timeStamp := stamp }
  let q :=
    if p.headerType ≤ rtmpPacketSizeMedium then
      { q with bodySize := p.bodySize, bytesRead := 0, packetType := p.packetType }
    else q
  if p.headerType = rtmpPacketSizeLarge then { q with infoField2 := p.infoField2 } else q

theorem ofNat_ofBigEndian (n : UInt32) :
    UInt32.ofNat (ofBigEndian (bigEndian 4 n.toNat)) = n := by
  rw [ofBigEndian_bigEndian n.toNat_lt, UInt32.ofNat_toNat]

theorem ofNat_wireStamp (n : UInt32) :
    UInt32.ofNat (ofBigEndian (bigEndian 3 (if 0xffffff < n.toNat then 0xffffff else n.toNat))) =
      wireStamp n := by
  rw [ofBigEndian_bigEndian (by split_ifs <;> omega)]
  by_cases h : 0xffffff < n
  · have hnat : 0xffffff < n.toNat := UInt32.lt_iff_toNat_lt.mp h
    rw [wireStamp, if_pos hnat, if_pos h]
    rfl
  · have hnat : ¬ 0xffffff < n.toNat := fun hnat => h (UInt32.lt_iff_toNat_lt.mpr hnat)
    rw [wireStamp, if_neg hnat, if_neg h, UInt32.ofNat_toNat]

theorem withHeader_messageHeader {p : Packet} (htype : p.headerType < rtmpPacketSizeMinimum)
    (hsize : p.bodySize < 2 ^ 24) (q : InPacket) :
    withHeader (packetSize p.headerType - 1) (messageHeader p) q =
      filled p q (wireStamp p.lastWireTimeStamp) := by
  have hbody : ofBigEndian (bigEndian 3 p.bodySize) = p.bodySize := ofBigEndian_bigEndian hsize
  have hinfo := ofNat_ofBigEndian p.infoField2
  rw [← ofNat_wireStamp, messageHeader]
  generalize (if 0xffffff < p.lastWireTimeStamp.toNat then 0xffffff
    else p.lastWireTimeStamp.toNat) = t
  obtain h | h | h : p.headerType = 0 ∨ p.headerType = 1 ∨ p.headerType = 2 := by
    rw [rtmpPacketSizeMinimum] at htype
    omega
  · have hfields : withHeader 11 (bigEndian 3 t ++ (bigEndian 3 p.bodySize ++ [p.packetType]) ++
        (bigEndian 4 p.infoField2.toNat).reverse) q =
          { q with
            timeStamp := UInt32.ofNat (ofBigEndian (bigEndian 3 t))
            bodySize := ofBigEndian (bigEndian 3 p.bodySize)
            bytesRead := 0
            packetType := p.packetType
            infoField2 := UInt32.ofNat (ofBigEndian (bigEndian 4 p.infoField2.toNat)) } := rfl
    rw [hbody, hinfo] at hfields
    simp only [filled, h]
    exact hfields
  · have hfields : withHeader 7 (bigEndian 3 t ++ (bigEndian 3 p.bodySize ++ [p.packetType])) q =
          { q with
            timeStamp := UInt32.ofNat (ofBigEndian (bigEndian 3 t))
            bodySize := ofBigEndian (bigEndian 3 p.bodySize)
            bytesRead := 0
            packetType := p.packetType } := rfl
    rw [hbody] at hfields
    simp only [filled, h]
    exact hfields
  · simp only [filled, h]
    rfl

theorem length_messageHeader {p : Packet} (htype : p.headerType ≤ 3) :
    (messageHeader p).length = packetSize p.headerType - 1 := by
  simp only [messageHeader, encodeInt32LE, List.length_append, apply_ite List.length,
    List.length_nil, List.length_cons, List.length_reverse, length_bigEndian]
  obtain h | h | h | h : p.headerType = 0 ∨ p.headerType = 1 ∨ p.headerType = 2 ∨
    p.headerType = 3 := by omega
  all_goals rw [h]; rfl

theorem wireStamp_eq_max (n : UInt32) : wireStamp n = 0xffffff ↔ 0xffffff ≤ n := by
  unfold wireStamp
  split_ifs with h
  · simp [UInt32.le_of_lt h]
  · constructor
    · rintro rfl
      exact UInt32.le_refl _
    · intro hle
      exact UInt32.le_antisymm (UInt32.not_lt.mp h) hle

theorem wireStamp_of_lt {n : UInt32} (h : n < 0xffffff) : wireStamp n = n := by
  rw [wireStamp, if_neg (UInt32.not_lt.mpr (UInt32.le_of_lt h))]

/-- The full timestamp comes from the header or from the extended field. -/
theorem readMessageHeader_stamped {p : Packet} (htype : p.headerType < rtmpPacketSizeMinimum)
    (hsize : p.bodySize < 2 ^ 24) (q : InPacket) (bs : List UInt8) :
    readMessageHeader (packetSize p.headerType - 1) q
        (messageHeader p ++ extendedTimestamp p ++ bs) =
      some (filled p q p.lastWireTimeStamp, decide (0xffffff ≤ p.lastWireTimeStamp), bs) := by
  have hthree : 3 ≤ packetSize p.headerType - 1 := by
    rw [rtmpPacketSizeMinimum] at htype
    obtain h | h | h : p.headerType = 0 ∨ p.headerType = 1 ∨ p.headerType = 2 := by omega
    all_goals rw [h]; decide
  have htimeStamp (stamp : UInt32) : (filled p q stamp).timeStamp = stamp := by
    simp only [filled]
    split_ifs <;> rfl
  have hagain (stamp stamp' : UInt32) :
      { filled p q stamp with timeStamp := stamp' } = filled p q stamp' := by
    simp only [filled]
    split_ifs <;> rfl
  have hle : 0xffffff ≤ p.lastWireTimeStamp ↔ 0xffffff ≤ p.lastWireTimeStamp.toNat :=
    UInt32.le_iff_toNat_le
  rw [readMessageHeader, List.append_assoc,
    split_append (length_messageHeader (Nat.le_of_lt htype))]
  simp only [Option.bind_some, hthree, if_true, withHeader_messageHeader htype hsize,
    htimeStamp, wireStamp_eq_max]
  by_cases hext : 0xffffff ≤ p.lastWireTimeStamp
  · have hbytes : extendedTimestamp p = bigEndian 4 p.lastWireTimeStamp.toNat :=
      if_pos ⟨by omega, hle.mp hext⟩
    rw [if_pos hext, hbytes, split_append (length_bigEndian _ _), Option.map_some,
      ofNat_ofBigEndian, hagain, decide_eq_true hext]
  · have hbytes : extendedTimestamp p = [] := if_neg fun h => hext (hle.mpr h.2)
    have hlt : p.lastWireTimeStamp < 0xffffff := UInt32.not_le.mp hext
    rw [if_neg hext, hbytes, wireStamp_of_lt hlt, decide_eq_false hext, List.nil_append]

/-- A header with nothing of the body read yet. -/
structure Started (p : Packet) (q : InPacket) : Prop where
  channel : q.channel = p.channel
  packetType : q.packetType = p.packetType
  infoField2 : q.infoField2 = p.infoField2
  bodySize : q.bodySize = p.bodySize
  timeStamp : q.timeStamp = p.lastWireTimeStamp
  abs : q.hasAbsTimestamp = decide (p.headerType = rtmpPacketSizeLarge)
  bytesRead : q.bytesRead = 0
  body : q.body = none

theorem readMessageHeader_started {p : Packet} {q : InPacket} (hq : Recalled p q)
    (htype : p.headerType ≤ rtmpPacketSizeMinimum) (hsize : p.bodySize < 2 ^ 24) :
    ∃ q', Started p q' ∧ ∀ bs, readMessageHeader (packetSize p.headerType - 1) q
        (messageHeader p ++ extendedTimestamp p ++ bs) =
      some (q', decide (p.headerType < rtmpPacketSizeMinimum ∧ 0xffffff ≤ p.lastWireTimeStamp),
        bs) := by
  by_cases hmin : p.headerType = rtmpPacketSizeMinimum
  · obtain ⟨hbody, htypes, hread⟩ := hq.size (by rw [hmin]; decide)
    have hlarge : p.headerType ≠ rtmpPacketSizeLarge := by rw [hmin]; decide
    refine ⟨q, ⟨hq.channel, htypes, hq.infoField2 hlarge, hbody, hq.timeStamp hmin, hq.abs,
      hread, hq.body⟩, fun bs => ?_⟩
    have hnone : messageHeader p ++ extendedTimestamp p = [] := by
      simp [messageHeader, extendedTimestamp, hmin, rtmpPacketSizeMinimum, packetSize]
    rw [hnone, hmin]
    simp [readMessageHeader, split, packetSize, rtmpPacketSizeMinimum]
  · have hlt : p.headerType < rtmpPacketSizeMinimum := by omega
    refine ⟨filled p q p.lastWireTimeStamp, ?_, fun bs => ?_⟩
    · have hchannel := hq.channel
      have habs := hq.abs
      have hnone := hq.body
      by_cases hmedium : p.headerType ≤ rtmpPacketSizeMedium
      · by_cases hlarge : p.headerType = rtmpPacketSizeLarge
        · have hle : rtmpPacketSizeLarge ≤ rtmpPacketSizeMedium := by decide
          constructor <;> simp [filled, hlarge, hle, hchannel, habs, hnone]
        · have hinfo := hq.infoField2 hlarge
          constructor <;> simp [filled, hmedium, hlarge, hchannel, habs, hnone, hinfo]
      · have hlarge : p.headerType ≠ rtmpPacketSizeLarge := by
          intro h
          exact hmedium (by rw [h]; decide)
        have hinfo := hq.infoField2 hlarge
        obtain ⟨hbody, htypes, hread⟩ := hq.size (Nat.lt_of_not_le hmedium)
        constructor <;>
          simp [filled, hmedium, hlarge, hchannel, habs, hnone, hinfo, hbody, htypes, hread]
    · rw [readMessageHeader_stamped hlt hsize]
      simp only [hlt, true_and]

theorem allocate_filling {p : Packet} {q : InPacket} (hq : Started p q) {body : List UInt8}
    (hbody : body.length = p.bodySize) (headerType : ℕ) :
    Filling p body 0 (allocate headerType q) := by
  obtain ⟨hchannel, htype, hinfo, hsize, hstamp, habs, hread, hnone⟩ := hq
  by_cases hpos : 0 < p.bodySize
  · have hnew : 0 < q.bodySize ∧ q.body = none := ⟨hsize ▸ hpos, hnone⟩
    rw [allocate, if_pos hnew]
    refine ⟨hchannel, htype, hinfo, hsize, hstamp, habs, rfl, ⟨List.replicate q.bodySize 0, ?_, ?_⟩,
      fun h => nomatch h⟩
    · rw [Option.getD_some, List.take_zero, List.nil_append]
    · rw [List.length_replicate, hsize, hbody, Nat.sub_zero]
  · have hnew : ¬ (0 < q.bodySize ∧ q.body = none) := fun h => hpos (hsize ▸ h.1)
    rw [allocate, if_neg hnew]
    refine ⟨hchannel, htype, hinfo, hsize, hstamp, habs, hread, ⟨[], ?_, ?_⟩, fun _ => by omega⟩
    · rw [hnone, Option.getD_none, List.take_zero, List.nil_append]
    · rw [List.length_nil]
      omega

theorem allocate_of_filling {p : Packet} {body : List UInt8} {k : ℕ} {q : InPacket}
    (hq : Filling p body k q) (headerType : ℕ) : allocate headerType q = q := by
  have hnew : ¬ (0 < q.bodySize ∧ q.body = none) := by
    rintro ⟨hpos, hnone⟩
    rw [hq.bodySize, hq.allocated hnone] at hpos
    exact Nat.lt_irrefl 0 hpos
  rw [allocate, if_neg hnew]

/-- A chunk of `n` bytes takes the filling `n` bytes further. -/
theorem readBody_filling {p : Packet} {body : List UInt8} {k n headerType : ℕ} {r : In}
    {q : InPacket} (hq : Filling p body k (allocate headerType q))
    (hn : chunkLength r (allocate headerType q) = n) (hk : k + n ≤ body.length)
    (extended : Bool) :
    ∃ q', Filling p body (k + n) q' ∧ ∀ bs,
      readBody r headerType q extended ((body.drop k).take n ++ bs) =
        .chunk (finish r q' extended).1 (finish r q' extended).2 bs := by
  obtain ⟨hchannel, htype, hinfo, hsize, hstamp, habs, hread, ⟨tail, hblock, htail⟩, halloc⟩ := hq
  have hdata : ((body.drop k).take n).length = n := by
    rw [List.length_take, List.length_drop]
    omega
  refine ⟨{ allocate headerType q with
    body := (allocate headerType q).body.map fun block => store block k ((body.drop k).take n)
    bytesRead := k + n }, ?_, fun bs => ?_⟩
  · refine ⟨hchannel, htype, hinfo, hsize, hstamp, habs, rfl, ⟨tail.drop n, ?_, ?_⟩, ?_⟩
    · have hstore : store (body.take k ++ tail) k ((body.drop k).take n) =
          body.take (k + n) ++ tail.drop n := by
        have htake : (body.take k).length = k := by
          rw [List.length_take]
          omega
        have hdrop : (body.take k ++ tail).drop (k + n) = tail.drop n := by
          rw [List.drop_append, htake, List.drop_of_length_le (by omega), List.nil_append]
          congr 1
          omega
        rw [store, hdata, hdrop, List.take_left' htake, ← List.take_add]
      cases hb : (allocate headerType q).body with
      | none =>
        rw [hb, Option.getD_none] at hblock
        obtain ⟨hnil, rfl⟩ := List.append_eq_nil_iff.mp hblock.symm
        have hlen := congrArg List.length hnil
        rw [List.length_take, List.length_nil] at hlen
        rw [List.length_nil] at htail
        have hempty : body = [] := List.length_eq_zero_iff.mp (by omega)
        simp [hempty]
      | some block =>
        rw [hb, Option.getD_some] at hblock
        rw [Option.map_some, Option.getD_some, hblock, hstore]
    · rw [List.length_drop]
      omega
    · intro hnone
      exact halloc (Option.map_eq_none_iff.mp hnone)
  · have hroom : ¬ ((allocate headerType q).body.getD []).length <
        k + min n ((body.drop k).take n ++ bs).length := by
      rw [hblock, List.length_append, List.length_take, htail]
      omega
    simp only [readBody, hn, Int.toNat_natCast, split_append hdata, hread]
    rw [if_neg (by omega), if_neg hroom]

/-- The receiver after a message: nothing has changed but what it knows of the channel. -/
structure Took (r r' : In) (p : Packet) : Prop where
  chunkSize : r'.inChunkSize = r.inChunkSize
  others : ∀ c, c ≠ p.channel → r'.vecChannelsIn c = r.vecChannelsIn c ∧
    r'.channelTimestamp c = r.channelTimestamp c
  kept : ∃ q, r'.vecChannelsIn p.channel = some q ∧ Kept p q
  stamp : r'.channelTimestamp p.channel = p.timeStamp

/-- The timestamp on the wire leads to the one of the packet. -/
def Stamped (r : In) (p : Packet) : Prop :=
  p.timeStamp = if p.headerType = rtmpPacketSizeLarge then p.lastWireTimeStamp
    else p.lastWireTimeStamp + r.channelTimestamp p.channel

/-- A whole body ends the message. -/
theorem finish_whole {p : Packet} {body : List UInt8} {q : InPacket} {r : In}
    (hq : Filling p body body.length q) (hbody : body.length = p.bodySize) (hr : Stamped r p)
    {extended : Bool}
    (hext : (if extended then 0xffffff else p.lastWireTimeStamp) =
      wireStamp p.lastWireTimeStamp) :
    Took r (finish r q extended).1 p ∧ isReady (finish r q extended).2 = true ∧
      (finish r q extended).2.delivered =
        ⟨p.channel, p.packetType, p.timeStamp, p.infoField2, body⟩ := by
  obtain ⟨hchannel, htype, hinfo, hsize, hstamp, habs, hread, ⟨tail, hblock, htail⟩, -⟩ := hq
  have hready : isReady q = true := by
    rw [isReady, decide_eq_true_eq, hread, hsize, hbody]
  have hwhole : (q.body.getD []).take q.bodySize = body := by
    have hnil : tail = [] := List.length_eq_zero_iff.mp (by omega)
    rw [hblock, hnil, List.take_length, List.append_nil, hsize, ← hbody, List.take_length]
  have htime : (absolute r q).timeStamp = p.timeStamp := by
    rw [hr, absolute, habs, hstamp, hchannel]
    simp only [decide_eq_true_eq]
  simp only [finish, hready, if_true, htime, hchannel]
  refine ⟨⟨rfl, fun c hc => ?_, ⟨_, Function.update_self _ _ _, ?_⟩,
    Function.update_self _ _ _⟩, hready, ?_⟩
  · exact ⟨Function.update_of_ne hc _ _, Function.update_of_ne hc _ _⟩
  · exact ⟨hchannel, htype, hinfo, hsize, by rw [← hext, ← hstamp]; rfl, rfl, rfl, rfl⟩
  · simp only [InPacket.delivered, htime]
    simp only [absolute, hchannel, htype, hinfo, hwhole]

/-- The packet's header type and channel are ones a header can carry. -/
structure Sendable (p : Packet) : Prop where
  headerType : p.headerType ≤ rtmpPacketSizeMinimum
  low : 2 ≤ p.channel
  high : p.channel < 65600
  size : p.bodySize < 2 ^ 24

/-- After some header bytes the call goes on to read the body from byte `k`. -/
def Leads (r : In) (packet : InPacket) (header : List UInt8) (p : Packet) (body : List UInt8)
    (k : ℕ) (extended : Bool) : Prop :=
  ∃ headerType q, Filling p body k (allocate headerType q) ∧
    ∀ bs, readPacket r packet (header ++ bs) = readBody r headerType q extended bs

section Chunks
variable {p : Packet} {body header : List UInt8} {k chunkSize : ℕ} {r : In} {packet : InPacket}
  {extended : Bool}

theorem leads_first (hp : Sendable p) (hbody : body.length = p.bodySize)
    (hpacket : packet.body = none)
    (hprev : p.headerType ≠ rtmpPacketSizeLarge →
      ∃ q, r.vecChannelsIn p.channel = some q ∧ Recalled p q) :
    Leads r packet (firstHeader p) p body 0
      (decide (p.headerType < rtmpPacketSizeMinimum ∧ 0xffffff ≤ p.lastWireTimeStamp)) := by
  have hrecall : Recalled p (recallPacket r packet p.headerType p.channel) := by
    by_cases hlarge : p.headerType = rtmpPacketSizeLarge
    · have hsize : packetSize p.headerType = 12 := by rw [hlarge]; rfl
      rw [recallPacket, if_pos hsize]
      refine ⟨rfl, hpacket, by simp [hlarge], fun h => absurd hlarge h, fun h => ?_, fun h => ?_⟩
      · rw [hlarge] at h
        exact absurd h (by decide)
      · rw [hlarge] at h
        exact absurd h (by decide)
    · obtain ⟨q, hq, hrecalled⟩ := hprev hlarge
      have hsize : packetSize p.headerType ≠ 12 := by
        have htype := hp.headerType
        rw [rtmpPacketSizeMinimum] at htype
        rw [rtmpPacketSizeLarge] at hlarge
        obtain h | h | h : p.headerType = 1 ∨ p.headerType = 2 ∨ p.headerType = 3 := by omega
        all_goals rw [h]; decide
      rw [recallPacket, if_neg hsize, hq, Option.getD_some]
      exact hrecalled
  obtain ⟨q, hq, hread⟩ := readMessageHeader_started hrecall hp.headerType hp.size
  refine ⟨p.headerType, q, allocate_filling hq hbody _, fun bs => ?_⟩
  rw [firstHeader_eq, List.append_assoc, readPacket,
    readBasicHeader_firstByte hp.headerType hp.low hp.high]
  simp only [hread bs]

/-- The shortest header leaves the packet of the channel as it is. -/
theorem readPacket_minimum {c : ℕ} (hlow : 2 ≤ c) (hhigh : c < 65600) {q : InPacket}
    (hkept : r.vecChannelsIn c = some q) (packet : InPacket) (bs : List UInt8) :
    readPacket r packet (firstByte rtmpPacketSizeMinimum c :: channelBytes c ++ bs) =
      readBody r rtmpPacketSizeMinimum q false bs := by
  have hbasic := readBasicHeader_firstByte (Nat.le_refl rtmpPacketSizeMinimum) hlow hhigh bs
  have hrecall : recallPacket r packet rtmpPacketSizeMinimum c = q := by
    rw [recallPacket, if_neg (by decide), hkept, Option.getD_some]
  have hread : readMessageHeader (packetSize rtmpPacketSizeMinimum - 1) q bs =
      some (q, false, bs) := by
    simp [readMessageHeader, split, packetSize, rtmpPacketSizeMinimum]
  rw [readPacket, hbasic]
  simp only [hrecall, hread]

theorem leads_next (hp : Sendable p) (hshort : p.lastWireTimeStamp < 0xffffff) {q : InPacket}
    (hkept : r.vecChannelsIn p.channel = some q) (hq : Filling p body k q) :
    Leads r packet (nextHeader p) p body k false := by
  have hnext : nextHeader p = firstByte rtmpPacketSizeMinimum p.channel ::
      channelBytes p.channel := by
    have hnat : ¬ 0xffffff ≤ p.lastWireTimeStamp.toNat := by
      have h := UInt32.lt_iff_toNat_lt.mp hshort
      exact Nat.not_le.mpr h
    rw [nextHeader, or_firstByte hp.headerType, if_neg hnat, List.append_nil]
  refine ⟨rtmpPacketSizeMinimum, q, ?_, fun bs => ?_⟩
  · rw [allocate_of_filling hq]
    exact hq
  · rw [hnext, readPacket_minimum hp.low hp.high hkept]

/-- Both ends cut what is left of the body alike. -/
def CutAlike (r : In) (chunkSize left : ℕ) : Prop :=
  r.inChunkSize = chunkSize ∨ (left ≤ chunkSize ∧ left ≤ r.inChunkSize)

/-- The last chunk of a message. -/
theorem takes_last (hleads : Leads r packet header p body k extended)
    (hbody : body.length = p.bodySize) (hk : k ≤ body.length) (hr : Stamped r p)
    (hext : (if extended then 0xffffff else p.lastWireTimeStamp) = wireStamp p.lastWireTimeStamp)
    (halike : CutAlike r chunkSize (body.length - k)) (hlast : body.length - k ≤ chunkSize) :
    ∃ r' packet', Took r r' p ∧ packet'.body = none ∧
      Takes receive ⟨r, packet⟩ (header ++ body.drop k) 1
        ⟨handleChangeChunkSize r' ⟨p.channel, p.packetType, p.timeStamp, p.infoField2, body⟩,
          packet'⟩
        [⟨p.channel, p.packetType, p.timeStamp, p.infoField2, body⟩] := by
  obtain ⟨headerType, q, hq, hread⟩ := hleads
  have hn : chunkLength r (allocate headerType q) = (body.length - k : ℕ) := by
    rw [chunkLength, hq.bodySize, hq.bytesRead, ← hbody, ← Nat.cast_sub hk]
    apply min_eq_left
    rcases halike with heq | ⟨-, hle⟩
    · rw [heq]
      exact_mod_cast hlast
    · exact hle
  obtain ⟨q', hq', hchunk⟩ := readBody_filling hq hn (by omega) extended
  rw [Nat.add_sub_cancel' hk] at hq'
  obtain ⟨htook, hready, hdelivered⟩ := finish_whole hq' hbody hr hext
  refine ⟨_, { (finish r q' extended).2 with body := none }, htook, rfl, ?_⟩
  have hall : (body.drop k).take (body.length - k) = body.drop k := by
    rw [List.take_of_length_le (by rw [List.length_drop])]
  refine Takes.single (o := some _) fun bs => ?_
  have hcall := hchunk bs
  rw [hall] at hcall
  rw [receive, List.append_assoc, hread, hcall]
  simp only [handled, hready, if_true, hdelivered]

/-- A whole message, chunk by chunk. -/
theorem takes_chunks (hp : Sendable p) (hpos : 0 < chunkSize) (hbody : body.length = p.bodySize)
    (fuel : ℕ) (hheader : header ≠ []) (hleads : Leads r packet header p body k extended)
    (hk : k ≤ body.length) (hr : Stamped r p)
    (hext : (if extended then 0xffffff else p.lastWireTimeStamp) = wireStamp p.lastWireTimeStamp)
    (halike : CutAlike r chunkSize (body.length - k))
    (hmore : body.length - k ≤ chunkSize ∨ p.lastWireTimeStamp < 0xffffff)
    (hfuel : body.length - k < fuel) :
    ∃ r' packet' n,
      n ≤ (chunks chunkSize (nextHeader p) fuel header (body.drop k)).flatten.length ∧
      Took r r' p ∧ packet'.body = none ∧
      Takes receive ⟨r, packet⟩ (chunks chunkSize (nextHeader p) fuel header (body.drop k)).flatten n
        ⟨handleChangeChunkSize r' ⟨p.channel, p.packetType, p.timeStamp, p.infoField2, body⟩,
          packet'⟩
        [⟨p.channel, p.packetType, p.timeStamp, p.infoField2, body⟩] := by
  induction fuel generalizing header k r packet extended with
  | zero => omega
  | succ fuel ih =>
    have hheaderLen := List.length_pos_iff.mpr hheader
    rw [chunks, List.length_drop]
    by_cases hlast : body.length - k ≤ chunkSize
    · obtain ⟨r', packet', htook, hnone, htakes⟩ :=
        takes_last hleads hbody hk hr hext halike hlast
      refine ⟨r', packet', 1, ?_, htook, hnone, ?_⟩
      · simp only [hlast, if_true, List.flatten_cons, List.flatten_nil, List.append_nil,
          List.length_append]
        omega
      · simpa only [hlast, if_true, List.flatten_cons, List.flatten_nil, List.append_nil]
          using htakes
    · have hshort := hmore.resolve_left hlast
      have hsize : r.inChunkSize = chunkSize := halike.resolve_right fun h => hlast h.1
      have hnot : extended = false := by
        cases extended with
        | false => rfl
        | true =>
          rw [if_pos rfl, wireStamp_of_lt hshort] at hext
          rw [← hext] at hshort
          exact absurd hshort (UInt32.lt_irrefl _)
      subst hnot
      obtain ⟨headerType, q, hq, hread⟩ := hleads
      have hn : chunkLength r (allocate headerType q) = chunkSize := by
        rw [chunkLength, hq.bodySize, hq.bytesRead, ← hbody, hsize]
        apply min_eq_right
        omega
      obtain ⟨q', hq', hchunk⟩ := readBody_filling hq hn (by omega) false
      have hready : isReady q' = false := by
        rw [isReady, decide_eq_false_iff_not, hq'.bytesRead, hq'.bodySize]
        omega
      have hfinish : finish r q' false =
          ({ r with vecChannelsIn := Function.update r.vecChannelsIn p.channel (some q') },
            { q' with body := none }) := by
        rw [finish_unready hready, hq'.channel]
      let r₁ : In := { r with vecChannelsIn := Function.update r.vecChannelsIn p.channel (some q') }
      have hleads₁ : Leads r₁ { q' with body := none } (nextHeader p) p body (k + chunkSize) false :=
        leads_next hp hshort (Function.update_self _ _ _) hq'
      obtain ⟨r', packet', n, hlen, htook, hnone, htakes⟩ :=
        ih (nextHeader_ne_nil p) hleads₁ (by omega) hr (by rw [wireStamp_of_lt hshort]; rfl)
          (.inl hsize) (.inr hshort) (by omega)
      have hfirst : Takes receive ⟨r, packet⟩ (header ++ (body.drop k).take chunkSize) 1
          ⟨r₁, { q' with body := none }⟩ (none : Option Delivered).toList := by
        apply Takes.single
        intro bs
        have hpart : isReady { q' with body := none } = false := hready
        rw [receive, List.append_assoc, hread, hchunk, hfinish]
        simp only [handled, hpart]
        rfl
      have hboth := hfirst.append htakes
      rw [← List.drop_drop] at hboth hlen
      refine ⟨r', packet', 1 + n, ?_, ⟨htook.chunkSize, ?_, htook.kept, htook.stamp⟩, hnone, ?_⟩
      · simp only [hlast, if_false, List.flatten_cons, List.length_append]
        omega
      · intro c hc
        obtain ⟨hvec, hstamp⟩ := htook.others c hc
        exact ⟨hvec.trans (Function.update_of_ne hc _ _), hstamp⟩
      · simpa only [hlast, if_false, List.flatten_cons, Option.toList_none, List.nil_append]
          using hboth

end Chunks

/-- What the compression may do to a header type, and when. -/
theorem compress_spec (prev p : Packet) :
    (compress prev p = rtmpPacketSizeLarge ↔ p.headerType = rtmpPacketSizeLarge) ∧
      (p.headerType ≤ rtmpPacketSizeMinimum → compress prev p ≤ rtmpPacketSizeMinimum) ∧
      (rtmpPacketSizeMedium < compress prev p → rtmpPacketSizeMedium < p.headerType ∨
        (p.bodySize = prev.bodySize ∧ p.packetType = prev.packetType)) ∧
      (compress prev p = rtmpPacketSizeMinimum → p.headerType = rtmpPacketSizeMinimum ∨
        p.timeStamp - prev.timeStamp = prev.lastWireTimeStamp) := by
  unfold compress
  simp only [rtmpPacketSizeLarge, rtmpPacketSizeMedium, rtmpPacketSizeSmall, rtmpPacketSizeMinimum]
  by_cases hsame : prev.bodySize = p.bodySize ∧ prev.packetType = p.packetType ∧ p.headerType = 1
  · obtain ⟨hsize, htype, hmedium⟩ := hsame
    by_cases hdelta : p.timeStamp - prev.timeStamp = prev.lastWireTimeStamp
    · simp [hsize, htype, hmedium, hdelta]
    · simp [hsize, htype, hmedium, hdelta]
  · by_cases hsmall : p.timeStamp - prev.timeStamp = prev.lastWireTimeStamp ∧ p.headerType = 2
    · simp [hsmall.1, hsmall.2]
    · simp only [hsame, hsmall, if_false, true_and]
      exact ⟨id, Or.inl, Or.inl⟩

section Step
variable {l : Link} {m : Message} {peer : Peer}

theorem planned_fields (prev : Option Packet) (p : Packet) :
    (planned prev p).channel = p.channel ∧ (planned prev p).packetType = p.packetType ∧
      (planned prev p).timeStamp = p.timeStamp ∧ (planned prev p).infoField2 = p.infoField2 ∧
      (planned prev p).bodySize = p.bodySize := by
  cases prev with
  | none => exact ⟨rfl, rfl, rfl, rfl, rfl⟩
  | some prev =>
    simp only [planned]
    split_ifs <;> exact ⟨rfl, rfl, rfl, rfl, rfl⟩

theorem planned_large (prev : Option Packet) (p : Packet) :
    (planned prev p).headerType = rtmpPacketSizeLarge ↔ p.headerType = rtmpPacketSizeLarge := by
  cases prev with
  | none => exact Iff.rfl
  | some prev =>
    simp only [planned]
    split_ifs with hlarge
    · exact Iff.rfl
    · exact (compress_spec prev p).1

/-- The delta of a packet that is not sent with a full header. -/
theorem planned_some (prev : Packet) {p : Packet} (hlarge : p.headerType ≠ rtmpPacketSizeLarge) :
    (planned (some prev) p).headerType = compress prev p ∧
      (planned (some prev) p).lastWireTimeStamp = p.timeStamp - prev.timeStamp := by
  rw [planned, if_neg hlarge]
  exact ⟨rfl, rfl⟩

theorem planned_of_large {prev : Option Packet} {p : Packet}
    (hlarge : p.headerType = rtmpPacketSizeLarge) :
    (planned prev p).lastWireTimeStamp = p.timeStamp := by
  cases prev with
  | none => rfl
  | some prev => simp only [planned, if_pos hlarge]

theorem planned_headerType {p : Packet} (h : p.headerType ≤ rtmpPacketSizeMinimum)
    (prev : Option Packet) : (planned prev p).headerType ≤ rtmpPacketSizeMinimum := by
  cases prev with
  | none => exact h
  | some prev =>
    simp only [planned]
    split_ifs
    · exact h
    · exact (compress_spec prev p).2.1 h

theorem sendable (h : Transportable l m) : Sendable (l.planned m) := by
  obtain ⟨hchannel, -, -, -, hsize⟩ :=
    planned_fields (l.out.vecChannelsOut m.packet.channel) m.packet
  exact ⟨planned_headerType h.headerType _, hchannel ▸ h.channel.1, hchannel ▸ h.channel.2,
    hsize ▸ h.size⟩

/-- A header that is not a full one finds the packet it refers to. -/
theorem recalled (h : Transportable l m) (ha : Agrees l peer)
    (hlarge : (l.planned m).headerType ≠ rtmpPacketSizeLarge) :
    ∃ q, peer.r.vecChannelsIn (l.planned m).channel = some q ∧ Recalled (l.planned m) q := by
  obtain ⟨hchannel, htype, -, hinfo, hsize⟩ :=
    planned_fields (l.out.vecChannelsOut m.packet.channel) m.packet
  have hrequested : m.packet.headerType ≠ rtmpPacketSizeLarge :=
    fun hm => hlarge ((planned_large _ _).mpr hm)
  cases hprev : l.out.vecChannelsOut m.packet.channel with
  | none => exact absurd (h.fresh hprev) hrequested
  | some prev =>
    obtain ⟨hprevChannel, ⟨q, hq, hkept⟩, -⟩ := ha.channels _ _ hprev
    obtain ⟨hheader, hdelta⟩ := planned_some prev hrequested
    have hleft := h.leftOut prev hprev
    have hplanned : l.planned m = planned (some prev) m.packet := by rw [Link.planned, hprev]
    rw [← hprev] at hheader hdelta
    obtain ⟨-, -, hsame, hmin⟩ := compress_spec prev m.packet
    rw [← hheader] at hsame hmin
    refine ⟨q, by rw [Link.planned, hchannel, hq], ?_, hkept.fresh.1, ?_, fun _ => ?_, fun hsmall => ?_,
      fun hthree => ?_⟩
    · exact hkept.channel.trans (hprevChannel.trans hchannel.symm)
    · rw [hkept.fresh.2.2, decide_eq_false hlarge]
    · exact hkept.infoField2.trans ((hleft.1 hrequested).symm.trans hinfo.symm)
    · have hfields : m.packet.bodySize = prev.bodySize ∧
          m.packet.packetType = prev.packetType := (hsame hsmall).elim hleft.2.1 id
      exact ⟨hkept.bodySize.trans (hfields.1.symm.trans hsize.symm),
        hkept.packetType.trans (hfields.2.symm.trans htype.symm), hkept.fresh.2.1⟩
    · have hequal : m.packet.timeStamp - prev.timeStamp = prev.lastWireTimeStamp :=
        (hmin hthree).elim hleft.2.2 id
      have hwire : (l.planned m).lastWireTimeStamp = prev.lastWireTimeStamp := hdelta.trans hequal
      rw [hkept.timeStamp, ← hwire]
      rcases h.stamp with hshort | ⟨-, hne | hmax⟩
      · exact wireStamp_of_lt hshort
      · exact absurd hthree hne
      · rw [hmax]
        rfl

theorem stamped (h : Transportable l m) (ha : Agrees l peer) :
    Stamped peer.r (l.planned m) := by
  obtain ⟨hchannel, -, hstamp, -, -⟩ :=
    planned_fields (l.out.vecChannelsOut m.packet.channel) m.packet
  have hlarge := planned_large (l.out.vecChannelsOut m.packet.channel) m.packet
  rw [Stamped, Link.planned, hchannel, hstamp]
  by_cases hm : m.packet.headerType = rtmpPacketSizeLarge
  · rw [if_pos (hlarge.mpr hm), planned_of_large hm]
  · rw [if_neg fun hp => hm (hlarge.mp hp)]
    cases hprev : l.out.vecChannelsOut m.packet.channel with
    | none => exact absurd (h.fresh hprev) hm
    | some prev =>
      rw [(planned_some prev hm).2, (ha.channels _ _ hprev).2.2, UInt32.sub_add_cancel]

/-- The extended field is there to be read exactly where the header needs it. -/
theorem extended_stamp (h : Transportable l m) :
    (if decide ((l.planned m).headerType < rtmpPacketSizeMinimum ∧
        0xffffff ≤ (l.planned m).lastWireTimeStamp) then 0xffffff
      else (l.planned m).lastWireTimeStamp) = wireStamp (l.planned m).lastWireTimeStamp := by
  have htype := (sendable h).headerType
  simp only [decide_eq_true_eq]
  by_cases hlong : 0xffffff ≤ (l.planned m).lastWireTimeStamp
  · have hwire := (wireStamp_eq_max _).mpr hlong
    rw [hwire]
    rcases h.stamp with hshort | ⟨-, hne | hmax⟩
    · exact absurd hshort (UInt32.not_lt.mpr hlong)
    · rw [if_pos ⟨by omega, hlong⟩]
    · rw [hmax, ite_self]
  · rw [if_neg fun hboth => hlong hboth.2, wireStamp_of_lt (UInt32.not_le.mp hlong)]

/-- A message that can be transported is delivered, and both ends agree again. -/
theorem send_delivered (ha : Agrees l peer) (h : Transportable l m) :
    ∃ peer' n, n ≤ (l.send m).2.length ∧ Takes receive peer (l.send m).2 n peer' [m.delivered] ∧
      Agrees (l.send m).1 peer' := by
  obtain ⟨hchannel, htype, hstamp, hinfo, hsize⟩ :=
    planned_fields (l.out.vecChannelsOut m.packet.channel) m.packet
  have hp := sendable h
  have hbody : m.body.length = (l.planned m).bodySize := (length_body m).trans hsize.symm
  have hwrites := sendPacket_writes l.out m hp.headerType
  have hstamps : m.packet.bodySize ≤ l.out.outChunkSize ∨
      (l.planned m).lastWireTimeStamp < 0xffffff := h.stamp.symm.imp And.left id
  have halike : CutAlike peer.r l.out.outChunkSize (m.body.length - 0) := by
    rw [CutAlike, ha.chunkSize, Nat.sub_zero, length_body]
    exact h.alike
  obtain ⟨r', packet', n, hlen, htook, hnone, htakes⟩ :=
    takes_chunks hp l.out.chunk_pos hbody (m.packet.bodySize + 1) (firstHeader_ne_nil _)
      (leads_first hp hbody ha.packet (recalled h ha)) (Nat.zero_le _) (stamped h ha)
      (extended_stamp h) halike (by rwa [Nat.sub_zero, length_body])
      (by rw [Nat.sub_zero, length_body]; omega)
  have hbytes : (l.send m).2 = (chunks l.out.outChunkSize (nextHeader (l.planned m))
      (m.packet.bodySize + 1) (firstHeader (l.planned m)) (m.body.drop 0)).flatten :=
    congrArg List.flatten hwrites
  have hdelivered : (⟨(l.planned m).channel, (l.planned m).packetType, (l.planned m).timeStamp,
      (l.planned m).infoField2, m.body⟩ : Delivered) = m.delivered := by
    rw [Link.planned, hchannel, htype, hstamp, hinfo]
    rfl
  have hout : (l.send m).1.out = remember l.out (l.planned m) := sendPacket_out l.out m hp.headerType
  rw [hdelivered, ← hbytes] at htakes
  rw [← hbytes] at hlen
  refine ⟨_, n, hlen, htakes, ?_, hnone, fun c q hq => ?_⟩
  · show (announcement m.packet.packetType m.body).getD r'.inChunkSize = _
    rw [htook.chunkSize, ha.chunkSize]
    rfl
  · rw [hout] at hq
    by_cases hc : c = (l.planned m).channel
    · subst hc
      rw [remember_self] at hq
      obtain rfl : l.planned m = q := Option.some.inj hq
      exact ⟨rfl, htook.kept, htook.stamp⟩
    · rw [remember_of_ne _ hc] at hq
      obtain ⟨hvec, hsame⟩ := htook.others c hc
      obtain ⟨hchan, ⟨q', hq', hkept⟩, hts⟩ := ha.channels c q hq
      exact ⟨hchan, ⟨q', hvec.trans hq', hkept⟩, hsame.trans hts⟩

end Step

/-- A session of messages that can be transported arrives whole: the receiver reads exactly the
messages sent, in order and with their timestamps, and nothing is left over. -/
theorem session_delivered {l : Link} {peer : Peer} (ha : Agrees l peer) {ms : List Message}
    (h : Runs.EveryStep (sendStep Link.send) Transportable l ms) :
    let stream := transmit Link.send l ms
    let reception := drain receive stream.length peer stream
    reception.delivered = ms.map Message.delivered ∧ reception.rest = [] ∧
      Agrees (ms.foldl (sendStep Link.send) l) reception.state := by
  intro stream reception
  have hstep (l : Link) (peer : Peer) (m : Message) (ha : Agrees l peer)
      (hm : Transportable l m) : ∃ peer' n, n ≤ (l.send m).2.length ∧
        Takes receive peer (l.send m).2 n peer' [m.delivered] ∧ Agrees (l.send m).1 peer' :=
    send_delivered ha hm
  obtain ⟨peer', n, hlen, htakes, hagrees⟩ :=
    session hstep ha h
  have hstop : receive peer' [] = none := rfl
  have hall : reception = ⟨peer', ms.map Message.delivered, []⟩ := htakes.drain hstop hlen
  rw [hall]
  exact ⟨rfl, rfl, hagrees⟩

def rtmpDefaultChunkSize : ℕ := 128

/-- The sender as `RTMP_Init` and `try_connect` set it up. -/
def Link.initial : Link where
  out := ⟨4096, fun _ => none, by decide⟩
  announced := rtmpDefaultChunkSize

def Peer.initial : Peer where
  r := ⟨rtmpDefaultChunkSize, fun _ => none, fun _ => 0⟩
  packet := {}

theorem agrees_initial : Agrees Link.initial Peer.initial :=
  ⟨rfl, rfl, fun _ _ h => nomatch h⟩

/-- The chunk size is announced, then a channel is used with a full and with a short header. -/
def sampleSession : List Message :=
  [Message.ofBody { channel := 2, packetType := rtmpPacketTypeChunkSize } (bigEndian 4 4096),
    Message.ofBody { channel := 4, packetType := 9, infoField2 := 1 } [23, 0],
    Message.ofBody
      { headerType := 1, channel := 4, packetType := 9, timeStamp := 33, infoField2 := 1 }
      [39, 1]]

theorem session_delivered_sample :
    let stream := transmit Link.send Link.initial sampleSession
    let reception := drain receive stream.length Peer.initial stream
    reception.delivered = sampleSession.map Message.delivered ∧ reception.rest = [] ∧
      Agrees (sampleSession.foldl (sendStep Link.send) Link.initial) reception.state := by
  refine session_delivered agrees_initial ?_
  refine Runs.everyStep_cons.mpr ⟨?_, Runs.everyStep_cons.mpr ⟨?_,
    Runs.everyStep_cons.mpr ⟨?_, Runs.everyStep_nil⟩⟩⟩
  · exact ⟨by decide, by decide, by decide, by decide, fun _ h => (nomatch h), by decide,
      by decide⟩
  · exact ⟨by decide, by decide, by decide, by decide, fun _ h => (nomatch h), by decide,
      by decide⟩
  · refine ⟨by decide, by decide, by decide, fun h => (nomatch h), fun prev h => ?_, by decide,
      by decide⟩
    obtain rfl := Option.some.inj h
    exact ⟨fun _ => rfl, fun h => absurd h (by decide), fun h => absurd h (by decide)⟩

end ObsBeacon.Rtmp.Chunk
