import ObsBeacon.Rtmp.ChunkSession

/-! Where the chunk code stays inside the blocks it writes to: the reader, whatever the server
sends it, and the buffer for a tunnelled post. -/
namespace ObsBeacon.Rtmp.Chunk
open Amf0

/-- The reader between two calls of `RTMP_ReadPacket`; it is closed when a call fails. -/
inductive Reader where
  | reading (peer : Peer)
  | closed
  | overflowed

/-- A call, on the bytes that are there for it to read. -/
def Reader.call : Reader → List UInt8 → Reader
  | .reading peer, bs =>
    match readPacket peer.r peer.packet bs with
    | .failed => .closed
    | .overflow => .overflowed
    | .chunk r packet _ => .reading (handled r packet).1
  | reader, _ => reader

/-- The header of a chunk gives a message that is not read to its end a body larger than the
block it has. -/
def grows (r : In) (bs : List UInt8) : Bool :=
  match readBasicHeader bs with
  | none => false
  | some (headerType, channel, rest) =>
    headerType = rtmpPacketSizeMedium &&
      ((r.vecChannelsIn channel).bind InPacket.body).any
        fun block => block.length < ofBigEndian ((rest.drop 3).take 3)

/-- A packet of a channel whose body fits the block it is read into. -/
structure InPacket.Fits (q : InPacket) (c : ℕ) : Prop where
  channel : q.channel = c ∧ 2 ≤ c ∧ c < 65600
  read : q.bytesRead ≤ q.bodySize
  block : ∀ block, q.body = some block → q.bodySize ≤ block.length

/-- What holds of a receiver between two calls. -/
structure Peer.Sound (peer : Peer) : Prop where
  body : peer.packet.body = none
  read : peer.packet.bytesRead ≤ peer.packet.bodySize
  channels : ∀ c q, peer.r.vecChannelsIn c = some q → q.Fits c

def Reader.Sound : Reader → Prop
  | .reading peer => peer.Sound
  | .closed => True
  | .overflowed => False

/-- Whether the next call is on a header that grows a message. -/
def Reader.grows : Reader → List UInt8 → Bool
  | .reading peer, bs => Chunk.grows peer.r bs
  | _, _ => false

section Fields
variable {r : In} {packet q q' : InPacket} {nSize headerType : ℕ} {extended : Bool}
  {bs rest : List UInt8}

theorem readBasicHeader_channel {channel : ℕ}
    (h : readBasicHeader bs = some (headerType, channel, rest)) :
    2 ≤ channel ∧ channel < 65600 := by
  cases bs with
  | nil => cases h
  | cons b bs =>
    rw [readBasicHeader] at h
    split_ifs at h with hone htwo
    · obtain ⟨⟨field, rest'⟩, hsplit, h⟩ := Option.map_eq_some_iff.mp h
      have hlt := ofBigEndian_lt field
      rw [split_length hsplit] at hlt
      simp only [Prod.mk.injEq] at h
      omega
    · obtain ⟨⟨field, rest'⟩, hsplit, h⟩ := Option.map_eq_some_iff.mp h
      have hlt := ofBigEndian_lt field.reverse
      rw [List.length_reverse, split_length hsplit] at hlt
      simp only [Prod.mk.injEq] at h
      omega
    · have hbits : (b &&& 0x3f).toNat < 64 := by
        rw [UInt8.toNat_and]
        exact Nat.lt_succ_of_le Nat.and_le_right
      simp only [Option.some.injEq, Prod.mk.injEq] at h
      omega

theorem withHeader_fields (nSize : ℕ) (header : List UInt8) (q : InPacket) :
    (withHeader nSize header q).body = q.body ∧
      (withHeader nSize header q).channel = q.channel ∧
      (withHeader nSize header q).bodySize =
        (if 6 ≤ nSize then ofBigEndian ((header.drop 3).take 3) else q.bodySize) ∧
      (withHeader nSize header q).bytesRead = (if 6 ≤ nSize then 0 else q.bytesRead) := by
  simp only [withHeader]
  split_ifs <;> exact ⟨rfl, rfl, rfl, rfl⟩

/-- A message header changes the size of a body only where it carries one. -/
theorem readMessageHeader_fields
    (h : readMessageHeader nSize q bs = some (q', extended, rest)) :
    q'.body = q.body ∧ q'.channel = q.channel ∧
      q'.bodySize = (if 6 ≤ nSize then ofBigEndian ((bs.drop 3).take 3) else q.bodySize) ∧
      q'.bytesRead = (if 6 ≤ nSize then 0 else q.bytesRead) := by
  obtain ⟨⟨header, bs'⟩, hsplit, h⟩ := Option.bind_eq_some_iff.mp h
  have hheader : header = bs.take nSize := by
    rw [split] at hsplit
    split_ifs at hsplit
    exact (Prod.mk.inj (Option.some.inj hsplit)).1.symm
  by_cases hthree : 3 ≤ nSize
  · have hsize : 6 ≤ nSize → (header.drop 3).take 3 = (bs.drop 3).take 3 := by
      intro hsix
      rw [hheader, List.drop_take, List.take_take]
      congr 1
      omega
    have hfields := withHeader_fields nSize header q
    have hsize' : (if 6 ≤ nSize then ofBigEndian ((header.drop 3).take 3) else q.bodySize) =
        if 6 ≤ nSize then ofBigEndian ((bs.drop 3).take 3) else q.bodySize := by
      by_cases hsix : 6 ≤ nSize
      · rw [hsize hsix]
      · rw [if_neg hsix, if_neg hsix]
    rw [hsize'] at hfields
    simp only [hthree, if_true] at h
    split_ifs at h with hext
    · obtain ⟨⟨stamp, rest'⟩, -, h⟩ := Option.map_eq_some_iff.mp h
      obtain ⟨rfl, -⟩ := Prod.mk.inj h
      exact hfields
    · obtain ⟨rfl, -⟩ := Prod.mk.inj (Option.some.inj h)
      exact hfields
  · simp only [hthree, if_false] at h
    obtain ⟨rfl, -⟩ := Prod.mk.inj (Option.some.inj h)
    have hsix : ¬ 6 ≤ nSize := by omega
    simp only [hsix, if_false, true_and]

theorem recall_fits (hr : ∀ c q, r.vecChannelsIn c = some q → q.Fits c)
    (hread : packet.bytesRead ≤ packet.bodySize) (hbody : packet.body = none) {channel : ℕ}
    (hchannel : 2 ≤ channel ∧ channel < 65600) :
    (recallPacket r packet headerType channel).Fits channel := by
  have hfresh :
      InPacket.Fits { packet with headerType := headerType, channel := channel } channel := by
    refine ⟨⟨rfl, hchannel⟩, hread, fun block h => ?_⟩
    rw [hbody] at h
    cases h
  rw [recallPacket]
  split_ifs
  · exact ⟨hfresh.channel, hfresh.read, hfresh.block⟩
  · cases hq : r.vecChannelsIn channel with
    | none => exact hfresh
    | some q => exact hr channel q hq

/-- Only a packet that the channel keeps has a block when its header is read. -/
theorem recall_body (hbody : packet.body = none) {channel : ℕ} {block : List UInt8}
    (h : (recallPacket r packet headerType channel).body = some block) :
    packetSize headerType ≠ 12 ∧
      ∃ q, r.vecChannelsIn channel = some q ∧ q.body = some block := by
  rw [recallPacket] at h
  split_ifs at h with hlarge
  · rw [hbody] at h
    cases h
  · refine ⟨hlarge, ?_⟩
    cases hq : r.vecChannelsIn channel with
    | none =>
      rw [hq, Option.getD_none, hbody] at h
      cases h
    | some q =>
      rw [hq, Option.getD_some] at h
      exact ⟨q, rfl, h⟩

theorem allocate_fits {c : ℕ} (hq : q.Fits c) (headerType : ℕ) :
    (allocate headerType q).Fits c ∧
      (allocate headerType q).bodySize ≤ ((allocate headerType q).body.getD []).length := by
  rw [allocate]
  split_ifs with hnew
  · refine ⟨⟨hq.channel, Nat.zero_le _, fun block h => ?_⟩, ?_⟩
    · rw [← Option.some.inj h, List.length_replicate]
    · rw [Option.getD_some, List.length_replicate]
  · refine ⟨hq, ?_⟩
    cases hbody : q.body with
    | none =>
      have hzero : ¬ 0 < q.bodySize := fun h => hnew ⟨h, hbody⟩
      omega
    | some block => exact hq.block block hbody

theorem finish_fits (hr : ∀ c q, r.vecChannelsIn c = some q → q.Fits c) {c : ℕ} (hq : q.Fits c)
    (extended : Bool) :
    (∀ c q', (finish r q extended).1.vecChannelsIn c = some q' → q'.Fits c) ∧
      (finish r q extended).2.bytesRead ≤ (finish r q extended).2.bodySize ∧
      (isReady (finish r q extended).2 = false → (finish r q extended).2.body = none) := by
  have hreset : (kept q extended).reset.Fits c :=
    ⟨hq.channel, Nat.zero_le _, fun block h => nomatch h⟩
  have hkept : (kept q extended).Fits c := ⟨hq.channel, hq.read, hq.block⟩
  have hupdate (q₀ : InPacket) (hq₀ : q₀.Fits c) (c' : ℕ) (q' : InPacket)
      (h : Function.update r.vecChannelsIn q.channel (some q₀) c' = some q') : q'.Fits c' := by
    rw [hq.channel.1] at h
    by_cases hc : c' = c
    · subst hc
      rw [Function.update_self] at h
      exact Option.some.inj h ▸ hq₀
    · rw [Function.update_of_ne hc] at h
      exact hr c' q' h
  by_cases hready : isReady q = true
  · simp only [finish, hready, if_true]
    exact ⟨hupdate _ hreset, hq.read, fun h => absurd (hready.symm.trans h) (by decide)⟩
  · simp only [finish, hready]
    exact ⟨hupdate _ hkept, hq.read, fun _ => rfl⟩

theorem length_store {mem data : List UInt8} {offset : ℕ}
    (h : offset + data.length ≤ mem.length) : (store mem offset data).length = mem.length := by
  rw [store, List.length_append, List.length_append, List.length_take, List.length_drop]
  omega

/-- A packet that fits its block is read without a store past the end, and what is kept of it
fits again. -/
theorem readBody_fits (hr : ∀ c q, r.vecChannelsIn c = some q → q.Fits c) {c : ℕ}
    (hq : q.Fits c) (headerType : ℕ) (extended : Bool) (bs : List UInt8) :
    readBody r headerType q extended bs = .failed ∨
      ∃ r' packet' rest', readBody r headerType q extended bs = .chunk r' packet' rest' ∧
        (∀ c q, r'.vecChannelsIn c = some q → q.Fits c) ∧
          packet'.bytesRead ≤ packet'.bodySize ∧
          (isReady packet' = false → packet'.body = none) := by
  obtain ⟨hfits, hroom⟩ := allocate_fits hq headerType
  have hread := hfits.read
  have hchunk : (chunkLength r (allocate headerType q)).toNat ≤
      (allocate headerType q).bodySize - (allocate headerType q).bytesRead := by
    rw [chunkLength]
    omega
  have hstay : ¬ ((allocate headerType q).body.getD []).length <
      (allocate headerType q).bytesRead +
        min (chunkLength r (allocate headerType q)).toNat bs.length := by omega
  simp only [readBody, if_neg hstay]
  by_cases hneg : chunkLength r (allocate headerType q) < 0
  · exact .inl (if_pos hneg)
  rw [if_neg hneg]
  cases hsplit : split (chunkLength r (allocate headerType q)).toNat bs with
  | none => exact .inl rfl
  | some data =>
    have hdata := split_length hsplit
    let q' : InPacket :=
      { allocate headerType q with
        body := (allocate headerType q).body.map
          fun block => store block (allocate headerType q).bytesRead data.1
        bytesRead := (allocate headerType q).bytesRead +
          (chunkLength r (allocate headerType q)).toNat }
    have hq' : q'.Fits c := by
      refine ⟨hfits.channel, ?_, fun block h => ?_⟩
      · show (allocate headerType q).bytesRead + _ ≤ (allocate headerType q).bodySize
        omega
      · obtain ⟨block', hblock', rfl⟩ := Option.map_eq_some_iff.mp h
        have hlen := hfits.block block' hblock'
        rw [length_store (by omega)]
        exact hlen
    exact .inr ⟨_, _, _, rfl, finish_fits hr hq' extended⟩

end Fields

/-- Of the headers with a body size in them, only the medium one refers to the last packet. -/
theorem medium_of_size {headerType : ℕ} (hsize : 6 ≤ packetSize headerType - 1)
    (hlarge : packetSize headerType ≠ 12) : headerType = rtmpPacketSizeMedium := by
  obtain h | h | h | h | h : headerType = 0 ∨ headerType = 1 ∨ headerType = 2 ∨ headerType = 3 ∨
    4 ≤ headerType := by omega
  · exact absurd (by rw [h]; rfl) hlarge
  · exact h
  · rw [h] at hsize
    exact absurd hsize (by decide)
  · rw [h] at hsize
    exact absurd hsize (by decide)
  · have hnone : packetSize headerType = 0 := by
      rw [packetSize, List.getD_eq_getElem?_getD, List.getElem?_eq_none h, Option.getD_none]
    omega

theorem handled_sound {r : In} {packet : InPacket}
    (hr : ∀ c q, r.vecChannelsIn c = some q → q.Fits c) (hread : packet.bytesRead ≤ packet.bodySize)
    (hbody : isReady packet = false → packet.body = none) : (handled r packet).1.Sound := by
  rw [handled]
  split_ifs with hready
  · exact ⟨rfl, hread, hr⟩
  · exact ⟨hbody (by simpa using hready), hread, hr⟩

/-- A call on a header that grows no message stays inside the blocks. -/
theorem call_sound (reader : Reader) (bs : List UInt8) (h : reader.Sound)
    (hgrows : reader.grows bs = false) : (reader.call bs).Sound := by
  cases reader with
  | closed => trivial
  | overflowed => exact h
  | reading peer =>
    rw [Reader.call, readPacket]
    cases hbasic : readBasicHeader bs with
    | none => trivial
    | some basic =>
      obtain ⟨headerType, channel, rest⟩ := basic
      cases hheader : readMessageHeader (packetSize headerType - 1)
          (recallPacket peer.r peer.packet headerType channel) rest with
      | none => simp only [hheader]; trivial
      | some message =>
        obtain ⟨q, extended, rest'⟩ := message
        simp only [hheader]
        have hrecall : (recallPacket peer.r peer.packet headerType channel).Fits channel :=
          recall_fits h.channels h.read h.body (readBasicHeader_channel hbasic)
        obtain ⟨hbody, hchannel, hsize, hread⟩ := readMessageHeader_fields hheader
        have hfits : q.Fits channel := by
          by_cases hsix : 6 ≤ packetSize headerType - 1
          · rw [if_pos hsix] at hsize hread
            refine ⟨hchannel ▸ hrecall.channel, hread ▸ Nat.zero_le _, fun block hblock => ?_⟩
            rw [hbody] at hblock
            obtain ⟨hlarge, q₀, hq₀, hblock₀⟩ := recall_body h.body hblock
            have hmedium := medium_of_size hsix hlarge
            simp only [Reader.grows, grows, hbasic, hmedium, hq₀, hblock₀, Option.bind_some,
              Option.any_some, decide_true, Bool.true_and, decide_eq_false_iff_not] at hgrows
            rw [hsize]
            exact Nat.not_lt.mp hgrows
          · rw [if_neg hsix] at hsize hread
            refine ⟨hchannel ▸ hrecall.channel, ?_, fun block hblock => ?_⟩
            · rw [hread, hsize]
              exact hrecall.read
            · rw [hsize]
              exact hrecall.block block (hbody ▸ hblock)
        have hread := readBody_fits h.channels hfits headerType extended rest'
        rcases hread with hfailed | ⟨r', packet', rest'', hchunk, hr', hread', hbody'⟩
        · rw [hfailed]
          trivial
        · rw [hchunk]
          exact handled_sound hr' hread' hbody'

theorem sound_initial : Peer.initial.Sound :=
  ⟨rfl, Nat.le_refl 0, fun _ _ h => nomatch h⟩

/-- Whatever a server sends, the reader stores nothing past the end of a block as long as no
header grows a message that is not read to its end. -/
theorem reads_inBounds {peer : Peer} (h : peer.Sound) {inputs : List (List UInt8)}
    (hq : Runs.EveryStep Reader.call (fun reader bs => reader.grows bs = false) (.reading peer) inputs) :
    Runs.Always Reader.call (fun reader => reader ≠ .overflowed) (.reading peer) inputs := by
  have hsound : (Reader.reading peer).Sound := h
  refine (Runs.always_of_everyStep call_sound hsound hq).mono fun reader hs => ?_
  rintro rfl
  exact hs

/-- A receiver that has the first four bytes of a message of six. -/
def Peer.halfway : Peer where
  r :=
    { inChunkSize := 4
      vecChannelsIn := Function.update (fun _ => none) 3
        (some { channel := 3, bodySize := 6, bytesRead := 4, body := some [1, 2, 3, 4, 0, 0] })
      channelTimestamp := fun _ => 0 }
  packet := {}

theorem sound_halfway : Peer.halfway.Sound := by
  refine ⟨rfl, Nat.le_refl 0, fun c q h => ?_⟩
  by_cases hc : c = 3
  · subst hc
    obtain rfl := Option.some.inj h
    refine ⟨by decide, by decide, fun block hblock => ?_⟩
    obtain rfl := Option.some.inj hblock
    decide
  · simp [Peer.halfway, Function.update_of_ne hc] at h

/-- The message is read to its end, then a medium header starts another on the channel. -/
theorem reads_inBounds_halfway :
    Runs.Always Reader.call (fun reader => reader ≠ .overflowed) (.reading Peer.halfway)
      [[0xc3, 5, 6], [0x43, 0, 0, 0, 0, 0, 8, 9, 1, 2, 3, 4]] := by
  refine reads_inBounds sound_halfway (Runs.everyStep_cons.mpr ⟨by decide, ?_⟩)
  exact Runs.everyStep_cons.mpr ⟨by decide, Runs.everyStep_nil⟩

/-- A message of the largest size that is being read into a block of `len` bytes. -/
structure Flooding (q : InPacket) (c k len : ℕ) : Prop where
  channel : q.channel = c
  bodySize : q.bodySize = 0xffffff
  bytesRead : q.bytesRead = k
  block : ∃ block, q.body = some block ∧ block.length = len

section Flood
variable {r : In} {packet q : InPacket} {c k len : ℕ}

/-- A chunk of such a message overflows the block or fills it further. -/
theorem readBody_flooding (hq : Flooding q c k len) (hlen : len < 0xffffff) (hk : k ≤ len)
    (hsize : 0 < r.inChunkSize) (headerType : ℕ) :
    ∃ bs, readBody r headerType q false bs = .overflow ∨
      ∃ r' packet' q' k', readBody r headerType q false bs = .chunk r' packet' [] ∧
        r'.inChunkSize = r.inChunkSize ∧ isReady packet' = false ∧ r'.vecChannelsIn c = some q' ∧
        Flooding q' c k' len ∧ k < k' ∧ k' ≤ len := by
  obtain ⟨hchannel, hbody, hread, block, hblock, hblockLen⟩ := hq
  have hold : allocate headerType q = q := by
    rw [allocate, if_neg fun h => by rw [hblock] at h; cases h.2]
  have hn : chunkLength r q = min (0xffffff - k : ℤ) r.inChunkSize := by
    rw [chunkLength, hbody, hread]
    rfl
  have hpos : 0 < (chunkLength r q).toNat := by omega
  refine ⟨List.replicate (chunkLength r q).toNat 0, ?_⟩
  have hsplit := split_append
    (List.length_replicate (n := (chunkLength r q).toNat) (a := (0 : UInt8))) []
  rw [List.append_nil] at hsplit
  simp only [readBody, hold, hblock, Option.getD_some, hread, hblockLen, List.length_replicate,
    Nat.min_self, hsplit, Option.map_some]
  rw [if_neg (by omega)]
  by_cases hover : len < k + (chunkLength r q).toNat
  · exact .inl (if_pos hover)
  · let q' : InPacket :=
      { q with
        bytesRead := k + (chunkLength r q).toNat
        body := some (store block k (List.replicate (chunkLength r q).toNat 0)) }
    have hready : isReady q' = false := by
      show decide (k + (chunkLength r q).toNat = q.bodySize) = false
      rw [decide_eq_false_iff_not]
      omega
    rw [if_neg hover, finish_unready hready]
    refine .inr ⟨_, _, q', k + (chunkLength r q).toNat, rfl, rfl, hready, ?_, ?_, by omega,
      by omega⟩
    · rw [← hchannel]
      exact Function.update_self _ _ _
    · refine ⟨hchannel, hbody, rfl, _, rfl, ?_⟩
      rw [length_store (by rw [List.length_replicate]; omega), hblockLen]

/-- A medium header starts such a message on top of one that has a block. -/
theorem readPacket_flooding (hlow : 2 ≤ c) (hhigh : c < 65600) (hkept : r.vecChannelsIn c = some q)
    (hchannel : q.channel = c) {block : List UInt8} (hblock : q.body = some block)
    (packet : InPacket) :
    ∃ header q', Flooding q' c 0 block.length ∧ ∀ bs, readPacket r packet (header ++ bs) =
      readBody r rtmpPacketSizeMedium q' false bs := by
  let fields : List UInt8 := [0, 0, 0] ++ (bigEndian 3 0xffffff ++ [0])
  have hlargest : ofBigEndian (bigEndian 3 0xffffff) = 0xffffff :=
    ofBigEndian_bigEndian (by decide)
  obtain ⟨hbody, hchannel', hsize, hread⟩ := withHeader_fields 7 fields q
  have hsize' : (withHeader 7 fields q).bodySize = 0xffffff := hsize.trans hlargest
  have hrecall : recallPacket r packet rtmpPacketSizeMedium c = q := by
    rw [recallPacket, if_neg (by decide), hkept, Option.getD_some]
  refine ⟨firstByte rtmpPacketSizeMedium c :: channelBytes c ++ fields,
    withHeader 7 fields q, ⟨hchannel'.trans hchannel, hsize', hread, block, hbody.trans hblock, rfl⟩,
    fun bs => ?_⟩
  have hbasic := readBasicHeader_firstByte (show rtmpPacketSizeMedium ≤ 3 by decide) hlow hhigh
    (fields ++ bs)
  have hsplit : split 7 (fields ++ bs) = some (fields, bs) := split_append rfl bs
  have hheader : readMessageHeader (packetSize rtmpPacketSizeMedium - 1) q (fields ++ bs) =
      some (withHeader 7 fields q, false, bs) := by
    show (split 7 (fields ++ bs)).bind _ = _
    rw [hsplit]
    rfl
  rw [List.append_assoc, readPacket, hbasic]
  simp only [hrecall, hheader]

theorem call_chunk {bs : List UInt8} {r' : In} {packet' : InPacket}
    (hread : readPacket r packet bs = .chunk r' packet' []) (hready : isReady packet' = false) :
    (Reader.reading ⟨r, packet⟩).call bs = .reading ⟨r', packet'⟩ := by
  simp only [Reader.call, hread, handled, hready]
  rfl

theorem call_overflow {bs : List UInt8} (hread : readPacket r packet bs = .overflow) :
    (Reader.reading ⟨r, packet⟩).call bs = .overflowed := by
  simp only [Reader.call, hread]

/-- Chunk after chunk, such a message gets past the end of its block. -/
theorem flood (packet : InPacket) (hlow : 2 ≤ c) (hhigh : c < 65600) (hlen : len < 0xffffff)
    (hkept : r.vecChannelsIn c = some q) (hq : Flooding q c k len) (hk : k ≤ len)
    (hsize : 0 < r.inChunkSize) :
    ∃ inputs : List (List UInt8),
      inputs.foldl Reader.call (.reading ⟨r, packet⟩) = .overflowed := by
  induction hleft : len - k using Nat.strong_induction_on generalizing r packet q k with
  | _ left ih =>
    obtain ⟨bs, hover | ⟨r', packet', q', k', hchunk, hsize', hready, hkept', hq', hmore, hk'⟩⟩ :=
      readBody_flooding hq hlen hk hsize rtmpPacketSizeMinimum
    · refine ⟨[firstByte rtmpPacketSizeMinimum c :: channelBytes c ++ bs], call_overflow ?_⟩
      rw [readPacket_minimum hlow hhigh hkept, hover]
    · obtain ⟨inputs, hinputs⟩ := ih (len - k') (by omega) packet' hkept' hq' hk' (hsize' ▸ hsize) rfl
      refine ⟨(firstByte rtmpPacketSizeMinimum c :: channelBytes c ++ bs) :: inputs, ?_⟩
      rw [List.foldl_cons, call_chunk _ hready, hinputs]
      rw [readPacket_minimum hlow hhigh hkept, hchunk]

end Flood

/-- From any state in which a message of less than 2^24 - 1 bytes is not read to its end, there is
input on which the reader stores past the end of its block. -/
theorem reads_overflow {peer : Peer} (h : peer.Sound) {c : ℕ} {q : InPacket}
    (hkept : peer.r.vecChannelsIn c = some q) {block : List UInt8} (hblock : q.body = some block)
    (hlen : block.length < 0xffffff) (hsize : 0 < peer.r.inChunkSize) :
    ∃ inputs : List (List UInt8), inputs.foldl Reader.call (.reading peer) = .overflowed := by
  obtain ⟨⟨hchannel, hlow, hhigh⟩, -, -⟩ := h.channels c q hkept
  obtain ⟨header, q', hq', hread⟩ :=
    readPacket_flooding hlow hhigh hkept hchannel hblock peer.packet
  obtain ⟨bs, hover | ⟨r', packet', q'', k, hchunk, hsize', hready, hkept', hq'', -, hk⟩⟩ :=
    readBody_flooding hq' hlen (Nat.zero_le _) hsize rtmpPacketSizeMedium
  · exact ⟨[header ++ bs], call_overflow ((hread bs).trans hover)⟩
  · obtain ⟨inputs, hinputs⟩ :=
      flood packet' hlow hhigh hlen hkept' hq'' hk (hsize' ▸ hsize)
    refine ⟨(header ++ bs) :: inputs, ?_⟩
    rw [List.foldl_cons, call_chunk ((hread bs).trans hchunk) hready, hinputs]

theorem reads_overflow_halfway : ∃ inputs : List (List UInt8),
    inputs.foldl Reader.call (.reading Peer.halfway) = .overflowed :=
  reads_overflow sound_halfway (c := 3) rfl rfl (by decide) (by decide)

/-- `tlen`: the size of the buffer that `RTMP_SendPacket` collects the chunks of a message in, where
they are to be posted in one request. -/
def tlen (r : Out) (p : Packet) : ℕ :=
  (p.bodySize + r.outChunkSize - 1) / r.outChunkSize * (channelSize p.channel + 1) + p.bodySize +
    (firstHeader p).length

/-- Every chunk but the first adds a header of the common size to the body. -/
theorem length_chunks {chunkSize : ℕ} (hpos : 0 < chunkSize) {next : List UInt8} (fuel : ℕ)
    {header body : List UInt8} (hfuel : body.length < fuel) :
    (chunks chunkSize next fuel header body).flatten.length =
      header.length + body.length + (body.length - 1) / chunkSize * next.length := by
  induction fuel generalizing header body with
  | zero => omega
  | succ fuel ih =>
    rw [chunks]
    split_ifs with hlast
    · have hone : (body.length - 1) / chunkSize = 0 := Nat.div_eq_of_lt (by omega)
      rw [List.flatten_singleton, List.length_append, hone, Nat.zero_mul, Nat.add_zero]
    · have hmore : (body.length - 1) / chunkSize = (body.length - chunkSize - 1) / chunkSize + 1 := by
        rw [← Nat.add_div_right _ hpos]
        congr 1
        omega
      rw [List.flatten_cons, List.length_append, List.length_append, List.length_take,
        ih (by rw [List.length_drop]; omega), List.length_drop, hmore, Nat.add_mul]
      omega

/-- The buffer for a post of more than one chunk holds them exactly when the timestamp needs no
extended field: the field is there once for the first chunk only. -/
theorem tunnel_fits_iff (r : Out) {m : Message}
    (htype : m.packet.headerType ≤ rtmpPacketSizeMinimum)
    (hmany : r.outChunkSize < m.packet.bodySize) :
    let p := planned (r.vecChannelsOut m.packet.channel) m.packet
    (sendPacket r m).writes.flatten.length ≤ tlen r p ↔ p.lastWireTimeStamp < 0xffffff := by
  intro p
  have hpos := r.chunk_pos
  have hsize : p.bodySize = m.packet.bodySize := planned_bodySize _ _
  have hchannel := channelSize_le p.channel
  let k := (m.packet.bodySize - 1) / r.outChunkSize
  have hk : 1 ≤ k := (Nat.one_le_div_iff hpos).mpr (by omega)
  have hceil : (m.packet.bodySize + r.outChunkSize - 1) / r.outChunkSize = k + 1 := by
    rw [← Nat.add_div_right _ hpos]
    congr 1
    omega
  have hlen : (sendPacket r m).writes.flatten.length =
      (firstHeader p).length + m.packet.bodySize + k * (nextHeader p).length := by
    rw [sendPacket_writes r m (planned_headerType htype _),
      length_chunks hpos _ (by rw [length_body]; omega), length_body]
  rw [hlen, tlen, hsize, hceil, length_nextHeader, UInt32.lt_iff_toNat_lt]
  show _ ↔ p.lastWireTimeStamp.toNat < 0xffffff
  split_ifs with hext
  · have hmul : k * (1 + channelSize p.channel + 4) =
        k * (channelSize p.channel + 1) + k * 4 := by ring
    rw [hmul, Nat.add_mul]
    omega
  · have hmul : k * (1 + channelSize p.channel + 0) = k * (channelSize p.channel + 1) := by ring
    rw [hmul, Nat.add_mul]
    omega

theorem tunnel_fits_iff_late :
    let m := Message.ofBody { channel := 4, timeStamp := 0x1000000 } [1, 2, 3, 4, 5, 6]
    let r : Out := ⟨4, fun _ => none, by decide⟩
    let p := planned (r.vecChannelsOut m.packet.channel) m.packet
    (sendPacket r m).writes.flatten.length ≤ tlen r p ↔ p.lastWireTimeStamp < 0xffffff :=
  tunnel_fits_iff _ (by decide) (by decide)

end ObsBeacon.Rtmp.Chunk
