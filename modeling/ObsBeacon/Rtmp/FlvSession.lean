import ObsBeacon.Rtmp.FlvMux
import ObsBeacon.Rtmp.Write

/-! What `rtmp-stream.c` sends of a stream: headers, frames and footers as FLV tags, written to
the connection one after the other, up to what the server makes of them. -/
namespace ObsBeacon.Rtmp
open Amf0 Flv Transport Chunk

/-- The codecs of the tracks, as `init_connect` sets them. -/
structure Codecs where
  video : ℕ → VideoId
  audio : ℕ → AudioId

/-- The tag that `send_packet` writes. -/
def sendPacketTag (dtsOffset : ℤ) (packet : EncoderPacket) (isHeader : Bool) : List UInt8 :=
  flvPacketMux packet (if isHeader then 0 else dtsOffset) isHeader

/-- The tag that `send_packet_ex` writes. -/
def sendPacketExTag (codecs : Codecs) (dtsOffset : ℤ) (packet : EncoderPacket)
    (isHeader isFooter : Bool) (idx : ℕ) : List UInt8 :=
  if isHeader then flvPacketStart packet (codecs.video idx) idx
  else if isFooter then flvPacketEnd packet (codecs.video idx) idx
  else flvPacketFrames packet (codecs.video idx) dtsOffset idx

/-- The tag that `send_audio_packet_ex` writes. -/
def sendAudioPacketExTag (codecs : Codecs) (dtsOffset : ℤ) (packet : EncoderPacket)
    (isHeader : Bool) (idx : ℕ) : Option (List UInt8) :=
  if isHeader then flvPacketAudioStart packet (codecs.audio idx) idx
  else flvPacketAudioFrames packet (codecs.audio idx) dtsOffset idx

/-- The packet that `send_audio_header` and `send_video_header` make of the extra data of an
encoder, and `send_video_footer` of nothing. -/
def madePacket (type : EncoderType) (keyframe : Bool) (extra : Option (List UInt8)) :
    EncoderPacket where
  data := extra
  size := (extra.getD []).length
  type := type
  keyframe := keyframe
  pts := 0
  dts := 0
  timebaseNum := 0
  timebaseDen := 1
  dtsUsec := 0
  sysDtsUsec := 0
  priority := 0
  dropPriority := 0
  trackIdx := 0
  data_size := by simp +contextual

/-- What is sent of a stream, a piece at a time. -/
inductive Send where
  | audioHeader (idx : ℕ) (extra : List UInt8)
  | videoHeader (idx : ℕ) (extra : List UInt8)
  | packet (packet : EncoderPacket)
  | footer (idx : ℕ)

/-- The tag of a piece: the first audio track and an H.264 video track in its place have the old
format, every other track the enhanced one. It is `none` where the pointer to the tag, which is
freed behind the write, was never set. -/
def Send.tag (codecs : Codecs) (dtsOffset : ℤ) : Send → Option (List UInt8)
  | .audioHeader idx extra =>
    let packet := madePacket .audio false (some extra)
    if idx = 0 then some (sendPacketTag dtsOffset packet true)
    else sendAudioPacketExTag codecs dtsOffset packet true idx
  | .videoHeader idx extra =>
    let packet := madePacket .video true (some extra)
    if codecs.video idx = .h264 ∧ idx = 0 then some (sendPacketTag dtsOffset packet true)
    else some (sendPacketExTag codecs dtsOffset packet true false idx)
  | .packet pkt =>
    if pkt.type = .video ∧ (codecs.video pkt.trackIdx ≠ .h264 ∨
        codecs.video pkt.trackIdx = .h264 ∧ pkt.trackIdx ≠ 0) then
      some (sendPacketExTag codecs dtsOffset pkt false false pkt.trackIdx)
    else if pkt.type = .audio ∧ pkt.trackIdx ≠ 0 then
      sendAudioPacketExTag codecs dtsOffset pkt false pkt.trackIdx
    else some (sendPacketTag dtsOffset pkt false)
  | .footer idx =>
    some (sendPacketExTag codecs dtsOffset (madePacket .video false none) false true idx)

/-- An empty packet of an audio track behind the first one. -/
def Send.Unset : Send → Prop
  | .audioHeader idx extra => idx ≠ 0 ∧ extra = []
  | .packet pkt => pkt.type = .audio ∧ pkt.trackIdx ≠ 0 ∧ (pkt.data = none ∨ pkt.size = 0)
  | _ => False

/-- The old format has no tag for an empty payload. -/
def nonEmpty (frame : Frame) : Option Frame := if frame.payload = [] then none else some frame

/-- What a piece of the stream is meant to say. -/
def Send.frame (codecs : Codecs) (dtsOffset : ℤ) : Send → Option Frame
  | .audioHeader idx extra => nonEmpty ⟨audioTag, 0, .start, false, mp4a, idx, 0, extra⟩
  | .videoHeader idx extra =>
    let frame : Frame := ⟨videoTag, 0, .start, true, videoFourcc (codecs.video idx), idx, 0, extra⟩
    if codecs.video idx = .h264 ∧ idx = 0 then nonEmpty frame else some frame
  | .packet pkt =>
    let timestamp := wireTime (frameTime dtsOffset pkt)
    let payload := pkt.data.getD []
    let codec := codecs.video pkt.trackIdx
    match pkt.type with
    | .audio => nonEmpty ⟨audioTag, timestamp, .coded, false, mp4a, pkt.trackIdx, 0, payload⟩
    | .video =>
      let frame : Frame := ⟨videoTag, timestamp, .coded, pkt.keyframe, videoFourcc codec,
        pkt.trackIdx, if codec = .h264 then ctOffset pkt else 0, payload⟩
      if codec = .h264 ∧ pkt.trackIdx = 0 then nonEmpty frame else some frame
  | .footer idx =>
    some ⟨videoTag, 0, .stop, false, videoFourcc (codecs.video idx), idx, 0, []⟩

def Codecs.VideoTrack (codecs : Codecs) (idx : ℕ) : Prop :=
  idx < 256 ∧ (codecs.video idx = .h264 ∨ codecs.video idx = .av1)

def Codecs.AudioTrack (codecs : Codecs) (idx : ℕ) : Prop :=
  idx < 256 ∧ codecs.audio idx = .aac

/-- The track of a piece has a codec, the piece fits the fields of a tag, and in the enhanced
format no audio is empty. -/
def Send.Fits (codecs : Codecs) : Send → Prop
  | .audioHeader idx extra =>
    codecs.AudioTrack idx ∧ (idx ≠ 0 → extra ≠ []) ∧ extra.length + 10 < 2 ^ 24
  | .videoHeader idx extra => codecs.VideoTrack idx ∧ extra.length + 10 < 2 ^ 24
  | .packet pkt =>
    pkt.size = (pkt.data.getD []).length ∧ pkt.size + 10 < 2 ^ 24 ∧
      (pkt.type = .audio → codecs.AudioTrack pkt.trackIdx ∧ (pkt.trackIdx ≠ 0 → pkt.size ≠ 0)) ∧
      (pkt.type = .video → codecs.VideoTrack pkt.trackIdx ∧ OffsetFits pkt)
  | .footer idx => codecs.VideoTrack idx

/-- A piece that says nothing has an empty tag; the tag of any other carries its frame. -/
def Send.Means (codecs : Codecs) (dtsOffset : ℤ) (send : Send) : Prop :=
  match send.frame codecs dtsOffset with
  | none => send.tag codecs dtsOffset = some []
  | some frame =>
    (∃ bytes, send.tag codecs dtsOffset = some bytes ∧ Carries bytes frame) ∧
      frame.payload.length + 10 < 2 ^ 24

theorem ctOffset_madePacket (type : EncoderType) (keyframe : Bool) (extra : Option (List UInt8)) :
    ctOffset (madePacket type keyframe extra) = 0 := Int.sub_self _

theorem frameTime_madePacket (type : EncoderType) (keyframe : Bool)
    (extra : Option (List UInt8)) : frameTime 0 (madePacket type keyframe extra) = 0 := by
  rw [frameTime, getMsTime, madePacket]
  rfl

section Pieces
variable {codecs : Codecs} {dtsOffset : ℤ}

/-- When a tag is left unset. -/
theorem tag_eq_none_iff {send : Send} : send.tag codecs dtsOffset = none ↔ send.Unset := by
  cases send with
  | audioHeader idx extra =>
    by_cases hzero : idx = 0
    · simp [Send.tag, Send.Unset, hzero]
    · simp [Send.tag, Send.Unset, hzero, sendAudioPacketExTag, flvPacketAudioStart,
        flvPacketAudioEx, madePacket]
  | videoHeader idx extra =>
    simp only [Send.tag, Send.Unset]
    split_ifs <;> simp
  | packet pkt =>
    cases htype : pkt.type with
    | video =>
      simp only [Send.tag, Send.Unset, htype]
      split_ifs <;> simp_all
    | audio =>
      by_cases hzero : pkt.trackIdx = 0
      · simp [Send.tag, Send.Unset, htype, hzero]
      · simp [Send.tag, Send.Unset, htype, hzero, sendAudioPacketExTag, flvPacketAudioFrames,
          flvPacketAudioEx, or_iff_not_imp_left]
  | footer idx => simp [Send.tag, Send.Unset]

theorem means_audioHeader {idx : ℕ} {extra : List UInt8}
    (h : (Send.audioHeader idx extra).Fits codecs) :
    (Send.audioHeader idx extra).Means codecs dtsOffset := by
  obtain ⟨⟨hidx, hcodec⟩, hset, hsize⟩ := h
  let packet := madePacket .audio false (some extra)
  have htime : wireTime (frameTime 0 packet) = 0 :=
    congrArg wireTime (frameTime_madePacket _ _ _)
  by_cases hne : extra = []
  · subst hne
    obtain rfl : idx = 0 := not_not.mp fun hne => hset hne rfl
    simp only [Send.Means, Send.frame, nonEmpty, if_true, Send.tag]
    rfl
  · simp only [Send.Means, Send.frame, nonEmpty, hne, if_false, Send.tag]
    refine ⟨?_, hsize⟩
    split_ifs with hzero
    · subst hzero
      have hcarries := flvAudio_carries 0 (show packet.data = some extra from rfl) hne true
      rw [htime] at hcarries
      exact ⟨_, rfl, hcarries⟩
    · have hcarries := flvPacketAudioEx_carries 0 (show packet.data = some extra from rfl) hne
        (show seqStart < 2 by decide) hidx
      rw [htime] at hcarries
      simp only [sendAudioPacketExTag, flvPacketAudioStart, hcodec, if_true]
      exact hcarries

theorem means_videoHeader {idx : ℕ} {extra : List UInt8}
    (h : (Send.videoHeader idx extra).Fits codecs) :
    (Send.videoHeader idx extra).Means codecs dtsOffset := by
  obtain ⟨⟨hidx, hcodec⟩, hsize⟩ := h
  let packet := madePacket .video true (some extra)
  have htime : wireTime (frameTime 0 packet) = 0 :=
    congrArg wireTime (frameTime_madePacket _ _ _)
  have hzero : ctOffset packet = 0 := ctOffset_madePacket _ _ _
  have hoffset : OffsetFits packet := by
    rw [OffsetFits, hzero]
    decide
  by_cases hplain : codecs.video idx = .h264 ∧ idx = 0
  · obtain ⟨hh264, rfl⟩ := hplain
    by_cases hne : extra = []
    · subst hne
      simp only [Send.Means, Send.frame, nonEmpty, hh264, and_self, if_true, Send.tag]
      rfl
    · have hcarries := flvVideo_carries 0 (show packet.data = some extra from rfl) hne hoffset true
      rw [htime, hzero] at hcarries
      simp only [Send.Means, Send.frame, nonEmpty, hh264, and_self, if_true, hne, if_false,
        Send.tag]
      exact ⟨⟨_, rfl, hcarries⟩, hsize⟩
  · have hcarries := flvPacketEx_carries 0 hcodec (show packet.size = (packet.data.getD []).length
      from rfl) hoffset (show seqStart < 4 by decide) hidx
    rw [htime, hzero, ite_self] at hcarries
    simp only [Send.Means, Send.frame, hplain, if_false, Send.tag]
    exact ⟨⟨_, rfl, hcarries⟩, hsize⟩

theorem means_footer {idx : ℕ} (h : (Send.footer idx).Fits codecs) :
    (Send.footer idx).Means codecs dtsOffset := by
  obtain ⟨hidx, hcodec⟩ := h
  let packet := madePacket .video false none
  have htime : wireTime (frameTime 0 packet) = 0 :=
    congrArg wireTime (frameTime_madePacket _ _ _)
  have hzero : ctOffset packet = 0 := ctOffset_madePacket _ _ _
  have hoffset : OffsetFits packet := by
    rw [OffsetFits, hzero]
    decide
  have hcarries := flvPacketEx_carries 0 hcodec (show packet.size = (packet.data.getD []).length
    from rfl) hoffset (show seqEnd < 4 by decide) hidx
  rw [htime, hzero, ite_self] at hcarries
  have hempty : ([] : List UInt8).length + 10 < 2 ^ 24 := by decide
  exact ⟨⟨_, rfl, hcarries⟩, hempty⟩

/-- The frames of a track in the enhanced format; those without an offset have their own type. -/
theorem flvPacketFrames_carries {pkt : EncoderPacket} {idx : ℕ}
    (hsize : pkt.size = (pkt.data.getD []).length) (h : codecs.VideoTrack idx)
    (hoffset : OffsetFits pkt) :
    Carries (flvPacketFrames pkt (codecs.video idx) dtsOffset idx)
      ⟨videoTag, wireTime (frameTime dtsOffset pkt), .coded, pkt.keyframe,
        videoFourcc (codecs.video idx), idx,
        if codecs.video idx = .h264 then ctOffset pkt else 0, pkt.data.getD []⟩ := by
  obtain ⟨hidx, hcodec⟩ := h
  rw [flvPacketFrames]
  by_cases hx : (codecs.video idx = .h264 ∨ codecs.video idx = .hevc) ∧ pkt.dts = pkt.pts
  · have hnone : ¬ hasOffset (codecs.video idx) framesX := by
      rintro ⟨-, h⟩
      exact absurd h (by decide)
    have hzero : ctOffset pkt = 0 := by rw [ctOffset, hx.2, Int.sub_self]
    have hcarries := flvPacketEx_carries dtsOffset hcodec hsize hoffset
      (show framesX < 4 by decide) hidx
    rw [if_neg hnone] at hcarries
    rw [if_pos hx, hzero, ite_self]
    exact hcarries
  · have hcarries := flvPacketEx_carries dtsOffset hcodec hsize hoffset
      (show framesType < 4 by decide) hidx
    have hhas : hasOffset (codecs.video idx) framesType ↔ codecs.video idx = .h264 := by
      rcases hcodec with h | h <;> simp [hasOffset, h]
    simp only [hhas] at hcarries
    rw [if_neg hx]
    exact hcarries

theorem tag_audio {pkt : EncoderPacket} (htype : pkt.type = .audio) :
    (Send.packet pkt).tag codecs dtsOffset =
      if pkt.trackIdx = 0 then some (flvAudio dtsOffset pkt false)
      else flvPacketAudioFrames pkt (codecs.audio pkt.trackIdx) dtsOffset pkt.trackIdx := by
  have hnot : ¬ (pkt.type = .video ∧ (codecs.video pkt.trackIdx ≠ .h264 ∨
      codecs.video pkt.trackIdx = .h264 ∧ pkt.trackIdx ≠ 0)) := by
    rintro ⟨h, -⟩
    rw [htype] at h
    cases h
  rw [Send.tag, if_neg hnot]
  simp only [htype, true_and, sendAudioPacketExTag, sendPacketTag, flvPacketMux]
  by_cases hzero : pkt.trackIdx = 0
  · rw [if_pos hzero, if_neg (not_not_intro hzero)]
    rfl
  · rw [if_neg hzero, if_pos hzero]
    rfl

theorem tag_video {pkt : EncoderPacket} (htype : pkt.type = .video) :
    (Send.packet pkt).tag codecs dtsOffset =
      some (if codecs.video pkt.trackIdx = .h264 ∧ pkt.trackIdx = 0 then
          flvVideo dtsOffset pkt false
        else flvPacketFrames pkt (codecs.video pkt.trackIdx) dtsOffset pkt.trackIdx) := by
  have haudio : ¬ (EncoderType.video = EncoderType.audio ∧ pkt.trackIdx ≠ 0) := fun h => nomatch h.1
  simp only [Send.tag, htype, true_and, if_neg haudio, sendPacketExTag, sendPacketTag,
    flvPacketMux]
  by_cases hplain : codecs.video pkt.trackIdx = .h264 ∧ pkt.trackIdx = 0
  · have hnot : ¬ (codecs.video pkt.trackIdx ≠ .h264 ∨
        codecs.video pkt.trackIdx = .h264 ∧ pkt.trackIdx ≠ 0) := by
      rintro (h | h)
      · exact h hplain.1
      · exact h.2 hplain.2
    rw [if_pos hplain, if_neg hnot]
    rfl
  · have hex : codecs.video pkt.trackIdx ≠ .h264 ∨
        codecs.video pkt.trackIdx = .h264 ∧ pkt.trackIdx ≠ 0 := by
      by_cases hcodec : codecs.video pkt.trackIdx = .h264
      · exact .inr ⟨hcodec, fun hzero => hplain ⟨hcodec, hzero⟩⟩
      · exact .inl hcodec
    rw [if_neg hplain, if_pos hex]
    rfl

/-- The data of a packet whose payload is not empty. -/
theorem data_of_payload {pkt : EncoderPacket} (hne : pkt.data.getD [] ≠ []) :
    pkt.data = some (pkt.data.getD []) := by
  cases hd : pkt.data with
  | none => exact absurd (by rw [hd]; rfl) hne
  | some d => rfl

theorem means_audio {pkt : EncoderPacket} (htype : pkt.type = .audio)
    (hsize : pkt.size = (pkt.data.getD []).length) (hlen : pkt.size + 10 < 2 ^ 24)
    (htrack : codecs.AudioTrack pkt.trackIdx) (hset : pkt.trackIdx ≠ 0 → pkt.size ≠ 0) :
    (Send.packet pkt).Means codecs dtsOffset := by
  simp only [Send.Means, Send.frame, htype, tag_audio htype]
  by_cases hne : pkt.data.getD [] = []
  · have hempty : pkt.size = 0 := by rw [hsize, hne]; rfl
    have hzero : pkt.trackIdx = 0 := not_not.mp fun hne => hset hne hempty
    simp only [nonEmpty, hne, if_true, flvAudio, hempty, or_true, hzero]
  · simp only [nonEmpty, hne, if_false]
    refine ⟨?_, hsize ▸ hlen⟩
    have hdata := data_of_payload hne
    split_ifs with hzero
    · rw [hzero]
      exact ⟨_, rfl, flvAudio_carries dtsOffset hdata hne false⟩
    · rw [htrack.2]
      exact flvPacketAudioEx_carries dtsOffset hdata hne (show framesType < 2 by decide) htrack.1

theorem means_video {pkt : EncoderPacket} (htype : pkt.type = .video)
    (hsize : pkt.size = (pkt.data.getD []).length) (hlen : pkt.size + 10 < 2 ^ 24)
    (htrack : codecs.VideoTrack pkt.trackIdx) (hoffset : OffsetFits pkt) :
    (Send.packet pkt).Means codecs dtsOffset := by
  simp only [Send.Means, Send.frame, htype, tag_video htype]
  by_cases hplain : codecs.video pkt.trackIdx = .h264 ∧ pkt.trackIdx = 0
  · simp only [if_pos hplain]
    by_cases hne : pkt.data.getD [] = []
    · have hnone : pkt.data = none ∨ pkt.size = 0 := .inr (by rw [hsize, hne]; rfl)
      simp only [nonEmpty, hne, if_true, flvVideo, hnone]
    · simp only [nonEmpty, hne, if_false, hplain.1, if_true]
      refine ⟨?_, hsize ▸ hlen⟩
      rw [hplain.2]
      exact ⟨_, rfl, flvVideo_carries dtsOffset (data_of_payload hne) hne hoffset false⟩
  · simp only [if_neg hplain]
    exact ⟨⟨_, rfl, flvPacketFrames_carries hsize htrack hoffset⟩, hsize ▸ hlen⟩

theorem means_packet {pkt : EncoderPacket} (h : (Send.packet pkt).Fits codecs) :
    (Send.packet pkt).Means codecs dtsOffset := by
  obtain ⟨hsize, hlen, haudio, hvideo⟩ := h
  cases htype : pkt.type with
  | audio => exact means_audio htype hsize hlen (haudio htype).1 (haudio htype).2
  | video => exact means_video htype hsize hlen (hvideo htype).1 (hvideo htype).2

end Pieces

theorem Send.means {codecs : Codecs} {send : Send} (h : send.Fits codecs) (dtsOffset : ℤ) :
    send.Means codecs dtsOffset := by
  cases send with
  | audioHeader => exact means_audioHeader h
  | videoHeader => exact means_videoHeader h
  | packet => exact means_packet h
  | footer => exact means_footer h

/-- A timestamp of 0 has a full header; any other goes forward from the last one on the channel by
less than a header has room for. -/
def Steady : Option UInt32 → List UInt32 → Prop
  | _, [] => True
  | last, t :: ts => (t = 0 ∨ ∃ prev ∈ last, t - prev < 0xffffff) ∧ Steady (some t) ts

/-- The connection as a stream is written to it: the server goes by the chunk size in use, and
channel 4 carries the stream alone. -/
structure Ready (l : Chunk.Link) (infoField2 : UInt32) : Prop where
  chunkSize : l.announced = l.out.outChunkSize
  stream : ∀ p ∈ l.out.vecChannelsOut 4, p.infoField2 = infoField2

/-- The timestamp of the last packet on the channel of the stream. -/
def lastTimestamp (l : Chunk.Link) : Option UInt32 :=
  (l.out.vecChannelsOut 4).map Packet.timeStamp

/-- A tag of a frame that can be written. -/
structure MediaTag (t : Tag) : Prop where
  writable : Writable t
  media : t.tagType = rtmpPacketTypeAudio ∨ t.tagType = rtmpPacketTypeVideo

section Tags
variable {l : Chunk.Link} {infoField2 : UInt32} {t : Tag}

theorem tagMessage_delivered (infoField2 : UInt32) (t : Tag) :
    (tagMessage infoField2 t).delivered = ⟨4, t.tagType, t.timestamp, infoField2, t.data⟩ := by
  rw [Message.delivered, tagMessage, Pending.message, Message.ofBody_body]
  rfl

theorem writeHeaderType_media (h : MediaTag t) :
    writeHeaderType t.tagType t.timestamp =
      if t.timestamp = 0 then rtmpPacketSizeLarge else rtmpPacketSizeMedium := by
  have hinfo : t.tagType ≠ rtmpPacketTypeInfo := by
    rcases h.media with h | h <;> rw [h] <;> decide
  simp only [writeHeaderType, h.media, hinfo, true_and, or_false]

/-- A frame whose timestamp is steady gets through. -/
theorem transportable_tag (hl : Ready l infoField2) (h : MediaTag t)
    (hsteady : t.timestamp = 0 ∨ ∃ prev ∈ lastTimestamp l, t.timestamp - prev < 0xffffff) :
    Transportable l (tagMessage infoField2 t) := by
  have hheader : (tagMessage infoField2 t).packet.headerType =
      if t.timestamp = 0 then rtmpPacketSizeLarge else rtmpPacketSizeMedium :=
    writeHeaderType_media h
  have hmedium : (tagMessage infoField2 t).packet.headerType ≤ rtmpPacketSizeMedium := by
    rw [hheader]
    split_ifs <;> decide
  have hprev (hne : t.timestamp ≠ 0) : ∃ p, l.out.vecChannelsOut 4 = some p ∧
      t.timestamp - p.timeStamp < 0xffffff := by
    obtain ⟨prev, hlast, hdelta⟩ := hsteady.resolve_left hne
    obtain ⟨p, hp, rfl⟩ := Option.map_eq_some_iff.mp hlast
    exact ⟨p, hp, hdelta⟩
  have hstamp : (l.planned (tagMessage infoField2 t)).lastWireTimeStamp < 0xffffff := by
    by_cases hzero : t.timestamp = 0
    · rw [Chunk.Link.planned, planned_of_large (hheader.trans (if_pos hzero))]
      show t.timestamp < 0xffffff
      rw [hzero]
      decide
    · obtain ⟨p, hp, hdelta⟩ := hprev hzero
      have hnot : (tagMessage infoField2 t).packet.headerType ≠ rtmpPacketSizeLarge := by
        rw [hheader, if_neg hzero]
        decide
      have hchannel : l.out.vecChannelsOut (tagMessage infoField2 t).packet.channel = some p := hp
      rw [Chunk.Link.planned, hchannel, (planned_some p hnot).2]
      exact hdelta
  refine ⟨⟨show 2 ≤ 4 by decide, show 4 < 65600 by decide⟩, h.writable.size,
    hmedium.trans (by decide), fun hnone => ?_,
    fun prev hprev' => ⟨fun _ => (hl.stream prev hprev').symm, fun hlt => ?_, fun heq => ?_⟩,
    .inl hl.chunkSize, .inl hstamp⟩
  · by_cases hzero : t.timestamp = 0
    · exact hheader.trans (if_pos hzero)
    · obtain ⟨p, hp, -⟩ := hprev hzero
      exact absurd (hp.symm.trans hnone) (Option.some_ne_none _)
  · exact absurd hmedium (Nat.not_le.mpr hlt)
  · rw [heq] at hmedium
    exact absurd hmedium (by decide)

/-- A frame leaves the connection ready for the next one. -/
theorem ready_send (hl : Ready l infoField2) (h : MediaTag t) :
    Ready (l.send (tagMessage infoField2 t)).1 infoField2 ∧
      lastTimestamp (l.send (tagMessage infoField2 t)).1 = some t.timestamp := by
  have hmedium : (tagMessage infoField2 t).packet.headerType ≤ rtmpPacketSizeMinimum := by
    have hheader : (tagMessage infoField2 t).packet.headerType = _ := writeHeaderType_media h
    rw [hheader]
    split_ifs <;> decide
  have hout := sendPacket_out l.out (tagMessage infoField2 t) (planned_headerType hmedium _)
  obtain ⟨hchannel, -, hstamp, hinfo, -⟩ :=
    planned_fields (l.out.vecChannelsOut (tagMessage infoField2 t).packet.channel)
      (tagMessage infoField2 t).packet
  have hlast : (l.send (tagMessage infoField2 t)).1.out.vecChannelsOut 4 =
      some (l.planned (tagMessage infoField2 t)) := by
    show (sendPacket l.out (tagMessage infoField2 t)).out.vecChannelsOut 4 = _
    have hself := remember_self l.out (l.planned (tagMessage infoField2 t))
    rw [hout]
    rw [show (l.planned (tagMessage infoField2 t)).channel = 4 from hchannel] at hself
    exact hself
  have hnone : Chunk.announcement (tagMessage infoField2 t).packet.packetType
      (tagMessage infoField2 t).body = none := by
    have htype : (tagMessage infoField2 t).packet.packetType ≠ Chunk.rtmpPacketTypeChunkSize := by
      show t.tagType ≠ Chunk.rtmpPacketTypeChunkSize
      rcases h.media with h | h <;> rw [h] <;> decide
    rw [Chunk.announcement, if_neg fun hboth => htype hboth.1]
  refine ⟨⟨?_, fun p hp => ?_⟩, ?_⟩
  · show (Chunk.announcement _ _).getD l.announced = _
    rw [hnone, Option.getD_none, hl.chunkSize]
    show _ = ((sendPacket l.out (tagMessage infoField2 t)).out.outChunkSize : ℤ)
    rw [hout]
    rfl
  · obtain rfl := Option.some.inj (hlast.symm.trans hp)
    exact hinfo
  · rw [lastTimestamp, hlast]
    exact congrArg some hstamp

/-- A stream of frames with steady timestamps gets through. -/
theorem transportable_tags (hl : Ready l infoField2) {tags : List Tag}
    (h : ∀ t ∈ tags, MediaTag t)
    (hsteady : Steady (lastTimestamp l) (tags.map Tag.timestamp)) :
    Runs.EveryStep (sendStep Chunk.Link.send) Transportable l
      (tags.map (tagMessage infoField2)) := by
  induction tags generalizing l with
  | nil => exact Runs.everyStep_nil
  | cons t tags ih =>
    have ht := h t List.mem_cons_self
    obtain ⟨hfirst, hrest⟩ := hsteady
    obtain ⟨hready, hlast⟩ := ready_send hl ht
    refine Runs.everyStep_cons.mpr ⟨transportable_tag hl ht hfirst, ?_⟩
    exact ih hready (fun t ht => h t (List.mem_cons_of_mem _ ht)) (hlast ▸ hrest)

end Tags

theorem mediaTag_of_carries {t : Tag} {frame : Frame} (h : t.frame = some frame)
    (hsize : t.data.length < 2 ^ 24) : MediaTag t := by
  have hmedia : t.tagType = rtmpPacketTypeAudio ∨ t.tagType = rtmpPacketTypeVideo := by
    rw [Tag.frame] at h
    split_ifs at h with hvideo haudio
    · exact .inr hvideo
    · exact .inl haudio
  refine ⟨⟨hsize, ?_⟩, hmedia⟩
  rcases hmedia with h | h <;> rw [h] <;> decide

/-- The pieces of a stream are written as tags that carry their frames. -/
theorem pieces_of_sends {codecs : Codecs} {sends : List Send} (h : ∀ send ∈ sends, send.Fits codecs)
    (dtsOffset : ℤ) :
    ∃ pieces : List (Option Tag),
      sends.map (Send.tag codecs dtsOffset) =
        pieces.map (fun piece => some (piece.toList.flatMap Tag.encode)) ∧
      (∀ piece ∈ pieces, ∀ t ∈ piece, MediaTag t) ∧
      (pieces.flatMap Option.toList).map Tag.frame =
        (sends.filterMap (Send.frame codecs dtsOffset)).map some ∧
      (pieces.flatMap Option.toList).map Tag.timestamp =
        (sends.filterMap (Send.frame codecs dtsOffset)).map Frame.timestamp := by
  induction sends with
  | nil => exact ⟨[], rfl, fun _ h => (nomatch h), rfl, rfl⟩
  | cons send sends ih =>
    obtain ⟨pieces, htags, hmedia, hframes, hstamps⟩ :=
      ih fun send hsend => h send (List.mem_cons_of_mem _ hsend)
    have hmeans := Send.means (h send List.mem_cons_self) dtsOffset
    rw [Send.Means] at hmeans
    cases hframe : send.frame codecs dtsOffset with
    | none =>
      rw [hframe] at hmeans
      refine ⟨none :: pieces, ?_, ?_, ?_, ?_⟩
      · rw [List.map_cons, List.map_cons, hmeans, htags]
        rfl
      · rintro piece hpiece t ht
        obtain rfl | hpiece := List.mem_cons.mp hpiece
        · exact nomatch ht
        · exact hmedia piece hpiece t ht
      · rw [List.filterMap_cons_none hframe]
        exact hframes
      · rw [List.filterMap_cons_none hframe]
        exact hstamps
    | some frame =>
      rw [hframe] at hmeans
      obtain ⟨⟨bytes, hset, t, rfl, htframe, -, htstamp, hlen⟩, hsize⟩ := hmeans
      have hmediaTag : MediaTag t := mediaTag_of_carries htframe (by omega)
      refine ⟨some t :: pieces, ?_, ?_, ?_, ?_⟩
      · rw [List.map_cons, List.map_cons, hset, htags, Option.toList_some, List.flatMap_singleton]
      · rintro piece hpiece u hu
        obtain rfl | hpiece := List.mem_cons.mp hpiece
        · obtain rfl := Option.some.inj hu
          exact hmediaTag
        · exact hmedia piece hpiece u hu
      · rw [List.filterMap_cons_some hframe, List.flatMap_cons, List.map_append, hframes,
          Option.toList_some, List.map_singleton, htframe, List.map_cons, List.singleton_append]
      · rw [List.filterMap_cons_some hframe, List.flatMap_cons, List.map_append, hstamps,
          Option.toList_some, List.map_singleton, htstamp, List.map_cons, List.singleton_append]

/-- The frame the server finds in a message. -/
def deliveredFrame (d : Delivered) : Option Frame :=
  (Tag.mk d.packetType d.timeStamp d.body).frame

/-- From the encoders to the server: the pieces of a stream, muxed, written and cut into chunks,
are read back as the frames they are meant to be, each with its track, codec, kind, timestamp,
offset and payload, in order and with nothing left over; every piece has a tag, and no write is
cut short. -/
theorem frames_delivered {w : Writer} {peer : Peer} (ha : Agrees w.link peer)
    (hidle : w.pkt.body = []) {infoField2 : UInt32} (hl : Ready w.link infoField2)
    {codecs : Codecs} {sends : List Send} (hfits : ∀ send ∈ sends, send.Fits codecs)
    (dtsOffset : ℤ)
    (hsteady : Steady (lastTimestamp w.link)
      ((sends.filterMap (Send.frame codecs dtsOffset)).map Frame.timestamp)) :
    let bufs := sends.filterMap (Send.tag codecs dtsOffset)
    let wire := transmit (writeTo infoField2) w bufs
    let reception := drain receive wire.length peer wire
    sends.map (Send.tag codecs dtsOffset) = bufs.map some ∧
      reception.delivered.map deliveredFrame =
        (sends.filterMap (Send.frame codecs dtsOffset)).map some ∧
      reception.rest = [] ∧
      Runs.EveryStep (sendStep (writeTo infoField2))
        (fun w buf => (rtmpWrite infoField2 w buf).outcome = .returned buf.length) w bufs := by
  intro bufs wire reception
  obtain ⟨pieces, htags, hmedia, hframes, hstamps⟩ := pieces_of_sends hfits dtsOffset
  have hwritable : ∀ piece ∈ pieces, ∀ t ∈ piece, Writable t :=
    fun piece hpiece t ht => (hmedia piece hpiece t ht).writable
  have hmedia' : ∀ t ∈ pieces.flatMap Option.toList, MediaTag t := by
    intro t ht
    obtain ⟨piece, hpiece, ht⟩ := List.mem_flatMap.mp ht
    exact hmedia piece hpiece t (Option.mem_toList.mp ht)
  obtain ⟨hwire, htaken⟩ := transmit_writeTo infoField2 hidle hwritable
  have hbufs : bufs = pieces.map (fun piece => piece.toList.flatMap Tag.encode) := by
    have hmap := congrArg (List.filterMap id) htags
    rwa [List.filterMap_map, List.filterMap_map, Function.id_comp, Function.id_comp,
      List.filterMap_eq_map'] at hmap
  rw [← hbufs] at hwire htaken
  rw [← hstamps] at hsteady
  obtain ⟨hdelivered, hrest, -⟩ :=
    session_delivered ha (transportable_tags hl hmedia' hsteady)
  have hreception : reception = drain receive
      (transmit Chunk.Link.send w.link
        ((pieces.flatMap Option.toList).map (tagMessage infoField2))).length peer
      (transmit Chunk.Link.send w.link
        ((pieces.flatMap Option.toList).map (tagMessage infoField2))) := by
    rw [← hwire]
  refine ⟨?_, ?_, ?_, htaken⟩
  · rw [htags, hbufs, List.map_map]
    rfl
  · rw [hreception, hdelivered, List.map_map, List.map_map, ← hframes]
    refine List.map_congr_left fun t _ => ?_
    rw [Function.comp_apply, Function.comp_apply, tagMessage_delivered]
    rfl
  · rw [hreception, hrest]

/-- Two video tracks and an audio track. -/
def sampleCodecs : Codecs where
  video := fun idx => if idx = 1 then .av1 else .h264
  audio := fun _ => .aac

def samplePacket (type : EncoderType) (trackIdx : ℕ) (pts dts : ℤ) : EncoderPacket :=
  { madePacket type false (some [1, 2, 3]) with
    pts := pts, dts := dts, timebaseDen := 30, trackIdx := trackIdx }

def sampleSends : List Send :=
  [.audioHeader 0 [0x12, 0x10], .videoHeader 0 [1, 100], .videoHeader 1 [0x81],
    .packet (samplePacket .video 0 3 1), .packet (samplePacket .video 1 2 2),
    .packet (samplePacket .audio 0 2 2), .footer 1]

theorem frames_delivered_sample :
    let w : Writer := ⟨⟨⟨4096, fun _ => none, by decide⟩, 4096⟩, {}⟩
    let peer : Peer := ⟨⟨4096, fun _ => none, fun _ => 0⟩, {}⟩
    let bufs := sampleSends.filterMap (Send.tag sampleCodecs 0)
    let wire := transmit (writeTo 1) w bufs
    let reception := drain receive wire.length peer wire
    sampleSends.map (Send.tag sampleCodecs 0) = bufs.map some ∧
      reception.delivered.map deliveredFrame =
        (sampleSends.filterMap (Send.frame sampleCodecs 0)).map some ∧
      reception.rest = [] ∧
      Runs.EveryStep (sendStep (writeTo 1))
        (fun w buf => (rtmpWrite 1 w buf).outcome = .returned buf.length) w bufs := by
  intro w peer
  have ha : Agrees w.link peer := ⟨rfl, rfl, fun _ _ h => nomatch h⟩
  have hl : Ready w.link 1 := ⟨rfl, fun _ h => nomatch h⟩
  have hfits : ∀ send ∈ sampleSends, send.Fits sampleCodecs := by
    simp only [sampleSends, List.forall_mem_cons, List.not_mem_nil, false_imp_iff, implies_true,
      Send.Fits, Codecs.AudioTrack, Codecs.VideoTrack, OffsetFits]
    refine ⟨?_, ?_, ?_, ?_, ?_, ?_, ?_, trivial⟩ <;> decide
  exact frames_delivered ha rfl hl hfits 0 ⟨.inl rfl, .inl rfl, .inl rfl,
    .inr ⟨0, rfl, by decide⟩, .inr ⟨33, rfl, by decide⟩, .inr ⟨66, rfl, by decide⟩, .inl rfl,
    trivial⟩

end ObsBeacon.Rtmp
