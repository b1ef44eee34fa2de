import Mathlib.Data.Int.Init
import ObsBeacon.Lib.Flv
import ObsBeacon.Libobs

/-! `flv-mux.c`: encoded packets as FLV tags, with the headers of both the old and the enhanced
format. -/
namespace ObsBeacon.Rtmp
open Amf0 Flv

/-- `enum audio_id_t`. -/
inductive AudioId where
  | none | aac
  deriving DecidableEq, Repr

/-- `enum video_id_t`. -/
inductive VideoId where
  | none | h264 | av1 | hevc
  deriving DecidableEq, Repr

/-- `to_audio_type`. -/
def toAudioType (codec : String) : AudioId := if codec = "aac" then .aac else .none

/-- `to_video_type`, in a build that leaves HEVC out. -/
def toVideoType (codec : String) : VideoId :=
  if codec = "h264" then .h264 else if codec = "av1" then .av1 else .none

def seqStart : ℕ := 0
def framesType : ℕ := 1
def seqEnd : ℕ := 2
def framesX : ℕ := 3
def multitrack : ℕ := 6
def audioMultitrack : ℕ := 5

/-- `s_wa4cc`. -/
def audioFourcc : AudioId → List UInt8
  | .none => []
  | .aac => [0x6d, 0x70, 0x34, 0x61]

/-- `s_w4cc`; the case of HEVC runs into that of H.264. -/
def videoFourcc : VideoId → List UInt8
  | .none => []
  | .av1 => [0x61, 0x76, 0x30, 0x31]
  | .hevc => [0x61, 0x76, 0x63, 0x31]
  | .h264 => [0x61, 0x76, 0x63, 0x31]

/-- The conversion to `uint32_t`. -/
def uint32 (n : ℤ) : ℕ := (n % 2 ^ 32).toNat

/-- `get_ms_time`, an `int32_t`. -/
def getMsTime (packet : EncoderPacket) (val : ℤ) : ℤ :=
  Int.bmod ((val * 1000).tdiv packet.timebaseDen) (2 ^ 32)

/-- `s_wtimestamp`: the upper byte comes last and loses its sign bit. -/
def sWtimestamp (time : ℤ) : List UInt8 :=
  bigEndian 3 (uint32 time) ++ [UInt8.ofNat (uint32 time / 2 ^ 24 % 128)]

/-- The bytes that every tag consists of. -/
def writeTag (tagType : UInt8) (size : ℕ) (time : ℤ) (header data : List UInt8) : List UInt8 :=
  let s := tagType :: bigEndian 3 size ++ sWtimestamp time ++ bigEndian 3 0 ++ header ++ data
  s ++ bigEndian 4 s.length

def frameTime (dtsOffset : ℤ) (packet : EncoderPacket) : ℤ :=
  getMsTime packet packet.dts - dtsOffset

/-- `ct_offset_ms`. -/
def ctOffset (packet : EncoderPacket) : ℤ :=
  getMsTime packet packet.pts - getMsTime packet packet.dts

/-- `flv_video`. -/
def flvVideo (dtsOffset : ℤ) (packet : EncoderPacket) (isHeader : Bool) : List UInt8 :=
  if packet.data = none ∨ packet.size = 0 then []
  else
    writeTag 0x09 (packet.size + 5) (frameTime dtsOffset packet)
      ([if packet.keyframe then 0x17 else 0x27, if isHeader then 0 else 1] ++
        bigEndian 3 (uint32 (ctOffset packet)))
      (packet.data.getD [])

/-- `flv_audio`. -/
def flvAudio (dtsOffset : ℤ) (packet : EncoderPacket) (isHeader : Bool) : List UInt8 :=
  if packet.data = none ∨ packet.size = 0 then []
  else
    writeTag 0x08 (packet.size + 2) (frameTime dtsOffset packet)
      [0xaf, if isHeader then 0 else 1] (packet.data.getD [])

/-- `flv_packet_mux`. -/
def flvPacketMux (packet : EncoderPacket) (dtsOffset : ℤ) (isHeader : Bool) : List UInt8 :=
  match packet.type with
  | .video => flvVideo dtsOffset packet isHeader
  | .audio => flvAudio dtsOffset packet isHeader

/-- `flv_packet_audio_ex`: an empty packet leaves the pointer to the output as it was. -/
def flvPacketAudioEx (packet : EncoderPacket) (codecId : AudioId) (dtsOffset : ℤ) (type idx : ℕ) :
    Option (List UInt8) :=
  if packet.data = none ∨ packet.size = 0 then none
  else
    some <| writeTag 0x08 (packet.size + (5 + if 0 < idx then 2 else 0))
      (frameTime dtsOffset packet)
      (if 0 < idx then
        UInt8.ofNat (0x90 ||| audioMultitrack) :: UInt8.ofNat type :: audioFourcc codecId ++
          [UInt8.ofNat idx]
      else UInt8.ofNat (0x90 ||| type) :: audioFourcc codecId)
      (packet.data.getD [])

/-- Whether a composition time offset is written. -/
def hasOffset (codecId : VideoId) (type : ℕ) : Prop :=
  (codecId = .h264 ∨ codecId = .hevc) ∧ type = framesType

instance (codecId : VideoId) (type : ℕ) : Decidable (hasOffset codecId type) :=
  inferInstanceAs (Decidable (_ ∧ _))

/-- `flv_packet_ex`. -/
def flvPacketEx (packet : EncoderPacket) (codecId : VideoId) (dtsOffset : ℤ) (type idx : ℕ) :
    List UInt8 :=
  let frameType := if packet.keyframe then 1 <<< 4 else 2 <<< 4
  writeTag 0x09
    (packet.size + (5 + (if hasOffset codecId type then 3 else 0) + if 0 < idx then 2 else 0))
    (frameTime dtsOffset packet)
    ((if 0 < idx then
        UInt8.ofNat (0x80 ||| multitrack ||| frameType) :: UInt8.ofNat type ::
          videoFourcc codecId ++ [UInt8.ofNat idx]
      else UInt8.ofNat (0x80 ||| type ||| frameType) :: videoFourcc codecId) ++
      if hasOffset codecId type then bigEndian 3 (uint32 (ctOffset packet)) else [])
    (packet.data.getD [])

/-- `flv_packet_start`. -/
def flvPacketStart (packet : EncoderPacket) (codec : VideoId) (idx : ℕ) : List UInt8 :=
  flvPacketEx packet codec 0 seqStart idx

/-- `flv_packet_frames`: frames without a composition time offset have a type of their own. -/
def flvPacketFrames (packet : EncoderPacket) (codec : VideoId) (dtsOffset : ℤ) (idx : ℕ) :
    List UInt8 :=
  flvPacketEx packet codec dtsOffset
    (if (codec = .h264 ∨ codec = .hevc) ∧ packet.dts = packet.pts then framesX else framesType) idx

/-- `flv_packet_end`. -/
def flvPacketEnd (packet : EncoderPacket) (codec : VideoId) (idx : ℕ) : List UInt8 :=
  flvPacketEx packet codec 0 seqEnd idx

/-- `flv_packet_audio_start`. -/
def flvPacketAudioStart (packet : EncoderPacket) (codec : AudioId) (idx : ℕ) :
    Option (List UInt8) :=
  flvPacketAudioEx packet codec 0 seqStart idx

/-- `flv_packet_audio_frames`. -/
def flvPacketAudioFrames (packet : EncoderPacket) (codec : AudioId) (dtsOffset : ℤ) (idx : ℕ) :
    Option (List UInt8) :=
  flvPacketAudioEx packet codec dtsOffset framesType idx

/-- The timestamp a time is written as. -/
def wireTime (time : ℤ) : UInt32 := UInt32.ofNat (uint32 time % 2 ^ 31)

theorem ofNat_eq_of_mod {a b : ℕ} (h : a % 256 = b % 256) : UInt8.ofNat a = UInt8.ofNat b := by
  rw [← UInt8.toNat_inj, UInt8.toNat_ofNat', UInt8.toNat_ofNat']
  exact h

theorem toNat_wireTime (time : ℤ) : (wireTime time).toNat = uint32 time % 2 ^ 31 :=
  UInt32.toNat_ofNat_of_lt' (by rw [UInt32.size]; omega)

/-- The timestamp field of a tag is that of the time without its sign. -/
theorem sWtimestamp_eq (time : ℤ) :
    sWtimestamp time = bigEndian 3 (wireTime time).toNat ++
      [UInt8.ofNat ((wireTime time).toNat / 2 ^ 24)] := by
  rw [toNat_wireTime, sWtimestamp]
  simp only [bigEndian, List.cons_append, List.nil_append]
  refine congrArg₂ _ (ofNat_eq_of_mod ?_) (congrArg₂ _ (ofNat_eq_of_mod ?_)
    (congrArg₂ _ (ofNat_eq_of_mod ?_) (congrArg₂ _ (ofNat_eq_of_mod ?_) rfl)))
  all_goals omega

/-- A tag is written as the format has it when the size given is that of its data. -/
theorem writeTag_eq {tagType : UInt8} {size : ℕ} (time : ℤ) {header data : List UInt8}
    (hsize : size = header.length + data.length) :
    writeTag tagType size time header data =
      (Tag.mk tagType (wireTime time) (header ++ data)).encode := by
  have hzero : bigEndian 3 0 = [0, 0, 0] := rfl
  have hall : tagType :: bigEndian 3 size ++ sWtimestamp time ++ bigEndian 3 0 ++ header ++ data =
      (Tag.mk tagType (wireTime time) (header ++ data)).header ++ (header ++ data) := by
    rw [sWtimestamp_eq, hzero, hsize, Tag.header, List.length_append]
    simp only [List.append_assoc, List.cons_append, List.nil_append]
  have hlen : ((Tag.mk tagType (wireTime time) (header ++ data)).header ++
      (header ++ data)).length = (header ++ data).length + 11 := by
    rw [List.length_append, Tag.length_header, Nat.add_comm]
  rw [writeTag, Tag.encode]
  simp only [hall, hlen]

/-- Some bytes are a tag that carries a frame, with at most ten bytes around its payload. -/
def Carries (bytes : List UInt8) (frame : Frame) : Prop :=
  ∃ t : Tag, bytes = t.encode ∧ t.frame = some frame ∧ t.tagType = frame.tagType ∧
    t.timestamp = frame.timestamp ∧ t.data.length ≤ frame.payload.length + 10

/-- The kind of frame behind a packet type that is used with either codec. -/
def kindOf (type : ℕ) : FrameKind := (frameKind type).getD .coded

/-- The first byte of the enhanced format holds the frame type and the packet type apart. -/
theorem videoByte_parts : ∀ type : Fin 8, ∀ keyframe : Bool,
    let b := UInt8.ofNat (0x80 ||| type.val ||| if keyframe then 1 <<< 4 else 2 <<< 4)
    (decide ((b >>> 4) &&& 0x07 = 1) = keyframe) ∧ b &&& 0x80 ≠ 0 ∧
      (b &&& 0x0f).toNat = type.val := by
  decide

theorem plainByte_parts : ∀ keyframe : Bool,
    let b : UInt8 := if keyframe then 0x17 else 0x27
    (decide ((b >>> 4) &&& 0x07 = 1) = keyframe) ∧ b &&& 0x80 = 0 := by
  decide

theorem audioByte_parts : ∀ type : Fin 8,
    let b := UInt8.ofNat (0x90 ||| type.val)
    b &&& 0xf0 = 0x90 ∧ (b &&& 0x0f).toNat = type.val := by
  decide

theorem typeByte : ∀ type : Fin 8, (UInt8.ofNat type.val &&& 0x0f).toNat = type.val := by
  decide

section Frames
variable {packet : EncoderPacket} {d : List UInt8} (dtsOffset : ℤ) {type idx : ℕ}

/-- The offset between presentation and decoding fits the field for it. -/
def OffsetFits (packet : EncoderPacket) : Prop :=
  -2 ^ 23 ≤ ctOffset packet ∧ ctOffset packet < 2 ^ 23

theorem size_of_data (hd : packet.data = some d) : packet.size = d.length :=
  (packet.data_size d hd).symm

theorem some_data (hd : packet.data = some d) (hne : d ≠ []) :
    ¬ (packet.data = none ∨ packet.size = 0) := by
  have hpos := List.length_pos_iff.mpr hne
  rintro (h | h)
  · rw [hd] at h
    cases h
  · rw [size_of_data hd] at h
    omega

theorem flvVideo_carries (hd : packet.data = some d) (hne : d ≠ []) (hoffset : OffsetFits packet)
    (isHeader : Bool) :
    Carries (flvVideo dtsOffset packet isHeader)
      ⟨videoTag, wireTime (frameTime dtsOffset packet), if isHeader then .start else .coded,
        packet.keyframe, avc1, 0, ctOffset packet, d⟩ := by
  have hsize := size_of_data hd
  rw [flvVideo, if_neg (some_data hd hne), hd, Option.getD_some, writeTag_eq _ (by
    rw [List.length_append, length_bigEndian, hsize]
    simp only [List.length_cons, List.length_nil]
    omega)]
  refine ⟨_, rfl, ?_, rfl, rfl, ?_⟩
  · have hread := readOffset_bigEndian hoffset.1 hoffset.2 d
    have hkind : frameKind (if isHeader then 0 else 1 : UInt8).toNat =
        some (if isHeader then .start else .coded) := by
      cases isHeader <;> rfl
    obtain ⟨hkey, hplain⟩ := plainByte_parts packet.keyframe
    rw [frame_video, List.append_assoc]
    exact (readVideo_plain hplain hkind hread _).trans (by rw [hkey])
  · simp only [List.length_append, length_bigEndian, List.length_cons, List.length_nil]
    omega

theorem flvAudio_carries (hd : packet.data = some d) (hne : d ≠ []) (isHeader : Bool) :
    Carries (flvAudio dtsOffset packet isHeader)
      ⟨audioTag, wireTime (frameTime dtsOffset packet), if isHeader then .start else .coded,
        false, mp4a, 0, 0, d⟩ := by
  have hsize := size_of_data hd
  rw [flvAudio, if_neg (some_data hd hne), hd, Option.getD_some, writeTag_eq _ (by
    rw [hsize, Nat.add_comm]
    rfl)]
  have hkind : frameKind (if isHeader then 0 else 1 : UInt8).toNat =
      some (if isHeader then .start else .coded) := by
    cases isHeader <;> rfl
  have hplain : (0xaf : UInt8) &&& 0xf0 ≠ 0x90 := by decide
  refine ⟨_, rfl, (frame_audio _ _).trans (readAudio_plain hplain hkind _ d), rfl, rfl, ?_⟩
  simp only [List.length_append, List.length_cons, List.length_nil]
  omega

/-- A packet of the enhanced format is read back with its codec and its track. -/
theorem flvPacketAudioEx_carries (hd : packet.data = some d) (hne : d ≠ []) (htype : type < 2)
    (hidx : idx < 256) :
    ∃ bytes, flvPacketAudioEx packet .aac dtsOffset type idx = some bytes ∧ Carries bytes
      ⟨audioTag, wireTime (frameTime dtsOffset packet), kindOf type, false, mp4a, idx, 0, d⟩ := by
  have hsize := size_of_data hd
  have hkind : frameKind type = some (kindOf type) := by
    obtain rfl | rfl : type = 0 ∨ type = 1 := by omega
    all_goals rfl
  have hcodec : mp4a ≠ avc1 ∧ mp4a ≠ hvc1 := by decide
  have hmp4a : audioFourcc .aac = mp4a := rfl
  rw [flvPacketAudioEx, if_neg (some_data hd hne), hd, Option.getD_some, hmp4a, writeTag_eq _ (by
    split_ifs <;> simp [hsize, mp4a] <;> omega)]
  refine ⟨_, rfl, _, rfl, ?_, rfl, rfl, ?_⟩
  · by_cases hmany : 0 < idx
    · obtain ⟨hformat, hmulti⟩ := audioByte_parts ⟨audioMultitrack, by decide⟩
      have hinner := typeByte ⟨type, by omega⟩
      have htrack : (UInt8.ofNat idx).toNat = idx := UInt8.toNat_ofNat_of_lt' hidx
      simp only [if_pos hmany, frame_audio, List.cons_append]
      rw [readAudio_enhanced hformat, hmulti, List.append_assoc]
      refine (readTrack_named _ _ rfl _ _ _).trans ?_
      rw [hinner, htrack]
      exact readEnhanced_plain hkind (fun _ => hcodec) d
    · obtain rfl : idx = 0 := by omega
      obtain ⟨hformat, hinner⟩ := audioByte_parts ⟨type, by omega⟩
      simp only [Nat.lt_irrefl, if_false, frame_audio, List.cons_append]
      rw [readAudio_enhanced hformat, hinner]
      refine (readTrack_default _ (show type ≠ 5 by omega) rfl _).trans ?_
      exact readEnhanced_plain hkind (fun _ => hcodec) d
  · split_ifs <;> simp [mp4a]

/-- The payload types a video packet of the enhanced format is sent with. -/
theorem frameKind_of_lt (htype : type < 4) : frameKind type = some (kindOf type) := by
  obtain rfl | rfl | rfl | rfl : type = 0 ∨ type = 1 ∨ type = 2 ∨ type = 3 := by omega
  all_goals rfl

theorem length_videoFourcc {codec : VideoId} (hcodec : codec = .h264 ∨ codec = .av1) :
    (videoFourcc codec).length = 4 := by
  rcases hcodec with rfl | rfl <;> rfl

/-- What follows the codec and the track, with an offset where the codec has one. -/
theorem readEnhanced_video {codec : VideoId} (hcodec : codec = .h264 ∨ codec = .av1)
    (htype : type < 4) (hoffset : OffsetFits packet) {frame : Frame}
    (hfourcc : frame.codec = videoFourcc codec) (hzero : frame.compositionTime = 0) :
    readEnhanced frame type
        ((if hasOffset codec type then bigEndian 3 (uint32 (ctOffset packet)) else []) ++ d) =
      some { frame with
        kind := kindOf type
        compositionTime := if hasOffset codec type then ctOffset packet else 0
        payload := d } := by
  by_cases hhas : hasOffset codec type
  · obtain ⟨hh264, rfl⟩ := hhas
    have hread := readOffset_bigEndian hoffset.1 hoffset.2 d
    have havc1 : frame.codec = avc1 := by
      rw [hfourcc]
      rcases hh264 with rfl | rfl <;> rfl
    have hhas : hasOffset codec framesType := ⟨hh264, rfl⟩
    simp only [if_pos hhas]
    exact readEnhanced_offset havc1 hread
  · simp only [if_neg hhas, List.nil_append]
    rw [readEnhanced_plain (frameKind_of_lt htype) _ d, ← hzero]
    rintro rfl
    rcases hcodec with rfl | rfl
    · exact absurd ⟨.inl rfl, rfl⟩ hhas
    · rw [hfourcc]
      decide

theorem flvPacketEx_carries {codec : VideoId} (hcodec : codec = .h264 ∨ codec = .av1)
    (hsize : packet.size = (packet.data.getD []).length) (hoffset : OffsetFits packet)
    (htype : type < 4) (hidx : idx < 256) :
    Carries (flvPacketEx packet codec dtsOffset type idx)
      ⟨videoTag, wireTime (frameTime dtsOffset packet), kindOf type, packet.keyframe,
        videoFourcc codec, idx, if hasOffset codec type then ctOffset packet else 0,
        packet.data.getD []⟩ := by
  have hfourcc := length_videoFourcc hcodec
  simp only [flvPacketEx]
  rw [writeTag_eq _ (by
    split_ifs <;> simp [hsize, hfourcc] <;> omega)]
  refine ⟨_, rfl, ?_, rfl, rfl, ?_⟩
  · by_cases hmany : 0 < idx
    · obtain ⟨hkey, hex, hmulti⟩ := videoByte_parts ⟨multitrack, by decide⟩ packet.keyframe
      have hinner := typeByte ⟨type, by omega⟩
      have htrack : (UInt8.ofNat idx).toNat = idx := UInt8.toNat_ofNat_of_lt' hidx
      simp only [if_pos hmany, frame_video, List.cons_append]
      rw [readVideo_enhanced hex, hmulti, hkey, List.append_assoc, List.append_assoc,
        List.singleton_append]
      refine (readTrack_named _ _ hfourcc _ _ _).trans ?_
      rw [hinner, htrack]
      exact readEnhanced_video hcodec htype hoffset rfl rfl
    · obtain rfl : idx = 0 := by omega
      obtain ⟨hkey, hex, hinner⟩ := videoByte_parts ⟨type, by omega⟩ packet.keyframe
      simp only [Nat.lt_irrefl, if_false, frame_video, List.cons_append]
      rw [readVideo_enhanced hex, hinner, hkey, List.append_assoc]
      refine (readTrack_default _ (show type ≠ 6 by omega) hfourcc _).trans ?_
      exact readEnhanced_video hcodec htype hoffset rfl rfl
  · split_ifs <;> simp [hfourcc] <;> omega

end Frames

end ObsBeacon.Rtmp
