import ObsBeacon.Lib.Amf0

/-! FLV tags: a header of eleven bytes, the data, and the size of both. -/
namespace Flv
open Amf0

structure Tag where
  tagType : UInt8
  timestamp : UInt32
  data : List UInt8
  deriving DecidableEq, Repr

/-- The header with the size of the data, the timestamp, its upper byte last, and the stream id,
which is always 0. -/
def Tag.header (t : Tag) : List UInt8 :=
  t.tagType :: bigEndian 3 t.data.length ++ bigEndian 3 t.timestamp.toNat ++
    [UInt8.ofNat (t.timestamp.toNat / 2 ^ 24), 0, 0, 0]

def Tag.encode (t : Tag) : List UInt8 :=
  t.header ++ t.data ++ bigEndian 4 (t.data.length + 11)

@[simp] theorem Tag.length_header (t : Tag) : t.header.length = 11 := by
  simp [Tag.header]

theorem Tag.length_encode (t : Tag) : t.encode.length = t.data.length + 15 := by
  simp only [Tag.encode, List.length_append, Tag.length_header, length_bigEndian]
  omega

theorem Tag.length_flatMap_encode (tags : List Tag) :
    15 * tags.length ≤ (tags.flatMap Tag.encode).length := by
  induction tags with
  | nil => exact Nat.le_refl 0
  | cons t tags ih =>
    rw [List.flatMap_cons, List.length_append, Tag.length_encode, List.length_cons]
    omega

theorem ofBigEndian_bigEndian_mod (k n : ℕ) : ofBigEndian (bigEndian k n) = n % 256 ^ k := by
  rw [ofBigEndian, foldl_bigEndian, Nat.zero_mul, Nat.zero_add]

/-- The two parts of a timestamp in a header make up the timestamp. -/
theorem timestamp_parts (t : UInt32) :
    UInt32.ofNat (ofBigEndian (bigEndian 3 t.toNat) +
      (UInt8.ofNat (t.toNat / 2 ^ 24)).toNat * 2 ^ 24) = t := by
  have hlt := t.toNat_lt
  have hbyte : (UInt8.ofNat (t.toNat / 2 ^ 24)).toNat = t.toNat / 2 ^ 24 :=
    UInt8.toNat_ofNat_of_lt' (by rw [UInt8.size]; omega)
  have hparts : t.toNat % 256 ^ 3 + t.toNat / 2 ^ 24 * 2 ^ 24 = t.toNat := by omega
  rw [ofBigEndian_bigEndian_mod, hbyte, hparts, UInt32.ofNat_toNat]

inductive FrameKind where
  | start | coded | stop
  deriving DecidableEq, Repr

/-- What a tag is about: a piece of a track, with its codec as a FourCC. -/
structure Frame where
  tagType : UInt8
  timestamp : UInt32
  kind : FrameKind
  keyframe : Bool
  codec : List UInt8
  track : ℕ
  compositionTime : ℤ
  payload : List UInt8
  deriving DecidableEq, Repr

def audioTag : UInt8 := 0x08
def videoTag : UInt8 := 0x09
def mp4a : List UInt8 := [0x6d, 0x70, 0x34, 0x61]
def avc1 : List UInt8 := [0x61, 0x76, 0x63, 0x31]
def hvc1 : List UInt8 := [0x68, 0x76, 0x63, 0x31]

/-- The packet types of the enhanced format; the last two both carry coded frames. -/
def frameKind : ℕ → Option FrameKind
  | 0 => some .start
  | 1 => some .coded
  | 2 => some .stop
  | 3 => some .coded
  | _ => none

/-- A composition time offset, of three bytes with a sign. -/
def readOffset (bs : List UInt8) : Option (ℤ × List UInt8) :=
  (split 3 bs).map fun r => (Int.bmod (ofBigEndian r.1) (2 ^ 24), r.2)

/-- What follows the codec and the track in the enhanced format. -/
def readEnhanced (frame : Frame) (packetType : ℕ) (bs : List UInt8) : Option Frame :=
  (frameKind packetType).bind fun kind =>
    if packetType = 1 ∧ (frame.codec = avc1 ∨ frame.codec = hvc1) then
      (readOffset bs).map fun r =>
        { frame with kind := kind, compositionTime := r.1, payload := r.2 }
    else some { frame with kind := kind, payload := bs }

/-- The enhanced format after its first byte, which says whether the track is named. -/
def readTrack (frame : Frame) (multitrack packetType : ℕ) (bs : List UInt8) : Option Frame :=
  if packetType = multitrack then
    match bs with
    | [] => none
    | b :: bs =>
      (split 4 bs).bind fun r =>
        match r.2 with
        | [] => none
        | track :: bs =>
          readEnhanced { frame with codec := r.1, track := track.toNat } (b &&& 0x0f).toNat bs
  else (split 4 bs).bind fun r => readEnhanced { frame with codec := r.1 } packetType r.2

/-- A video tag, in the enhanced format where the upper bit of the first byte is set. -/
def readVideo (timestamp : UInt32) : List UInt8 → Option Frame
  | [] => none
  | b :: bs =>
    let frame : Frame := ⟨videoTag, timestamp, .coded, (b >>> 4) &&& 0x07 = 1, avc1, 0, 0, []⟩
    if b &&& 0x80 ≠ 0 then readTrack frame 6 (b &&& 0x0f).toNat bs
    else
      match bs with
      | [] => none
      | packetType :: bs =>
        (frameKind packetType.toNat).bind fun kind => (readOffset bs).map fun r =>
          { frame with kind := kind, compositionTime := r.1, payload := r.2 }

/-- An audio tag, in the enhanced format where its sound format says so. -/
def readAudio (timestamp : UInt32) : List UInt8 → Option Frame
  | [] => none
  | b :: bs =>
    let frame : Frame := ⟨audioTag, timestamp, .coded, false, mp4a, 0, 0, []⟩
    if b &&& 0xf0 = 0x90 then readTrack frame 5 (b &&& 0x0f).toNat bs
    else
      match bs with
      | [] => none
      | packetType :: bs =>
        (frameKind packetType.toNat).map fun kind => { frame with kind := kind, payload := bs }

/-- The frame a tag carries. -/
def Tag.frame (t : Tag) : Option Frame :=
  if t.tagType = videoTag then readVideo t.timestamp t.data
  else if t.tagType = audioTag then readAudio t.timestamp t.data
  else none

@[simp] theorem frame_video (timestamp : UInt32) (data : List UInt8) :
    (Tag.mk 0x09 timestamp data).frame = readVideo timestamp data := rfl

@[simp] theorem frame_audio (timestamp : UInt32) (data : List UInt8) :
    (Tag.mk 0x08 timestamp data).frame = readAudio timestamp data := rfl

theorem readVideo_plain {b : UInt8} (hb : b &&& 0x80 = 0) {packetType : UInt8} {kind : FrameKind}
    (hkind : frameKind packetType.toNat = some kind) {bs payload : List UInt8} {offset : ℤ}
    (hoffset : readOffset bs = some (offset, payload)) (timestamp : UInt32) :
    readVideo timestamp (b :: packetType :: bs) =
      some ⟨videoTag, timestamp, kind, (b >>> 4) &&& 0x07 = 1, avc1, 0, offset, payload⟩ := by
  rw [readVideo, if_neg (not_not_intro hb)]
  simp only [hkind, hoffset, Option.bind_some, Option.map_some]

theorem readVideo_enhanced {b : UInt8} (hb : b &&& 0x80 ≠ 0) (timestamp : UInt32)
    (bs : List UInt8) :
    readVideo timestamp (b :: bs) =
      readTrack ⟨videoTag, timestamp, .coded, (b >>> 4) &&& 0x07 = 1, avc1, 0, 0, []⟩ 6
        (b &&& 0x0f).toNat bs :=
  if_pos hb

theorem readAudio_plain {b : UInt8} (hb : b &&& 0xf0 ≠ 0x90) {packetType : UInt8}
    {kind : FrameKind} (hkind : frameKind packetType.toNat = some kind) (timestamp : UInt32)
    (bs : List UInt8) :
    readAudio timestamp (b :: packetType :: bs) =
      some ⟨audioTag, timestamp, kind, false, mp4a, 0, 0, bs⟩ := by
  rw [readAudio, if_neg hb]
  simp only [hkind, Option.map_some]

theorem readAudio_enhanced {b : UInt8} (hb : b &&& 0xf0 = 0x90) (timestamp : UInt32)
    (bs : List UInt8) :
    readAudio timestamp (b :: bs) =
      readTrack ⟨audioTag, timestamp, .coded, false, mp4a, 0, 0, []⟩ 5 (b &&& 0x0f).toNat bs :=
  if_pos hb

/-- Without an offset, what follows the codec is the payload. -/
theorem readEnhanced_plain {packetType : ℕ} {kind : FrameKind}
    (hkind : frameKind packetType = some kind) {frame : Frame}
    (hcodec : packetType = 1 → frame.codec ≠ avc1 ∧ frame.codec ≠ hvc1) (bs : List UInt8) :
    readEnhanced frame packetType bs = some { frame with kind := kind, payload := bs } := by
  rw [readEnhanced, hkind, Option.bind_some, if_neg]
  rintro ⟨hone, h | h⟩
  · exact (hcodec hone).1 h
  · exact (hcodec hone).2 h

theorem readEnhanced_offset {frame : Frame} (hcodec : frame.codec = avc1) {bs payload : List UInt8}
    {offset : ℤ} (hoffset : readOffset bs = some (offset, payload)) :
    readEnhanced frame 1 bs =
      some { frame with kind := .coded, compositionTime := offset, payload := payload } := by
  rw [readEnhanced, frameKind, Option.bind_some, if_pos ⟨rfl, .inl hcodec⟩, hoffset,
    Option.map_some]

/-- An offset that fits three bytes is read back. -/
theorem readOffset_bigEndian {n : ℤ} (hlow : -2 ^ 23 ≤ n) (hhigh : n < 2 ^ 23)
    (bs : List UInt8) :
    readOffset (bigEndian 3 (n % 2 ^ 32).toNat ++ bs) = some (n, bs) := by
  have hmod : ((n % 2 ^ 32).toNat % 256 ^ 3 : ℕ) = (n % 2 ^ 24).toNat := by omega
  have hcast : ((n % 2 ^ 24).toNat : ℤ) = n % 2 ^ 24 := by omega
  have hback : Int.bmod (n % 2 ^ 24) (2 ^ 24) = n :=
    (Int.emod_bmod n (2 ^ 24)).trans (Int.bmod_eq_of_le (by omega) (by omega))
  rw [readOffset, split_append (length_bigEndian _ _), Option.map_some,
    ofBigEndian_bigEndian_mod, hmod, hcast, hback]

theorem readTrack_named (frame : Frame) (multitrack : ℕ) {codec : List UInt8}
    (hcodec : codec.length = 4) (b track : UInt8) (bs : List UInt8) :
    readTrack frame multitrack multitrack (b :: codec ++ track :: bs) =
      readEnhanced { frame with codec := codec, track := track.toNat } (b &&& 0x0f).toNat bs := by
  rw [readTrack.eq_def, if_pos rfl, List.cons_append]
  simp only [split_append hcodec, Option.bind_some]

theorem readTrack_default (frame : Frame) {multitrack packetType : ℕ}
    (htype : packetType ≠ multitrack) {codec : List UInt8} (hcodec : codec.length = 4)
    (bs : List UInt8) :
    readTrack frame multitrack packetType (codec ++ bs) =
      readEnhanced { frame with codec := codec } packetType bs := by
  rw [readTrack.eq_def, if_neg htype, split_append hcodec, Option.bind_some]

end Flv
