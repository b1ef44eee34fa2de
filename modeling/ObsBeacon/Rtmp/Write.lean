import ObsBeacon.Lib.Flv
import ObsBeacon.Rtmp.ChunkSession

/-! `RTMP_Write`: FLV tags off a buffer, each sent as a packet. -/
namespace ObsBeacon.Rtmp.Chunk
open Amf0 Transport Flv

def rtmpPacketTypeAudio : UInt8 := 0x08
def rtmpPacketTypeVideo : UInt8 := 0x09
def rtmpPacketTypeInfo : UInt8 := 0x12

/-- `m_write`, the packet that is being put together. `body` is what of its body was read. -/
structure Pending where
  packetType : UInt8 := 0
  headerType : ℕ := 0
  timeStamp : UInt32 := 0
  bodySize : ℕ := 0
  body : List UInt8 := []
  deriving DecidableEq, Repr

/-- The sender with the packet it is putting together. -/
structure Writer where
  link : Link
  pkt : Pending

inductive Outcome where
  | returned (n : ℤ)
  | overread
  deriving DecidableEq, Repr

/-- What a call leaves, what it puts on the wire and how it ends. -/
structure Writing where
  writer : Writer
  wire : List UInt8
  outcome : Outcome

def Writing.after (wire : List UInt8) (w : Writing) : Writing :=
  { w with wire := wire ++ w.wire }

/-- The signature of an FLV file and its header are passed over. -/
def skipSignature : List UInt8 → List UInt8
  | 0x46 :: 0x4c :: 0x56 :: rest => rest.drop 10
  | buf => buf

/-- Packets that start or describe a stream have a full header. -/
def writeHeaderType (packetType : UInt8) (timeStamp : UInt32) : ℕ :=
  if ((packetType = rtmpPacketTypeAudio ∨ packetType = rtmpPacketTypeVideo) ∧ timeStamp = 0) ∨
      packetType = rtmpPacketTypeInfo then rtmpPacketSizeLarge
  else rtmpPacketSizeMedium

/-- The header of a tag, when the buffer holds one. -/
def startTag (buf : List UInt8) : Option (Pending × List UInt8) :=
  (split 11 (skipSignature buf)).map fun (header, rest) =>
    let packetType := header.getD 0 0
    let timeStamp := UInt32.ofNat
      (ofBigEndian ((header.drop 4).take 3) + (header.getD 7 0).toNat * 2 ^ 24)
    ({ packetType := packetType
       headerType := writeHeaderType packetType timeStamp
       timeStamp := timeStamp
       bodySize := ofBigEndian ((header.drop 1).take 3) }, rest)

def Pending.message (pkt : Pending) (infoField2 : UInt32) : Message :=
  Message.ofBody
    { headerType := pkt.headerType
      packetType := pkt.packetType
      channel := 4
      timeStamp := pkt.timeStamp
      infoField2 := infoField2
      bytesRead := pkt.bodySize }
    pkt.body

/-- The loop of `RTMP_Write`, on what is left of a buffer of `size` bytes. -/
def writeLoop (infoField2 : UInt32) (size : ℕ) : ℕ → Writer → List UInt8 → Writing
  | 0, w, _ => ⟨w, [], .overread⟩
  | fuel + 1, w, buf =>
    if buf = [] then ⟨w, [], .returned size⟩
    else if w.pkt.body = [] ∧ size < 11 then ⟨w, [], .returned 0⟩
    else
      match if w.pkt.body = [] then startTag buf else some (w.pkt, buf) with
      | none => ⟨w, [], .overread⟩
      | some (pkt, buf) =>
        let num := min (pkt.bodySize - pkt.body.length) buf.length
        let pkt := { pkt with body := pkt.body ++ buf.take num }
        let buf := buf.drop num
        if pkt.body.length = pkt.bodySize then
          let sent := w.link.send (pkt.message infoField2)
          let w := ⟨sent.1, { pkt with body := [] }⟩
          if buf.length < 4 then ⟨w, sent.2, .returned (size + (buf.length - 4 : ℤ))⟩
          else (writeLoop infoField2 size fuel w (buf.drop 4)).after sent.2
        else writeLoop infoField2 size fuel { w with pkt := pkt } buf

/-- `RTMP_Write`, to a stream with id `infoField2`. -/
def rtmpWrite (infoField2 : UInt32) (w : Writer) (buf : List UInt8) : Writing :=
  writeLoop infoField2 buf.length (buf.length + 1) w buf

/-- The message a tag is sent as. -/
def tagMessage (infoField2 : UInt32) (t : Tag) : Message :=
  Pending.message
    { packetType := t.tagType
      headerType := writeHeaderType t.tagType t.timestamp
      timeStamp := t.timestamp
      bodySize := t.data.length
      body := t.data }
    infoField2

/-- The size of the data fits its field, and the tag does not pass for a signature. -/
structure Writable (t : Tag) : Prop where
  size : t.data.length < 2 ^ 24
  tagType : t.tagType ≠ 0x46

theorem skipSignature_of_ne {b : UInt8} (hb : b ≠ 0x46) (bs : List UInt8) :
    skipSignature (b :: bs) = b :: bs := by
  unfold skipSignature
  split
  · simp_all
  · rfl

theorem startTag_header {t : Tag} (h : Writable t) (rest : List UInt8) :
    startTag (t.header ++ rest) =
      some ({ packetType := t.tagType
              headerType := writeHeaderType t.tagType t.timestamp
              timeStamp := t.timestamp
              bodySize := t.data.length }, rest) := by
  have hskip : skipSignature (t.header ++ rest) = t.header ++ rest := skipSignature_of_ne h.tagType _
  have hsize : ofBigEndian (bigEndian 3 t.data.length) = t.data.length :=
    ofBigEndian_bigEndian h.size
  have htype : t.header.getD 0 0 = t.tagType := rfl
  have hstamp : (t.header.drop 4).take 3 = bigEndian 3 t.timestamp.toNat := rfl
  have hupper : t.header.getD 7 0 = UInt8.ofNat (t.timestamp.toNat / 2 ^ 24) := rfl
  have hlen : (t.header.drop 1).take 3 = bigEndian 3 t.data.length := rfl
  simp only [startTag, hskip, split_append t.length_header, Option.map_some, htype, hstamp, hupper,
    hlen, hsize, timestamp_parts]

/-- A whole tag at the front of the buffer is sent as one message. -/
theorem writeLoop_tag {t : Tag} (h : Writable t) (infoField2 : UInt32) {size : ℕ} (fuel : ℕ)
    {w : Writer} (hidle : w.pkt.body = []) (hsize : 11 ≤ size) (rest : List UInt8) :
    ∃ w', w'.link = (w.link.send (tagMessage infoField2 t)).1 ∧ w'.pkt.body = [] ∧
      writeLoop infoField2 size (fuel + 1) w (t.encode ++ rest) =
        (writeLoop infoField2 size fuel w' rest).after
          (w.link.send (tagMessage infoField2 t)).2 := by
  let pkt : Pending :=
    { packetType := t.tagType
      headerType := writeHeaderType t.tagType t.timestamp
      timeStamp := t.timestamp
      bodySize := t.data.length }
  refine ⟨⟨(w.link.send (tagMessage infoField2 t)).1, pkt⟩, rfl, rfl, ?_⟩
  have hbuf : t.encode ++ rest =
      t.header ++ (t.data ++ (bigEndian 4 (t.data.length + 11) ++ rest)) := by
    simp only [Tag.encode, List.append_assoc]
  have hne : t.encode ++ rest ≠ [] := by
    rw [hbuf]
    exact List.cons_ne_nil _ _
  have hshort : ¬ (w.pkt.body = [] ∧ size < 11) := by omega
  have hnum : min (t.data.length - 0)
      (t.data ++ (bigEndian 4 (t.data.length + 11) ++ rest)).length = t.data.length := by
    rw [List.length_append]
    omega
  have htail : ¬ (bigEndian 4 (t.data.length + 11) ++ rest).length < 4 := by
    rw [List.length_append, length_bigEndian]
    omega
  rw [writeLoop, if_neg hne, if_neg hshort, hidle, if_pos rfl, hbuf, startTag_header h]
  simp only [List.length_nil, hnum, List.nil_append, List.take_left, List.drop_left, if_true,
    htail, if_false, List.drop_left' (length_bigEndian 4 (t.data.length + 11))]
  rfl

theorem writeLoop_tags (infoField2 : UInt32) {size fuel : ℕ} {w : Writer}
    (hidle : w.pkt.body = []) {tags : List Tag} (h : ∀ t ∈ tags, Writable t)
    (hsize : 15 * tags.length ≤ size) (hfuel : tags.length < fuel) :
    ∃ w', w'.link = (tags.map (tagMessage infoField2)).foldl (sendStep Link.send) w.link ∧
      w'.pkt.body = [] ∧
      writeLoop infoField2 size fuel w (tags.flatMap Tag.encode) =
        ⟨w', transmit Link.send w.link (tags.map (tagMessage infoField2)), .returned size⟩ := by
  have hmany : tags ≠ [] → 11 ≤ size := fun hne => by
    have hpos := List.length_pos_iff.mpr hne
    omega
  clear hsize
  induction tags generalizing fuel w with
  | nil =>
    obtain ⟨fuel, rfl⟩ := Nat.exists_eq_add_one_of_ne_zero (by omega : fuel ≠ 0)
    exact ⟨w, rfl, hidle, by rw [List.flatMap_nil, writeLoop, if_pos rfl]; rfl⟩
  | cons t tags ih =>
    obtain ⟨fuel, rfl⟩ := Nat.exists_eq_add_one_of_ne_zero (by omega : fuel ≠ 0)
    have hsize : 11 ≤ size := hmany (List.cons_ne_nil _ _)
    obtain ⟨w₁, hlink₁, hidle₁, hfirst⟩ := writeLoop_tag (h t List.mem_cons_self) infoField2
      fuel hidle hsize (tags.flatMap Tag.encode)
    obtain ⟨w', hlink, hidle', hrest⟩ := ih hidle₁ (fun t ht => h t (List.mem_cons_of_mem _ ht))
      (Nat.lt_of_succ_lt_succ hfuel) (fun _ => hsize)
    refine ⟨w', ?_, hidle', ?_⟩
    · rw [hlink, hlink₁]
      rfl
    · rw [List.flatMap_cons, hfirst, hrest, hlink₁]
      rfl

/-- A buffer of whole tags is sent tag by tag, and all of it is taken. -/
theorem rtmpWrite_tags (infoField2 : UInt32) {w : Writer} (hidle : w.pkt.body = [])
    {tags : List Tag} (h : ∀ t ∈ tags, Writable t) :
    let writing := rtmpWrite infoField2 w (tags.flatMap Tag.encode)
    let ms := tags.map (tagMessage infoField2)
    writing.wire = transmit Link.send w.link ms ∧
      writing.writer.link = ms.foldl (sendStep Link.send) w.link ∧
      writing.writer.pkt.body = [] ∧
      writing.outcome = .returned (tags.flatMap Tag.encode).length := by
  intro writing ms
  have hlen := Tag.length_flatMap_encode tags
  have hfuel : tags.length < (tags.flatMap Tag.encode).length + 1 := by omega
  obtain ⟨w', hlink, hidle', hall⟩ := writeLoop_tags infoField2 hidle h hlen hfuel
  have hwriting : writing = _ := hall
  rw [hwriting]
  exact ⟨rfl, hlink, hidle', rfl⟩

/-- `RTMP_Write` as a sender of buffers. -/
def writeTo (infoField2 : UInt32) (w : Writer) (buf : List UInt8) : Writer × List UInt8 :=
  ((rtmpWrite infoField2 w buf).writer, (rtmpWrite infoField2 w buf).wire)

/-- Buffers that each hold a tag or nothing are sent tag by tag, and each is taken whole. -/
theorem transmit_writeTo (infoField2 : UInt32) {w : Writer} (hidle : w.pkt.body = [])
    {pieces : List (Option Tag)} (h : ∀ piece ∈ pieces, ∀ t ∈ piece, Writable t) :
    let bufs := pieces.map fun piece => piece.toList.flatMap Tag.encode
    let ms := (pieces.flatMap Option.toList).map (tagMessage infoField2)
    transmit (writeTo infoField2) w bufs = transmit Link.send w.link ms ∧
      Runs.EveryStep (sendStep (writeTo infoField2))
        (fun w buf => (rtmpWrite infoField2 w buf).outcome = .returned buf.length) w bufs := by
  induction pieces generalizing w with
  | nil => exact ⟨rfl, Runs.everyStep_nil⟩
  | cons piece pieces ih =>
    have hpiece (t : Tag) (ht : t ∈ piece.toList) : Writable t :=
      h piece List.mem_cons_self t (Option.mem_toList.mp ht)
    obtain ⟨hwire, hlink, hidle', hall⟩ := rtmpWrite_tags infoField2 hidle hpiece
    obtain ⟨hrest, htaken⟩ := ih hidle' fun piece hp => h piece (List.mem_cons_of_mem _ hp)
    refine ⟨?_, Runs.everyStep_cons.mpr ⟨hall, htaken⟩⟩
    rw [List.map_cons, transmit, List.flatMap_cons, List.map_append, transmit_append]
    rw [hlink] at hrest
    exact congrArg₂ _ hwire hrest

end ObsBeacon.Rtmp.Chunk
