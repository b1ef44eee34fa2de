import ObsBeacon.PacketProbe.EmulationPrevention
import ObsBeacon.PacketProbe.Probe
import ObsBeacon.PacketProbe.Scan

/-! The packet `injectSei` produces, read back: the scan of the new access unit, the SEI by
its documented grammar, and the two numbers in its JSON text. -/
namespace ObsBeacon.PacketProbe
open Decimal H264

/-- What a reader takes out of the SEI NAL unit. -/
structure SeiPayload where
  payloadSize : ℕ
  uuid : List UInt8
  json : List UInt8
  deriving DecidableEq, Repr

/-- The documented grammar: header `06`, then in the unescaped RBSP type `05`, the
ff-coded size, 16 bytes of UUID, the JSON text and a final `80`, with nothing left over. -/
def readSeiNal : List UInt8 → Option SeiPayload
  | [] => none
  | header :: escaped =>
    if header ≠ 0x06 then none
    else
      match unescape escaped with
      | [] => none
      | type :: rbsp =>
        if type ≠ 0x05 then none
        else
          match readFfCoded rbsp with
          | none => none
          | some (size, body) =>
            if 16 ≤ size ∧ body.length = size + 1 ∧ body.getLast? = some 0x80 then
              some ⟨size, body.take 16, (body.take size).drop 16⟩
            else none

/-- Read a fixed text. -/
def expect (text bs : List UInt8) : Option (List UInt8) :=
  if text <+: bs then some (bs.drop text.length) else none

/-- The two numbers of the documented JSON string. -/
def readSeiJson (json : List UInt8) : Option (ℕ × ℕ) := do
  let bs ← expect (ascii "\x7b\"messageId\":\"encodeTimestamp\",\"payload\":") json
  let (t, bs) ← parse bs
  let bs ← expect (ascii ",\"sourceLatencyMs\":") bs
  let (s, bs) ← parse bs
  if bs = ascii "\x7d" then some (t, s) else none

/-- The SEI NAL unit as documented, before any escaping. -/
def seiNal (t s : UInt64) : List UInt8 :=
  0x06 :: 0x05 :: (ffCoded (16 + (seiJson t s).length) ++ (kSeiUuid ++ (seiJson t s ++ [0x80])))

theorem expect_append (text rest : List UInt8) : expect text (text ++ rest) = some rest := by
  simp [expect]

theorem readSeiJson_seiJson (t s : UInt64) :
    readSeiJson (seiJson t s) = some (t.toNat, s.toNat) := by
  have hcomma : ∀ b ∈ (ascii ",\"sourceLatencyMs\":" ++ (render s.toNat ++ ascii "\x7d")).head?,
      isDigit b = false := by
    intro b hb
    obtain rfl : 44 = b := by simpa [ascii] using hb
    rfl
  have hclose : ∀ b ∈ (ascii "\x7d").head?, isDigit b = false := by
    intro b hb
    obtain rfl : 125 = b := by simpa [ascii] using hb
    rfl
  simp only [readSeiJson, seiJson, List.append_assoc, expect_append, Option.bind_eq_bind,
    Option.bind_some, parse_render _ hcomma, parse_render _ hclose, ↓reduceIte]

theorem uint64_lt_pow (x : UInt64) : x.toNat < 10 ^ 20 :=
  x.toNat_lt.trans (by norm_num)

/-- The 61 fixed characters and two numbers of at most 20 digits. -/
theorem seiJson_length_le (t s : UInt64) : (seiJson t s).length ≤ 101 := by
  have ht := render_length_le (k := 20) (by decide) (uint64_lt_pow t)
  have hs := render_length_le (k := 20) (by decide) (uint64_lt_pow s)
  have h1 : (ascii "\x7b\"messageId\":\"encodeTimestamp\",\"payload\":").length = 41 := by decide
  have h2 : (ascii ",\"sourceLatencyMs\":").length = 19 := by decide
  have h3 : (ascii "\x7d").length = 1 := by decide
  simp only [seiJson, List.length_append, h1, h2, h3]
  omega

theorem seiJson_length_pos (t s : UInt64) : 0 < (seiJson t s).length := by
  simp [seiJson, ascii]

theorem seiJson_ne_zero (t s : UInt64) : ∀ b ∈ seiJson t s, b ≠ 0 := by
  have h1 : ∀ b ∈ ascii "\x7b\"messageId\":\"encodeTimestamp\",\"payload\":", b ≠ 0 :=
    List.forall_mem_ne'.mpr (by decide)
  have h2 : ∀ b ∈ ascii ",\"sourceLatencyMs\":", b ≠ 0 := List.forall_mem_ne'.mpr (by decide)
  have h3 : ∀ b ∈ ascii "\x7d", b ≠ 0 := List.forall_mem_ne'.mpr (by decide)
  simp only [seiJson, List.mem_append]
  rintro b ((((hb | hb) | hb) | hb) | hb)
  · exact h1 b hb
  · exact render_ne_zero hb
  · exact h2 b hb
  · exact render_ne_zero hb
  · exact h3 b hb

/-- `snprintf` holds the whole text: 128 bytes are more than it can need. -/
theorem snprintf_seiJson (t s : UInt64) :
    snprintf 128 (seiJson t s) = (seiJson t s ++ [0], (seiJson t s).length) := by
  have h := seiJson_length_le t s
  rw [snprintf, List.take_of_length_le (by omega)]

theorem ffCoded_of_lt {n : ℕ} (h : n < 255) : ffCoded n = [UInt8.ofNat n] := by
  simp [ffCoded, Nat.div_eq_of_lt h, Nat.mod_eq_of_lt h]

theorem seiNal_ne_zero (t s : UInt64) : ∀ b ∈ seiNal t s, b ≠ 0 := by
  have hlen := seiJson_length_le t s
  have huuid : ∀ b ∈ kSeiUuid, b ≠ 0 := List.forall_mem_ne'.mpr (by decide)
  have hsize : UInt8.ofNat (16 + (seiJson t s).length) ≠ 0 := by
    intro h
    have h := congrArg UInt8.toNat h
    rw [UInt8.toNat_ofNat'] at h
    simp only [UInt8.toNat_zero] at h
    omega
  simp only [seiNal, ffCoded_of_lt (show 16 + (seiJson t s).length < 255 by omega),
    List.mem_cons, List.mem_append, List.not_mem_nil, or_false]
  rintro b (rfl | rfl | rfl | hb | hb | rfl)
  · decide
  · decide
  · exact hsize
  · exact huuid b hb
  · exact seiJson_ne_zero t s b hb
  · decide

/-- Nothing in the SEI is escaped, so the unit is the documented one. -/
theorem seiUnit_eq (t s : UInt64) :
    seiUnit (seiJson t s ++ [0]) (seiJson t s).length = [0, 0, 0, 1] ++ seiNal t s := by
  have hr : 0x06 :: seiRbsp (seiJson t s ++ [0]) (seiJson t s).length = seiNal t s := by
    simp [seiRbsp, seiNal, ffCoded]
  have hz : ∀ b ∈ seiRbsp (seiJson t s ++ [0]) (seiJson t s).length, b ≠ 0 :=
    fun b hb => seiNal_ne_zero t s b (hr ▸ List.mem_cons_of_mem _ hb)
  rw [seiUnit, epbEscape_of_ne_zero hz, ← hr]
  rfl

/-- The packet after the injection: the SEI unit in front of the original bytes. -/
theorem injectSei_eq {pkt : EncoderPacket} {a : List UInt8} (h : pkt.data = some a)
    (t s : UInt64) :
    injectSei pkt t s = pkt.setData (([0, 0, 0, 1] ++ seiNal t s) ++ a) := by
  have hpos := seiJson_length_pos t s
  simp only [injectSei, snprintf_seiJson, h, seiUnit_eq]
  rw [if_neg (by omega)]

theorem seiNal_tail_ne_zero (t s : UInt64) : ∀ b ∈ (seiNal t s).tail, b ≠ 0 :=
  fun b hb => seiNal_ne_zero t s b (List.mem_of_mem_tail hb)

/-- The documented grammar accepts the SEI and returns its size, UUID and text. -/
theorem readSeiNal_seiNal (t s : UInt64) :
    readSeiNal (seiNal t s) = some ⟨16 + (seiJson t s).length, kSeiUuid, seiJson t s⟩ := by
  have hz := unescape_of_ne_zero (seiNal_tail_ne_zero t s)
  have hu : kSeiUuid.length = 16 := rfl
  simp only [seiNal, List.tail_cons] at hz
  simp only [seiNal, readSeiNal, hz, readFfCoded_ffCoded, ne_eq, not_true_eq_false, ↓reduceIte]
  have hlen : (kSeiUuid ++ (seiJson t s ++ [0x80])).length = 16 + (seiJson t s).length + 1 := by
    simp only [List.length_append, hu, List.length_singleton]
    omega
  have hlast : (kSeiUuid ++ (seiJson t s ++ [0x80])).getLast? = some 0x80 := by
    simp
  have htake : (kSeiUuid ++ (seiJson t s ++ [0x80])).take 16 = kSeiUuid := by
    rw [← hu, List.take_left]
  have hjson : ((kSeiUuid ++ (seiJson t s ++ [0x80])).take (16 + (seiJson t s).length)).drop 16 =
      seiJson t s := by
    rw [← hu, List.take_length_add_append, List.drop_left, List.take_left]
  rw [if_pos ⟨by omega, hlen, hlast⟩, htake, hjson]

/-- The scan of the new access unit: the SEI, then the units of the original one. -/
theorem nalScan_seiNal (a : List UInt8) (t s : UInt64) :
    nalScan (([0, 0, 0, 1] ++ seiNal t s) ++ a) =
      ⟨0, 4, seiNal t s ++ a.take (findStartCode a 0).1⟩ ::
        (nalScan a).map (NalUnit.shift (4 + (seiNal t s).length)) := by
  have hpre : startCodeAt ([0, 0, 0, 1] ++ seiNal t s) 0 = some 4 := by
    simp [startCodeAt]
  rw [nalScan_prepend hpre (seiNal_ne_zero t s), List.length_append]
  rfl

theorem nalScan_seiNal_of_startCode {a : List UInt8} (ha : startCodeAt a 0 ≠ none)
    (t s : UInt64) :
    nalScan (([0, 0, 0, 1] ++ seiNal t s) ++ a) =
      ⟨0, 4, seiNal t s⟩ :: (nalScan a).map (NalUnit.shift (4 + (seiNal t s).length)) := by
  obtain ⟨len, hlen⟩ := Option.ne_none_iff_exists'.mp ha
  rw [nalScan_seiNal, findStartCode_found hlen, List.take_zero, List.append_nil]

/-- The injection is lossless and decodable: one unit more for a scan, the original start
codes and NAL units after it, an SEI that reads back to the two numbers it was built from,
and a text that fits the buffer it is printed into. -/
theorem injectSei_lossless (pkt : EncoderPacket) {a : List UInt8} (hdata : pkt.data = some a)
    (ha : startCodeAt a 0 ≠ none) (t s : UInt64) :
    ∃ nal, injectSei pkt t s = pkt.setData (([0, 0, 0, 1] ++ nal) ++ a) ∧
      nalScan (([0, 0, 0, 1] ++ nal) ++ a) =
        ⟨0, 4, nal⟩ :: (nalScan a).map (NalUnit.shift (4 + nal.length)) ∧
      (∃ sei, readSeiNal nal = some sei ∧ sei.payloadSize = 16 + sei.json.length ∧
        sei.uuid = kSeiUuid ∧ readSeiJson sei.json = some (t.toNat, s.toNat)) ∧
      snprintf 128 (seiJson t s) = (seiJson t s ++ [0], (seiJson t s).length) ∧
      (seiJson t s).length < 128 := by
  refine ⟨seiNal t s, injectSei_eq hdata t s, nalScan_seiNal_of_startCode ha t s, ?_,
    snprintf_seiJson t s, ?_⟩
  · exact ⟨_, readSeiNal_seiNal t s, rfl, rfl, readSeiJson_seiJson t s⟩
  · have h := seiJson_length_le t s
    omega

/-- A one-slice access unit at the largest values of both numbers. -/
theorem injectSei_lossless_slice :
    ∃ nal, injectSei (.video [0, 0, 1, 0x41, 0x9a] false) (-1) (-1) =
        (EncoderPacket.video [0, 0, 1, 0x41, 0x9a] false).setData
          (([0, 0, 0, 1] ++ nal) ++ [0, 0, 1, 0x41, 0x9a]) ∧
      nalScan (([0, 0, 0, 1] ++ nal) ++ [0, 0, 1, 0x41, 0x9a]) =
        ⟨0, 4, nal⟩ ::
          (nalScan [0, 0, 1, 0x41, 0x9a]).map (NalUnit.shift (4 + nal.length)) ∧
      (∃ sei, readSeiNal nal = some sei ∧ sei.payloadSize = 16 + sei.json.length ∧
        sei.uuid = kSeiUuid ∧
        readSeiJson sei.json = some ((-1 : UInt64).toNat, (-1 : UInt64).toNat)) ∧
      snprintf 128 (seiJson (-1) (-1)) = (seiJson (-1) (-1) ++ [0], (seiJson (-1) (-1)).length) ∧
      (seiJson (-1) (-1)).length < 128 :=
  injectSei_lossless (.video [0, 0, 1, 0x41, 0x9a] false) rfl (by decide) (-1) (-1)

end ObsBeacon.PacketProbe
