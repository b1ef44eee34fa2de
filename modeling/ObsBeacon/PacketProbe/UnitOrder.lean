import ObsBeacon.PacketProbe.SeiRoundTrip

/-! The order of the NAL units in the access unit `injectSei` produces. -/
namespace ObsBeacon.PacketProbe
open H264

/-- The units of the new access unit: an SEI, then the original ones. -/
theorem nalUnits_seiNal (a : List UInt8) (t s : UInt64) :
    ∃ sei, isSei sei = true ∧
      nalUnits (([0, 0, 0, 1] ++ seiNal t s) ++ a) = sei :: nalUnits a := by
  refine ⟨seiNal t s ++ a.take (findStartCode a 0).1, rfl, ?_⟩
  rw [nalUnits, nalScan_seiNal, List.map_cons, List.map_map]
  rfl

/-- The SEI always comes before the slices; the new access unit is well ordered exactly
when the old one has neither a delimiter nor a buffering period, whose place it takes. -/
theorem injectSei_order (pkt : EncoderPacket) {a b : List UInt8} (hdata : pkt.data = some a)
    (hord : WellOrdered (nalUnits a)) (t s : UInt64) (hb : (injectSei pkt t s).data = some b) :
    SeiBeforeSlice (nalUnits b) ∧
      (WellOrdered (nalUnits b) ↔
        ∀ nal ∈ nalUnits a, isAud nal = false ∧ isBufferingPeriod nal = false) := by
  rw [injectSei_eq hdata] at hb
  obtain rfl := Option.some.inj hb
  obtain ⟨sei, hsei, hunits⟩ := nalUnits_seiNal a t s
  rw [hunits]
  have hslice := (seiBeforeSlice_cons hsei).mpr hord.seiBeforeSlice
  refine ⟨hslice, fun h nal hmem => ⟨?_, ?_⟩, fun h => ⟨?_, hslice, ?_⟩⟩
  · exact audFirst_cons.mp h.audFirst nal hmem
  · exact (bufferingPeriodFirst_cons hsei).mp h.bufferingPeriodFirst nal hmem
  · exact audFirst_cons.mpr fun nal hmem => (h nal hmem).1
  · exact (bufferingPeriodFirst_cons hsei).mpr fun nal hmem => (h nal hmem).2

/-- A keyframe of parameter sets, SEI and slice, as the tested encoder emits it. -/
theorem injectSei_order_keyframe :
    SeiBeforeSlice (nalUnits (([0, 0, 0, 1] ++ seiNal 7 5) ++
        [0, 0, 0, 1, 0x67, 0, 0, 0, 1, 0x68, 0, 0, 1, 0x06, 0x05, 0x01, 0x2a, 0x80,
          0, 0, 1, 0x65, 0x88])) ∧
      (WellOrdered (nalUnits (([0, 0, 0, 1] ++ seiNal 7 5) ++
        [0, 0, 0, 1, 0x67, 0, 0, 0, 1, 0x68, 0, 0, 1, 0x06, 0x05, 0x01, 0x2a, 0x80,
          0, 0, 1, 0x65, 0x88])) ↔
        ∀ nal ∈ nalUnits [0, 0, 0, 1, 0x67, 0, 0, 0, 1, 0x68, 0, 0, 1, 0x06, 0x05, 0x01,
            0x2a, 0x80, 0, 0, 1, 0x65, 0x88],
          isAud nal = false ∧ isBufferingPeriod nal = false) :=
  injectSei_order
    (.video [0, 0, 0, 1, 0x67, 0, 0, 0, 1, 0x68, 0, 0, 1, 0x06, 0x05, 0x01, 0x2a, 0x80,
      0, 0, 1, 0x65, 0x88] true)
    rfl (by decide) 7 5 (by rw [injectSei_eq rfl]; rfl)

/-- An access unit that opens with a delimiter, the order H.264 asks for, leaves
`injectSei` with the delimiter in second place. -/
theorem injectSei_displaces_aud :
    WellOrdered (nalUnits [0, 0, 0, 1, 0x09, 0xf0, 0, 0, 0, 1, 0x65, 0x88]) ∧
      ∃ b, (injectSei (.video [0, 0, 0, 1, 0x09, 0xf0, 0, 0, 0, 1, 0x65, 0x88] true) 7 5).data =
          some b ∧ ¬ WellOrdered (nalUnits b) := by
  refine ⟨by decide, _, by rw [injectSei_eq rfl]; rfl, fun h => ?_⟩
  obtain ⟨sei, -, hunits⟩ := nalUnits_seiNal [0, 0, 0, 1, 0x09, 0xf0, 0, 0, 0, 1, 0x65, 0x88] 7 5
  rw [hunits] at h
  have haud := audFirst_cons.mp h.audFirst [0x09, 0xf0] (by decide)
  exact absurd haud (by decide)

end ObsBeacon.PacketProbe
