import ObsBeacon.Rtmp.AmfBounds
import ObsBeacon.Rtmp.AmfWellFormed

/-! A long string whose length wraps around where a `long` has 32 bits. -/
namespace ObsBeacon.Rtmp
open Amf0 Memory

/-- A long string or an XML document that is said to have 2^32 - 5 bytes. -/
def wrappingString (type : UInt8) : List UInt8 := type :: bigEndian 4 (2 ^ 32 - 5)

section Wrapping
variable {mem : ℤ → UInt8} {fuel : ℕ} {pos nSize : ℤ} {type : UInt8}

theorem decodeData_wrapping (long64 : Bool) (fuel : ℕ) (nSize : ℤ)
    (htype : type = 0x0c ∨ type = 0x0f) (h : Holds mem pos (wrappingString type)) :
    ∃ make : List UInt8 → AmfData, decodeData mem long64 fuel pos nSize =
      decodeLongString mem long64 make (pos + 1) (nSize - 1) := by
  unfold decodeData
  rw [h.1]
  obtain rfl | rfl := htype
  · exact ⟨.string, rfl⟩
  · exact ⟨.xmlDoc, rfl⟩

/-- With 32 bits its length and 4 is -1, so that it is accepted and takes no byte. -/
theorem decodeData_wraps (fuel : ℕ) (htype : type = 0x0c ∨ type = 0x0f) (hpos : 0 < nSize)
    (hint : nSize < 2 ^ 31) (h : Holds mem pos (wrappingString type)) :
    ∃ data, decodeData mem false fuel pos nSize = .ok (data, nSize) := by
  obtain ⟨make, hmake⟩ := decodeData_wrapping false fuel nSize htype h
  have hlen : amfDecodeInt32 mem (pos + 1) = 2 ^ 32 - 5 := holds_bigEndian h.2 (by decide)
  have hfits : longStringFits false (nSize - 1) (2 ^ 32 - 5) = true := by
    have hwrap : toInt ((2 ^ 32 - 5 : ℕ) + 4) = -1 := by decide
    unfold longStringFits
    rw [if_neg Bool.false_ne_true, hwrap]
    exact decide_eq_true (by omega)
  have hleft : toInt (nSize - 1 - (4 + (2 ^ 32 - 5 : ℕ))) = nSize := by
    have hsub : nSize - 1 - (4 + (2 ^ 32 - 5 : ℕ)) = nSize - (2 ^ 32 : ℕ) := by omega
    unfold toInt
    rw [hsub]
    exact (Int.sub_bmod_right _ _).trans (toInt_of_lt (by omega) hint)
  refine ⟨make (amfDecodeLongString mem (pos + 1)), ?_⟩
  rw [hmake, decodeLongString, hlen, if_pos hfits, hleft]

/-- With 64 bits it is refused. -/
theorem decodeData_refused (htype : type = 0x0c ∨ type = 0x0f) (hint : nSize < 2 ^ 31)
    (h : Holds mem pos (wrappingString type)) :
    decodeData mem true fuel pos nSize = .error .invalid := by
  obtain ⟨make, hmake⟩ := decodeData_wrapping true fuel nSize htype h
  have hlen : amfDecodeInt32 mem (pos + 1) = 2 ^ 32 - 5 := holds_bigEndian h.2 (by decide)
  rw [hmake, decodeLongString, hlen, if_neg]
  unfold longStringFits
  rw [if_pos rfl, decide_eq_true_eq]
  omega

theorem not_marker (htype : type = 0x0c ∨ type = 0x0f) (h : Holds mem pos (wrappingString type)) :
    amfDecodeInt24 mem pos ≠ 0x09 := by
  intro hmark
  have hzero : type = 0x00 := h.1.symm.trans (eq_zero_of_marker hmark)
  obtain rfl | rfl := htype
  · exact absurd hzero (by decide)
  · exact absurd hzero (by decide)

/-- The loop of `AMF_Decode` stands still at it, and adds a property in each turn. -/
theorem decodeProps_wraps (htype : type = 0x0c ∨ type = 0x0f) (hpos : 0 < nSize)
    (hint : nSize < 2 ^ 31) (h : Holds mem pos (wrappingString type)) (fuel : ℕ) :
    decodeProps mem false fuel false pos nSize = .error .fuel := by
  induction fuel with
  | zero => rw [decodeProps]
  | succ fuel ih =>
    rw [decodeProps, if_neg (by omega), if_neg fun hmark => not_marker htype h hmark.2]
    cases fuel with
    | zero => rfl
    | succ fuel =>
      obtain ⟨data, hdata⟩ := decodeData_wraps fuel htype hpos hint h
      rw [amfPropDecode_unnamed hpos, hdata]
      show (if nSize - nSize = -1 ∨ nSize - (nSize - nSize) < 0 then Except.error Stop.invalid
        else (decodeProps mem false (fuel + 1) false (pos + (nSize - nSize))
          (nSize - (nSize - nSize))).map _) = _
      rw [if_neg (by omega), Int.sub_self, Int.add_zero, Int.sub_zero, ih]
      rfl

theorem decodeProps_refused (htype : type = 0x0c ∨ type = 0x0f) (hpos : 0 < nSize)
    (hint : nSize < 2 ^ 31) (h : Holds mem pos (wrappingString type)) (fuel : ℕ) :
    Below (decodeProps mem true fuel false pos nSize) (.error .invalid) := by
  cases fuel with
  | zero =>
    rw [decodeProps]
    exact .inl rfl
  | succ fuel =>
    rw [decodeProps, if_neg (by omega), if_neg fun hmark => not_marker htype h hmark.2]
    cases fuel with
    | zero => exact .inl rfl
    | succ fuel =>
      rw [amfPropDecode_unnamed hpos, decodeData_refused htype hint h]
      exact .refl _

end Wrapping

/-- An error that the loop of `AMF_Decode` ends in behind some values is its result in front of
them too. -/
theorem decodeProps_front (front : AmfObject) (hfits : front.FitsValues)
    (hunmarked : front.upToMarker = front) {mem : ℤ → UInt8} {long64 : Bool} {pos nSize : ℤ}
    {e : Stop} (hsize : front.values.length < nSize) (hint : nSize < 2 ^ 31)
    (h : Holds mem pos front.values)
    (hrest : ∀ fuel, Below (decodeProps mem long64 fuel false (pos + front.values.length)
      (nSize - front.values.length)) (.error e)) (fuel : ℕ) :
    Below (decodeProps mem long64 fuel false pos nSize) (.error e) := by
  cases front with
  | nil =>
    have hfuel := hrest fuel
    change Below (decodeProps mem long64 fuel false (pos + 0) (nSize - 0)) _ at hfuel
    rwa [Int.add_zero, Int.sub_zero] at hfuel
  | cons name data rest =>
    obtain ⟨rfl, hdata, hfitsRest⟩ := hfits
    have hpos := data.length_bytes_pos
    rw [AmfObject.values, List.length_append] at hsize hrest
    obtain ⟨hbytes, hvalues⟩ := holds_append.mp h
    have hmarker : ¬ data.isMarker = true := by
      intro hmarker
      rw [AmfObject.upToMarker, if_pos hmarker] at hunmarked
      cases hunmarked
    rw [AmfObject.upToMarker, if_neg hmarker] at hunmarked
    have hrestUnmarked : rest.upToMarker = rest := (AmfObject.cons.inj hunmarked).2.2
    cases fuel with
    | zero =>
      rw [decodeProps]
      exact .inl rfl
    | succ fuel =>
      rw [decodeProps, if_neg (by omega),
        if_neg fun hmark => hmarker ((marker_iff data hbytes).mp hmark.2)]
      -- with fuel enough the value is read, so that with less it is read or there is no result
      have hprop : Below (amfPropDecode mem long64 fuel false pos nSize)
          (.ok (([], data), data.bytes.length)) := by
        have hread : amfPropDecode mem long64 (2 * data.bytes.length + fuel) false pos nSize =
            .ok (([], data), data.bytes.length) :=
          amfPropDecode_bytes data hdata (by omega) (by omega) hint hbytes
        rw [← hread]
        exact amfPropDecode_below (by omega) false pos nSize
      obtain hnone | hread := hprop
      · rw [hnone]
        exact .inl rfl
      · rw [hread]
        show Below (if (data.bytes.length : ℤ) = -1 ∨ nSize - data.bytes.length < 0
          then Except.error Stop.invalid
          else (decodeProps mem long64 fuel false (pos + data.bytes.length)
            (nSize - data.bytes.length)).map _) _
        rw [if_neg (by omega)]
        have hbehind : Below (decodeProps mem long64 fuel false (pos + data.bytes.length)
            (nSize - data.bytes.length)) (.error e) := by
          apply decodeProps_front rest hfitsRest hrestUnmarked (by omega) (by omega) hvalues
          intro fuel
          rw [Int.add_assoc, Int.sub_sub, ← Int.natCast_add]
          exact hrest fuel
        exact hbehind.map _

/-- Where a `long` has 32 bits, `AMF_Decode` does not come to an end on any body that has, behind
well-formed values, a long string or an XML document said to have 2^32 - 5 bytes; where it has 64,
such a body is refused. -/
theorem amfDecode_stuck {front : AmfObject} (hfits : front.FitsValues)
    (hunmarked : front.upToMarker = front) {type : UInt8} (htype : type = 0x0c ∨ type = 0x0f)
    (back : List UInt8) {mem : ℤ → UInt8} {pos : ℤ} {nSize : ℕ}
    (hsize : nSize = (front.values ++ wrappingString type ++ back).length) (hint : nSize < 2 ^ 31)
    (h : Holds mem pos (front.values ++ wrappingString type ++ back)) :
    (∀ fuel, amfDecode mem false fuel false pos nSize = .error .fuel) ∧
      ∀ fuel, 2 * nSize + 1 ≤ fuel → amfDecode mem true fuel false pos nSize = .error .invalid := by
  obtain ⟨hfront, -⟩ := holds_append.mp h
  obtain ⟨hvalues, hstring⟩ := holds_append.mp hfront
  rw [List.length_append, List.length_append, wrappingString, List.length_cons, length_bigEndian]
    at hsize
  constructor
  · intro fuel
    have hbelow : Below (decodeProps mem false fuel false pos nSize) (.error .fuel) :=
      decodeProps_front front hfits hunmarked (by omega) (by omega) hvalues
        (fun fuel => .inr (decodeProps_wraps htype (by omega) (by omega) hstring fuel)) fuel
    have hstuck : decodeProps mem false fuel false pos nSize = .error .fuel := hbelow.elim id id
    rw [amfDecode, hstuck]
    rfl
  · intro fuel hfuel
    have hbelow : Below (decodeProps mem true fuel false pos nSize) (.error .invalid) :=
      decodeProps_front front hfits hunmarked (by omega) (by omega) hvalues
        (decodeProps_refused htype (by omega) (by omega) hstring) fuel
    have hend := (amfDecode_inBounds hint (fun i _ _ => rfl : AgreeOn mem mem pos (pos + nSize))
      false hfuel).2.1
    obtain hnone | hrefused := hbelow
    · rw [amfDecode, hnone] at hend
      exact absurd rfl hend
    · rw [amfDecode, hrefused]
      rfl

/-- A server that sends the name of a command and such a string. -/
theorem amfDecode_stuck_sample :
    let mem := load [0x02, 0x00, 0x01, 0x61, 0x0c, 0xff, 0xff, 0xff, 0xfb]
    (∀ fuel, amfDecode mem false fuel false 0 9 = .error .fuel) ∧
      ∀ fuel, 2 * 9 + 1 ≤ fuel → amfDecode mem true fuel false 0 9 = .error .invalid := by
  have hfits : (AmfObject.cons [] (.string [0x61]) .nil).FitsValues := ⟨rfl, trivial, trivial⟩
  have hnine : 9 < 2 ^ 31 := by decide
  exact amfDecode_stuck hfits rfl (.inl rfl) [] rfl hnine (holds_load _)

end ObsBeacon.Rtmp
