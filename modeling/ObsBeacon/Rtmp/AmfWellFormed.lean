import ObsBeacon.Rtmp.AmfDecode

/-! What the AMF0 decoders of librtmp read from a well-formed body. -/
namespace ObsBeacon.Rtmp
open Amf0 Memory

def AmfObject.count : AmfObject → ℕ
  | .nil => 0
  | .cons _ _ rest => rest.count + 1

mutual
/-- The AMF0 bytes of a value. -/
def AmfData.bytes : AmfData → List UInt8
  | .number bits => 0x00 :: bigEndian 8 bits.toNat
  | .boolean b => [0x01, if b then 1 else 0]
  | .string aval => encodeString aval
  | .object props => 0x03 :: (props.named ++ [0x00, 0x00, 0x09])
  | .null => [0x05]
  | .ecmaArray props => 0x08 :: (bigEndian 4 props.count ++ (props.named ++ [0x00, 0x00, 0x09]))
  | .strictArray props => 0x0a :: (bigEndian 4 props.count ++ props.values)
  | .date bits utcOffset =>
    0x0b :: (bigEndian 8 bits.toNat ++ bigEndian 2 (utcOffset % 2 ^ 16).toNat)
  | .xmlDoc aval => 0x0f :: (bigEndian 4 aval.length ++ aval)

/-- The properties with their names. -/
def AmfObject.named : AmfObject → List UInt8
  | .nil => []
  | .cons name data rest => bigEndian 2 name.length ++ name ++ data.bytes ++ rest.named

/-- The values alone, as in a strict array or in the body of an invoke. -/
def AmfObject.values : AmfObject → List UInt8
  | .nil => []
  | .cons _ data rest => data.bytes ++ rest.values
end

mutual
/-- What the bytes have room for: the length of a name, the offset of a date, and no names in a
strict array. -/
def AmfData.Fits : AmfData → Prop
  | .object props => props.FitsNamed
  | .ecmaArray props => props.FitsNamed
  | .strictArray props => props.FitsValues
  | .date _ utcOffset => -2 ^ 15 ≤ utcOffset ∧ utcOffset < 2 ^ 15
  | _ => True

def AmfObject.FitsNamed : AmfObject → Prop
  | .nil => True
  | .cons name data rest => name.length < 2 ^ 16 ∧ data.Fits ∧ rest.FitsNamed

def AmfObject.FitsValues : AmfObject → Prop
  | .nil => True
  | .cons name data rest => name = [] ∧ data.Fits ∧ rest.FitsValues
end

section Fields
variable {mem : ℤ → UInt8} {pos nSize : ℤ}

theorem holds_bigEndian {k n : ℕ} (h : Holds mem pos (bigEndian k n)) (hlt : n < 256 ^ k) :
    ofBigEndian (bytesAt mem pos k) = n := by
  have hbytes := h.bytesAt
  rw [length_bigEndian] at hbytes
  rw [hbytes, ofBigEndian_bigEndian hlt]

theorem amfDecodeString_holds {s : List UInt8} (hlen : s.length < 2 ^ 16)
    (h : Holds mem pos (bigEndian 2 s.length ++ s)) :
    amfDecodeInt16 mem pos = s.length ∧ amfDecodeString mem pos = s := by
  obtain ⟨hcount, hs⟩ := holds_append.mp h
  rw [length_bigEndian] at hs
  have hint : amfDecodeInt16 mem pos = s.length := holds_bigEndian hcount hlen
  refine ⟨hint, ?_⟩
  unfold amfDecodeString
  rw [hint]
  exact hs.bytesAt

theorem amfDecodeLongString_holds {s : List UInt8} (hlen : s.length < 2 ^ 31)
    (h : Holds mem pos (bigEndian 4 s.length ++ s)) :
    amfDecodeInt32 mem pos = s.length ∧ amfDecodeLongString mem pos = s := by
  obtain ⟨hcount, hs⟩ := holds_append.mp h
  rw [length_bigEndian] at hs
  have hint : amfDecodeInt32 mem pos = s.length := holds_bigEndian hcount (by omega)
  refine ⟨hint, ?_⟩
  unfold amfDecodeLongString
  rw [hint, toInt_of_lt (by omega) (by omega), Int.toNat_natCast]
  exact hs.bytesAt

theorem amfDecodeNumber_holds {bits : UInt64} (h : Holds mem pos (bigEndian 8 bits.toNat)) :
    amfDecodeNumber mem pos = bits := by
  have hlt : bits.toNat < 256 ^ 8 := bits.toNat_lt
  unfold amfDecodeNumber
  rw [holds_bigEndian h hlt, UInt64.ofNat_toNat]

/-- A long string that is there is accepted whatever the size of a `long` is. -/
theorem decodeLongString_holds (long64 : Bool) (make : List UInt8 → AmfData) {s : List UInt8}
    (hint : nSize < 2 ^ 31) (hsize : s.length + 4 ≤ nSize)
    (h : Holds mem pos (bigEndian 4 s.length ++ s)) :
    decodeLongString mem long64 make pos nSize = .ok (make s, nSize - (4 + s.length)) := by
  obtain ⟨hlen, hbytes⟩ := amfDecodeLongString_holds (by omega) h
  have hfits : longStringFits long64 nSize s.length = true := by
    unfold longStringFits
    cases long64 with
    | true => exact decide_eq_true hsize
    | false =>
      apply decide_eq_true
      rw [toInt_of_lt (by omega) (by omega)]
      exact hsize
  unfold decodeLongString
  rw [hlen, if_pos hfits, hbytes, toInt_of_lt (by omega) (by omega)]

/-- The end marker is two bytes of a name's length and the type behind an empty name. -/
theorem amfDecodeInt24_eq (mem : ℤ → UInt8) (pos : ℤ) :
    amfDecodeInt24 mem pos = amfDecodeInt16 mem pos * 256 + (mem (pos + 2)).toNat := by
  have hshift : pos + 1 + 1 = pos + 2 := by omega
  unfold amfDecodeInt24 amfDecodeInt16 ofBigEndian
  simp only [bytesAt, List.foldl_cons, List.foldl_nil, hshift]

/-- What a decoder of properties hands on where it has read what it was given. -/
theorem nested_consumed (make : AmfObject → AmfData) (props : AmfObject) {left : ℤ}
    (hle : left ≤ nSize) :
    nested make nSize (consumed nSize (.ok (props, left))) = .ok (make props, left) := by
  show (if nSize - left = -1 then Except.error Stop.invalid
    else .ok (make props, nSize - (nSize - left))) = _
  rw [if_neg (by omega), Int.sub_sub_self]

end Fields

theorem AmfData.bytes_head (data : AmfData) :
    ∃ type tail, data.bytes = type :: tail ∧ type ≠ 0x09 := by
  cases data with
  | string aval =>
    unfold bytes encodeString
    split_ifs
    · exact ⟨_, _, rfl, by decide⟩
    · exact ⟨_, _, rfl, by decide⟩
  | _ =>
    unfold bytes
    exact ⟨_, _, rfl, by decide⟩

theorem AmfData.length_bytes_pos (data : AmfData) : 0 < data.bytes.length := by
  obtain ⟨type, tail, hbytes, -⟩ := data.bytes_head
  rw [hbytes]
  exact Nat.succ_pos _

/-- Each element takes a byte at least. -/
theorem AmfObject.count_le_length_values (props : AmfObject) :
    props.count ≤ props.values.length := by
  cases props with
  | nil => exact Nat.zero_le _
  | cons name data rest =>
    have hrest := rest.count_le_length_values
    have hpos := data.length_bytes_pos
    rw [count, values, List.length_append]
    omega

/-- The switch of `AMFProp_Decode`, with the fuel for what is inside the value. -/
def decodeData (mem : ℤ → UInt8) (long64 : Bool) (fuel : ℕ) (pos nSize : ℤ) :
    Except Stop (AmfData × ℤ) :=
  decodeValue mem long64
    (fun pos nSize => consumed nSize (decodeProps mem long64 fuel true pos nSize))
    (fun count pos nSize => consumed nSize (decodeElements mem long64 fuel count pos nSize))
    (mem pos) (pos + 1) (nSize - 1)

section Values
variable {mem : ℤ → UInt8} {long64 : Bool} {fuel : ℕ} {pos nSize : ℤ}

theorem amfPropDecode_unnamed (hpos : 0 < nSize) :
    amfPropDecode mem long64 (fuel + 1) false pos nSize =
      (decodeData mem long64 fuel pos nSize).map fun v => (([], v.1), nSize - v.2) := by
  have hname : decodeName mem false pos nSize = .ok ([], pos, nSize) := by
    unfold decodeName
    rw [if_neg (by omega)]
    rfl
  rw [amfPropDecode, hname]
  rfl

theorem amfPropDecode_named {name : List UInt8} (hname : name.length < 2 ^ 16)
    (h : Holds mem pos (bigEndian 2 name.length ++ name)) (hpos : name.length + 4 ≤ nSize)
    {data : AmfData} {left : ℤ}
    (hdata : decodeData mem long64 fuel (pos + (2 + name.length)) (nSize - (2 + name.length)) =
      .ok (data, left)) :
    amfPropDecode mem long64 (fuel + 1) true pos nSize = .ok ((name, data), nSize - left) := by
  obtain ⟨hlen, hs⟩ := amfDecodeString_holds hname h
  have hhead : decodeName mem true pos nSize =
      .ok (name, pos + (2 + name.length), nSize - (2 + name.length)) := by
    unfold decodeName
    rw [if_neg (by omega), if_pos rfl, if_neg (by omega)]
    simp only [hlen, hs]
    rw [if_neg (by omega)]
  rw [amfPropDecode, hhead]
  show (decodeData mem long64 fuel _ _).map _ = _
  rw [hdata]
  rfl

theorem decodeData_string {s : List UInt8} (hint : nSize < 2 ^ 31)
    (hsize : (encodeString s).length ≤ nSize) (h : Holds mem pos (encodeString s)) :
    decodeData mem long64 fuel pos nSize = .ok (.string s, nSize - (encodeString s).length) := by
  rw [length_encodeString] at hsize ⊢
  unfold encodeString at h
  unfold decodeData
  split_ifs at h hsize ⊢ with hshort
  · obtain ⟨hfield, hs⟩ := amfDecodeString_holds (by omega) h.2
    rw [h.1]
    show (if nSize - 1 < (amfDecodeInt16 mem (pos + 1) : ℤ) + 2 then _ else _) = _
    rw [hfield, if_neg (by omega), hs]
    congr 2
    omega
  · rw [h.1]
    show decodeLongString mem long64 .string (pos + 1) (nSize - 1) = _
    rw [decodeLongString_holds long64 .string (by omega) (by omega) h.2]
    congr 2
    omega

/-- No property begins with an end marker, as its type is none. -/
theorem named_ne_marker {name : List UInt8} (hname : name.length < 2 ^ 16) {data : AmfData}
    (hhead : Holds mem pos (bigEndian 2 name.length ++ name))
    (hbytes : Holds mem (pos + (2 + name.length)) data.bytes) :
    amfDecodeInt24 mem pos ≠ 0x09 := by
  obtain ⟨type, tail, hdata, htype⟩ := data.bytes_head
  rw [hdata] at hbytes
  rw [amfDecodeInt24_eq, (amfDecodeString_holds hname hhead).1]
  intro hmark
  have hempty : name.length = 0 := by omega
  have hpos : mem (pos + 2) = type := by
    rw [← hbytes.1, hempty]
    rfl
  rw [hempty, hpos, Nat.zero_mul, Nat.zero_add] at hmark
  exact htype (UInt8.toNat_inj.mp hmark)

theorem decodeData_date {bits : UInt64} {utcOffset : ℤ} (hlow : -2 ^ 15 ≤ utcOffset)
    (hhigh : utcOffset < 2 ^ 15) (hsize : 11 ≤ nSize)
    (h : Holds mem pos (AmfData.date bits utcOffset).bytes) :
    decodeData mem long64 fuel pos nSize = .ok (.date bits utcOffset, nSize - 11) := by
  obtain ⟨htype, hrest⟩ := h
  obtain ⟨hbits, hoffset⟩ := holds_append.mp hrest
  rw [length_bigEndian] at hoffset
  have hfield : amfDecodeInt16 mem (pos + 1 + 8) = (utcOffset % 2 ^ 16).toNat :=
    holds_bigEndian hoffset (by omega)
  have hsigned : (amfDecodeInt16 mem (pos + 1 + 8) : ℤ).bmod (2 ^ 16) = utcOffset := by
    rw [hfield, Int.toNat_of_nonneg (by omega)]
    exact (Int.emod_bmod utcOffset (2 ^ 16)).trans (Int.bmod_eq_of_le (by omega) (by omega))
  rw [decodeData, htype]
  show (if nSize - 1 < 10 then _ else _) = _
  have hleft : nSize - 1 - 10 = nSize - 11 := by omega
  rw [if_neg (by omega), amfDecodeNumber_holds hbits, hsigned, hleft]

mutual
/-- The decoder reads the bytes of a value as that value, and leaves what follows them. -/
theorem decodeData_bytes (data : AmfData) (hfits : data.Fits) {mem : ℤ → UInt8} {long64 : Bool}
    {fuel : ℕ} {pos nSize : ℤ} (hfuel : 2 * data.bytes.length ≤ fuel + 1)
    (hsize : data.bytes.length ≤ nSize) (hint : nSize < 2 ^ 31) (h : Holds mem pos data.bytes) :
    decodeData mem long64 fuel pos nSize = .ok (data, nSize - data.bytes.length) := by
  cases data with
  | number bits =>
    rw [AmfData.bytes, List.length_cons, length_bigEndian] at hsize ⊢
    rw [decodeData, h.1]
    show (if nSize - 1 < 8 then _ else _) = _
    rw [if_neg (by omega), amfDecodeNumber_holds h.2]
    congr 2
    omega
  | boolean b =>
    obtain ⟨htype, hb, -⟩ := h
    rw [AmfData.bytes, List.length_cons, List.length_singleton] at hsize ⊢
    rw [decodeData, htype]
    show (if nSize - 1 < 1 then _ else Except.ok (AmfData.boolean (mem (pos + 1) != 0), _)) = _
    have hvalue : (mem (pos + 1) != 0) = b := by
      rw [hb]
      cases b <;> rfl
    rw [if_neg (by omega), hvalue]
    congr 2
    omega
  | string aval => exact decodeData_string hint hsize h
  | object props =>
    rw [AmfData.bytes, List.length_cons, List.length_append] at hfuel hsize ⊢
    change props.FitsNamed at hfits
    change 2 * (props.named.length + 3 + 1) ≤ fuel + 1 at hfuel
    change ((props.named.length + 3 + 1 : ℕ) : ℤ) ≤ nSize at hsize
    show _ = Except.ok (AmfData.object props, nSize - (props.named.length + 3 + 1 : ℕ))
    rw [decodeData, h.1]
    show nested .object (nSize - 1) (consumed (nSize - 1) (decodeProps mem long64 fuel true
      (pos + 1) (nSize - 1))) = _
    rw [decodeProps_named props hfits (by omega) (by omega) (by omega) h.2,
      nested_consumed _ _ (by omega)]
    congr 2
    omega
  | null =>
    rw [decodeData, h.1]
    rfl
  | ecmaArray props =>
    rw [AmfData.bytes, List.length_cons, List.length_append, List.length_append,
      length_bigEndian] at hfuel hsize ⊢
    change props.FitsNamed at hfits
    change 2 * (4 + (props.named.length + 3) + 1) ≤ fuel + 1 at hfuel
    change ((4 + (props.named.length + 3) + 1 : ℕ) : ℤ) ≤ nSize at hsize
    show _ = Except.ok (AmfData.ecmaArray props, nSize - (4 + (props.named.length + 3) + 1 : ℕ))
    obtain ⟨htype, hrest⟩ := h
    obtain ⟨-, hprops⟩ := holds_append.mp hrest
    change Holds mem (pos + 1 + 4) _ at hprops
    rw [decodeData, htype]
    show nested .ecmaArray (nSize - 1 - 4) (consumed (nSize - 1 - 4) (decodeProps mem long64 fuel
      true (pos + 1 + 4) (nSize - 1 - 4))) = _
    rw [decodeProps_named props hfits (by omega) (by omega) (by omega) hprops,
      nested_consumed _ _ (by omega)]
    congr 2
    omega
  | strictArray props =>
    rw [AmfData.bytes, List.length_cons, List.length_append, length_bigEndian] at hfuel hsize ⊢
    change props.FitsValues at hfits
    obtain ⟨htype, hrest⟩ := h
    obtain ⟨hlen, hprops⟩ := holds_append.mp hrest
    change Holds mem (pos + 1 + 4) _ at hprops
    have hle := props.count_le_length_values
    have hcount : amfDecodeInt32 mem (pos + 1) = props.count := holds_bigEndian hlen (by omega)
    rw [decodeData, htype]
    show nested .strictArray (nSize - 1 - 4) (consumed (nSize - 1 - 4) (decodeElements mem long64
      fuel (toInt (amfDecodeInt32 mem (pos + 1))).toNat (pos + 1 + 4) (nSize - 1 - 4))) = _
    rw [hcount, toInt_of_lt (by omega) (by omega), Int.toNat_natCast,
      decodeElements_values props hfits (by omega) (by omega) (by omega) hprops,
      nested_consumed _ _ (by omega)]
    congr 2
    omega
  | date bits utcOffset =>
    rw [AmfData.bytes, List.length_cons, List.length_append, length_bigEndian,
      length_bigEndian] at hsize ⊢
    exact decodeData_date hfits.1 hfits.2 hsize h
  | xmlDoc aval =>
    rw [AmfData.bytes, List.length_cons, List.length_append, length_bigEndian] at hsize ⊢
    rw [decodeData, h.1]
    show decodeLongString mem long64 .xmlDoc (pos + 1) (nSize - 1) = _
    rw [decodeLongString_holds long64 .xmlDoc (by omega) (by omega) h.2]
    congr 2
    omega

/-- Named properties and the end marker, read by the loop of `AMF_Decode`. -/
theorem decodeProps_named (props : AmfObject) (hfits : props.FitsNamed) {mem : ℤ → UInt8}
    {long64 : Bool} {fuel : ℕ} {pos nSize : ℤ} (hfuel : 2 * (props.named.length + 3) + 1 ≤ fuel)
    (hsize : props.named.length + 3 ≤ nSize) (hint : nSize < 2 ^ 31)
    (h : Holds mem pos (props.named ++ [0x00, 0x00, 0x09])) :
    decodeProps mem long64 fuel true pos nSize =
      .ok (props, nSize - (props.named.length + 3)) := by
  cases fuel with
  | zero => omega
  | succ fuel =>
    cases props with
    | nil =>
      change 0 + 3 ≤ nSize at hsize
      have hend : Holds mem pos (bigEndian 3 9) := h
      have hmark : amfDecodeInt24 mem pos = 0x09 := holds_bigEndian hend (by decide)
      rw [decodeProps, if_neg (by omega), if_pos ⟨by omega, hmark⟩]
      rfl
    | cons name data rest =>
      obtain ⟨hname, hdata, hrest⟩ := hfits
      have hpos := data.length_bytes_pos
      have hlen : (AmfObject.cons name data rest).named.length =
          2 + name.length + data.bytes.length + rest.named.length := by
        simp only [AmfObject.named, List.length_append, length_bigEndian]
      rw [hlen] at hfuel hsize ⊢
      rw [AmfObject.named, List.append_assoc, holds_append, holds_append] at h
      obtain ⟨⟨hhead, hbytes⟩, hnamed⟩ := h
      simp only [List.length_append, length_bigEndian, Nat.cast_add, Nat.cast_ofNat]
        at hbytes hnamed
      have hprop : amfPropDecode mem long64 fuel true pos nSize =
          .ok ((name, data), 2 + name.length + data.bytes.length) := by
        cases fuel with
        | zero => omega
        | succ fuel =>
          rw [amfPropDecode_named hname hhead (by omega)
            (decodeData_bytes data hdata (by omega) (by omega) (by omega) hbytes)]
          congr 2
          omega
      rw [decodeProps, if_neg (by omega),
        if_neg fun hmark => named_ne_marker hname hhead hbytes hmark.2, hprop]
      show (if (2 + name.length + data.bytes.length : ℤ) = -1 ∨
        nSize - (2 + name.length + data.bytes.length) < 0 then Except.error Stop.invalid
        else Except.map _ _) = _
      rw [if_neg (by omega), decodeProps_named rest hrest (by omega) (by omega) (by omega) hnamed]
      show Except.ok (AmfObject.cons name data rest, _) = _
      congr 2
      omega

/-- Values without names, read by the loop of `AMF_DecodeArray`. -/
theorem decodeElements_values (props : AmfObject) (hfits : props.FitsValues) {mem : ℤ → UInt8}
    {long64 : Bool} {fuel : ℕ} {pos nSize : ℤ} (hfuel : 2 * props.values.length + 1 ≤ fuel)
    (hsize : props.values.length ≤ nSize) (hint : nSize < 2 ^ 31)
    (h : Holds mem pos props.values) :
    decodeElements mem long64 fuel props.count pos nSize =
      .ok (props, nSize - props.values.length) := by
  cases fuel with
  | zero => omega
  | succ fuel =>
    cases props with
    | nil =>
      rw [AmfObject.count, decodeElements]
      show _ = Except.ok (AmfObject.nil, nSize - 0)
      rw [Int.sub_zero]
    | cons name data rest =>
      obtain ⟨rfl, hdata, hrest⟩ := hfits
      have hpos := data.length_bytes_pos
      rw [AmfObject.values, List.length_append] at hfuel hsize ⊢
      obtain ⟨hbytes, hvalues⟩ := holds_append.mp h
      have hprop : amfPropDecode mem long64 fuel false pos nSize =
          .ok (([], data), data.bytes.length) := by
        cases fuel with
        | zero => omega
        | succ fuel =>
          rw [amfPropDecode_unnamed (by omega),
            decodeData_bytes data hdata (by omega) (by omega) hint hbytes]
          show Except.ok (([], data), nSize - (nSize - data.bytes.length)) = _
          rw [Int.sub_sub_self]
      rw [AmfObject.count, decodeElements, if_neg (by omega), hprop]
      show (if (data.bytes.length : ℤ) = -1 then Except.error Stop.invalid else Except.map _ _) = _
      rw [if_neg (by omega), decodeElements_values rest hrest (by omega) (by omega) (by omega)
        hvalues]
      show Except.ok (AmfObject.cons [] data rest, _) = _
      congr 2
      omega
end

end Values

/-- The value at the front of a body, as `AMFProp_Decode` reads it without a name. -/
theorem amfPropDecode_bytes (data : AmfData) (hfits : data.Fits) {mem : ℤ → UInt8} {long64 : Bool}
    {fuel : ℕ} {pos nSize : ℤ} (hfuel : 2 * data.bytes.length ≤ fuel)
    (hsize : data.bytes.length ≤ nSize) (hint : nSize < 2 ^ 31) (h : Holds mem pos data.bytes) :
    amfPropDecode mem long64 fuel false pos nSize = .ok (([], data), data.bytes.length) := by
  have hpos := data.length_bytes_pos
  cases fuel with
  | zero => omega
  | succ fuel =>
    rw [amfPropDecode_unnamed (by omega), decodeData_bytes data hfits (by omega) hsize hint h]
    show Except.ok (([], data), nSize - (nSize - data.bytes.length)) = _
    rw [Int.sub_sub_self]

/-- A number that begins, with its type, like an end marker. -/
def AmfData.isMarker : AmfData → Bool
  | .number bits => bits.toNat / 2 ^ 48 = 0x09
  | _ => false

/-- The values in front of the first number that reads as an end marker. -/
def AmfObject.upToMarker : AmfObject → AmfObject
  | .nil => .nil
  | .cons name data rest => if data.isMarker then .nil else .cons name data rest.upToMarker

/-- The number of bytes that are read of the values. -/
def AmfObject.taken : AmfObject → ℕ
  | .nil => 0
  | .cons _ data rest => if data.isMarker then 3 else data.bytes.length + rest.taken

section TopLevel
variable {mem : ℤ → UInt8} {pos nSize : ℤ}

theorem eq_zero_of_marker (h : amfDecodeInt24 mem pos = 0x09) : mem pos = 0x00 := by
  have hshift : pos + 1 + 1 = pos + 2 := by omega
  unfold amfDecodeInt24 ofBigEndian at h
  simp only [bytesAt, List.foldl_cons, List.foldl_nil, hshift] at h
  apply UInt8.toNat_inj.mp
  show (mem pos).toNat = 0
  omega

theorem number_marker_iff {bits : UInt64} (h : Holds mem pos (AmfData.number bits).bytes) :
    amfDecodeInt24 mem pos = 0x09 ↔ bits.toNat / 2 ^ 48 = 0x09 := by
  obtain ⟨htype, hfirst, hsecond, -⟩ := h
  have hshift : pos + 1 + 1 = pos + 2 := by omega
  have hbits : bits.toNat < 2 ^ 64 := bits.toNat_lt
  have h0 : (mem pos).toNat = 0 := congrArg UInt8.toNat htype
  have h1 : (mem (pos + 1)).toNat = bits.toNat / 2 ^ 56 % 256 := by
    rw [hfirst]
    exact UInt8.toNat_ofNat'
  have h2 : (mem (pos + 2)).toNat = bits.toNat / 2 ^ 48 % 256 := by
    rw [← hshift, hsecond]
    exact UInt8.toNat_ofNat'
  unfold amfDecodeInt24 ofBigEndian
  simp only [bytesAt, List.foldl_cons, List.foldl_nil, hshift]
  rw [h0, h1, h2]
  omega

theorem marker_iff (data : AmfData) (h : Holds mem pos data.bytes) :
    amfDecodeInt24 mem pos = 0x09 ↔ data.isMarker = true := by
  have hother : mem pos ≠ 0x00 → data.isMarker = false →
      (amfDecodeInt24 mem pos = 0x09 ↔ data.isMarker = true) := by
    intro hne hmarker
    rw [hmarker]
    exact iff_of_false (fun hmark => hne (eq_zero_of_marker hmark)) Bool.false_ne_true
  cases data with
  | number bits =>
    rw [number_marker_iff h]
    exact (decide_eq_true_iff).symm
  | string aval =>
    apply hother _ rfl
    unfold AmfData.bytes encodeString at h
    split_ifs at h
    · rw [h.1]
      decide
    · rw [h.1]
      decide
  | _ =>
    apply hother _ rfl
    rw [h.1]
    decide

end TopLevel

/-- Values without names, read by the loop of `AMF_Decode` up to what it takes for its end. -/
theorem decodeProps_values (props : AmfObject) (hfits : props.FitsValues) {mem : ℤ → UInt8}
    {long64 : Bool} {fuel : ℕ} {pos nSize : ℤ} (hfuel : 2 * props.values.length + 1 ≤ fuel)
    (hsize : props.values.length = nSize) (hint : nSize < 2 ^ 31) (h : Holds mem pos props.values) :
    decodeProps mem long64 fuel false pos nSize = .ok (props.upToMarker, nSize - props.taken) := by
  cases fuel with
  | zero => omega
  | succ fuel =>
    cases props with
    | nil =>
      rw [decodeProps, if_pos (show nSize ≤ 0 by rw [← hsize]; rfl)]
      show _ = Except.ok (AmfObject.nil, nSize - 0)
      rw [Int.sub_zero]
    | cons name data rest =>
      obtain ⟨rfl, hdata, hrest⟩ := hfits
      have hpos := data.length_bytes_pos
      rw [AmfObject.values, List.length_append] at hfuel hsize
      obtain ⟨hbytes, hvalues⟩ := holds_append.mp h
      rw [decodeProps, if_neg (by omega), AmfObject.upToMarker, AmfObject.taken]
      by_cases hmarker : data.isMarker = true
      · have hthree : 3 ≤ nSize := by
          cases data with
          | number bits =>
            have hlen : (AmfData.number bits).bytes.length = 9 := by
              rw [AmfData.bytes, List.length_cons, length_bigEndian]
            omega
          | _ => cases hmarker
        rw [if_pos ⟨hthree, (marker_iff data hbytes).mpr hmarker⟩, if_pos hmarker, if_pos hmarker]
        rfl
      · have hprop : amfPropDecode mem long64 fuel false pos nSize =
            .ok (([], data), data.bytes.length) :=
          amfPropDecode_bytes data hdata (by omega) (by omega) hint hbytes
        rw [if_neg fun hmark => hmarker ((marker_iff data hbytes).mp hmark.2), if_neg hmarker,
          if_neg hmarker, hprop]
        show (if (data.bytes.length : ℤ) = -1 ∨ nSize - data.bytes.length < 0
          then Except.error Stop.invalid else Except.map _ _) = _
        rw [if_neg (by omega),
          decodeProps_values rest hrest (by omega) (by omega) (by omega) hvalues]
        show Except.ok (AmfObject.cons [] data rest.upToMarker, _) = _
        congr 2
        omega

/-- The body of a command, read back: every value of it, of any nesting, up to the first number
that begins like an end marker. -/
theorem amfDecode_values {props : AmfObject} (hfits : props.FitsValues) {mem : ℤ → UInt8} {pos : ℤ}
    (hint : props.values.length < 2 ^ 31) (h : Holds mem pos props.values) (long64 : Bool)
    {fuel : ℕ} (hfuel : 2 * props.values.length + 1 ≤ fuel) :
    amfDecode mem long64 fuel false pos props.values.length =
      .ok (props.upToMarker, props.taken) := by
  unfold amfDecode
  rw [decodeProps_values props hfits hfuel rfl (by omega) h]
  show Except.ok (props.upToMarker, _) = _
  congr 2
  omega

/-- A command name, an object and a number that is taken for the end, with a null behind it. -/
theorem amfDecode_values_sample :
    amfDecode
        (load [0x02, 0x00, 0x01, 0x61, 0x03, 0x00, 0x01, 0x62, 0x01, 0x01, 0x00, 0x00, 0x09,
          0x00, 0x00, 0x09, 0x00, 0x00, 0x00, 0x00, 0x00, 0x00, 0x05]) false 47 false 0 23 =
      .ok (.cons [] (.string [0x61]) (.cons [] (.object (.cons [0x62] (.boolean true) .nil)) .nil),
        16) := by
  have hfits : (AmfObject.cons [] (.string [0x61])
      (.cons [] (.object (.cons [0x62] (.boolean true) .nil))
        (.cons [] (.number 0x0009000000000000) (.cons [] .null .nil)))).FitsValues :=
    ⟨rfl, trivial, rfl, ⟨by decide, trivial, trivial⟩, rfl, trivial, rfl, trivial, trivial⟩
  exact amfDecode_values hfits (by decide) (holds_load _) false (by decide)

end ObsBeacon.Rtmp
