import ObsBeacon.Rtmp.AmfWellFormed
import ObsBeacon.Rtmp.UserArguments

/-! What the AMF0 encoders of librtmp write, its decoders read back. -/
namespace ObsBeacon.Rtmp
open Amf0 BoundedWriter Memory

mutual
/-- The value that the encoder is given, as the decoder has it. -/
def AmfValue.decoded : AmfValue → AmfData
  | .number bits => .number bits
  | .boolean b => .boolean b
  | .string aval => .string aval
  | .null => .null
  | .object props => .object props.decoded
  | .ecmaArray props => .ecmaArray props.decoded
  | .strictArray props => .strictArray props.decoded
  | .invalid => .null

def AmfProps.decoded : AmfProps → AmfObject
  | .nil => .nil
  | .cons name value rest => .cons name value.decoded rest.decoded
end

mutual
/-- Objects of named properties and arrays of values without names. A property without a name and
a named null are written as a bare value, so that they are for arrays only. -/
def AmfValue.Sound : AmfValue → Prop
  | .object props => props.Named
  | .ecmaArray props => props.Named
  | .strictArray props => props.Unnamed
  | .invalid => False
  | _ => True

def AmfProps.Named : AmfProps → Prop
  | .nil => True
  | .cons name value rest =>
    name ≠ [] ∧ name.length < 2 ^ 16 ∧ value ≠ .null ∧ value.Sound ∧ rest.Named

def AmfProps.Unnamed : AmfProps → Prop
  | .nil => True
  | .cons name value rest => name = [] ∧ value.Sound ∧ rest.Unnamed
end

mutual
theorem AmfValue.fits_decoded (value : AmfValue) (h : value.Sound) : value.decoded.Fits := by
  cases value with
  | object props => exact props.fitsNamed_decoded h
  | ecmaArray props => exact props.fitsNamed_decoded h
  | strictArray props => exact props.fitsValues_decoded h
  | invalid => exact h.elim
  | _ => trivial

theorem AmfProps.fitsNamed_decoded (props : AmfProps) (h : props.Named) :
    props.decoded.FitsNamed := by
  cases props with
  | nil => trivial
  | cons name value rest =>
    obtain ⟨-, hname, -, hvalue, hrest⟩ := h
    exact ⟨hname, value.fits_decoded hvalue, rest.fitsNamed_decoded hrest⟩

theorem AmfProps.fitsValues_decoded (props : AmfProps) (h : props.Unnamed) :
    props.decoded.FitsValues := by
  cases props with
  | nil => trivial
  | cons name value rest =>
    obtain ⟨hname, hvalue, hrest⟩ := h
    exact ⟨hname, value.fits_decoded hvalue, rest.fitsValues_decoded hrest⟩
end

theorem AmfProps.count_decoded (props : AmfProps) : props.decoded.count = props.count := by
  cases props with
  | nil => rfl
  | cons name value rest =>
    rw [decoded, AmfObject.count, AmfProps.count, rest.count_decoded]

section Encoders
variable {outend : ℕ} {name out : List UInt8}

/-- The name of a property, which is left out where it is empty. -/
def nameBytes (name : List UInt8) : List UInt8 :=
  if name = [] then [] else bigEndian 2 name.length ++ name

theorem propName_fits (hroom : out.length + name.length + 4 ≤ outend) :
    propName outend name out = some (out ++ nameBytes name) := by
  unfold propName nameBytes
  rw [if_neg (by omega)]
  by_cases hname : name = []
  · rw [if_pos hname, if_neg (by rw [hname]; decide), List.append_nil]
  · have hlen : name.length ≠ 0 := fun hlen => hname (List.length_eq_zero_iff.mp hlen)
    rw [if_neg hname, if_pos hlen, List.append_assoc]

theorem length_nameBytes (name : List UInt8) :
    name.length ≤ (nameBytes name).length ∧ (nameBytes name).length ≤ name.length + 2 := by
  unfold nameBytes
  split_ifs with hname
  · rw [hname]
    exact ⟨Nat.le_refl _, Nat.zero_le _⟩
  · rw [List.length_append, length_bigEndian]
    omega

theorem objectAround_fits {loop : List UInt8 → List UInt8} {bs : List UInt8}
    (hloop : loop (out ++ [0x03]) = out ++ [0x03] ++ bs)
    (hroom : out.length + (0x03 :: (bs ++ [0x00, 0x00, 0x09])).length + 3 ≤ outend) :
    objectAround outend loop out = some (out ++ 0x03 :: (bs ++ [0x00, 0x00, 0x09])) := by
  simp only [List.length_cons, List.length_append, List.length_nil] at hroom
  unfold objectAround
  rw [if_neg (by omega), hloop, endMarker_eq, if_pos]
  · simp only [List.append_assoc, List.cons_append, List.nil_append]
  · simp only [List.length_append, List.length_singleton]
    omega

theorem ecmaArrayAround_fits {count : ℕ} {loop : List UInt8 → List UInt8} {bs : List UInt8}
    (hloop : loop (out ++ [0x08] ++ bigEndian 4 count) = out ++ [0x08] ++ bigEndian 4 count ++ bs)
    (hroom : out.length + (0x08 :: (bigEndian 4 count ++ (bs ++ [0x00, 0x00, 0x09]))).length + 3 ≤
      outend) :
    ecmaArrayAround outend count loop out =
      some (out ++ 0x08 :: (bigEndian 4 count ++ (bs ++ [0x00, 0x00, 0x09]))) := by
  simp only [List.length_cons, List.length_append, List.length_nil, length_bigEndian] at hroom
  unfold ecmaArrayAround
  rw [if_neg (by omega), amfEncodeInt32, encodeInt_eq, if_pos, Option.bind_some, hloop,
    endMarker_eq, if_pos]
  · simp only [List.append_assoc, List.cons_append, List.nil_append]
  · simp only [List.length_append, List.length_singleton, length_bigEndian]
    omega
  · rw [List.length_append, List.length_singleton]
    omega

theorem arrayAround_fits {count : ℕ} {loop : List UInt8 → List UInt8} {bs : List UInt8}
    (hloop : loop (out ++ [0x0a] ++ bigEndian 4 count) = out ++ [0x0a] ++ bigEndian 4 count ++ bs)
    (hroom : out.length + (0x0a :: (bigEndian 4 count ++ bs)).length + 3 ≤ outend) :
    arrayAround outend count loop out = some (out ++ 0x0a :: (bigEndian 4 count ++ bs)) := by
  simp only [List.length_cons, List.length_append, length_bigEndian] at hroom
  unfold arrayAround
  rw [if_neg (by omega), amfEncodeInt32, encodeInt_eq, if_pos, Option.map_some, hloop]
  · simp only [List.append_assoc, List.cons_append, List.nil_append]
  · rw [List.length_append, List.length_singleton]
    omega

end Encoders

mutual
/-- With three bytes to spare a property is written as its name and the bytes of its value. -/
theorem amfPropEncode_fits (value : AmfValue) (h : value.Sound) {name : List UInt8}
    (hnull : name ≠ [] → value ≠ .null) {outend : ℕ} {out : List UInt8}
    (hroom : out.length + (nameBytes name).length + value.decoded.bytes.length + 3 ≤ outend) :
    amfPropEncode outend name value out =
      some (out ++ nameBytes name ++ value.decoded.bytes) := by
  have hpos := value.decoded.length_bytes_pos
  have hname : propName outend name out = some (out ++ nameBytes name) := by
    have hle := (length_nameBytes name).1
    exact propName_fits (by omega)
  have hroom' : (out ++ nameBytes name).length + value.decoded.bytes.length + 3 ≤ outend := by
    rw [List.length_append]
    exact hroom
  cases value with
  | number bits =>
    rw [amfPropEncode, hname, Option.bind_some]
    exact (appends_number outend bits).fits _ (Nat.le_of_succ_le hroom')
  | boolean b =>
    rw [amfPropEncode, hname, Option.bind_some, amfEncodeBoolean]
    exact if_neg (Nat.not_lt.mpr (Nat.le_trans (Nat.le_add_right _ 3) hroom'))
  | string aval =>
    rw [amfPropEncode, hname, Option.bind_some]
    exact (appends_string outend aval).fits _ (Nat.le_of_succ_le hroom')
  | null =>
    have hempty : name = [] := by
      by_contra hne
      exact hnull hne rfl
    subst hempty
    rw [amfPropEncode, if_neg (by omega)]
    show some (out ++ [0x05]) = some (out ++ [] ++ [0x05])
    rw [List.append_nil]
  | object props =>
    rw [amfPropEncode, hname, Option.bind_some]
    apply objectAround_fits _ hroom'
    apply encodeProps_named props h
    change _ + (props.decoded.named ++ [0x00, 0x00, 0x09]).length + 1 + 3 ≤ _ at hroom'
    simp only [List.length_append, List.length_cons, List.length_nil] at hroom' ⊢
    omega
  | ecmaArray props =>
    rw [amfPropEncode, hname, Option.bind_some, ← props.count_decoded]
    apply ecmaArrayAround_fits _ hroom'
    apply encodeProps_named props h
    change _ + (bigEndian 4 _ ++ (props.decoded.named ++ [0x00, 0x00, 0x09])).length + 1 + 3 ≤ _
      at hroom'
    simp only [List.length_append, List.length_singleton, length_bigEndian] at hroom' ⊢
    omega
  | strictArray props =>
    rw [amfPropEncode, hname, Option.bind_some, ← props.count_decoded]
    apply arrayAround_fits _ hroom'
    apply encodeProps_values props h
    change _ + (bigEndian 4 _ ++ props.decoded.values).length + 1 + 3 ≤ _ at hroom'
    simp only [List.length_append, List.length_singleton, length_bigEndian] at hroom' ⊢
    omega
  | invalid => exact h.elim

theorem encodeProps_named (props : AmfProps) (h : props.Named) {outend : ℕ} {out : List UInt8}
    (hroom : out.length + props.decoded.named.length + 3 ≤ outend) :
    encodeProps outend props out = out ++ props.decoded.named := by
  cases props with
  | nil =>
    rw [encodeProps]
    exact (List.append_nil out).symm
  | cons name value rest =>
    obtain ⟨hne, -, hnull, hvalue, hrest⟩ := h
    have hbytes : (AmfProps.cons name value rest).decoded.named =
        nameBytes name ++ value.decoded.bytes ++ rest.decoded.named := by
      rw [AmfProps.decoded, AmfObject.named, nameBytes, if_neg hne]
    rw [hbytes, List.length_append, List.length_append] at hroom
    rw [encodeProps, amfPropEncode_fits value hvalue (fun _ => hnull) (by omega), hbytes]
    simp only
    rw [encodeProps_named rest hrest]
    · simp only [List.append_assoc]
    · rw [List.length_append, List.length_append]
      omega

theorem encodeProps_values (props : AmfProps) (h : props.Unnamed) {outend : ℕ} {out : List UInt8}
    (hroom : out.length + props.decoded.values.length + 3 ≤ outend) :
    encodeProps outend props out = out ++ props.decoded.values := by
  cases props with
  | nil =>
    rw [encodeProps]
    exact (List.append_nil out).symm
  | cons name value rest =>
    obtain ⟨rfl, hvalue, hrest⟩ := h
    have hbytes : (AmfProps.cons [] value rest).decoded.values =
        value.decoded.bytes ++ rest.decoded.values := rfl
    rw [hbytes, List.length_append] at hroom
    rw [encodeProps, amfPropEncode_fits value hvalue (fun hne => absurd rfl hne)
      (by rw [nameBytes, if_pos rfl, List.length_nil]; omega), hbytes, nameBytes, if_pos rfl]
    simp only
    rw [encodeProps_values rest hrest]
    · simp only [List.append_assoc, List.nil_append]
    · rw [List.length_append, List.length_append, List.length_nil]
      omega
end

/-- What `AMF_Encode` writes, with three bytes to spare, `AMF_Decode` reads back as the object it
was given. -/
theorem amfDecode_amfEncode {props : AmfProps} (h : props.Named) {outend : ℕ}
    (hint : outend < 2 ^ 31) {output : List UInt8}
    (hroom : output.length + props.decoded.named.length + 7 ≤ outend) :
    ∃ body, amfEncode outend props output = some (output ++ body) ∧
      ∀ (mem : ℤ → UInt8) (pos : ℤ) (long64 : Bool) (fuel : ℕ), Holds mem pos body →
        2 * body.length + 1 ≤ fuel →
        amfDecode mem long64 fuel false pos body.length =
          .ok (.cons [] (.object props.decoded) .nil, body.length) := by
  have hlen : (AmfData.object props.decoded).bytes.length = props.decoded.named.length + 4 := by
    rw [AmfData.bytes, List.length_cons, List.length_append]
    rfl
  have hvalues : (AmfObject.cons [] (.object props.decoded) .nil).values =
      (AmfData.object props.decoded).bytes := List.append_nil _
  have hfits : (AmfObject.cons [] (.object props.decoded) .nil).FitsValues :=
    ⟨rfl, props.fitsNamed_decoded h, trivial⟩
  refine ⟨(AmfData.object props.decoded).bytes, ?_, fun mem pos long64 fuel hbody hfuel => ?_⟩
  · apply objectAround_fits
    · apply encodeProps_named props h
      rw [List.length_append, List.length_singleton]
      omega
    · change output.length + (AmfData.object props.decoded).bytes.length + 3 ≤ outend
      omega
  · rw [← hvalues] at hbody hfuel ⊢
    rw [amfDecode_values hfits (by rw [hvalues]; omega) hbody long64 hfuel, hvalues]
    rfl

theorem amfDecode_amfEncode_sample :
    ∃ body, amfEncode 64 (.cons [0x61] (.object (.cons [0x62] (.boolean true) .nil)) .nil) [] =
        some ([] ++ body) ∧
      ∀ (mem : ℤ → UInt8) (pos : ℤ) (long64 : Bool) (fuel : ℕ), Holds mem pos body →
        2 * body.length + 1 ≤ fuel →
        amfDecode mem long64 fuel false pos body.length =
          .ok (.cons [] (.object (.cons [0x61] (.object (.cons [0x62] (.boolean true) .nil)) .nil))
            .nil, body.length) := by
  have hnamed : (AmfProps.cons [0x61] (.object (.cons [0x62] (.boolean true) .nil)) .nil).Named :=
    ⟨by decide, by decide, AmfValue.noConfusion,
      ⟨by decide, by decide, AmfValue.noConfusion, trivial, trivial⟩, trivial⟩
  exact amfDecode_amfEncode hnamed (by decide) (by decide)

end ObsBeacon.Rtmp
