import ObsBeacon.Lib.Memory
import ObsBeacon.Rtmp.Amf

/-! The AMF0 decoders of librtmp, on a memory that goes on behind the body. -/
namespace ObsBeacon.Rtmp
open Amf0 Memory

/-- Why a decoder gives no value: its result is -1, or AMF3 follows, or the fuel is used up. -/
inductive Stop where
  | invalid
  | amf3
  | fuel
  deriving DecidableEq, Repr

mutual
/-- The type and value of a decoded `AMFObjectProperty`, with the strings it points to. -/
inductive AmfData where
  | number (bits : UInt64)
  | boolean (b : Bool)
  | string (aval : List UInt8)
  | object (props : AmfObject)
  | null
  | ecmaArray (props : AmfObject)
  | strictArray (props : AmfObject)
  | date (bits : UInt64) (utcOffset : ℤ)
  | xmlDoc (aval : List UInt8)

/-- A decoded `AMFObject`. -/
inductive AmfObject where
  | nil
  | cons (name : List UInt8) (data : AmfData) (rest : AmfObject)
end

/-- A value of type `int`. -/
def toInt (n : ℤ) : ℤ := n.bmod (2 ^ 32)

theorem toInt_of_lt {n : ℤ} (hnonneg : 0 ≤ n) (hlt : n < 2 ^ 31) : toInt n = n := by
  unfold toInt
  rw [Int.bmod_eq_of_le] <;> omega

section Fields
variable (mem : ℤ → UInt8)

def amfDecodeInt16 (data : ℤ) : ℕ := ofBigEndian (bytesAt mem data 2)
def amfDecodeInt24 (data : ℤ) : ℕ := ofBigEndian (bytesAt mem data 3)
def amfDecodeInt32 (data : ℤ) : ℕ := ofBigEndian (bytesAt mem data 4)

def amfDecodeNumber (data : ℤ) : UInt64 := UInt64.ofNat (ofBigEndian (bytesAt mem data 8))

def amfDecodeBoolean (data : ℤ) : Bool := mem data != 0

def amfDecodeString (data : ℤ) : List UInt8 := bytesAt mem (data + 2) (amfDecodeInt16 mem data)

/-- Without bytes where the length is negative as an `int`. -/
def amfDecodeLongString (data : ℤ) : List UInt8 :=
  bytesAt mem (data + 4) (toInt (amfDecodeInt32 mem data)).toNat

/-- The head of `AMFProp_Decode`: the name, and what is left behind it. -/
def decodeName (named : Bool) (pos nSize : ℤ) : Except Stop (List UInt8 × ℤ × ℤ) :=
  if nSize = 0 then .error .invalid
  else if named then
    if nSize < 4 then .error .invalid
    else
      let nNameSize : ℤ := amfDecodeInt16 mem pos
      if nSize - 2 < nNameSize ∨ nSize - (2 + nNameSize) = 0 then .error .invalid
      else .ok (amfDecodeString mem pos, pos + (2 + nNameSize), nSize - (2 + nNameSize))
  else .ok ([], pos, nSize)

/-- `nSize < (long)nStringSize + 4` fails; a `long` has 64 bits or, on Windows, 32, in which the
sum wraps around. -/
def longStringFits (long64 : Bool) (nSize : ℤ) (nStringSize : ℕ) : Bool :=
  if long64 then nStringSize + 4 ≤ nSize else toInt (nStringSize + 4) ≤ nSize

/-- The cases of `AMF_LONG_STRING` and `AMF_XML_DOC`. -/
def decodeLongString (long64 : Bool) (make : List UInt8 → AmfData) (pos nSize : ℤ) :
    Except Stop (AmfData × ℤ) :=
  let nStringSize := amfDecodeInt32 mem pos
  if longStringFits long64 nSize nStringSize then
    .ok (make (amfDecodeLongString mem pos), toInt (nSize - (4 + nStringSize)))
  else .error .invalid

/-- What a decoder of properties leaves, from the number of bytes it says it has read. -/
def nested (make : AmfObject → AmfData) (nSize : ℤ) (r : Except Stop (AmfObject × ℤ)) :
    Except Stop (AmfData × ℤ) :=
  r.bind fun r => if r.2 = -1 then .error .invalid else .ok (make r.1, nSize - r.2)

/-- The switch of `AMFProp_Decode`, with what is left of the bytes behind the type, around the
decoders of an object and of an array. -/
def decodeValue (long64 : Bool) (object : ℤ → ℤ → Except Stop (AmfObject × ℤ))
    (array : ℕ → ℤ → ℤ → Except Stop (AmfObject × ℤ)) (type : UInt8) (pos nSize : ℤ) :
    Except Stop (AmfData × ℤ) :=
  match type with
  | 0x00 =>
    if nSize < 8 then .error .invalid else .ok (.number (amfDecodeNumber mem pos), nSize - 8)
  | 0x01 =>
    if nSize < 1 then .error .invalid else .ok (.boolean (amfDecodeBoolean mem pos), nSize - 1)
  | 0x02 =>
    let nStringSize : ℤ := amfDecodeInt16 mem pos
    if nSize < nStringSize + 2 then .error .invalid
    else .ok (.string (amfDecodeString mem pos), nSize - (2 + nStringSize))
  | 0x03 => nested .object nSize (object pos nSize)
  | 0x05 | 0x06 | 0x0d => .ok (.null, nSize)
  | 0x08 => nested .ecmaArray (nSize - 4) (object (pos + 4) (nSize - 4))
  | 0x0a =>
    nested .strictArray (nSize - 4)
      (array (toInt (amfDecodeInt32 mem pos)).toNat (pos + 4) (nSize - 4))
  | 0x0b =>
    if nSize < 10 then .error .invalid
    else
      .ok (.date (amfDecodeNumber mem pos) ((amfDecodeInt16 mem (pos + 8) : ℤ).bmod (2 ^ 16)),
        nSize - 10)
  | 0x0c => decodeLongString mem long64 .string pos nSize
  | 0x0f => decodeLongString mem long64 .xmlDoc pos nSize
  | 0x11 => .error .amf3
  | _ => .error .invalid

/-- The result of a decoder of properties: how many bytes it has read. -/
def consumed (nSize : ℤ) (r : Except Stop (AmfObject × ℤ)) : Except Stop (AmfObject × ℤ) :=
  r.map fun r => (r.1, nSize - r.2)

mutual
def amfPropDecode (long64 : Bool) :
    ℕ → Bool → ℤ → ℤ → Except Stop ((List UInt8 × AmfData) × ℤ)
  | 0, _, _, _ => .error .fuel
  | fuel + 1, named, pos, nSize =>
    (decodeName mem named pos nSize).bind fun r =>
      (decodeValue mem long64
        (fun pos nSize => consumed nSize (decodeProps long64 fuel true pos nSize))
        (fun count pos nSize => consumed nSize (decodeElements long64 fuel count pos nSize))
        (mem r.2.1) (r.2.1 + 1) (r.2.2 - 1)).map fun v => ((r.1, v.1), nSize - v.2)

/-- The loop of `AMF_Decode`, with what is left at its end. -/
def decodeProps (long64 : Bool) : ℕ → Bool → ℤ → ℤ → Except Stop (AmfObject × ℤ)
  | 0, _, _, _ => .error .fuel
  | fuel + 1, named, pos, nSize =>
    if nSize ≤ 0 then .ok (.nil, nSize)
    else if 3 ≤ nSize ∧ amfDecodeInt24 mem pos = 0x09 then .ok (.nil, nSize - 3)
    else
      (amfPropDecode long64 fuel named pos nSize).bind fun p =>
        if p.2 = -1 ∨ nSize - p.2 < 0 then .error .invalid
        else
          (decodeProps long64 fuel named (pos + p.2) (nSize - p.2)).map fun r =>
            (.cons p.1.1 p.1.2 r.1, r.2)

/-- The loop of `AMF_DecodeArray`, with what is left at its end. -/
def decodeElements (long64 : Bool) : ℕ → ℕ → ℤ → ℤ → Except Stop (AmfObject × ℤ)
  | 0, _, _, _ => .error .fuel
  | _ + 1, 0, _, nSize => .ok (.nil, nSize)
  | fuel + 1, nArrayLen + 1, pos, nSize =>
    if nSize ≤ 0 then .error .invalid
    else
      (amfPropDecode long64 fuel false pos nSize).bind fun p =>
        if p.2 = -1 then .error .invalid
        else
          (decodeElements long64 fuel nArrayLen (pos + p.2) (nSize - p.2)).map fun r =>
            (.cons p.1.1 p.1.2 r.1, r.2)
end

/-- `AMF_Decode`: the object and the number of bytes it takes. -/
def amfDecode (long64 : Bool) (fuel : ℕ) (bDecodeName : Bool) (pBuffer nSize : ℤ) :
    Except Stop (AmfObject × ℤ) :=
  consumed nSize (decodeProps mem long64 fuel bDecodeName pBuffer nSize)

end Fields

/-- A result for less fuel: none yet, or the same. -/
def Below {α : Type} (r r' : Except Stop α) : Prop := r = .error .fuel ∨ r = r'

section Below
variable {α β : Type} {r r' : Except Stop α}

theorem Below.refl (r : Except Stop α) : Below r r := .inr rfl

theorem Below.trans {r'' : Except Stop α} (h : Below r r') (h' : Below r' r'') : Below r r'' := by
  obtain rfl | rfl := h
  · exact .inl rfl
  · exact h'

theorem Below.bind {f f' : α → Except Stop β} (h : Below r r') (hf : ∀ a, Below (f a) (f' a)) :
    Below (r.bind f) (r'.bind f') := by
  obtain rfl | rfl := h
  · exact .inl rfl
  · cases r with
    | error e => exact .refl _
    | ok a => exact hf a

theorem Below.map (h : Below r r') (f : α → β) : Below (r.map f) (r'.map f) := by
  obtain rfl | rfl := h
  · exact .inl rfl
  · exact .refl _

end Below

section Fuel
variable {mem : ℤ → UInt8} {long64 : Bool}

theorem nested_below {r r' : Except Stop (AmfObject × ℤ)} (h : Below r r')
    (make : AmfObject → AmfData) (nSize : ℤ) :
    Below (nested make nSize (consumed nSize r)) (nested make nSize (consumed nSize r')) :=
  (h.map _).bind fun _ => .refl _

theorem decodeValue_below {props props' : ℤ → ℤ → Except Stop (AmfObject × ℤ)}
    {elements elements' : ℕ → ℤ → ℤ → Except Stop (AmfObject × ℤ)}
    (hprops : ∀ pos nSize, Below (props pos nSize) (props' pos nSize))
    (helements : ∀ count pos nSize, Below (elements count pos nSize) (elements' count pos nSize))
    (type : UInt8) (pos nSize : ℤ) :
    Below
      (decodeValue mem long64 (fun q s => consumed s (props q s))
        (fun n q s => consumed s (elements n q s)) type pos nSize)
      (decodeValue mem long64 (fun q s => consumed s (props' q s))
        (fun n q s => consumed s (elements' n q s)) type pos nSize) := by
  unfold decodeValue
  split
  case h_4 => exact nested_below (hprops _ _) _ _
  case h_8 => exact nested_below (hprops _ _) _ _
  case h_9 => exact nested_below (helements _ _ _) _ _
  all_goals exact .refl _

/-- One unit of fuel more changes no result of the three decoders. -/
theorem decoders_below (mem : ℤ → UInt8) (long64 : Bool) (fuel : ℕ) :
    (∀ named pos nSize, Below (amfPropDecode mem long64 fuel named pos nSize)
      (amfPropDecode mem long64 (fuel + 1) named pos nSize)) ∧
    (∀ named pos nSize, Below (decodeProps mem long64 fuel named pos nSize)
      (decodeProps mem long64 (fuel + 1) named pos nSize)) ∧
    (∀ count pos nSize, Below (decodeElements mem long64 fuel count pos nSize)
      (decodeElements mem long64 (fuel + 1) count pos nSize)) := by
  induction fuel with
  | zero =>
    refine ⟨fun named pos nSize => .inl ?_, fun named pos nSize => .inl ?_,
      fun count pos nSize => .inl ?_⟩
    · rw [amfPropDecode]
    · rw [decodeProps]
    · rw [decodeElements]
  | succ fuel ih =>
    obtain ⟨ihprop, ihprops, ihelements⟩ := ih
    refine ⟨fun named pos nSize => ?_, fun named pos nSize => ?_, fun count pos nSize => ?_⟩
    · rw [amfPropDecode, amfPropDecode]
      apply (Below.refl _).bind
      intro r
      exact (decodeValue_below (ihprops true) ihelements _ _ _).map _
    · rw [decodeProps, decodeProps]
      split_ifs
      · exact .refl _
      · exact .refl _
      · apply (ihprop named pos nSize).bind
        intro p
        split_ifs
        · exact .refl _
        · exact (ihprops named _ _).map _
    · cases count with
      | zero =>
        rw [decodeElements, decodeElements]
        exact .refl _
      | succ count =>
        rw [decodeElements, decodeElements]
        split_ifs
        · exact .refl _
        · apply (ihprop false pos nSize).bind
          intro p
          split_ifs
          · exact .refl _
          · exact (ihelements count _ _).map _

theorem amfPropDecode_below {fuel fuel' : ℕ} (hle : fuel ≤ fuel') (named : Bool) (pos nSize : ℤ) :
    Below (amfPropDecode mem long64 fuel named pos nSize)
      (amfPropDecode mem long64 fuel' named pos nSize) := by
  induction hle with
  | refl => exact .refl _
  | step _ ih => exact ih.trans ((decoders_below mem long64 _).1 named pos nSize)

end Fuel

end ObsBeacon.Rtmp
