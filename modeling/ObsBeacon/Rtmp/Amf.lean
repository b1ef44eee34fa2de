import ObsBeacon.Lib.Amf0
import ObsBeacon.Lib.BoundedWriter

/-! The AMF0 encoders of librtmp. A pointer into the body is the list of the bytes before it,
`outend` the number of bytes the body has room for, a null result `none`. -/
namespace ObsBeacon.Rtmp
open Amf0 BoundedWriter

def encodeInt (bytes outend n : ℕ) : Writer := fun output =>
  if outend < output.length + bytes then none else some (output ++ bigEndian bytes n)

def amfEncodeInt16 (outend n : ℕ) : Writer := encodeInt 2 outend n
def amfEncodeInt24 (outend n : ℕ) : Writer := encodeInt 3 outend n
def amfEncodeInt32 (outend n : ℕ) : Writer := encodeInt 4 outend n

def amfEncodeString (outend : ℕ) (bv : List UInt8) : Writer := fun output =>
  if (bv.length < 65536 ∧ outend < output.length + 1 + 2 + bv.length) ∨
      outend < output.length + 1 + 4 + bv.length then none
  else if bv.length < 65536 then
    (amfEncodeInt16 outend bv.length (output ++ [0x02])).map (· ++ bv)
  else (amfEncodeInt32 outend bv.length (output ++ [0x0c])).map (· ++ bv)

def amfEncodeNumber (outend : ℕ) (bits : UInt64) : Writer := fun output =>
  if outend < output.length + 1 + 8 then none
  else some (output ++ 0x00 :: bigEndian 8 bits.toNat)

def amfEncodeBoolean (outend : ℕ) (b : Bool) : Writer := fun output =>
  if outend < output.length + 2 then none else some (output ++ [0x01, if b then 1 else 0])

/-- The name that the three named encoders write first. -/
def encodeName (outend : ℕ) (name : List UInt8) : Writer := fun output =>
  if outend < output.length + 2 + name.length then none
  else (amfEncodeInt16 outend name.length output).map (· ++ name)

def amfEncodeNamedString (outend : ℕ) (name value : List UInt8) : Writer := fun output =>
  (encodeName outend name output).bind (amfEncodeString outend value)

def amfEncodeNamedNumber (outend : ℕ) (name : List UInt8) (bits : UInt64) : Writer :=
  fun output => (encodeName outend name output).bind (amfEncodeNumber outend bits)

def amfEncodeNamedBoolean (outend : ℕ) (name : List UInt8) (b : Bool) : Writer :=
  fun output => (encodeName outend name output).bind (amfEncodeBoolean outend b)

mutual
/-- The type and value of an `AMFObjectProperty`; `invalid` is every type that is not encoded. -/
inductive AmfValue where
  | number (bits : UInt64)
  | boolean (b : Bool)
  | string (aval : List UInt8)
  | null
  | object (props : AmfProps)
  | ecmaArray (props : AmfProps)
  | strictArray (props : AmfProps)
  | invalid

/-- An `AMFObject`: properties with their names. -/
inductive AmfProps where
  | nil
  | cons (name : List UInt8) (value : AmfValue) (rest : AmfProps)
end

def AmfProps.count : AmfProps → ℕ
  | .nil => 0
  | .cons _ _ rest => rest.count + 1

/-- The bounds check and the name at the head of `AMFProp_Encode`. -/
def propName (outend : ℕ) (name : List UInt8) : Writer := fun output =>
  if outend ≤ output.length + name.length + 2 + 1 then none
  else if name.length ≠ 0 then some (output ++ bigEndian 2 name.length ++ name)
  else some output

/-- The end marker, at the end of `AMF_Encode` and `AMF_EncodeEcmaArray`. -/
def endMarker (outend : ℕ) : Writer := fun output =>
  if outend ≤ output.length + 3 then none else amfEncodeInt24 outend 0x09 output

/-- `AMF_Encode` around the loop over its properties. -/
def objectAround (outend : ℕ) (loop : List UInt8 → List UInt8) : Writer := fun output =>
  if outend ≤ output.length + 4 then none else endMarker outend (loop (output ++ [0x03]))

/-- `AMF_EncodeEcmaArray` around the loop over its properties. -/
def ecmaArrayAround (outend count : ℕ) (loop : List UInt8 → List UInt8) : Writer :=
  fun output =>
    if outend ≤ output.length + 4 then none
    else
      (amfEncodeInt32 outend count (output ++ [0x08])).bind fun out => endMarker outend (loop out)

/-- `AMF_EncodeArray` around the loop over its properties; it has no end marker. -/
def arrayAround (outend count : ℕ) (loop : List UInt8 → List UInt8) : Writer := fun output =>
  if outend ≤ output.length + 4 then none
  else (amfEncodeInt32 outend count (output ++ [0x0a])).map loop

mutual
def amfPropEncode (outend : ℕ) (name : List UInt8) : AmfValue → Writer
  | .invalid, _ => none
  | .number bits, output => (propName outend name output).bind (amfEncodeNumber outend bits)
  | .boolean b, output => (propName outend name output).bind (amfEncodeBoolean outend b)
  | .string aval, output => (propName outend name output).bind (amfEncodeString outend aval)
  | .null, output => if outend ≤ output.length + 1 then none else some (output ++ [0x05])
  | .object props, output =>
    (propName outend name output).bind (objectAround outend (encodeProps outend props))
  | .ecmaArray props, output =>
    (propName outend name output).bind
      (ecmaArrayAround outend props.count (encodeProps outend props))
  | .strictArray props, output =>
    (propName outend name output).bind
      (arrayAround outend props.count (encodeProps outend props))

/-- The loop over the properties of an object: it stops at the first one that fails and
keeps what is written so far. -/
def encodeProps (outend : ℕ) : AmfProps → List UInt8 → List UInt8
  | .nil, output => output
  | .cons name value rest, output =>
    match amfPropEncode outend name value output with
    | none => output
    | some res => encodeProps outend rest res
end

/-- `AMF_Encode`. -/
def amfEncode (outend : ℕ) (props : AmfProps) : Writer :=
  objectAround outend (encodeProps outend props)

theorem amfPropEncode_object (outend : ℕ) (name : List UInt8) (props : AmfProps)
    (output : List UInt8) :
    amfPropEncode outend name (.object props) output =
      (propName outend name output).bind (amfEncode outend props) := by
  rw [amfPropEncode]
  rfl

end ObsBeacon.Rtmp
