import Mathlib.Data.List.Induction
import Mathlib.Data.Nat.Notation
import Mathlib.Tactic.Ring

/-! AMF0 values and their encoding, with a decoder that reads every encoding back. -/
namespace Amf0

/-- The last `k` base-256 digits of `n`, most significant first. -/
def bigEndian : ℕ → ℕ → List UInt8
  | 0, _ => []
  | k + 1, n => UInt8.ofNat (n / 256 ^ k) :: bigEndian k n

def ofBigEndian (bs : List UInt8) : ℕ := bs.foldl (fun n b => n * 256 + b.toNat) 0

mutual
inductive Value where
  | number (bits : UInt64)
  | boolean (b : Bool)
  | string (s : List UInt8)
  | null
  | object (members : Members)

inductive Members where
  | nil
  | cons (name : List UInt8) (value : Value) (rest : Members)
end

/-- A string of 65536 bytes or more is a long string. -/
def encodeString (s : List UInt8) : List UInt8 :=
  if s.length < 65536 then 0x02 :: (bigEndian 2 s.length ++ s)
  else 0x0c :: (bigEndian 4 s.length ++ s)

mutual
def encode : Value → List UInt8
  | .number bits => 0x00 :: bigEndian 8 bits.toNat
  | .boolean b => [0x01, if b then 1 else 0]
  | .string s => encodeString s
  | .null => [0x05]
  | .object members => 0x03 :: encodeMembers members

/-- Named values, then the end-of-object marker. -/
def encodeMembers : Members → List UInt8
  | .nil => [0x00, 0x00, 0x09]
  | .cons name value rest => bigEndian 2 name.length ++ name ++ encode value ++ encodeMembers rest
end

def encodeAll (vs : List Value) : List UInt8 := vs.flatMap encode

/-- The first `n` bytes and the rest. -/
def split (n : ℕ) (bs : List UInt8) : Option (List UInt8 × List UInt8) :=
  if bs.length < n then none else some (bs.take n, bs.drop n)

/-- A number of `k` bytes, then as many bytes as it says. -/
def readCounted (k : ℕ) (bs : List UInt8) : Option (List UInt8 × List UInt8) :=
  (split k bs).bind fun r => split (ofBigEndian r.1) r.2

mutual
def decode : ℕ → List UInt8 → Option (Value × List UInt8)
  | _ + 1, 0x00 :: bs =>
    (split 8 bs).map fun r => (.number (UInt64.ofNat (ofBigEndian r.1)), r.2)
  | _ + 1, 0x01 :: b :: rest => some (.boolean (b != 0), rest)
  | _ + 1, 0x02 :: bs => (readCounted 2 bs).map fun r => (.string r.1, r.2)
  | _ + 1, 0x0c :: bs => (readCounted 4 bs).map fun r => (.string r.1, r.2)
  | _ + 1, 0x05 :: rest => some (.null, rest)
  | fuel + 1, 0x03 :: bs => (decodeMembers fuel bs).map fun r => (.object r.1, r.2)
  | _, _ => none

def decodeMembers : ℕ → List UInt8 → Option (Members × List UInt8)
  | 0, _ => none
  | fuel + 1, bs =>
    match readCounted 2 bs with
    | some ([], 0x09 :: rest) => some (.nil, rest)
    | some (name, rest) =>
      match decode fuel rest with
      | none => none
      | some (value, rest) =>
        (decodeMembers fuel rest).map fun r => (.cons name value r.1, r.2)
    | none => none
end

/-- The values a body consists of, with no bytes left over. -/
def decodeAll : ℕ → List UInt8 → Option (List Value)
  | _, [] => some []
  | 0, _ => none
  | fuel + 1, bs =>
    match decode (bs.length + 1) bs with
    | none => none
    | some (value, rest) => (decodeAll fuel rest).map (value :: ·)

/-- A whole body; each value takes a byte at least. -/
def decodeBody (bs : List UInt8) : Option (List Value) := decodeAll bs.length bs

mutual
/-- The lengths fit their fields. -/
def Value.Fits : Value → Prop
  | .string s => s.length < 2 ^ 32
  | .object members => members.Fits
  | _ => True

def Members.Fits : Members → Prop
  | .nil => True
  | .cons name value rest => name.length < 65536 ∧ value.Fits ∧ rest.Fits
end

@[simp] theorem length_bigEndian (k n : ℕ) : (bigEndian k n).length = k := by
  induction k with
  | zero => rfl
  | succ k ih => rw [bigEndian, List.length_cons, ih]

theorem foldl_bigEndian (k n acc : ℕ) :
    (bigEndian k n).foldl (fun n b => n * 256 + b.toNat) acc = acc * 256 ^ k + n % 256 ^ k := by
  induction k generalizing acc with
  | zero => simp [bigEndian, Nat.mod_one]
  | succ k ih =>
    have hdigit : (UInt8.ofNat (n / 256 ^ k)).toNat = n / 256 ^ k % 256 := UInt8.toNat_ofNat'
    rw [bigEndian, List.foldl_cons, ih, hdigit, Nat.mod_pow_succ]
    ring

theorem ofBigEndian_bigEndian {k n : ℕ} (h : n < 256 ^ k) : ofBigEndian (bigEndian k n) = n := by
  rw [ofBigEndian, foldl_bigEndian, Nat.zero_mul, Nat.zero_add, Nat.mod_eq_of_lt h]

theorem ofBigEndian_lt (bs : List UInt8) : ofBigEndian bs < 256 ^ bs.length := by
  induction bs using List.reverseRecOn with
  | nil => decide
  | append_singleton bs b ih =>
    have hb : b.toNat < 256 := b.toNat_lt
    rw [ofBigEndian, List.foldl_append, List.foldl_cons, List.foldl_nil, List.length_append,
      List.length_singleton, pow_succ]
    rw [ofBigEndian] at ih
    omega

theorem split_append {n : ℕ} {front : List UInt8} (h : front.length = n) (rest : List UInt8) :
    split n (front ++ rest) = some (front, rest) := by
  subst h
  simp [split]

theorem split_length {n : ℕ} {bs field rest : List UInt8}
    (h : split n bs = some (field, rest)) : field.length = n := by
  rw [split] at h
  split_ifs at h
  rw [← (Prod.mk.inj (Option.some.inj h)).1, List.length_take]
  omega

theorem readCounted_append {k : ℕ} {s : List UInt8} (h : s.length < 256 ^ k)
    (rest : List UInt8) :
    readCounted k (bigEndian k s.length ++ (s ++ rest)) = some (s, rest) := by
  rw [readCounted, split_append (length_bigEndian _ _), Option.bind_some,
    ofBigEndian_bigEndian h, split_append rfl]

theorem length_encodeString (s : List UInt8) :
    (encodeString s).length = if s.length < 65536 then 3 + s.length else 5 + s.length := by
  unfold encodeString
  split_ifs
  · rw [List.length_cons, List.length_append, length_bigEndian]
    omega
  · rw [List.length_cons, List.length_append, length_bigEndian]
    omega

theorem length_encode_pos (v : Value) : 0 < (encode v).length := by
  cases v with
  | string s =>
    rw [encode, length_encodeString]
    split_ifs <;> omega
  | _ => simp [encode]

theorem encode_head_ne (v : Value) : (encode v).head? ≠ some 0x09 := by
  cases v with
  | string s =>
    rw [encode, encodeString]
    split_ifs <;> simp
  | _ => simp [encode]

mutual
/-- Decoding gives back the value and leaves what follows it. -/
theorem decode_encode (v : Value) (h : v.Fits) {fuel : ℕ} (hfuel : (encode v).length ≤ fuel)
    (rest : List UInt8) : decode fuel (encode v ++ rest) = some (v, rest) := by
  cases fuel with
  | zero => exact absurd (length_encode_pos v) (by omega)
  | succ fuel =>
    cases v with
    | number bits =>
      have hbits : bits.toNat < 256 ^ 8 := bits.toNat_lt
      rw [encode, List.cons_append, decode, split_append (length_bigEndian _ _), Option.map_some,
        ofBigEndian_bigEndian hbits, UInt64.ofNat_toNat]
    | boolean b => cases b <;> rfl
    | string s =>
      unfold Value.Fits at h
      rw [encode, encodeString]
      split_ifs with hshort
      · rw [List.cons_append, List.append_assoc, decode, readCounted_append (by omega),
          Option.map_some]
      · rw [List.cons_append, List.append_assoc, decode, readCounted_append (by omega),
          Option.map_some]
    | null => rfl
    | object members =>
      rw [encode, List.length_cons] at hfuel
      rw [encode, List.cons_append, decode,
        decodeMembers_encodeMembers members h (by omega) rest, Option.map_some]

theorem decodeMembers_encodeMembers (ms : Members) (h : ms.Fits) {fuel : ℕ}
    (hfuel : (encodeMembers ms).length ≤ fuel) (rest : List UInt8) :
    decodeMembers fuel (encodeMembers ms ++ rest) = some (ms, rest) := by
  cases ms with
  | nil =>
    cases fuel with
    | zero => simp [encodeMembers] at hfuel
    | succ fuel =>
      have hread : readCounted 2 (encodeMembers .nil ++ rest) = some ([], 0x09 :: rest) :=
        readCounted_append (k := 2) (s := []) (by decide) (0x09 :: rest)
      rw [decodeMembers, hread]
      rfl
  | cons name value ms =>
    obtain ⟨hname, hvalue, hms⟩ := h
    simp only [encodeMembers, List.length_append, length_bigEndian] at hfuel
    cases fuel with
    | zero => omega
    | succ fuel =>
      have hread : readCounted 2 (encodeMembers (.cons name value ms) ++ rest) =
          some (name, encode value ++ (encodeMembers ms ++ rest)) := by
        rw [encodeMembers]
        simp only [List.append_assoc]
        exact readCounted_append (by omega) _
      have hend : ∀ tail, encode value ++ (encodeMembers ms ++ rest) ≠ 0x09 :: tail := by
        intro tail htail
        apply encode_head_ne value
        cases hvalue : encode value with
        | nil => exact absurd (hvalue ▸ length_encode_pos value) (by simp)
        | cons b bs =>
          rw [hvalue, List.cons_append] at htail
          rw [(List.cons.inj htail).1, List.head?_cons]
      rw [decodeMembers, hread]
      split
      · rename_i tail hcase
        exact absurd (Prod.mk.inj (Option.some.inj hcase)).2 (hend tail)
      · rename_i name' rest' _ hcase
        obtain ⟨rfl, rfl⟩ := Prod.mk.inj (Option.some.inj hcase)
        rw [decode_encode value hvalue (by omega)]
        simp only
        rw [decodeMembers_encodeMembers ms hms (by omega), Option.map_some]
      · rename_i hcase
        exact absurd hcase (by simp)
end

/-- The concatenated encodings of some values are decoded as these values. -/
theorem decodeAll_encodeAll (vs : List Value) (h : ∀ v ∈ vs, v.Fits) {fuel : ℕ}
    (hfuel : vs.length ≤ fuel) : decodeAll fuel (encodeAll vs) = some vs := by
  induction vs generalizing fuel with
  | nil => cases fuel <;> rfl
  | cons v vs ih =>
    rw [List.length_cons] at hfuel
    have hne : encodeAll (v :: vs) ≠ [] := by
      intro hnil
      have hpos := length_encode_pos v
      rw [encodeAll, List.flatMap_cons, List.append_eq_nil_iff] at hnil
      rw [hnil.1] at hpos
      exact absurd hpos (by simp)
    cases fuel with
    | zero => omega
    | succ fuel =>
      have hlen : (encode v).length ≤ (encodeAll (v :: vs)).length + 1 := by
        rw [encodeAll, List.flatMap_cons, List.length_append]
        omega
      have hv : decode ((encodeAll (v :: vs)).length + 1) (encodeAll (v :: vs)) =
          some (v, encodeAll vs) :=
        decode_encode v (h v (by simp)) hlen (encodeAll vs)
      have hvs := ih (fun v hv => h v (by simp [hv])) (show vs.length ≤ fuel by omega)
      rw [decodeAll, hv]
      · simp only [hvs, Option.map_some]
      · exact hne

theorem length_le_length_encodeAll (vs : List Value) : vs.length ≤ (encodeAll vs).length := by
  induction vs with
  | nil => simp
  | cons v vs ih =>
    have hpos := length_encode_pos v
    rw [encodeAll, List.flatMap_cons, List.length_append, List.length_cons]
    unfold encodeAll at ih
    omega

theorem decodeBody_encodeAll {vs : List Value} (h : ∀ v ∈ vs, v.Fits) :
    decodeBody (encodeAll vs) = some vs :=
  decodeAll_encodeAll vs h (length_le_length_encodeAll vs)

end Amf0
