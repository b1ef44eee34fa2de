import Mathlib.Data.List.DropRight
import Mathlib.Data.List.Pairwise
import Mathlib.Tactic
import ObsBeacon.Lib.Stuffing

/-! H.264 syntax above the byte stream: NAL unit types, emulation prevention, SEI
messages, and the order of the NAL units of one access unit. -/
namespace H264

/-- `nal_unit_type`: the low five bits of the header byte. -/
def nalType (nal : List UInt8) : Option ℕ := nal.head?.map fun b => b.toNat % 32

/-- Drop each `03` that follows two zero bytes counted since the last dropped `03`. -/
def unescapeFrom : ℕ → List UInt8 → List UInt8
  | _, [] => []
  | zeros, b :: bs =>
    if 2 ≤ zeros ∧ b = 3 then unescapeFrom 0 bs
    else b :: unescapeFrom (if b = 0 then zeros + 1 else 0) bs

def unescape (bs : List UInt8) : List UInt8 := unescapeFrom 0 bs

/-- Emulation prevention as a stuffing code: `03` goes between two zeros and a byte up to
`03`. -/
def emulationPrevention : Stuffing.Code UInt8 where
  zero := 0
  esc := 3
  run := 2
  guarded := fun b => b ≤ 3
  esc_ne_zero := by decide
  guarded_esc := by decide
  run_pos := by decide

theorem unescapeFrom_eq (zeros : ℕ) (bs : List UInt8) :
    unescapeFrom zeros bs = emulationPrevention.unstuffFrom zeros bs := by
  induction bs generalizing zeros with
  | nil => rfl
  | cons b bs ih =>
    rw [unescapeFrom, ih, ih]
    rfl

theorem unescape_of_ne_zero {bs : List UInt8} (h : ∀ b ∈ bs, b ≠ 0) : unescape bs = bs := by
  rw [unescape, unescapeFrom_eq]
  exact Stuffing.Code.unstuffFrom_of_ne_zero h

/-- A `payloadType` or `payloadSize`: 255 for each leading `ff` byte, plus the last byte. -/
def readFfCoded : List UInt8 → Option (ℕ × List UInt8)
  | [] => none
  | b :: bs =>
    if b = 255 then (readFfCoded bs).map fun r => (r.1 + 255, r.2)
    else some (b.toNat, bs)

/-- The bytes `readFfCoded` reads back as `n`. -/
def ffCoded (n : ℕ) : List UInt8 :=
  List.replicate (n / 255) 255 ++ [UInt8.ofNat (n % 255)]

theorem readFfCoded_ffCoded (n : ℕ) (rest : List UInt8) :
    readFfCoded (ffCoded n ++ rest) = some (n, rest) := by
  have hlast : (UInt8.ofNat (n % 255)).toNat = n % 255 := by
    rw [UInt8.toNat_ofNat']
    omega
  have hne : UInt8.ofNat (n % 255) ≠ 255 := by
    intro h
    rw [h] at hlast
    have : (255 : UInt8).toNat = 255 := rfl
    omega
  have hrun (k m : ℕ) (b : UInt8) (hb : b ≠ 255) (hm : b.toNat = m) :
      readFfCoded (List.replicate k 255 ++ (b :: rest)) = some (255 * k + m, rest) := by
    induction k with
    | zero => simp [readFfCoded, hb, hm]
    | succ k ih =>
      simp only [List.replicate_succ, List.cons_append, readFfCoded, ih]
      simp
      omega
  have h := hrun (n / 255) (n % 255) _ hne hlast
  simp only [ffCoded, List.append_assoc, List.singleton_append, h]
  congr 2
  omega

/-- The payload types of the SEI messages in an RBSP. Reading stops at the trailing bits
or at the first message that is cut short; each turn consumes at least two bytes. -/
def seiPayloadTypesFrom : ℕ → List UInt8 → List ℕ
  | 0, _ => []
  | fuel + 1, bs =>
    if bs = [128] then []
    else
      match readFfCoded bs with
      | none => []
      | some (type, bs) =>
        match readFfCoded bs with
        | none => []
        | some (size, bs) =>
          if size ≤ bs.length then type :: seiPayloadTypesFrom fuel (bs.drop size) else []

/-- The payload types an SEI NAL unit carries. Zero bytes after the trailing bits belong
to the byte stream, not to the RBSP. -/
def seiPayloadTypes (nal : List UInt8) : List ℕ :=
  let rbsp := (unescape nal.tail).rdropWhile (· == 0)
  seiPayloadTypesFrom rbsp.length rbsp

def isAud (nal : List UInt8) : Bool := nalType nal == some 9
def isSei (nal : List UInt8) : Bool := nalType nal == some 6
def isSlice (nal : List UInt8) : Bool := nalType nal == some 1 || nalType nal == some 5

/-- An SEI NAL unit with a buffering-period message (payload type 0). -/
def isBufferingPeriod (nal : List UInt8) : Bool := isSei nal && (seiPayloadTypes nal).contains 0

/-- An access unit delimiter, if there is one, is the first NAL unit. -/
def AudFirst (nals : List (List UInt8)) : Prop := ∀ nal ∈ nals.tail, isAud nal = false

/-- No SEI NAL unit comes after a slice. -/
def SeiBeforeSlice (nals : List (List UInt8)) : Prop :=
  nals.Pairwise fun a b => ¬ (isSlice a = true ∧ isSei b = true)

/-- A buffering-period SEI, if there is one, is the first SEI NAL unit. -/
def BufferingPeriodFirst (nals : List (List UInt8)) : Prop :=
  ∀ nal ∈ (nals.filter isSei).tail, isBufferingPeriod nal = false

/-- The order of NAL units inside one access unit. -/
structure WellOrdered (nals : List (List UInt8)) : Prop where
  audFirst : AudFirst nals
  seiBeforeSlice : SeiBeforeSlice nals
  bufferingPeriodFirst : BufferingPeriodFirst nals

instance (nals : List (List UInt8)) : Decidable (WellOrdered nals) :=
  decidable_of_iff
    ((∀ nal ∈ nals.tail, isAud nal = false) ∧
      nals.Pairwise (fun a b => ¬ (isSlice a = true ∧ isSei b = true)) ∧
      ∀ nal ∈ (nals.filter isSei).tail, isBufferingPeriod nal = false)
    ⟨fun h => ⟨h.1, h.2.1, h.2.2⟩, fun h => ⟨h.1, h.2, h.3⟩⟩

section Prepend
variable {sei : List UInt8} {nals : List (List UInt8)}

theorem isSei_not_slice (h : isSei sei = true) : isSlice sei = false := by
  have ht : nalType sei = some 6 := by simpa [isSei] using h
  simp [isSlice, ht]

theorem audFirst_cons : AudFirst (sei :: nals) ↔ ∀ nal ∈ nals, isAud nal = false := Iff.rfl

/-- An SEI NAL unit may stand in front of any access unit as far as slices are concerned. -/
theorem seiBeforeSlice_cons (h : isSei sei = true) :
    SeiBeforeSlice (sei :: nals) ↔ SeiBeforeSlice nals := by
  simp [SeiBeforeSlice, isSei_not_slice h]

/-- In front of an access unit, an SEI NAL unit takes the place a buffering period needs. -/
theorem bufferingPeriodFirst_cons (h : isSei sei = true) :
    BufferingPeriodFirst (sei :: nals) ↔ ∀ nal ∈ nals, isBufferingPeriod nal = false := by
  simp only [BufferingPeriodFirst, List.filter_cons, h, ↓reduceIte, List.tail_cons,
    List.mem_filter]
  constructor
  · intro hall nal hmem
    by_cases hs : isSei nal = true
    · exact hall nal ⟨hmem, hs⟩
    · simp [isBufferingPeriod, hs]
  · exact fun hall nal hmem => hall nal hmem.1

end Prepend
end H264
