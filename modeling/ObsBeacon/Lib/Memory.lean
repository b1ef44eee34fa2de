import Mathlib.Data.Int.Notation
import Mathlib.Data.Nat.Notation
import Mathlib.Order.Defs.PartialOrder

/-! Runs of bytes in a flat memory. -/
namespace Memory

/-- `n` bytes from `pos`. -/
def bytesAt (mem : ℤ → UInt8) : ℤ → ℕ → List UInt8
  | _, 0 => []
  | pos, n + 1 => mem pos :: bytesAt mem (pos + 1) n

/-- The bytes of `bs` are at `pos`. -/
def Holds (mem : ℤ → UInt8) : ℤ → List UInt8 → Prop
  | _, [] => True
  | pos, b :: bs => mem pos = b ∧ Holds mem (pos + 1) bs

/-- Two memories that agree from `lo` up to `hi`. -/
def AgreeOn (mem mem' : ℤ → UInt8) (lo hi : ℤ) : Prop := ∀ i, lo ≤ i → i < hi → mem i = mem' i

/-- A memory with `bs` at its start. -/
def load (bs : List UInt8) : ℤ → UInt8 := fun i => bs.getD i.toNat 0

section Bytes
variable {mem mem' : ℤ → UInt8} {pos lo hi : ℤ}

theorem Holds.bytesAt {bs : List UInt8} (h : Holds mem pos bs) :
    bytesAt mem pos bs.length = bs := by
  induction bs generalizing pos with
  | nil => rfl
  | cons b bs ih =>
    show mem pos :: Memory.bytesAt mem (pos + 1) bs.length = b :: bs
    rw [h.1, ih h.2]

theorem holds_bytesAt (mem : ℤ → UInt8) (pos : ℤ) (n : ℕ) : Holds mem pos (bytesAt mem pos n) := by
  induction n generalizing pos with
  | zero => trivial
  | succ n ih => exact ⟨rfl, ih (pos + 1)⟩

theorem holds_append {front back : List UInt8} :
    Holds mem pos (front ++ back) ↔ Holds mem pos front ∧ Holds mem (pos + front.length) back := by
  induction front generalizing pos with
  | nil => simp [Holds]
  | cons b front ih =>
    have hshift : pos + 1 + (front.length : ℤ) = pos + ((b :: front).length : ℤ) := by
      rw [List.length_cons]
      omega
    rw [List.cons_append, Holds, ih, hshift, Holds, and_assoc]

theorem holds_load_from (front bs : List UInt8) : Holds (load (front ++ bs)) front.length bs := by
  induction bs generalizing front with
  | nil => trivial
  | cons b bs ih =>
    refine ⟨?_, ?_⟩
    · show (front ++ b :: bs).getD (front.length : ℤ).toNat 0 = b
      simp
    · have hnext := ih (front ++ [b])
      rw [List.append_assoc, List.length_append, List.length_singleton, Int.natCast_add] at hnext
      exact hnext

theorem holds_load (bs : List UInt8) : Holds (load bs) 0 bs := holds_load_from [] bs

theorem AgreeOn.mono {lo' hi' : ℤ} (h : AgreeOn mem mem' lo hi) (hlo : lo ≤ lo') (hhi : hi' ≤ hi) :
    AgreeOn mem mem' lo' hi' := fun i hi hi' =>
  h i (Int.le_trans hlo hi) (Int.lt_of_lt_of_le hi' hhi)

theorem AgreeOn.bytesAt_eq {n : ℕ} (h : AgreeOn mem mem' lo hi) (hlo : lo ≤ pos)
    (hhi : pos + n ≤ hi) : bytesAt mem pos n = bytesAt mem' pos n := by
  induction n generalizing pos with
  | zero => rfl
  | succ n ih =>
    rw [bytesAt, bytesAt, h pos hlo (by omega), ih (by omega) (by omega)]

theorem AgreeOn.holds {bs : List UInt8} (h : AgreeOn mem mem' lo hi) (hlo : lo ≤ pos)
    (hhi : pos + bs.length ≤ hi) (hbs : Holds mem pos bs) : Holds mem' pos bs := by
  rw [← hbs.bytesAt, h.bytesAt_eq hlo hhi]
  exact holds_bytesAt mem' pos bs.length

end Bytes

end Memory
