import ObsBeacon.Lib.H264
import ObsBeacon.PacketProbe.Annexb

/-! What `epb_escape` guarantees of its output, for any byte string, and that a decoder reads
the input back from it. -/
namespace ObsBeacon.PacketProbe
open H264 Stuffing

/-- The bytes `epb_escape` pushes, each marked by whether it was inserted. -/
def epbMarked (rbsp : List UInt8) : List (UInt8 × Bool) := emulationPrevention.stuff rbsp

/-- The marks are those of `epb_escape`; it inserts `03` only. -/
structure Marks (rbsp : List UInt8) : Prop where
  bytes : (epbMarked rbsp).map Prod.fst = epbEscape rbsp
  kept : sources (epbMarked rbsp) = rbsp
  inserted : ∀ b : UInt8, (b, true) ∈ epbMarked rbsp → b = 3

/-- No start-code pattern is left, an inserted `03` is what breaks it, and a decoder that drops
these bytes has the input again. -/
structure EmulationPrevented (rbsp : List UInt8) : Prop where
  noPattern : ∀ b : UInt8, b ≤ 2 → ¬ [0, 0, b] <:+: epbEscape rbsp
  ends : ∀ p q m : Bool, [(0, p), (0, q), (3, m)] <:+: epbMarked rbsp → m = true
  reversible : unescape (epbEscape rbsp) = rbsp

/-- At most one byte is inserted for each two of the input, in all and between any two
insertions. -/
structure Sparse (rbsp : List UInt8) : Prop where
  length : (epbEscape rbsp).length = rbsp.length + (epbMarked rbsp).countP (·.2)
  total : 2 * (epbMarked rbsp).countP (·.2) ≤ rbsp.length
  between : ∀ pre mid suf (b b' : UInt8),
    epbMarked rbsp = pre ++ (b, true) :: (mid ++ (b', true) :: suf) → 2 ≤ (sources mid).length

theorem epbEscapeLoop_eq (zeros : ℕ) (rbsp : List UInt8) :
    epbEscapeLoop zeros rbsp = (emulationPrevention.stuffFrom zeros rbsp).map Prod.fst := by
  induction rbsp generalizing zeros with
  | nil => rfl
  | cons b bs ih =>
    rw [epbEscapeLoop, ih, ih, Code.stuffFrom, apply_ite (List.map Prod.fst)]
    simp only [emulationPrevention, Code.count, decide_eq_true_eq, List.map_cons]
    rfl

theorem epbEscape_of_ne_zero {bs : List UInt8} (h : ∀ b ∈ bs, b ≠ 0) : epbEscape bs = bs := by
  rw [epbEscape, epbEscapeLoop_eq]
  exact Code.stuffFrom_of_ne_zero h

/-- The running count of zero bytes after one more byte. -/
def epbZeros (zeros : ℕ) (b : UInt8) : ℕ :=
  let zeros := if 2 ≤ zeros ∧ b ≤ 3 then 0 else zeros
  if b = 0 then zeros + 1 else 0

theorem epbEscapeLoop_append (zeros : ℕ) (pre rbsp : List UInt8) :
    epbEscapeLoop zeros (pre ++ rbsp) =
      epbEscapeLoop zeros pre ++ epbEscapeLoop (pre.foldl epbZeros zeros) rbsp := by
  induction pre generalizing zeros with
  | nil => rfl
  | cons b pre ih =>
    rw [List.cons_append, epbEscapeLoop, epbEscapeLoop, ih, ih, List.foldl_cons]
    by_cases h : 2 ≤ zeros ∧ b ≤ 3
    · simp [epbZeros, h]
    · simp [epbZeros, h]

theorem epbZeros_le (pre : List UInt8) : pre.foldl epbZeros 0 ≤ 2 := by
  induction pre using List.reverseRecOn with
  | nil => exact Nat.zero_le 2
  | append_singleton pre b ih =>
    rw [List.foldl_append, List.foldl_cons, List.foldl_nil]
    generalize pre.foldl epbZeros 0 = zeros at ih ⊢
    by_cases hb : b = 0
    · subst hb
      by_cases h : 2 ≤ zeros
      · simp [epbZeros, h]
      · simp only [epbZeros, h, false_and, if_false, if_true]
        omega
    · simp [epbZeros, hb]

/-- The loop goes on after any part of the input with a count of at most 2, so that no input
makes an `int` overflow. -/
theorem epbEscape_append (pre rbsp : List UInt8) :
    ∃ zeros ≤ 2, epbEscape (pre ++ rbsp) = epbEscape pre ++ epbEscapeLoop zeros rbsp :=
  ⟨pre.foldl epbZeros 0, epbZeros_le pre, epbEscapeLoop_append 0 pre rbsp⟩

theorem marks (rbsp : List UInt8) : Marks rbsp where
  bytes := (epbEscapeLoop_eq 0 rbsp).symm
  kept := Code.sources_stuffFrom 0 rbsp
  inserted _ h := Code.eq_esc_of_inserted h

/-- Two zero bytes are followed by an inserted `03` or by a byte above `03`. -/
theorem inserted_of_zeros {rbsp : List UInt8} {b : UInt8} {p q m : Bool}
    (h : [(0, p), (0, q), (b, m)] <:+: epbMarked rbsp) (hb : b ≤ 3) : b = 3 ∧ m = true := by
  have hrun : ∀ r ∈ [((0 : UInt8), p), (0, q)], r.1 = emulationPrevention.zero := by
    simp [emulationPrevention]
  have hinfix : [((0 : UInt8), p), (0, q)] ++ [(b, m)] <:+:
      emulationPrevention.stuffFrom 0 rbsp := h
  exact Prod.mk.inj (Code.inserted_of_run hinfix hrun (Nat.le_refl 2) (decide_eq_true hb))

theorem emulationPrevented (rbsp : List UInt8) : EmulationPrevented rbsp where
  noPattern b hb h := by
    rw [← (marks rbsp).bytes, List.infix_map_iff] at h
    obtain ⟨triple, hinfix, hbytes⟩ := h
    obtain ⟨⟨x, p⟩, ⟨y, q⟩, ⟨z, m⟩, rfl⟩ := List.length_eq_three.mp
      ((List.length_map Prod.fst).symm.trans (congrArg List.length hbytes.symm))
    obtain ⟨rfl, rfl, rfl⟩ : 0 = x ∧ 0 = y ∧ b = z := by simpa using hbytes
    have hguarded : b ≤ 3 := UInt8.le_trans hb (by decide)
    obtain rfl := (inserted_of_zeros hinfix hguarded).1
    exact absurd hb (by decide)
  ends p q m h := (inserted_of_zeros h (by decide)).2
  reversible := by
    rw [unescape, unescapeFrom_eq, epbEscape, epbEscapeLoop_eq]
    exact Code.unstuffFrom_stuffFrom 0 rbsp

theorem sparse (rbsp : List UInt8) : Sparse rbsp where
  length := by
    rw [← (marks rbsp).bytes, List.length_map, length_eq_sources_add, (marks rbsp).kept]
  total := emulationPrevention.run_mul_inserted_le 0 rbsp
  between _ _ _ _ _ h := Code.run_between h

/-- Emulation prevention is sound and reversible on every byte string. -/
theorem epbEscape_sound :
    (∀ rbsp : List UInt8, Marks rbsp ∧ EmulationPrevented rbsp ∧ Sparse rbsp) ∧
      Function.Injective epbEscape := by
  constructor
  · exact fun rbsp => ⟨marks rbsp, emulationPrevented rbsp, sparse rbsp⟩
  · exact Function.LeftInverse.injective fun rbsp => (emulationPrevented rbsp).reversible

end ObsBeacon.PacketProbe
