import Mathlib.Data.List.Forall2
import Mathlib.Data.Nat.Notation

/-! Writers that append bytes to a buffer of limited capacity or fail. -/
namespace BoundedWriter

/-- From the bytes written so far to those written afterwards. -/
abbrev Writer := List UInt8 → Option (List UInt8)

/-- One writer after the other, as long as none fails. -/
def runAll : List Writer → Writer
  | [], out => some out
  | w :: ws, out => (w out).bind (runAll ws)

/-- The writer, where a condition holds. -/
def onlyIf (c : Bool) (w : Writer) : Writer := fun out => if c then w out else some out

/-- `w` writes `bs` or fails, and does not fail while `slack` bytes would stay free. -/
structure Appends (cap slack : ℕ) (w : Writer) (bs : List UInt8) : Prop where
  fits : ∀ out, out.length + bs.length + slack ≤ cap → w out = some (out ++ bs)
  sound : ∀ out res, w out = some res → res = out ++ bs

variable {cap slack : ℕ} {w : Writer} {bs : List UInt8}

theorem Appends.of_exact {need : ℕ}
    (h : ∀ out, w out = if out.length + need ≤ cap then some (out ++ bs) else none)
    (hneed : need ≤ bs.length + slack) : Appends cap slack w bs := by
  constructor
  · intro out hlen
    rw [h out, if_pos (by omega)]
  · intro out res hres
    rw [h out] at hres
    split_ifs at hres
    exact (Option.some.inj hres).symm

theorem Appends.nothing : Appends cap slack some [] where
  fits out _ := by rw [List.append_nil]
  sound out res hres := by rw [List.append_nil, Option.some.inj hres]

theorem Appends.onlyIf_false : Appends cap slack (BoundedWriter.onlyIf false w) [] :=
  Appends.nothing

theorem Appends.onlyIf (h : Appends cap slack w bs) (c : Bool) :
    Appends cap slack (onlyIf c w) (if c then bs else []) := by
  cases c with
  | false => exact Appends.nothing
  | true => exact h

theorem Appends.bind (h : Appends cap slack w bs) {w' : Writer} {bs' : List UInt8}
    (h' : Appends cap slack w' bs') :
    Appends cap slack (fun out => (w out).bind w') (bs ++ bs') := by
  constructor
  · intro out hlen
    rw [List.length_append] at hlen
    have hmid : (out ++ bs).length + bs'.length + slack ≤ cap := by
      rw [List.length_append]
      omega
    rw [h.fits out (by omega), Option.bind_some, h'.fits _ hmid, List.append_assoc]
  · intro out res hres
    obtain ⟨mid, hmid, hrest⟩ := Option.bind_eq_some_iff.mp hres
    rw [h'.sound mid res hrest, h.sound out mid hmid, List.append_assoc]

theorem Appends.runAll {ws : List Writer} {bss : List (List UInt8)}
    (h : List.Forall₂ (Appends cap slack) ws bss) :
    Appends cap slack (runAll ws) bss.flatten := by
  induction h with
  | nil => exact Appends.nothing
  | cons hw _ ih => exact hw.bind ih

/-- A last writer with an exact bound, at least the slack, decides for the whole sequence. -/
theorem Appends.bind_exact (h : Appends cap slack w bs) {last : Writer} {tail : List UInt8}
    {need : ℕ} (hneed : slack ≤ need)
    (hlast : ∀ out, last out = if out.length + need ≤ cap then some (out ++ tail) else none)
    (out : List UInt8) :
    (w out).bind last =
      if out.length + bs.length + need ≤ cap then some (out ++ bs ++ tail) else none := by
  split_ifs with hfit
  · rw [h.fits out (by omega), Option.bind_some, hlast, List.length_append, if_pos hfit]
  · cases hw : w out with
    | none => rfl
    | some mid =>
      rw [h.sound out mid hw, Option.bind_some, hlast, List.length_append, if_neg hfit]

end BoundedWriter
