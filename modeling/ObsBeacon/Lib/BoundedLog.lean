import Mathlib.Data.List.DropRight

/-! A log that keeps the last `cap` of its entries, against the log that keeps them all. -/
namespace BoundedLog

variable {α : Type*}

inductive Op (α : Type*) where
  | append (x : α)
  | clear

/-- The entries appended since the last clear, and how many were ever appended. -/
structure FullLog (α : Type*) where
  entries : List α := []
  total : ℕ := 0

def FullLog.step (log : FullLog α) : Op α → FullLog α
  | .append x => { entries := log.entries ++ [x], total := log.total + 1 }
  | .clear => { log with entries := [] }

/-- Append, then evict the oldest entry if there are too many. -/
def push (cap : ℕ) (window : List α) (x : α) : List α :=
  if cap < (window ++ [x]).length then (window ++ [x]).tail else window ++ [x]

theorem length_rtake (l : List α) (cap : ℕ) : (l.rtake cap).length = min cap l.length := by
  rw [List.rtake, List.length_drop]
  omega

theorem rtake_of_length_le {l : List α} {cap : ℕ} (h : l.length ≤ cap) : l.rtake cap = l := by
  rw [List.rtake, Nat.sub_eq_zero_of_le h, List.drop_zero]

theorem tail_rtake_succ {l : List α} {cap : ℕ} (h : cap < l.length) :
    (l.rtake (cap + 1)).tail = l.rtake cap := by
  rw [List.rtake, List.rtake, List.tail_drop]
  congr 1
  omega

/-- Pushing onto the last `cap` entries yields the last `cap` entries. -/
theorem push_rtake (cap : ℕ) (l : List α) (x : α) :
    push cap (l.rtake cap) x = (l ++ [x]).rtake cap := by
  have hlen : (l.rtake cap ++ [x]).length = min cap l.length + 1 := by
    rw [List.length_append, length_rtake, List.length_singleton]
  rw [push, hlen, ← List.rtake_concat_succ]
  split_ifs with h
  · apply tail_rtake_succ
    rw [List.length_append, List.length_singleton]
    omega
  · have hsmall : (l ++ [x]).length ≤ cap := by
      rw [List.length_append, List.length_singleton]
      omega
    rw [rtake_of_length_le hsmall, rtake_of_length_le (by omega)]

/-- A counter kept next to the window: up for the entry appended, down for the one evicted. -/
def pushCount (cap : ℕ) (flag : α → Bool) (window : List α) (count : ℕ) (x : α) : ℕ :=
  let count := if flag x then count + 1 else count
  if cap < (window ++ [x]).length ∧ (window ++ [x]).head?.any flag ∧ 0 < count then count - 1
  else count

theorem pushCount_countP (cap : ℕ) (flag : α → Bool) (window : List α) (x : α) :
    pushCount cap flag window (window.countP flag) x = (push cap window x).countP flag := by
  have hcount : (if flag x then window.countP flag + 1 else window.countP flag) =
      (window ++ [x]).countP flag := by
    rw [List.countP_append, List.countP_singleton]
    split_ifs <;> rfl
  simp only [pushCount, push, hcount]
  cases hw : window ++ [x] with
  | nil => simp
  | cons front rest =>
    by_cases hlen : cap < rest.length + 1
    · cases hflag : flag front <;> simp [hlen, hflag]
    · simp [hlen]

/-- A window, a counter of its flagged entries and a counter of all appends, as a view of the
unbounded log. -/
structure Refines (cap : ℕ) (flag : α → Bool) (window : List α) (count generation : ℕ)
    (log : FullLog α) : Prop where
  window_eq : window = log.entries.rtake cap
  count_eq : count = window.countP flag
  generation_eq : generation = log.total

variable {cap count generation : ℕ} {flag : α → Bool} {window : List α} {log : FullLog α}

theorem Refines.append (h : Refines cap flag window count generation log) (x : α) :
    Refines cap flag (push cap window x) (pushCount cap flag window count x) (generation + 1)
      (log.step (.append x)) where
  window_eq := by rw [h.window_eq, push_rtake, FullLog.step]
  count_eq := by rw [h.count_eq, pushCount_countP]
  generation_eq := by rw [h.generation_eq, FullLog.step]

theorem Refines.clear (h : Refines cap flag window count generation log) :
    Refines cap flag [] 0 generation (log.step .clear) where
  window_eq := (List.rtake_nil cap).symm
  count_eq := rfl
  generation_eq := h.generation_eq

theorem Refines.initial : Refines cap flag ([] : List α) 0 0 {} where
  window_eq := (List.rtake_nil cap).symm
  count_eq := rfl
  generation_eq := rfl

end BoundedLog
