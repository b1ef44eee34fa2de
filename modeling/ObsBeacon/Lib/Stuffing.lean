import Mathlib.Data.List.Basic
import Mathlib.Data.Nat.Notation

/-! Stuffing codes: a fixed symbol is put between a run of zeros and any symbol that must
not follow the run. -/
namespace Stuffing

/-- After `run` zeros, `esc` is put in front of each `guarded` symbol. -/
structure Code (α : Type*) where
  zero : α
  esc : α
  run : ℕ
  guarded : α → Bool
  esc_ne_zero : esc ≠ zero
  guarded_esc : guarded esc = true
  run_pos : 0 < run

variable {α : Type*} [DecidableEq α] (c : Code α)

/-- The zeros that end a text, once `b` comes after `zeros` of them. -/
def Code.count (zeros : ℕ) (b : α) : ℕ := if b = c.zero then zeros + 1 else 0

/-- The text after `zeros` zeros, stuffed; the inserted symbols are marked `true`. -/
def Code.stuffFrom : ℕ → List α → List (α × Bool)
  | _, [] => []
  | zeros, b :: bs =>
    if c.run ≤ zeros ∧ c.guarded b = true then
      (c.esc, true) :: (b, false) :: stuffFrom (c.count 0 b) bs
    else (b, false) :: stuffFrom (c.count zeros b) bs

def Code.stuff (bs : List α) : List (α × Bool) := c.stuffFrom 0 bs

/-- Drop each `esc` that follows a run counted since the last dropped one. -/
def Code.unstuffFrom : ℕ → List α → List α
  | _, [] => []
  | zeros, b :: bs =>
    if c.run ≤ zeros ∧ b = c.esc then unstuffFrom 0 bs
    else b :: unstuffFrom (c.count zeros b) bs

/-- The symbols that were not inserted. -/
def sources (out : List (α × Bool)) : List α := (out.filter fun s => !s.2).map Prod.fst

/-- Read after `zeros` zeros, only an inserted `esc` is guarded and ends a run. -/
def Code.Clear : ℕ → List (α × Bool) → Prop
  | _, [] => True
  | zeros, s :: out =>
    (c.run ≤ zeros → c.guarded s.1 = true → s = (c.esc, true)) ∧ Clear (c.count zeros s.1) out

section Marks
variable (b : α) (out : List (α × Bool))

omit [DecidableEq α]

@[simp] theorem sources_source : sources ((b, false) :: out) = b :: sources out := rfl

@[simp] theorem sources_inserted : sources ((b, true) :: out) = sources out := rfl

end Marks

variable {c} {zeros : ℕ} {b : α} {bs : List α}

@[simp] theorem Code.count_esc : c.count zeros c.esc = 0 := if_neg c.esc_ne_zero

@[simp] theorem Code.count_zero : c.count zeros c.zero = zeros + 1 := if_pos rfl

theorem Code.count_le (zeros : ℕ) (b : α) : c.count zeros b ≤ zeros + 1 := by
  unfold count
  split_ifs <;> omega

theorem Code.stuffFrom_guarded (h : c.run ≤ zeros ∧ c.guarded b = true) :
    c.stuffFrom zeros (b :: bs) =
      (c.esc, true) :: (b, false) :: c.stuffFrom (c.count 0 b) bs := if_pos h

theorem Code.stuffFrom_plain (h : ¬ (c.run ≤ zeros ∧ c.guarded b = true)) :
    c.stuffFrom zeros (b :: bs) = (b, false) :: c.stuffFrom (c.count zeros b) bs := if_neg h

/-- Right after an inserted symbol nothing is dropped. -/
theorem Code.unstuffFrom_fresh : c.unstuffFrom 0 (b :: bs) = b :: c.unstuffFrom (c.count 0 b) bs :=
  if_neg fun h => absurd h.1 (Nat.not_le.mpr c.run_pos)

theorem Code.unstuffFrom_stuffFrom (zeros : ℕ) (bs : List α) :
    c.unstuffFrom zeros ((c.stuffFrom zeros bs).map Prod.fst) = bs := by
  induction bs generalizing zeros with
  | nil => rfl
  | cons b bs ih =>
    by_cases h : c.run ≤ zeros ∧ c.guarded b = true
    · rw [stuffFrom_guarded h, List.map_cons, List.map_cons, unstuffFrom, if_pos ⟨h.1, rfl⟩,
        unstuffFrom_fresh, ih]
    · have hkept : ¬ (c.run ≤ zeros ∧ b = c.esc) := by
        rintro ⟨hrun, rfl⟩
        exact h ⟨hrun, c.guarded_esc⟩
      rw [stuffFrom_plain h, List.map_cons, unstuffFrom, if_neg hkept, ih]

/-- Nothing is inserted into a text without zeros. -/
theorem Code.stuffFrom_of_ne_zero (h : ∀ b ∈ bs, b ≠ c.zero) :
    (c.stuffFrom 0 bs).map Prod.fst = bs := by
  induction bs with
  | nil => rfl
  | cons b bs ih =>
    have hcount : c.count 0 b = 0 := if_neg (h b (by simp))
    have hrest := ih fun b' hb' => h b' (by simp [hb'])
    rw [stuffFrom_plain fun hb => absurd hb.1 (Nat.not_le.mpr c.run_pos), hcount, List.map_cons,
      hrest]

theorem Code.unstuffFrom_of_ne_zero (h : ∀ b ∈ bs, b ≠ c.zero) : c.unstuffFrom 0 bs = bs := by
  have hread := unstuffFrom_stuffFrom (c := c) 0 bs
  rwa [stuffFrom_of_ne_zero h] at hread

theorem Code.sources_stuffFrom (zeros : ℕ) (bs : List α) :
    sources (c.stuffFrom zeros bs) = bs := by
  induction bs generalizing zeros with
  | nil => rfl
  | cons b bs ih =>
    by_cases h : c.run ≤ zeros ∧ c.guarded b = true
    · rw [stuffFrom_guarded h, sources_inserted, sources_source, ih]
    · rw [stuffFrom_plain h, sources_source, ih]

/-- Only `esc` is inserted. -/
theorem Code.eq_esc_of_inserted (h : (b, true) ∈ c.stuffFrom zeros bs) : b = c.esc := by
  induction bs generalizing zeros with
  | nil => cases h
  | cons b' bs ih =>
    by_cases hb : c.run ≤ zeros ∧ c.guarded b' = true
    · rw [stuffFrom_guarded hb] at h
      simp only [List.mem_cons, Prod.mk.injEq, and_true, Bool.true_eq_false, and_false,
        false_or] at h
      rcases h with rfl | h
      · rfl
      · exact ih h
    · rw [stuffFrom_plain hb] at h
      simp only [List.mem_cons, Prod.mk.injEq, Bool.true_eq_false, and_false, false_or] at h
      exact ih h

theorem Code.clear_stuffFrom (zeros : ℕ) (bs : List α) :
    c.Clear zeros (c.stuffFrom zeros bs) := by
  induction bs generalizing zeros with
  | nil => trivial
  | cons b bs ih =>
    by_cases h : c.run ≤ zeros ∧ c.guarded b = true
    · rw [stuffFrom_guarded h]
      refine ⟨fun _ _ => rfl, fun hrun _ => ?_, ?_⟩
      · rw [count_esc] at hrun
        exact absurd hrun (Nat.not_le.mpr c.run_pos)
      · rw [count_esc]
        exact ih (c.count 0 b)
    · rw [stuffFrom_plain h]
      constructor
      · exact fun hrun hguarded => absurd ⟨hrun, hguarded⟩ h
      · exact ih (c.count zeros b)

/-- What follows any part of a clear text is clear. -/
theorem Code.Clear.of_append {pre out : List (α × Bool)} (h : c.Clear zeros (pre ++ out)) :
    ∃ zeros', c.Clear zeros' out := by
  induction pre generalizing zeros with
  | nil => exact ⟨zeros, h⟩
  | cons s pre ih => exact ih h.2

theorem Code.Clear.of_zeros {run out : List (α × Bool)} (hrun : ∀ s ∈ run, s.1 = c.zero)
    (h : c.Clear zeros (run ++ out)) : c.Clear (zeros + run.length) out := by
  induction run generalizing zeros with
  | nil => exact h
  | cons s run ih =>
    have hs : s.1 = c.zero := hrun s (by simp)
    have hrest := h.2
    rw [hs, count_zero] at hrest
    have hout := ih (fun t ht => hrun t (by simp [ht])) hrest
    rwa [List.length_cons, Nat.add_comm run.length, ← Nat.add_assoc]

/-- A guarded symbol after a run of zeros anywhere in the stuffed text is an inserted one. -/
theorem Code.inserted_of_run {run : List (α × Bool)} {s : α × Bool}
    (h : run ++ [s] <:+: c.stuffFrom zeros bs) (hrun : ∀ r ∈ run, r.1 = c.zero)
    (hlen : c.run ≤ run.length) (hs : c.guarded s.1 = true) : s = (c.esc, true) := by
  obtain ⟨pre, suf, hout⟩ := h
  have hclear := c.clear_stuffFrom zeros bs
  rw [← hout, List.append_assoc] at hclear
  obtain ⟨zeros', hclear⟩ := hclear.of_append
  rw [List.append_assoc] at hclear
  exact (hclear.of_zeros hrun).1 (by omega) hs

/-- Before an inserted symbol there is a run of its own. -/
theorem Code.run_before {mid suf : List (α × Bool)}
    (h : c.stuffFrom zeros bs = mid ++ (b, true) :: suf) :
    c.run ≤ zeros + (sources mid).length := by
  induction bs generalizing zeros mid with
  | nil => simp [stuffFrom] at h
  | cons b' bs ih =>
    by_cases hb : c.run ≤ zeros ∧ c.guarded b' = true
    · exact Nat.le_trans hb.1 (Nat.le_add_right _ _)
    · rw [stuffFrom_plain hb] at h
      cases mid with
      | nil => simp at h
      | cons s mid =>
        obtain ⟨rfl, hrest⟩ := List.cons_eq_cons.mp h
        have hrun := ih hrest
        have hcount := c.count_le zeros b'
        rw [sources_source, List.length_cons]
        omega

/-- After an inserted symbol comes the one it guards, and the count starts again there. -/
theorem Code.stuffFrom_after {pre suf : List (α × Bool)}
    (h : c.stuffFrom zeros bs = pre ++ (b, true) :: suf) :
    ∃ b' bs', suf = (b', false) :: c.stuffFrom (c.count 0 b') bs' := by
  induction bs generalizing zeros pre with
  | nil => simp [stuffFrom] at h
  | cons b' bs ih =>
    by_cases hb : c.run ≤ zeros ∧ c.guarded b' = true
    · rw [stuffFrom_guarded hb] at h
      match pre with
      | [] => exact ⟨b', bs, (List.cons_eq_cons.mp h).2.symm⟩
      | [_] => simp at h
      | _ :: _ :: pre => exact ih (List.cons_eq_cons.mp (List.cons_eq_cons.mp h).2).2
    · rw [stuffFrom_plain hb] at h
      cases pre with
      | nil => simp at h
      | cons s pre => exact ih (List.cons_eq_cons.mp h).2

/-- Between two inserted symbols there are at least as many others as a run has. -/
theorem Code.run_between {pre mid suf : List (α × Bool)} {e e' : α}
    (h : c.stuffFrom zeros bs = pre ++ (e, true) :: (mid ++ (e', true) :: suf)) :
    c.run ≤ (sources mid).length := by
  obtain ⟨b', bs', hafter⟩ := stuffFrom_after h
  cases mid with
  | nil => simp at hafter
  | cons s mid =>
    obtain ⟨rfl, hrest⟩ := List.cons_eq_cons.mp hafter
    have hrun := run_before hrest.symm
    have hcount := c.count_le 0 b'
    rw [sources_source, List.length_cons]
    omega

/-- Each insertion is paid for by a run of its own. -/
theorem Code.run_mul_inserted_le (c : Code α) (zeros : ℕ) (bs : List α) :
    c.run * (c.stuffFrom zeros bs).countP (·.2) ≤ bs.length + zeros := by
  induction bs generalizing zeros with
  | nil => simp [stuffFrom]
  | cons b bs ih =>
    by_cases h : c.run ≤ zeros ∧ c.guarded b = true
    · have hrest := ih (c.count 0 b)
      have hcount := c.count_le 0 b
      rw [stuffFrom_guarded h, List.countP_cons_of_pos rfl, List.countP_cons_of_neg (by simp),
        Nat.mul_succ, List.length_cons]
      omega
    · have hrest := ih (c.count zeros b)
      have hcount := c.count_le zeros b
      rw [stuffFrom_plain h, List.countP_cons_of_neg (by simp), List.length_cons]
      omega

omit [DecidableEq α] in
/-- Every symbol is a source or inserted. -/
theorem length_eq_sources_add (out : List (α × Bool)) :
    out.length = (sources out).length + out.countP (·.2) := by
  rw [sources, List.length_map, ← List.countP_eq_length_filter, Nat.add_comm,
    List.length_eq_countP_add_countP (·.2)]
  congr 2
  funext s
  simp

end Stuffing
