import Mathlib.Data.Int.Notation
import Mathlib.Order.Lattice
import Mathlib.Order.Defs.LinearOrder

/-! Streams that lose items by priority: a log of what was kept, and when the next item kept after
a lost one has a higher priority than it. -/
namespace Dropping

/-- An item of a stream, and whether it is kept. -/
structure Entry (α : Type*) where
  item : α
  kept : Bool
  deriving DecidableEq, Repr

variable {α : Type*}

/-- The items that are kept, in order. -/
def keptItems (log : List (Entry α)) : List α := (log.filter Entry.kept).map Entry.item

def lostItems (log : List (Entry α)) : List α := (log.filter (!Entry.kept ·)).map Entry.item

variable (subject : α → Bool) (priority : α → ℤ)

/-- The priority of the first item that is subject to dropping and kept, `m` if there is none. -/
def next (m : ℤ) : List (Entry α) → ℤ
  | [] => m
  | e :: log => if subject e.item && e.kept then priority e.item else next m log

/-- Every lost item has a priority below that of the next one kept, or below `m`. -/
def Covered (m : ℤ) : List (Entry α) → Prop
  | [] => True
  | e :: log =>
    (e.kept = false → subject e.item = true ∧ priority e.item < next subject priority m log) ∧
      Covered m log

def below (h : ℤ) (x : α) : Bool := subject x && priority x < h

/-- Everything below a priority is lost. -/
def drop (h : ℤ) (log : List (Entry α)) : List (Entry α) :=
  log.map fun e => if below subject priority h e.item then { e with kept := false } else e

variable {subject priority} {m m' h : ℤ} {log log' : List (Entry α)} {x : α}

@[simp] theorem keptItems_nil : keptItems ([] : List (Entry α)) = [] := rfl

@[simp] theorem keptItems_append : keptItems (log ++ log') = keptItems log ++ keptItems log' := by
  simp [keptItems]

@[simp] theorem lostItems_append : lostItems (log ++ log') = lostItems log ++ lostItems log' := by
  simp [lostItems]

@[simp] theorem keptItems_kept : keptItems [⟨x, true⟩] = [x] := rfl
@[simp] theorem keptItems_lost : keptItems [⟨x, false⟩] = [] := rfl
@[simp] theorem lostItems_kept : lostItems [⟨x, true⟩] = [] := rfl
@[simp] theorem lostItems_lost : lostItems [⟨x, false⟩] = [x] := rfl

theorem keptItems_cons (e : Entry α) :
    keptItems (e :: log) = if e.kept then e.item :: keptItems log else keptItems log := by
  cases hk : e.kept <;> simp [keptItems, hk]

theorem lostItems_cons (e : Entry α) :
    lostItems (e :: log) = if e.kept then lostItems log else e.item :: lostItems log := by
  cases hk : e.kept <;> simp [lostItems, hk]

theorem length_keptItems_add (log : List (Entry α)) :
    (keptItems log).length + (lostItems log).length = log.length := by
  induction log with
  | nil => rfl
  | cons e log ih =>
    rw [keptItems_cons, lostItems_cons, List.length_cons]
    cases e.kept with
    | true => rw [if_pos rfl, if_pos rfl, List.length_cons]; omega
    | false => rw [if_neg (nomatch ·), if_neg (nomatch ·), List.length_cons]; omega

theorem mem_lostItems : x ∈ lostItems log ↔ ⟨x, false⟩ ∈ log := by
  simp only [lostItems, List.mem_map, List.mem_filter, Bool.not_eq_true']
  constructor
  · rintro ⟨⟨y, k⟩, ⟨hmem, rfl⟩, rfl⟩
    exact hmem
  · exact fun hmem => ⟨⟨x, false⟩, ⟨hmem, rfl⟩, rfl⟩

/-- The first item kept, behind those lost before it. -/
theorem exists_of_keptItems_cons {xs : List α} (hlog : keptItems log = x :: xs) :
    ∃ pre rest, log = pre ++ ⟨x, true⟩ :: rest ∧ keptItems pre = [] ∧ keptItems rest = xs := by
  induction log with
  | nil => exact absurd hlog (List.cons_ne_nil x xs).symm
  | cons e log ih =>
    obtain ⟨y, k⟩ := e
    rw [keptItems_cons] at hlog
    cases k with
    | true =>
      obtain ⟨rfl, hrest⟩ := List.cons.inj hlog
      exact ⟨[], log, rfl, rfl, hrest⟩
    | false =>
      obtain ⟨pre, rest, rfl, hpre, hrest⟩ := ih hlog
      exact ⟨⟨y, false⟩ :: pre, rest, rfl, by rw [keptItems_cons]; exact hpre, hrest⟩

theorem below_iff : below subject priority h x = true ↔ subject x = true ∧ priority x < h := by
  rw [below, Bool.and_eq_true, decide_eq_true_eq]

theorem drop_cons (e : Entry α) :
    drop subject priority h (e :: log) =
      (if below subject priority h e.item then { e with kept := false } else e) ::
        drop subject priority h log := rfl

/-- What is kept of a dropped log is what the priority spares of what was kept. -/
theorem keptItems_drop :
    keptItems (drop subject priority h log) =
      (keptItems log).filter (!below subject priority h ·) := by
  induction log with
  | nil => rfl
  | cons e log ih =>
    rw [drop_cons, keptItems_cons, keptItems_cons, ih]
    by_cases hlost : below subject priority h e.item = true
    · cases hk : e.kept <;> simp [hlost]
    · cases hk : e.kept <;> simp [hlost, hk]

theorem length_drop : (drop subject priority h log).length = log.length := List.length_map _

/-- A dropped log has lost what it had lost before and what is below the priority. -/
theorem of_mem_lostItems_drop (hx : x ∈ lostItems (drop subject priority h log)) :
    x ∈ lostItems log ∨ below subject priority h x = true := by
  rw [mem_lostItems, drop, List.mem_map] at hx
  obtain ⟨⟨y, k⟩, hmem, heq⟩ := hx
  by_cases hlost : below subject priority h y = true
  · rw [if_pos hlost] at heq
    cases heq
    exact .inr hlost
  · rw [if_neg hlost] at heq
    cases heq
    exact .inl (mem_lostItems.mpr hmem)

theorem items_drop : (drop subject priority h log).map Entry.item = log.map Entry.item := by
  rw [drop, List.map_map]
  refine List.map_congr_left fun e _ => ?_
  simp only [Function.comp_apply]
  split_ifs <;> rfl

theorem next_append :
    next subject priority m (log ++ log') =
      next subject priority (next subject priority m log') log := by
  induction log with
  | nil => rfl
  | cons e log ih => rw [List.cons_append, next, next, ih]

theorem next_mono (hm : m ≤ m') (log : List (Entry α)) :
    next subject priority m log ≤ next subject priority m' log := by
  induction log with
  | nil => exact hm
  | cons e log ih =>
    rw [next, next]
    split_ifs
    · exact le_refl _
    · exact ih

theorem covered_append :
    Covered subject priority m (log ++ log') ↔
      Covered subject priority (next subject priority m log') log ∧
        Covered subject priority m log' := by
  induction log with
  | nil => simp [Covered]
  | cons e log ih => rw [List.cons_append, Covered, Covered, ih, next_append, and_assoc]

theorem Covered.mono (hm : m ≤ m') (hlog : Covered subject priority m log) :
    Covered subject priority m' log := by
  induction log with
  | nil => trivial
  | cons e log ih =>
    refine ⟨fun hk => ?_, ih hlog.2⟩
    obtain ⟨hsubject, hlt⟩ := hlog.1 hk
    exact ⟨hsubject, lt_of_lt_of_le hlt (next_mono hm log)⟩

/-- After a drop, whatever comes next is not below the priority. -/
theorem le_next_drop (hm : h ≤ m) (log : List (Entry α)) :
    h ≤ next subject priority m (drop subject priority h log) := by
  induction log with
  | nil => exact hm
  | cons e log ih =>
    rw [drop_cons, next]
    by_cases hlost : below subject priority h e.item = true
    · simpa [hlost] using ih
    · rw [if_neg hlost]
      split_ifs with hk
      · by_contra hlt
        rw [Bool.and_eq_true] at hk
        exact hlost (below_iff.mpr ⟨hk.1, not_le.mp hlt⟩)
      · exact ih

theorem next_le_next_drop (hm : m ≤ m') (hh : h ≤ m') (log : List (Entry α)) :
    next subject priority m log ≤ next subject priority m' (drop subject priority h log) := by
  induction log with
  | nil => exact hm
  | cons e log ih =>
    have hrest : h ≤ next subject priority m' (drop subject priority h log) := le_next_drop hh log
    rw [drop_cons, next, next]
    by_cases hlost : below subject priority h e.item = true
    · rw [if_pos hlost]
      simp only [Bool.and_false, Bool.false_eq_true, if_false]
      split_ifs
      · exact le_of_lt (lt_of_lt_of_le (below_iff.mp hlost).2 hrest)
      · exact ih
    · rw [if_neg hlost]
      split_ifs
      · exact le_refl _
      · exact ih

/-- A drop keeps every lost item covered, those it loses among them. -/
theorem Covered.drop (hlog : Covered subject priority m log) (hm : m ≤ m') (hh : h ≤ m') :
    Covered subject priority m' (drop subject priority h log) := by
  induction log with
  | nil => trivial
  | cons e log ih =>
    have hrest := ih hlog.2
    rw [drop_cons]
    refine ⟨fun hk => ?_, hrest⟩
    by_cases hlost : below subject priority h e.item = true
    · rw [if_pos hlost]
      obtain ⟨hsubject, hlt⟩ := below_iff.mp hlost
      exact ⟨hsubject, lt_of_lt_of_le hlt (le_next_drop hh log)⟩
    · rw [if_neg hlost] at hk ⊢
      obtain ⟨hsubject, hlt⟩ := hlog.1 hk
      exact ⟨hsubject, lt_of_lt_of_le hlt (next_le_next_drop hm hh log)⟩

/-- An item at or above the priority in force may follow, and ends it. -/
theorem Covered.keep (hlog : Covered subject priority m log) (hx : m ≤ priority x)
    (hsubject : subject x = true) (m' : ℤ) :
    Covered subject priority m' (log ++ [⟨x, true⟩]) := by
  have hnext : next subject priority m' [⟨x, true⟩] = priority x := by
    simp [next, hsubject]
  rw [covered_append, hnext]
  exact ⟨hlog.mono hx, fun hk => (nomatch hk), trivial⟩

/-- An item below the priority in force may be lost. -/
theorem Covered.lose (hlog : Covered subject priority m log) (hx : priority x < m)
    (hsubject : subject x = true) : Covered subject priority m (log ++ [⟨x, false⟩]) := by
  have hnext : next subject priority m [⟨x, false⟩] = m := by
    simp [next]
  rw [covered_append, hnext]
  exact ⟨hlog, fun _ => ⟨hsubject, hx⟩, trivial⟩

theorem Covered.pass (hlog : Covered subject priority m log) (hsubject : subject x = false) :
    Covered subject priority m (log ++ [⟨x, true⟩]) := by
  have hnext : next subject priority m [⟨x, true⟩] = m := by
    simp [next, hsubject]
  rw [covered_append, hnext]
  exact ⟨hlog, fun hk => (nomatch hk), trivial⟩

/-- What covering means: between a lost item and the next one kept, priorities go up. -/
theorem Covered.lt (hlog : Covered subject priority m log) {pre mid post : List (Entry α)}
    {d k : α} (hsplit : log = pre ++ ⟨d, false⟩ :: (mid ++ ⟨k, true⟩ :: post))
    (hmid : ∀ e ∈ mid, subject e.item = true → e.kept = false) (hk : subject k = true) :
    priority d < priority k := by
  rw [hsplit, covered_append] at hlog
  have hnext : next subject priority m (mid ++ ⟨k, true⟩ :: post) = priority k := by
    clear hsplit hlog
    induction mid with
    | nil => simp [next, hk]
    | cons e mid ih =>
      have he := hmid e List.mem_cons_self
      have hnot : (subject e.item && e.kept) = false := by
        cases hs : subject e.item with
        | false => rfl
        | true => simpa using he hs
      rw [List.cons_append, next, hnot]
      exact ih fun e he => hmid e (List.mem_cons_of_mem _ he)
  exact hnext ▸ (hlog.2.1 rfl).2

end Dropping
