import Mathlib.Data.List.Infix

/-! Chains in which every item names the next one, and what is visited along them when one
item is taken out. -/
namespace Splice

variable {α : Type*}

/-- The first `n` items of the chain that starts with `a`. -/
def visits (next : α → Option α) : ℕ → Option α → List α
  | 0, _ => []
  | _ + 1, none => []
  | n + 1, some a => a :: visits next n (next a)

@[simp] theorem visits_none (next : α → Option α) (n : ℕ) : visits next n none = [] := by
  cases n <;> rfl

@[simp] theorem visits_succ (next : α → Option α) (n : ℕ) (a : α) :
    visits next (n + 1) (some a) = a :: visits next n (next a) := rfl

theorem visits_mono (next : α → Option α) {m n : ℕ} (h : m ≤ n) (a : Option α) :
    visits next m a <+: visits next n a := by
  induction m generalizing n a with
  | zero => exact List.nil_prefix
  | succ m ih =>
    cases n with
    | zero => omega
    | succ n =>
      cases a with
      | none => exact List.nil_prefix
      | some a => exact List.cons_prefix_cons.mpr ⟨rfl, ih (by omega) (next a)⟩

/-- A chain whose items are images passes through the images. -/
theorem visits_map {β : Type*} {next : α → Option α} {next' : β → Option β} (f : α → β)
    (h : ∀ a, next' (f a) = (next a).map f) (n : ℕ) (a : Option α) :
    visits next' n (a.map f) = (visits next n a).map f := by
  induction n generalizing a with
  | zero => rfl
  | succ n ih =>
    cases a with
    | none => rfl
    | some a => rw [Option.map_some, visits_succ, visits_succ, h, ih, List.map_cons]

variable [DecidableEq α]

/-- Where a link leads once `x` is taken out. -/
def skip (next : α → Option α) (x : α) (a : Option α) : Option α :=
  if a = some x then next x else a

@[simp] theorem skip_self (next : α → Option α) (x : α) : skip next x (some x) = next x :=
  if_pos rfl

theorem skip_of_ne (next : α → Option α) {x : α} {a : Option α} (h : a ≠ some x) :
    skip next x a = a := if_neg h

/-- `next'` is `next` with `x` taken out, on the items `S` that links do not leave. -/
structure Splices (next next' : α → Option α) (x : α) (S : α → Prop) : Prop where
  closed : ∀ a, S a → ∀ b ∈ next a, S b
  noLoop : next x ≠ some x
  rest : ∀ a, S a → a ≠ x → next' a = skip next x (next a)

variable {next next' : α → Option α} {x : α} {S : α → Prop}

theorem Splices.skip_next (h : Splices next next' x S) : skip next x (next x) = next x :=
  skip_of_ne next h.noLoop

/-- Whatever the old chain visits, the new one visits, but for `x`. -/
theorem Splices.visits_rest (h : Splices next next' x S) (n : ℕ) {a : Option α}
    (ha : ∀ b ∈ a, S b) :
    (visits next n a).filter (· ≠ x) <+: visits next' n (skip next x a) := by
  induction n generalizing a with
  | zero => exact List.nil_prefix
  | succ n ih =>
    cases a with
    | none => exact List.nil_prefix
    | some b =>
      have hb : S b := ha b rfl
      have hrest := ih (h.closed b hb)
      by_cases hx : b = x
      · subst hx
        rw [h.skip_next] at hrest
        rw [visits_succ, List.filter_cons_of_neg (by simp), skip_self]
        exact hrest.trans (visits_mono next' (Nat.le_succ n) (next b))
      · rw [visits_succ, List.filter_cons_of_pos (by simpa using hx),
          skip_of_ne next (by simpa using hx), visits_succ, h.rest b hb hx]
        exact List.cons_prefix_cons.mpr ⟨rfl, hrest⟩

/-- The new chain visits nothing else: each of its items costs at most two of the old one. -/
theorem Splices.visits_only (h : Splices next next' x S) (n : ℕ) {a : Option α}
    (ha : ∀ b ∈ a, S b) :
    visits next' n (skip next x a) <+: (visits next (2 * n) a).filter (· ≠ x) := by
  have hlong (m : ℕ) (b : Option α) : (visits next m b).filter (· ≠ x) <+:
      (visits next (m + 1) b).filter (· ≠ x) :=
    (visits_mono next (Nat.le_succ m) b).filter _
  induction n generalizing a with
  | zero => exact List.nil_prefix
  | succ n ih =>
    have hstep (b : α) (hb : S b) (hx : b ≠ x) : visits next' (n + 1) (some b) <+:
        (visits next (2 * n + 1) (some b)).filter (· ≠ x) := by
      rw [visits_succ, visits_succ, List.filter_cons_of_pos (by simpa using hx), h.rest b hb hx]
      exact List.cons_prefix_cons.mpr ⟨rfl, ih (h.closed b hb)⟩
    cases a with
    | none => simp [skip]
    | some b =>
      have hb : S b := ha b rfl
      by_cases hx : b = x
      · subst hx
        rw [skip_self, Nat.mul_succ, visits_succ, List.filter_cons_of_neg (by simp)]
        cases hnext : next b with
        | none => simp
        | some c =>
          apply hstep c (h.closed b hb c hnext)
          intro hc
          exact h.noLoop (hc ▸ hnext)
      · rw [skip_of_ne next (by simpa using hx), Nat.mul_succ]
        exact (hstep b hb hx).trans (hlong (2 * n + 1) (some b))

end Splice
