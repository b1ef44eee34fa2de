import Mathlib.Data.List.TakeWhile
import Mathlib.Tactic

/-! Decimal numbers as ASCII bytes: rendering, reading back, and the width of a rendering. -/
namespace Decimal

/-- The bytes of an ASCII text. -/
def ascii (s : String) : List UInt8 := s.toList.map fun c => UInt8.ofNat c.toNat

/-- The decimal digits of `n`, most significant first, as ASCII bytes. -/
def render (n : ℕ) : List UInt8 := (Nat.toDigits 10 n).map fun c => UInt8.ofNat c.toNat

def isDigit (b : UInt8) : Bool := 48 ≤ b.toNat && b.toNat ≤ 57

def value (ds : List UInt8) : ℕ := ds.foldl (fun acc b => 10 * acc + (b.toNat - 48)) 0

/-- Read the longest run of digits; at least one is required. -/
def parse (bs : List UInt8) : Option (ℕ × List UInt8) :=
  match bs.takeWhile isDigit with
  | [] => none
  | d :: ds => some (value (d :: ds), bs.dropWhile isDigit)

theorem digit_toNat {c : Char} (h : c.isDigit) :
    (UInt8.ofNat c.toNat).toNat = c.toNat ∧ 48 ≤ c.toNat ∧ c.toNat ≤ 57 := by
  have hc : 48 ≤ c.toNat ∧ c.toNat ≤ 57 := by
    simpa [Char.isDigit, UInt32.le_iff_toNat_le] using h
  refine ⟨?_, hc⟩
  rw [UInt8.toNat_ofNat']
  omega

theorem toDigits_isDigit {n : ℕ} {c : Char} (h : c ∈ Nat.toDigits 10 n) : c.isDigit :=
  Nat.isDigit_of_mem_toDigits (by decide) (by decide) h

theorem render_isDigit {n : ℕ} {b : UInt8} (h : b ∈ render n) : isDigit b = true := by
  obtain ⟨c, hc, rfl⟩ := List.mem_map.mp h
  obtain ⟨hv, hlo, hhi⟩ := digit_toNat (toDigits_isDigit hc)
  simp [isDigit, hv, hlo, hhi]

theorem isDigit_ne_zero {b : UInt8} (h : isDigit b = true) : b ≠ 0 := by
  rintro rfl
  simp [isDigit] at h

theorem render_ne_zero {n : ℕ} {b : UInt8} (h : b ∈ render n) : b ≠ 0 :=
  isDigit_ne_zero (render_isDigit h)

theorem render_ne_nil (n : ℕ) : render n ≠ [] := by
  simp [render, Nat.toDigits_ne_nil]

@[simp] theorem render_length (n : ℕ) : (render n).length = (Nat.toDigits 10 n).length := by
  simp [render]

/-- A number below `10 ^ k` needs at most `k` bytes. -/
theorem render_length_le {n k : ℕ} (hk : 0 < k) (h : n < 10 ^ k) : (render n).length ≤ k := by
  rw [render_length]
  exact (Nat.length_toDigits_le_iff (by decide) hk).mpr h

theorem value_render (n : ℕ) : value (render n) = n := by
  have hfold (cs : List Char) (hcs : ∀ c ∈ cs, c.isDigit) (acc : ℕ) :
      (cs.map fun c => UInt8.ofNat c.toNat).foldl
        (fun acc b => 10 * acc + (b.toNat - 48)) acc = Nat.ofDigitChars 10 cs acc := by
    induction cs generalizing acc with
    | nil => rfl
    | cons c cs ih =>
      have hc := (digit_toNat (hcs c (by simp))).1
      simp only [List.map_cons, List.foldl_cons, hc]
      exact ih (fun d hd => hcs d (by simp [hd])) _
  unfold value render
  rw [hfold _ (fun c hc => toDigits_isDigit hc)]
  exact Nat.ofDigitChars_ten_toDigits

/-- Reading a rendered number that no further digit follows returns it and the rest. -/
theorem parse_render (n : ℕ) {rest : List UInt8} (h : ∀ b ∈ rest.head?, isDigit b = false) :
    parse (render n ++ rest) = some (n, rest) := by
  have hall : ∀ b ∈ render n, isDigit b = true := fun _ => render_isDigit
  have hrest : rest.takeWhile isDigit = [] ∧ rest.dropWhile isDigit = rest := by
    cases rest with
    | nil => simp
    | cons b bs =>
      have hb := h b (by simp)
      simp [hb]
  have htake : (render n ++ rest).takeWhile isDigit = render n := by
    rw [List.takeWhile_append_of_pos hall, hrest.1, List.append_nil]
  have hdrop : (render n ++ rest).dropWhile isDigit = rest := by
    rw [List.dropWhile_append_of_pos hall, hrest.2]
  unfold parse
  rw [htake, hdrop]
  cases hr : render n with
  | nil => exact absurd hr (render_ne_nil n)
  | cons d ds =>
    have hv : value (d :: ds) = n := hr ▸ value_render n
    simp only [hv]

end Decimal
