import ObsBeacon.PacketProbe.Annexb
import Mathlib.Tactic

/-! What a scan with `find_start_code` sees: the first start code from an offset on, the
NAL units of a whole buffer, and how both move when bytes are put in front. -/
namespace ObsBeacon.PacketProbe

variable {d pre : List UInt8} {i start stop : ℕ}

theorem startCodeAt_of_ne_zero (h : d[i]? ≠ some 0) : startCodeAt d i = none := by
  simp [startCodeAt, h]

theorem startCodeAt_bounds {len : ℕ} (h : startCodeAt d i = some len) :
    3 ≤ len ∧ i + len ≤ d.length := by
  unfold startCodeAt at h
  split_ifs at h with h01 h3 h4
  · obtain rfl := Option.some.inj h
    have := (List.getElem?_eq_some_iff.mp h3).1
    omega
  · obtain rfl := Option.some.inj h
    omega

/-- Bytes in front of a buffer do not change the test at a shifted offset. -/
theorem startCodeAt_append (pre d : List UInt8) (i : ℕ) :
    startCodeAt (pre ++ d) (pre.length + i) = startCodeAt d i := by
  have hget (k : ℕ) : (pre ++ d)[pre.length + i + k]? = d[i + k]? := by
    rw [List.getElem?_append_right (by omega)]
    congr 1
    omega
  have hlen : pre.length + i + 4 ≤ (pre ++ d).length ↔ i + 4 ≤ d.length := by
    rw [List.length_append]
    omega
  have h0 := hget 0
  simp only [Nat.add_zero] at h0
  unfold startCodeAt
  rw [h0, hget 1, hget 2, hget 3]
  simp only [hlen]

/-- Bytes behind a start code do not change the test at it. -/
theorem startCodeAt_append_left {len : ℕ} (post : List UInt8) (h : startCodeAt d i = some len) :
    startCodeAt (d ++ post) i = some len := by
  have hb := startCodeAt_bounds h
  have hget (k : ℕ) (hk : i + k < d.length) : (d ++ post)[i + k]? = d[i + k]? :=
    List.getElem?_append_left hk
  have h0 := hget 0 (by omega)
  have h1 := hget 1 (by omega)
  have h2 := hget 2 (by omega)
  simp only [Nat.add_zero] at h0
  unfold startCodeAt at h ⊢
  rw [h0, h1, h2]
  split_ifs at h with h01 h3 h4
  · simpa [h01, h3] using h
  · have h3' := hget 3 (by omega)
    have hfits : i + 4 ≤ d.length + post.length := by omega
    rw [h3']
    simpa [h01, h3, h4.2, hfits] using h

theorem findStartCodeLoop_append (pre d : List UInt8) (fuel i : ℕ) :
    findStartCodeLoop (pre ++ d) fuel (pre.length + i) =
      (pre.length + (findStartCodeLoop d fuel i).1, (findStartCodeLoop d fuel i).2) := by
  induction fuel generalizing i with
  | zero => simp [findStartCodeLoop]
  | succ fuel ih =>
    have hlen : pre.length + i + 3 ≤ (pre ++ d).length ↔ i + 3 ≤ d.length := by
      rw [List.length_append]
      omega
    simp only [findStartCodeLoop, startCodeAt_append, hlen]
    split_ifs with hfits
    · cases startCodeAt d i with
      | some len => rfl
      | none => exact ih (i + 1)
    · simp

/-- The scan of a buffer with bytes in front, from an offset inside the buffer. -/
theorem findStartCode_append (pre d : List UInt8) (start : ℕ) :
    findStartCode (pre ++ d) (pre.length + start) =
      (pre.length + (findStartCode d start).1, (findStartCode d start).2) := by
  have hfuel : (pre ++ d).length + 1 - (pre.length + start) = d.length + 1 - start := by
    rw [List.length_append]
    omega
  rw [findStartCode, hfuel]
  exact findStartCodeLoop_append pre d _ start

theorem findStartCode_of_length_lt (h : d.length < start + 3) :
    findStartCode d start = (d.length, none) := by
  unfold findStartCode
  cases d.length + 1 - start with
  | zero => rfl
  | succ fuel => simp [findStartCodeLoop, show ¬ start + 3 ≤ d.length by omega]

theorem findStartCode_found {len : ℕ} (h : startCodeAt d start = some len) :
    findStartCode d start = (start, some len) := by
  have hb := startCodeAt_bounds h
  obtain ⟨fuel, hfuel⟩ : ∃ fuel, d.length + 1 - start = fuel + 1 :=
    ⟨d.length - start, by omega⟩
  simp [findStartCode, hfuel, findStartCodeLoop, h, show start + 3 ≤ d.length by omega]

theorem findStartCode_succ (h : startCodeAt d start = none) :
    findStartCode d start = findStartCode d (start + 1) := by
  by_cases hfits : start + 3 ≤ d.length
  · have hfuel : d.length + 1 - start = (d.length + 1 - (start + 1)) + 1 := by omega
    rw [findStartCode, hfuel, findStartCodeLoop, if_pos hfits, h]
    rfl
  · rw [findStartCode_of_length_lt (by omega), findStartCode_of_length_lt (by omega)]

/-- Offsets without a start code are skipped. -/
theorem findStartCode_skip (hle : start ≤ stop)
    (h : ∀ j, start ≤ j → j < stop → startCodeAt d j = none) :
    findStartCode d start = findStartCode d stop := by
  induction stop, hle using Nat.le_induction with
  | base => rfl
  | succ m hm ih =>
    rw [ih fun j hj hlt => h j hj (by omega)]
    exact findStartCode_succ (h m hm (by omega))

theorem findStartCodeLoop_some {fuel p len : ℕ}
    (h : findStartCodeLoop d fuel i = (p, some len)) : i ≤ p ∧ startCodeAt d p = some len := by
  induction fuel generalizing i with
  | zero => simp [findStartCodeLoop] at h
  | succ fuel ih =>
    unfold findStartCodeLoop at h
    split_ifs at h with hfits
    · cases hs : startCodeAt d i with
      | some l =>
        simp only [hs, Prod.mk.injEq, Option.some.injEq] at h
        obtain ⟨rfl, rfl⟩ := h
        exact ⟨le_rfl, hs⟩
      | none =>
        simp only [hs] at h
        obtain ⟨hle, hp⟩ := ih h
        exact ⟨by omega, hp⟩
    · simp at h

theorem findStartCode_some {p len : ℕ} (h : findStartCode d start = (p, some len)) :
    start ≤ p ∧ startCodeAt d p = some len :=
  findStartCodeLoop_some h

/-- One unit of a byte stream: where its start code stands, how long that is, and the
bytes from there to the next start code or the end. -/
structure NalUnit where
  offset : ℕ
  startCode : ℕ
  bytes : List UInt8
  deriving DecidableEq, Repr

def NalUnit.shift (k : ℕ) (u : NalUnit) : NalUnit := { u with offset := k + u.offset }

def nalScanFrom (d : List UInt8) : ℕ → ℕ → List NalUnit
  | 0, _ => []
  | fuel + 1, start =>
    match findStartCode d start with
    | (_, none) => []
    | (p, some sc) =>
      ⟨p, sc, (d.take (findStartCode d (p + sc)).1).drop (p + sc)⟩ ::
        nalScanFrom d fuel (p + sc)

/-- The units a reader finds by calling `find_start_code` over and over. -/
def nalScan (d : List UInt8) : List NalUnit := nalScanFrom d (d.length + 1) 0

def nalUnits (d : List UInt8) : List (List UInt8) := (nalScan d).map NalUnit.bytes

theorem nalScanFrom_append (pre d : List UInt8) (fuel start : ℕ) :
    nalScanFrom (pre ++ d) fuel (pre.length + start) =
      (nalScanFrom d fuel start).map (NalUnit.shift pre.length) := by
  induction fuel generalizing start with
  | zero => rfl
  | succ fuel ih =>
    rw [nalScanFrom, nalScanFrom, findStartCode_append]
    rcases hf : findStartCode d start with ⟨p, _ | sc⟩
    · rfl
    · simp only [Nat.add_assoc, findStartCode_append, List.map_cons, NalUnit.shift, ih]
      simp [List.take_append, List.drop_append]

/-- Every unit moves the scan forward by at least three bytes, so enough fuel is enough. -/
theorem nalScanFrom_fuel {f g : ℕ} (hf : d.length < start + f) (hg : d.length < start + g) :
    nalScanFrom d f start = nalScanFrom d g start := by
  induction f generalizing g start with
  | zero =>
    have hnone : findStartCode d start = (d.length, none) :=
      findStartCode_of_length_lt (by omega)
    cases g with
    | zero => rfl
    | succ g => simp [nalScanFrom, hnone]
  | succ f ih =>
    rcases hs : findStartCode d start with ⟨p, _ | sc⟩
    · cases g <;> simp [nalScanFrom, hs]
    · obtain ⟨hle, hsc⟩ := findStartCode_some hs
      have hb := startCodeAt_bounds hsc
      cases g with
      | zero => omega
      | succ g =>
        simp only [nalScanFrom, hs]
        have hrest : nalScanFrom d f (p + sc) = nalScanFrom d g (p + sc) :=
          ih (by omega) (by omega)
        rw [hrest]

theorem nalScanFrom_congr {a b : ℕ} (h : findStartCode d a = findStartCode d b) (fuel : ℕ) :
    nalScanFrom d fuel a = nalScanFrom d fuel b := by
  cases fuel with
  | zero => rfl
  | succ fuel => rw [nalScanFrom, nalScanFrom, h]

/-- A unit with no zero byte after its start code, put in front of any buffer, is one more
unit of the scan. It takes in whatever precedes the buffer's first start code; the buffer's
own units stay as they were. -/
theorem nalScan_prepend {sc : ℕ} (hpre : startCodeAt pre 0 = some sc)
    (hbody : ∀ b ∈ pre.drop sc, b ≠ 0) (d : List UInt8) :
    nalScan (pre ++ d) =
      ⟨0, sc, pre.drop sc ++ d.take (findStartCode d 0).1⟩ ::
        (nalScan d).map (NalUnit.shift pre.length) := by
  have hb := startCodeAt_bounds hpre
  have hskip : findStartCode (pre ++ d) sc = findStartCode (pre ++ d) (pre.length + 0) := by
    refine findStartCode_skip (by omega) fun j hj hlt => startCodeAt_of_ne_zero ?_
    rw [List.getElem?_append_left (by omega)]
    intro hz
    refine hbody 0 ?_ rfl
    rw [List.mem_iff_getElem?]
    exact ⟨j - sc, by rw [List.getElem?_drop, Nat.add_sub_cancel' hj, hz]⟩
  have hrest : nalScanFrom (pre ++ d) (pre ++ d).length sc =
      (nalScan d).map (NalUnit.shift pre.length) := by
    rw [nalScanFrom_congr hskip, nalScanFrom_append, nalScan]
    congr 1
    have hlength : (pre ++ d).length = pre.length + d.length := List.length_append
    apply nalScanFrom_fuel <;> omega
  rw [nalScan, nalScanFrom, findStartCode_found (startCodeAt_append_left d hpre)]
  simp only [Nat.zero_add, hskip, findStartCode_append, hrest, List.take_length_add_append,
    List.drop_append_of_le_length (show sc ≤ pre.length by omega)]

end ObsBeacon.PacketProbe
