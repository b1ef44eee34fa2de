import ObsBeacon.PacketProbe.Scan

/-! The Annex-B helpers once more, with every read of the buffer checked, the loops on fuel
and the accumulators of `describe_annexb` spelled out: `none` is a read outside the buffer, a
length that wraps around, or a loop that does not end. -/
namespace ObsBeacon.PacketProbe

/-- The body of the loop of `find_start_code`, its reads in the order they are made. -/
def checkedStartCodeAt (d : List UInt8) (i : ℕ) : Option (Option ℕ) :=
  d[i]?.bind fun b0 =>
    if b0 ≠ 0 then some none
    else
      d[i + 1]?.bind fun b1 =>
        if b1 ≠ 0 then some none
        else
          d[i + 2]?.bind fun b2 =>
            if b2 = 1 then some (some 3)
            else if i + 4 ≤ d.length ∧ b2 = 0 then
              d[i + 3]?.map fun b3 => if b3 = 1 then some 4 else none
            else some none

def checkedFindLoop (d : List UInt8) : ℕ → ℕ → Option (ℕ × Option ℕ)
  | 0, _ => none
  | fuel + 1, i =>
    if i + 3 ≤ d.length then
      (checkedStartCodeAt d i).bind fun found =>
        match found with
        | some len => some (i, some len)
        | none => checkedFindLoop d fuel (i + 1)
    else some (d.length, none)

def checkedFindStartCode (d : List UInt8) (start : ℕ) : Option (ℕ × Option ℕ) :=
  checkedFindLoop d (d.length + 1) start

/-- The start-code length `describe_annexb` derives from the bytes at `p`. -/
def thisStartCode (d : List UInt8) (p : ℕ) : ℕ :=
  if p + 3 ≤ d.length ∧ d[p]? = some 0 ∧ d[p + 1]? = some 0 ∧ d[p + 2]? = some 1 then 3 else 4

def checkedThisStartCode (d : List UInt8) (p : ℕ) : Option ℕ :=
  if p + 3 ≤ d.length then
    d[p]?.bind fun b0 =>
      if b0 ≠ 0 then some 4
      else
        d[p + 1]?.bind fun b1 =>
          if b1 ≠ 0 then some 4 else d[p + 2]?.map fun b2 => if b2 = 1 then 3 else 4
  else some 4

/-- The loop of `describe_annexb`, with `out`, `has_sei` and `count`. -/
def checkedDescribeLoop (d : List UInt8) :
    ℕ → ℕ → ℕ → List (ℕ × ℕ) → Bool → Option (List (ℕ × ℕ) × Bool)
  | 0, _, _, _, _ => none
  | fuel + 1, p, count, out, hasSei =>
    if p < d.length ∧ count < 16 then
      (checkedThisStartCode d p).bind fun thisSc =>
        let nal := p + thisSc
        if d.length ≤ nal then some (out, hasSei)
        else
          d[nal]?.bind fun header =>
            let type := (header &&& 0x1F).toNat
            (checkedFindStartCode d nal).bind fun next =>
              if next.1 < nal then none
              else
                checkedDescribeLoop d fuel next.1 (count + 1) (out ++ [(type, next.1 - nal)])
                  (hasSei || type == 6)
    else some (out, hasSei)

def checkedDescribe (d : List UInt8) : Option AnnexbDescription :=
  if d.length < 4 then some .empty
  else
    (checkedFindStartCode d 0).bind fun found =>
      if found.1 = d.length then some .noStartCode
      else
        (checkedDescribeLoop d 17 found.1 0 [] false).map fun listed =>
          .units (found.2.getD 0) listed.1 listed.2

variable {d : List UInt8} {i p start : ℕ}

theorem checkedStartCodeAt_eq (h : i + 3 ≤ d.length) :
    checkedStartCodeAt d i = some (startCodeAt d i) := by
  have h0 : d[i]? = some d[i] := List.getElem?_eq_getElem (by omega)
  have h1 : d[i + 1]? = some d[i + 1] := List.getElem?_eq_getElem (by omega)
  have h2 : d[i + 2]? = some d[i + 2] := List.getElem?_eq_getElem (by omega)
  unfold checkedStartCodeAt startCodeAt
  simp only [h0, h1, h2, Option.bind_some, Option.some.injEq]
  by_cases hb0 : d[i] = 0
  · by_cases hb1 : d[i + 1] = 0
    · by_cases hb2 : d[i + 2] = 1
      · simp [hb0, hb1, hb2]
      · by_cases hfour : i + 4 ≤ d.length ∧ d[i + 2] = 0
        · have h3 : d[i + 3]? = some d[i + 3] := List.getElem?_eq_getElem (by omega)
          simp [hb0, hb1, hfour, h3]
        · simp only [hb0, hb1, hb2, ne_eq, not_true_eq_false, if_false, hfour, and_self, if_true]
          rw [if_neg fun h => hfour ⟨h.1, h.2.1⟩]
    · simp [hb0, hb1]
  · simp [hb0]

theorem checkedFindLoop_eq {fuel : ℕ} (hfuel : d.length < i + fuel) (hpos : 0 < fuel) :
    checkedFindLoop d fuel i = some (findStartCode d i) := by
  induction fuel generalizing i with
  | zero => omega
  | succ fuel ih =>
    unfold checkedFindLoop
    split_ifs with hfits
    · rw [checkedStartCodeAt_eq hfits, Option.bind_some]
      cases hs : startCodeAt d i with
      | some len => exact congrArg some (findStartCode_found hs).symm
      | none =>
        rw [findStartCode_succ hs]
        exact ih (by omega) (by omega)
    · rw [findStartCode_of_length_lt (by omega)]

/-- `find_start_code` ends and stays inside the buffer, from any offset. -/
theorem checkedFindStartCode_eq (d : List UInt8) (start : ℕ) :
    checkedFindStartCode d start = some (findStartCode d start) :=
  checkedFindLoop_eq (by omega) (by omega)

theorem checkedThisStartCode_eq (d : List UInt8) (p : ℕ) :
    checkedThisStartCode d p = some (thisStartCode d p) := by
  unfold checkedThisStartCode thisStartCode
  by_cases hfits : p + 3 ≤ d.length
  · have h0 : d[p]? = some d[p] := List.getElem?_eq_getElem (by omega)
    have h1 : d[p + 1]? = some d[p + 1] := List.getElem?_eq_getElem (by omega)
    have h2 : d[p + 2]? = some d[p + 2] := List.getElem?_eq_getElem (by omega)
    simp only [hfits, h0, h1, h2, if_true, Option.bind_some, Option.map_some, true_and,
      Option.some.injEq]
    by_cases hb0 : d[p] = 0
    · by_cases hb1 : d[p + 1] = 0
      · simp [hb0, hb1]
      · simp [hb0, hb1]
    · simp [hb0]
  · simp [hfits]

theorem findStartCodeLoop_none {fuel : ℕ} (h : findStartCodeLoop d fuel i = (p, none)) :
    p = d.length := by
  induction fuel generalizing i with
  | zero => exact (congrArg Prod.fst h).symm
  | succ fuel ih =>
    unfold findStartCodeLoop at h
    split_ifs at h with hfits
    · cases hs : startCodeAt d i with
      | some len => simp [hs] at h
      | none =>
        simp only [hs] at h
        exact ih h
    · exact (congrArg Prod.fst h).symm

theorem findStartCode_none (h : findStartCode d start = (p, none)) : p = d.length :=
  findStartCodeLoop_none h

/-- A scan that starts inside the buffer ends between its start and the end. -/
theorem findStartCode_le (h : start ≤ d.length) :
    start ≤ (findStartCode d start).1 ∧ (findStartCode d start).1 ≤ d.length := by
  rcases hf : findStartCode d start with ⟨p, _ | len⟩
  · obtain rfl := findStartCode_none hf
    exact ⟨h, le_rfl⟩
  · obtain ⟨hle, hs⟩ := findStartCode_some hf
    have hb := startCodeAt_bounds hs
    exact ⟨hle, by omega⟩

theorem and_lowFive (b : UInt8) : (b &&& 0x1F).toNat = b.toNat % 32 := by
  rw [UInt8.toNat_and]
  exact Nat.and_two_pow_sub_one_eq_mod b.toNat 5

theorem describeLoop_succ (d : List UInt8) (left p : ℕ) :
    describeLoop d (left + 1) p =
      if p < d.length then
        match d[p + thisStartCode d p]? with
        | none => []
        | some header =>
          (header.toNat % 32, (findStartCode d (p + thisStartCode d p)).1 -
            (p + thisStartCode d p)) ::
            describeLoop d left (findStartCode d (p + thisStartCode d p)).1
      else [] := rfl

theorem checkedDescribeLoop_eq {fuel count : ℕ} (out : List (ℕ × ℕ)) (hasSei : Bool)
    (hcount : count ≤ 16) (hfuel : 16 < count + fuel) :
    checkedDescribeLoop d fuel p count out hasSei =
      some (out ++ describeLoop d (16 - count) p,
        hasSei || (describeLoop d (16 - count) p).any fun u => u.1 == 6) := by
  induction fuel generalizing p count out hasSei with
  | zero => omega
  | succ fuel ih =>
    unfold checkedDescribeLoop
    split_ifs with hin
    · rw [show 16 - count = 16 - (count + 1) + 1 by omega, describeLoop_succ, if_pos hin.1,
        checkedThisStartCode_eq, Option.bind_some]
      dsimp only
      by_cases hend : d.length ≤ p + thisStartCode d p
      · rw [if_pos hend, List.getElem?_eq_none hend]
        simp
      · have hheader := List.getElem?_eq_getElem (show p + thisStartCode d p < d.length by omega)
        have hnext := (findStartCode_le (show p + thisStartCode d p ≤ d.length by omega)).1
        rw [if_neg hend, hheader, Option.bind_some, checkedFindStartCode_eq, Option.bind_some,
          if_neg (by omega), ih _ _ (by omega) (by omega), and_lowFive]
        simp [Bool.or_assoc]
    · by_cases hp : p < d.length
      · have hfull : 16 - count = 0 := by omega
        simp [hfull, describeLoop]
      · have hnone : describeLoop d (16 - count) p = [] := by
          cases 16 - count with
          | zero => rfl
          | succ left => rw [describeLoop_succ, if_neg hp]
        simp [hnone]

/-- `describe_annexb` ends and stays inside the buffer, whatever the buffer holds. -/
theorem checkedDescribe_eq (d : List UInt8) : checkedDescribe d = some (describeAnnexb d) := by
  unfold checkedDescribe describeAnnexb
  split_ifs with hshort
  · rfl
  · rw [checkedFindStartCode_eq, Option.bind_some]
    rcases hf : findStartCode d 0 with ⟨p, _ | sc⟩
    · rw [if_pos (findStartCode_none hf)]
    · have hb := startCodeAt_bounds (findStartCode_some hf).2
      rw [if_neg (show ¬ p = d.length by omega),
        checkedDescribeLoop_eq [] false (by omega) (by omega)]
      simp

end ObsBeacon.PacketProbe
