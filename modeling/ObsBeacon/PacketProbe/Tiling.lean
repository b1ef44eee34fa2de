import ObsBeacon.PacketProbe.CheckedScan

/-! What the Annex-B scan finds and lists: the first start code from an offset on, and NAL
units that, with the bytes before the first one, tile the buffer. -/
namespace ObsBeacon.PacketProbe

/-- A start code of length `len` fully fits at `i`: `00 00 01` or `00 00 00 01`. -/
def CodeAt (d : List UInt8) (i len : ℕ) : Prop :=
  len = 3 ∧ [0, 0, 1] <+: d.drop i ∨ len = 4 ∧ [0, 0, 0, 1] <+: d.drop i

/-- The result of a scan from `start`: the least offset with a start code and its length, or
the end of the buffer. -/
def LeastCode (d : List UInt8) (start : ℕ) : ℕ × Option ℕ → Prop
  | (p, some len) =>
    start ≤ p ∧ CodeAt d p len ∧ ∀ i, start ≤ i → i < p → ∀ l, ¬ CodeAt d i l
  | (p, none) => p = d.length ∧ ∀ i, start ≤ i → ∀ l, ¬ CodeAt d i l

def AnnexbDescription.nals : AnnexbDescription → List (ℕ × ℕ)
  | .units _ nals _ => nals
  | _ => []

def AnnexbDescription.hasSei : AnnexbDescription → Bool
  | .units _ _ hasSei => hasSei
  | _ => false

/-- The end of a unit's start code. -/
def NalUnit.body (u : NalUnit) : ℕ := u.offset + u.startCode

/-- The type of a unit, from the byte after its start code. -/
def NalUnit.type (d : List UInt8) (u : NalUnit) : ℕ := (d.getD u.body 0).toNat % 32

/-- The units with something after their start code, be it the next start code. -/
def listable (d : List UInt8) : List NalUnit := (nalScan d).filter fun u => u.body < d.length

/-- A final start code with nothing after it. -/
def bare (d : List UInt8) : List NalUnit := (nalScan d).filter fun u => ¬ u.body < d.length

variable {d : List UInt8} {i p sc start fuel : ℕ}

theorem cons_prefix_drop {a : UInt8} {l : List UInt8} :
    a :: l <+: d.drop i ↔ d[i]? = some a ∧ l <+: d.drop (i + 1) := by
  by_cases hi : i < d.length
  · rw [List.drop_eq_getElem_cons hi, List.cons_prefix_cons, List.getElem?_eq_getElem hi,
      Option.some.injEq, eq_comm]
  · simp [List.drop_eq_nil_of_le (Nat.le_of_not_lt hi), Nat.le_of_not_lt hi]

/-- The test of the scan is the definition of a start code. -/
theorem startCodeAt_iff {len : ℕ} : startCodeAt d i = some len ↔ CodeAt d i len := by
  simp only [CodeAt, cons_prefix_drop, List.nil_prefix, and_true]
  unfold startCodeAt
  constructor
  · intro h
    split_ifs at h with h01 h3 hfour
    · exact Or.inl ⟨(Option.some.inj h).symm, h01.1, h01.2, h3⟩
    · exact Or.inr ⟨(Option.some.inj h).symm, h01.1, h01.2, hfour.2⟩
  · rintro (⟨rfl, h0, h1, h2⟩ | ⟨rfl, h0, h1, h2, h3⟩)
    · rw [if_pos ⟨h0, h1⟩, if_pos h2]
    · have hfits : i + 4 ≤ d.length := (List.getElem?_eq_some_iff.mp h3).1
      have hne : d[i + 2]? ≠ some 1 := by
        intro hone
        rw [h2] at hone
        exact absurd hone (by decide)
      rw [if_pos ⟨h0, h1⟩, if_neg hne, if_pos ⟨hfits, h2, h3⟩]

theorem not_codeAt (h : startCodeAt d i = none) (len : ℕ) : ¬ CodeAt d i len := by
  rw [← startCodeAt_iff, h]
  simp

/-- The scan returns the least offset, by induction on the bytes left. -/
theorem findStartCode_least (d : List UInt8) (start : ℕ) :
    LeastCode d start (findStartCode d start) := by
  induction hn : d.length - start generalizing start with
  | zero =>
    rw [findStartCode_of_length_lt (by omega)]
    refine ⟨rfl, fun i hi l hcode => ?_⟩
    have hb := startCodeAt_bounds (startCodeAt_iff.mpr hcode)
    omega
  | succ n ih =>
    cases hs : startCodeAt d start with
    | some len =>
      rw [findStartCode_found hs]
      exact ⟨le_rfl, startCodeAt_iff.mp hs, fun i hi hlt => by omega⟩
    | none =>
      have hnext := ih (start + 1) (by omega)
      have hhere := not_codeAt hs
      rw [findStartCode_succ hs]
      rcases hf : findStartCode d (start + 1) with ⟨p, _ | len⟩
      · rw [hf] at hnext
        refine ⟨hnext.1, fun i hi => ?_⟩
        rcases hi.eq_or_lt with rfl | hlt
        · exact hhere
        · exact hnext.2 i hlt
      · rw [hf] at hnext
        obtain ⟨hle, hcode, hleast⟩ := hnext
        refine ⟨by omega, hcode, fun i hi hlt => ?_⟩
        rcases hi.eq_or_lt with rfl | hgt
        · exact hhere
        · exact hleast i hgt hlt

/-- The loop derives from the bytes the length the scan reported. -/
theorem thisStartCode_eq (h : startCodeAt d p = some sc) : thisStartCode d p = sc := by
  have hb := startCodeAt_bounds h
  unfold startCodeAt at h
  unfold thisStartCode
  split_ifs at h with h01 h3 hfour
  · rw [if_pos ⟨by omega, h01.1, h01.2, h3⟩]
    exact Option.some.inj h
  · rw [if_neg fun hthree => h3 hthree.2.2.2]
    exact Option.some.inj h

/-- A scan may start over where it ended. -/
theorem findStartCode_again (d : List UInt8) (start : ℕ) :
    findStartCode d (findStartCode d start).1 = findStartCode d start := by
  rcases hf : findStartCode d start with ⟨p, _ | len⟩
  · obtain rfl := findStartCode_none hf
    exact findStartCode_of_length_lt (by omega)
  · exact findStartCode_found (findStartCode_some hf).2

/-- Where the loop of `describe_annexb` stands: at a start code or at the end. -/
def AtUnit (d : List UInt8) (p : ℕ) : Prop := p = d.length ∨ ∃ sc, startCodeAt d p = some sc

theorem findStartCode_atUnit (d : List UInt8) (start : ℕ) : AtUnit d (findStartCode d start).1 := by
  rcases hf : findStartCode d start with ⟨p, _ | len⟩
  · exact Or.inl (findStartCode_none hf)
  · exact Or.inr ⟨len, (findStartCode_some hf).2⟩

theorem nalScanFrom_end (d : List UInt8) (fuel : ℕ) : nalScanFrom d fuel d.length = [] := by
  cases fuel with
  | zero => rfl
  | succ fuel => rw [nalScanFrom, findStartCode_of_length_lt (by omega)]

/-- The unit at a start code, then the scan from the next start code on. -/
theorem nalScanFrom_unit (h : startCodeAt d p = some sc) :
    nalScanFrom d (fuel + 1) p =
      ⟨p, sc, (d.take (findStartCode d (p + sc)).1).drop (p + sc)⟩ ::
        nalScanFrom d fuel (findStartCode d (p + sc)).1 := by
  rw [nalScanFrom, findStartCode_found h]
  exact congrArg _ (nalScanFrom_congr (findStartCode_again d (p + sc)).symm fuel)

/-- The unit whose start code stands at `p`. -/
def unitAt (d : List UInt8) (p sc : ℕ) : NalUnit :=
  ⟨p, sc, (d.take (findStartCode d (p + sc)).1).drop (p + sc)⟩

/-- Induction along a scan: at the end of the buffer, and at a start code with the scan from
the next one on. -/
theorem scan_induction {motive : ℕ → List NalUnit → Prop} (hend : motive d.length [])
    (hunit : ∀ p sc us, startCodeAt d p = some sc → motive (findStartCode d (p + sc)).1 us →
      motive p (unitAt d p sc :: us))
    (hp : AtUnit d p) (hfuel : d.length < p + fuel) : motive p (nalScanFrom d fuel p) := by
  induction fuel generalizing p with
  | zero =>
    rcases hp with rfl | ⟨sc, hsc⟩
    · omega
    · have hb := startCodeAt_bounds hsc
      omega
  | succ fuel ih =>
    rcases hp with rfl | ⟨sc, hsc⟩
    · rw [nalScanFrom_end]
      exact hend
    · have hb := startCodeAt_bounds hsc
      have hle := (findStartCode_le (show p + sc ≤ d.length by omega)).1
      rw [nalScanFrom_unit hsc]
      exact hunit p sc _ hsc (ih (findStartCode_atUnit d _) (by omega))

/-- The rule for the scan of the whole buffer. -/
theorem nalScan_induction {motive : ℕ → List NalUnit → Prop} (hend : motive d.length [])
    (hunit : ∀ p sc us, startCodeAt d p = some sc → motive (findStartCode d (p + sc)).1 us →
      motive p (unitAt d p sc :: us)) : motive (findStartCode d 0).1 (nalScan d) := by
  have hstart : nalScan d = nalScanFrom d (d.length + 1) (findStartCode d 0).1 :=
    nalScanFrom_congr (findStartCode_again d 0).symm _
  rw [hstart]
  exact scan_induction hend hunit (findStartCode_atUnit d 0) (by omega)

section Units
variable {u : NalUnit}

/-- What every unit of a scan is: a start code, and the bytes up to the next one. -/
theorem mem_nalScan (hu : u ∈ nalScan d) :
    ∃ p sc, startCodeAt d p = some sc ∧ u = unitAt d p sc := by
  refine nalScan_induction (motive := fun _ us => ∀ u ∈ us, ∃ p sc, startCodeAt d p = some sc ∧
    u = unitAt d p sc) (by simp) ?_ u hu
  intro p sc us hsc ih v hv
  rcases List.mem_cons.mp hv with rfl | hv
  · exact ⟨p, sc, hsc, rfl⟩
  · exact ih v hv

/-- Each unit starts at or after the end of the start code before it. -/
theorem pairwise_nalScan (d : List UInt8) :
    (nalScan d).Pairwise fun u v => u.body ≤ v.offset := by
  have h : (nalScan d).Pairwise (fun u v => u.body ≤ v.offset) ∧
      ∀ v ∈ nalScan d, (findStartCode d 0).1 ≤ v.offset := by
    refine nalScan_induction (motive := fun p us => us.Pairwise (fun u v => u.body ≤ v.offset) ∧
      ∀ v ∈ us, p ≤ v.offset) (by simp) ?_
    intro p sc us hsc ih
    have hb := startCodeAt_bounds hsc
    have hle := (findStartCode_le (show p + sc ≤ d.length by omega)).1
    have hfirst : ∀ v ∈ us, p + sc ≤ v.offset := fun v hv => hle.trans (ih.2 v hv)
    refine ⟨List.pairwise_cons.mpr ⟨hfirst, ih.1⟩, fun v hv => ?_⟩
    rcases List.mem_cons.mp hv with rfl | hv
    · exact le_rfl
    · exact le_trans (by omega) (hfirst v hv)
  exact h.1

/-- The bytes before the first start code, the start codes and the units are the buffer. -/
theorem nalScan_tiles (d : List UInt8) :
    d = d.take (findStartCode d 0).1 ++
      (nalScan d).flatMap fun u => (d.drop u.offset).take u.startCode ++ u.bytes := by
  have h : d.drop (findStartCode d 0).1 =
      (nalScan d).flatMap fun u => (d.drop u.offset).take u.startCode ++ u.bytes := by
    refine nalScan_induction (motive := fun p us => d.drop p =
      us.flatMap fun u => (d.drop u.offset).take u.startCode ++ u.bytes) (by simp) ?_
    intro p sc us hsc ih
    have hb := startCodeAt_bounds hsc
    have hnext := findStartCode_le (show p + sc ≤ d.length by omega)
    rw [List.flatMap_cons, ← ih, unitAt]
    generalize (findStartCode d (p + sc)).1 = next at *
    calc d.drop p = (d.drop p).take sc ++ (d.drop p).drop sc := (List.take_append_drop _ _).symm
      _ = (d.drop p).take sc ++ (d.take next ++ d.drop next).drop (p + sc) := by
        rw [List.drop_drop, List.take_append_drop]
      _ = (d.drop p).take sc ++ (d.take next).drop (p + sc) ++ d.drop next := by
        rw [List.drop_append_of_le_length (by rw [List.length_take]; omega), List.append_assoc]
  rw [← h, List.take_append_drop]

/-- The listing loop lists the units in order, up to its limit. -/
theorem describeLoop_eq (d : List UInt8) (left : ℕ) :
    describeLoop d left (findStartCode d 0).1 =
      ((listable d).take left).map fun u => (u.type d, u.bytes.length) := by
  refine nalScan_induction (motive := fun p us => ∀ left, describeLoop d left p =
    ((us.filter fun u => u.body < d.length).take left).map fun u => (u.type d, u.bytes.length))
    ?_ ?_ left
  · intro left
    cases left with
    | zero => rfl
    | succ left => rw [describeLoop_succ, if_neg (lt_irrefl _)]; rfl
  · intro p sc us hsc ih left
    have hb := startCodeAt_bounds hsc
    cases left with
    | zero => simp [describeLoop]
    | succ left =>
      rw [describeLoop_succ, if_pos (by omega), thisStartCode_eq hsc]
      by_cases hbody : p + sc < d.length
      · have hnext := findStartCode_le hbody.le
        have hkeep : (unitAt d p sc :: us).filter (fun u => u.body < d.length) =
            unitAt d p sc :: us.filter fun u => u.body < d.length :=
          List.filter_cons_of_pos (decide_eq_true hbody)
        have htype : (unitAt d p sc).type d = d[p + sc].toNat % 32 := by
          simp [NalUnit.type, NalUnit.body, unitAt, hbody]
        have hlength : (unitAt d p sc).bytes.length =
            (findStartCode d (p + sc)).1 - (p + sc) := by
          simp only [unitAt, List.length_drop, List.length_take]
          omega
        rw [List.getElem?_eq_getElem hbody, hkeep, List.take_succ_cons, List.map_cons, htype,
          hlength, ← ih left]
      · have hskip : (unitAt d p sc :: us).filter (fun u => u.body < d.length) =
            us.filter fun u => u.body < d.length :=
          List.filter_cons_of_neg fun h => hbody (of_decide_eq_true h)
        have hend : (findStartCode d (p + sc)).1 = d.length := by
          rw [findStartCode_of_length_lt (by omega)]
        rw [List.getElem?_eq_none (by omega), hskip, ← ih (left + 1), hend, describeLoop_succ,
          if_neg (lt_irrefl _)]

/-- What is left out of the listing is at most a final start code with nothing after it. -/
theorem nalScan_eq_append_bare (d : List UInt8) :
    nalScan d = listable d ++ bare d ∧ (bare d).length ≤ 1 ∧
      ∀ u ∈ bare d, u.body = d.length ∧ u.bytes = [] := by
  have h : ((findStartCode d 0).1 = d.length → nalScan d = []) ∧
      nalScan d = listable d ++ bare d ∧ (bare d).length ≤ 1 ∧
        ∀ u ∈ bare d, u.body = d.length ∧ u.bytes = [] := by
    refine nalScan_induction (motive := fun p us => (p = d.length → us = []) ∧
      us = (us.filter fun u => u.body < d.length) ++ (us.filter fun u => ¬ u.body < d.length) ∧
        (us.filter fun u => ¬ u.body < d.length).length ≤ 1 ∧
        ∀ u ∈ us.filter fun u => ¬ u.body < d.length, u.body = d.length ∧ u.bytes = [])
      (by simp) ?_
    rintro p sc us hsc ⟨hend, hsplit, hone, hbare⟩
    have hb := startCodeAt_bounds hsc
    have hbody : (unitAt d p sc).body = p + sc := rfl
    refine ⟨fun hp => by omega, ?_⟩
    by_cases hlt : p + sc < d.length
    · simp only [List.filter_cons, hbody, hlt, decide_true, not_true_eq_false, decide_false,
        if_true, Bool.false_eq_true, if_false, List.cons_append]
      exact ⟨congrArg _ hsplit, hone, hbare⟩
    · have hnone : us = [] := hend (by rw [findStartCode_of_length_lt (by omega)])
      have hbytes : (unitAt d p sc).bytes = [] := by
        apply List.drop_eq_nil_of_le
        rw [List.length_take]
        omega
      have hfull : p + sc = d.length := by omega
      subst hnone
      simp [hbody, hbytes, hfull]
  exact h.2

/-- The lengths of a tiling. -/
theorem nalScan_lengths (d : List UInt8) :
    (findStartCode d 0).1 + ((nalScan d).map (·.startCode)).sum +
      ((nalScan d).map (·.bytes.length)).sum = d.length := by
  have hcode : ∀ u ∈ nalScan d, ((d.drop u.offset).take u.startCode ++ u.bytes).length =
      u.startCode + u.bytes.length := by
    intro u hu
    obtain ⟨p, sc, hsc, rfl⟩ := mem_nalScan hu
    have hb := startCodeAt_bounds hsc
    simp only [unitAt, List.length_append, List.length_take, List.length_drop]
    omega
  have hsum : ((nalScan d).map fun u =>
      ((d.drop u.offset).take u.startCode ++ u.bytes).length).sum =
        ((nalScan d).map (·.startCode)).sum + ((nalScan d).map (·.bytes.length)).sum := by
    rw [List.map_congr_left hcode]
    exact List.sum_map_add
  have htile := congrArg List.length (nalScan_tiles d)
  have hlead := (findStartCode_le (Nat.zero_le d.length)).2
  rw [List.length_append, List.length_flatMap, hsum, List.length_take, min_eq_left hlead] at htile
  omega

theorem describeAnnexb_nals (d : List UInt8) :
    (describeAnnexb d).nals =
      ((listable d).take 16).map fun u => (u.type d, u.bytes.length) := by
  unfold describeAnnexb
  split_ifs with hshort
  · have hnone : listable d = [] := by
      apply List.filter_eq_nil_iff.mpr
      intro u hu hbody
      obtain ⟨p, sc, hsc, rfl⟩ := mem_nalScan hu
      have hb := startCodeAt_bounds hsc
      have hlt : p + sc < d.length := of_decide_eq_true hbody
      omega
    rw [hnone]
    rfl
  · have hloop := describeLoop_eq d 16
    rcases hf : findStartCode d 0 with ⟨p, _ | sc⟩
    · have hnone : listable d = [] := by
        rw [listable, nalScan, nalScanFrom, hf]
        rfl
      rw [hnone]
      rfl
    · rw [hf] at hloop
      exact hloop

theorem describeAnnexb_hasSei (d : List UInt8) :
    (describeAnnexb d).hasSei = (describeAnnexb d).nals.any fun u => u.1 == 6 := by
  unfold describeAnnexb
  split_ifs
  · rfl
  · split <;> rfl

end Units

/-! The text `describe_annexb` returns. -/
section Text

def h264NalName : ℕ → Option String
  | 1 => some "slice"
  | 5 => some "IDR"
  | 6 => some "SEI"
  | 7 => some "SPS"
  | 8 => some "PPS"
  | 9 => some "AUD"
  | _ => none

def nalText (u : ℕ × ℕ) : String :=
  match h264NalName u.1 with
  | some name => toString u.1 ++ "(" ++ name ++ ")/" ++ toString u.2 ++ " "
  | none => toString u.1 ++ "/" ++ toString u.2 ++ " "

def seiPresent : String := " (existing SEI present)"

def AnnexbDescription.text : AnnexbDescription → String
  | .empty => "empty"
  | .noStartCode => "no start code (not Annex-B?)"
  | .units sc nals hasSei =>
    "sc=" ++ toString sc ++ "B nals=[" ++ String.join (nals.map nalText) ++ "]" ++
      (if hasSei then seiPresent else "")

/-- The remark on an existing SEI ends the text of such access units and of no others. -/
theorem text_hasSei (desc : AnnexbDescription) :
    seiPresent.toList <:+ desc.text.toList ↔ desc.hasSei = true := by
  cases desc with
  | empty => decide
  | noStartCode => decide
  | units sc nals hasSei =>
    cases hasSei with
    | true =>
      refine iff_of_true ?_ rfl
      rw [AnnexbDescription.text, if_pos rfl, String.toList_append]
      exact List.suffix_append _ _
    | false =>
      refine iff_of_false ?_ Bool.false_ne_true
      rintro ⟨front, hfront⟩
      rw [AnnexbDescription.text, if_neg Bool.false_ne_true, String.toList_append,
        String.toList_append] at hfront
      have hsei : seiPresent.toList.getLast? = some ')' := by decide
      have hclosed : "]".toList.getLast? = some ']' := by decide
      have hlast := congrArg List.getLast? hfront
      rw [List.getLast?_append, List.getLast?_append, List.getLast?_append, hsei, hclosed] at hlast
      exact absurd (Option.some.inj hlast) (by decide)

end Text

/-- What a description says of the buffer it is made from. -/
structure Describes (d : List UInt8) (desc : AnnexbDescription) : Prop where
  inBounds : checkedDescribe d = some desc
  startCode : ∀ u ∈ nalScan d, CodeAt d u.offset u.startCode ∧
    thisStartCode d u.offset = u.startCode
  body : ∀ u ∈ nalScan d, u.bytes = (d.take (findStartCode d u.body).1).drop u.body
  increasing : (nalScan d).Pairwise fun u v => u.offset < v.offset
  listed : desc.nals = ((listable d).take 16).map fun u => (u.type d, u.bytes.length)
  unlisted : nalScan d = listable d ++ bare d ∧ (bare d).length ≤ 1 ∧
    ∀ u ∈ bare d, u.body = d.length ∧ u.bytes = []
  tiles : d = d.take (findStartCode d 0).1 ++
    (nalScan d).flatMap fun u => (d.drop u.offset).take u.startCode ++ u.bytes
  lengths : desc.nals.length < 16 →
    (findStartCode d 0).1 + ((nalScan d).map (·.startCode)).sum +
      (desc.nals.map (·.2)).sum = d.length
  sei : desc.hasSei = true ↔ ∃ u ∈ (listable d).take 16, u.type d = 6
  text : seiPresent.toList <:+ desc.text.toList ↔ desc.hasSei = true

/-- When the listing was not cut off, the lengths in it are those of all units. -/
theorem listed_lengths (h : (describeAnnexb d).nals.length < 16) :
    ((describeAnnexb d).nals.map (·.2)).sum = ((nalScan d).map (·.bytes.length)).sum := by
  obtain ⟨hsplit, -, hbare⟩ := nalScan_eq_append_bare d
  rw [describeAnnexb_nals, List.length_map, List.length_take] at h
  have hzero : (bare d).map (fun u => u.bytes.length) = (bare d).map fun _ => 0 :=
    List.map_congr_left fun u hu => by rw [(hbare u hu).2, List.length_nil]
  rw [describeAnnexb_nals, List.take_of_length_le (by omega), hsplit, List.map_append,
    List.sum_append, hzero, List.map_map]
  simp [Function.comp_def]

theorem describes (d : List UInt8) : Describes d (describeAnnexb d) where
  inBounds := checkedDescribe_eq d
  startCode u hu := by
    obtain ⟨p, sc, hsc, rfl⟩ := mem_nalScan hu
    exact ⟨startCodeAt_iff.mp hsc, thisStartCode_eq hsc⟩
  body u hu := by
    obtain ⟨p, sc, hsc, rfl⟩ := mem_nalScan hu
    rfl
  increasing := by
    apply (pairwise_nalScan d).imp_of_mem
    intro u v hu _ hle
    obtain ⟨p, sc, hsc, rfl⟩ := mem_nalScan hu
    have hb := startCodeAt_bounds hsc
    have hbody : (unitAt d p sc).body = p + sc := rfl
    have hoffset : (unitAt d p sc).offset = p := rfl
    omega
  listed := describeAnnexb_nals d
  unlisted := nalScan_eq_append_bare d
  tiles := nalScan_tiles d
  lengths h := by
    rw [listed_lengths h]
    exact nalScan_lengths d
  sei := by
    rw [describeAnnexb_hasSei, describeAnnexb_nals, List.any_map, List.any_eq_true]
    simp only [Function.comp_apply, beq_iff_eq]
  text := text_hasSei _

/-- For every buffer: each scan stays inside it, ends, and finds the least start code; and
the description lists the units that tile the buffer. -/
theorem annexb_tiling (d : List UInt8) :
    (∀ start, checkedFindStartCode d start = some (findStartCode d start) ∧
      LeastCode d start (findStartCode d start)) ∧
      Describes d (describeAnnexb d) :=
  ⟨fun start => ⟨checkedFindStartCode_eq d start, findStartCode_least d start⟩, describes d⟩

end ObsBeacon.PacketProbe
