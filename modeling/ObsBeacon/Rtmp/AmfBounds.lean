import ObsBeacon.Rtmp.AmfDecode

/-! The AMF0 decoders of librtmp read what the body holds, and nothing else, where a `long` has 64
bits. -/
namespace ObsBeacon.Rtmp
open Amf0 Memory

/-- A result with what is left that ends in an error further up. -/
def Doomed {α : Type} (r : Except Stop (α × ℤ)) : Prop :=
  r = .error .invalid ∨ ∃ v left, r = .ok (v, left) ∧ left < 0

/-- Two results with what is left: the same one, within the bytes, or both doomed. -/
inductive Alike {α : Type} (most : ℤ) (r r' : Except Stop (α × ℤ)) : Prop where
  | same (heq : r = r') (hfuel : r ≠ .error .fuel)
      (hleft : ∀ v left, r = .ok (v, left) → 0 ≤ left ∧ left ≤ most)
  | doomed (hr : Doomed r) (hr' : Doomed r')

section Alike
variable {α β : Type} {most nSize pos : ℤ} {r r' : Except Stop (α × ℤ)}

theorem ok_ne_error (a : α) (e : Stop) : (.ok a : Except Stop α) ≠ .error e := by
  intro h
  cases h

theorem alike_stop (most : ℤ) {e : Stop} (he : e ≠ .fuel) :
    Alike most (.error e : Except Stop (α × ℤ)) (.error e) :=
  .same rfl (fun h => he (Except.error.inj h)) fun _ _ h => absurd h.symm (ok_ne_error _ _)

theorem alike_ok {most left : ℤ} (v : α) (hnonneg : 0 ≤ left) (hmost : left ≤ most) :
    Alike most (.ok (v, left)) (.ok (v, left)) := by
  apply Alike.same rfl
  · exact ok_ne_error _ _
  · intro v' left' h
    obtain ⟨rfl, rfl⟩ := Prod.mk.inj (Except.ok.inj h)
    exact ⟨hnonneg, hmost⟩

theorem Alike.mono {most' : ℤ} (h : Alike most r r') (hmost : most ≤ most') :
    Alike most' r r' := by
  cases h with
  | same heq hfuel hleft =>
    exact .same heq hfuel fun v left hr =>
      ⟨(hleft v left hr).1, Int.le_trans (hleft v left hr).2 hmost⟩
  | doomed hr hr' => exact .doomed hr hr'

/-- What a step does with the results: it goes on where some bytes are left, and where too many
are read it ends in an error or leaves less than nothing too. -/
theorem Alike.bind {most' : ℤ} {f f' : α × ℤ → Except Stop (β × ℤ)} (h : Alike most r r')
    (hgo : ∀ v left, 0 ≤ left → left ≤ most → Alike most' (f (v, left)) (f' (v, left)))
    (hover : ∀ v left, left < 0 → Doomed (f (v, left)) ∧ Doomed (f' (v, left))) :
    Alike most' (r.bind f) (r'.bind f') := by
  cases h with
  | same heq hfuel hleft =>
    subst heq
    cases hr : r with
    | error e => exact alike_stop most' fun he => hfuel (by rw [hr, he])
    | ok p =>
      obtain ⟨v, left⟩ := p
      obtain ⟨hnonneg, hmost⟩ := hleft v left hr
      exact hgo v left hnonneg hmost
  | doomed hr hr' =>
    apply Alike.doomed
    · obtain rfl | ⟨v, left, rfl, hneg⟩ := hr
      · exact .inl rfl
      · exact (hover v left hneg).1
    · obtain rfl | ⟨v, left, rfl, hneg⟩ := hr'
      · exact .inl rfl
      · exact (hover v left hneg).2

theorem Doomed.map (h : Doomed r) (f : α → β) : Doomed (r.map fun p => (f p.1, p.2)) := by
  obtain rfl | ⟨v, left, rfl, hneg⟩ := h
  · exact .inl rfl
  · exact .inr ⟨f v, left, rfl, hneg⟩

theorem Alike.map (h : Alike most r r') (f : α → β) :
    Alike most (r.map fun p => (f p.1, p.2)) (r'.map fun p => (f p.1, p.2)) := by
  cases h with
  | same heq hfuel hleft =>
    subst heq
    cases hr : r with
    | error e => exact alike_stop most fun he => hfuel (by rw [hr, he])
    | ok p => exact alike_ok _ (hleft p.1 p.2 hr).1 (hleft p.1 p.2 hr).2
  | doomed hr hr' => exact .doomed (hr.map f) (hr'.map f)

end Alike

section Agree
variable {mem mem' : ℤ → UInt8} {pos nSize : ℤ}

theorem amfDecodeInt16_agree (h : AgreeOn mem mem' pos (pos + 2)) :
    amfDecodeInt16 mem pos = amfDecodeInt16 mem' pos := by
  unfold amfDecodeInt16
  rw [h.bytesAt_eq (Int.le_refl _) (by omega)]

theorem amfDecodeInt24_agree (h : AgreeOn mem mem' pos (pos + 3)) :
    amfDecodeInt24 mem pos = amfDecodeInt24 mem' pos := by
  unfold amfDecodeInt24
  rw [h.bytesAt_eq (Int.le_refl _) (by omega)]

theorem amfDecodeInt32_agree (h : AgreeOn mem mem' pos (pos + 4)) :
    amfDecodeInt32 mem pos = amfDecodeInt32 mem' pos := by
  unfold amfDecodeInt32
  rw [h.bytesAt_eq (Int.le_refl _) (by omega)]

theorem amfDecodeNumber_agree (h : AgreeOn mem mem' pos (pos + 8)) :
    amfDecodeNumber mem pos = amfDecodeNumber mem' pos := by
  unfold amfDecodeNumber
  rw [h.bytesAt_eq (Int.le_refl _) (by omega)]

theorem amfDecodeString_agree (h : AgreeOn mem mem' pos (pos + nSize))
    (hfits : (amfDecodeInt16 mem pos : ℤ) + 2 ≤ nSize) :
    amfDecodeString mem pos = amfDecodeString mem' pos := by
  unfold amfDecodeString
  rw [← amfDecodeInt16_agree (h.mono (Int.le_refl _) (by omega)),
    h.bytesAt_eq (by omega) (by omega)]

/-- The head of `AMFProp_Decode` reads no further than the bytes there are. -/
theorem decodeName_agree (named : Bool) (hpos : 0 < nSize)
    (h : AgreeOn mem mem' pos (pos + nSize)) :
    decodeName mem named pos nSize = decodeName mem' named pos nSize := by
  have hne : ¬ nSize = 0 := by omega
  unfold decodeName
  simp only [if_neg hne]
  cases named with
  | false => simp only [Bool.false_eq_true, if_false]
  | true =>
    by_cases hshort : nSize < 4
    · simp only [hshort, if_true]
    · have hlen := amfDecodeInt16_agree (h.mono (Int.le_refl _) (by omega))
      simp only [hshort, if_true, if_false, ← hlen]
      split_ifs with hrange
      · rfl
      · rw [not_or] at hrange
        rw [amfDecodeString_agree h (by omega)]

/-- The name and what is left behind it are the bytes there were, and something is left. -/
theorem decodeName_left {named : Bool} {name : List UInt8} {pos' left : ℤ}
    (h : decodeName mem named pos nSize = .ok (name, pos', left)) (hpos : 0 < nSize) :
    pos ≤ pos' ∧ pos' + left = pos + nSize ∧ 0 < left := by
  unfold decodeName at h
  rw [if_neg (by omega)] at h
  cases named with
  | false =>
    obtain ⟨-, hrest⟩ := Prod.mk.inj (Except.ok.inj h)
    obtain ⟨rfl, rfl⟩ := Prod.mk.inj hrest
    omega
  | true =>
    by_cases hshort : nSize < 4
    · simp only [hshort, if_true] at h
      exact absurd h.symm (ok_ne_error _ _)
    · simp only [hshort, if_true, if_false] at h
      split_ifs at h with hrange
      rw [not_or] at hrange
      obtain ⟨-, hrest⟩ := Prod.mk.inj (Except.ok.inj h)
      obtain ⟨rfl, rfl⟩ := Prod.mk.inj hrest
      omega

theorem decodeName_ne_fuel (mem : ℤ → UInt8) (named : Bool) (pos nSize : ℤ) :
    decodeName mem named pos nSize ≠ .error .fuel := by
  unfold decodeName
  split_ifs
  · exact fun h => Stop.noConfusion (Except.error.inj h)
  · exact fun h => Stop.noConfusion (Except.error.inj h)
  · dsimp only
    split_ifs
    · exact fun h => Stop.noConfusion (Except.error.inj h)
    · exact ok_ne_error _ _
  · exact ok_ne_error _ _

/-- With a `long` of 64 bits a long string that does not fit is refused. -/
theorem decodeLongString_alike (make : List UInt8 → AmfData) (hnonneg : 0 ≤ nSize)
    (hint : nSize < 2 ^ 31) (h : AgreeOn mem mem' pos (pos + nSize)) :
    Alike nSize (decodeLongString mem true make pos nSize)
      (decodeLongString mem' true make pos nSize) := by
  unfold decodeLongString longStringFits amfDecodeLongString
  simp only [if_true, decide_eq_true_eq]
  by_cases hshort : nSize < 4
  · rw [if_neg (by omega), if_neg (by omega)]
    exact .doomed (.inl rfl) (.inl rfl)
  · rw [← amfDecodeInt32_agree (h.mono (Int.le_refl _) (by omega))]
    split_ifs with hfits
    · have hbytes : bytesAt mem (pos + 4) (toInt (amfDecodeInt32 mem pos)).toNat =
          bytesAt mem' (pos + 4) (toInt (amfDecodeInt32 mem pos)).toNat := by
        rw [toInt_of_lt (by omega) (by omega)]
        exact h.bytesAt_eq (by omega) (by omega)
      have hleft : toInt (nSize - (4 + amfDecodeInt32 mem pos)) =
          nSize - (4 + amfDecodeInt32 mem pos) := toInt_of_lt (by omega) (by omega)
      rw [hbytes, hleft]
      exact alike_ok _ (by omega) (by omega)
    · exact .doomed (.inl rfl) (.inl rfl)

/-- What is left behind a decoder of properties, whatever it is made into. -/
theorem nested_alike {r r' : Except Stop (AmfObject × ℤ)} (make : AmfObject → AmfData)
    {most : ℤ} (h : Alike nSize r r') (hmost : nSize ≤ most) :
    Alike most (nested make nSize (consumed nSize r)) (nested make nSize (consumed nSize r')) := by
  have hunfold : ∀ r : Except Stop (AmfObject × ℤ), nested make nSize (consumed nSize r) =
      r.bind fun r => if nSize - r.2 = -1 then .error .invalid
        else .ok (make r.1, nSize - (nSize - r.2)) := by
    intro r
    cases r <;> rfl
  rw [hunfold, hunfold]
  apply h.bind
  · intro v left hnonneg hleft
    rw [if_neg (by dsimp only; omega)]
    exact alike_ok _ (by dsimp only; omega) (by dsimp only; omega)
  · intro v left hneg
    suffices hdoomed : Doomed (if nSize - left = -1 then .error .invalid
        else .ok (make v, nSize - (nSize - left)) : Except Stop (AmfData × ℤ)) from
      ⟨hdoomed, hdoomed⟩
    split_ifs
    · exact .inl rfl
    · exact .inr ⟨make v, _, rfl, by omega⟩

/-- One case of the switch for each type: it reads no further than the bytes there are, or its
result is doomed whatever it reads. -/
theorem decodeValue_alike {props props' : ℤ → ℤ → Except Stop (AmfObject × ℤ)}
    {elements elements' : ℕ → ℤ → ℤ → Except Stop (AmfObject × ℤ)}
    (hnonneg : 0 ≤ nSize) (hint : nSize < 2 ^ 31) (h : AgreeOn mem mem' pos (pos + nSize))
    (hprops : ∀ q s, pos ≤ q → q + s = pos + nSize → Alike s (props q s) (props' q s))
    (helements : ∀ n q s, pos ≤ q → q + s = pos + nSize →
      Alike s (elements n q s) (elements' n q s))
    (hover : ∀ n q s, s < 0 → Doomed (elements n q s) ∧ Doomed (elements' n q s))
    (type : UInt8) :
    Alike nSize
      (decodeValue mem true (fun q s => consumed s (props q s))
        (fun n q s => consumed s (elements n q s)) type pos nSize)
      (decodeValue mem' true (fun q s => consumed s (props' q s))
        (fun n q s => consumed s (elements' n q s)) type pos nSize) := by
  unfold decodeValue
  split
  · -- AMF_NUMBER
    split_ifs with hshort
    · exact .doomed (.inl rfl) (.inl rfl)
    · rw [amfDecodeNumber_agree (h.mono (Int.le_refl _) (by omega))]
      exact alike_ok _ (by omega) (by omega)
  · -- AMF_BOOLEAN
    split_ifs with hshort
    · exact .doomed (.inl rfl) (.inl rfl)
    · unfold amfDecodeBoolean
      rw [h pos (Int.le_refl _) (by omega)]
      exact alike_ok _ (by omega) (by omega)
  · -- AMF_STRING: its length is read before it is known that there are two bytes
    by_cases hshort : nSize < 2
    · dsimp only
      rw [if_pos (by omega), if_pos (by omega)]
      exact .doomed (.inl rfl) (.inl rfl)
    · dsimp only
      rw [← amfDecodeInt16_agree (h.mono (Int.le_refl _) (by omega))]
      split_ifs with hfits
      · exact .doomed (.inl rfl) (.inl rfl)
      · rw [amfDecodeString_agree h (by omega)]
        exact alike_ok _ (by omega) (by omega)
  · exact nested_alike _ (hprops pos nSize (Int.le_refl _) rfl) (Int.le_refl _)
  · exact alike_ok _ hnonneg (Int.le_refl _)
  · exact alike_ok _ hnonneg (Int.le_refl _)
  · exact alike_ok _ hnonneg (Int.le_refl _)
  · exact nested_alike _ (hprops (pos + 4) (nSize - 4) (by omega) (by omega)) (by omega)
  · -- AMF_STRICT_ARRAY: without four bytes the number of elements is not the body's
    by_cases hshort : nSize < 4
    · apply nested_alike _ _ (by omega)
      exact .doomed (hover _ _ _ (by omega)).1 (hover _ _ _ (by omega)).2
    · rw [← amfDecodeInt32_agree (h.mono (Int.le_refl _) (by omega))]
      exact nested_alike _ (helements _ (pos + 4) (nSize - 4) (by omega) (by omega)) (by omega)
  · -- AMF_DATE
    split_ifs with hshort
    · exact .doomed (.inl rfl) (.inl rfl)
    · rw [amfDecodeNumber_agree (h.mono (Int.le_refl _) (by omega)),
        amfDecodeInt16_agree (h.mono (by omega) (by omega))]
      exact alike_ok _ (by omega) (by omega)
  · exact decodeLongString_alike _ hnonneg hint h
  · exact decodeLongString_alike _ hnonneg hint h
  · exact alike_stop _ (fun h => Stop.noConfusion h)
  · exact alike_stop _ (fun h => Stop.noConfusion h)

/-- Behind the end of the bytes an array only ends in an error or leaves less than nothing. -/
theorem decodeElements_over (mem : ℤ → UInt8) (long64 : Bool) {fuel : ℕ} (hfuel : 1 ≤ fuel)
    (n : ℕ) (pos : ℤ) (hneg : nSize < 0) :
    Doomed (decodeElements mem long64 fuel n pos nSize) := by
  cases fuel with
  | zero => omega
  | succ fuel =>
    cases n with
    | zero =>
      rw [decodeElements]
      exact .inr ⟨.nil, nSize, rfl, hneg⟩
    | succ n =>
      rw [decodeElements, if_pos (by omega)]
      exact .inl rfl

end Agree

/-- What a decoded property leaves. -/
def propLeft (nSize : ℤ) (r : Except Stop ((List UInt8 × AmfData) × ℤ)) :
    Except Stop ((List UInt8 × AmfData) × ℤ) :=
  r.map fun p => (p.1, nSize - p.2)

section Decoders
variable {mem mem' : ℤ → UInt8} {fuel : ℕ} {pos nSize : ℤ}

theorem bind_propLeft {α : Type} (nSize : ℤ) (r : Except Stop ((List UInt8 × AmfData) × ℤ))
    (f : (List UInt8 × AmfData) × ℤ → Except Stop α) :
    r.bind f = (propLeft nSize r).bind fun p => f (p.1, nSize - p.2) := by
  cases r with
  | error e => rfl
  | ok p =>
    show f p = f (p.1, nSize - (nSize - p.2))
    rw [Int.sub_sub_self]

theorem propLeft_map (nSize : ℤ) (name : List UInt8) (r : Except Stop (AmfData × ℤ)) :
    propLeft nSize (r.map fun v => ((name, v.1), nSize - v.2)) =
      r.map fun v => ((name, v.1), v.2) := by
  cases r with
  | error e => rfl
  | ok v =>
    show Except.ok ((name, v.1), nSize - (nSize - v.2)) = Except.ok ((name, v.1), v.2)
    rw [Int.sub_sub_self]

/-- `AMFProp_Decode`, from the two loops with less fuel. -/
theorem amfPropDecode_alike
    (hprops : ∀ (named : Bool) (q s : ℤ), s < 2 ^ 31 → 1 ≤ fuel → 2 * s + 1 ≤ fuel →
      AgreeOn mem mem' q (q + s) →
      Alike s (decodeProps mem true fuel named q s) (decodeProps mem' true fuel named q s))
    (helements : ∀ (n : ℕ) (q s : ℤ), s < 2 ^ 31 → 1 ≤ fuel → 2 * s + 1 ≤ fuel →
      AgreeOn mem mem' q (q + s) →
      Alike s (decodeElements mem true fuel n q s) (decodeElements mem' true fuel n q s))
    (named : Bool) (hpos : 0 < nSize) (hint : nSize < 2 ^ 31) (hfuel : 2 * nSize ≤ fuel + 1)
    (h : AgreeOn mem mem' pos (pos + nSize)) :
    Alike (nSize - 1) (propLeft nSize (amfPropDecode mem true (fuel + 1) named pos nSize))
      (propLeft nSize (amfPropDecode mem' true (fuel + 1) named pos nSize)) := by
  rw [amfPropDecode, amfPropDecode, ← decodeName_agree named hpos h]
  cases hname : decodeName mem named pos nSize with
  | error e =>
    exact alike_stop _ fun he => decodeName_ne_fuel mem named pos nSize (by rw [hname, he])
  | ok r =>
    obtain ⟨name, pos', left⟩ := r
    obtain ⟨hle, hsum, hleft⟩ := decodeName_left hname hpos
    show Alike (nSize - 1) (propLeft nSize (Except.map _ _)) (propLeft nSize (Except.map _ _))
    rw [propLeft_map, propLeft_map, ← h pos' hle (by omega)]
    have hinside : AgreeOn mem mem' (pos' + 1) (pos' + 1 + (left - 1)) :=
      h.mono (by omega) (by omega)
    have hvalue := decodeValue_alike (by omega) (by omega) hinside
      (fun q s hq hs => hprops true q s (by omega) (by omega) (by omega)
        (hinside.mono hq (by omega)))
      (fun n q s hq hs => helements n q s (by omega) (by omega) (by omega)
        (hinside.mono hq (by omega)))
      (fun n q s hs => ⟨decodeElements_over mem true (by omega) n q hs,
        decodeElements_over mem' true (by omega) n q hs⟩) (mem pos')
    exact (hvalue.map (Prod.mk name)).mono (by omega)

/-- The loop of `AMF_Decode`, from its step with less fuel. -/
theorem decodeProps_alike {named : Bool}
    (hprop : ∀ q s : ℤ, 0 < s → s < 2 ^ 31 → 2 * s ≤ fuel → AgreeOn mem mem' q (q + s) →
      Alike (s - 1) (propLeft s (amfPropDecode mem true fuel named q s))
        (propLeft s (amfPropDecode mem' true fuel named q s)))
    (hprops : ∀ q s : ℤ, s < 2 ^ 31 → 1 ≤ fuel → 2 * s + 1 ≤ fuel → AgreeOn mem mem' q (q + s) →
      Alike s (decodeProps mem true fuel named q s) (decodeProps mem' true fuel named q s))
    (hint : nSize < 2 ^ 31) (hfuel : 2 * nSize + 1 ≤ fuel + 1)
    (h : AgreeOn mem mem' pos (pos + nSize)) :
    Alike nSize (decodeProps mem true (fuel + 1) named pos nSize)
      (decodeProps mem' true (fuel + 1) named pos nSize) := by
  rw [decodeProps, decodeProps]
  by_cases hend : nSize ≤ 0
  · rw [if_pos hend, if_pos hend]
    by_cases hzero : nSize = 0
    · exact alike_ok _ (by omega) (Int.le_refl _)
    · have hdoomed : Doomed (.ok (.nil, nSize) : Except Stop (AmfObject × ℤ)) :=
        .inr ⟨.nil, nSize, rfl, by omega⟩
      exact .doomed hdoomed hdoomed
  · have hmark : (3 ≤ nSize ∧ amfDecodeInt24 mem pos = 0x09) =
        (3 ≤ nSize ∧ amfDecodeInt24 mem' pos = 0x09) := by
      apply propext
      apply and_congr_right
      intro hthree
      rw [amfDecodeInt24_agree (h.mono (Int.le_refl _) (by omega))]
    simp only [if_neg hend, hmark]
    split_ifs with hfound
    · exact alike_ok _ (by omega) (by omega)
    · rw [bind_propLeft nSize (amfPropDecode mem true fuel named pos nSize),
        bind_propLeft nSize (amfPropDecode mem' true fuel named pos nSize)]
      apply (hprop pos nSize (by omega) hint (by omega) h).bind
      · intro p left hnonneg hleft
        dsimp only
        rw [if_neg (by omega), if_neg (by omega), Int.sub_sub_self]
        apply Alike.map
        exact (hprops _ left (by omega) (by omega) (by omega)
          (h.mono (by omega) (by omega))).mono (by omega)
      · intro p left hneg
        dsimp only
        rw [if_pos (by omega), if_pos (by omega)]
        exact ⟨.inl rfl, .inl rfl⟩

/-- The loop of `AMF_DecodeArray`, from its step with less fuel. -/
theorem decodeElements_alike
    (hprop : ∀ q s : ℤ, 0 < s → s < 2 ^ 31 → 2 * s ≤ fuel → AgreeOn mem mem' q (q + s) →
      Alike (s - 1) (propLeft s (amfPropDecode mem true fuel false q s))
        (propLeft s (amfPropDecode mem' true fuel false q s)))
    (helements : ∀ (n : ℕ) (q s : ℤ), s < 2 ^ 31 → 1 ≤ fuel → 2 * s + 1 ≤ fuel →
      AgreeOn mem mem' q (q + s) →
      Alike s (decodeElements mem true fuel n q s) (decodeElements mem' true fuel n q s))
    (n : ℕ) (hint : nSize < 2 ^ 31) (hfuel : 2 * nSize + 1 ≤ fuel + 1)
    (h : AgreeOn mem mem' pos (pos + nSize)) :
    Alike nSize (decodeElements mem true (fuel + 1) n pos nSize)
      (decodeElements mem' true (fuel + 1) n pos nSize) := by
  cases n with
  | zero =>
    rw [decodeElements, decodeElements]
    by_cases hneg : nSize < 0
    · have hdoomed : Doomed (.ok (.nil, nSize) : Except Stop (AmfObject × ℤ)) :=
        .inr ⟨.nil, nSize, rfl, hneg⟩
      exact .doomed hdoomed hdoomed
    · exact alike_ok _ (by omega) (Int.le_refl _)
  | succ n =>
    rw [decodeElements, decodeElements]
    by_cases hend : nSize ≤ 0
    · rw [if_pos hend, if_pos hend]
      exact .doomed (.inl rfl) (.inl rfl)
    · rw [if_neg hend, if_neg hend,
        bind_propLeft nSize (amfPropDecode mem true fuel false pos nSize),
        bind_propLeft nSize (amfPropDecode mem' true fuel false pos nSize)]
      apply (hprop pos nSize (by omega) hint (by omega) h).bind
      · intro p left hnonneg hleft
        dsimp only
        rw [if_neg (by omega), if_neg (by omega), Int.sub_sub_self]
        apply Alike.map
        exact (helements n _ left (by omega) (by omega) (by omega)
          (h.mono (by omega) (by omega))).mono (by omega)
      · intro p left hneg
        dsimp only
        rw [Int.sub_sub_self]
        have hover : ∀ m, Doomed (if nSize - left = -1 then .error .invalid
            else (decodeElements m true fuel n (pos + (nSize - left)) left).map fun r =>
              (AmfObject.cons p.1 p.2 r.1, r.2)) := by
          intro m
          split_ifs
          · exact .inl rfl
          · exact (decodeElements_over m true (by omega) n _ hneg).map _
        exact ⟨hover mem, hover mem'⟩

/-- Induction over the fuel for the three decoders together. A property takes a byte at least, so
that two units of fuel for each byte and one more are enough. -/
theorem decoders_alike (mem mem' : ℤ → UInt8) (fuel : ℕ) :
    (∀ (named : Bool) (pos nSize : ℤ), 0 < nSize → nSize < 2 ^ 31 → 2 * nSize ≤ fuel →
      AgreeOn mem mem' pos (pos + nSize) →
      Alike (nSize - 1) (propLeft nSize (amfPropDecode mem true fuel named pos nSize))
        (propLeft nSize (amfPropDecode mem' true fuel named pos nSize))) ∧
    (∀ (named : Bool) (pos nSize : ℤ), nSize < 2 ^ 31 → 1 ≤ fuel → 2 * nSize + 1 ≤ fuel →
      AgreeOn mem mem' pos (pos + nSize) →
      Alike nSize (decodeProps mem true fuel named pos nSize)
        (decodeProps mem' true fuel named pos nSize)) ∧
    (∀ (n : ℕ) (pos nSize : ℤ), nSize < 2 ^ 31 → 1 ≤ fuel → 2 * nSize + 1 ≤ fuel →
      AgreeOn mem mem' pos (pos + nSize) →
      Alike nSize (decodeElements mem true fuel n pos nSize)
        (decodeElements mem' true fuel n pos nSize)) := by
  induction fuel with
  | zero =>
    refine ⟨fun _ _ _ hpos _ hfuel => ?_, fun _ _ _ _ hone => ?_, fun _ _ _ _ hone => ?_⟩
    · omega
    · omega
    · omega
  | succ fuel ih =>
    obtain ⟨ihprop, ihprops, ihelements⟩ := ih
    refine ⟨fun named pos nSize hpos hint hfuel h => ?_, fun named pos nSize hint _ hfuel h => ?_,
      fun n pos nSize hint _ hfuel h => ?_⟩
    · exact amfPropDecode_alike ihprops ihelements named hpos hint hfuel h
    · exact decodeProps_alike (ihprop named) (ihprops named) hint hfuel h
    · exact decodeElements_alike (ihprop false) ihelements n hint hfuel h

/-- The loop of `AMF_Decode` checks itself that it stays within the bytes. -/
theorem decodeProps_nonneg (long64 : Bool) {named : Bool} (hnonneg : 0 ≤ nSize) {v : AmfObject}
    {left : ℤ} (h : decodeProps mem long64 fuel named pos nSize = .ok (v, left)) : 0 ≤ left := by
  induction fuel generalizing pos nSize v with
  | zero =>
    rw [decodeProps] at h
    exact absurd h.symm (ok_ne_error _ _)
  | succ fuel ih =>
    rw [decodeProps] at h
    split_ifs at h with hend hfound
    · obtain ⟨-, rfl⟩ := Prod.mk.inj (Except.ok.inj h)
      exact hnonneg
    · obtain ⟨-, rfl⟩ := Prod.mk.inj (Except.ok.inj h)
      omega
    · cases hprop : amfPropDecode mem long64 fuel named pos nSize with
      | error e =>
        rw [hprop] at h
        exact absurd h.symm (ok_ne_error _ _)
      | ok p =>
        rw [hprop] at h
        change (if p.2 = -1 ∨ nSize - p.2 < 0 then Except.error Stop.invalid else _) = _ at h
        split_ifs at h with hover
        rw [not_or] at hover
        cases hrest : decodeProps mem long64 fuel named (pos + p.2) (nSize - p.2) with
        | error e =>
          rw [hrest] at h
          exact absurd h.symm (ok_ne_error _ _)
        | ok r =>
          rw [hrest] at h
          obtain ⟨-, rfl⟩ := Prod.mk.inj (Except.ok.inj h)
          exact ih (by omega) hrest

end Decoders

/-- With a `long` of 64 bits, `AMF_Decode` comes to an end on any body, takes no more bytes than
there are, and its result, with all names and strings in it, does not depend on what the memory
holds before or behind the body. -/
theorem amfDecode_inBounds {mem mem' : ℤ → UInt8} {pBuffer : ℤ} {nSize : ℕ}
    (hint : nSize < 2 ^ 31) (h : AgreeOn mem mem' pBuffer (pBuffer + nSize)) (bDecodeName : Bool)
    {fuel : ℕ} (hfuel : 2 * nSize + 1 ≤ fuel) :
    let r := amfDecode mem true fuel bDecodeName pBuffer nSize
    r = amfDecode mem' true fuel bDecodeName pBuffer nSize ∧ r ≠ .error .fuel ∧
      ∀ obj nRes, r = .ok (obj, nRes) → 0 ≤ nRes ∧ nRes ≤ nSize := by
  intro r
  have halike := (decoders_alike mem mem' fuel).2.1 bDecodeName pBuffer nSize
    (by omega) (by omega) (by omega) h
  have hend : ∀ m, Doomed (decodeProps m true fuel bDecodeName pBuffer nSize) →
      decodeProps m true fuel bDecodeName pBuffer nSize = .error .invalid := by
    intro m hdoomed
    obtain herror | ⟨v, left, hok, hneg⟩ := hdoomed
    · exact herror
    · have hnonneg := decodeProps_nonneg true (Int.natCast_nonneg nSize) hok
      omega
  unfold r amfDecode
  cases halike with
  | same heq hfuel hleft =>
    rw [← heq]
    refine ⟨rfl, fun hr => ?_, fun obj nRes hr => ?_⟩
    · cases hcase : decodeProps mem true fuel bDecodeName pBuffer nSize with
      | error e =>
        rw [hcase] at hr
        exact hfuel (by rw [hcase, Except.error.inj hr])
      | ok p =>
        rw [hcase] at hr
        exact ok_ne_error _ _ hr
    · cases hcase : decodeProps mem true fuel bDecodeName pBuffer nSize with
      | error e =>
        rw [hcase] at hr
        exact absurd hr.symm (ok_ne_error _ _)
      | ok p =>
        rw [hcase] at hr
        obtain ⟨-, rfl⟩ := Prod.mk.inj (Except.ok.inj hr)
        obtain ⟨hnonneg, hmost⟩ := hleft p.1 p.2 hcase
        omega
  | doomed hr hr' =>
    rw [hend mem hr, hend mem' hr']
    refine ⟨rfl, fun h => ?_, fun obj nRes h => ?_⟩
    · exact Stop.noConfusion (Except.error.inj h)
    · exact absurd h.symm (ok_ne_error _ _)

theorem amfDecode_inBounds_sample :
    let r := amfDecode (load [0x02, 0x00, 0x01, 0x61, 0x05]) true 9 false 0 4
    r = amfDecode (load [0x02, 0x00, 0x01, 0x61]) true 9 false 0 4 ∧ r ≠ .error .fuel ∧
      ∀ obj nRes, r = .ok (obj, nRes) → 0 ≤ nRes ∧ nRes ≤ 4 := by
  have hagree : AgreeOn (load [0x02, 0x00, 0x01, 0x61, 0x05]) (load [0x02, 0x00, 0x01, 0x61])
      0 (0 + (4 : ℕ)) := by
    intro i hlo hhi
    obtain rfl | rfl | rfl | rfl : i = 0 ∨ i = 1 ∨ i = 2 ∨ i = 3 := by omega
    all_goals rfl
  exact amfDecode_inBounds (by decide) hagree false (by decide)

end ObsBeacon.Rtmp
