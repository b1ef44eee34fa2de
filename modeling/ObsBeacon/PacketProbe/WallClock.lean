import ObsBeacon.PacketProbe.Injection

/-! The two numbers `onPacket` hands to `injectSei`: the mapping of monotonic stamps to the
wall clock, without wrap-around, and how the two split the time up to egress. -/
namespace ObsBeacon.PacketProbe

/-- A stamp that is set, not in the future, and later than the wall clock's epoch. -/
structure Mapped (clock : Clock) (x : UInt64) : Prop where
  set : 0 < x
  past : x ≤ clock.monoNow
  epoch : clock.monoNow.toNat - x.toNat < clock.wallNow.toNat

/-- The time since the epoch, in nanoseconds, at which a stamp was taken. -/
def wallNs (clock : Clock) (x : UInt64) : ℕ :=
  clock.wallNow.toNat - (clock.monoNow.toNat - x.toNat)

/-! The mapping with every subtraction checked: `none` is a wrap-around. -/
section Checked

def checkedSub (a b : UInt64) : Option UInt64 := if b ≤ a then some (a - b) else none

def checkedToWall (clock : Clock) (x : UInt64) : Option UInt64 :=
  if x ≠ 0 ∧ x ≤ clock.monoNow then
    (checkedSub clock.monoNow x).bind (checkedSub clock.wallNow ·)
  else some 0

def checkedTEncodeMs (clock : Clock) (time : Option EncoderPacketTime) : Option UInt64 := do
  let tCaptureNs ←
    match time with
    | none => some clock.wallNow
    | some t => do
      let wall ← checkedToWall clock t.cts
      if wall ≠ 0 then some wall else some clock.wallNow
  return tCaptureNs / 1000000

def checkedSourceLatencyMs : Option EncoderPacketTime → Option UInt64
  | none => some 0
  | some t =>
    if usable t.cts t.pir then (checkedSub t.pir t.cts).map (· / 1000000) else some 0

end Checked

section Mapping
variable {clock : Clock} {x : UInt64} {t : EncoderPacketTime}

theorem toWall_toNat (hset : x ≠ 0) (hpast : x ≤ clock.monoNow)
    (hepoch : clock.monoNow.toNat - x.toNat ≤ clock.wallNow.toNat) :
    (toWall clock x).toNat = wallNs clock x := by
  have hage := UInt64.toNat_sub_of_le clock.monoNow x hpast
  have hle : clock.monoNow - x ≤ clock.wallNow := by
    rw [UInt64.le_iff_toNat_le, hage]
    exact hepoch
  rw [toWall, if_pos ⟨hset, hpast⟩, UInt64.toNat_sub_of_le _ _ hle, hage, wallNs]

theorem Mapped.ne_zero (h : Mapped clock x) : x ≠ 0 := by
  rintro rfl
  exact absurd h.set (by decide)

theorem Mapped.toWall (h : Mapped clock x) :
    (PacketProbe.toWall clock x).toNat = wallNs clock x ∧ PacketProbe.toWall clock x ≠ 0 := by
  have hval := toWall_toNat h.ne_zero h.past h.epoch.le
  have hepoch := h.epoch
  refine ⟨hval, fun hzero => ?_⟩
  rw [hzero, wallNs, UInt64.toNat_zero] at hval
  omega

theorem tEncodeMs_toNat (h : Mapped clock t.cts) :
    (tEncodeMs clock (some t)).toNat = wallNs clock t.cts / 1000000 := by
  obtain ⟨hval, hne⟩ := h.toWall
  simp only [tEncodeMs, if_pos hne, UInt64.toNat_div, hval]
  rfl

theorem sourceLatencyMs_toNat (h : usable t.cts t.pir = true) :
    (sourceLatencyMs (some t)).toNat = (t.pir.toNat - t.cts.toNat) / 1000000 := by
  have hle : t.cts ≤ t.pir := by
    simp only [usable, Bool.and_eq_true, decide_eq_true_eq] at h
    exact h.2
  simp only [sourceLatencyMs, if_pos h, UInt64.toNat_div, UInt64.toNat_sub_of_le _ _ hle]
  rfl

theorem checkedTEncodeMs_eq (h : Mapped clock t.cts) :
    checkedTEncodeMs clock (some t) = some (tEncodeMs clock (some t)) := by
  have hle : clock.monoNow - t.cts ≤ clock.wallNow := by
    rw [UInt64.le_iff_toNat_le, UInt64.toNat_sub_of_le _ _ h.past]
    exact h.epoch.le
  have hwall : checkedToWall clock t.cts = some (toWall clock t.cts) := by
    simp [checkedToWall, toWall, h.ne_zero, h.past, checkedSub, hle]
  simp [checkedTEncodeMs, tEncodeMs, hwall, h.toWall.2]

theorem checkedSourceLatencyMs_eq (time : Option EncoderPacketTime) :
    checkedSourceLatencyMs time = some (sourceLatencyMs time) := by
  cases time with
  | none => rfl
  | some t =>
    by_cases h : usable t.cts t.pir = true
    · have hle : t.cts ≤ t.pir := by
        simp only [usable, Bool.and_eq_true, decide_eq_true_eq] at h
        exact h.2
      simp [checkedSourceLatencyMs, sourceLatencyMs, h, checkedSub, hle]
    · simp [checkedSourceLatencyMs, sourceLatencyMs, h]

/-- Composition and egress of one frame: the split is exact to a millisecond. -/
theorem split_exact (h : Mapped clock t.cts) (horder : t.cts ≤ t.pir)
    (hpast : t.pir ≤ clock.monoNow) :
    (tEncodeMs clock (some t)).toNat + (sourceLatencyMs (some t)).toNat ≤
        wallNs clock t.pir / 1000000 ∧
      wallNs clock t.pir / 1000000 ≤
        (tEncodeMs clock (some t)).toNat + (sourceLatencyMs (some t)).toNat + 1 := by
  have hset : t.cts ≠ 0 := h.ne_zero
  have hepoch := h.epoch
  have hpir : t.pir ≠ 0 := by
    rintro hzero
    rw [hzero] at horder
    exact hset (UInt64.le_zero_iff.mp horder)
  have hu : usable t.cts t.pir = true := by simp [usable, hset, hpir, horder]
  rw [tEncodeMs_toNat h, sourceLatencyMs_toNat hu, wallNs, wallNs]
  rw [UInt64.le_iff_toNat_le] at horder hpast
  omega

/-- Two stamps mapped by clocks that are the same distance apart. -/
theorem tEncodeMs_pair {clock' : Clock} {t' : EncoderPacketTime} (h : Mapped clock t.cts)
    (h' : Mapped clock' t'.cts)
    (hoffset : (clock.wallNow.toNat : ℤ) - clock.monoNow.toNat =
      clock'.wallNow.toNat - clock'.monoNow.toNat) (hle : t.cts ≤ t'.cts) :
    (tEncodeMs clock (some t)).toNat + (t'.cts.toNat - t.cts.toNat) / 1000000 ≤
        (tEncodeMs clock' (some t')).toNat ∧
      (tEncodeMs clock' (some t')).toNat ≤
        (tEncodeMs clock (some t)).toNat + (t'.cts.toNat - t.cts.toNat) / 1000000 + 1 := by
  have hpast := h.past
  have hpast' := h'.past
  have hepoch := h.epoch
  have hepoch' := h'.epoch
  rw [UInt64.le_iff_toNat_le] at hle hpast hpast'
  rw [tEncodeMs_toNat h, tEncodeMs_toNat h', wallNs, wallNs]
  omega

/-- Whatever the timing structure, the payload is not in the future. -/
theorem tEncodeMs_le (time : Option EncoderPacketTime)
    (hepoch : ∀ t ∈ time, t.cts ≠ 0 → t.cts ≤ clock.monoNow →
      clock.monoNow.toNat - t.cts.toNat ≤ clock.wallNow.toNat) :
    (tEncodeMs clock time).toNat ≤ clock.wallNow.toNat / 1000000 := by
  cases time with
  | none => simp [tEncodeMs]
  | some t =>
    simp only [tEncodeMs]
    split_ifs with hwall
    · have hset : t.cts ≠ 0 ∧ t.cts ≤ clock.monoNow := by
        by_contra hno
        exact hwall (by rw [toWall, if_neg hno])
      have hval := toWall_toNat hset.1 hset.2 (hepoch t rfl hset.1 hset.2)
      rw [UInt64.toNat_div, hval]
      exact Nat.div_le_div_right (Nat.sub_le _ _)
    · simp

theorem sourceLatencyMs_of_unusable (time : Option EncoderPacketTime)
    (h : ∀ t ∈ time, usable t.cts t.pir = false) : sourceLatencyMs time = 0 := by
  cases time with
  | none => rfl
  | some t => simp [sourceLatencyMs, h t rfl]

end Mapping

/-- The payload and the source latency `onPacket` writes. For a frame composed and sent in
this order, both since the epoch, they split its egress time without wrap-around and exact
to 1 ms; payloads of frames mapped with one offset keep their distance to 1 ms; whatever
the timing structure, the payload is not in the future. -/
theorem wallClock_consistent :
    (∀ p pkt time clock, pkt.type = .video → injects p pkt = true →
      (onPacket p (some pkt) time clock).2.1 =
        some (injectSei pkt (tEncodeMs clock time) (sourceLatencyMs time))) ∧
    (∀ (clock : Clock) (t : EncoderPacketTime), Mapped clock t.cts → t.cts ≤ t.pir →
      t.pir ≤ clock.monoNow →
      let payload := tEncodeMs clock (some t)
      let latency := sourceLatencyMs (some t)
      let egress := (clock.wallNow.toNat - (clock.monoNow.toNat - t.pir.toNat)) / 1000000
      checkedTEncodeMs clock (some t) = some payload ∧
        checkedSourceLatencyMs (some t) = some latency ∧
        payload.toNat ≤ clock.wallNow.toNat / 1000000 ∧
        payload.toNat + latency.toNat ≤ egress ∧
        egress ≤ payload.toNat + latency.toNat + 1) ∧
    (∀ (clock clock' : Clock) (t t' : EncoderPacketTime), Mapped clock t.cts →
      Mapped clock' t'.cts →
      (clock.wallNow.toNat : ℤ) - clock.monoNow.toNat =
        clock'.wallNow.toNat - clock'.monoNow.toNat → t.cts ≤ t'.cts →
      let payload := (tEncodeMs clock (some t)).toNat
      let payload' := (tEncodeMs clock' (some t')).toNat
      let apart := (t'.cts.toNat - t.cts.toNat) / 1000000
      payload + apart ≤ payload' ∧ payload' ≤ payload + apart + 1) ∧
    (∀ (clock : Clock) (time : Option EncoderPacketTime),
      (∀ t ∈ time, t.cts ≠ 0 → t.cts ≤ clock.monoNow →
        clock.monoNow.toNat - t.cts.toNat ≤ clock.wallNow.toNat) →
      (tEncodeMs clock time).toNat ≤ clock.wallNow.toNat / 1000000 ∧
        (∀ t ∈ time, usable t.cts t.pir = true →
          (sourceLatencyMs time).toNat = (t.pir.toNat - t.cts.toNat) / 1000000) ∧
        ((∀ t ∈ time, usable t.cts t.pir = false) → sourceLatencyMs time = 0)) := by
  refine ⟨?_, ?_, ?_, ?_⟩
  · intro p pkt time clock hvideo hinj
    rw [onPacket_packet, if_pos ⟨hvideo, hinj⟩]
  · intro clock t hmapped horder hpast payload latency egress
    have hepoch : ∀ u ∈ some t, u.cts ≠ 0 → u.cts ≤ clock.monoNow →
        clock.monoNow.toNat - u.cts.toNat ≤ clock.wallNow.toNat := by
      rintro u ⟨⟩ - -
      exact hmapped.epoch.le
    have hsplit := split_exact hmapped horder hpast
    exact ⟨checkedTEncodeMs_eq hmapped, checkedSourceLatencyMs_eq _,
      tEncodeMs_le (some t) hepoch, hsplit⟩
  · intro clock clock' t t' h h' hoffset hle
    exact tEncodeMs_pair h h' hoffset hle
  · intro clock time hepoch
    refine ⟨tEncodeMs_le time hepoch, ?_, sourceLatencyMs_of_unusable time⟩
    rintro t rfl hu
    exact sourceLatencyMs_toNat hu

end ObsBeacon.PacketProbe
