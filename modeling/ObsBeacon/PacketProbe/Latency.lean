import ObsBeacon.Lib.FloorMean
import ObsBeacon.PacketProbe.Sessions

/-! The latency summary of a window against its reference definition: rounded-down means,
extremes and the breakdown into parts, over the packets with usable stamps. -/
namespace ObsBeacon.PacketProbe
open FloorMean Windows

/-- Stamps of a packet that passed composition, encoder and interleaver in this order. -/
structure Ordered (t : EncoderPacketTime) : Prop where
  cts : 0 < t.cts
  fer : t.cts ≤ t.fer
  ferc : t.fer ≤ t.ferc
  pir : t.ferc ≤ t.pir

def unset : EncoderPacketTime := ⟨0, 0, 0, 0⟩

/-- Every packet with a stamp at all has them set and in order. -/
def AllOrdered (ds : List Delivery) : Prop := ∀ d ∈ ds, ∀ t ∈ d.time, t ≠ unset → Ordered t

/-- The four sums of a window fit in 64 bits. -/
structure SumsFit (ds : List Delivery) : Prop where
  c2e : (intervals (·.cts) (·.pir) ds).sum < UInt64.size
  r2s : (intervals (·.cts) (·.fer) ds).sum < UInt64.size
  enc : (intervals (·.fer) (·.ferc) ds).sum < UInt64.size
  p2i : (intervals (·.ferc) (·.pir) ds).sum < UInt64.size

/-- The reference definition of the statistics of a window with usable latencies. -/
structure ExactSummary (ds : List Delivery) (s : ProbeStats) : Prop where
  inObs : s.inObsNs.toNat = floorMean (intervals (·.cts) (·.pir) ds)
  renderToSubmit : s.renderToSubmitNs.toNat = floorMean (intervals (·.cts) (·.fer) ds)
  encode : s.encodeNs.toNat = floorMean (intervals (·.fer) (·.ferc) ds)
  toInterleave : s.toInterleaveNs.toNat = floorMean (intervals (·.ferc) (·.pir) ds)
  min : IsLeast {x | x ∈ intervals (·.cts) (·.pir) ds} s.minNs.toNat
  max : IsGreatest {x | x ∈ intervals (·.cts) (·.pir) ds} s.maxNs.toNat
  between : s.minNs ≤ s.inObsNs ∧ s.inObsNs ≤ s.maxNs
  parts : AllOrdered ds →
    s.renderToSubmitNs.toNat + s.encodeNs.toNat + s.toInterleaveNs.toNat ≤ s.inObsNs.toNat ∧
      s.inObsNs.toNat ≤
        s.renderToSubmitNs.toNat + s.encodeNs.toNat + s.toInterleaveNs.toNat + 2

section Reference
variable {ds : List Delivery} {lengths : List ℕ}

theorem meanOf_toNat (h : lengths.sum < UInt64.size) :
    (meanOf lengths).toNat = floorMean lengths := by
  have hdiv : lengths.sum / lengths.length < UInt64.size :=
    lt_of_le_of_lt (Nat.div_le_self _ _) h
  unfold meanOf average quotient
  split_ifs with hpos
  · rw [UInt64.toNat_ofNat_of_lt' h, UInt64.toNat_ofNat_of_lt' hdiv, floorMean]
  · obtain rfl := List.eq_nil_of_length_eq_zero (Nat.eq_zero_of_not_pos hpos)
    rfl

theorem isLeast_min? (hne : lengths ≠ []) (hfit : ∀ x ∈ lengths, x < UInt64.size) :
    IsLeast {x | x ∈ lengths} (UInt64.ofNat (lengths.min?.getD 0)).toNat := by
  cases hm : lengths.min? with
  | none => exact absurd (List.min?_eq_none_iff.mp hm) hne
  | some m =>
    obtain ⟨hmem, hle⟩ := List.min?_eq_some_iff.mp hm
    rw [Option.getD_some, UInt64.toNat_ofNat_of_lt' (hfit m hmem)]
    exact ⟨hmem, fun x hx => hle x hx⟩

theorem isGreatest_max? (hne : lengths ≠ []) (hfit : ∀ x ∈ lengths, x < UInt64.size) :
    IsGreatest {x | x ∈ lengths} (UInt64.ofNat (lengths.max?.getD 0)).toNat := by
  cases hm : lengths.max? with
  | none => exact absurd (List.max?_eq_none_iff.mp hm) hne
  | some m =>
    obtain ⟨hmem, hle⟩ := List.max?_eq_some_iff.mp hm
    rw [Option.getD_some, UInt64.toNat_ofNat_of_lt' (hfit m hmem)]
    exact ⟨hmem, fun x hx => hle x hx⟩

/-- The stamps of the packets that have any. -/
def stamps (ds : List Delivery) : List EncoderPacketTime :=
  ds.filterMap fun d => d.time.filter fun t => t ≠ unset

theorem mem_stamps {t : EncoderPacketTime} (h : t ∈ stamps ds) :
    t ≠ unset ∧ ∃ d ∈ ds, t ∈ d.time := by
  obtain ⟨d, hd, ht⟩ := List.mem_filterMap.mp h
  rw [Option.filter_eq_some_iff] at ht
  exact ⟨by simpa using ht.2, d, hd, ht.1⟩

/-- With the stamps in order, every interval is taken over the same packets. -/
theorem intervals_of_ordered (h : AllOrdered ds) (start stop : EncoderPacketTime → UInt64)
    (hunset : usable (start unset) (stop unset) = false)
    (hset : ∀ t, Ordered t → usable (start t) (stop t) = true) :
    intervals start stop ds = (stamps ds).map fun t => (stop t).toNat - (start t).toNat := by
  rw [intervals, stamps, List.map_filterMap]
  apply List.filterMap_congr
  intro d hd
  cases ht : d.time with
  | none => simp [Delivery.interval, ht]
  | some t =>
    by_cases hu : t = unset
    · subst hu
      simp [Delivery.interval, ht, hunset]
    · have hord := h d hd t ht hu
      simp [Delivery.interval, ht, hset t hord, hu]

theorem Ordered.usable_all {t : EncoderPacketTime} (h : Ordered t) :
    usable t.cts t.pir = true ∧ usable t.cts t.fer = true ∧ usable t.fer t.ferc = true ∧
      usable t.ferc t.pir = true := by
  obtain ⟨h0, h1, h2, h3⟩ := h
  simp only [usable, Bool.and_eq_true, decide_eq_true_eq, ne_eq, ← UInt64.toNat_inj,
    UInt64.le_iff_toNat_le, UInt64.lt_iff_toNat_lt] at *
  simp only [UInt64.toNat_zero] at *
  omega

/-- The three parts of a latency add up to it, packet by packet. -/
theorem Ordered.telescope {t : EncoderPacketTime} (h : Ordered t) :
    t.pir.toNat - t.cts.toNat =
      (t.fer.toNat - t.cts.toNat) + (t.ferc.toNat - t.fer.toNat) +
        (t.pir.toNat - t.ferc.toNat) := by
  obtain ⟨-, h1, h2, h3⟩ := h
  rw [UInt64.le_iff_toNat_le] at h1 h2 h3
  omega

theorem floorMean_parts (h : AllOrdered ds) :
    let r2s := floorMean (intervals (·.cts) (·.fer) ds)
    let enc := floorMean (intervals (·.fer) (·.ferc) ds)
    let p2i := floorMean (intervals (·.ferc) (·.pir) ds)
    r2s + enc + p2i ≤ floorMean (intervals (·.cts) (·.pir) ds) ∧
      floorMean (intervals (·.cts) (·.pir) ds) ≤ r2s + enc + p2i + 2 := by
  intro r2s enc p2i
  have hr2s : r2s = _ := congrArg floorMean
    (intervals_of_ordered h (·.cts) (·.fer) rfl fun t ht => ht.usable_all.2.1)
  have henc : enc = _ := congrArg floorMean
    (intervals_of_ordered h (·.fer) (·.ferc) rfl fun t ht => ht.usable_all.2.2.1)
  have hp2i : p2i = _ := congrArg floorMean
    (intervals_of_ordered h (·.ferc) (·.pir) rfl fun t ht => ht.usable_all.2.2.2)
  have htotal := intervals_of_ordered h (·.cts) (·.pir) rfl fun t ht => ht.usable_all.1
  have htele : (stamps ds).map (fun t => t.pir.toNat - t.cts.toNat) =
      (stamps ds).map fun t =>
        (t.fer.toNat - t.cts.toNat) + (t.ferc.toNat - t.fer.toNat) +
          (t.pir.toNat - t.ferc.toNat) := by
    apply List.map_congr_left
    intro t ht
    obtain ⟨hset, d, hd, hmem⟩ := mem_stamps ht
    exact (h d hd t hmem hset).telescope
  rw [htotal, htele, hr2s, henc, hp2i]
  have h1 := floorMean_add (stamps ds) (fun t => t.fer.toNat - t.cts.toNat)
    fun t => t.ferc.toNat - t.fer.toNat
  have h2 := floorMean_add (stamps ds)
    (fun t => (t.fer.toNat - t.cts.toNat) + (t.ferc.toNat - t.fer.toNat))
    fun t => t.pir.toNat - t.ferc.toNat
  omega

theorem closedStats_exact {w : ClosedWindow} (hfit : SumsFit w.items) {s : ProbeStats}
    (h : closedStats w = some s) : ExactSummary w.items s := by
  have hne : intervals (·.cts) (·.pir) w.items ≠ [] := by
    intro hempty
    simp [closedStats, hempty] at h
  simp only [closedStats, if_neg hne, Option.some.injEq] at h
  have hc2e := meanOf_toNat hfit.c2e
  have hr2s := meanOf_toNat hfit.r2s
  have henc := meanOf_toNat hfit.enc
  have hp2i := meanOf_toNat hfit.p2i
  have hleast := isLeast_min? hne fun x hx => intervals_lt hx
  have hgreatest := isGreatest_max? hne fun x hx => intervals_lt hx
  subst h
  refine ⟨hc2e, hr2s, henc, hp2i, hleast, hgreatest, ⟨?_, ?_⟩, fun hord => ?_⟩
  · rw [UInt64.le_iff_toNat_le, hc2e]
    exact le_floorMean hne fun x hx => hleast.2 hx
  · rw [UInt64.le_iff_toNat_le, hc2e]
    exact floorMean_le fun x hx => hgreatest.2 hx
  · rw [hc2e, hr2s, henc, hp2i]
    exact floorMean_parts hord

end Reference

/-! `flush` once more with every integer division checked: `none` is a division by zero. -/
section Division
variable (p : Probe)

def checkedQuotient (sum : UInt64) (count : ℕ) : Option UInt64 :=
  if count = 0 then none else some (quotient sum count)

def checkedAverage (sum : UInt64) (count : ℕ) : Option UInt64 :=
  if 0 < count then checkedQuotient sum count else some 0

def checkedStats (elapsedNs : UInt64) : Option ProbeStats := do
  let r2s ← checkedAverage p.r2sSum p.r2sCount
  let enc ← checkedAverage p.encSum p.encCount
  let p2i ← checkedAverage p.p2iSum p.p2iCount
  let total ← checkedQuotient p.c2eSum p.c2eCount
  return {
    valid := true
    inObsNs := total
    renderToSubmitNs := r2s
    encodeNs := enc
    toInterleaveNs := p2i
    minNs := p.c2eMin
    maxNs := p.c2eMax
    frames := p.frames
    bytes := p.bytes
    elapsedNs := elapsedNs }

def checkedFlush (now : UInt64) : Option (Probe × ProbeLog) := do
  let elapsedNs := now - p.windowStart
  let latency ← if 0 < p.c2eCount then some <$> checkedStats p elapsedNs else some none
  return (resetWindow { p with latest := latency.getD p.latest } now,
    .window p.frames p.keyframes p.bytes elapsedNs latency)

theorem checkedAverage_eq (sum : UInt64) (count : ℕ) :
    checkedAverage sum count = some (average sum count) := by
  unfold checkedAverage average checkedQuotient
  split_ifs with hpos hzero
  · omega
  · rfl
  · rfl

theorem checkedFlush_eq (now : UInt64) : checkedFlush p now = some (flush p now) := by
  unfold checkedFlush flush
  by_cases hpos : 0 < p.c2eCount
  · have hstats (elapsedNs : UInt64) :
        checkedStats p elapsedNs = some (windowStats p elapsedNs) := by
      simp [checkedStats, checkedAverage_eq, checkedQuotient, hpos.ne', windowStats]
    simp [hpos, hstats]
  · simp [hpos]

end Division

/-- The statistics a summary line reports, if timing fields were available. -/
def ProbeLog.latency : ProbeLog → Option ProbeStats
  | .window _ _ _ _ latency => latency
  | _ => none

/-- The summary lines of a session stand for its closed windows in order. A line has no
latency exactly if its window has no usable one; else it has the exact summary, as far as
the sums of the window fit in 64 bits. No `flush` divides by zero. -/
theorem latency_summary (calls : List Call) :
    let r := calls.foldl Recording.step {}
    List.Forall₂
        (fun line w => (line.latency = none ↔ intervals (·.cts) (·.pir) w.items = []) ∧
          (SumsFit w.items → ∀ s ∈ line.latency, ExactSummary w.items s))
        (r.lines.filter ProbeLog.isWindow) (windows r.delivered).closed ∧
      ∀ p now, checkedFlush p now = some (flush p now) := by
  intro r
  have hacc : Accounted r := accounted_run calls
  refine ⟨?_, checkedFlush_eq⟩
  rw [hacc.lines, List.forall₂_map_left_iff, List.forall₂_same]
  intro w hw
  refine ⟨?_, fun hfit s hs => closedStats_exact hfit hs⟩
  by_cases hempty : intervals (·.cts) (·.pir) w.items = []
  · simp [closedLine, ProbeLog.latency, closedStats, hempty]
  · simp [closedLine, ProbeLog.latency, closedStats, hempty]

end ObsBeacon.PacketProbe
