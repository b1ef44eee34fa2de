import ObsBeacon.Lib.Windows
import ObsBeacon.PacketProbe.Probe
import Mathlib.Tactic

/-! The accumulator window of the probe: what each accumulator holds after the packets of
one window, and what `flush` logs and publishes of them. -/
namespace ObsBeacon.PacketProbe
open Windows

/-- A video packet as `onPacket` receives it, before any injection. -/
structure Delivery where
  pkt : EncoderPacket
  time : Option EncoderPacketTime

def Delivery.clock (d : Delivery) : UInt64 := windowClock d.time

/-- The guard of `flush`. -/
def closesWindow (start now : UInt64) : Bool := now ≠ 0 && kWindowNs ≤ now - start

abbrev Window := Opened Delivery UInt64
abbrev ClosedWindow := Closed Delivery UInt64

def windows (ds : List Delivery) : Cut Delivery UInt64 := cut Delivery.clock closesWindow ds

/-- The length in nanoseconds of an interval, if both its stamps are set and in order. -/
def Delivery.interval (start stop : EncoderPacketTime → UInt64) (d : Delivery) : Option ℕ :=
  d.time.bind fun t =>
    if usable (start t) (stop t) then some ((stop t).toNat - (start t).toNat) else none

def intervals (start stop : EncoderPacketTime → UInt64) (ds : List Delivery) : List ℕ :=
  ds.filterMap (Delivery.interval start stop)

/-- A running sum and its counter, over the lengths they were fed. -/
structure Tally (sum : UInt64) (count : ℕ) (lengths : List ℕ) : Prop where
  sum : sum = UInt64.ofNat lengths.sum
  count : count = lengths.length

/-- Every accumulator holds what the packets of one window amount to. -/
structure Measured (p : Probe) (ds : List Delivery) : Prop where
  frames : p.frames = ds.length
  keyframes : p.keyframes = ds.countP (·.pkt.keyframe)
  bytes : p.bytes = UInt64.ofNat (ds.map (·.pkt.size)).sum
  c2e : Tally p.c2eSum p.c2eCount (intervals (·.cts) (·.pir) ds)
  c2eMin : p.c2eMin = UInt64.ofNat ((intervals (·.cts) (·.pir) ds).min?.getD 0)
  c2eMax : p.c2eMax = UInt64.ofNat ((intervals (·.cts) (·.pir) ds).max?.getD 0)
  r2s : Tally p.r2sSum p.r2sCount (intervals (·.cts) (·.fer) ds)
  enc : Tally p.encSum p.encCount (intervals (·.fer) (·.ferc) ds)
  p2i : Tally p.p2iSum p.p2iCount (intervals (·.ferc) (·.pir) ds)

/-- The probe's open window is the given one, or there is none. -/
def Holds (p : Probe) : Option Window → Prop
  | none => p.haveWindow = false
  | some w => p.haveWindow = true ∧ p.windowStart = w.start ∧ Measured p w.items

/-- The average `flush` forms from the lengths of a window. -/
def meanOf (lengths : List ℕ) : UInt64 := average (UInt64.ofNat lengths.sum) lengths.length

/-- The `ProbeStats` of a closed window with usable timings. -/
def closedStats (w : ClosedWindow) : Option ProbeStats :=
  let c2e := intervals (·.cts) (·.pir) w.items
  if c2e = [] then none
  else
    some
      { valid := true
        inObsNs := meanOf c2e
        renderToSubmitNs := meanOf (intervals (·.cts) (·.fer) w.items)
        encodeNs := meanOf (intervals (·.fer) (·.ferc) w.items)
        toInterleaveNs := meanOf (intervals (·.ferc) (·.pir) w.items)
        minNs := UInt64.ofNat (c2e.min?.getD 0)
        maxNs := UInt64.ofNat (c2e.max?.getD 0)
        frames := w.items.length
        bytes := UInt64.ofNat (w.items.map (·.pkt.size)).sum
        elapsedNs := w.stop - w.start }

/-- The log line of a closed window. -/
def closedLine (w : ClosedWindow) : ProbeLog :=
  .window w.items.length (w.items.countP (·.pkt.keyframe))
    (UInt64.ofNat (w.items.map (·.pkt.size)).sum) (w.stop - w.start) (closedStats w)

def ProbeLog.isWindow : ProbeLog → Bool
  | .window _ _ _ _ _ => true
  | _ => false

section Accumulators
variable {p : Probe} {ds : List Delivery} {sum : UInt64} {count : ℕ} {lengths : List ℕ}

theorem intervals_concat (start stop : EncoderPacketTime → UInt64) (ds : List Delivery)
    (d : Delivery) :
    intervals start stop (ds ++ [d]) =
      intervals start stop ds ++ (d.interval start stop).toList := by
  cases h : d.interval start stop <;> simp [intervals, h]

theorem min?_concat (xs : List ℕ) (x : ℕ) :
    (xs ++ [x]).min? = some (xs.min?.elim x (min · x)) := by
  cases xs with
  | nil => rfl
  | cons y ys => simp only [List.cons_append, List.min?_cons', List.foldl_append]; rfl

theorem max?_concat (xs : List ℕ) (x : ℕ) :
    (xs ++ [x]).max? = some (xs.max?.elim x (max · x)) := by
  cases xs with
  | nil => rfl
  | cons y ys => simp only [List.cons_append, List.max?_cons', List.foldl_append]; rfl

theorem usable_le {a b : UInt64} (h : usable a b = true) : a ≤ b := by
  simp only [usable, Bool.and_eq_true, decide_eq_true_eq] at h
  exact h.2

/-- One more packet, timed: its length joins the window's if its stamps are usable. -/
theorem intervals_push (start stop : EncoderPacketTime → UInt64) (ds : List Delivery)
    (pkt : EncoderPacket) (t : EncoderPacketTime) :
    intervals start stop (ds ++ [⟨pkt, some t⟩]) =
      if usable (start t) (stop t) then
        intervals start stop ds ++ [(stop t - start t).toNat]
      else intervals start stop ds := by
  rw [intervals_concat]
  by_cases hu : usable (start t) (stop t) = true
  · have hval := UInt64.toNat_sub_of_le _ _ (usable_le hu)
    simp only [Delivery.interval, Option.bind_some, hu, if_true, Option.toList_some, hval]
  · simp [Delivery.interval, hu]

/-- One length's share of a running sum and its counter. -/
theorem Tally.push (h : Tally sum count lengths) (use : Bool) (a : UInt64) :
    Tally (if use then sum + a else sum) (if use then count + 1 else count)
      (if use then lengths ++ [a.toNat] else lengths) := by
  obtain ⟨hsum, hcount⟩ := h
  cases use with
  | false => exact ⟨hsum, hcount⟩
  | true =>
    constructor
    · simp only [if_true]
      rw [hsum, List.sum_append, List.sum_singleton, UInt64.ofNat_add, UInt64.ofNat_toNat]
    · simp [hcount]

theorem addTimings_some (p : Probe) (t : EncoderPacketTime) :
    addTimings p (some t) =
      { p with
        c2eSum := if usable t.cts t.pir then p.c2eSum + (t.pir - t.cts) else p.c2eSum
        c2eMin := if usable t.cts t.pir then
          if p.c2eCount = 0 ∨ t.pir - t.cts < p.c2eMin then t.pir - t.cts else p.c2eMin
          else p.c2eMin
        c2eMax := if usable t.cts t.pir then
          if p.c2eMax < t.pir - t.cts then t.pir - t.cts else p.c2eMax else p.c2eMax
        c2eCount := if usable t.cts t.pir then p.c2eCount + 1 else p.c2eCount
        r2sSum := if usable t.cts t.fer then p.r2sSum + (t.fer - t.cts) else p.r2sSum
        r2sCount := if usable t.cts t.fer then p.r2sCount + 1 else p.r2sCount
        encSum := if usable t.fer t.ferc then p.encSum + (t.ferc - t.fer) else p.encSum
        encCount := if usable t.fer t.ferc then p.encCount + 1 else p.encCount
        p2iSum := if usable t.ferc t.pir then p.p2iSum + (t.pir - t.ferc) else p.p2iSum
        p2iCount := if usable t.ferc t.pir then p.p2iCount + 1 else p.p2iCount } := by
  simp only [addTimings]
  split_ifs <;> rfl

theorem smaller_ofNat (a : UInt64) {m : ℕ} (hm : m < UInt64.size) :
    (if a < UInt64.ofNat m then a else UInt64.ofNat m) = UInt64.ofNat (min m a.toNat) := by
  have hval := UInt64.toNat_ofNat_of_lt' hm
  split_ifs with h
  · rw [UInt64.lt_iff_toNat_lt, hval] at h
    rw [min_eq_right h.le, UInt64.ofNat_toNat]
  · rw [UInt64.lt_iff_toNat_lt, hval] at h
    rw [min_eq_left (not_lt.mp h)]

theorem larger_ofNat (a : UInt64) {m : ℕ} (hm : m < UInt64.size) :
    (if UInt64.ofNat m < a then a else UInt64.ofNat m) = UInt64.ofNat (max m a.toNat) := by
  have hval := UInt64.toNat_ofNat_of_lt' hm
  split_ifs with h
  · rw [UInt64.lt_iff_toNat_lt, hval] at h
    rw [max_eq_right h.le, UInt64.ofNat_toNat]
  · rw [UInt64.lt_iff_toNat_lt, hval] at h
    rw [max_eq_left (not_lt.mp h)]

theorem intervals_lt {start stop : EncoderPacketTime → UInt64} {x : ℕ}
    (h : x ∈ intervals start stop ds) : x < UInt64.size := by
  obtain ⟨d, -, hd⟩ := List.mem_filterMap.mp h
  obtain ⟨t, -, ht⟩ := Option.bind_eq_some_iff.mp hd
  split_ifs at ht
  have hlt := (stop t).toNat_lt
  rw [← Option.some.inj ht, UInt64.size]
  omega

/-- The minimum is seeded by a count of 0. -/
theorem min_push (xs : List ℕ) (hxs : ∀ x ∈ xs, x < UInt64.size) (a : UInt64) :
    (if xs.length = 0 ∨ a < UInt64.ofNat (xs.min?.getD 0) then a
      else UInt64.ofNat (xs.min?.getD 0)) = UInt64.ofNat ((xs ++ [a.toNat]).min?.getD 0) := by
  rw [min?_concat]
  cases hmin : xs.min? with
  | none =>
    obtain rfl := List.min?_eq_none_iff.mp hmin
    simp
  | some m =>
    have hmem := List.min?_mem hmin
    have hlen : xs.length ≠ 0 := (List.length_pos_of_mem hmem).ne'
    simp only [hlen, false_or, Option.getD_some, Option.elim_some]
    exact smaller_ofNat a (hxs m hmem)

/-- The maximum is seeded by 0, below every length. -/
theorem max_push (xs : List ℕ) (hxs : ∀ x ∈ xs, x < UInt64.size) (a : UInt64) :
    (if UInt64.ofNat (xs.max?.getD 0) < a then a else UInt64.ofNat (xs.max?.getD 0)) =
      UInt64.ofNat ((xs ++ [a.toNat]).max?.getD 0) := by
  rw [max?_concat]
  cases hmax : xs.max? with
  | none =>
    have h := larger_ofNat a (m := 0) (by decide)
    simpa using h
  | some m => exact larger_ofNat a (hxs m (List.max?_mem hmax))

theorem Measured.push (h : Measured p ds) (pkt : EncoderPacket)
    (time : Option EncoderPacketTime) :
    Measured (addTimings (countPacket p pkt) time) (ds ++ [⟨pkt, time⟩]) := by
  have hframes : p.frames + 1 = (ds ++ [(⟨pkt, time⟩ : Delivery)]).length := by simp [h.frames]
  have hkey : (if pkt.keyframe then p.keyframes + 1 else p.keyframes) =
      (ds ++ [(⟨pkt, time⟩ : Delivery)]).countP (·.pkt.keyframe) := by
    rw [h.keyframes, List.countP_append]
    cases hk : pkt.keyframe <;> simp [hk]
  have hbytes : p.bytes + UInt64.ofNat pkt.size =
      UInt64.ofNat ((ds ++ [(⟨pkt, time⟩ : Delivery)]).map (·.pkt.size)).sum := by
    rw [h.bytes, List.map_append, List.sum_append, UInt64.ofNat_add]
    simp
  cases time with
  | none =>
    have hskip (start stop : EncoderPacketTime → UInt64) :
        intervals start stop (ds ++ [⟨pkt, none⟩]) = intervals start stop ds := by
      simp [intervals_concat, Delivery.interval]
    refine ⟨hframes, hkey, hbytes, ?_, ?_, ?_, ?_, ?_, ?_⟩ <;> rw [hskip]
    · exact h.c2e
    · exact h.c2eMin
    · exact h.c2eMax
    · exact h.r2s
    · exact h.enc
    · exact h.p2i
  | some t =>
    rw [addTimings_some]
    refine ⟨hframes, hkey, hbytes, ?_, ?_, ?_, ?_, ?_, ?_⟩ <;> rw [intervals_push]
    · exact h.c2e.push _ _
    · have hmin := min_push (intervals (·.cts) (·.pir) ds) (fun x => intervals_lt) (t.pir - t.cts)
      by_cases hu : usable t.cts t.pir = true
      · simp only [hu, if_true]
        simpa only [countPacket, h.c2e.count, h.c2eMin] using hmin
      · simpa [hu, countPacket] using h.c2eMin
    · have hmax := max_push (intervals (·.cts) (·.pir) ds) (fun x => intervals_lt) (t.pir - t.cts)
      by_cases hu : usable t.cts t.pir = true
      · simp only [hu, if_true]
        simpa only [countPacket, h.c2eMax] using hmax
      · simpa [hu, countPacket] using h.c2eMax
    · exact h.r2s.push _ _
    · exact h.enc.push _ _
    · exact h.p2i.push _ _

end Accumulators

section Window
variable {p q : Probe} {w : Window}

/-- The probe without its once-per-window flags. -/
def Probe.unflagged (p : Probe) : Probe :=
  { p with loggedFrameNal := false, loggedKeyNal := false, loggedInjectThisWindow := false }

theorem Holds.congr {o : Option Window} (h : Holds p o) (hq : q.unflagged = p.unflagged) :
    Holds q o := by
  have hwin : q.unflagged.haveWindow = p.unflagged.haveWindow := congrArg Probe.haveWindow hq
  have hstart : q.unflagged.windowStart = p.unflagged.windowStart := congrArg Probe.windowStart hq
  cases o with
  | none => exact hwin.trans h
  | some w =>
    obtain ⟨hhave, hw, hm⟩ := h
    have hm' : Measured p.unflagged w.items :=
      ⟨hm.frames, hm.keyframes, hm.bytes, hm.c2e, hm.c2eMin, hm.c2eMax, hm.r2s, hm.enc, hm.p2i⟩
    rw [← hq] at hm'
    exact ⟨hwin.trans hhave, hstart.trans hw, hm'.frames, hm'.keyframes, hm'.bytes, hm'.c2e,
      hm'.c2eMin, hm'.c2eMax, hm'.r2s, hm'.enc, hm'.p2i⟩

theorem resetWindow_holds (p : Probe) (now : UInt64) :
    Holds (resetWindow p now) (some ⟨now, []⟩) :=
  ⟨rfl, rfl, rfl, rfl, rfl, ⟨rfl, rfl⟩, rfl, rfl, ⟨rfl, rfl⟩, ⟨rfl, rfl⟩, ⟨rfl, rfl⟩⟩

@[simp] theorem resetWindow_latest (p : Probe) (now : UInt64) :
    (resetWindow p now).latest = p.latest := rfl

/-- The probe `onPacket` works on once a window is open. -/
def openWindow (p : Probe) (now : UInt64) : Probe :=
  if p.haveWindow then p else resetWindow p now

@[simp] theorem openWindow_latest (p : Probe) (now : UInt64) :
    (openWindow p now).latest = p.latest := by
  unfold openWindow
  split_ifs <;> rfl

theorem openWindow_holds {c : Cut Delivery UInt64} (h : Holds p c.opened) (now : UInt64) :
    Holds (openWindow p now) (some (c.current now)) := by
  unfold openWindow Cut.current
  cases hc : c.opened with
  | none =>
    rw [hc] at h
    rw [if_neg (by simp [show p.haveWindow = false from h])]
    exact resetWindow_holds p now
  | some w =>
    rw [hc] at h
    rw [if_pos h.1]
    exact h

@[simp] theorem addTimings_latest (p : Probe) (time : Option EncoderPacketTime) :
    (addTimings p time).latest = p.latest := by
  cases time with
  | none => rfl
  | some t => rw [addTimings_some]

theorem Holds.push (h : Holds p (some w)) (pkt : EncoderPacket)
    (time : Option EncoderPacketTime) :
    Holds (addTimings (countPacket p pkt) time) (some ⟨w.start, w.items ++ [⟨pkt, time⟩]⟩) := by
  obtain ⟨hhave, hstart, hm⟩ := h
  refine ⟨?_, ?_, hm.push pkt time⟩
  · cases time with
    | none => exact hhave
    | some t => rw [addTimings_some]; exact hhave
  · cases time with
    | none => exact hstart
    | some t => rw [addTimings_some]; exact hstart

theorem sampleNal_unflagged (p : Probe) (pkt : EncoderPacket) :
    (sampleNal p pkt).1.unflagged = p.unflagged := by
  unfold sampleNal
  split
  · rfl
  · split_ifs <;> rfl

theorem sampleNal_lines (p : Probe) (pkt : EncoderPacket) :
    (sampleNal p pkt).2.filter ProbeLog.isWindow = [] := by
  unfold sampleNal
  split
  · rfl
  · split_ifs <;> rfl

/-- What `flush` publishes and logs is what the window's packets amount to. -/
theorem flush_eq (h : Holds p (some w)) (now : UInt64) :
    flush p now =
      (resetWindow { p with latest := (closedStats ⟨w, now⟩).getD p.latest } now,
        closedLine ⟨w, now⟩) := by
  obtain ⟨-, hstart, hm⟩ := h
  have hstats : (if 0 < p.c2eCount then some (windowStats p (now - p.windowStart)) else none) =
      closedStats ⟨w, now⟩ := by
    simp only [closedStats, hm.c2e.count, List.length_pos_iff]
    by_cases hempty : intervals (·.cts) (·.pir) w.items = []
    · simp [hempty]
    · have hpos : 0 < (intervals (·.cts) (·.pir) w.items).length := List.length_pos_iff.mpr hempty
      simp [hempty, windowStats, meanOf, average, hpos, hm.frames, hm.bytes, hm.c2e.sum,
        hm.c2e.count, hm.c2eMin, hm.c2eMax, hm.r2s.sum, hm.r2s.count, hm.enc.sum, hm.enc.count,
        hm.p2i.sum, hm.p2i.count, hstart]
  unfold flush
  dsimp only
  rw [hstats, closedLine, hm.frames, hm.keyframes, hm.bytes, hstart]

end Window

section Packet
variable {p : Probe} {c : Cut Delivery UInt64} {d : Delivery}

/-- The window a delivery closes when the windows so far are `c`. -/
def closedBy (c : Cut Delivery UInt64) (d : Delivery) : Option ClosedWindow :=
  c.closedBy Delivery.clock closesWindow d

theorem closedBy_eq_some {w : ClosedWindow} :
    closedBy c d = some w ↔
      (d.clock ≠ 0 ∧ kWindowNs ≤ d.clock - (c.current d.clock).start) ∧
        w = ⟨c.extended Delivery.clock d, d.clock⟩ := by
  rw [closedBy, Cut.closedBy_eq_some]
  simp [closesWindow]

/-- The end of `accountPacket`. -/
def flushIfDue (s : Probe × List ProbeLog) (now : UInt64) : Probe × List ProbeLog :=
  if now ≠ 0 ∧ kWindowNs ≤ now - s.1.windowStart then
    ((flush s.1 now).1, s.2 ++ [(flush s.1 now).2])
  else s

theorem accountPacket_eq (p : Probe) (pkt : EncoderPacket) (time : Option EncoderPacketTime) :
    accountPacket p pkt time =
      flushIfDue (sampleNal (addTimings (countPacket (openWindow p (windowClock time)) pkt) time)
        pkt) (windowClock time) := rfl

theorem flushIfDue_spec {s : Probe × List ProbeLog}
    (h : Holds s.1 (some (c.extended Delivery.clock d)))
    (hlines : s.2.filter ProbeLog.isWindow = []) :
    Holds (flushIfDue s d.clock).1 (c.push Delivery.clock closesWindow d).opened ∧
      (flushIfDue s d.clock).2.filter ProbeLog.isWindow =
        ((closedBy c d).map closedLine).toList ∧
      (flushIfDue s d.clock).1.latest = ((closedBy c d).bind closedStats).getD s.1.latest := by
  have hstart : s.1.windowStart = (c.current d.clock).start := h.2.1
  have hopened : (c.push Delivery.clock closesWindow d).opened =
      some ((closedBy c d).elim (c.extended Delivery.clock d) fun w => ⟨w.stop, []⟩) := rfl
  rw [hopened]
  by_cases hdue : d.clock ≠ 0 ∧ kWindowNs ≤ d.clock - (c.current d.clock).start
  · have hclosed : closedBy c d = some ⟨c.extended Delivery.clock d, d.clock⟩ :=
      closedBy_eq_some.mpr ⟨hdue, rfl⟩
    rw [flushIfDue, if_pos (by rw [hstart]; exact hdue), flush_eq h, hclosed]
    refine ⟨resetWindow_holds _ _, ?_, rfl⟩
    simp [List.filter_append, hlines, closedLine, ProbeLog.isWindow]
  · have hclosed : closedBy c d = none := by
      rw [Option.eq_none_iff_forall_ne_some]
      exact fun w hw => hdue (closedBy_eq_some.mp hw).1
    rw [flushIfDue, if_neg (by rw [hstart]; exact hdue), hclosed]
    exact ⟨h, hlines, rfl⟩

theorem accountPacket_spec (h : Holds p c.opened) (pkt : EncoderPacket)
    (time : Option EncoderPacketTime) :
    Holds (accountPacket p pkt time).1
        (c.push Delivery.clock closesWindow ⟨pkt, time⟩).opened ∧
      (accountPacket p pkt time).2.filter ProbeLog.isWindow =
        ((closedBy c ⟨pkt, time⟩).map closedLine).toList ∧
      (accountPacket p pkt time).1.latest =
        ((closedBy c ⟨pkt, time⟩).bind closedStats).getD p.latest := by
  have hpush := (openWindow_holds h (windowClock time)).push pkt time
  have hlatest : (addTimings (countPacket (openWindow p (windowClock time)) pkt) time).latest =
      p.latest :=
    (addTimings_latest _ _).trans (openWindow_latest p (windowClock time))
  rw [accountPacket_eq, ← hlatest]
  generalize addTimings (countPacket (openWindow p (windowClock time)) pkt) time = q at *
  have hflags := sampleNal_unflagged q pkt
  have hpub : (sampleNal q pkt).1.unflagged.latest = q.unflagged.latest :=
    congrArg Probe.latest hflags
  have h := flushIfDue_spec (d := ⟨pkt, time⟩) (hpush.congr hflags) (sampleNal_lines q pkt)
  exact ⟨h.1, h.2.1, h.2.2.trans (congrArg _ hpub)⟩

/-- The injection that follows touches a flag and the packet only. -/
theorem onPacket_video {pkt : EncoderPacket} (hv : pkt.type = .video)
    (time : Option EncoderPacketTime) (clock : Clock) :
    (onPacket p (some pkt) time clock).1.unflagged = (accountPacket p pkt time).1.unflagged ∧
      (onPacket p (some pkt) time clock).2.2.filter ProbeLog.isWindow =
        (accountPacket p pkt time).2.filter ProbeLog.isWindow := by
  simp only [onPacket, hv, ne_eq, not_true_eq_false, if_false, onVideoPacket]
  split_ifs
  · exact ⟨rfl, rfl⟩
  · exact ⟨rfl, by simp [List.filter_append, ProbeLog.isWindow]⟩
  · exact ⟨rfl, rfl⟩

/-- Detaching keeps the open window. -/
theorem Holds.detached {o : Option Window} (h : Holds p o) : Holds p.onDetach o := by
  cases o with
  | none => exact h
  | some w =>
    obtain ⟨hhave, hstart, hm⟩ := h
    exact ⟨hhave, hstart, hm.frames, hm.keyframes, hm.bytes, hm.c2e, hm.c2eMin, hm.c2eMax, hm.r2s,
      hm.enc, hm.p2i⟩

end Packet

end ObsBeacon.PacketProbe
