import ObsBeacon.Lib.Runs
import ObsBeacon.PacketProbe.Sessions

/-! The window clock: for which packets the duration `flush` divides by is time that passed
between two packets of the session. -/
namespace ObsBeacon.PacketProbe
open Windows

/-- The seconds `flush` divides by, as an exact number. -/
def elapsedS (elapsedNs : UInt64) : ℚ := elapsedNs.toNat / 1000000 / 1000

def kbps (bytes elapsedNs : UInt64) : ℚ :=
  if 0 < elapsedS elapsedNs then bytes.toNat * 8 / 1000 / elapsedS elapsedNs else 0

/-- The published frame rate and bit rate. -/
def ProbeStats.fps (s : ProbeStats) : ℚ :=
  if 0 < elapsedS s.elapsedNs then s.frames / elapsedS s.elapsedNs else 0

def ProbeStats.kbps (s : ProbeStats) : ℚ := PacketProbe.kbps s.bytes s.elapsedNs

/-- The rates of a summary line, and those published with it, are its frames and bytes over
the given time. -/
def ProbeLog.RatesOver (ns : ℕ) (latest : ProbeStats) : ProbeLog → Prop
  | .window frames _ bytes elapsedNs latency =>
    kbps bytes elapsedNs = bytes.toNat * 8 / 1000 / (ns / 1000000000) ∧
      ∀ stats ∈ latency, latest = stats ∧ stats.fps = frames / (ns / 1000000000) ∧
        stats.kbps = bytes.toNat * 8 / 1000 / (ns / 1000000000)
  | _ => True

/-- `windowStart_` once `onPacket` has opened a window if there was none. -/
def windowStartAt (p : Probe) (now : UInt64) : UInt64 := (openWindow p now).windowStart

/-- A call of `flush` takes a window that starts at the non-zero clock of a packet of this
session, at least a second ago, and forms the rates over the time since then. `flush` was
called when a summary line was written. -/
def RealElapsed (r : Recording) : Call → Prop
  | .onPacket (some pkt) time clock =>
    let now := windowClock time
    let start := windowStartAt r.probe now
    let after := onPacket r.probe (some pkt) time clock
    (∃ line ∈ after.2.2, line.isWindow = true) →
      start ≠ 0 ∧ (∃ d ∈ r.delivered ++ [⟨pkt, time⟩], d.clock = start) ∧ start ≤ now ∧
        1000000000 ≤ now.toNat - start.toNat ∧
        ∀ line ∈ after.2.2, line.RatesOver (now.toNat - start.toNat) after.1.latest
  | _ => True

/-- The window clocks of the video packets that came since the last `attach` that was not
turned away. -/
structure SessionClocks where
  attached : Bool := false
  clocks : List UInt64 := []

def SessionClocks.step (s : SessionClocks) : Call → SessionClocks
  | .attach (some _) => if s.attached then s else { attached := true }
  | .detach (some _) => { s with attached := false }
  | .onPacket (some pkt) time _ =>
    if pkt.type = .video then { s with clocks := s.clocks ++ [windowClock time] } else s
  | _ => s

def nextOpener (opener : Option UInt64) (now : UInt64) : Option UInt64 :=
  some (opener.elim now fun start => if start.toNat + 1000000000 ≤ now.toNat then now else start)

/-- Going through the clocks, the first one and then each that lies a second or more above
the opener before it is an opener; this is the last of them. -/
def lastOpener (clocks : List UInt64) : Option UInt64 := clocks.foldl nextOpener none

/-- A video packet with a clock does not show a second when the last opener was 0, and does
not lie below that opener, unless by almost 2^64 ns. -/
def ClockInWindow (s : SessionClocks) : Call → Prop
  | .onPacket (some pkt) time _ =>
    let now := windowClock time
    pkt.type = .video → now ≠ 0 → ∀ start ∈ lastOpener s.clocks,
      (start = 0 → now.toNat < 1000000000) ∧
        (now < start → 18446744073709551616 - 1000000000 < start.toNat - now.toNat)
  | _ => True

section Guard
variable {r : Recording} {pkt : EncoderPacket}

theorem windowStartAt_eq (h : Accounted r) (now : UInt64) :
    windowStartAt r.probe now = ((windows r.delivered).current now).start :=
  (openWindow_holds h.opened now).2.1

/-- When `flush` is called. -/
theorem flushes_iff (h : Accounted r) (hv : pkt.type = .video)
    (time : Option EncoderPacketTime) (clock : Clock) :
    (∃ line ∈ (onPacket r.probe (some pkt) time clock).2.2, line.isWindow = true) ↔
      windowClock time ≠ 0 ∧
        kWindowNs ≤ windowClock time - windowStartAt r.probe (windowClock time) := by
  have hlog : (onPacket r.probe (some pkt) time clock).2.2.filter ProbeLog.isWindow =
      ((closedBy (windows r.delivered) ⟨pkt, time⟩).map closedLine).toList :=
    (onPacket_video hv time clock).2.trans (accountPacket_spec h.opened pkt time).2.1
  have hline : (∃ line ∈ (onPacket r.probe (some pkt) time clock).2.2, line.isWindow = true) ↔
      (onPacket r.probe (some pkt) time clock).2.2.filter ProbeLog.isWindow ≠ [] := by
    simp [List.filter_eq_nil_iff]
  rw [hline, hlog, windowStartAt_eq h]
  have hclosed := fun w => closedBy_eq_some (c := windows r.delivered) (d := ⟨pkt, time⟩) (w := w)
  cases hc : closedBy (windows r.delivered) ⟨pkt, time⟩ with
  | none =>
    simp only [Option.map_none, Option.toList_none, ne_eq, not_true_eq_false, false_iff]
    intro hdue
    have := (hclosed _).mpr ⟨hdue, rfl⟩
    rw [hc] at this
    exact absurd this (by simp)
  | some w =>
    simp only [Option.map_some, Option.toList_some, ne_eq, reduceCtorEq, not_false_eq_true,
      true_iff]
    exact ((hclosed w).mp hc).1

/-- The unsigned difference of two clocks. -/
theorem sub_toNat (now start : UInt64) :
    (now - start).toNat =
      if start ≤ now then now.toNat - start.toNat
      else 18446744073709551616 - (start.toNat - now.toNat) := by
  have hnow := now.toNat_lt
  have hstart := start.toNat_lt
  rw [UInt64.toNat_sub]
  split_ifs with h
  · rw [UInt64.le_iff_toNat_le] at h
    omega
  · rw [UInt64.le_iff_toNat_le] at h
    omega

/-- The guard of `flush`, for clocks in the order the condition asks for. -/
theorem closesWindow_iff {start now : UInt64}
    (h : now ≠ 0 → now < start →
      18446744073709551616 - 1000000000 < start.toNat - now.toNat) :
    closesWindow start now = true ↔ start.toNat + 1000000000 ≤ now.toNat := by
  have hk : kWindowNs.toNat = 1000000000 := rfl
  have hnow := now.toNat_lt
  have hstart := start.toNat_lt
  simp only [closesWindow, Bool.and_eq_true, decide_eq_true_eq, UInt64.le_iff_toNat_le, sub_toNat,
    hk, ne_eq, ← UInt64.toNat_inj, UInt64.toNat_zero, UInt64.lt_iff_toNat_lt] at h ⊢
  split_ifs with hle <;> omega

end Guard

section Rates
variable {bytes elapsedNs : UInt64}

theorem elapsedS_eq (elapsedNs : UInt64) : elapsedS elapsedNs = elapsedNs.toNat / 1000000000 := by
  unfold elapsedS
  ring

theorem elapsedS_pos (h : 0 < elapsedNs.toNat) : 0 < elapsedS elapsedNs := by
  have hpos : (0 : ℚ) < elapsedNs.toNat := by exact_mod_cast h
  rw [elapsedS_eq]
  positivity

theorem kbps_eq (h : 0 < elapsedNs.toNat) :
    kbps bytes elapsedNs = bytes.toNat * 8 / 1000 / (elapsedNs.toNat / 1000000000) := by
  rw [kbps, if_pos (elapsedS_pos h), elapsedS_eq]

theorem ProbeStats.fps_eq {s : ProbeStats} (h : 0 < s.elapsedNs.toNat) :
    s.fps = s.frames / (s.elapsedNs.toNat / 1000000000) := by
  rw [ProbeStats.fps, if_pos (elapsedS_pos h), elapsedS_eq]

/-- What a closed window is published with. -/
theorem closedStats_fields {w : ClosedWindow} {stats : ProbeStats}
    (h : closedStats w = some stats) :
    stats.frames = w.items.length ∧
      stats.bytes = UInt64.ofNat (w.items.map (·.pkt.size)).sum ∧
      stats.elapsedNs = w.stop - w.start := by
  unfold closedStats at h
  dsimp only at h
  split_ifs at h
  obtain rfl := Option.some.inj h
  exact ⟨rfl, rfl, rfl⟩

/-- The summary of a window that stops after it started. -/
theorem closedLine_ratesOver {w : ClosedWindow} {latest : ProbeStats} (hle : w.start < w.stop)
    (hlatest : ∀ stats ∈ closedStats w, latest = stats) :
    (closedLine w).RatesOver (w.stop.toNat - w.start.toNat) latest := by
  have hns : (w.stop - w.start).toNat = w.stop.toNat - w.start.toNat :=
    UInt64.toNat_sub_of_le _ _ (UInt64.le_of_lt hle)
  have hpos : 0 < (w.stop - w.start).toNat := by
    rw [UInt64.lt_iff_toNat_lt] at hle
    omega
  rw [← hns]
  refine ⟨kbps_eq hpos, fun stats hstats => ⟨hlatest stats hstats, ?_, ?_⟩⟩
  · obtain ⟨hframes, -, helapsed⟩ := closedStats_fields hstats
    rw [ProbeStats.fps_eq (by rwa [helapsed]), hframes, helapsed]
  · obtain ⟨-, hbytes, helapsed⟩ := closedStats_fields hstats
    rw [ProbeStats.kbps, hbytes, helapsed, kbps_eq hpos]

end Rates

/-- The rates of every summary line a packet causes, when its window stops after it started. -/
theorem ratesOver_of_onPacket {r : Recording} (h : Accounted r) {pkt : EncoderPacket}
    (hv : pkt.type = .video) (time : Option EncoderPacketTime) (clock : Clock)
    (hle : windowStartAt r.probe (windowClock time) < windowClock time) :
    ∀ line ∈ (onPacket r.probe (some pkt) time clock).2.2,
      line.RatesOver ((windowClock time).toNat -
        (windowStartAt r.probe (windowClock time)).toNat)
        (onPacket r.probe (some pkt) time clock).1.latest := by
  intro line hline
  rw [windowStartAt_eq h] at hle ⊢
  obtain ⟨hflags, hfilter⟩ := onPacket_video (p := r.probe) hv time clock
  obtain ⟨-, hnew, hpub⟩ := accountPacket_spec h.opened pkt time
  have hlatest : (onPacket r.probe (some pkt) time clock).1.latest =
      ((closedBy (windows r.delivered) ⟨pkt, time⟩).bind closedStats).getD r.probe.latest :=
    (show _ = _ from congrArg Probe.latest hflags).trans hpub
  cases hw : line.isWindow with
  | false => cases line <;> first | exact trivial | cases hw
  | true =>
    have hmem := List.mem_filter.mpr ⟨hline, hw⟩
    rw [hfilter, hnew] at hmem
    obtain ⟨w, hclosed, rfl⟩ := Option.map_eq_some_iff.mp (Option.mem_toList.mp hmem)
    obtain ⟨-, rfl⟩ := closedBy_eq_some.mp hclosed
    rw [hclosed] at hlatest
    refine closedLine_ratesOver (w := ⟨(windows r.delivered).extended Delivery.clock ⟨pkt, time⟩,
      windowClock time⟩) hle fun stats hstats => ?_
    rw [hlatest, Option.bind_some]
    exact congrArg (Option.getD · r.probe.latest) (Option.mem_def.mp hstats)

/-- As long as the clocks are in order, the probe's window starts at their last opener. -/
structure Clocked (r : Recording) (s : SessionClocks) : Prop where
  accounted : Accounted r
  attached : s.attached = r.probe.attached
  opener : lastOpener s.clocks = (windows r.delivered).opened.map (·.start)

section Step
variable {r : Recording} {s : SessionClocks}

theorem Clocked.windowStartAt (h : Clocked r s) (now : UInt64) :
    windowStartAt r.probe now = (lastOpener s.clocks).getD now := by
  rw [windowStartAt_eq h.accounted, Cut.current_start, h.opener]

theorem lastOpener_concat (clocks : List UInt64) (now : UInt64) :
    lastOpener (clocks ++ [now]) = nextOpener (lastOpener clocks) now := by
  simp [lastOpener]

theorem Clocked.onPacket (h : Clocked r s) {pkt : EncoderPacket} (hv : pkt.type = .video)
    (time : Option EncoderPacketTime) (clock : Clock)
    (hin : ClockInWindow s (.onPacket (some pkt) time clock)) :
    Clocked (r.step (.onPacket (some pkt) time clock))
      (s.step (.onPacket (some pkt) time clock)) := by
  have hdelivered : (r.step (.onPacket (some pkt) time clock)).delivered =
      r.delivered ++ [⟨pkt, time⟩] := by
    simp [Recording.step, Call.startsSession, Call.delivery, hv]
  have hattached : (r.step (.onPacket (some pkt) time clock)).probe.attached =
      r.probe.attached := onPacket_attached r.probe (some pkt) time clock
  have hclocks : s.step (.onPacket (some pkt) time clock) =
      { s with clocks := s.clocks ++ [windowClock time] } := if_pos hv
  refine ⟨h.accounted.step _, ?_, ?_⟩
  · rw [hclocks, hattached]
    exact h.attached
  · rw [hclocks, hdelivered, windows_concat, Cut.start_push, lastOpener_concat, nextOpener,
      Cut.current_start, ← h.opener]
    cases ho : lastOpener s.clocks with
    | none => rw [Option.elim_none, Option.getD_none, ite_self, Delivery.clock]
    | some start =>
      have horder : closesWindow start (windowClock time) = true ↔ _ :=
        closesWindow_iff fun hnow => (hin hv hnow start ho).2
      rw [Option.elim_some, Option.getD_some]
      exact congrArg some (if_congr horder.symm rfl rfl)

/-- A new session starts with no window and no clock. -/
theorem Clocked.attach (h : Clocked r s) (output : Option Output) :
    Clocked (r.step (.attach output)) (s.step (.attach output)) := by
  cases output with
  | none => rwa [Recording.step_idle rfl (by simp [Call.startsSession]) rfl]
  | some o =>
    have hatt := h.attached
    cases hprobe : r.probe.attached with
    | true =>
      have hidle : r.probe.call (.attach (some o)) = (r.probe, []) := by
        simp [Probe.call, Probe.attach, hprobe]
      rw [Recording.step_idle hidle (by simp [Call.startsSession, hprobe]) rfl]
      rw [hprobe] at hatt
      simpa [SessionClocks.step, hatt] using h
    | false =>
      rw [hprobe] at hatt
      refine ⟨h.accounted.attach _, ?_, ?_⟩
      · simp [SessionClocks.step, Recording.step, Call.startsSession, Probe.call, Probe.attach,
          Probe.onAttach, hatt, hprobe]
      · simp [SessionClocks.step, Recording.step, Call.startsSession, lastOpener, windows, hatt,
          hprobe]

/-- Packets that come after `detach` still go into the open window. -/
theorem Clocked.detach (h : Clocked r s) (output : Option Output) :
    Clocked (r.step (.detach output)) (s.step (.detach output)) := by
  cases output with
  | none => rwa [Recording.step_idle rfl rfl rfl]
  | some o =>
    refine ⟨h.accounted.detach _, ?_, ?_⟩
    · cases hprobe : r.probe.attached <;>
        simp [SessionClocks.step, Recording.step, Call.startsSession, Probe.call, Probe.detach,
          Probe.onDetach, hprobe]
    · simpa [SessionClocks.step, Recording.step, Call.startsSession, Call.delivery] using h.opener

theorem Clocked.step (h : Clocked r s) (call : Call) (hin : ClockInWindow s call) :
    Clocked (r.step call) (s.step call) := by
  cases call with
  | attach output => exact h.attach output
  | detach output => exact h.detach output
  | onPacket pkt time clock =>
    cases pkt with
    | none => rwa [Recording.step_idle rfl rfl rfl]
    | some pkt =>
      by_cases hv : pkt.type = .video
      · exact h.onPacket hv time clock hin
      · have hidle : r.probe.call (.onPacket (some pkt) time clock) = (r.probe, []) := by
          simp [Probe.call, PacketProbe.onPacket, hv]
        rw [Recording.step_idle hidle rfl (by simp [Call.delivery, hv])]
        simpa [SessionClocks.step, hv] using h

/-- When the guard of `flush` lets only real elapsed time through. -/
theorem guard_iff (opener : Option UInt64) (now : UInt64) :
    (now ≠ 0 ∧ kWindowNs ≤ now - opener.getD now →
        opener.getD now ≠ 0 ∧ opener.getD now ≤ now ∧
          1000000000 ≤ now.toNat - (opener.getD now).toNat) ↔
      (now ≠ 0 → ∀ start ∈ opener,
        (start = 0 → now.toNat < 1000000000) ∧
          (now < start → 18446744073709551616 - 1000000000 < start.toNat - now.toNat)) := by
  have hk : kWindowNs.toNat = 1000000000 := rfl
  cases opener with
  | none =>
    have hzero : kWindowNs ≠ 0 := by decide
    simp [hzero]
  | some start =>
    have hnow := now.toNat_lt
    have hstart := start.toNat_lt
    simp only [Option.getD_some, Option.mem_def, Option.some.injEq, forall_eq']
    simp only [UInt64.le_iff_toNat_le, sub_toNat, UInt64.lt_iff_toNat_lt, hk, ne_eq,
      ← UInt64.toNat_inj, UInt64.toNat_zero]
    split_ifs with hle <;> omega

theorem realElapsed_step (h : Clocked r s) (call : Call) :
    RealElapsed r call ↔ ClockInWindow s call := by
  cases call with
  | attach output => exact Iff.rfl
  | detach output => exact Iff.rfl
  | onPacket pkt time clock =>
    cases pkt with
    | none => exact Iff.rfl
    | some pkt =>
      by_cases hv : pkt.type = .video
      · have hflush := flushes_iff h.accounted hv time clock
        have hguard := guard_iff (lastOpener s.clocks) (windowClock time)
        rw [← h.windowStartAt] at hguard
        constructor
        · intro hreal _
          apply hguard.mp
          intro hdue
          obtain ⟨hne, -, hle, hsecond, -⟩ := hreal (hflush.mpr hdue)
          exact ⟨hne, hle, hsecond⟩
        · intro hin hlines
          obtain ⟨hne, hle, hsecond⟩ := hguard.mpr (hin hv) (hflush.mp hlines)
          refine ⟨hne, ?_, hle, hsecond, ?_⟩
          · rw [windowStartAt_eq h.accounted]
            exact List.mem_map.mp (start_mem r.delivered ⟨pkt, time⟩)
          · apply ratesOver_of_onPacket h.accounted hv
            rw [UInt64.lt_iff_toNat_lt]
            omega
      · simp [RealElapsed, ClockInWindow, onPacket, hv]

end Step

/-- In a run of calls every `flush` divides by real elapsed time exactly if the clocks of each
session's packets stay in order behind their openers. -/
theorem realElapsed_iff (calls : List Call) :
    Runs.EveryStep Recording.step RealElapsed {} calls ↔
      Runs.EveryStep SessionClocks.step ClockInWindow {} calls :=
  Runs.everyStep_lockstep (fun _ _ call h => h.step call) (fun _ _ call h => realElapsed_step h call)
    ⟨Accounted.start {} rfl rfl, rfl, rfl⟩

/-- The packet that opens the window has no timing structure, the next one does. -/
theorem window_opened_at_zero :
    ¬ Runs.EveryStep Recording.step RealElapsed {}
      [.attach (some ⟨1, "beacon_rtmp_output", [some "h264"]⟩),
        .onPacket (some (.video [0, 0, 1, 0x41] false)) none ⟨5, 7⟩,
        .onPacket (some (.video [0, 0, 1, 0x41] false))
          (some ⟨4990000000, 4991000000, 4995000000, 5000000000⟩) ⟨5000000001, 7⟩] := by
  intro h
  have hreal := h [.attach (some ⟨1, "beacon_rtmp_output", [some "h264"]⟩),
    .onPacket (some (.video [0, 0, 1, 0x41] false)) none ⟨5, 7⟩] _ List.prefix_rfl
  have hstart := (hreal ((flushes_iff (accounted_run _) rfl _ _).mpr ⟨by decide, by decide⟩)).1
  exact hstart rfl

end ObsBeacon.PacketProbe
