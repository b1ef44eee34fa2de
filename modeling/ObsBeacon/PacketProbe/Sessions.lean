import ObsBeacon.PacketProbe.Injection
import ObsBeacon.PacketProbe.Window

/-! What the probe accounts for between one `attach` and the next: the packets it was given
are cut into windows, and everything it counts, logs and publishes is read off them. -/
namespace ObsBeacon.PacketProbe
open Windows

/-- `PacketProbe::attach`. -/
def Probe.attach (p : Probe) (output : Option Output) : Probe :=
  match output with
  | none => p
  | some o => if p.attached then p else p.onAttach o.videoCodec

/-- `PacketProbe::detach`. -/
def Probe.detach (p : Probe) (output : Option Output) : Probe :=
  match output with
  | none => p
  | some _ => if p.attached then p.onDetach else p

/-- The calls on a probe, with null pointers as `none`. -/
inductive Call where
  | attach (output : Option Output)
  | detach (output : Option Output)
  | onPacket (pkt : Option EncoderPacket) (time : Option EncoderPacketTime) (clock : Clock)

def Probe.call (p : Probe) : Call → Probe × List ProbeLog
  | .attach output => (p.attach output, [])
  | .detach output => (p.detach output, [])
  | .onPacket pkt time clock =>
    let r := onPacket p pkt time clock
    (r.1, r.2.2)

/-- The video packet a call delivers. -/
def Call.delivery : Call → Option Delivery
  | .onPacket (some pkt) time _ => if pkt.type = .video then some ⟨pkt, time⟩ else none
  | _ => none

/-- An `attach` that is not turned away. -/
def Call.startsSession (p : Probe) : Call → Bool
  | .attach output => !p.attached && output.isSome
  | _ => false

/-- A probe with the record of its session: the video packets delivered and the log lines
written since it was last attached, and those of the packets that came when it was detached. -/
structure Recording where
  probe : Probe := {}
  delivered : List Delivery := []
  lines : List ProbeLog := []
  late : List Delivery := []

def Recording.step (r : Recording) (call : Call) : Recording :=
  let after := r.probe.call call
  if call.startsSession r.probe then { probe := after.1 }
  else
    { probe := after.1
      delivered := r.delivered ++ call.delivery.toList
      lines := r.lines ++ after.2
      late := if r.probe.attached then r.late else r.late ++ call.delivery.toList }

/-- The invariant: the open window, the summary lines and the published statistics are what
the packets of this session amount to. -/
structure Accounted (r : Recording) : Prop where
  opened : Holds r.probe (windows r.delivered).opened
  lines : r.lines.filter ProbeLog.isWindow = (windows r.delivered).closed.map closedLine
  latest : r.probe.latest = {} ∨
    ∃ w ∈ (windows r.delivered).closed, closedStats w = some r.probe.latest
  detached : r.probe.attached = false → r.late = [] → r.probe.latest = {}

theorem windows_concat (ds : List Delivery) (d : Delivery) :
    windows (ds ++ [d]) = (windows ds).push Delivery.clock closesWindow d :=
  cut_concat _ _ ds d

section Step
variable {r : Recording}

/-- A session starts with no window, whatever the probe counted before. -/
theorem Accounted.start (p : Probe) (hwin : p.haveWindow = false) (hlatest : p.latest = {}) :
    Accounted { probe := p } :=
  ⟨hwin, rfl, Or.inl hlatest, fun _ _ => hlatest⟩

theorem Accounted.onPacket (h : Accounted r) {pkt : EncoderPacket} (hv : pkt.type = .video)
    (time : Option EncoderPacketTime) (clock : Clock) :
    Accounted (r.step (.onPacket (some pkt) time clock)) := by
  obtain ⟨hopen, hlines, hlatest, hdet⟩ := h
  obtain ⟨hflags, hfilter⟩ := onPacket_video (p := r.probe) hv time clock
  obtain ⟨hholds, hnew, hpub⟩ := accountPacket_spec hopen pkt time
  have hpub' : (PacketProbe.onPacket r.probe (some pkt) time clock).1.unflagged.latest =
      (accountPacket r.probe pkt time).1.unflagged.latest := congrArg Probe.latest hflags
  have hlat := hpub'.trans hpub
  have hattached := onPacket_attached r.probe (some pkt) time clock
  have hstep : r.step (.onPacket (some pkt) time clock) =
      { probe := (PacketProbe.onPacket r.probe (some pkt) time clock).1
        delivered := r.delivered ++ [⟨pkt, time⟩]
        lines := r.lines ++ (PacketProbe.onPacket r.probe (some pkt) time clock).2.2
        late := if r.probe.attached then r.late else r.late ++ [⟨pkt, time⟩] } := by
    simp [Recording.step, Call.startsSession, Call.delivery, Probe.call, hv]
  have hclosed : (windows (r.delivered ++ [⟨pkt, time⟩])).closed =
      (windows r.delivered).closed ++ (closedBy (windows r.delivered) ⟨pkt, time⟩).toList := by
    rw [windows_concat]
    rfl
  rw [hstep]
  refine ⟨?_, ?_, ?_, ?_⟩
  · rw [windows_concat]
    exact hholds.congr hflags
  · rw [hclosed, List.filter_append, hlines, hfilter, hnew, List.map_append]
    cases closedBy (windows r.delivered) ⟨pkt, time⟩ <;> rfl
  · rw [hclosed]
    cases hs : (closedBy (windows r.delivered) ⟨pkt, time⟩).bind closedStats with
    | none =>
      rw [hs] at hlat
      rcases hlatest with hnone | ⟨w, hw, hstats⟩
      · exact Or.inl (hlat.trans hnone)
      · exact Or.inr ⟨w, List.mem_append_left _ hw, hstats.trans (congrArg some hlat).symm⟩
    | some stats =>
      obtain ⟨w, hw, hstats⟩ := Option.bind_eq_some_iff.mp hs
      rw [hs] at hlat
      refine Or.inr ⟨w, List.mem_append_right _ (by simp [hw]), ?_⟩
      exact hstats.trans (congrArg some hlat).symm
  · intro hoff hlate
    rw [hattached] at hoff
    simp [hoff] at hlate

/-- Calls that are turned away, and packets that hold no video, leave no trace. -/
theorem Recording.step_idle {call : Call} (hprobe : r.probe.call call = (r.probe, []))
    (hstart : call.startsSession r.probe = false) (hnone : call.delivery = none) :
    r.step call = r := by
  simp [Recording.step, hprobe, hstart, hnone]

theorem Accounted.attach (h : Accounted r) (output : Option Output) :
    Accounted (r.step (.attach output)) := by
  cases output with
  | none => rwa [Recording.step_idle rfl (by simp [Call.startsSession]) rfl]
  | some o =>
    cases hatt : r.probe.attached with
    | true =>
      have hprobe : r.probe.call (.attach (some o)) = (r.probe, []) := by
        simp [Probe.call, Probe.attach, hatt]
      rwa [Recording.step_idle hprobe (by simp [Call.startsSession, hatt]) rfl]
    | false =>
      have hstep : r.step (.attach (some o)) = { probe := r.probe.onAttach o.videoCodec } := by
        simp [Recording.step, Call.startsSession, Probe.call, Probe.attach, hatt]
      rw [hstep]
      exact Accounted.start _ rfl rfl

theorem Accounted.detach (h : Accounted r) (output : Option Output) :
    Accounted (r.step (.detach output)) := by
  cases output with
  | none => rwa [Recording.step_idle rfl rfl rfl]
  | some o =>
    cases hatt : r.probe.attached with
    | false =>
      have hprobe : r.probe.call (.detach (some o)) = (r.probe, []) := by
        simp [Probe.call, Probe.detach, hatt]
      rwa [Recording.step_idle hprobe rfl rfl]
    | true =>
      have hstep : r.step (.detach (some o)) = { r with probe := r.probe.onDetach } := by
        simp [Recording.step, Call.startsSession, Call.delivery, Probe.call, Probe.detach, hatt]
      rw [hstep]
      exact ⟨h.opened.detached, h.lines, Or.inl rfl, fun _ _ => rfl⟩

theorem Accounted.step (h : Accounted r) (call : Call) : Accounted (r.step call) := by
  cases call with
  | attach output => exact h.attach output
  | detach output => exact h.detach output
  | onPacket pkt time clock =>
    cases pkt with
    | none => rwa [Recording.step_idle rfl rfl rfl]
    | some pkt =>
      by_cases hv : pkt.type = .video
      · exact h.onPacket hv time clock
      · have hprobe : r.probe.call (.onPacket (some pkt) time clock) = (r.probe, []) := by
          simp [Probe.call, PacketProbe.onPacket, hv]
        rwa [Recording.step_idle hprobe rfl (by simp [Call.delivery, hv])]

end Step

theorem accounted_run (calls : List Call) : Accounted (calls.foldl Recording.step {}) := by
  induction calls using List.reverseRecOn with
  | nil => exact Accounted.start {} rfl rfl
  | append_singleton calls call ih =>
    rw [List.foldl_append]
    exact ih.step call

end ObsBeacon.PacketProbe
