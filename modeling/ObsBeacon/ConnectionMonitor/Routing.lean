import ObsBeacon.ConnectionMonitor.Lifecycle
import ObsBeacon.PacketProbe.Injection

/-! Which streaming sessions have their packets modified: what the probe recorded about an
output when it attached decides, whichever output it was. -/
namespace ObsBeacon.ConnectionMonitor
open PacketProbe

def beaconOutputId : String := "beacon_rtmp_output"

/-- The streaming session runs through another output than the Beacon output. -/
def StockSession (p : Plugin) : Prop := ∃ o ∈ p.output, o.id ≠ beaconOutputId

/-- A packet that reaches `onPacket` in a stock session leaves it as it came. -/
def StockBytes (p : Plugin) : Event → Prop
  | .packet h pkt time clock =>
    p.probes h → StockSession p → (onPacket p.probe pkt time clock).2.1 = pkt
  | _ => True

/-- A packet the probe lets through: it holds no video data, or the output the packet
callback was last registered on has no H.264 encoder. -/
def LetThrough (p : Plugin) (pkt : Option EncoderPacket) : Prop :=
  (∀ q ∈ pkt, q.type ≠ .video ∨ q.data = none ∨ q.size = 0) ∨
    ∀ o ∈ p.packetCallbacks.head?, o.videoCodec ≠ some "h264"

/-- Every packet that reaches `onPacket` in a stock session is one the probe lets through. -/
def StockLetThrough (p : Plugin) : Event → Prop
  | .packet h pkt _ _ => p.probes h → StockSession p → LetThrough p pkt
  | _ => True

/-- The invariant: the probe is attached whenever an output is held, and what it recorded is
the codec of the output it last registered on. -/
structure Recorded (p : Plugin) : Prop where
  injectEnabled : p.probe.injectEnabled = true
  attached : p.output.isSome → p.probe.attached = true
  codec : p.probe.attached = true →
    ∃ o ∈ p.packetCallbacks.head?, p.probe.codecIsH264 = (o.videoCodec == some "h264")

theorem Recorded.initial : Recorded {} := by
  refine ⟨rfl, ?_, ?_⟩ <;> simp

theorem Recorded.acquire {p : Plugin} (h : Recorded p) (out : Option Output) :
    Recorded (acquireOutput p out) := by
  obtain ⟨hinj, hatt, hcodec⟩ := h
  cases out with
  | none => exact ⟨hinj, by simp [acquireOutput], hcodec⟩
  | some o =>
    simp only [acquireOutput, attach]
    split_ifs with ha
    · exact ⟨hinj, fun _ => ha, hcodec⟩
    · exact ⟨hinj, fun _ => rfl, fun _ => ⟨o, rfl, rfl⟩⟩

theorem Recorded.release {p : Plugin} (h : Recorded p) : Recorded (releaseOutput p) := by
  obtain ⟨hinj, hatt, hcodec⟩ := h
  cases hout : p.output with
  | none =>
    simp only [releaseOutput, hout]
    exact ⟨hinj, by simp, hcodec⟩
  | some o =>
    simp only [releaseOutput, hout, detach]
    split_ifs with ha
    · exact ⟨hinj, by simp, by simp [Probe.onDetach]⟩
    · exact ⟨hinj, by simp, hcodec⟩

/-- The invariant is about four members only. -/
theorem Recorded.congr {p q : Plugin} (h : Recorded p) (hout : q.output = p.output)
    (hcb : q.packetCallbacks = p.packetCallbacks) (hprobe : q.probe.config = p.probe.config) :
    Recorded q := by
  simp only [Probe.config, Prod.mk.injEq] at hprobe
  obtain ⟨hinj, hatt, hcodec⟩ := h
  refine ⟨?_, ?_, ?_⟩
  · rw [hprobe.2.1, hinj]
  · rw [hout, hprobe.1]
    exact hatt
  · rw [hprobe.1, hprobe.2.2, hcb]
    exact hcodec

theorem recorded_step (p : Plugin) (e : Event) (h : Recorded p) : Recorded (step p e) := by
  cases e with
  | install =>
    simp only [step, install]
    split_ifs
    · exact h
    · exact h.congr rfl rfl rfl
  | uninstall =>
    simp only [step, uninstall]
    split_ifs
    · have hoff : Recorded (disconnectSignals { p with eventCallback := false }) :=
        h.congr rfl rfl rfl
      exact hoff.release.congr rfl rfl rfl
    · exact h
  | frontend e =>
    simp only [step]
    split_ifs
    · cases e with
      | streamingStarting out service => exact (h.acquire out).congr rfl rfl rfl
      | streamingStopped =>
        have hoff : Recorded (disconnectSignals p) := h.congr rfl rfl rfl
        exact hoff.release
      | other => exact h
    · exact h
  | signal handle s =>
    simp only [step]
    split_ifs
    · exact h.congr rfl rfl rfl
    · exact h
  | packet handle pkt time clock =>
    simp only [step]
    split_ifs
    · exact h.congr rfl rfl (onPacket_config _ _ _ _)
    · exact h

theorem injects_iff (p : Probe) (pkt : EncoderPacket) :
    injects p pkt ↔
      p.injectEnabled = true ∧ p.codecIsH264 = true ∧ pkt.data ≠ none ∧ pkt.size ≠ 0 := by
  simp only [injects, Bool.and_eq_true, decide_eq_true_eq, Option.isSome_iff_ne_none,
    Nat.pos_iff_ne_zero, and_assoc]

/-- In a session, the guard of the injection is the condition on packet and output. -/
theorem Recorded.unmodified_iff {p : Plugin} (h : Recorded p) (hsession : StockSession p)
    (pkt : Option EncoderPacket) (time : Option EncoderPacketTime) (clock : Clock) :
    (onPacket p.probe pkt time clock).2.1 = pkt ↔ LetThrough p pkt := by
  obtain ⟨o, ho, -⟩ := hsession
  obtain ⟨reg, hreg, hcodec⟩ := h.codec (h.attached (Option.isSome_of_mem ho))
  have hlast : (∀ o ∈ p.packetCallbacks.head?, o.videoCodec ≠ some "h264") ↔
      p.probe.codecIsH264 = false := by
    rw [Option.mem_def.mp hreg, hcodec]
    simp
  rw [onPacket_unmodified_iff, LetThrough, hlast]
  simp only [injects_iff, h.injectEnabled, true_and]
  cases pkt with
  | none => simp
  | some q =>
    simp only [Option.mem_def, Option.some.injEq, forall_eq']
    cases p.probe.codecIsH264
    · simp
    · simp only [true_and, not_and_or, not_not, reduceCtorEq, or_false]

/-- Sessions without the Beacon output have stock bytes through a whole run exactly if the
probe has no reason to touch any of their packets; the output's id is no reason. -/
theorem stockBytes_iff (es : List Event) :
    Runs.EveryStep step StockBytes {} es ↔ Runs.EveryStep step StockLetThrough {} es := by
  refine Runs.everyStep_congr recorded_step (fun p e h => ?_) Recorded.initial
  cases e with
  | packet handle pkt time clock =>
    refine forall_congr' fun _ => forall_congr' fun hsession => ?_
    exact h.unmodified_iff hsession pkt time clock
  | _ => exact Iff.rfl

/-- A keyframe of the stock RTMP output, streamed with an H.264 encoder. -/
theorem stock_output_modified :
    ¬ Runs.EveryStep step StockBytes {}
      [.install,
        .frontend (.streamingStarting (some ⟨1, "rtmp_output", [some "h264"]⟩) none),
        .packet 1 (some (.video [0, 0, 0, 1, 0x65, 0x88] true)) none ⟨5, 7⟩] := by
  intro h
  have hbytes := h [.install,
    .frontend (.streamingStarting (some ⟨1, "rtmp_output", [some "h264"]⟩) none)] _
    List.prefix_rfl (by decide) ⟨_, rfl, by decide⟩
  exact (onPacket_unmodified_iff _ _ _ _).mp hbytes _ rfl ⟨rfl, rfl⟩

end ObsBeacon.ConnectionMonitor
