import ObsBeacon.ConnectionMonitor.Routing
import ObsBeacon.PacketProbe.Sessions

/-! Which tracks of a multi-track output have their packets modified: `attach` samples the
codec of one encoder, while packets of every video track reach `onPacket`. -/
namespace ObsBeacon.ConnectionMonitor
open PacketProbe

/-- The plugin and the streaming outputs, each with the codecs of its video tracks. `sampled`
records the output as it was when `attach` last sampled its codec. -/
structure Host where
  plugin : Plugin := {}
  encoders : Handle → List (Option String)
  sampled : Option Output := none

def Host.output (s : Host) (h : Handle) : Output := ⟨h, beaconOutputId, s.encoders h⟩

/-- What happens to the outputs: their encoders are set, the probe is attached and detached,
and they send packets. A null output is `none`. -/
inductive Use where
  | setEncoders (h : Handle) (codecs : List (Option String))
  | attach (h : Option Handle)
  | detach (h : Option Handle)
  | packet (h : Handle) (pkt : Option EncoderPacket) (time : Option EncoderPacketTime)
    (clock : Clock)

def Host.step (s : Host) : Use → Host
  | .setEncoders h codecs => { s with encoders := Function.update s.encoders h codecs }
  | .attach none => s
  | .attach (some h) =>
    { s with
      plugin := ConnectionMonitor.attach s.plugin (s.output h)
      sampled := if s.plugin.probe.attached then s.sampled else some (s.output h) }
  | .detach none => s
  | .detach (some h) => { s with plugin := ConnectionMonitor.detach s.plugin (s.output h) }
  | .packet h pkt time clock =>
    if s.plugin.probes h then
      { s with plugin.probe := (onPacket s.plugin.probe pkt time clock).1 }
    else s

/-- A non-empty video packet. -/
def Filled (pkt : EncoderPacket) : Prop := pkt.type = .video ∧ pkt.data ≠ none ∧ pkt.size ≠ 0

/-- The packet comes from an H.264 encoder of the output. -/
def FromH264 (o : Output) (pkt : EncoderPacket) : Prop :=
  o.videoEncoders[pkt.trackIdx]?.join = some "h264"

instance (o : Output) (pkt : EncoderPacket) : Decidable (FromH264 o pkt) :=
  inferInstanceAs (Decidable (_ = _))

/-- A packet that reaches `onPacket` is modified only if it is a non-empty video packet of an
H.264 track. -/
def SeiOnlyInH264 (s : Host) : Use → Prop
  | .packet h pkt time clock =>
    s.plugin.probes h → (onPacket s.plugin.probe pkt time clock).2.1 ≠ pkt →
      ∃ q ∈ pkt, Filled q ∧ FromH264 (s.output h) q
  | _ => True

/-- While the first video track of the output sampled last had H.264, every non-empty video
packet that reaches `onPacket` comes from an H.264 track. -/
def TracksAgree (s : Host) : Use → Prop
  | .packet h pkt _ _ =>
    s.plugin.probes h → (∃ o ∈ s.sampled, o.videoCodec = some "h264") →
      ∀ q ∈ pkt, Filled q → FromH264 (s.output h) q
  | _ => True

/-- The invariant: what the probe recorded is the codec of the output sampled last. -/
structure Sampled (s : Host) : Prop where
  injectEnabled : s.plugin.probe.injectEnabled = true
  codec : s.plugin.probe.codecIsH264 = true ↔ ∃ o ∈ s.sampled, o.videoCodec = some "h264"

@[simp] theorem attach_probe (p : Plugin) (o : Output) :
    (ConnectionMonitor.attach p o).probe = p.probe.attach (some o) := by
  unfold ConnectionMonitor.attach Probe.attach
  dsimp only
  split_ifs <;> rfl

@[simp] theorem detach_probe (p : Plugin) (o : Output) :
    (ConnectionMonitor.detach p o).probe = p.probe.detach (some o) := by
  unfold ConnectionMonitor.detach Probe.detach
  dsimp only
  split_ifs <;> rfl

theorem Sampled.initial (encoders : Handle → List (Option String)) :
    Sampled { encoders := encoders } := by
  constructor <;> simp

theorem Sampled.step {s : Host} (h : Sampled s) (use : Use) : Sampled (s.step use) := by
  obtain ⟨hinj, hcodec⟩ := h
  rcases use with ⟨o, codecs⟩ | ⟨_ | o⟩ | ⟨_ | o⟩ | ⟨o, pkt, time, clock⟩
  · exact ⟨hinj, hcodec⟩
  · exact ⟨hinj, hcodec⟩
  · cases hatt : s.plugin.probe.attached with
    | true =>
      constructor
      · simpa [Host.step, Probe.attach, hatt] using hinj
      · simpa [Host.step, Probe.attach, hatt] using hcodec
    | false =>
      constructor
      · simpa [Host.step, Probe.attach, hatt, Probe.onAttach] using hinj
      · simp [Host.step, Probe.attach, hatt, Probe.onAttach]
  · exact ⟨hinj, hcodec⟩
  · cases hatt : s.plugin.probe.attached with
    | true =>
      constructor
      · simpa [Host.step, Probe.detach, hatt, Probe.onDetach] using hinj
      · simpa [Host.step, Probe.detach, hatt, Probe.onDetach] using hcodec
    | false =>
      constructor
      · simpa [Host.step, Probe.detach, hatt] using hinj
      · simpa [Host.step, Probe.detach, hatt] using hcodec
  · simp only [Host.step]
    split_ifs
    · have hconfig := onPacket_config s.plugin.probe pkt time clock
      simp only [Probe.config, Prod.mk.injEq] at hconfig
      exact ⟨hconfig.2.1.trans hinj, by rw [hconfig.2.2]; exact hcodec⟩
    · exact ⟨hinj, hcodec⟩

/-- The guard of the injection never asks for the packet's own track. -/
theorem Sampled.modified_iff {s : Host} (h : Sampled s) (pkt : Option EncoderPacket)
    (time : Option EncoderPacketTime) (clock : Clock) :
    (onPacket s.plugin.probe pkt time clock).2.1 ≠ pkt ↔
      (∃ o ∈ s.sampled, o.videoCodec = some "h264") ∧ ∃ q ∈ pkt, Filled q := by
  rw [ne_eq, onPacket_unmodified_iff, ← h.codec]
  simp only [injects_iff, h.injectEnabled, true_and, Filled]
  cases pkt with
  | none => simp
  | some q =>
    simp only [Option.mem_def, Option.some.injEq, forall_eq', exists_eq_left', not_not]
    tauto

theorem seiOnlyInH264_step {s : Host} (h : Sampled s) (use : Use) :
    SeiOnlyInH264 s use ↔ TracksAgree s use := by
  cases use with
  | packet o pkt time clock =>
    refine forall_congr' fun _ => ?_
    rw [h.modified_iff]
    cases pkt with
    | none => simp
    | some q =>
      simp only [Option.mem_def, Option.some.injEq, exists_eq_left', forall_eq']
      constructor
      · exact fun hsei hcodec hfilled => (hsei ⟨hcodec, hfilled⟩).2
      · exact fun hagree hmod => ⟨hmod.2, hagree hmod.1 hmod.2⟩
  | _ => exact Iff.rfl

/-- Over any run, only packets of H.264 tracks are modified exactly if the other tracks agree
with the one whose codec was sampled. -/
theorem seiOnlyInH264_iff (encoders : Handle → List (Option String)) (uses : List Use) :
    Runs.EveryStep Host.step SeiOnlyInH264 { encoders := encoders } uses ↔
      Runs.EveryStep Host.step TracksAgree { encoders := encoders } uses :=
  Runs.everyStep_congr (fun _ use h => h.step use) (fun _ use h => seiOnlyInH264_step h use)
    (Sampled.initial encoders)

/-- An output with an H.264 and an HEVC track sends a packet of the second. -/
theorem hevc_track_modified :
    ¬ Runs.EveryStep Host.step SeiOnlyInH264 { encoders := fun _ => [some "h264", some "hevc"] }
      [.attach (some 1),
        .packet 1 (some { EncoderPacket.video [0, 0, 0, 1, 0x26, 0x01] true with trackIdx := 1 })
          none ⟨5, 7⟩] := by
  intro h
  have hsei := h [.attach (some 1)] _ List.prefix_rfl (by decide)
  have hsampled := (Sampled.initial fun _ => [some "h264", some "hevc"]).step (.attach (some 1))
  rcases hsei ((hsampled.modified_iff _ _ _).mpr
    ⟨⟨_, rfl, rfl⟩, _, rfl, rfl, by decide, by decide⟩) with ⟨_, ⟨⟩, -, htrack⟩
  exact absurd htrack (by decide)

end ObsBeacon.ConnectionMonitor
