import ObsBeacon.PacketProbe.SeiRoundTrip

/-! Which packets `onPacket` modifies, and what handling a packet leaves unchanged. -/
namespace ObsBeacon.PacketProbe

/-- The members set by `attach` and `detach` that the injection depends on. -/
def Probe.config (p : Probe) : Bool × Bool × Bool := (p.attached, p.injectEnabled, p.codecIsH264)

theorem addTimings_config (p : Probe) (time : Option EncoderPacketTime) :
    (addTimings p time).config = p.config := by
  cases time with
  | none => rfl
  | some t =>
    simp only [addTimings]
    split_ifs <;> rfl

theorem sampleNal_config (p : Probe) (pkt : EncoderPacket) :
    (sampleNal p pkt).1.config = p.config := by
  unfold sampleNal
  split
  · rfl
  · split_ifs <;> rfl

theorem accountPacket_config (p : Probe) (pkt : EncoderPacket) (time : Option EncoderPacketTime) :
    (accountPacket p pkt time).1.config = p.config := by
  have hopen : (if p.haveWindow then p else resetWindow p (windowClock time)).config =
      p.config := by
    split_ifs <;> rfl
  rw [accountPacket, ← hopen]
  generalize (if p.haveWindow then p else resetWindow p (windowClock time)) = q
  have hsample : (sampleNal (addTimings (countPacket q pkt) time) pkt).1.config = q.config := by
    rw [sampleNal_config, addTimings_config]
    rfl
  dsimp only
  split_ifs
  · exact hsample
  · exact hsample

theorem onPacket_config (p : Probe) (pkt : Option EncoderPacket)
    (time : Option EncoderPacketTime) (clock : Clock) :
    (onPacket p pkt time clock).1.config = p.config := by
  cases pkt with
  | none => rfl
  | some pkt =>
    simp only [onPacket]
    split_ifs
    · rfl
    · simp only [onVideoPacket]
      split_ifs
      · exact accountPacket_config p pkt time
      · exact accountPacket_config p pkt time
      · exact accountPacket_config p pkt time

@[simp] theorem onPacket_attached (p : Probe) (pkt : Option EncoderPacket)
    (time : Option EncoderPacketTime) (clock : Clock) :
    (onPacket p pkt time clock).1.attached = p.attached :=
  congrArg Prod.fst (onPacket_config p pkt time clock)

/-- The accounting does not change the guard of the injection. -/
theorem injects_accountPacket (p : Probe) (pkt : EncoderPacket)
    (time : Option EncoderPacketTime) :
    injects (accountPacket p pkt time).1 pkt = injects p pkt := by
  have hconfig := accountPacket_config p pkt time
  simp only [Probe.config, Prod.mk.injEq] at hconfig
  simp only [injects, hconfig.2.1, hconfig.2.2]

/-- The packet `onPacket` hands on. -/
theorem onPacket_packet (p : Probe) (pkt : EncoderPacket) (time : Option EncoderPacketTime)
    (clock : Clock) :
    (onPacket p (some pkt) time clock).2.1 =
      some (if pkt.type = .video ∧ injects p pkt then
        injectSei pkt (tEncodeMs clock time) (sourceLatencyMs time) else pkt) := by
  simp only [onPacket, onVideoPacket, injects_accountPacket]
  split_ifs <;> simp_all

/-- The unit put in front of the data is never empty. -/
theorem injectSei_ne (pkt : EncoderPacket) (hdata : pkt.data.isSome) (t s : UInt64) :
    injectSei pkt t s ≠ pkt := by
  obtain ⟨d, hd⟩ := Option.isSome_iff_exists.mp hdata
  intro h
  rw [injectSei_eq hd t s] at h
  have hlen : (([0, 0, 0, 1] ++ seiNal t s) ++ d).length = d.length :=
    congrArg List.length (Option.some.inj ((congrArg EncoderPacket.data h).trans hd))
  simp only [List.length_append, List.length_cons] at hlen
  omega

/-- A packet passes unmodified exactly when the guard of the injection rejects it. -/
theorem onPacket_unmodified_iff (p : Probe) (pkt : Option EncoderPacket)
    (time : Option EncoderPacketTime) (clock : Clock) :
    (onPacket p pkt time clock).2.1 = pkt ↔
      ∀ q ∈ pkt, ¬ (q.type = .video ∧ injects p q) := by
  cases pkt with
  | none => simp [onPacket]
  | some q =>
    rw [onPacket_packet]
    simp only [Option.some.injEq, Option.mem_def, forall_eq']
    constructor
    · intro h hinj
      rw [if_pos hinj] at h
      have hdata : q.data.isSome := by
        have := hinj.2
        simp only [injects, Bool.and_eq_true] at this
        exact this.1.2
      exact injectSei_ne q hdata _ _ h
    · intro h
      rw [if_neg h]

end ObsBeacon.PacketProbe
