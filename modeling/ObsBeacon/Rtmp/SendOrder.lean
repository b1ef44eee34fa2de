import Mathlib.Data.List.ReduceOption
import Mathlib.Data.List.TakeWhile
import ObsBeacon.Rtmp.SendThread

/-! What the send thread puts on the wire, in what order, and how it ends. -/
namespace ObsBeacon.Rtmp
open Dropping

section CarryOut
variable (attempts : List Attempt) (failAfter : Option ℕ)

theorem prefix_carryOut :
    (carryOut attempts failAfter).1 <+: attempts.filterMap Attempt.piece := by
  have htried : failAfter.elim attempts attempts.take <+: attempts := by
    cases failAfter with
    | none => exact List.prefix_rfl
    | some n => exact List.take_prefix n attempts
  exact ((List.takeWhile_prefix _).trans htried).filterMap Attempt.piece

theorem carryOut_all (hall : (carryOut attempts failAfter).2 = true) :
    (carryOut attempts failAfter).1 = attempts.filterMap Attempt.piece := by
  rw [carryOut, Bool.and_eq_true] at hall
  have htried : failAfter.elim attempts attempts.take = attempts := by
    cases failAfter with
    | none => rfl
    | some n => exact List.take_of_length_le (of_decide_eq_true hall.2)
  rw [carryOut, htried]
  exact congrArg (List.filterMap Attempt.piece)
    (List.takeWhile_eq_self_iff.mpr (List.all_eq_true.mp hall.1))

end CarryOut

def headerPieces (codecs : Codecs) (e : Encoders) : List Piece :=
  (sendHeaders codecs e).filterMap Attempt.piece

def footerPieces (codecs : Codecs) (e : Encoders) : List Piece :=
  (sendFooters codecs e).filterMap Attempt.piece

/-- What is on the wire: headers, packets in the order they were taken, footers. -/
structure SendStream.Order (s : SendStream) (hs : List Piece) (ps : List EncoderPacket)
    (fs : List Piece) : Prop where
  wire : s.wire = hs ++ ps.map Piece.packet ++ fs
  headers : hs <+: headerPieces s.codecs s.encoders
  packets : ps ≠ [] → hs = headerPieces s.codecs s.encoders
  footers : fs <+: footerPieces s.codecs s.encoders
  ended : fs ≠ [] → s.disconnected = false
  last : ∃ last, s.traffic.taken = ps ++ last ∧ last.length ≤ 1

/-- The order while the stream runs. -/
structure SendStream.Ordering (s : SendStream) (hs : List Piece) (ps : List EncoderPacket)
    (fs : List Piece) : Prop extends s.Order hs ps fs where
  unsent : s.phase.running = true → s.sentHeaders = false → hs = [] ∧ ps = []
  sent : s.phase.running = true → s.sentHeaders = true → hs = headerPieces s.codecs s.encoders
  ready : ∀ p, s.phase = .ready p → s.sentHeaders = true
  taken : s.phase.running = true → s.traffic.taken = ps ++ s.phase.held
  still : s.phase.running = true ∨ s.phase = .leaving → fs = []

section Ordering
variable {s s' : SendStream} {hs fs : List Piece} {ps : List EncoderPacket}

theorem ordering_sendEq (h : s.Ordering hs ps fs) (heq : s.SendEq s') : s'.Ordering hs ps fs := by
  obtain ⟨-, hcodecs, hencoders, hwire, hphase, hsent, hdisconnected, -, htaken⟩ := heq
  exact
    { wire := hwire.trans h.wire
      headers := hcodecs ▸ hencoders ▸ h.headers
      packets := hcodecs ▸ hencoders ▸ h.packets
      footers := hcodecs ▸ hencoders ▸ h.footers
      ended := hdisconnected ▸ h.ended
      last := htaken ▸ h.last
      unsent := hphase ▸ hsent ▸ h.unsent
      sent := hphase ▸ hsent ▸ hcodecs ▸ hencoders ▸ h.sent
      ready := hphase ▸ hsent ▸ h.ready
      taken := hphase ▸ htaken ▸ h.taken
      still := hphase ▸ h.still }

/-- A step within the loop that sends nothing. -/
theorem Ordering.silent (h : s.Ordering hs ps fs) (hrunning : s.phase.running = true)
    (hwire : s'.wire = s.wire) (hcodecs : s'.codecs = s.codecs)
    (hencoders : s'.encoders = s.encoders) (hsent : s'.sentHeaders = s.sentHeaders)
    (hready : ∀ p, s'.phase = .ready p → s.sentHeaders = true)
    (htaken : s'.traffic.taken = ps ++ s'.phase.held) : s'.Ordering hs ps fs := by
  have hnone : fs = [] := h.still (.inl hrunning)
  have hbound : s'.phase.held.length ≤ 1 := by
    cases s'.phase <;> simp [SendPhase.held]
  exact
    { wire := hwire.trans h.wire
      headers := hcodecs ▸ hencoders ▸ h.headers
      packets := hcodecs ▸ hencoders ▸ h.packets
      footers := hcodecs ▸ hencoders ▸ h.footers
      ended := fun hne => absurd hnone hne
      last := ⟨_, htaken, hbound⟩
      unsent := fun _ hno => h.unsent hrunning (hsent ▸ hno)
      sent := fun _ hyes => hcodecs ▸ hencoders ▸ h.sent hrunning (hsent ▸ hyes)
      ready := fun p hp => hsent ▸ hready p hp
      taken := fun _ => htaken
      still := fun _ => hnone }

/-- A step that leaves the loop without sending. -/
theorem Ordering.leave (h : s.Ordering hs ps fs) (hrunning : s.phase.running = true)
    (hwire : s'.wire = s.wire) (hcodecs : s'.codecs = s.codecs)
    (hencoders : s'.encoders = s.encoders) (hphase : s'.phase = .leaving)
    (htaken : s'.traffic.taken = s.traffic.taken) : s'.Ordering hs ps fs := by
  have hnone : fs = [] := h.still (.inl hrunning)
  exact
    { wire := hwire.trans h.wire
      headers := hcodecs ▸ hencoders ▸ h.headers
      packets := hcodecs ▸ hencoders ▸ h.packets
      footers := hcodecs ▸ hencoders ▸ h.footers
      ended := fun hne => absurd hnone hne
      last := htaken ▸ h.last
      unsent := fun hr => absurd (hphase ▸ hr) nofun
      sent := fun hr => absurd (hphase ▸ hr) nofun
      ready := fun p hp => absurd (hphase.symm.trans hp) nofun
      taken := fun hr => absurd (hphase ▸ hr) nofun
      still := fun _ => hnone }

theorem held_getNextPacket (q : PacketQueue) :
    (q.getNextPacket.1.elim SendPhase.waiting SendPhase.holding).held =
      q.getNextPacket.1.toList := by
  cases q.getNextPacket.1 <;> rfl

theorem ordering_headers {p : EncoderPacket} (h : s.Ordering hs ps fs)
    (hphase : s.phase = .cleared p) (hno : s.sentHeaders = false) (o : StepOutcome) :
    ∃ hs', (s.headers p o).Ordering hs' ps fs := by
  have hrunning : s.phase.running = true := by rw [hphase]; rfl
  have hnone : fs = [] := h.still (.inl hrunning)
  obtain ⟨hhs, hps⟩ := h.unsent hrunning hno
  have htaken : s.traffic.taken = ps ++ [p] := (h.taken hrunning).trans (by rw [hphase]; rfl)
  have hwire : s.wire ++ (carryOut (sendHeaders s.codecs s.encoders) o.failAfter).1 =
      (carryOut (sendHeaders s.codecs s.encoders) o.failAfter).1 ++ ps.map Piece.packet ++ fs := by
    rw [h.wire, hhs, hps, hnone]
    simp
  refine ⟨(carryOut (sendHeaders s.codecs s.encoders) o.failAfter).1, ?_⟩
  rw [SendStream.headers]
  split_ifs with hall
  · exact
      { wire := hwire
        headers := prefix_carryOut _ _
        packets := fun _ => carryOut_all _ _ hall
        footers := h.footers
        ended := fun hne => absurd hnone hne
        last := ⟨[p], htaken, le_refl 1⟩
        unsent := fun _ hfalse => Bool.noConfusion hfalse
        sent := fun _ _ => carryOut_all _ _ hall
        ready := fun _ _ => rfl
        taken := fun _ => htaken
        still := fun _ => hnone }
  · exact
      { wire := hwire
        headers := prefix_carryOut _ _
        packets := fun hne => absurd hps hne
        footers := h.footers
        ended := fun hne => absurd hnone hne
        last := ⟨[p], htaken, le_refl 1⟩
        unsent := fun hr => Bool.noConfusion hr
        sent := fun hr => Bool.noConfusion hr
        ready := fun _ hp => SendPhase.noConfusion hp
        taken := fun hr => Bool.noConfusion hr
        still := fun _ => hnone }

theorem ordering_sendPacket {p : EncoderPacket} (h : s.Ordering hs ps fs)
    (hphase : s.phase = .ready p) (o : StepOutcome) :
    ∃ ps', (s.sendPacket p o).Ordering hs ps' fs := by
  have hrunning : s.phase.running = true := by rw [hphase]; rfl
  have hnone : fs = [] := h.still (.inl hrunning)
  have htaken : s.traffic.taken = ps ++ [p] := (h.taken hrunning).trans (by rw [hphase]; rfl)
  have hall : hs = headerPieces s.codecs s.encoders := h.sent hrunning (h.ready p hphase)
  rw [SendStream.sendPacket]
  cases o.result with
  | socketError => exact ⟨ps, Ordering.leave h hrunning rfl rfl rfl rfl rfl⟩
  | writeError => exact ⟨ps, Ordering.leave h hrunning rfl rfl rfl rfl rfl⟩
  | written =>
    refine ⟨ps ++ [p], ?_⟩
    exact
      { wire := by
          show s.wire ++ [Piece.packet p] = _
          rw [h.wire, hnone, List.map_append]
          simp
        headers := h.headers
        packets := fun _ => hall
        footers := h.footers
        ended := fun hne => absurd hnone hne
        last := ⟨[], htaken.trans (List.append_nil _).symm, Nat.zero_le 1⟩
        unsent := fun _ hno => Bool.noConfusion ((h.ready p hphase).symm.trans hno)
        sent := fun _ _ => hall
        ready := fun _ hp => SendPhase.noConfusion hp
        taken := fun _ => htaken.trans (List.append_nil _).symm
        still := fun _ => hnone }

/-- Behind the loop only footers can follow. -/
theorem Ordering.after (h : s.Order hs ps fs) (hphase : s'.phase.running = false)
    (hleaving : s'.phase ≠ .leaving) (hready : ∀ p, s'.phase ≠ .ready p) (hwire : s'.wire = s.wire)
    (hcodecs : s'.codecs = s.codecs) (hencoders : s'.encoders = s.encoders)
    (hdisconnected : s'.disconnected = s.disconnected)
    (htaken : s'.traffic.taken = s.traffic.taken) : s'.Ordering hs ps fs :=
  { wire := hwire.trans h.wire
    headers := hcodecs ▸ hencoders ▸ h.headers
    packets := hcodecs ▸ hencoders ▸ h.packets
    footers := hcodecs ▸ hencoders ▸ h.footers
    ended := hdisconnected ▸ h.ended
    last := htaken ▸ h.last
    unsent := fun hr => Bool.noConfusion (hphase.symm.trans hr)
    sent := fun hr => Bool.noConfusion (hphase.symm.trans hr)
    ready := fun p hp => absurd hp (hready p)
    taken := fun hr => Bool.noConfusion (hphase.symm.trans hr)
    still := fun hr => hr.elim (fun hr => Bool.noConfusion (hphase.symm.trans hr))
      fun hl => absurd hl hleaving }

theorem ordering_footers (h : s.Ordering hs ps fs) (hphase : s.phase = .leaving) (o : StepOutcome) :
    ∃ fs', (s.sendFrom o .leaving).Ordering hs ps fs' := by
  have hnone : fs = [] := h.still (.inr hphase)
  rw [SendStream.sendFrom]
  by_cases hgone : s.disconnected = true
  · refine ⟨fs, Ordering.after h.toOrder rfl SendPhase.noConfusion
      (fun _ => SendPhase.noConfusion) ?_ rfl rfl rfl rfl⟩
    exact if_pos hgone
  · have hsent : ({ s with
        wire := s.wire ++ (carryOut (sendFooters s.codecs s.encoders) o.failAfter).1 } :
          SendStream).Order hs ps (carryOut (sendFooters s.codecs s.encoders) o.failAfter).1 :=
      { wire := by
          show s.wire ++ _ = _
          rw [h.wire, hnone, List.append_nil]
        headers := h.headers
        packets := h.packets
        footers := prefix_carryOut _ _
        ended := fun _ => Bool.eq_false_iff.mpr hgone
        last := h.last }
    refine ⟨_, Ordering.after hsent rfl SendPhase.noConfusion
      (fun _ => SendPhase.noConfusion) ?_ rfl rfl rfl rfl⟩
    exact if_neg hgone

theorem ordering_sendThread (h : s.Ordering hs ps fs) (o : StepOutcome) :
    ∃ hs' ps' fs', (s.sendThread o).Ordering hs' ps' fs' := by
  refine sendThread_cases (P := fun s' => ∃ hs' ps' fs', s'.Ordering hs' ps' fs')
    ⟨hs, ps, fs, h⟩ ?_
  cases hphase : s.phase with
  | waiting =>
    have htaken := h.taken (by rw [hphase]; rfl)
    rw [hphase] at htaken
    rw [SendStream.sendFrom]
    split_ifs
    · exact ⟨hs, ps, fs, h⟩
    · exact ⟨hs, ps, fs, Ordering.silent h (by rw [hphase]; rfl) rfl rfl rfl rfl
        (fun _ hp => SendPhase.noConfusion hp) htaken⟩
  | awake =>
    have htaken := h.taken (by rw [hphase]; rfl)
    rw [hphase] at htaken
    rw [SendStream.sendFrom]
    split_ifs
    · exact ⟨hs, ps, fs, Ordering.leave h (by rw [hphase]; rfl) rfl rfl rfl rfl rfl⟩
    · exact ⟨hs, ps, fs, Ordering.silent h (by rw [hphase]; rfl) rfl rfl rfl rfl
        (fun _ hp => SendPhase.noConfusion hp) htaken⟩
  | tested =>
    have hempty : SendPhase.tested.held = [] := rfl
    have htaken := h.taken (by rw [hphase]; rfl)
    rw [hphase, hempty, List.append_nil] at htaken
    refine ⟨hs, ps, fs, Ordering.silent h (by rw [hphase]; rfl) rfl rfl rfl rfl ?_ ?_⟩
    · intro p hp
      have hready : s.traffic.queue.getNextPacket.1.elim SendPhase.waiting SendPhase.holding =
        .ready p := hp
      cases hnext : s.traffic.queue.getNextPacket.1 with
      | none => rw [hnext] at hready; cases hready
      | some p' => rw [hnext] at hready; cases hready
    · show s.traffic.taken ++ _ =
        ps ++ (s.traffic.queue.getNextPacket.1.elim SendPhase.waiting SendPhase.holding).held
      rw [htaken, held_getNextPacket]
  | holding p =>
    have htaken := h.taken (by rw [hphase]; rfl)
    rw [hphase] at htaken
    rw [SendStream.sendFrom]
    split_ifs
    · exact ⟨hs, ps, fs, Ordering.leave h (by rw [hphase]; rfl) rfl rfl rfl rfl rfl⟩
    · exact ⟨hs, ps, fs, Ordering.silent h (by rw [hphase]; rfl) rfl rfl rfl rfl
        (fun _ hp => SendPhase.noConfusion hp) htaken⟩
  | cleared p =>
    have htaken := h.taken (by rw [hphase]; rfl)
    rw [hphase] at htaken
    rw [SendStream.sendFrom]
    by_cases hsent : s.sentHeaders = true
    · rw [if_pos hsent]
      exact ⟨hs, ps, fs, Ordering.silent h (by rw [hphase]; rfl) rfl rfl rfl rfl
        (fun _ _ => hsent) htaken⟩
    · rw [if_neg hsent]
      obtain ⟨hs', h'⟩ := ordering_headers h hphase (Bool.eq_false_iff.mpr hsent) o
      exact ⟨hs', ps, fs, h'⟩
  | ready p =>
    obtain ⟨ps', h'⟩ := ordering_sendPacket h hphase o
    exact ⟨hs, ps', fs, h'⟩
  | leaving =>
    obtain ⟨fs', h'⟩ := ordering_footers h hphase o
    exact ⟨hs, ps, fs', h'⟩
  | joining =>
    rw [SendStream.sendFrom]
    exact ⟨hs, ps, fs, Ordering.after h.toOrder rfl SendPhase.noConfusion
      (fun _ => SendPhase.noConfusion) rfl rfl rfl rfl rfl⟩
  | closed =>
    rw [SendStream.sendFrom]
    exact ⟨hs, ps, fs, Ordering.after h.toOrder rfl SendPhase.noConfusion
      (fun _ => SendPhase.noConfusion) rfl rfl rfl rfl rfl⟩
  | freed =>
    rw [SendStream.sendFrom]
    exact ⟨hs, ps, fs, Ordering.after h.toOrder rfl SendPhase.noConfusion
      (fun _ => SendPhase.noConfusion) rfl rfl rfl rfl rfl⟩
  | reset =>
    rw [SendStream.sendFrom]
    exact ⟨hs, ps, fs, Ordering.after h.toOrder rfl SendPhase.noConfusion
      (fun _ => SendPhase.noConfusion) rfl rfl rfl rfl rfl⟩
  | done => exact ⟨hs, ps, fs, h⟩

theorem ordering_step (parser : Parser) (h : s.Ordering hs ps fs) (e : StreamEvent) :
    ∃ hs' ps' fs', (s.step parser e).Ordering hs' ps' fs' := by
  cases hthread : e.isSendThread with
  | true =>
    cases e with
    | sendThread o => exact ordering_sendThread h o
    | _ => exact Bool.noConfusion hthread
  | false => exact ⟨hs, ps, fs, ordering_sendEq h (sendEq_step parser s hthread)⟩

end Ordering

/-- The queue has not been freed yet. -/
def SendPhase.unfreed : SendPhase → Bool
  | .freed | .reset | .done => false
  | _ => true

/-- The log of all that was offered, with what was freed at the end. -/
def SendStream.Accounted (s : SendStream) : Prop :=
  ∃ freed settled pending, (s.phase.unfreed = true → freed = []) ∧
    Split s.traffic.queue s.traffic.offered (s.traffic.taken ++ freed) settled pending

section Accounted
variable {s s' : SendStream}

theorem accounted_of_eq (h : s.Accounted) (htraffic : s'.traffic = s.traffic)
    (hunfreed : s'.phase.unfreed = true → s.phase.unfreed = true) : s'.Accounted := by
  obtain ⟨freed, settled, pending, hfreed, hs⟩ := h
  exact ⟨freed, settled, pending, fun ho => hfreed (hunfreed ho), htraffic ▸ hs⟩

theorem accounted_resume (h : s.Accounted) (calls : List DataCall) (call : DataCall) :
    (s.resume calls call).Accounted := by
  cases call with
  | locking p clock =>
    rw [SendStream.resume]
    by_cases hgone : s.disconnected = true
    · rw [if_pos hgone]
      exact accounted_of_eq h rfl id
    · rw [if_neg hgone]
      obtain ⟨freed, settled, pending, hfreed, hs⟩ := h
      obtain ⟨pending', hs'⟩ := hs.add p clock
      exact ⟨freed, settled, pending', hfreed, hs'⟩
  | posting => exact accounted_of_eq h rfl id
  | releasing p => exact accounted_of_eq h rfl id

theorem accounted_sendThread (h : s.Accounted) (o : StepOutcome) : (s.sendThread o).Accounted := by
  refine sendThread_cases (P := SendStream.Accounted) h ?_
  cases hphase : s.phase with
  | waiting =>
    rw [SendStream.sendFrom]
    split_ifs
    · exact h
    · exact accounted_of_eq h rfl fun _ => by rw [hphase]; rfl
  | awake => exact accounted_of_eq h rfl fun _ => by rw [hphase]; rfl
  | tested =>
    obtain ⟨freed, settled, pending, hfreed, hs⟩ := h
    have hnone : freed = [] := hfreed (by rw [hphase]; rfl)
    rw [hnone, List.append_nil] at hs
    obtain ⟨settled', pending', hs'⟩ := hs.getNextPacket
    refine ⟨[], settled', pending', fun _ => rfl, ?_⟩
    rw [List.append_nil]
    exact hs'
  | holding p =>
    rw [SendStream.sendFrom]
    split_ifs <;> exact accounted_of_eq h rfl fun _ => by rw [hphase]; rfl
  | cleared p =>
    rw [SendStream.sendFrom, SendStream.headers]
    split_ifs <;> exact accounted_of_eq h rfl fun _ => by rw [hphase]; rfl
  | ready p =>
    rw [SendStream.sendFrom, SendStream.sendPacket]
    cases o.result with
    | socketError => exact accounted_of_eq h rfl fun _ => by rw [hphase]; rfl
    | writeError => exact accounted_of_eq h rfl fun _ => by rw [hphase]; rfl
    | written =>
      obtain ⟨freed, settled, pending, hfreed, hs⟩ := h
      have hnone : freed = [] := hfreed (by rw [hphase]; rfl)
      exact ⟨freed, settled, pending, fun _ => hnone, hs.sent o.frame⟩
  | leaving => exact accounted_of_eq h rfl fun _ => by rw [hphase]; rfl
  | joining => exact accounted_of_eq h rfl fun _ => by rw [hphase]; rfl
  | closed =>
    obtain ⟨freed, settled, pending, hfreed, hs⟩ := h
    have hnone : freed = [] := hfreed (by rw [hphase]; rfl)
    rw [hnone, List.append_nil] at hs
    exact ⟨s.traffic.queue.packets, _, [], fun ho => Bool.noConfusion ho, hs.stopped⟩
  | freed => exact accounted_of_eq h rfl fun ho => Bool.noConfusion ho
  | reset => exact accounted_of_eq h rfl fun ho => Bool.noConfusion ho
  | done => exact h

theorem accounted_step (parser : Parser) (h : s.Accounted) (e : StreamEvent) :
    (s.step parser e).Accounted := by
  cases e with
  | data packet clock =>
    obtain ⟨offset, first, error, calls, added, heq, -⟩ := data_cases parser s packet clock
    rw [SendStream.step, heq]
    exact accounted_of_eq h rfl id
  | resume i =>
    obtain heq | ⟨call, calls, -, heq⟩ := step_resume (s := s) (i := i) parser
    · rw [heq]
      exact h
    · rw [heq]
      exact accounted_resume h calls call
  | stopAt ts =>
    rw [SendStream.step, SendStream.stopAt]
    split_ifs <;> exact accounted_of_eq h rfl id
  | resumeStop =>
    rw [SendStream.step, SendStream.resumeStop.eq_def]
    split <;> exact accounted_of_eq h rfl id
  | sendThread o => exact accounted_sendThread h o

end Accounted

def Piece.isPacket : Piece → Bool
  | .send (.packet _) => true
  | _ => false

def SendStream.packetsSent (s : SendStream) : ℕ := s.wire.countP Piece.isPacket

/-- How many packets the send thread may still send before it tests for a stop. -/
def SendPhase.pending : SendPhase → ℕ
  | .tested | .holding _ | .cleared _ | .ready _ => 1
  | _ => 0

/-- How many steps the send thread takes at most to end, once it finds itself stopped. -/
def SendPhase.rank : SendPhase → ℕ
  | .tested => 11
  | .holding _ => 10
  | .cleared _ => 9
  | .ready _ => 8
  | .waiting => 7
  | .awake => 6
  | .leaving => 5
  | .joining => 4
  | .closed => 3
  | .freed => 2
  | .reset => 1
  | .done => 0

/-- A step of the send thread that does not have to wait for the socket thread. -/
def StreamEvent.moves (newSocketLoop : Bool) : StreamEvent → Bool
  | .sendThread o => !(newSocketLoop && o.stalls)
  | _ => false

/-- A stop without a time is in force: the loop is told, and has a post to wake up to. -/
def SendStream.Forced (s : SendStream) : Prop :=
  s.phase.running = true →
    s.stopping = true ∧ s.stopTs = 0 ∧ (s.sendSem ≠ 0 ∨ s.phase = .awake)

theorem sendExtra_isPacket {header : Option (List UInt8)} {send : List UInt8 → Send} {piece : Piece}
    (hsend : ∀ extra, (Piece.send (send extra)).isPacket = false)
    (h : (sendExtra header send).piece = some piece) : piece.isPacket = false := by
  cases header with
  | none => cases h
  | some extra =>
    obtain rfl := Option.some.inj h
    exact hsend extra

theorem videoMetadata_isPacket {codecs : Codecs} {encoder : VideoEncoder} {idx : ℕ}
    {attempt : Attempt} (h : attempt ∈ videoMetadata codecs encoder idx) {piece : Piece}
    (hpiece : attempt.piece = some piece) : piece.isPacket = false := by
  have hattempt : attempt = .fails ∨ attempt = .looks ∨ attempt = .sends (.videoMetadata idx) := by
    unfold videoMetadata at h
    split at h
    · exact .inl (List.mem_singleton.mp h)
    · split_ifs at h
      · exact .inr (.inl (List.mem_singleton.mp h))
      · exact .inr (.inr (List.mem_singleton.mp h))
    · split_ifs at h
      · exact .inr (.inl (List.mem_singleton.mp h))
      · exact .inr (.inr (List.mem_singleton.mp h))
    · cases h
  rcases hattempt with rfl | rfl | rfl
  · cases hpiece
  · cases hpiece
  · obtain rfl := Option.some.inj hpiece
    rfl

theorem sendHeaders_isPacket (codecs : Codecs) (e : Encoders) :
    (headerPieces codecs e).countP Piece.isPacket = 0 := by
  rw [headerPieces, List.countP_eq_zero]
  intro piece hmem
  rw [Bool.not_eq_true]
  obtain ⟨attempt, hattempt, hpiece⟩ := List.mem_filterMap.mp hmem
  rw [sendHeaders, List.mem_append, List.mem_append] at hattempt
  have haudio : ∀ l : List (Encoder × ℕ), attempt ∈ l.map (fun t => audioHeader t.1 t.2) →
      piece.isPacket = false := by
    intro l hl
    obtain ⟨t, -, rfl⟩ := List.mem_map.mp hl
    exact sendExtra_isPacket (fun _ => rfl) hpiece
  rcases hattempt with (hfirst | hvideo) | hothers
  · exact haudio _ (List.mem_of_mem_take hfirst)
  · obtain ⟨⟨encoder, idx⟩, -, hin⟩ := List.mem_flatMap.mp hvideo
    cases encoder with
    | none => cases hin
    | some encoder =>
      rcases List.mem_append.mp hin with hmeta | hheader
      · exact videoMetadata_isPacket hmeta hpiece
      · obtain rfl := List.mem_singleton.mp hheader
        unfold videoHeader at hpiece
        split at hpiece
        · cases hpiece
        · cases hpiece
        · exact sendExtra_isPacket (fun _ => rfl) hpiece
        · exact sendExtra_isPacket (fun _ => rfl) hpiece
  · exact haudio _ (List.mem_of_mem_drop hothers)

theorem sendFooters_isPacket (codecs : Codecs) (e : Encoders) :
    (footerPieces codecs e).countP Piece.isPacket = 0 := by
  rw [footerPieces, List.countP_eq_zero]
  intro piece hmem
  obtain ⟨attempt, hattempt, hpiece⟩ := List.mem_filterMap.mp hmem
  obtain ⟨t, -, hsome⟩ := List.mem_filterMap.mp hattempt
  split_ifs at hsome
  cases hsome
  cases hpiece
  exact nofun

theorem carryOut_isPacket {attempts : List Attempt} (failAfter : Option ℕ)
    (hnone : (attempts.filterMap Attempt.piece).countP Piece.isPacket = 0) :
    (carryOut attempts failAfter).1.countP Piece.isPacket = 0 :=
  Nat.le_zero.mp (hnone ▸ (prefix_carryOut attempts failAfter).sublist.countP_le)

section Forced
variable {s s' : SendStream}

/-- What the other threads do leaves a stop in force. -/
theorem forced_other (parser : Parser) (h : s.Forced) {e : StreamEvent}
    (hother : e.isSendThread = false) : (s.step parser e).Forced := by
  cases e with
  | data packet clock =>
    obtain ⟨offset, first, error, calls, added, heq, -⟩ := data_cases parser s packet clock
    rw [SendStream.step, heq]
    exact h
  | resume i =>
    obtain heq | ⟨call, calls, -, heq⟩ := step_resume (s := s) (i := i) parser
    · rw [heq]
      exact h
    · rw [heq]
      cases call with
      | locking p clock =>
        rw [SendStream.resume]
        split_ifs <;> exact h
      | posting =>
        intro hrunning
        obtain ⟨hstopping, hts, -⟩ := h hrunning
        exact ⟨hstopping, hts, .inl (Nat.succ_ne_zero _)⟩
      | releasing p => exact h
  | stopAt ts =>
    rw [SendStream.step, SendStream.stopAt]
    by_cases hbusy : s.stop.isSome || s.stopping && ts ≠ 0
    · rw [if_pos hbusy]
      exact h
    · rw [if_neg hbusy]
      intro hrunning
      obtain ⟨hstopping, -, hawake⟩ := h hrunning
      have hzero : ts = 0 := by
        rw [hstopping] at hbusy
        by_contra hne
        exact hbusy (by simp [hne])
      exact ⟨hstopping, by rw [hzero], hawake⟩
  | resumeStop =>
    rw [SendStream.step, SendStream.resumeStop.eq_def]
    split
    · exact h
    · exact h
    · intro hrunning
      obtain ⟨-, hts, hawake⟩ := h hrunning
      exact ⟨rfl, hts, hawake⟩
    · intro hrunning
      obtain ⟨hstopping, hts, -⟩ := h hrunning
      exact ⟨hstopping, hts, .inl (Nat.succ_ne_zero _)⟩
  | sendThread o => exact Bool.noConfusion hother

/-- A step of the send thread under a stop brings it closer to its end. -/
structure Closer (s s' : SendStream) : Prop where
  forced : s'.Forced
  sent : s'.packetsSent + s'.phase.pending ≤ s.packetsSent + s.phase.pending
  rank : s'.phase.rank ≤ s.phase.rank - 1

/-- A step out of the loop, or behind it, that sends no packet. -/
theorem closer_behind (hbehind : s'.phase.running = false)
    (hsent : s'.packetsSent = s.packetsSent) (hpending : s'.phase.pending = 0)
    (hrank : s'.phase.rank ≤ s.phase.rank - 1) : Closer s s' :=
  ⟨fun hr => Bool.noConfusion (hbehind.symm.trans hr), by omega, hrank⟩

theorem packetsSent_append (wire : List Piece) {pieces : List Piece}
    (hnone : pieces.countP Piece.isPacket = 0) :
    (wire ++ pieces).countP Piece.isPacket = wire.countP Piece.isPacket := by
  rw [List.countP_append, hnone, Nat.add_zero]

theorem closer_sendFrom (h : s.Forced) (o : StepOutcome) : Closer s (s.sendFrom o s.phase) := by
  have hpost : s.phase.running = true → s.phase ≠ .awake → s.sendSem ≠ 0 :=
    fun hr hne => (h hr).2.2.resolve_right hne
  cases hphase : s.phase with
  | waiting =>
    obtain ⟨hstopping, hts, -⟩ := h (by rw [hphase]; rfl)
    have hsem : s.sendSem ≠ 0 := hpost (by rw [hphase]; rfl) (by rw [hphase]; nofun)
    rw [SendStream.sendFrom, if_neg hsem]
    exact ⟨fun _ => ⟨hstopping, hts, .inr rfl⟩, by rw [hphase]; exact le_refl _,
      by rw [hphase]; exact le_refl _⟩
  | awake =>
    obtain ⟨hstopping, hts, -⟩ := h (by rw [hphase]; rfl)
    have hleave : (s.stopping && s.stopTs == 0) = true := by rw [hstopping, hts]; rfl
    rw [SendStream.sendFrom, if_pos hleave]
    exact closer_behind rfl rfl rfl (by rw [hphase]; exact le_refl _)
  | tested =>
    obtain ⟨hstopping, hts, -⟩ := h (by rw [hphase]; rfl)
    have hsem : s.sendSem ≠ 0 := hpost (by rw [hphase]; rfl) (by rw [hphase]; nofun)
    refine ⟨fun _ => ⟨hstopping, hts, .inl hsem⟩, ?_, ?_⟩
    · show s.packetsSent +
        (s.traffic.queue.getNextPacket.1.elim SendPhase.waiting SendPhase.holding).pending ≤ _
      rw [hphase]
      cases s.traffic.queue.getNextPacket.1 <;> simp [SendPhase.pending]
    · show (s.traffic.queue.getNextPacket.1.elim SendPhase.waiting SendPhase.holding).rank ≤ _
      rw [hphase]
      cases s.traffic.queue.getNextPacket.1 <;> simp [SendPhase.rank]
  | holding p =>
    obtain ⟨hstopping, hts, -⟩ := h (by rw [hphase]; rfl)
    have hsem : s.sendSem ≠ 0 := hpost (by rw [hphase]; rfl) (by rw [hphase]; nofun)
    rw [SendStream.sendFrom]
    split_ifs
    · exact closer_behind rfl rfl rfl (by rw [hphase]; simp [SendPhase.rank])
    · exact ⟨fun _ => ⟨hstopping, hts, .inl hsem⟩, by rw [hphase]; exact le_refl _,
        by rw [hphase]; exact le_refl _⟩
  | cleared p =>
    obtain ⟨hstopping, hts, -⟩ := h (by rw [hphase]; rfl)
    have hsem : s.sendSem ≠ 0 := hpost (by rw [hphase]; rfl) (by rw [hphase]; nofun)
    rw [SendStream.sendFrom]
    by_cases hsent : s.sentHeaders = true
    · rw [if_pos hsent]
      exact ⟨fun _ => ⟨hstopping, hts, .inl hsem⟩, by rw [hphase]; exact le_refl _,
        by rw [hphase]; exact le_refl _⟩
    · have hnone := packetsSent_append s.wire
        (carryOut_isPacket o.failAfter (sendHeaders_isPacket s.codecs s.encoders))
      rw [if_neg hsent, SendStream.headers]
      split_ifs
      · exact ⟨fun _ => ⟨hstopping, hts, .inl hsem⟩,
          by rw [hphase]; exact (Nat.add_le_add_right hnone.le 1), by rw [hphase]; exact le_refl _⟩
      · exact closer_behind rfl hnone rfl (by rw [hphase]; simp [SendPhase.rank])
  | ready p =>
    obtain ⟨hstopping, hts, -⟩ := h (by rw [hphase]; rfl)
    have hsem : s.sendSem ≠ 0 := hpost (by rw [hphase]; rfl) (by rw [hphase]; nofun)
    rw [SendStream.sendFrom, SendStream.sendPacket]
    cases o.result with
    | socketError => exact closer_behind rfl rfl rfl (by rw [hphase]; simp [SendPhase.rank])
    | writeError => exact closer_behind rfl rfl rfl (by rw [hphase]; simp [SendPhase.rank])
    | written =>
      refine ⟨fun _ => ⟨hstopping, hts, .inl hsem⟩, ?_, by rw [hphase]; exact le_refl _⟩
      rw [hphase]
      exact List.countP_append.le
  | leaving =>
    rw [SendStream.sendFrom]
    refine closer_behind rfl ?_ rfl (by rw [hphase]; exact le_refl _)
    show (if s.disconnected then s.wire else _ : List Piece).countP Piece.isPacket = _
    split_ifs
    · rfl
    · exact packetsSent_append s.wire
        (carryOut_isPacket o.failAfter (sendFooters_isPacket s.codecs s.encoders))
  | joining => exact closer_behind rfl rfl rfl (by rw [hphase]; exact le_refl _)
  | closed => exact closer_behind rfl rfl rfl (by rw [hphase]; exact le_refl _)
  | freed => exact closer_behind rfl rfl rfl (by rw [hphase]; exact le_refl _)
  | reset => exact closer_behind rfl rfl rfl (by rw [hphase]; exact le_refl _)
  | done =>
    rw [SendStream.sendFrom]
    exact closer_behind (by rw [hphase]; rfl) rfl (by rw [hphase]; rfl) (by rw [hphase]; rfl)

theorem forced_sendThread (h : s.Forced) (o : StepOutcome) : (s.sendThread o).Forced :=
  sendThread_cases (P := SendStream.Forced) h (closer_sendFrom h o).forced

theorem forced_step (parser : Parser) (h : s.Forced) (e : StreamEvent) :
    (s.step parser e).Forced := by
  cases hthread : e.isSendThread with
  | true =>
    cases e with
    | sendThread o => exact forced_sendThread h o
    | _ => exact Bool.noConfusion hthread
  | false => exact forced_other parser h hthread

/-- A step that has to wait changes nothing; any other brings the thread closer to its end. -/
theorem sendThread_moves (h : s.Forced) (o : StepOutcome) :
    (s.sendThread o).packetsSent + (s.sendThread o).phase.pending ≤
        s.packetsSent + s.phase.pending ∧
      (s.sendThread o).phase.rank ≤
        s.phase.rank - if StreamEvent.moves s.newSocketLoop (.sendThread o) then 1 else 0 := by
  obtain ⟨-, hsent, hrank⟩ := closer_sendFrom h o
  unfold SendStream.sendThread
  by_cases hstalls : (s.newSocketLoop && o.stalls && s.phase.mayStall) = true
  · have hmoves : StreamEvent.moves s.newSocketLoop (.sendThread o) = false := by
      rw [Bool.and_eq_true] at hstalls
      rw [StreamEvent.moves, hstalls.1]
      rfl
    rw [if_pos hstalls, hmoves]
    simp
  · rw [if_neg hstalls]
    refine ⟨hsent, hrank.trans ?_⟩
    split_ifs <;> omega

/-- The way of sending is settled at the start. -/
theorem newSocketLoop_step (parser : Parser) (s : SendStream) (e : StreamEvent) :
    (s.step parser e).newSocketLoop = s.newSocketLoop := by
  cases hthread : e.isSendThread with
  | false => exact (sendEq_step parser s hthread).newSocketLoop
  | true =>
    cases e with
    | sendThread o =>
      refine sendThread_cases (P := fun s' => s'.newSocketLoop = s.newSocketLoop) rfl ?_
      cases s.phase with
      | waiting =>
        rw [SendStream.sendFrom]
        split_ifs <;> rfl
      | holding p =>
        rw [SendStream.sendFrom]
        split_ifs <;> rfl
      | cleared p =>
        rw [SendStream.sendFrom, SendStream.headers]
        split_ifs <;> rfl
      | ready p =>
        rw [SendStream.sendFrom, SendStream.sendPacket]
        cases o.result <;> rfl
      | _ => rfl
    | _ => exact Bool.noConfusion hthread

/-- Under a stop in force, a run sends what is in hand at most, and ends when the send thread has
taken its steps. -/
theorem forced_run (parser : Parser) (h : s.Forced) (es : List StreamEvent) :
    (es.foldl (SendStream.step parser) s).packetsSent ≤ s.packetsSent + s.phase.pending ∧
      (es.foldl (SendStream.step parser) s).phase.rank ≤
        s.phase.rank - es.countP (StreamEvent.moves s.newSocketLoop) := by
  induction es generalizing s with
  | nil => exact ⟨Nat.le_add_right _ _, le_refl _⟩
  | cons e es ih =>
    obtain ⟨hsent, hrank⟩ := ih (forced_step parser h e)
    rw [newSocketLoop_step] at hrank
    rw [List.foldl_cons, List.countP_cons]
    cases hthread : e.isSendThread with
    | true =>
      cases e with
      | sendThread o =>
        obtain ⟨hsent', hrank'⟩ := sendThread_moves h o
        have hstep : s.step parser (.sendThread o) = s.sendThread o := rfl
        rw [hstep] at hsent hrank ⊢
        omega
      | _ => exact Bool.noConfusion hthread
    | false =>
      have heq := sendEq_step parser s hthread
      have hsame : (s.step parser e).packetsSent = s.packetsSent :=
        congrArg (List.countP Piece.isPacket) heq.wire
      have hidle : StreamEvent.moves s.newSocketLoop e = false := by
        cases e with
        | sendThread o => exact Bool.noConfusion hthread
        | _ => rfl
      rw [hsame, heq.phase] at hsent
      rw [heq.phase] at hrank
      rw [hidle]
      exact ⟨hsent, by simpa using hrank⟩

/-- A stop without a time that has returned is in force. -/
structure SendStream.Stoppable (s : SendStream) : Prop where
  active : s.active = false → s.phase.running = false
  forced : s.stop = none → s.stopping = true → s.stopTs = 0 → s.Forced

theorem stoppable_of_eq (h : s.Stoppable) (hactive : s'.active = s.active)
    (hphase : s'.phase = s.phase) (hstop : s'.stop = s.stop) (hstopping : s'.stopping = s.stopping)
    (hts : s'.stopTs = s.stopTs) (hsem : s.sendSem ≤ s'.sendSem) : s'.Stoppable := by
  refine ⟨fun hgone => hphase ▸ h.active (hactive ▸ hgone), fun hnone hset hzero hrunning => ?_⟩
  obtain ⟨-, -, hawake⟩ :=
    h.forced (hstop ▸ hnone) (hstopping ▸ hset) (hts ▸ hzero) (hphase ▸ hrunning)
  exact ⟨hset, hzero, hawake.imp (fun hne => by omega) fun hp => hphase.trans hp⟩

theorem stoppable_resumeStop (h : s.Stoppable) : s.resumeStop.Stoppable := by
  rw [SendStream.resumeStop.eq_def]
  split
  · exact h
  · refine ⟨h.active, fun hnone _ _ hrunning => ?_⟩
    cases hactive : s.active with
    | true =>
      have hsome : (if s.active then some StopCall.signalling else none) = none := hnone
      rw [hactive] at hsome
      cases hsome
    | false => exact Bool.noConfusion ((h.active hactive).symm.trans hrunning)
  · refine ⟨h.active, fun hnone _ hts => ?_⟩
    have hzero : s.stopTs = 0 := hts
    have hsome : (if s.stopTs = 0 then some StopCall.posting else none) = none := hnone
    rw [if_pos hzero] at hsome
    cases hsome
  · exact ⟨h.active, fun _ hstopping hts _ => ⟨hstopping, hts, .inl (Nat.succ_ne_zero _)⟩⟩

/-- The send thread leaves the stop alone until it is behind the loop. -/
theorem stop_sendThread (s : SendStream) (o : StepOutcome) :
    (s.sendThread o).stop = s.stop ∧ (s.sendThread o).stopTs = s.stopTs ∧
      ((s.sendThread o).stopping = true → s.stopping = true) ∧
      ((s.sendThread o).active = false → s.active = false ∨ s.phase = .reset) := by
  refine sendThread_cases (P := fun s' => s'.stop = s.stop ∧ s'.stopTs = s.stopTs ∧
    (s'.stopping = true → s.stopping = true) ∧
    (s'.active = false → s.active = false ∨ s.phase = .reset)) ⟨rfl, rfl, id, .inl⟩ ?_
  cases hphase : s.phase with
  | waiting =>
    rw [SendStream.sendFrom]
    split_ifs <;> exact ⟨rfl, rfl, id, .inl⟩
  | holding p =>
    rw [SendStream.sendFrom]
    split_ifs <;> exact ⟨rfl, rfl, id, .inl⟩
  | cleared p =>
    rw [SendStream.sendFrom, SendStream.headers]
    split_ifs <;> exact ⟨rfl, rfl, id, .inl⟩
  | ready p =>
    rw [SendStream.sendFrom, SendStream.sendPacket]
    cases o.result <;> exact ⟨rfl, rfl, id, .inl⟩
  | freed => exact ⟨rfl, rfl, fun hset => Bool.noConfusion hset, .inl⟩
  | reset => exact ⟨rfl, rfl, id, fun _ => .inr rfl⟩
  | awake => exact ⟨rfl, rfl, id, .inl⟩
  | tested => exact ⟨rfl, rfl, id, .inl⟩
  | leaving => exact ⟨rfl, rfl, id, .inl⟩
  | joining => exact ⟨rfl, rfl, id, .inl⟩
  | closed => exact ⟨rfl, rfl, id, .inl⟩
  | done => exact ⟨rfl, rfl, id, .inl⟩

theorem running_sendThread (s : SendStream) (o : StepOutcome)
    (hrunning : (s.sendThread o).phase.running = true) : s.phase.running = true := by
  revert hrunning
  refine sendThread_cases (P := fun s' => s'.phase.running = true → s.phase.running = true) id ?_
  intro hrunning
  cases hphase : s.phase with
  | done =>
    rw [hphase, SendStream.sendFrom, hphase] at hrunning
    exact hrunning
  | leaving => rw [hphase] at hrunning; exact hrunning
  | joining => rw [hphase] at hrunning; exact hrunning
  | closed => rw [hphase] at hrunning; exact hrunning
  | freed => rw [hphase] at hrunning; exact hrunning
  | reset => rw [hphase] at hrunning; exact hrunning
  | _ => rfl

theorem stoppable_step (parser : Parser) (h : s.Stoppable) (e : StreamEvent) :
    (s.step parser e).Stoppable := by
  cases e with
  | data packet clock =>
    obtain ⟨offset, first, error, calls, added, heq, -⟩ := data_cases parser s packet clock
    rw [SendStream.step, heq]
    exact stoppable_of_eq h rfl rfl rfl rfl rfl (le_refl _)
  | resume i =>
    obtain heq | ⟨call, calls, -, heq⟩ := step_resume (s := s) (i := i) parser
    · rw [heq]
      exact h
    · rw [heq]
      cases call with
      | locking p clock =>
        rw [SendStream.resume]
        split_ifs <;> exact stoppable_of_eq h rfl rfl rfl rfl rfl (le_refl _)
      | posting => exact stoppable_of_eq h rfl rfl rfl rfl rfl (Nat.le_succ _)
      | releasing p => exact stoppable_of_eq h rfl rfl rfl rfl rfl (le_refl _)
  | stopAt ts =>
    rw [SendStream.step, SendStream.stopAt]
    by_cases hbusy : s.stop.isSome || s.stopping && ts ≠ 0
    · rw [if_pos hbusy]
      exact h
    · rw [if_neg hbusy]
      exact ⟨h.active, fun hnone => absurd hnone (Option.some_ne_none _)⟩
  | resumeStop => exact stoppable_resumeStop h
  | sendThread o =>
    obtain ⟨hstop, hts, hstopping, hactive⟩ := stop_sendThread s o
    refine ⟨fun hgone => ?_, fun hnone hset hzero => ?_⟩
    · by_contra hrunning
      have hold := running_sendThread s o (Bool.eq_true_of_not_eq_false hrunning)
      rcases hactive hgone with hgone | hreset
      · exact Bool.noConfusion ((h.active hgone).symm.trans hold)
      · rw [hreset] at hold
        exact Bool.noConfusion hold
    · exact forced_sendThread (h.forced (hstop.symm.trans hnone) (hstopping hset)
        (hts.symm.trans hzero)) o

end Forced

section Runs
variable (parser : Parser) (c : SendSetup) (q : PacketQueue)

/-- Whatever the threads do, the wire carries the headers, then packets in the order in which they
were taken with none left out but the last, then footers unless the connection is lost; and the
packets taken are those kept of what was offered, in order, before those freed and waiting. -/
theorem wire_ordered (es : List StreamEvent) :
    let s := es.foldl (SendStream.step parser) (.start c q)
    ∃ hs ps fs freed log, s.Order hs ps fs ∧
      Account s.traffic.queue s.traffic.offered (s.traffic.taken ++ freed) log := by
  intro s
  have hstart : (SendStream.start c q).Ordering [] [] [] :=
    { wire := rfl
      headers := List.nil_prefix
      packets := fun hne => absurd rfl hne
      footers := List.nil_prefix
      ended := fun hne => absurd rfl hne
      last := ⟨[], rfl, Nat.zero_le 1⟩
      unsent := fun _ _ => ⟨rfl, rfl⟩
      sent := fun _ hsent => Bool.noConfusion hsent
      ready := fun _ hp => SendPhase.noConfusion hp
      taken := fun _ => rfl
      still := fun _ => rfl }
  obtain ⟨hs, ps, fs, hordering⟩ : ∃ hs ps fs, s.Ordering hs ps fs :=
    Runs.invariant (J := fun s : SendStream => ∃ hs ps fs, s.Ordering hs ps fs)
      (fun s e ⟨_, _, _, h⟩ => ordering_step parser h e) ⟨[], [], [], hstart⟩ es
  have hlog : (SendStream.start c q).Accounted :=
    ⟨[], [], [], fun _ => rfl, split_initConnect q c.settings⟩
  obtain ⟨freed, settled, pending, -, hsplit⟩ : s.Accounted :=
    Runs.invariant (J := SendStream.Accounted) (fun s e h => accounted_step parser h e) hlog es
  exact ⟨hs, ps, fs, freed, _, hordering.toOrder, hsplit.account⟩

/-- When a stop without a time has returned, the send thread sends the packet in its hands at most,
whatever the other threads go on to do, and it ends after eleven of its steps in which it does not
have to wait for the socket thread; with the old socket loop it never has to. -/
theorem forced_stop (es es' : List StreamEvent) :
    let s := es.foldl (SendStream.step parser) (.start c q)
    let s' := es'.foldl (SendStream.step parser) s
    s.stop = none → s.stopping = true → s.stopTs = 0 →
      s'.packetsSent ≤ s.packetsSent + 1 ∧
        (11 ≤ es'.countP (StreamEvent.moves c.newSocketLoop) → s'.phase = .done) := by
  intro s s' hstop hstopping hts
  have hstart : (SendStream.start c q).Stoppable :=
    ⟨fun hgone => Bool.noConfusion hgone, fun _ hset => Bool.noConfusion hset⟩
  have hstoppable : s.Stoppable := Runs.invariant (J := SendStream.Stoppable)
    (fun s e h => stoppable_step parser h e) hstart es
  have hloop : s.newSocketLoop = c.newSocketLoop :=
    Runs.invariant (J := fun s : SendStream => s.newSocketLoop = c.newSocketLoop)
      (fun s e h => (newSocketLoop_step parser s e).trans h) rfl es
  obtain ⟨hsent, hrank⟩ := forced_run parser (hstoppable.forced hstop hstopping hts) es'
  rw [hloop] at hrank
  have hpending : s.phase.pending ≤ 1 := by
    cases s.phase <;> simp [SendPhase.pending]
  have hlong : s.phase.rank ≤ 11 := by
    cases s.phase <;> simp [SendPhase.rank]
  refine ⟨hsent.trans (Nat.add_le_add_left hpending _), fun hsteps => ?_⟩
  have hzero : s'.phase.rank = 0 := Nat.le_zero.mp (hrank.trans (by omega))
  cases hphase : s'.phase <;> rw [hphase] at hzero <;> first | rfl | exact absurd hzero (Nat.succ_ne_zero _)

end Runs

def sampleParser : Parser := ⟨fun _ p => p, fun _ _ => rfl⟩

/-- The old socket loop, and times left by an earlier stop. -/
def sampleSetup : SendSetup where
  codecs := sampleCodecs
  encoders := ⟨[], []⟩
  settings := ⟨700, 900, false, false, 0, 160, 6000⟩
  maxShutdownTimeSec := 5
  newSocketLoop := false
  stopTs := 7
  shutdownTimeoutTs := 9

/-- An audio packet is queued while the stream is stopped. -/
def sampleStop : List StreamEvent :=
  [.data (some (samplePacket .audio 0 0 0)) ⟨0, 0, 0⟩, .stopAt 0, .resumeStop, .resume 0, .resumeStop,
    .resumeStop]

theorem forced_stop_sample :
    let s := sampleStop.foldl (SendStream.step sampleParser) (.start sampleSetup {})
    ∀ es' : List StreamEvent,
      (es'.foldl (SendStream.step sampleParser) s).packetsSent ≤ s.packetsSent + 1 ∧
      (11 ≤ es'.countP (StreamEvent.moves false) →
        (es'.foldl (SendStream.step sampleParser) s).phase = .done) :=
  fun es' => forced_stop sampleParser sampleSetup {} sampleStop es' rfl rfl rfl

end ObsBeacon.Rtmp
