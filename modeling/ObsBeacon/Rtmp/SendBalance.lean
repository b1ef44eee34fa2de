import Mathlib.Algebra.BigOperators.Group.Multiset.Basic
import Mathlib.Tactic.Abel
import ObsBeacon.Rtmp.SendThread

/-! Posts and references around the send thread: no packet waits without a post, and no reference
is lost but the one in hand when the connection fails. -/
namespace ObsBeacon.Rtmp

/-- The posts that the send thread has waited for and not yet used up. -/
def SendPhase.token : SendPhase → ℕ
  | .awake | .tested => 1
  | _ => 0

def DataCall.posts : DataCall → ℕ
  | .posting => 1
  | _ => 0

def SendStream.postings (s : SendStream) : ℕ := (s.calls.map DataCall.posts).sum

/-- Every packet that waits has a post of its own, or one on its way. -/
def SendStream.Posted (s : SendStream) : Prop :=
  s.phase.running = true →
    s.traffic.queue.packets.length ≤ s.sendSem + s.postings + s.phase.token

section Posted
variable {s : SendStream}

theorem postings_of_perm {call : DataCall} {calls : List DataCall}
    (hperm : s.calls.Perm (call :: calls)) :
    s.postings = call.posts + (calls.map DataCall.posts).sum :=
  (hperm.map DataCall.posts).sum_eq

theorem posts_after (p : EncoderPacket) (added : Bool) :
    (DataCall.after p added).posts = if added then 1 else 0 := by
  cases added <;> rfl

theorem posted_data (h : s.Posted) (parser : Parser) (packet : Option EncoderPacket)
    (clock : DropClock) : (s.data parser packet clock).Posted := by
  obtain ⟨offset, first, error, calls, added, heq, -⟩ := data_cases parser s packet clock
  rw [heq]
  intro hrunning
  have hold : s.traffic.queue.packets.length ≤
      s.sendSem + (s.calls.map DataCall.posts).sum + s.phase.token := h hrunning
  show s.traffic.queue.packets.length ≤
    s.sendSem + ((calls ++ s.calls).map DataCall.posts).sum + s.phase.token
  rw [List.map_append, List.sum_append]
  omega

theorem posted_resume (h : s.Posted) {call : DataCall} {calls : List DataCall}
    (hperm : s.calls.Perm (call :: calls)) : (s.resume calls call).Posted := by
  have hpostings := postings_of_perm hperm
  cases call with
  | locking p clock =>
    rw [SendStream.resume]
    by_cases hgone : s.disconnected = true
    · rw [if_pos hgone]
      intro hrunning
      have hold := h hrunning
      rw [hpostings] at hold
      exact hold
    · rw [if_neg hgone]
      intro hrunning
      have hold := h hrunning
      have hadd := add_length s.traffic.queue p clock
      rw [← posts_after p] at hadd
      simp only [hpostings, DataCall.posts] at hold
      show (s.traffic.queue.add p clock).1.packets.length ≤
        s.sendSem + ((DataCall.after p (s.traffic.queue.add p clock).2).posts +
          (calls.map DataCall.posts).sum) + s.phase.token
      omega
  | posting =>
    intro hrunning
    have hold := h hrunning
    simp only [hpostings, DataCall.posts] at hold
    show s.traffic.queue.packets.length ≤
      s.sendSem + 1 + (calls.map DataCall.posts).sum + s.phase.token
    omega
  | releasing p =>
    intro hrunning
    have hold := h hrunning
    simp only [hpostings, DataCall.posts] at hold
    show s.traffic.queue.packets.length ≤
      s.sendSem + (calls.map DataCall.posts).sum + s.phase.token
    omega

theorem posted_stopAt (h : s.Posted) (ts : ℕ) : (s.stopAt ts).Posted := by
  rw [SendStream.stopAt]
  split_ifs <;> exact h

theorem posted_resumeStop (h : s.Posted) : s.resumeStop.Posted := by
  rw [SendStream.resumeStop.eq_def]
  split
  · exact h
  · exact h
  · exact h
  · intro hrunning
    have hold : s.traffic.queue.packets.length ≤ s.sendSem + s.postings + s.phase.token :=
      h hrunning
    show s.traffic.queue.packets.length ≤ s.sendSem + 1 + s.postings + s.phase.token
    omega

theorem sent_packets (t : Traffic) (frame : DbrFrame) :
    (t.step (.sent frame)).queue.packets = t.queue.packets := by
  simp only [Traffic.step]
  split_ifs <;> rfl

theorem posted_sendPacket {p : EncoderPacket} (h : s.Posted) (hphase : s.phase = .ready p)
    (o : StepOutcome) : (s.sendPacket p o).Posted := by
  rw [SendStream.sendPacket]
  cases o.result with
  | socketError => exact nofun
  | writeError => exact nofun
  | written =>
    intro _
    have hold := h (by rw [hphase]; rfl)
    rw [hphase] at hold
    show (s.traffic.step (.sent o.frame)).queue.packets.length ≤ s.sendSem + s.postings + 0
    rw [sent_packets]
    exact hold

theorem posted_sendThread (h : s.Posted) (o : StepOutcome) : (s.sendThread o).Posted := by
  refine sendThread_cases (P := SendStream.Posted) h ?_
  cases hphase : s.phase with
  | waiting =>
    rw [SendStream.sendFrom]
    split_ifs with hsem
    · exact h
    · intro _
      have hold := h (by rw [hphase]; rfl)
      rw [hphase] at hold
      show s.traffic.queue.packets.length ≤ s.sendSem - 1 + s.postings + 1
      simp only [SendPhase.token] at hold
      omega
  | awake =>
    rw [SendStream.sendFrom]
    split_ifs
    · exact nofun
    · intro _
      have hold := h (by rw [hphase]; rfl)
      rw [hphase] at hold
      exact hold
  | tested =>
    intro _
    have hold := h (by rw [hphase]; rfl)
    rw [hphase] at hold
    simp only [SendPhase.token] at hold
    have htail : s.traffic.queue.packets.tail.length = s.traffic.queue.packets.length - 1 :=
      List.length_tail
    show s.traffic.queue.packets.tail.length ≤ s.sendSem + s.postings + SendPhase.token _
    omega
  | holding p =>
    rw [SendStream.sendFrom]
    split_ifs
    · exact nofun
    · intro _
      have hold := h (by rw [hphase]; rfl)
      rw [hphase] at hold
      exact hold
  | cleared p =>
    have hold := h (by rw [hphase]; rfl)
    rw [hphase] at hold
    rw [SendStream.sendFrom]
    by_cases hsent : s.sentHeaders = true
    · rw [if_pos hsent]
      exact fun _ => hold
    · rw [if_neg hsent, SendStream.headers]
      split_ifs
      · exact fun _ => hold
      · exact nofun
  | ready p => exact posted_sendPacket h hphase o
  | leaving => exact nofun
  | joining => exact nofun
  | closed => exact nofun
  | freed => exact nofun
  | reset => exact nofun
  | done =>
    intro hrunning
    rw [SendStream.sendFrom, hphase] at hrunning
    exact absurd hrunning nofun

theorem posted_step (parser : Parser) (h : s.Posted) (e : StreamEvent) :
    (s.step parser e).Posted := by
  cases e with
  | data packet clock => exact posted_data h parser packet clock
  | resume i =>
    obtain heq | ⟨call, calls, hperm, heq⟩ := step_resume (s := s) (i := i) parser
    · rw [heq]
      exact h
    · rw [heq]
      exact posted_resume h hperm
  | stopAt ts => exact posted_stopAt h ts
  | resumeStop => exact posted_resumeStop h
  | sendThread o => exact posted_sendThread h o

end Posted

/-- The packet that a call has still to hand over or give back. -/
def DataCall.held : DataCall → Multiset EncoderPacket
  | .locking p _ => {p}
  | .posting => 0
  | .releasing p => {p}

def SendStream.inCalls (s : SendStream) : Multiset EncoderPacket := (s.calls.map DataCall.held).sum

/-- The packets of which a reference is still held. -/
def SendStream.live (s : SendStream) : Multiset EncoderPacket :=
  s.inCalls + s.traffic.queue.packets + s.phase.held

/-- Every reference is held, has been given back, or is lost. -/
def SendStream.Balanced (s : SendStream) : Prop :=
  (s.acquired : Multiset EncoderPacket) =
    s.released + s.traffic.queue.released + s.leaked + s.live

/-- At most one reference is lost, and only by a send thread that has met an error. -/
structure SendStream.Leaks (s : SendStream) : Prop where
  running : s.phase.running = true → s.leaked = []
  bound : s.leaked.length ≤ 1
  disconnected : s.leaked ≠ [] → s.disconnected = true

section Balanced
variable {s : SendStream}

theorem balanced_data (h : s.Balanced) (parser : Parser) (packet : Option EncoderPacket)
    (clock : DropClock) : (s.data parser packet clock).Balanced := by
  obtain ⟨offset, first, error, calls, added, heq, hcalls⟩ := data_cases parser s packet clock
  have hheld : (calls.map DataCall.held).sum = (added : Multiset EncoderPacket) := by
    obtain ⟨rfl, rfl⟩ | ⟨rfl, rfl⟩ | ⟨p, rfl, rfl⟩ := hcalls
    · rfl
    · rfl
    · exact add_zero (DataCall.locking p clock).held
  rw [heq]
  show ((s.acquired ++ added : List EncoderPacket) : Multiset EncoderPacket) =
    s.released + s.traffic.queue.released + s.leaked +
      (((calls ++ s.calls).map DataCall.held).sum + s.traffic.queue.packets + s.phase.held)
  rw [← Multiset.coe_add, h, SendStream.live, SendStream.inCalls, List.map_append, List.sum_append,
    hheld]
  abel

theorem inCalls_of_perm {call : DataCall} {calls : List DataCall}
    (hperm : s.calls.Perm (call :: calls)) :
    s.inCalls = call.held + (calls.map DataCall.held).sum :=
  (hperm.map DataCall.held).sum_eq

theorem held_after (p : EncoderPacket) (added : Bool) :
    (DataCall.after p added).held = ((if added then [] else [p] : List EncoderPacket) :
      Multiset EncoderPacket) := by
  cases added <;> rfl

theorem add_balanced (q : PacketQueue) (p : EncoderPacket) (clock : DropClock) :
    ((q.add p clock).1.packets : Multiset EncoderPacket) + (q.add p clock).1.released +
        (DataCall.after p (q.add p clock).2).held =
      q.packets + q.released + {p} := by
  rw [held_after, ← Multiset.coe_singleton, Multiset.coe_add, Multiset.coe_add, Multiset.coe_add,
    Multiset.coe_add]
  exact Multiset.coe_eq_coe.mpr (add_perm q p clock)

theorem balanced_resume (h : s.Balanced) {call : DataCall} {calls : List DataCall}
    (hperm : s.calls.Perm (call :: calls)) : (s.resume calls call).Balanced := by
  rw [SendStream.Balanced, SendStream.live, inCalls_of_perm hperm] at h
  cases call with
  | locking p clock =>
    rw [SendStream.resume]
    by_cases hgone : s.disconnected = true
    · rw [if_pos hgone]
      exact h
    · rw [if_neg hgone]
      have hadd := add_balanced s.traffic.queue p clock
      show (s.acquired : Multiset EncoderPacket) =
        s.released + (s.traffic.queue.add p clock).1.released + s.leaked +
          ((DataCall.after p (s.traffic.queue.add p clock).2).held +
            (calls.map DataCall.held).sum + (s.traffic.queue.add p clock).1.packets + s.phase.held)
      generalize (s.traffic.queue.add p clock).1 = q at hadd ⊢
      calc (s.acquired : Multiset EncoderPacket)
          = s.released + s.leaked + (calls.map DataCall.held).sum + s.phase.held +
              (s.traffic.queue.packets + s.traffic.queue.released + {p}) := by
            rw [h, DataCall.held]
            abel
        _ = _ := by
            rw [← hadd]
            abel
  | posting =>
    show (s.acquired : Multiset EncoderPacket) = s.released + s.traffic.queue.released + s.leaked +
      ((calls.map DataCall.held).sum + s.traffic.queue.packets + s.phase.held)
    simpa only [DataCall.held, zero_add] using h
  | releasing p =>
    show (s.acquired : Multiset EncoderPacket) =
      (s.released ++ [p] : List EncoderPacket) + s.traffic.queue.released + s.leaked +
      ((calls.map DataCall.held).sum + s.traffic.queue.packets + s.phase.held)
    rw [h, DataCall.held, ← Multiset.coe_add, Multiset.coe_singleton]
    abel

theorem balanced_stop (h : s.Balanced) (ts : ℕ) :
    (s.stopAt ts).Balanced ∧ s.resumeStop.Balanced := by
  refine ⟨?_, ?_⟩
  · rw [SendStream.stopAt]
    split_ifs <;> exact h
  · rw [SendStream.resumeStop.eq_def]
    split <;> exact h

theorem balanced_release (s : SendStream) (p : EncoderPacket) :
    (s.released : Multiset EncoderPacket) + s.traffic.queue.released + s.leaked +
        (s.inCalls + s.traffic.queue.packets + ([p] : List EncoderPacket)) =
      (s.released ++ [p] : List EncoderPacket) + s.traffic.queue.released + s.leaked +
        (s.inCalls + s.traffic.queue.packets + ([] : List EncoderPacket)) := by
  rw [← Multiset.coe_add s.released, Multiset.coe_nil]
  abel

theorem balanced_leak (s : SendStream) (p : EncoderPacket) :
    (s.released : Multiset EncoderPacket) + s.traffic.queue.released + s.leaked +
        (s.inCalls + s.traffic.queue.packets + ([p] : List EncoderPacket)) =
      s.released + s.traffic.queue.released + (s.leaked ++ [p] : List EncoderPacket) +
        (s.inCalls + s.traffic.queue.packets + ([] : List EncoderPacket)) := by
  rw [← Multiset.coe_add s.leaked, Multiset.coe_nil]
  abel

theorem sent_released (t : Traffic) (frame : DbrFrame) :
    (t.step (.sent frame)).queue.released = t.queue.released := by
  simp only [Traffic.step]
  split_ifs <;> rfl

/-- The send thread takes the first packet from the queue into its hands. -/
theorem balanced_take (q : PacketQueue) :
    (q.getNextPacket.2.packets : Multiset EncoderPacket) +
        (q.getNextPacket.1.elim SendPhase.waiting SendPhase.holding).held = q.packets := by
  rw [PacketQueue.getNextPacket, Multiset.coe_add]
  cases q.packets with
  | nil => rfl
  | cons p ps => exact Multiset.coe_eq_coe.mpr (List.perm_append_singleton p ps)

theorem balanced_sendThread (h : s.Balanced) (o : StepOutcome) : (s.sendThread o).Balanced := by
  refine sendThread_cases (P := SendStream.Balanced) h ?_
  rw [SendStream.Balanced, SendStream.live] at h
  cases hphase : s.phase with
  | waiting =>
    rw [SendStream.sendFrom]
    split_ifs
    · exact h
    · rw [hphase] at h
      exact h
  | awake =>
    rw [hphase] at h
    rw [SendStream.sendFrom]
    split_ifs <;> exact h
  | tested =>
    rw [hphase] at h
    show (s.acquired : Multiset EncoderPacket) = s.released + s.traffic.queue.released + s.leaked +
      (s.inCalls + s.traffic.queue.getNextPacket.2.packets +
        (s.traffic.queue.getNextPacket.1.elim SendPhase.waiting SendPhase.holding).held)
    rw [h, ← balanced_take s.traffic.queue]
    simp only [SendPhase.held, Multiset.coe_nil, add_zero]
    abel
  | holding p =>
    rw [hphase] at h
    rw [SendStream.sendFrom]
    split_ifs
    · exact h.trans (balanced_release s p)
    · exact h
  | cleared p =>
    rw [hphase] at h
    rw [SendStream.sendFrom]
    by_cases hsent : s.sentHeaders = true
    · rw [if_pos hsent]
      exact h
    · rw [if_neg hsent, SendStream.headers]
      split_ifs
      · exact h
      · exact h.trans (balanced_leak s p)
  | ready p =>
    rw [hphase] at h
    rw [SendStream.sendFrom, SendStream.sendPacket]
    cases o.result with
    | socketError => exact h.trans (balanced_leak s p)
    | writeError => exact h.trans (balanced_release s p)
    | written =>
      show (s.acquired : Multiset EncoderPacket) = (s.released ++ [p] : List EncoderPacket) +
        (s.traffic.step (.sent o.frame)).queue.released + s.leaked +
        (s.inCalls + (s.traffic.step (.sent o.frame)).queue.packets + (SendPhase.waiting).held)
      rw [sent_packets, sent_released]
      exact h.trans (balanced_release s p)
  | leaving =>
    rw [hphase] at h
    exact h
  | joining =>
    rw [hphase] at h
    exact h
  | closed =>
    rw [hphase] at h
    show (s.acquired : Multiset EncoderPacket) =
      (s.released ++ s.traffic.queue.packets : List EncoderPacket) + s.traffic.queue.released +
        s.leaked + (s.inCalls + ([] : List EncoderPacket) + (SendPhase.freed).held)
    rw [h, ← Multiset.coe_add]
    simp only [SendPhase.held, Multiset.coe_nil, add_zero]
    abel
  | freed =>
    rw [hphase] at h
    exact h
  | reset =>
    rw [hphase] at h
    exact h
  | done => exact h

theorem balanced_step (parser : Parser) (h : s.Balanced) (e : StreamEvent) :
    (s.step parser e).Balanced := by
  cases e with
  | data packet clock => exact balanced_data h parser packet clock
  | resume i =>
    obtain heq | ⟨call, calls, hperm, heq⟩ := step_resume (s := s) (i := i) parser
    · rw [heq]
      exact h
    · rw [heq]
      exact balanced_resume h hperm
  | stopAt ts => exact (balanced_stop h ts).1
  | resumeStop => exact (balanced_stop h 0).2
  | sendThread o => exact balanced_sendThread h o

end Balanced

section Leaks
variable {s s' : SendStream}

theorem leaks_of_eq (h : s.Leaks) (hleaked : s'.leaked = s.leaked)
    (hdisconnected : s.disconnected = true → s'.disconnected = true)
    (hrunning : s'.phase.running = true → s.phase.running = true) : s'.Leaks :=
  ⟨fun hr => hleaked.trans (h.running (hrunning hr)), hleaked ▸ h.bound,
    fun hne => hdisconnected (h.disconnected (hleaked ▸ hne))⟩

/-- An error within the loop. -/
theorem leaks_of_error (h : s.Leaks) (hrunning : s.phase.running = true) {p : EncoderPacket}
    (hleaked : s'.leaked = s.leaked ++ [p]) (hdisconnected : s'.disconnected = true)
    (hleft : s'.phase.running = false) : s'.Leaks := by
  have hnone : s.leaked = [] := h.running hrunning
  refine ⟨fun hr => absurd (hleft.symm.trans hr) nofun, ?_, fun _ => hdisconnected⟩
  rw [hleaked, hnone]
  exact le_refl 1

theorem leaks_sendThread (h : s.Leaks) (o : StepOutcome) : (s.sendThread o).Leaks := by
  refine sendThread_cases (P := SendStream.Leaks) h ?_
  cases hphase : s.phase with
  | waiting =>
    rw [SendStream.sendFrom]
    split_ifs
    · exact h
    · exact leaks_of_eq h rfl id fun _ => by rw [hphase]; rfl
  | awake => exact leaks_of_eq h rfl id fun _ => by rw [hphase]; rfl
  | tested => exact leaks_of_eq h rfl id fun _ => by rw [hphase]; rfl
  | holding p =>
    rw [SendStream.sendFrom]
    split_ifs <;> exact leaks_of_eq h rfl id fun _ => by rw [hphase]; rfl
  | cleared p =>
    rw [SendStream.sendFrom]
    by_cases hsent : s.sentHeaders = true
    · rw [if_pos hsent]
      exact leaks_of_eq h rfl id fun _ => by rw [hphase]; rfl
    · rw [if_neg hsent, SendStream.headers]
      split_ifs
      · exact leaks_of_eq h rfl id fun _ => by rw [hphase]; rfl
      · exact leaks_of_error h (by rw [hphase]; rfl) rfl rfl rfl
  | ready p =>
    rw [SendStream.sendFrom, SendStream.sendPacket]
    cases o.result with
    | socketError => exact leaks_of_error h (by rw [hphase]; rfl) rfl rfl rfl
    | writeError => exact leaks_of_eq h rfl (fun _ => rfl) fun _ => by rw [hphase]; rfl
    | written => exact leaks_of_eq h rfl id fun _ => by rw [hphase]; rfl
  | leaving => exact leaks_of_eq h rfl id fun hr => Bool.noConfusion hr
  | joining => exact leaks_of_eq h rfl id fun hr => Bool.noConfusion hr
  | closed => exact leaks_of_eq h rfl id fun hr => Bool.noConfusion hr
  | freed => exact leaks_of_eq h rfl id fun hr => Bool.noConfusion hr
  | reset => exact leaks_of_eq h rfl id fun hr => Bool.noConfusion hr
  | done => exact h

theorem leaks_step (parser : Parser) (h : s.Leaks) (e : StreamEvent) :
    (s.step parser e).Leaks := by
  cases hthread : e.isSendThread with
  | true =>
    cases e with
    | sendThread o => exact leaks_sendThread h o
    | _ => exact absurd hthread nofun
  | false =>
    have heq := sendEq_step parser s hthread
    exact leaks_of_eq h heq.leaked (fun hgone => heq.disconnected.trans hgone)
      fun hr => heq.phase ▸ hr

/-- The packet in hand is lost when the headers cannot be sent, or the socket not read. -/
def SendStream.losesFrom (s : SendStream) (o : StepOutcome) : SendPhase → Prop
  | .cleared _ =>
    s.sentHeaders = false ∧ (carryOut (sendHeaders s.codecs s.encoders) o.failAfter).2 = false
  | .ready _ => o.result = .socketError
  | _ => False

/-- The steps that lose the packet in hand. -/
def SendStream.Loses (s : SendStream) : StreamEvent → Prop
  | .sendThread o => (s.newSocketLoop && o.stalls) = false ∧ s.losesFrom o s.phase
  | _ => False

theorem leaked_sendFrom (s : SendStream) (o : StepOutcome) (phase : SendPhase) :
    (s.sendFrom o phase).leaked = [] ↔ s.leaked = [] ∧ ¬ s.losesFrom o phase := by
  unfold SendStream.losesFrom
  cases phase with
  | waiting =>
    rw [SendStream.sendFrom]
    split_ifs <;> simp
  | awake => simp [SendStream.sendFrom]
  | tested => simp [SendStream.sendFrom]
  | holding p =>
    rw [SendStream.sendFrom]
    split_ifs <;> simp
  | cleared p =>
    simp only [SendStream.sendFrom, SendStream.headers]
    cases hsent : s.sentHeaders <;>
      cases hall : (carryOut (sendHeaders s.codecs s.encoders) o.failAfter).2 <;> simp
  | ready p =>
    simp only [SendStream.sendFrom, SendStream.sendPacket]
    cases o.result <;> simp
  | leaving => simp [SendStream.sendFrom]
  | joining => simp [SendStream.sendFrom]
  | closed => simp [SendStream.sendFrom]
  | freed => simp [SendStream.sendFrom]
  | reset => simp [SendStream.sendFrom]
  | done => simp [SendStream.sendFrom]

theorem mayStall_of_losesFrom {s : SendStream} {o : StepOutcome} {phase : SendPhase}
    (h : s.losesFrom o phase) : phase.mayStall = true := by
  cases phase with
  | cleared p => rfl
  | ready p => rfl
  | _ => exact h.elim

theorem leaked_sendThread (s : SendStream) (o : StepOutcome) :
    (s.sendThread o).leaked = [] ↔ s.leaked = [] ∧ ¬ s.Loses (.sendThread o) := by
  rw [SendStream.sendThread, SendStream.Loses]
  cases hstalls : s.newSocketLoop && o.stalls with
  | false =>
    rw [Bool.false_and, if_neg Bool.false_ne_true, leaked_sendFrom]
    simp
  | true =>
    cases hmay : s.phase.mayStall with
    | true => simp
    | false =>
      have hnot : ¬ s.losesFrom o s.phase := fun h =>
        Bool.noConfusion (hmay.symm.trans (mayStall_of_losesFrom h))
      simp [leaked_sendFrom, hnot]

theorem leaked_step (parser : Parser) (s : SendStream) (e : StreamEvent) :
    (s.step parser e).leaked = [] ↔ s.leaked = [] ∧ ¬ s.Loses e := by
  cases hthread : e.isSendThread with
  | true =>
    cases e with
    | sendThread o => exact leaked_sendThread s o
    | _ => exact absurd hthread nofun
  | false =>
    rw [(sendEq_step parser s hthread).leaked]
    refine (and_iff_left ?_).symm
    cases e with
    | sendThread o => exact absurd hthread nofun
    | _ => exact not_false

theorem leaked_run (parser : Parser) (s : SendStream) (es : List StreamEvent) :
    (es.foldl (SendStream.step parser) s).leaked = [] ↔
      s.leaked = [] ∧ Runs.EveryStep (SendStream.step parser) (fun s e => ¬ s.Loses e) s es := by
  induction es generalizing s with
  | nil => simp
  | cons e es ih => rw [List.foldl_cons, ih, leaked_step, Runs.everyStep_cons, and_assoc]

end Leaks

section Runs
variable (parser : Parser) (c : SendSetup) (q : PacketQueue)

/-- Whatever the threads do, every packet that waits while the send thread runs has a post; a send
thread that sleeps with no post underway has left nothing behind. -/
theorem no_lost_wakeup (es : List StreamEvent) :
    let s := es.foldl (SendStream.step parser) (.start c q)
    s.Posted ∧ (s.phase = .waiting → s.sendSem = 0 → s.postings = 0 →
      s.traffic.queue.packets = []) := by
  intro s
  have hposted : s.Posted := Runs.invariant (J := SendStream.Posted)
    (fun s e h => posted_step parser h e) (fun _ => Nat.zero_le _) es
  refine ⟨hposted, fun hphase hsem hpostings => ?_⟩
  have hlength := hposted (by rw [hphase]; rfl)
  rw [hsem, hpostings, hphase] at hlength
  exact List.length_eq_zero_iff.mp (Nat.le_zero.mp hlength)

/-- Whatever the threads do, every reference taken to a packet is still held by a call, the queue
or the send thread, has been given back once, or is the only one lost; one is lost exactly in the
runs in which the headers cannot be sent or the socket not read. -/
theorem references_balanced (es : List StreamEvent) :
    let s := es.foldl (SendStream.step parser) (.start c q)
    s.Balanced ∧ s.Leaks ∧
      (s.leaked = [] ↔ Runs.EveryStep (SendStream.step parser) (fun s e => ¬ s.Loses e)
        (.start c q) es) := by
  intro s
  have hstart : (SendStream.start c q).Balanced ∧
      (SendStream.start c q).Leaks :=
    ⟨rfl, fun _ => rfl, Nat.zero_le 1, fun hne => absurd rfl hne⟩
  obtain ⟨hbalanced, hleaks⟩ : s.Balanced ∧ s.Leaks :=
    Runs.invariant (J := fun s : SendStream => s.Balanced ∧ s.Leaks)
      (fun s e h => ⟨balanced_step parser h.1 e, leaks_step parser h.2 e⟩) hstart es
  exact ⟨hbalanced, hleaks, (leaked_run parser _ es).trans (and_iff_right rfl)⟩

end Runs

end ObsBeacon.Rtmp
