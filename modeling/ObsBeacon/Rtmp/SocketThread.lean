import Mathlib.Data.List.Infix
import Mathlib.Logic.Function.Iterate
import ObsBeacon.Lib.Runs

/-! The socket thread of `rtmp-windows.c` and the send thread that fills its buffer, in any order
of their steps. -/
namespace ObsBeacon.Rtmp.Socket

/-- Where the send thread is: in `socket_queue_data`, or at its own end, where it joins the socket
thread. -/
inductive Sender where
  | idle
  | trying (data : List UInt8)
  | locking (data : List UInt8)
  | blocked (data : List UInt8)
  | signalling
  | closing
  | closed
  | joined
  deriving DecidableEq, Repr

/-- Where `socket_thread_windows_internal` is. -/
inductive Loop where
  | top
  | waiting
  | writing
  | exited
  | failed
  deriving DecidableEq, Repr

/-- What `RTMPSockBuf_Send` returns: so many bytes, `WSAEWOULDBLOCK`, or another error. -/
inductive SendRet where
  | sent (n : ℕ)
  | wouldBlock
  | error
  deriving DecidableEq, Repr

/-- What the socket thread learns from the system at a step. -/
structure Reply where
  waitFails : Bool
  enumFails : Bool
  fdWrite : Bool
  fdClose : Bool
  readFails : Bool
  ret : SendRet

/-- The members of `rtmp_stream` that both threads use, with all bytes that were queued and all
that were sent. -/
structure Shared where
  writeBuf : List UInt8 := []
  writeBufSize : ℕ
  lowLatency : Bool
  spaceAvailable : Bool := false
  hasData : Bool := false
  socketAvailable : Bool := false
  sendBacklog : Bool := false
  signaledExit : Bool := false
  connected : Bool := true
  canWrite : Bool := false
  sender : Sender := .idle
  loop : Loop := .top
  queued : List UInt8 := []
  delivered : List UInt8 := []

/-- `latency_packet_size`, which divides by `LATENCY_FACTOR - 2`. -/
def Shared.latencyPacketSize (s : Shared) : ℕ := s.writeBufSize / 18

/-- `socket_queue_data` with the lock. -/
def Shared.queueData (s : Shared) (data : List UInt8) : Shared :=
  if s.writeBufSize < s.writeBuf.length + data.length then { s with sender := .blocked data }
  else
    { s with
      writeBuf := s.writeBuf ++ data
      queued := s.queued ++ data
      sender := .signalling }

/-- The socket thread has returned. -/
def Loop.over : Loop → Bool
  | .exited | .failed => true
  | _ => false

/-- The next step of the send thread. -/
def Shared.stepSender (s : Shared) : Shared :=
  match s.sender with
  | .idle => s
  | .trying data => { s with sender := if s.connected then .locking data else .idle }
  | .locking data => s.queueData data
  | .blocked data =>
    if s.spaceAvailable then { s with spaceAvailable := false, sender := .trying data } else s
  | .signalling => { s with hasData := true, sender := .idle }
  | .closing => { s with hasData := true, sender := .closed }
  | .closed => if s.loop.over then { s with sender := .joined } else s
  | .joined => s

/-- `fatal_sock_shutdown`. -/
def Shared.fatal (s : Shared) : Shared :=
  { s with connected := false, writeBuf := [], spaceAvailable := true, loop := .failed }

/-- How much `write_data` asks to send. -/
def Shared.request (s : Shared) : ℕ :=
  if s.lowLatency then min s.latencyPacketSize s.writeBuf.length else s.writeBuf.length

/-- `write_data` after `n` bytes went out. -/
def Shared.wrote (s : Shared) (n : ℕ) : Shared :=
  { s with
    writeBuf := s.writeBuf.drop n
    delivered := s.delivered ++ s.writeBuf.take n
    spaceAvailable := true
    loop := if s.writeBuf.length - n ≤ 1000 then .top else .writing }

/-- `write_data`; no more is sent than was asked for, and nothing sent means that the connection
is gone. -/
def Shared.writeData (s : Shared) (ret : SendRet) : Shared :=
  if s.writeBuf.length = 0 then { s with loop := .top }
  else
    match ret with
    | .sent n => if min n s.request = 0 then s.fatal else s.wrote (min n s.request)
    | .wouldBlock => { s with canWrite := false, loop := .top }
    | .error => s.fatal

/-- `socket_event`. -/
def Shared.socketEvent (s : Shared) (r : Reply) : Shared :=
  if r.enumFails || r.fdClose || r.readFails then s.fatal
  else
    { s with
      canWrite := s.canWrite || r.fdWrite
      loop := if s.canWrite || r.fdWrite then .writing else .top }

/-- The next step of the socket thread. -/
def Shared.stepLoop (s : Shared) (r : Reply) : Shared :=
  match s.loop with
  | .top =>
    if s.signaledExit && s.writeBuf.length == 0 then
      { s with signaledExit := false, loop := .exited }
    else { s with loop := .waiting }
  | .waiting =>
    if r.waitFails then s.fatal
    else if s.socketAvailable then { s with socketAvailable := false }.socketEvent r
    else if s.hasData then
      { s with hasData := false, loop := if s.canWrite then .writing else .top }
    else if s.sendBacklog then { s with sendBacklog := false, loop := .top }
    else s
  | .writing => s.writeData r.ret
  | .exited => s
  | .failed => s

/-- A step of one of the threads, or of the system. -/
inductive Event where
  | call (data : List UInt8)
  | finish
  | sender
  | loop (r : Reply)
  | socketAvailable
  | sendBacklog

def Shared.step (s : Shared) : Event → Shared
  | .call data => if s.sender = .idle then { s with sender := .trying data } else s
  | .finish => if s.sender = .idle then { s with signaledExit := true, sender := .closing } else s
  | .sender => s.stepSender
  | .loop r => s.stepLoop r
  | .socketAvailable => { s with socketAvailable := true }
  | .sendBacklog => { s with sendBacklog := true }

/-- What an earlier connection left: the count of its buffer, which `init_send` does not reset,
and signals that nobody took. The buffer is allocated anew, so its bytes are any. -/
structure Leftover where
  writeBuf : List UInt8 := []
  spaceAvailable : Bool := false
  hasData : Bool := false
  socketAvailable : Bool := false

/-- `init_send`: at least 128 KiB of buffer. -/
def Shared.start (left : Leftover) (idealBufferSize : ℕ) (lowLatency : Bool) : Shared where
  writeBuf := left.writeBuf
  writeBufSize := max idealBufferSize 131072
  lowLatency := lowLatency
  spaceAvailable := left.spaceAvailable
  hasData := left.hasData
  socketAvailable := left.socketAvailable

/-- The send thread queues nothing any more. -/
def Sender.ended : Sender → Bool
  | .closing | .closed | .joined => true
  | _ => false

/-- Nothing is lost, reordered or stored beyond the buffer, but for what was left `before`; what a
lost connection leaves are the last bytes queued. -/
structure Shared.Fifo (before : List UInt8) (s : Shared) : Prop where
  bound : s.writeBuf.length ≤ max s.writeBufSize before.length
  order : s.loop ≠ .failed → before ++ s.queued = s.delivered ++ s.writeBuf
  sent : s.delivered <+: before ++ s.queued
  ended : s.signaledExit = true ∨ s.loop = .exited → s.sender.ended = true
  exited : s.loop = .exited → s.writeBuf = []
  lost : s.loop = .failed → s.writeBuf <:+ s.queued

section Fifo
variable {s : Shared} {before : List UInt8}

theorem Shared.Fifo.running (h : s.Fifo before) (hopen : s.sender.ended = false) :
    ¬ (s.signaledExit = true ∨ s.loop = .exited) :=
  fun hended => Bool.noConfusion (hopen.symm.trans (h.ended hended))

theorem suffix_append_append {xs ys : List UInt8} (h : xs <:+ ys) (zs : List UInt8) :
    xs ++ zs <:+ ys ++ zs := by
  obtain ⟨front, rfl⟩ := h
  exact ⟨front, (List.append_assoc front xs zs).symm⟩

theorem fifo_queueData (h : s.Fifo before) (data : List UInt8) (hopen : s.sender.ended = false) :
    (s.queueData data).Fifo before := by
  unfold Shared.queueData
  by_cases hfull : s.writeBufSize < s.writeBuf.length + data.length
  · rw [if_pos hfull]
    exact ⟨h.bound, h.order, h.sent, fun hended => absurd hended (h.running hopen), h.exited,
      h.lost⟩
  · rw [if_neg hfull]
    refine ⟨?_, fun hok => ?_, ?_, fun hended => absurd hended (h.running hopen), fun hexited => ?_,
      fun hfailed => suffix_append_append (h.lost hfailed) data⟩
    · show (s.writeBuf ++ data).length ≤ _
      rw [List.length_append]
      exact (not_lt.mp hfull).trans (le_max_left _ _)
    · show before ++ (s.queued ++ data) = s.delivered ++ (s.writeBuf ++ data)
      rw [← List.append_assoc, h.order hok, List.append_assoc]
    · show s.delivered <+: before ++ (s.queued ++ data)
      rw [← List.append_assoc]
      exact h.sent.trans (List.prefix_append _ _)
    · exact absurd (.inr hexited) (h.running hopen)

/-- The send thread goes on without touching the buffer. -/
theorem fifo_sender (h : s.Fifo before) (sender : Sender)
    (hended : s.sender.ended = true → sender.ended = true) :
    ({ s with sender := sender } : Shared).Fifo before :=
  ⟨h.bound, h.order, h.sent, fun hend => hended (h.ended hend), h.exited, h.lost⟩

theorem fifo_stepSender (h : s.Fifo before) : s.stepSender.Fifo before := by
  unfold Shared.stepSender
  cases hsender : s.sender with
  | idle => exact h
  | trying data => exact fifo_sender h _ (by rw [hsender]; exact Bool.noConfusion)
  | locking data => exact fifo_queueData h data (by rw [hsender]; rfl)
  | blocked data =>
    have hopen : s.sender.ended = false := by rw [hsender]; rfl
    show (if s.spaceAvailable then _ else s : Shared).Fifo before
    split_ifs
    · exact ⟨h.bound, h.order, h.sent, fun hended => absurd hended (h.running hopen), h.exited,
        h.lost⟩
    · exact h
  | signalling =>
    have hopen : s.sender.ended = false := by rw [hsender]; rfl
    exact ⟨h.bound, h.order, h.sent, fun hended => absurd hended (h.running hopen), h.exited,
      h.lost⟩
  | closing => exact ⟨h.bound, h.order, h.sent, fun _ => rfl, h.exited, h.lost⟩
  | closed =>
    show (if s.loop.over then _ else s : Shared).Fifo before
    split_ifs
    · exact fifo_sender h _ fun _ => rfl
    · exact h
  | joined => exact h

theorem fifo_fatal (h : s.Fifo before) : s.fatal.Fifo before := by
  refine ⟨Nat.zero_le _, fun hok => absurd rfl hok, h.sent, fun hended => ?_, fun _ => rfl,
    fun _ => List.nil_suffix⟩
  rcases hended with hsignaled | hexited
  · exact h.ended (.inl hsignaled)
  · exact Loop.noConfusion hexited

theorem fifo_wrote (h : s.Fifo before) (hloop : s.loop = .writing) (n : ℕ) :
    (s.wrote n).Fifo before := by
  have horder : before ++ s.queued = s.delivered ++ s.writeBuf :=
    h.order (by rw [hloop]; exact Loop.noConfusion)
  have hsplit : before ++ s.queued = s.delivered ++ s.writeBuf.take n ++ s.writeBuf.drop n := by
    rw [List.append_assoc, List.take_append_drop]
    exact horder
  have hnext : (s.wrote n).loop = .top ∨ (s.wrote n).loop = .writing := by
    unfold Shared.wrote
    dsimp only
    split_ifs
    · exact .inl rfl
    · exact .inr rfl
  have hexit : (s.wrote n).loop ≠ .exited := by
    rcases hnext with hnext | hnext <;> rw [hnext] <;> exact Loop.noConfusion
  have hfail : (s.wrote n).loop ≠ .failed := by
    rcases hnext with hnext | hnext <;> rw [hnext] <;> exact Loop.noConfusion
  refine ⟨?_, fun _ => hsplit, ?_, fun hended => ?_, fun hexited => absurd hexited hexit,
    fun hfailed => absurd hfailed hfail⟩
  · exact (List.drop_sublist n s.writeBuf).length_le.trans h.bound
  · exact ⟨s.writeBuf.drop n, hsplit.symm⟩
  · rcases hended with hsignaled | hexited
    · exact h.ended (.inl hsignaled)
    · exact absurd hexited hexit

/-- The loop goes on without touching the buffer. -/
theorem fifo_of_eq {s' : Shared} (h : s.Fifo before) (hbuf : s'.writeBuf = s.writeBuf)
    (hsize : s'.writeBufSize = s.writeBufSize) (hqueued : s'.queued = s.queued)
    (hdelivered : s'.delivered = s.delivered) (hok : s.loop ≠ .failed)
    (hended : s'.signaledExit = true → s.signaledExit = true) (hloop : s'.loop.over = false)
    (hsender : s'.sender = s.sender) : s'.Fifo before := by
  have hexit : s'.loop ≠ .exited := fun hexited => by
    rw [hexited] at hloop
    exact Bool.noConfusion hloop
  have hfail : s'.loop ≠ .failed := fun hfailed => by
    rw [hfailed] at hloop
    exact Bool.noConfusion hloop
  refine ⟨?_, fun _ => ?_, ?_, fun hend => ?_, fun hexited => absurd hexited hexit,
    fun hfailed => absurd hfailed hfail⟩
  · rw [hbuf, hsize]
    exact h.bound
  · rw [hqueued, hdelivered, hbuf]
    exact h.order hok
  · rw [hqueued, hdelivered]
    exact h.sent
  · rw [hsender]
    exact h.ended (hend.imp hended fun hexited => absurd hexited hexit)

theorem fifo_writeData (h : s.Fifo before) (hloop : s.loop = .writing) (ret : SendRet) :
    (s.writeData ret).Fifo before := by
  have hok : s.loop ≠ .failed := by rw [hloop]; exact Loop.noConfusion
  unfold Shared.writeData
  by_cases hempty : s.writeBuf.length = 0
  · rw [if_pos hempty]
    exact fifo_of_eq h rfl rfl rfl rfl hok id rfl rfl
  · rw [if_neg hempty]
    cases ret with
    | sent n =>
      dsimp only
      split_ifs
      · exact fifo_fatal h
      · exact fifo_wrote h hloop _
    | wouldBlock => exact fifo_of_eq h rfl rfl rfl rfl hok id rfl rfl
    | error => exact fifo_fatal h

theorem fifo_socketEvent (h : s.Fifo before) (hloop : s.loop = .waiting) (r : Reply) :
    (s.socketEvent r).Fifo before := by
  have hok : s.loop ≠ .failed := by rw [hloop]; exact Loop.noConfusion
  unfold Shared.socketEvent
  split_ifs with hfatal hcan
  · exact fifo_fatal h
  · exact fifo_of_eq h rfl rfl rfl rfl hok id rfl rfl
  · exact fifo_of_eq h rfl rfl rfl rfl hok id rfl rfl

theorem fifo_stepLoop (h : s.Fifo before) (r : Reply) : (s.stepLoop r).Fifo before := by
  unfold Shared.stepLoop
  cases hloop : s.loop with
  | top =>
    have hok : s.loop ≠ .failed := by rw [hloop]; exact Loop.noConfusion
    dsimp only
    split_ifs with hexit
    · rw [Bool.and_eq_true, beq_iff_eq] at hexit
      exact ⟨h.bound, fun _ => h.order hok, h.sent, fun _ => h.ended (.inl hexit.1),
        fun _ => List.length_eq_zero_iff.mp hexit.2, fun hfailed => Loop.noConfusion hfailed⟩
    · exact fifo_of_eq h rfl rfl rfl rfl hok id rfl rfl
  | waiting =>
    have hok : s.loop ≠ .failed := by rw [hloop]; exact Loop.noConfusion
    dsimp only
    split_ifs with hfails hsocket hdata hcan hbacklog
    · exact fifo_fatal h
    · apply fifo_socketEvent _ rfl
      exact fifo_of_eq h rfl rfl rfl rfl hok id rfl rfl
    · exact fifo_of_eq h rfl rfl rfl rfl hok id rfl rfl
    · exact fifo_of_eq h rfl rfl rfl rfl hok id rfl rfl
    · exact fifo_of_eq h rfl rfl rfl rfl hok id rfl rfl
    · exact h
  | writing => exact fifo_writeData h hloop r.ret
  | exited => exact h
  | failed => exact h

theorem fifo_step (h : s.Fifo before) (e : Event) : (s.step e).Fifo before := by
  cases e with
  | call data =>
    unfold Shared.step
    dsimp only
    split_ifs with hidle
    · exact fifo_sender h _ (by rw [hidle]; exact Bool.noConfusion)
    · exact h
  | finish =>
    unfold Shared.step
    dsimp only
    split_ifs
    · exact ⟨h.bound, h.order, h.sent, fun _ => rfl, h.exited, h.lost⟩
    · exact h
  | sender => exact fifo_stepSender h
  | loop r => exact fifo_stepLoop h r
  | socketAvailable => exact ⟨h.bound, h.order, h.sent, h.ended, h.exited, h.lost⟩
  | sendBacklog => exact ⟨h.bound, h.order, h.sent, h.ended, h.exited, h.lost⟩

theorem fifo_start (left : Leftover) (idealBufferSize : ℕ) (lowLatency : Bool) :
    (Shared.start left idealBufferSize lowLatency).Fifo left.writeBuf :=
  ⟨le_max_right _ _, fun _ => List.append_nil _, List.nil_prefix,
    fun hended => hended.elim Bool.noConfusion Loop.noConfusion,
    fun hexited => Loop.noConfusion hexited, fun hfailed => Loop.noConfusion hfailed⟩

end Fifo

/-- Whatever the threads and the system do, and whatever an earlier connection left in the buffer,
what was sent is the start of the leftover and what was queued; while the connection stands nothing
is lost; a socket thread that exits by itself has sent everything; and a lost connection leaves at
most the end of what was queued. The buffer only overflows by what was left. -/
theorem queued_in_order (left : Leftover) (idealBufferSize : ℕ) (lowLatency : Bool)
    (es : List Event) :
    let s := es.foldl Shared.step (.start left idealBufferSize lowLatency)
    s.writeBuf.length ≤ max s.writeBufSize left.writeBuf.length ∧
      s.delivered <+: left.writeBuf ++ s.queued ∧
      (s.loop ≠ .failed → left.writeBuf ++ s.queued = s.delivered ++ s.writeBuf) ∧
      (s.loop = .exited → s.delivered = left.writeBuf ++ s.queued) ∧
      (s.loop = .failed → s.writeBuf <:+ s.queued) := by
  intro s
  have h : s.Fifo left.writeBuf := Runs.invariant (J := Shared.Fifo left.writeBuf)
    (fun s e h => fifo_step h e) (fifo_start left idealBufferSize lowLatency) es
  refine ⟨h.bound, h.sent, h.order, fun hexited => ?_, h.lost⟩
  have horder := h.order (by rw [hexited]; exact Loop.noConfusion)
  rw [h.exited hexited, List.append_nil] at horder
  exact horder.symm

/-- What keeps the threads from waiting for each other. -/
structure Shared.Lively (s : Shared) : Prop where
  drained : s.canWrite = true → s.loop = .top ∨ s.loop = .waiting → s.hasData = false →
    s.sender ≠ .signalling → s.writeBuf.length ≤ 1000
  woken : ∀ data, s.sender = .blocked data →
    s.spaceAvailable = true ∨ s.writeBufSize < s.writeBuf.length + data.length

section Lively
variable {s : Shared}

theorem lively_queueData (h : s.Lively) (data : List UInt8)
    (hsender : s.sender ≠ .signalling) : (s.queueData data).Lively := by
  unfold Shared.queueData
  by_cases hfull : s.writeBufSize < s.writeBuf.length + data.length
  · rw [if_pos hfull]
    refine ⟨fun hcan hloop hdata _ => h.drained hcan hloop hdata hsender, fun data' hblocked => ?_⟩
    obtain rfl := Sender.blocked.inj hblocked
    exact .inr hfull
  · rw [if_neg hfull]
    exact ⟨fun _ _ _ hne => absurd rfl hne, fun _ hblocked => Sender.noConfusion hblocked⟩

/-- The send thread goes on, not to wait for room. -/
theorem lively_sender (h : s.Lively) (hsender : s.sender ≠ .signalling) (sender : Sender)
    (hopen : ∀ data, sender ≠ .blocked data) : ({ s with sender := sender } : Shared).Lively :=
  ⟨fun hcan hloop hdata _ => h.drained hcan hloop hdata hsender,
    fun data hblocked => absurd hblocked (hopen data)⟩

theorem lively_stepSender (h : s.Lively) : s.stepSender.Lively := by
  unfold Shared.stepSender
  cases hsender : s.sender with
  | idle => exact h
  | trying data =>
    apply lively_sender h (by rw [hsender]; exact Sender.noConfusion)
    intro data' hblocked
    split_ifs at hblocked
  | locking data => exact lively_queueData h data (by rw [hsender]; exact Sender.noConfusion)
  | blocked data =>
    have hne : s.sender ≠ .signalling := by rw [hsender]; exact Sender.noConfusion
    show (if s.spaceAvailable then _ else s : Shared).Lively
    split_ifs
    · exact ⟨fun hcan hloop hdata _ => h.drained hcan hloop hdata hne,
        fun _ hblocked => Sender.noConfusion hblocked⟩
    · exact h
  | signalling =>
    exact ⟨fun _ _ hdata => Bool.noConfusion hdata, fun _ hblocked => Sender.noConfusion hblocked⟩
  | closing =>
    exact ⟨fun _ _ hdata => Bool.noConfusion hdata, fun _ hblocked => Sender.noConfusion hblocked⟩
  | closed =>
    show (if s.loop.over then _ else s : Shared).Lively
    split_ifs
    · exact lively_sender h (by rw [hsender]; exact Sender.noConfusion) _
        fun _ => Sender.noConfusion
    · exact h
  | joined => exact h

theorem lively_fatal (s : Shared) : s.fatal.Lively :=
  ⟨fun _ hloop => hloop.elim Loop.noConfusion Loop.noConfusion, fun _ _ => .inl rfl⟩

theorem lively_writeData (h : s.Lively) (ret : SendRet) : (s.writeData ret).Lively := by
  unfold Shared.writeData
  by_cases hempty : s.writeBuf.length = 0
  · rw [if_pos hempty]
    exact ⟨fun _ _ _ _ => hempty.trans_le (Nat.zero_le _), h.woken⟩
  · rw [if_neg hempty]
    cases ret with
    | sent n =>
      dsimp only
      split_ifs
      · exact lively_fatal s
      · refine ⟨fun _ hloop _ _ => ?_, fun _ _ => .inl rfl⟩
        show (s.writeBuf.drop (min n s.request)).length ≤ 1000
        rw [List.length_drop]
        by_contra hlong
        have hwriting : (s.wrote (min n s.request)).loop = .writing := if_neg hlong
        rw [hwriting] at hloop
        exact hloop.elim Loop.noConfusion Loop.noConfusion
    | wouldBlock => exact ⟨fun hcan => Bool.noConfusion hcan, h.woken⟩
    | error => exact lively_fatal s

/-- The loop passes on: it starts writing when it can. -/
theorem lively_socketEvent
    (hwoken : ∀ data, s.sender = .blocked data →
      s.spaceAvailable = true ∨ s.writeBufSize < s.writeBuf.length + data.length) (r : Reply) :
    (s.socketEvent r).Lively := by
  unfold Shared.socketEvent
  split_ifs with hfatal hcan
  · exact lively_fatal s
  · exact ⟨fun _ hloop => hloop.elim Loop.noConfusion Loop.noConfusion, hwoken⟩
  · exact ⟨fun hwrite => absurd hwrite hcan, hwoken⟩

theorem lively_stepLoop (h : s.Lively) (r : Reply) : (s.stepLoop r).Lively := by
  unfold Shared.stepLoop
  cases hloop : s.loop with
  | top =>
    dsimp only
    split_ifs
    · exact ⟨fun _ hloop => hloop.elim Loop.noConfusion Loop.noConfusion, h.woken⟩
    · exact ⟨fun hcan _ => h.drained hcan (.inl hloop), h.woken⟩
  | waiting =>
    dsimp only
    split_ifs with hfails hsocket hdata hcan
    · exact lively_fatal s
    · apply lively_socketEvent
      exact h.woken
    · exact ⟨fun _ hloop => hloop.elim Loop.noConfusion Loop.noConfusion, h.woken⟩
    · exact ⟨fun hwrite => absurd hwrite hcan, h.woken⟩
    · exact ⟨fun hwrite _ => h.drained hwrite (.inr hloop), h.woken⟩
    · exact h
  | writing => exact lively_writeData h r.ret
  | exited => exact h
  | failed => exact h

theorem lively_step (h : s.Lively) (e : Event) : (s.step e).Lively := by
  cases e with
  | call data =>
    unfold Shared.step
    dsimp only
    split_ifs with hidle
    · exact lively_sender h (by rw [hidle]; exact Sender.noConfusion) _
        fun _ => Sender.noConfusion
    · exact h
  | finish =>
    unfold Shared.step
    dsimp only
    split_ifs with hidle
    · exact ⟨fun hcan hloop hdata _ => h.drained hcan hloop hdata
        (by rw [hidle]; exact Sender.noConfusion), fun _ hblocked => Sender.noConfusion hblocked⟩
    · exact h
  | sender => exact lively_stepSender h
  | loop r => exact lively_stepLoop h r
  | socketAvailable => exact ⟨h.drained, h.woken⟩
  | sendBacklog => exact ⟨h.drained, h.woken⟩

end Lively

/-- In every reachable state a send thread that waits for room, with data that fits beside a
kilobyte, has a signal to wake up to, or a socket thread that writes, is about to be told to, or
waits for the system itself; and a socket thread that sleeps though it could write leaves no more
than 1000 bytes. -/
theorem blocked_not_forgotten (left : Leftover) (idealBufferSize : ℕ) (lowLatency : Bool)
    (es : List Event) :
    let s := es.foldl Shared.step (.start left idealBufferSize lowLatency)
    (∀ data, s.sender = .blocked data → data.length + 1000 ≤ s.writeBufSize → s.loop ≠ .failed →
        s.spaceAvailable = true ∨ s.loop = .writing ∨ s.hasData = true ∨ s.canWrite = false) ∧
      (s.loop = .waiting → s.canWrite = true → s.hasData = false → s.sender ≠ .signalling →
        s.writeBuf.length ≤ 1000) := by
  intro s
  have hstart : (Shared.start left idealBufferSize lowLatency).Lively :=
    ⟨fun hcan => Bool.noConfusion hcan, fun _ hblocked => Sender.noConfusion hblocked⟩
  obtain ⟨hfifo, h⟩ : s.Fifo left.writeBuf ∧ s.Lively :=
    Runs.invariant (J := fun s : Shared => s.Fifo left.writeBuf ∧ s.Lively)
      (fun s e h => ⟨fifo_step h.1 e, lively_step h.2 e⟩)
      ⟨fifo_start left idealBufferSize lowLatency, hstart⟩ es
  refine ⟨fun data hblocked hfits hok => ?_, fun hloop hcan => h.drained hcan (.inr hloop)⟩
  by_contra hnone
  obtain ⟨hspace, hwriting, hdata, hcan⟩ :
      s.spaceAvailable ≠ true ∧ s.loop ≠ .writing ∧ s.hasData ≠ true ∧ s.canWrite ≠ false := by
    simpa only [not_or] using hnone
  have hasleep : s.loop = .top ∨ s.loop = .waiting := by
    cases hloop : s.loop with
    | top => exact .inl rfl
    | waiting => exact .inr rfl
    | writing => exact absurd hloop hwriting
    | exited =>
      have hended := hfifo.ended (.inr hloop)
      rw [hblocked] at hended
      exact Bool.noConfusion hended
    | failed => exact absurd hloop hok
  have hshort : s.writeBuf.length ≤ 1000 :=
    h.drained (Bool.of_not_eq_false hcan) hasleep (Bool.of_not_eq_true hdata)
      (by rw [hblocked]; exact Sender.noConfusion)
  have hfull := (h.woken data hblocked).resolve_left hspace
  omega

/-- A socket that takes all it is given, and nothing else happens. -/
def taking (n : ℕ) : Reply := ⟨false, false, false, false, false, .sent n⟩

/-- The socket thread for `k` steps. -/
def Shared.alone (s : Shared) (n k : ℕ) : Shared := (fun s => s.stepLoop (taking n))^[k] s

/-- In the low latency mode the send thread is at its end, and the socket can take data. -/
structure Shared.Ending (s : Shared) (size : ℕ) : Prop where
  signaledExit : s.signaledExit = true
  canWrite : s.canWrite = true
  socketAvailable : s.socketAvailable = false
  sendBacklog : s.sendBacklog = false
  lowLatency : s.lowLatency = true
  size : s.latencyPacketSize = size

/-- Nothing but steps of the two threads, with a socket that takes `m` bytes at a time. -/
def Event.Quiet (m : ℕ) : Event → Prop
  | .sender => True
  | .loop r => r = taking m
  | _ => False

def Event.isLoop : Event → Bool
  | .loop _ => true
  | _ => false

/-- Of `n` bytes that go out `size` at a time the last ones are as many, or too many to be left. -/
def Whole (size n : ℕ) : Prop := n ≤ size ∨ n % size = 0 ∨ 1000 < n % size

instance (size n : ℕ) : Decidable (Whole size n) := inferInstanceAs (Decidable (_ ∨ _))

/-- What a round of `write_data` leaves of `n` bytes when at most `size` go out at a time. -/
def leftover (size n : ℕ) : ℕ := if Whole size n then 0 else n % size

/-- The socket thread, left to itself, comes to its exit. -/
def Shared.Exits (s : Shared) (m : ℕ) : Prop := ∃ k, (s.alone m k).loop = .exited

/-- The socket thread, left to itself, falls asleep for good with so many bytes unsent. -/
def Shared.Sleeps (s : Shared) (m unsent : ℕ) : Prop :=
  ∃ k, ∀ j, k ≤ j → (s.alone m j).loop = .waiting ∧ (s.alone m j).writeBuf.length = unsent

section Exit
variable {s : Shared} {m : ℕ}

theorem leftover_step {size n : ℕ} (hsize : 1000 < size) (hlong : 1000 < n - size) :
    leftover size (n - size) = leftover size n := by
  have hmod : (n - size) % size = n % size := (Nat.mod_eq_sub_mod (by omega)).symm
  have hwhole : Whole size (n - size) ↔ Whole size n := by
    unfold Whole
    rw [hmod]
    by_cases hfit : n - size ≤ size
    · have hrest : n % size = 0 ∨ 1000 < n % size := by
        rw [← hmod]
        rcases Nat.lt_or_eq_of_le hfit with hlt | heq
        · right
          rw [Nat.mod_eq_of_lt hlt]
          exact hlong
        · left
          rw [heq, Nat.mod_self]
      exact ⟨fun _ => .inr hrest, fun _ => .inl hfit⟩
    · have hlarge : ¬ n ≤ size := by omega
      simp only [hfit, hlarge, false_or]
  unfold leftover
  rw [hmod]
  exact if_congr hwhole rfl rfl

theorem leftover_short {size n : ℕ} (hsize : 1000 < size) (hshort : n - size ≤ 1000) :
    leftover size n = n - size := by
  unfold leftover
  by_cases hfit : n ≤ size
  · have hwhole : Whole size n := .inl hfit
    rw [if_pos hwhole]
    omega
  · have hmod : n % size = n - size := by
      rw [Nat.mod_eq_sub_mod (by omega)]
      exact Nat.mod_eq_of_lt (by omega)
    have hpiece : ¬ Whole size n := by
      unfold Whole
      omega
    rw [if_neg hpiece, hmod]

theorem alone_succ (s : Shared) (n k : ℕ) :
    s.alone n (k + 1) = (s.stepLoop (taking n)).alone n k := Function.iterate_succ_apply _ k s

theorem alone_add (s : Shared) (n j k : ℕ) : s.alone n (j + k) = (s.alone n k).alone n j :=
  Function.iterate_add_apply _ j k s

/-- Induction over the bytes that are left: the rounds of `write_data` stop at the leftover. -/
theorem writing_leaves {size : ℕ} (hsize : 1000 < size) (n : ℕ) :
    ∀ s : Shared, s.Ending size → s.loop = .writing → s.writeBuf.length = n → n ≤ m →
      ∃ k, (s.alone m k).Ending size ∧ (s.alone m k).loop = .top ∧
        (s.alone m k).hasData = s.hasData ∧ (s.alone m k).writeBuf.length = leftover size n := by
  induction n using Nat.strongRecOn with
  | ind n ih =>
    intro s hending hloop hlen hm
    by_cases hempty : n = 0
    · refine ⟨1, ?_⟩
      have hstep : s.alone m 1 = { s with loop := .top } := by
        show s.stepLoop (taking m) = _
        unfold Shared.stepLoop
        rw [hloop]
        exact if_pos (hlen.trans hempty)
      have hnone : leftover size n = 0 := if_pos (Or.inl (by omega))
      rw [hstep, hnone]
      exact ⟨⟨hending.signaledExit, hending.canWrite, hending.socketAvailable,
        hending.sendBacklog, hending.lowLatency, hending.size⟩, rfl, rfl, hlen.trans hempty⟩
    · have hrequest : min m s.request = min size n := by
        unfold Shared.request
        rw [if_pos hending.lowLatency, hending.size, hlen]
        omega
      have hstep : s.stepLoop (taking m) = s.wrote (min size n) := by
        unfold Shared.stepLoop
        rw [hloop]
        show s.writeData (.sent m) = _
        unfold Shared.writeData
        rw [if_neg (by omega)]
        show (if min m s.request = 0 then s.fatal else s.wrote (min m s.request)) = _
        rw [hrequest, if_neg (by omega)]
      have hrest : (s.wrote (min size n)).writeBuf.length = n - size := by
        show (s.writeBuf.drop (min size n)).length = _
        rw [List.length_drop, hlen]
        omega
      have hending' : (s.wrote (min size n)).Ending size :=
        ⟨hending.signaledExit, hending.canWrite, hending.socketAvailable, hending.sendBacklog,
          hending.lowLatency, hending.size⟩
      by_cases hshort : n - size ≤ 1000
      · refine ⟨1, ?_⟩
        have hone : s.alone m 1 = s.wrote (min size n) := hstep
        rw [hone, leftover_short hsize hshort]
        refine ⟨hending', if_pos ?_, rfl, hrest⟩
        rw [hlen]
        omega
      · have hwriting : (s.wrote (min size n)).loop = .writing := by
          refine if_neg ?_
          rw [hlen]
          omega
        obtain ⟨k, hk⟩ := ih (n - size) (by omega) _ hending' hwriting hrest (by omega)
        refine ⟨k + 1, ?_⟩
        rw [alone_succ, hstep, ← leftover_step hsize (not_le.mp hshort)]
        exact hk

/-- At the top of the loop the thread exits or falls asleep. -/
theorem alone_top {size : ℕ} (hending : s.Ending size) (hloop : s.loop = .top) :
    s.alone m 1 =
      if s.writeBuf.length = 0 then { s with signaledExit := false, loop := .exited }
      else { s with loop := .waiting } := by
  show s.stepLoop (taking m) = _
  unfold Shared.stepLoop
  rw [hloop]
  simp only [hending.signaledExit, Bool.true_and, beq_iff_eq]

theorem alone_asleep {size : ℕ} (hending : s.Ending size) (hloop : s.loop = .waiting)
    (hdata : s.hasData = false) (k : ℕ) : s.alone m k = s := by
  apply Function.iterate_fixed
  unfold Shared.stepLoop
  rw [hloop]
  simp [taking, hending.socketAvailable, hdata, hending.sendBacklog]

theorem exits_of_alone (k : ℕ) (h : (s.alone m k).Exits m) : s.Exits m := by
  obtain ⟨i, hi⟩ := h
  refine ⟨i + k, ?_⟩
  rw [alone_add]
  exact hi

theorem sleeps_of_alone {unsent : ℕ} (k : ℕ) (h : (s.alone m k).Sleeps m unsent) :
    s.Sleeps m unsent := by
  obtain ⟨i, hi⟩ := h
  refine ⟨i + k, fun j hj => ?_⟩
  obtain ⟨i', rfl⟩ := Nat.exists_eq_add_of_le' ((Nat.le_add_left k i).trans hj)
  rw [alone_add]
  exact hi i' (by omega)

theorem exits_top {size : ℕ} (hending : s.Ending size) (hloop : s.loop = .top)
    (hempty : s.writeBuf.length = 0) : s.Exits m := by
  refine ⟨1, ?_⟩
  rw [alone_top hending hloop, if_pos hempty]

theorem sleeps_top {size : ℕ} (hending : s.Ending size) (hloop : s.loop = .top)
    (hdata : s.hasData = false) (hleft : s.writeBuf.length ≠ 0) :
    s.Sleeps m s.writeBuf.length := by
  apply sleeps_of_alone 1
  rw [alone_top hending hloop, if_neg hleft]
  refine ⟨0, fun j _ => ?_⟩
  rw [alone_asleep (s := { s with loop := .waiting }) ⟨hending.signaledExit, hending.canWrite,
    hending.socketAvailable, hending.sendBacklog, hending.lowLatency, hending.size⟩ rfl hdata]
  exact ⟨rfl, rfl⟩

/-- The signal of the send thread starts one round of `write_data`. -/
theorem outcome_waiting {size : ℕ} (hsize : 1000 < size) (hending : s.Ending size)
    (hloop : s.loop = .waiting) (hdata : s.hasData = true) (hm : s.writeBuf.length ≤ m) :
    (Whole size s.writeBuf.length → s.Exits m) ∧
      (¬ Whole size s.writeBuf.length → s.Sleeps m (s.writeBuf.length % size)) := by
  have hwake : s.stepLoop (taking m) = { s with hasData := false, loop := .writing } := by
    unfold Shared.stepLoop
    rw [hloop]
    simp [taking, hending.socketAvailable, hdata, hending.canWrite]
  obtain ⟨k, hending', htop, hquiet, hleft⟩ := writing_leaves (m := m) hsize s.writeBuf.length
    (s.stepLoop (taking m)) (by
      rw [hwake]
      exact ⟨hending.signaledExit, hending.canWrite, hending.socketAvailable,
        hending.sendBacklog, hending.lowLatency, hending.size⟩)
    (by rw [hwake]) (by rw [hwake]) hm
  have hwoken : (s.stepLoop (taking m)).hasData = false := by rw [hwake]
  rw [hwoken, ← alone_succ] at hquiet
  rw [← alone_succ] at hending' htop hleft
  refine ⟨fun hwhole => ?_, fun hpiece => ?_⟩
  · exact exits_of_alone (k + 1) (exits_top hending' htop (hleft.trans (if_pos hwhole)))
  · have hrest : leftover size s.writeBuf.length = s.writeBuf.length % size := if_neg hpiece
    rw [hrest] at hleft
    apply sleeps_of_alone (k + 1)
    rw [← hleft]
    apply sleeps_top hending' htop hquiet
    rw [hleft]
    exact fun hzero => hpiece (.inr (.inl hzero))

/-- From the top of the loop there is the test for an empty buffer first. -/
theorem outcome_top {size : ℕ} (hsize : 1000 < size) (hending : s.Ending size)
    (hloop : s.loop = .top) (hdata : s.hasData = true) (hm : s.writeBuf.length ≤ m) :
    (Whole size s.writeBuf.length → s.Exits m) ∧
      (¬ Whole size s.writeBuf.length → s.Sleeps m (s.writeBuf.length % size)) := by
  by_cases hempty : s.writeBuf.length = 0
  · have hwhole : Whole size s.writeBuf.length := .inl (by omega)
    exact ⟨fun _ => exits_top hending hloop hempty, fun hpiece => absurd hwhole hpiece⟩
  · have hnext := alone_top (m := m) hending hloop
    rw [if_neg hempty] at hnext
    obtain ⟨hexits, hsleeps⟩ := outcome_waiting (s := { s with loop := .waiting }) (m := m) hsize
      ⟨hending.signaledExit, hending.canWrite, hending.socketAvailable, hending.sendBacklog,
        hending.lowLatency, hending.size⟩ rfl hdata hm
    rw [← hnext] at hexits hsleeps
    have hsame : (s.alone m 1).writeBuf.length = s.writeBuf.length := by rw [hnext]
    rw [hsame] at hexits hsleeps
    exact ⟨fun hwhole => exits_of_alone 1 (hexits hwhole),
      fun hpiece => sleeps_of_alone 1 (hsleeps hpiece)⟩

/-- A thread that is told while it writes goes through another round, which takes the rest. -/
theorem exits_writing {size : ℕ} (hsize : 1000 < size) (hending : s.Ending size)
    (hloop : s.loop = .writing) (hdata : s.hasData = true) (hm : s.writeBuf.length ≤ m) :
    s.Exits m := by
  obtain ⟨k, hending', htop, hquiet, hleft⟩ :=
    writing_leaves (m := m) hsize s.writeBuf.length s hending hloop rfl hm
  have hrest : (s.alone m k).writeBuf.length ≤ 1000 ∧
      (s.alone m k).writeBuf.length ≤ s.writeBuf.length := by
    rw [hleft, leftover]
    split_ifs with hwhole
    · exact ⟨Nat.zero_le _, Nat.zero_le _⟩
    · unfold Whole at hwhole
      exact ⟨by omega, Nat.mod_le _ _⟩
  exact exits_of_alone k ((outcome_top hsize hending' htop (hquiet.trans hdata)
    (hrest.2.trans hm)).1 (.inl (by omega)))

end Exit

section Join
variable {s t : Shared} {m : ℕ}

/-- The socket thread does not look at where the send thread is. -/
theorem stepLoop_sender (t : Shared) (sender : Sender) (r : Reply) :
    ({ t with sender := sender } : Shared).stepLoop r =
      { t.stepLoop r with sender := sender } := by
  obtain ⟨writeBuf, writeBufSize, lowLatency, spaceAvailable, hasData, socketAvailable, sendBacklog,
    signaledExit, connected, canWrite, -, loop, queued, delivered⟩ := t
  cases loop with
  | top =>
    dsimp only [Shared.stepLoop]
    split_ifs <;> rfl
  | waiting =>
    dsimp only [Shared.stepLoop, Shared.socketEvent, Shared.fatal]
    split_ifs <;> rfl
  | writing =>
    dsimp only [Shared.stepLoop, Shared.writeData]
    split_ifs
    · rfl
    · cases r.ret with
      | sent n =>
        dsimp only [Shared.request, Shared.latencyPacketSize]
        split_ifs <;> rfl
      | wouldBlock => rfl
      | error => rfl
  | exited => rfl
  | failed => rfl

theorem stepLoop_over (hover : t.loop.over = true) (r : Reply) : t.stepLoop r = t := by
  unfold Shared.stepLoop
  cases hloop : t.loop with
  | exited => rfl
  | failed => rfl
  | _ =>
    rw [hloop] at hover
    exact Bool.noConfusion hover

theorem alone_succ' (s : Shared) (n k : ℕ) :
    s.alone n (k + 1) = (s.alone n k).stepLoop (taking n) := Function.iterate_succ_apply' _ k s

/-- In a quiet run the socket thread goes its own way, and the send thread joins it only when it
has returned. -/
theorem run_quiet (hclosed : s.sender = .closed) (es : List Event)
    (hquiet : ∀ e ∈ es, e.Quiet m) :
    ∃ sender, es.foldl Shared.step s =
        { s.alone m (es.countP Event.isLoop) with sender := sender } ∧
      (sender = .closed ∨
        sender = .joined ∧ (s.alone m (es.countP Event.isLoop)).loop.over = true) := by
  induction es using List.reverseRecOn with
  | nil => exact ⟨.closed, by rw [← hclosed]; rfl, .inl rfl⟩
  | append_singleton es e ih =>
    obtain ⟨sender, hrun, hsender⟩ := ih fun e' he' => hquiet e' (List.mem_append_left _ he')
    have he : e.Quiet m := hquiet e (by simp)
    rw [List.foldl_append, List.countP_append, hrun]
    cases e with
    | loop r =>
      obtain rfl : r = taking m := he
      refine ⟨sender, ?_, ?_⟩
      · show ({ s.alone m _ with sender := sender } : Shared).stepLoop (taking m) = _
        rw [stepLoop_sender, ← alone_succ']
        rfl
      · show _ ∨ _ ∧ (s.alone m (es.countP Event.isLoop + 1)).loop.over = true
        rw [alone_succ']
        refine hsender.imp_right fun ⟨hjoined, hover⟩ => ⟨hjoined, ?_⟩
        rw [stepLoop_over hover]
        exact hover
    | sender =>
      show ∃ sender', ({ s.alone m _ with sender := sender } : Shared).stepSender = _ ∧ _
      rcases hsender with rfl | ⟨rfl, hover⟩
      · cases hover : (s.alone m (es.countP Event.isLoop)).loop.over with
        | true => exact ⟨.joined, if_pos hover, .inr ⟨rfl, hover⟩⟩
        | false => exact ⟨.closed, if_neg (by rw [hover]; exact Bool.false_ne_true), .inl rfl⟩
      · exact ⟨.joined, rfl, .inr ⟨rfl, hover⟩⟩
    | call data => exact he.elim
    | finish => exact he.elim
    | socketAvailable => exact he.elim
    | sendBacklog => exact he.elim

theorem alone_over {k : ℕ} (hover : (s.alone m k).loop.over = true) (j : ℕ) :
    s.alone m (j + k) = s.alone m k := by
  rw [alone_add]
  exact Function.iterate_fixed (stepLoop_over hover _) j

/-- A thread that sleeps for good has not returned before. -/
theorem not_over_of_sleeps {unsent : ℕ} (h : s.Sleeps m unsent) (k : ℕ) :
    (s.alone m k).loop.over = false := by
  obtain ⟨i, hi⟩ := h
  by_contra hover
  have hsame := alone_over (Bool.of_not_eq_false hover) i
  have hasleep := (hi (i + k) (Nat.le_add_right i k)).1
  rw [hsame] at hasleep
  rw [hasleep] at hover
  exact hover rfl

end Join

/-- The send thread is at its end in the low latency mode: it has told the socket thread, which has
not returned, and joins it; the socket can take all that is left. If the thread was writing when it
was told, or the last piece of what is left is whole or longer than 1000 bytes, the socket thread
exits and is joined. Otherwise it sleeps with that piece unsent, and the send thread waits for it,
until the system signals an event of the socket. -/
theorem exits_or_sleeps {s : Shared} {size m : ℕ} (hsize : 1000 < size) (hending : s.Ending size)
    (hclosed : s.sender = .closed) (hdata : s.hasData = true) (hloop : s.loop.over = false)
    (hm : s.writeBuf.length ≤ m) :
    (s.loop = .writing ∨ Whole size s.writeBuf.length → ∃ k, ∀ es : List Event,
      (∀ e ∈ es, e.Quiet m) → k ≤ es.countP Event.isLoop →
        (es.foldl Shared.step s).loop = .exited ∧
          ((es.foldl Shared.step s).step .sender).sender = .joined) ∧
      (¬ (s.loop = .writing ∨ Whole size s.writeBuf.length) → ∃ k, ∀ es : List Event,
        (∀ e ∈ es, e.Quiet m) → (es.foldl Shared.step s).sender = .closed ∧
          (k ≤ es.countP Event.isLoop → (es.foldl Shared.step s).loop = .waiting ∧
            (es.foldl Shared.step s).writeBuf.length = s.writeBuf.length % size)) := by
  have houtcome : (s.loop = .writing ∨ Whole size s.writeBuf.length → s.Exits m) ∧
      (¬ (s.loop = .writing ∨ Whole size s.writeBuf.length) →
        s.Sleeps m (s.writeBuf.length % size)) := by
    cases hphase : s.loop with
    | top =>
      obtain ⟨hexits, hsleeps⟩ := outcome_top hsize hending hphase hdata hm
      exact ⟨fun hwhole => hexits (hwhole.resolve_left Loop.noConfusion),
        fun hpiece => hsleeps fun hwhole => hpiece (.inr hwhole)⟩
    | waiting =>
      obtain ⟨hexits, hsleeps⟩ := outcome_waiting hsize hending hphase hdata hm
      exact ⟨fun hwhole => hexits (hwhole.resolve_left Loop.noConfusion),
        fun hpiece => hsleeps fun hwhole => hpiece (.inr hwhole)⟩
    | writing =>
      exact ⟨fun _ => exits_writing hsize hending hphase hdata hm,
        fun hpiece => absurd (.inl rfl) hpiece⟩
    | exited => rw [hphase] at hloop; exact Bool.noConfusion hloop
    | failed => rw [hphase] at hloop; exact Bool.noConfusion hloop
  refine ⟨fun hwhole => ?_, fun hpiece => ?_⟩
  · obtain ⟨k, hk⟩ := houtcome.1 hwhole
    refine ⟨k, fun es hquiet hlong => ?_⟩
    have hover : (s.alone m k).loop.over = true := by rw [hk]; rfl
    obtain ⟨i, hi⟩ := Nat.exists_eq_add_of_le' hlong
    obtain ⟨sender, hrun, hsender⟩ := run_quiet hclosed es hquiet
    rw [hi, alone_over hover] at hrun hsender
    rw [hrun]
    refine ⟨hk, ?_⟩
    rcases hsender with rfl | ⟨rfl, -⟩
    · exact congrArg Shared.sender (if_pos hover)
    · rfl
  · have hasleep := houtcome.2 hpiece
    obtain ⟨k, hk⟩ := hasleep
    refine ⟨k, fun es hquiet => ?_⟩
    obtain ⟨sender, hrun, hsender⟩ := run_quiet hclosed es hquiet
    have hnot := not_over_of_sleeps ⟨k, hk⟩ (es.countP Event.isLoop)
    obtain rfl : sender = .closed := hsender.resolve_right fun ⟨_, hover⟩ =>
      Bool.noConfusion (hnot.symm.trans hover)
    rw [hrun]
    exact ⟨rfl, hk _⟩

/-- So many bytes are left. -/
def sampleEnding (n : ℕ) : Shared :=
  { writeBuf := List.replicate n 0, writeBufSize := 131072, lowLatency := true, hasData := true,
    signaledExit := true, canWrite := true, sender := .closed, loop := .waiting,
    queued := List.replicate n 0 }

/-- Three bytes go out; of 7284 the last three stay. -/
theorem exits_or_sleeps_sample :
    (∃ k, ∀ es : List Event, (∀ e ∈ es, e.Quiet 3) → k ≤ es.countP Event.isLoop →
        (es.foldl Shared.step (sampleEnding 3)).loop = .exited ∧
          ((es.foldl Shared.step (sampleEnding 3)).step .sender).sender = .joined) ∧
      ∃ k, ∀ es : List Event, (∀ e ∈ es, e.Quiet 7284) →
        (es.foldl Shared.step (sampleEnding 7284)).sender = .closed ∧
          (k ≤ es.countP Event.isLoop →
            (es.foldl Shared.step (sampleEnding 7284)).loop = .waiting ∧
              (es.foldl Shared.step (sampleEnding 7284)).writeBuf.length = 3) := by
  have hshort : (sampleEnding 3).writeBuf.length = 3 := rfl
  have hlong : (sampleEnding 7284).writeBuf.length = 7284 := List.length_replicate
  constructor
  · apply (exits_or_sleeps (s := sampleEnding 3) (show 1000 < 7281 by decide)
      ⟨rfl, rfl, rfl, rfl, rfl, rfl⟩ rfl rfl rfl hshort.le).1
    right
    rw [hshort]
    decide
  · have hsleeps := (exits_or_sleeps (s := sampleEnding 7284) (show 1000 < 7281 by decide)
      ⟨rfl, rfl, rfl, rfl, rfl, rfl⟩ rfl rfl rfl hlong.le).2
    rw [hlong] at hsleeps
    apply hsleeps
    rintro (hwriting | hwhole)
    · exact Loop.noConfusion hwriting
    · exact absurd hwhole (by decide)

end ObsBeacon.Rtmp.Socket
