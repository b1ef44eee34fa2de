import Mathlib.Data.List.Perm.Basic
import ObsBeacon.Rtmp.FlvSession
import ObsBeacon.Rtmp.PacketQueue

/-! The threads of `rtmp-stream.c` around the packet queue: encoders that add packets, the send
thread that takes them, and a caller that stops the stream, in any order of their steps. -/
namespace ObsBeacon.Rtmp

/-- `enum video_colorspace` of libobs. -/
inductive VideoColorspace where
  | default | cs601 | cs709 | srgb | cs2100Pq | cs2100Hlg
  deriving DecidableEq, Repr

/-- An encoder of the output: its extra data as `obs_parse_avc_header` and the like leave it. -/
structure Encoder where
  header : Option (List UInt8)

/-- A video encoder, with the colour space of the video it belongs to, if it has one. -/
structure VideoEncoder extends Encoder where
  video : Option VideoColorspace

/-- The encoders of the output by track; a track without one is `none`. -/
structure Encoders where
  audio : List (Option Encoder)
  video : List (Option VideoEncoder)

/-- What goes on the wire behind `onMetaData`: a piece of the stream, or the colour description
of a video track, whose contents are left out. -/
inductive Piece where
  | send (send : Send)
  | videoMetadata (idx : ℕ)

def Piece.packet (packet : EncoderPacket) : Piece := .send (.packet packet)

/-- What is tried on the way through `send_headers` or `send_footers`: something that fails by
itself, a look at the socket alone, or the sending of a piece. -/
inductive Attempt where
  | fails
  | looks
  | sends (piece : Piece)

def Attempt.possible : Attempt → Bool
  | .fails => false
  | _ => true

def Attempt.piece : Attempt → Option Piece
  | .sends piece => some piece
  | _ => none

def sendExtra (header : Option (List UInt8)) (send : List UInt8 → Send) : Attempt :=
  header.elim .fails fun extra => .sends (.send (send extra))

/-- `send_audio_header`. -/
def audioHeader (encoder : Encoder) (idx : ℕ) : Attempt :=
  sendExtra encoder.header (.audioHeader idx)

/-- `send_video_metadata`: nothing is tried unless the video is HDR. -/
def videoMetadata (codecs : Codecs) (encoder : VideoEncoder) (idx : ℕ) : List Attempt :=
  match encoder.video with
  | none => [.fails]
  | some .cs2100Pq | some .cs2100Hlg =>
    if codecs.video idx = .h264 then [.looks] else [.sends (.videoMetadata idx)]
  | some _ => []

/-- `send_video_header`. -/
def videoHeader (codecs : Codecs) (encoder : VideoEncoder) (idx : ℕ) : Attempt :=
  match codecs.video idx with
  | .none => .fails
  | .hevc => .fails
  | .h264 => sendExtra encoder.header (.videoHeader idx)
  | .av1 => sendExtra encoder.header (.videoHeader idx)

/-- What `send_headers` tries: the first audio track, all video tracks, and the other audio
tracks up to the first without an encoder. -/
def sendHeaders (codecs : Codecs) (e : Encoders) : List Attempt :=
  let audio := (e.audio.takeWhile Option.isSome).reduceOption.zipIdx.map fun t => audioHeader t.1 t.2
  let video := e.video.zipIdx.flatMap fun t => t.1.elim [] fun encoder =>
    videoMetadata codecs encoder t.2 ++ [videoHeader codecs encoder t.2]
  audio.take 1 ++ video ++ audio.drop 1

/-- What `send_footers` tries. -/
def sendFooters (codecs : Codecs) (e : Encoders) : List Attempt :=
  e.video.zipIdx.filterMap fun t =>
    if t.1.isSome && !(t.2 == 0 && codecs.video t.2 == .h264) then
      some (.sends (.send (.footer t.2)))
    else none

/-- One attempt after the other until one fails, by itself or because the connection does after
`failAfter` of them: what is sent, and whether that is all. A piece that is cut short does not
show. -/
def carryOut (attempts : List Attempt) (failAfter : Option ℕ) : List Piece × Bool :=
  let tried := failAfter.elim attempts attempts.take
  ((tried.takeWhile Attempt.possible).filterMap Attempt.piece,
    attempts.all Attempt.possible && failAfter.all (attempts.length ≤ ·))

/-- A call of `rtmp_stream_data` on its way: before it holds the lock, before it posts the
semaphore, and before it gives its packet back. -/
inductive DataCall where
  | locking (packet : EncoderPacket) (clock : DropClock)
  | posting
  | releasing (packet : EncoderPacket)

/-- What follows the lock. -/
def DataCall.after (packet : EncoderPacket) (added : Bool) : DataCall :=
  if added then .posting else .releasing packet

/-- A call of `rtmp_stream_stop` on its way. -/
inductive StopCall where
  | testing | signalling | posting
  deriving DecidableEq, Repr

/-- Where the send thread is. -/
inductive SendPhase where
  | waiting
  | awake
  | tested
  | holding (packet : EncoderPacket)
  | cleared (packet : EncoderPacket)
  | ready (packet : EncoderPacket)
  | leaving
  | joining
  | closed
  | freed
  | reset
  | done

/-- How the sending of a packet ends: what came from the socket cannot be read, or the tag cannot
be written, or it is sent. -/
inductive SendResult where
  | socketError | writeError | written

/-- What the send thread learns from outside at a step. `stalls` is for the new socket loop, where
the write buffer may have no room and the socket thread may go on. -/
structure StepOutcome where
  stalls : Bool
  curTime : ℕ
  failAfter : Option ℕ
  result : SendResult
  frame : DbrFrame

/-- The `rtmp_stream` while it is active, with the pieces that `RTMP_Write` took, and the references
to packets that were taken, given back and forgotten. -/
structure SendStream where
  codecs : Codecs
  encoders : Encoders
  traffic : Traffic
  maxShutdownTimeSec : ℕ
  newSocketLoop : Bool
  gotFirstPacket : Bool := false
  startDtsOffset : ℤ := 0
  sendSem : ℕ := 0
  calls : List DataCall := []
  stop : Option StopCall := none
  stopping : Bool := false
  stopTs : ℕ := 0
  shutdownTimeoutTs : ℕ := 0
  active : Bool := true
  disconnected : Bool := false
  encodeError : Bool := false
  sentHeaders : Bool := false
  phase : SendPhase := .waiting
  wire : List Piece := []
  acquired : List EncoderPacket := []
  released : List EncoderPacket := []
  leaked : List EncoderPacket := []

/-- What a connection is set up with, and what an earlier stop left behind: neither time of it is
reset. -/
structure SendSetup where
  codecs : Codecs
  encoders : Encoders
  settings : DropSettings
  maxShutdownTimeSec : ℕ
  newSocketLoop : Bool
  stopTs : ℕ
  shutdownTimeoutTs : ℕ

/-- `init_connect` and `init_send`, behind `send_meta_data`. That the stop event is not set is left
by the send thread before, which resets it at its end. -/
def SendStream.start (c : SendSetup) (q : PacketQueue) : SendStream where
  codecs := c.codecs
  encoders := c.encoders
  traffic := { queue := q.initConnect c.settings }
  maxShutdownTimeSec := c.maxShutdownTimeSec
  newSocketLoop := c.newSocketLoop
  stopTs := c.stopTs
  shutdownTimeoutTs := c.shutdownTimeoutTs

/-- The parsers of packets, which leave their kind as it is. -/
structure Parser where
  parse : VideoId → EncoderPacket → EncoderPacket
  type_parse : ∀ codec p, (parse codec p).type = p.type

/-- The packet that `rtmp_stream_data` adds, `none` where it does not know the codec. -/
def Parser.added (parser : Parser) (codecs : Codecs) (packet : EncoderPacket) :
    Option EncoderPacket :=
  match packet.type, codecs.video packet.trackIdx with
  | .audio, _ => some packet
  | .video, .none => none
  | .video, .hevc => none
  | .video, codec => some (parser.parse codec packet)

/-- `rtmp_stream_data` up to the lock. -/
def SendStream.data (s : SendStream) (parser : Parser) (packet : Option EncoderPacket)
    (clock : DropClock) : SendStream :=
  if s.disconnected || !s.active then s
  else
    match packet with
    | none => { s with encodeError := true, calls := .posting :: s.calls }
    | some packet =>
      let s :=
        if s.gotFirstPacket then s
        else
          { s with startDtsOffset := getMsTime packet packet.dts, gotFirstPacket := true }
      match parser.added s.codecs packet with
      | none => s
      | some added =>
        { s with acquired := s.acquired ++ [added], calls := .locking added clock :: s.calls }

/-- The next step of a call of `rtmp_stream_data`, `calls` being the others. -/
def SendStream.resume (s : SendStream) (calls : List DataCall) : DataCall → SendStream
  | .locking packet clock =>
    if s.disconnected then { s with calls := .releasing packet :: calls }
    else
      { s with
        traffic := s.traffic.step (.offer packet clock)
        calls := .after packet (s.traffic.queue.add packet clock).2 :: calls }
  | .posting => { s with sendSem := s.sendSem + 1, calls := calls }
  | .releasing packet => { s with released := s.released ++ [packet], calls := calls }

/-- `rtmp_stream_stop` up to the test whether the stream is active. One call is followed at a time;
another that overlaps with it is left out. -/
def SendStream.stopAt (s : SendStream) (ts : ℕ) : SendStream :=
  if s.stop.isSome || s.stopping && ts ≠ 0 then s
  else
    { s with
      stopTs := ts / 1000
      shutdownTimeoutTs :=
        if ts ≠ 0 then ts + s.maxShutdownTimeSec * 1000000000 else s.shutdownTimeoutTs
      stop := some .testing }

/-- The next step of `rtmp_stream_stop`. -/
def SendStream.resumeStop (s : SendStream) : SendStream :=
  match s.stop with
  | none => s
  | some .testing => { s with stop := if s.active then some .signalling else none }
  | some .signalling =>
    { s with stopping := true, stop := if s.stopTs = 0 then some .posting else none }
  | some .posting => { s with sendSem := s.sendSem + 1, stop := none }

/-- `can_shutdown_stream`. -/
def SendStream.canShutdown (s : SendStream) (curTime : ℕ) (packet : EncoderPacket) : Bool :=
  s.shutdownTimeoutTs ≤ curTime || (s.stopTs : ℤ) ≤ packet.sysDtsUsec

/-- What `send_packet` and its kin do with a packet; one that meets an error before the tag is
written is not given back. -/
def SendStream.sendPacket (s : SendStream) (packet : EncoderPacket) (o : StepOutcome) : SendStream :=
  match o.result with
  | .socketError =>
    { s with leaked := s.leaked ++ [packet], disconnected := true, phase := .leaving }
  | .writeError =>
    { s with released := s.released ++ [packet], disconnected := true, phase := .leaving }
  | .written =>
    { s with
      wire := s.wire ++ [Piece.packet packet]
      released := s.released ++ [packet]
      traffic := s.traffic.step (.sent o.frame)
      phase := .waiting }

/-- `send_headers`, before the first packet. -/
def SendStream.headers (s : SendStream) (packet : EncoderPacket) (o : StepOutcome) : SendStream :=
  let sent := carryOut (sendHeaders s.codecs s.encoders) o.failAfter
  let s := { s with sentHeaders := true, wire := s.wire ++ sent.1 }
  if sent.2 then { s with phase := .ready packet }
  else { s with leaked := s.leaked ++ [packet], disconnected := true, phase := .leaving }

/-- The next step of `send_thread` from a phase. -/
def SendStream.sendFrom (s : SendStream) (o : StepOutcome) : SendPhase → SendStream
  | .waiting =>
    if s.sendSem = 0 then s else { s with sendSem := s.sendSem - 1, phase := .awake }
  | .awake => { s with phase := if s.stopping && s.stopTs == 0 then .leaving else .tested }
  | .tested =>
    { s with
      traffic := s.traffic.step .next
      phase := s.traffic.queue.getNextPacket.1.elim .waiting .holding }
  | .holding packet =>
    if s.stopping && s.canShutdown o.curTime packet then
      { s with released := s.released ++ [packet], phase := .leaving }
    else { s with phase := .cleared packet }
  | .cleared packet =>
    if s.sentHeaders then { s with phase := .ready packet } else s.headers packet o
  | .ready packet => s.sendPacket packet o
  | .leaving =>
    let sent := carryOut (sendFooters s.codecs s.encoders) o.failAfter
    { s with wire := if s.disconnected then s.wire else s.wire ++ sent.1, phase := .joining }
  | .joining => { s with phase := .closed }
  | .closed =>
    { s with
      released := s.released ++ s.traffic.queue.packets
      traffic := { s.traffic with queue := s.traffic.queue.stopped }
      phase := .freed }
  | .freed => { s with stopping := false, phase := .reset }
  | .reset => { s with active := false, sentHeaders := false, phase := .done }
  | .done => s

/-- Whether the thread may have to wait for room in the write buffer, or for the socket thread to
end. -/
def SendPhase.mayStall : SendPhase → Bool
  | .cleared _ | .ready _ | .leaving | .joining => true
  | _ => false

/-- The next step of `send_thread`; one that has to wait changes nothing that others see. -/
def SendStream.sendThread (s : SendStream) (o : StepOutcome) : SendStream :=
  if s.newSocketLoop && o.stalls && s.phase.mayStall then s else s.sendFrom o s.phase

/-- A step of one of the threads. -/
inductive StreamEvent where
  | data (packet : Option EncoderPacket) (clock : DropClock)
  | resume (i : ℕ)
  | stopAt (ts : ℕ)
  | resumeStop
  | sendThread (o : StepOutcome)

def SendStream.step (parser : Parser) (s : SendStream) : StreamEvent → SendStream
  | .data packet clock => s.data parser packet clock
  | .resume i =>
    match s.calls[i]? with
    | none => s
    | some call => s.resume (s.calls.eraseIdx i) call
  | .stopAt ts => s.stopAt ts
  | .resumeStop => s.resumeStop
  | .sendThread o => s.sendThread o

/-- What a call of `rtmp_stream_data` does up to the lock. -/
theorem data_cases (parser : Parser) (s : SendStream) (packet : Option EncoderPacket)
    (clock : DropClock) :
    ∃ offset first error, ∃ calls : List DataCall, ∃ added : List EncoderPacket,
      s.data parser packet clock =
          { s with
            startDtsOffset := offset
            gotFirstPacket := first
            encodeError := error
            calls := calls ++ s.calls
            acquired := s.acquired ++ added } ∧
        (calls = [] ∧ added = [] ∨ calls = [.posting] ∧ added = [] ∨
          ∃ p, calls = [.locking p clock] ∧ added = [p]) := by
  rw [SendStream.data.eq_def]
  by_cases hgone : s.disconnected || !s.active
  · rw [if_pos hgone]
    exact ⟨s.startDtsOffset, s.gotFirstPacket, s.encodeError, [], [], by simp, .inl ⟨rfl, rfl⟩⟩
  rw [if_neg hgone]
  cases packet with
  | none => exact ⟨s.startDtsOffset, s.gotFirstPacket, true, [.posting], [], by simp,
      .inr (.inl ⟨rfl, rfl⟩)⟩
  | some packet =>
    have hfirst : ∃ offset first, (if s.gotFirstPacket then s else
        { s with startDtsOffset := getMsTime packet packet.dts, gotFirstPacket := true }) =
          { s with startDtsOffset := offset, gotFirstPacket := first } := by
      split_ifs
      · exact ⟨_, _, rfl⟩
      · exact ⟨_, _, rfl⟩
    obtain ⟨offset, first, hfirst⟩ := hfirst
    simp only [hfirst]
    cases parser.added s.codecs packet with
    | none => exact ⟨offset, first, s.encodeError, [], [], by simp, .inl ⟨rfl, rfl⟩⟩
    | some added => exact ⟨offset, first, s.encodeError, [.locking added clock], [added], rfl,
        .inr (.inr ⟨added, rfl, rfl⟩)⟩

/-- Every call on its way can be the next to take a step. -/
theorem step_resume {s : SendStream} {i : ℕ} (parser : Parser) :
    s.step parser (.resume i) = s ∨ ∃ call calls, s.calls.Perm (call :: calls) ∧
      s.step parser (.resume i) = s.resume calls call := by
  rw [SendStream.step]
  cases hcall : s.calls[i]? with
  | none => exact .inl rfl
  | some call =>
    obtain ⟨hi, rfl⟩ := List.getElem?_eq_some_iff.mp hcall
    exact .inr ⟨_, _, (List.getElem_cons_eraseIdx_perm hi).symm, rfl⟩

/-- The loop of the send thread. -/
def SendPhase.running : SendPhase → Bool
  | .waiting | .awake | .tested | .holding _ | .cleared _ | .ready _ => true
  | .leaving | .joining | .closed | .freed | .reset | .done => false

/-- The packet in the hands of the send thread. -/
def SendPhase.held : SendPhase → List EncoderPacket
  | .holding p | .cleared p | .ready p => [p]
  | _ => []

/-- What the other threads leave to the send thread. -/
structure SendStream.SendEq (s s' : SendStream) : Prop where
  newSocketLoop : s'.newSocketLoop = s.newSocketLoop
  codecs : s'.codecs = s.codecs
  encoders : s'.encoders = s.encoders
  wire : s'.wire = s.wire
  phase : s'.phase = s.phase
  sentHeaders : s'.sentHeaders = s.sentHeaders
  disconnected : s'.disconnected = s.disconnected
  leaked : s'.leaked = s.leaked
  taken : s'.traffic.taken = s.traffic.taken

def StreamEvent.isSendThread : StreamEvent → Bool
  | .sendThread _ => true
  | _ => false

/-- What every step from a phase keeps, every step of the send thread keeps. -/
theorem sendThread_cases {P : SendStream → Prop} {s : SendStream} {o : StepOutcome} (hstall : P s)
    (hfrom : P (s.sendFrom o s.phase)) : P (s.sendThread o) := by
  unfold SendStream.sendThread
  split_ifs
  · exact hstall
  · exact hfrom

theorem sendEq_step (parser : Parser) (s : SendStream) {e : StreamEvent}
    (hother : e.isSendThread = false) : s.SendEq (s.step parser e) := by
  cases e with
  | data packet clock =>
    obtain ⟨offset, first, error, calls, added, heq, -⟩ := data_cases parser s packet clock
    rw [SendStream.step, heq]
    exact ⟨rfl, rfl, rfl, rfl, rfl, rfl, rfl, rfl, rfl⟩
  | resume i =>
    obtain heq | ⟨call, calls, -, heq⟩ := step_resume (s := s) (i := i) parser
    · rw [heq]
      exact ⟨rfl, rfl, rfl, rfl, rfl, rfl, rfl, rfl, rfl⟩
    · rw [heq]
      cases call with
      | locking p clock =>
        rw [SendStream.resume]
        split_ifs <;> exact ⟨rfl, rfl, rfl, rfl, rfl, rfl, rfl, rfl, rfl⟩
      | posting => exact ⟨rfl, rfl, rfl, rfl, rfl, rfl, rfl, rfl, rfl⟩
      | releasing p => exact ⟨rfl, rfl, rfl, rfl, rfl, rfl, rfl, rfl, rfl⟩
  | stopAt ts =>
    rw [SendStream.step, SendStream.stopAt]
    split_ifs <;> exact ⟨rfl, rfl, rfl, rfl, rfl, rfl, rfl, rfl, rfl⟩
  | resumeStop =>
    rw [SendStream.step, SendStream.resumeStop.eq_def]
    split <;> exact ⟨rfl, rfl, rfl, rfl, rfl, rfl, rfl, rfl, rfl⟩
  | sendThread o => exact absurd hother nofun

end ObsBeacon.Rtmp
