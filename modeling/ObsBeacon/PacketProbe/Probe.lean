import ObsBeacon.Lib.Decimal
import ObsBeacon.Lib.H264
import ObsBeacon.PacketProbe.Annexb

/-! The packet probe: its per-second accumulator window, the published statistics and the
SEI injection, one definition for each block of `packet-probe.cpp`. -/
namespace ObsBeacon.PacketProbe
open Decimal

def kWindowNs : UInt64 := 1000000000

/-- The published `ProbeStats`. Times stay in integer nanoseconds, as `flush` averages
them before the conversion to milliseconds; `frames`, `bytes` and `elapsedNs` are what the
floating-point quotients `fps` and `kbps` are formed from. -/
structure ProbeStats where
  valid : Bool := false
  inObsNs : UInt64 := 0
  renderToSubmitNs : UInt64 := 0
  encodeNs : UInt64 := 0
  toInterleaveNs : UInt64 := 0
  minNs : UInt64 := 0
  maxNs : UInt64 := 0
  frames : ℕ := 0
  bytes : UInt64 := 0
  elapsedNs : UInt64 := 0
  deriving DecidableEq, Repr

inductive ProbeLog where
  | nal (keyframe : Bool) (size : ℕ) (au : AnnexbDescription)
  | window (frames keyframes : ℕ) (bytes elapsedNs : UInt64) (latency : Option ProbeStats)
  | inject (tEncodeMs sourceLatencyMs : UInt64) (size : ℕ) (au : AnnexbDescription)
  deriving DecidableEq, Repr

/-- The members of class `PacketProbe`, with their initial values. -/
structure Probe where
  attached : Bool := false
  injectEnabled : Bool := true
  codecIsH264 : Bool := false
  seq : UInt32 := 0
  loggedInjectThisWindow : Bool := false
  haveWindow : Bool := false
  windowStart : UInt64 := 0
  loggedFrameNal : Bool := false
  loggedKeyNal : Bool := false
  frames : ℕ := 0
  keyframes : ℕ := 0
  bytes : UInt64 := 0
  c2eSum : UInt64 := 0
  c2eMin : UInt64 := 0
  c2eMax : UInt64 := 0
  c2eCount : ℕ := 0
  r2sSum : UInt64 := 0
  r2sCount : ℕ := 0
  encSum : UInt64 := 0
  encCount : ℕ := 0
  p2iSum : UInt64 := 0
  p2iCount : ℕ := 0
  latest : ProbeStats := {}

/-- The probe's side of `PacketProbe::attach`, run when it is not attached yet. -/
def Probe.onAttach (p : Probe) (codec : Option String) : Probe :=
  { p with
    attached := true
    haveWindow := false
    seq := 0
    latest := {}
    codecIsH264 := codec == some "h264" }

/-- The probe's side of `PacketProbe::detach`, run when it is attached. -/
def Probe.onDetach (p : Probe) : Probe := { p with attached := false, latest := {} }

def resetWindow (p : Probe) (now : UInt64) : Probe :=
  { p with
    windowStart := now
    loggedFrameNal := false
    loggedKeyNal := false
    loggedInjectThisWindow := false
    frames := 0
    keyframes := 0
    bytes := 0
    c2eSum := 0
    c2eMin := 0
    c2eMax := 0
    c2eCount := 0
    r2sSum := 0
    r2sCount := 0
    encSum := 0
    encCount := 0
    p2iSum := 0
    p2iCount := 0
    haveWindow := true }

/-- The quotient of a sum by the `int` counter that belongs to it, which is not 0. -/
def quotient (sum : UInt64) (count : ℕ) : UInt64 := UInt64.ofNat (sum.toNat / count)

/-- An average of `flush`, 0 when nothing was counted. -/
def average (sum : UInt64) (count : ℕ) : UInt64 := if 0 < count then quotient sum count else 0

/-- The `ProbeStats` that `flush` fills in for a window with usable timings. -/
def windowStats (p : Probe) (elapsedNs : UInt64) : ProbeStats where
  valid := true
  inObsNs := quotient p.c2eSum p.c2eCount
  renderToSubmitNs := average p.r2sSum p.r2sCount
  encodeNs := average p.encSum p.encCount
  toInterleaveNs := average p.p2iSum p.p2iCount
  minNs := p.c2eMin
  maxNs := p.c2eMax
  frames := p.frames
  bytes := p.bytes
  elapsedNs := elapsedNs

def flush (p : Probe) (now : UInt64) : Probe × ProbeLog :=
  let elapsedNs := now - p.windowStart
  let latency := if 0 < p.c2eCount then some (windowStats p elapsedNs) else none
  (resetWindow { p with latest := latency.getD p.latest } now,
    .window p.frames p.keyframes p.bytes elapsedNs latency)

/-- The window clock: `pir`, or `cts` if `pir` is unset, or 0 without timings. -/
def windowClock : Option EncoderPacketTime → UInt64
  | none => 0
  | some t => if t.pir ≠ 0 then t.pir else t.cts

def countPacket (p : Probe) (pkt : EncoderPacket) : Probe :=
  { p with
    frames := p.frames + 1
    keyframes := if pkt.keyframe then p.keyframes + 1 else p.keyframes
    bytes := p.bytes + UInt64.ofNat pkt.size }

/-- Both stamps of an interval are set and in order. -/
def usable (start stop : UInt64) : Bool := stop ≠ 0 && start ≠ 0 && start ≤ stop

def addTimings (p : Probe) : Option EncoderPacketTime → Probe
  | none => p
  | some t =>
    let p :=
      if usable t.cts t.pir then
        let c2e := t.pir - t.cts
        { p with
          c2eSum := p.c2eSum + c2e
          c2eMin := if p.c2eCount = 0 ∨ c2e < p.c2eMin then c2e else p.c2eMin
          c2eMax := if p.c2eMax < c2e then c2e else p.c2eMax
          c2eCount := p.c2eCount + 1 }
      else p
    let p :=
      if usable t.cts t.fer then
        { p with r2sSum := p.r2sSum + (t.fer - t.cts), r2sCount := p.r2sCount + 1 }
      else p
    let p :=
      if usable t.fer t.ferc then
        { p with encSum := p.encSum + (t.ferc - t.fer), encCount := p.encCount + 1 }
      else p
    if usable t.ferc t.pir then
      { p with p2iSum := p.p2iSum + (t.pir - t.ferc), p2iCount := p.p2iCount + 1 }
    else p

/-- The read-only NAL sample, at most one line per window for each kind of frame. -/
def sampleNal (p : Probe) (pkt : EncoderPacket) : Probe × List ProbeLog :=
  match pkt.data with
  | none => (p, [])
  | some d =>
    if pkt.size < 4 then (p, [])
    else if pkt.keyframe ∧ ¬ p.loggedKeyNal then
      ({ p with loggedKeyNal := true }, [.nal true pkt.size (describeAnnexb d)])
    else if ¬ pkt.keyframe ∧ ¬ p.loggedFrameNal then
      ({ p with loggedFrameNal := true }, [.nal false pkt.size (describeAnnexb d)])
    else (p, [])

/-- The part of `onPacket` before the injection, for a video packet. -/
def accountPacket (p : Probe) (pkt : EncoderPacket) (time : Option EncoderPacketTime) :
    Probe × List ProbeLog :=
  let now := windowClock time
  let p := if p.haveWindow then p else resetWindow p now
  let p := addTimings (countPacket p pkt) time
  let sampled := sampleNal p pkt
  let p := sampled.1
  if now ≠ 0 ∧ kWindowNs ≤ now - p.windowStart then
    let flushed := flush p now
    (flushed.1, sampled.2 ++ [flushed.2])
  else (p, sampled.2)

/-- The wall-clock time of a monotonic stamp; 0 for an unset stamp or one in the future. -/
def toWall (clock : Clock) (x : UInt64) : UInt64 :=
  if x ≠ 0 ∧ x ≤ clock.monoNow then clock.wallNow - (clock.monoNow - x) else 0

def tEncodeMs (clock : Clock) (time : Option EncoderPacketTime) : UInt64 :=
  let tCaptureNs :=
    match time with
    | none => clock.wallNow
    | some t => if toWall clock t.cts ≠ 0 then toWall clock t.cts else clock.wallNow
  tCaptureNs / 1000000

def sourceLatencyMs : Option EncoderPacketTime → UInt64
  | none => 0
  | some t => if usable t.cts t.pir then (t.pir - t.cts) / 1000000 else 0

def kSeiUuid : List UInt8 :=
  [0x08, 0x2c, 0x96, 0x8f, 0x77, 0x5e, 0x49, 0xb4, 0x8d, 0x55, 0xa4, 0x29, 0xec, 0xd9, 0x89, 0xd5]

/-- The text the format string of `injectSei` yields for its two arguments. -/
def seiJson (tEncodeMs sourceLatencyMs : UInt64) : List UInt8 :=
  ascii "\x7b\"messageId\":\"encodeTimestamp\",\"payload\":" ++ render tEncodeMs.toNat ++
    ascii ",\"sourceLatencyMs\":" ++ render sourceLatencyMs.toNat ++ ascii "\x7d"

/-- `snprintf` into `size > 0` bytes: what the buffer then holds up to its terminator, and
the length of the whole text. -/
def snprintf (size : ℕ) (text : List UInt8) : List UInt8 × ℕ :=
  (text.take (size - 1) ++ [0], text.length)

/-- The RBSP of the SEI, from the first `jlen` bytes of the buffer `json`. -/
def seiRbsp (json : List UInt8) (jlen : ℕ) : List UInt8 :=
  let payloadSize := 16 + jlen
  [0x05] ++ List.replicate (payloadSize / 255) 0xff ++ [UInt8.ofNat (payloadSize % 255)] ++
    kSeiUuid ++ json.take jlen ++ [0x80]

/-- The Annex-B unit put in front of the access unit: start code, header, escaped RBSP. -/
def seiUnit (json : List UInt8) (jlen : ℕ) : List UInt8 :=
  [0x00, 0x00, 0x00, 0x01, 0x06] ++ epbEscape (seiRbsp json jlen)

def injectSei (pkt : EncoderPacket) (tEncodeMs sourceLatencyMs : UInt64) : EncoderPacket :=
  let printed := snprintf 128 (seiJson tEncodeMs sourceLatencyMs)
  if printed.2 = 0 then pkt
  else
    match pkt.data with
    | none => pkt
    | some d => pkt.setData (seiUnit printed.1 printed.2 ++ d)

/-- The guard of the injection at the end of `onPacket`. -/
def injects (p : Probe) (pkt : EncoderPacket) : Bool :=
  p.injectEnabled && p.codecIsH264 && pkt.data.isSome && 0 < pkt.size

def onVideoPacket (p : Probe) (pkt : EncoderPacket) (time : Option EncoderPacketTime)
    (clock : Clock) : Probe × EncoderPacket × List ProbeLog :=
  let accounted := accountPacket p pkt time
  let p := accounted.1
  let log := accounted.2
  if injects p pkt then
    let t := tEncodeMs clock time
    let s := sourceLatencyMs time
    let pkt := injectSei pkt t s
    if p.loggedInjectThisWindow then (p, pkt, log)
    else
      ({ p with loggedInjectThisWindow := true }, pkt,
        log ++ [.inject t s pkt.size (describeAnnexb (pkt.data.getD []))])
  else (p, pkt, log)

/-- `PacketProbe::onPacket`: the probe, the packet and the log lines afterwards. -/
def onPacket (p : Probe) (pkt : Option EncoderPacket) (time : Option EncoderPacketTime)
    (clock : Clock) : Probe × Option EncoderPacket × List ProbeLog :=
  match pkt with
  | none => (p, none, [])
  | some pkt =>
    if pkt.type ≠ .video then (p, some pkt, [])
    else
      let r := onVideoPacket p pkt time clock
      (r.1, some r.2.1, r.2.2)

end ObsBeacon.PacketProbe
