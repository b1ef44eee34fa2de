import Mathlib.Data.Finset.Basic
import ObsBeacon.ConnectionMonitor.Status
import ObsBeacon.Lib.Runs
import ObsBeacon.PacketProbe.Probe

/-! The monitor and its probe together with what libobs holds for them: the event
callback, the output references, the signal connections and the packet callbacks. -/
namespace ObsBeacon.ConnectionMonitor
open PacketProbe

/-- The output signals by name, with the call data the handlers read. -/
inductive Signal where
  | starting
  | start
  | stop (code : ℤ) (lastError : Option String)
  | reconnect
  | reconnectSuccess
  deriving DecidableEq, Repr

inductive SignalName where
  | starting | start | stop | reconnect | reconnectSuccess
  deriving DecidableEq, Repr

def Signal.name : Signal → SignalName
  | .starting => .starting
  | .start => .start
  | .stop _ _ => .stop
  | .reconnect => .reconnect
  | .reconnectSuccess => .reconnectSuccess

/-- The handler `connectSignals` connects to a signal. -/
def Signal.handler : Signal → Handler
  | .starting => .onSigStarting
  | .start => .onSigStart
  | .stop code lastError => .onSigStop code lastError
  | .reconnect => .onSigReconnect
  | .reconnectSuccess => .onSigReconnectSuccess

/-- The members of `ConnectionMonitor`, then libobs' side. A connection is held once however
often it is made; packet callbacks are held as often as added, the last one added first. -/
structure Plugin where
  status : ConnStatus := {}
  output : Option Output := none
  signals : Option Handle := none
  installed : Bool := false
  probe : Probe := {}
  eventCallback : Bool := false
  obtained : ℕ := 0
  released : ℕ := 0
  connections : Finset (Handle × SignalName) := ∅
  packetCallbacks : List Output := []

/-- The members that only `install` and `uninstall` write. -/
def Plugin.control (p : Plugin) : Bool × Bool := (p.installed, p.eventCallback)

/-- `PacketProbe::attach`. -/
def attach (p : Plugin) (o : Output) : Plugin :=
  if p.probe.attached then p
  else
    { p with
      packetCallbacks := o :: p.packetCallbacks
      probe := p.probe.onAttach o.videoCodec }

@[simp] theorem attach_control (p : Plugin) (o : Output) :
    (attach p o).control = p.control := by
  unfold attach
  split_ifs <;> rfl

/-- `PacketProbe::detach`. -/
def detach (p : Plugin) (o : Output) : Plugin :=
  if p.probe.attached then
    { p with
      packetCallbacks := p.packetCallbacks.eraseP (·.handle = o.handle)
      probe := p.probe.onDetach }
  else p

@[simp] theorem detach_control (p : Plugin) (o : Output) :
    (detach p o).control = p.control := by
  unfold detach
  split_ifs <;> rfl

/-- `out` is what `obs_frontend_get_streaming_output` returns, with a new reference. -/
def acquireOutput (p : Plugin) (out : Option Output) : Plugin :=
  match out with
  | none => { p with output := none, signals := none }
  | some o =>
    attach { p with output := some o, obtained := p.obtained + 1, signals := some o.handle } o

@[simp] theorem acquireOutput_control (p : Plugin) (out : Option Output) :
    (acquireOutput p out).control = p.control := by
  cases out with
  | none => rfl
  | some o => exact attach_control _ o

def releaseOutput (p : Plugin) : Plugin :=
  match p.output with
  | none => { p with signals := none }
  | some o =>
    let p := detach p o
    { p with released := p.released + 1, output := none, signals := none }

@[simp] theorem releaseOutput_control (p : Plugin) :
    (releaseOutput p).control = p.control := by
  cases hout : p.output with
  | none => simp only [releaseOutput, hout, Plugin.control]
  | some o =>
    have h := detach_control p o
    simpa only [releaseOutput, hout, Plugin.control] using h

def signalNames : List SignalName := [.starting, .start, .stop, .reconnect, .reconnectSuccess]

def connectSignals (p : Plugin) : Plugin :=
  { p with
    connections :=
      match p.signals with
      | none => p.connections
      | some h => signalNames.foldl (fun cs n => insert (h, n) cs) p.connections }

def disconnectSignals (p : Plugin) : Plugin :=
  { p with
    connections :=
      match p.signals with
      | none => p.connections
      | some h => signalNames.foldl (fun cs n => cs.erase (h, n)) p.connections }

def install (p : Plugin) : Plugin :=
  if p.installed then p else { p with eventCallback := true, installed := true }

def uninstall (p : Plugin) : Plugin :=
  if p.installed then
    let p := releaseOutput (disconnectSignals { p with eventCallback := false })
    { p with installed := false }
  else p

/-- A frontend event, with the output and the service the frontend would return. -/
inductive FrontendEvent where
  | streamingStarting (out : Option Output) (service : Option Service)
  | streamingStopped
  | other

def onFrontendEvent (p : Plugin) : FrontendEvent → Plugin
  | .streamingStarting out service =>
    let p := connectSignals (acquireOutput p out)
    { p with status := Handler.run p.status (.streamingStarting service) }
  | .streamingStopped => releaseOutput (disconnectSignals p)
  | .other => p

inductive Event where
  | install
  | uninstall
  | frontend (e : FrontendEvent)
  | signal (h : Handle) (s : Signal)
  | packet (h : Handle) (pkt : Option EncoderPacket) (time : Option EncoderPacketTime)
    (clock : Clock)

/-- The packet callback is registered on `h`. -/
def Plugin.probes (p : Plugin) (h : Handle) : Bool := p.packetCallbacks.any (·.handle = h)

/-- One event; what no callback is registered for is not delivered. -/
def step (p : Plugin) : Event → Plugin
  | .install => install p
  | .uninstall => uninstall p
  | .frontend e => if p.eventCallback then onFrontendEvent p e else p
  | .signal h s =>
    if (h, s.name) ∈ p.connections then { p with status := s.handler.run p.status } else p
  | .packet h pkt time clock =>
    if p.probes h then { p with probe := (onPacket p.probe pkt time clock).1 } else p

end ObsBeacon.ConnectionMonitor
