import Mathlib.Algebra.Order.Field.Rat
import Mathlib.Logic.Function.Basic
import Mathlib.Tactic.NormNum
import ObsBeacon.ConnectionMonitor.Lifecycle

/-! The dock's refresh, once a second on the UI thread, among the activity of the monitor and
of the outputs: the byte counters restart with every connection, the dock keeps a baseline. -/
namespace ObsBeacon.DiagnosticsDock
open ConnectionMonitor PacketProbe

structure StateView where
  textKey : String
  color : String
  deriving DecidableEq, Repr

def stateView : ConnState → StateView
  | .idle => ⟨"State.Idle", "#888888"⟩
  | .connecting => ⟨"State.Connecting", "#e0a800"⟩
  | .live => ⟨"State.Live", "#28a745"⟩
  | .reconnecting => ⟨"State.Reconnecting", "#e0a800"⟩
  | .failed => ⟨"State.Failed", "#dc3545"⟩

def stopReasonLabel : ℤ → String
  | 0 => "normal stop"
  | -1 => "bad ingest URL"
  | -2 => "could not reach ingest"
  | -3 => "stream key/access rejected"
  | -4 => "output error"
  | -5 => "unexpected disconnect"
  | -6 => "unsupported settings"
  | -7 => "no disk space"
  | -8 => "encoding error"
  | -9 => "HDR disabled"
  | _ => "unknown reason"

/-- What libobs reports of the output apart from its byte count. -/
structure OutputStats where
  active : Bool
  reconnecting : Bool
  congestion : ℚ
  framesDropped : ℤ
  totalFrames : ℤ

structure ConnStats where
  valid : Bool := false
  active : Bool := false
  reconnecting : Bool := false
  congestion : ℚ := 0
  framesDropped : ℤ := 0
  totalFrames : ℤ := 0
  totalBytes : UInt64 := 0

def pollStats (output : Option Output) (stats : OutputStats) (totalBytes : Handle → UInt64) :
    ConnStats :=
  match output with
  | none => {}
  | some o =>
    { valid := true
      active := stats.active
      reconnecting := stats.reconnecting
      congestion := stats.congestion
      framesDropped := stats.framesDropped
      totalFrames := stats.totalFrames
      totalBytes := totalBytes o.handle }

/-- The widgets' contents and the refresh bookkeeping. A value label is `none` where it shows
the dash, else it holds what its text is printed from; doubles are exact. `reading` is the
status of a refresh that has yet to read the counters. -/
structure Dock where
  attached : Bool := true
  routeChecked : Bool := false
  routeEnabled : Bool := true
  state : Option StateView := none
  ingest : Option String := none
  reconnects : ℕ := 0
  errorVisible : Bool := false
  error : String := ""
  duration : Option ℕ := none
  bitrate : Option ℚ := none
  congestion : Option ℚ := none
  dropped : Option (ℤ × ℤ × ℚ) := none
  latency : Option ProbeStats := none
  sessionClock : ℕ := 0
  sessionActive : Bool := false
  prevBytes : UInt64 := 0
  haveBytesBaseline : Bool := false
  reading : Option ConnStatus := none

/-- `refresh` up to its copy of the status. `svcType` is the type of the streaming service. -/
def Dock.refresh (d : Dock) (svcType : Option String) (streaming : Bool) (st : ConnStatus) :
    Dock :=
  if d.attached then
    { d with
      routeChecked := svcType = some "beacon_service"
      routeEnabled := !streaming
      reading := some st }
  else d

def isLive (st : ConnStatus) : Bool := st.state = .live ∨ st.state = .reconnecting

def errorText (st : ConnStatus) : String :=
  "[" ++ toString st.stopCode ++ "] " ++ stopReasonLabel st.stopCode ++
    (if st.lastError = "" then "" else " — " ++ st.lastError)

/-- The labels that show the status. -/
def Dock.showStatus (d : Dock) (st : ConnStatus) : Dock :=
  { d with
    state := some (stateView st.state)
    ingest := if st.ingestUrl = "" then none else some st.ingestUrl
    reconnects := st.reconnectCount
    errorVisible := st.state = .failed
    error := if st.state = .failed then errorText st else d.error }

/-- Going live starts the session clock and drops the baseline; `now` is in milliseconds. -/
def Dock.trackSession (d : Dock) (live : Bool) (now : ℕ) : Dock :=
  if live && !d.sessionActive then
    { d with sessionActive := true, sessionClock := now, haveBytesBaseline := false }
  else if !live && d.sessionActive then { d with sessionActive := false }
  else d

/-- The labels fed by valid counters. -/
def Dock.showCounters (d : Dock) (s : ConnStats) : Dock :=
  { d with
    bitrate :=
      if d.haveBytesBaseline then some ((s.totalBytes - d.prevBytes).toNat * 8 / 1000) else none
    prevBytes := s.totalBytes
    haveBytesBaseline := true
    congestion := some (s.congestion * 100)
    dropped := some (s.framesDropped, s.totalFrames,
      if 0 < s.totalFrames then 100 * s.framesDropped / s.totalFrames else 0) }

/-- The rest of `refresh`. -/
def Dock.finish (d : Dock) (st : ConnStatus) (now : ℕ) (s : ConnStats) (lat : ProbeStats) : Dock :=
  let d := (d.showStatus st).trackSession (isLive st) now
  if isLive st then
    let d := { d with duration := some (now - d.sessionClock) }
    let d := if s.valid then d.showCounters s else d
    { d with latency := if lat.valid then some lat else none, reading := none }
  else
    { d with
      duration := none
      bitrate := none
      congestion := none
      dropped := none
      latency := none
      haveBytesBaseline := false
      reading := none }

/-- Where the number of a live refresh comes from: the output whose counter a refresh of the same
live stretch read, what it showed, and whether this was the previous refresh. -/
structure Baseline where
  output : Handle
  bytes : UInt64
  latest : Bool

/-- The monitor, the `total_bytes_sent` of each output, and the dock. The last fields are what the
bitrate is about: the counters at the previous refresh, the outputs connected since then, the
bytes sent since then on the current connection, those the output counts and those it does not,
and what the refreshes of the live stretch have read. -/
structure System where
  monitor : Plugin := {}
  totalBytes : Handle → UInt64 := fun _ => 0
  dock : Dock := {}
  seen : Handle → UInt64 := fun _ => 0
  connected : Handle → Bool := fun _ => false
  sent : Handle → ℕ := fun _ => 0
  uncounted : Handle → ℕ := fun _ => 0
  baseline : Option Baseline := none

/-- What happens to the monitor, on the output (its `init_connect`, given the service, and each
send) and in the dock, whose refresh reads the status and then the counters. `send_packet`,
`send_packet_ex` and `send_video_metadata` count what they send, `send_audio_packet_ex` and
`send_meta_data` do not. -/
inductive Event where
  | monitor (e : ConnectionMonitor.Event)
  | initConnect (h : Handle) (service : Option Service)
  | send (h : Handle) (size : UInt64)
  | sendUncounted (h : Handle) (size : UInt64)
  | refresh (svcType : Option String) (streaming : Bool)
  | poll (now : ℕ) (stats : OutputStats)
  | detach

/-- The event is one of the UI thread, which runs nothing else during a refresh. -/
def onUiThread : ConnectionMonitor.Event → Bool
  | .install | .uninstall | .frontend _ => true
  | .signal _ _ | .packet _ _ _ _ => false

/-- What the next refresh is compared with, after one that has read the status `st`. -/
def System.nextBaseline (s : System) (st : ConnStatus) : Option Baseline :=
  if isLive st then
    match s.monitor.output with
    | some o => some ⟨o.handle, s.totalBytes o.handle, true⟩
    | none => s.baseline.map fun b => { b with latest := false }
  else none

def System.step (s : System) : Event → System
  | .monitor e =>
    if s.dock.reading.isSome && onUiThread e then s
    else { s with monitor := ConnectionMonitor.step s.monitor e }
  | .initConnect _ none => s
  | .initConnect h (some _) =>
    { s with
      totalBytes := Function.update s.totalBytes h 0
      connected := Function.update s.connected h true
      sent := Function.update s.sent h 0
      uncounted := Function.update s.uncounted h 0 }
  | .send h size =>
    { s with
      totalBytes := Function.update s.totalBytes h (s.totalBytes h + size)
      sent := Function.update s.sent h (s.sent h + size.toNat) }
  | .sendUncounted h size =>
    { s with uncounted := Function.update s.uncounted h (s.uncounted h + size.toNat) }
  | .refresh svcType streaming =>
    if s.dock.reading.isSome then s
    else { s with dock := s.dock.refresh svcType streaming s.monitor.status }
  | .poll now stats =>
    match s.dock.reading with
    | none => s
    | some st =>
      { s with
        dock := s.dock.finish st now (pollStats s.monitor.output stats s.totalBytes)
          s.monitor.probe.latest
        seen := s.totalBytes
        connected := fun _ => false
        sent := fun _ => 0
        uncounted := fun _ => 0
        baseline := s.nextBaseline st }
  | .detach => if s.dock.reading.isSome then s else { s with dock.attached := false }

/-- The bytes that are not counted, where they are taken as sent too. -/
def System.extra (s : System) (all : Bool) (h : Handle) : ℕ := if all then s.uncounted h else 0

/-- The number a refresh writes to the bitrate label, as it shows on a cleared label. -/
def System.writtenRate (s : System) (now : ℕ) (stats : OutputStats) : Option ℚ :=
  (({ s with dock.bitrate := none } : System).step (.poll now stats)).dock.bitrate

/-- A number written to the label is 8/1000 times the bytes sent on the current connection
since the previous refresh, at most the counter's value, and no subtraction wraps. The bytes are
those the output counts or, with `all`, those it does not count too. -/
def RateOfConnection (all : Bool) (s : System) : Event → Prop
  | .poll now stats => ∀ kbps ∈ s.writtenRate now stats, ∃ o ∈ s.monitor.output, ∃ d : ℕ,
    kbps = (d : ℚ) * 8 / 1000 ∧ d = s.sent o.handle + s.extra all o.handle ∧
      d ≤ (s.totalBytes o.handle).toNat ∧ ¬ s.totalBytes o.handle < s.dock.prevBytes
  | _ => True

/-- The refresh reads the counter of `o` in a live session with a baseline. -/
def System.WritesNumber (s : System) (o : Output) : Prop :=
  (∃ st ∈ s.dock.reading, isLive st = true) ∧ s.monitor.output = some o ∧
    s.dock.sessionActive = true ∧ s.dock.haveBytesBaseline = true

/-- The counter of the current connection at the previous refresh: 0 if it began since. -/
def System.start (s : System) (h : Handle) : UInt64 := if s.connected h then 0 else s.seen h

/-- The connects and polls in front of a live refresh that follows one of the same stretch: if the
polled output has connected since the previous refresh, the counter read before showed 0; if it
has not, the previous refresh polled this output too (or the counters happen to agree). Every
byte sent since is counted, and the counter has not passed 64 bits. -/
def BaselineOfConnection (all : Bool) (s : System) : Event → Prop
  | .poll _ _ => ∀ st ∈ s.dock.reading, isLive st = true →
    ∀ o ∈ s.monitor.output, ∀ b ∈ s.baseline,
      (s.connected o.handle = true → b.bytes = 0 ∧ s.extra all o.handle = 0) ∧
      (s.connected o.handle = false →
        (b.output = o.handle ∧ b.latest = true ∧ s.extra all o.handle = 0) ∨
          b.bytes.toNat + s.extra all o.handle = (s.seen o.handle).toNat) ∧
      (s.start o.handle).toNat + s.sent o.handle < 18446744073709551616
  | _ => True

/-- The invariant: each counter is its value at the start plus what was sent since, and the dock
holds what the refreshes of the live stretch have read. -/
structure Counted (s : System) : Prop where
  counter : ∀ h, s.totalBytes h = s.start h + UInt64.ofNat (s.sent h)
  holds : (s.dock.sessionActive && s.dock.haveBytesBaseline) = s.baseline.isSome
  bytes : ∀ b ∈ s.baseline, s.dock.prevBytes = b.bytes
  latest : ∀ b ∈ s.baseline, b.latest = true → b.bytes = s.seen b.output

/-- A wrapping counter read against a baseline shows `n + extra` exactly if the start is that much
above the baseline and the counter has not passed 64 bits. -/
theorem growth_iff (start prev : UInt64) (n extra : ℕ) :
    (start + UInt64.ofNat n - prev).toNat = n + extra ∧ ¬ start + UInt64.ofNat n < prev ↔
      prev.toNat + extra = start.toNat ∧ start.toNat + n < 18446744073709551616 := by
  have hstart := start.toNat_lt
  have hprev := prev.toNat_lt
  have htotal : (start + UInt64.ofNat n).toNat = (start.toNat + n) % 18446744073709551616 := by
    rw [UInt64.toNat_add, UInt64.toNat_ofNat']
    omega
  rw [UInt64.lt_iff_toNat_lt, not_lt]
  constructor
  · rintro ⟨hgrowth, hle⟩
    rw [UInt64.toNat_sub_of_le _ _ (UInt64.le_iff_toNat_le.mpr hle), htotal] at hgrowth
    rw [htotal] at hle
    omega
  · rintro ⟨hbase, hfits⟩
    have hle : prev.toNat ≤ (start + UInt64.ofNat n).toNat := by omega
    rw [UInt64.toNat_sub_of_le _ _ (UInt64.le_iff_toNat_le.mpr hle)]
    omega

/-- What the counters and the baseline are in `s`, they are in `r`. -/
structure SameCounters (s r : System) : Prop where
  totalBytes : r.totalBytes = s.totalBytes
  start : r.start = s.start
  sent : r.sent = s.sent
  seen : r.seen = s.seen
  prevBytes : r.dock.prevBytes = s.dock.prevBytes
  baseline : r.baseline = s.baseline
  holds : (r.dock.sessionActive && r.dock.haveBytesBaseline) =
    (s.dock.sessionActive && s.dock.haveBytesBaseline)

theorem sameCounters_monitor (s : System) (e : ConnectionMonitor.Event) :
    SameCounters s (s.step (.monitor e)) := by
  simp only [System.step]
  split_ifs <;> exact ⟨rfl, rfl, rfl, rfl, rfl, rfl, rfl⟩

theorem sameCounters_refresh (s : System) (svcType : Option String) (streaming : Bool) :
    SameCounters s (s.step (.refresh svcType streaming)) := by
  simp only [System.step, Dock.refresh]
  split_ifs <;> exact ⟨rfl, rfl, rfl, rfl, rfl, rfl, rfl⟩

theorem sameCounters_detach (s : System) : SameCounters s (s.step .detach) := by
  simp only [System.step]
  split_ifs <;> exact ⟨rfl, rfl, rfl, rfl, rfl, rfl, rfl⟩

theorem Counted.congr {s r : System} (hc : Counted s) (h : SameCounters s r) : Counted r := by
  refine ⟨fun g => ?_, ?_, ?_, ?_⟩
  · rw [h.totalBytes, h.start, h.sent]
    exact hc.counter g
  · rw [h.holds, h.baseline]
    exact hc.holds
  · rw [h.baseline, h.prevBytes]
    exact hc.bytes
  · rw [h.baseline, h.seen]
    exact hc.latest

theorem Counted.initial : Counted {} := by
  refine ⟨fun _ => rfl, rfl, ?_, ?_⟩ <;> simp

theorem trackSession_bitrate (d : Dock) (live : Bool) (now : ℕ) :
    (d.trackSession live now).bitrate = d.bitrate := by
  unfold Dock.trackSession
  split_ifs <;> rfl

theorem trackSession_prevBytes (d : Dock) (live : Bool) (now : ℕ) :
    (d.trackSession live now).prevBytes = d.prevBytes := by
  unfold Dock.trackSession
  split_ifs <;> rfl

/-- In a live refresh only the baseline of a running session survives. -/
theorem trackSession_haveBytesBaseline (d : Dock) (now : ℕ) :
    (d.trackSession true now).haveBytesBaseline = (d.sessionActive && d.haveBytesBaseline) := by
  cases hactive : d.sessionActive <;> simp [Dock.trackSession, hactive]

theorem finish_bitrate (d : Dock) (st : ConnStatus) (now : ℕ) (s : ConnStats) (lat : ProbeStats) :
    (d.finish st now s lat).bitrate =
      if isLive st then
        if s.valid then
          if d.sessionActive && d.haveBytesBaseline then
            some (((s.totalBytes - d.prevBytes).toNat : ℚ) * 8 / 1000)
          else none
        else d.bitrate
      else none := by
  cases hlive : isLive st with
  | false => simp [Dock.finish, hlive]
  | true =>
    have hbase := trackSession_haveBytesBaseline (d.showStatus st) now
    have hprev := trackSession_prevBytes (d.showStatus st) true now
    have hlabel : ((d.showStatus st).trackSession true now).bitrate = d.bitrate :=
      trackSession_bitrate (d.showStatus st) true now
    cases hvalid : s.valid with
    | false => simpa [Dock.finish, hlive, hvalid] using hlabel
    | true =>
      simp only [Dock.finish, hlive, hvalid, if_true, Dock.showCounters, hbase, hprev]
      rfl

theorem writtenRate_of_writesNumber {s : System} {o : Output} (h : s.WritesNumber o) (now : ℕ)
    (stats : OutputStats) :
    s.writtenRate now stats =
      some (((s.totalBytes o.handle - s.dock.prevBytes).toNat : ℚ) * 8 / 1000) := by
  obtain ⟨⟨st, hreading, hlive⟩, hout, hactive, hbase⟩ := h
  rw [Option.mem_def] at hreading
  simp only [System.writtenRate, System.step, hreading, finish_bitrate, hlive, pollStats, hout,
    hactive, hbase, Bool.and_self, if_true]

/-- Every other refresh shows the dash or leaves the label alone. -/
theorem writtenRate_of_not_writesNumber {s : System} (h : ∀ o, ¬ s.WritesNumber o) (now : ℕ)
    (stats : OutputStats) : s.writtenRate now stats = none := by
  cases hreading : s.dock.reading with
  | none => simp only [System.writtenRate, System.step, hreading]
  | some st =>
    simp only [System.writtenRate, System.step, hreading, finish_bitrate]
    split_ifs with hlive hvalid hbase
    · cases hout : s.monitor.output with
      | none => simp [pollStats, hout] at hvalid
      | some o =>
        rw [Bool.and_eq_true] at hbase
        exact absurd ⟨⟨st, hreading, hlive⟩, hout, hbase⟩ (h o)
    · rfl
    · rfl
    · rfl

theorem finish_prevBytes (d : Dock) (st : ConnStatus) (now : ℕ) (s : ConnStats)
    (lat : ProbeStats) :
    (d.finish st now s lat).prevBytes =
      if isLive st && s.valid then s.totalBytes else d.prevBytes := by
  have hprev := trackSession_prevBytes (d.showStatus st) (isLive st) now
  cases hlive : isLive st <;> cases hvalid : s.valid <;> rw [hlive] at hprev <;>
    simp only [Dock.finish, hlive, hvalid, Dock.showCounters, Bool.and_self, Bool.and_false,
      Bool.and_true, if_true, Bool.false_eq_true, if_false, hprev] <;> rfl

/-- After a live refresh the session is active, and there is a baseline if a counter was read or
there was one; after any other there is none. -/
theorem finish_holds (d : Dock) (st : ConnStatus) (now : ℕ) (s : ConnStats) (lat : ProbeStats) :
    ((d.finish st now s lat).sessionActive && (d.finish st now s lat).haveBytesBaseline) =
      (isLive st && (s.valid || d.sessionActive && d.haveBytesBaseline)) := by
  cases hlive : isLive st with
  | false => simp [Dock.finish, hlive]
  | true =>
    have hbase := trackSession_haveBytesBaseline (d.showStatus st) now
    have hactive : ((d.showStatus st).trackSession true now).sessionActive = true := by
      cases hcase : d.sessionActive <;> simp [Dock.trackSession, Dock.showStatus, hcase]
    cases hvalid : s.valid with
    | false =>
      simp only [Dock.finish, hlive, hvalid, if_true, Bool.false_eq_true, if_false, hactive, hbase]
      rfl
    | true => simp [Dock.finish, hlive, hvalid, Dock.showCounters, hactive]

theorem Counted.poll {s : System} (hc : Counted s) {st : ConnStatus}
    (hreading : s.dock.reading = some st) (now : ℕ) (stats : OutputStats) :
    Counted (s.step (.poll now stats)) := by
  simp only [System.step, hreading]
  refine ⟨fun g => by simp [System.start], ?_, fun b hb => ?_, fun b hb hlatest => ?_⟩
  · rw [finish_holds, hc.holds, System.nextBaseline]
    cases hlive : isLive st <;> cases hout : s.monitor.output <;> simp [pollStats]
  · rw [finish_prevBytes]
    unfold System.nextBaseline at hb
    split_ifs at hb with hlive
    · cases hout : s.monitor.output with
      | none =>
        simp only [hout, Option.mem_def, Option.map_eq_some_iff] at hb
        obtain ⟨b', hb', rfl⟩ := hb
        simpa [pollStats, hlive] using hc.bytes b' hb'
      | some o =>
        simp only [hout, Option.mem_def, Option.some.injEq] at hb
        simp [pollStats, hlive, ← hb]
    · exact absurd hb (Option.not_mem_none b)
  · unfold System.nextBaseline at hb
    split_ifs at hb with hlive
    · cases hout : s.monitor.output with
      | none =>
        simp only [hout, Option.mem_def, Option.map_eq_some_iff] at hb
        obtain ⟨b', -, rfl⟩ := hb
        exact Bool.noConfusion hlatest
      | some o =>
        simp only [hout, Option.mem_def, Option.some.injEq] at hb
        simp [← hb]
    · exact absurd hb (Option.not_mem_none b)

theorem Counted.step {s : System} (hc : Counted s) (e : Event) : Counted (s.step e) := by
  cases e with
  | monitor e => exact hc.congr (sameCounters_monitor s e)
  | initConnect h service =>
    cases service with
    | none => exact hc
    | some svc =>
      refine ⟨fun g => ?_, hc.holds, hc.bytes, hc.latest⟩
      by_cases hg : g = h
      · subst hg
        simp [System.step, System.start]
      · have hother := hc.counter g
        simpa [System.step, System.start, Function.update_of_ne hg] using hother
  | send h size =>
    refine ⟨fun g => ?_, hc.holds, hc.bytes, hc.latest⟩
    change Function.update s.totalBytes h (s.totalBytes h + size) g =
      s.start g + UInt64.ofNat (Function.update s.sent h (s.sent h + size.toNat) g)
    by_cases hg : g = h
    · subst hg
      rw [Function.update_self, Function.update_self, hc.counter g, UInt64.ofNat_add,
        UInt64.ofNat_toNat, UInt64.add_assoc]
    · rw [Function.update_of_ne hg, Function.update_of_ne hg]
      exact hc.counter g
  | sendUncounted h size => exact ⟨hc.counter, hc.holds, hc.bytes, hc.latest⟩
  | refresh svcType streaming => exact hc.congr (sameCounters_refresh s svcType streaming)
  | poll now stats =>
    cases hreading : s.dock.reading with
    | none => simpa only [System.step, hreading] using hc
    | some st => exact hc.poll hreading now stats
  | detach => exact hc.congr (sameCounters_detach s)

/-- The counter read before lies as much below the start as bytes went uncounted, by cases on
whether the polled output has connected since. -/
theorem Counted.baseline_iff {s : System} (hc : Counted s) {b : Baseline} (hb : b ∈ s.baseline)
    (all : Bool) (h : Handle) :
    b.bytes.toNat + s.extra all h = (s.start h).toNat ↔
      (s.connected h = true → b.bytes = 0 ∧ s.extra all h = 0) ∧
      (s.connected h = false → (b.output = h ∧ b.latest = true ∧ s.extra all h = 0) ∨
        b.bytes.toNat + s.extra all h = (s.seen h).toNat) := by
  cases hconn : s.connected h with
  | true =>
    simp only [System.start, hconn, if_true, true_implies, Bool.true_eq_false, false_implies,
      and_true, ← UInt64.toNat_inj, UInt64.toNat_zero]
    omega
  | false =>
    simp only [System.start, hconn, Bool.false_eq_true, if_false, false_implies, true_implies,
      true_and]
    refine ⟨.inr, fun hcases => ?_⟩
    obtain ⟨rfl, hlatest, hnone⟩ | heq := hcases
    · rw [hc.latest b hb hlatest, hnone, Nat.add_zero]
    · exact heq

theorem rateOfConnection_step {s : System} (hc : Counted s) (all : Bool) (e : Event) :
    RateOfConnection all s e ↔ BaselineOfConnection all s e := by
  cases e with
  | poll now stats =>
    constructor
    · intro hrate st hst hlive o hout b hb
      have hholds : (s.dock.sessionActive && s.dock.haveBytesBaseline) = true := by
        rw [hc.holds, Option.mem_def.mp hb]
        rfl
      have hwrites : s.WritesNumber o :=
        ⟨⟨st, hst, hlive⟩, hout, Bool.and_eq_true_iff.mp hholds⟩
      obtain ⟨o', hout', d, hkbps, rfl, -, hnowrap⟩ :=
        hrate _ (writtenRate_of_writesNumber hwrites now stats)
      obtain rfl : o' = o := Option.some.inj (hout'.symm.trans hout)
      have hgrowth : (s.totalBytes o'.handle - s.dock.prevBytes).toNat =
          s.sent o'.handle + s.extra all o'.handle := by
        rw [div_left_inj' (by norm_num), mul_left_inj' (by norm_num)] at hkbps
        exact_mod_cast hkbps
      rw [hc.counter, hc.bytes b hb] at hgrowth hnowrap
      obtain ⟨hbase, hfits⟩ := (growth_iff _ _ _ _).mp ⟨hgrowth, hnowrap⟩
      have hcases := (hc.baseline_iff hb all o'.handle).mp hbase
      exact ⟨hcases.1, hcases.2, hfits⟩
    · intro hbase kbps hkbps
      by_cases hwrites : ∃ o, s.WritesNumber o
      · obtain ⟨o, ho⟩ := hwrites
        obtain ⟨⟨st, hst, hlive⟩, hout, hactive, hhave⟩ := id ho
        have hsome : s.baseline.isSome = true := by rw [← hc.holds, hactive, hhave]; rfl
        obtain ⟨b, hb⟩ := Option.isSome_iff_exists.mp hsome
        obtain ⟨hconn, hsame, hfits⟩ := hbase st hst hlive o hout b hb
        have hstart := (hc.baseline_iff hb all o.handle).mpr ⟨hconn, hsame⟩
        obtain ⟨hsent, hnowrap⟩ := (growth_iff _ _ _ _).mpr ⟨hstart, hfits⟩
        rw [← hc.counter, ← hc.bytes b hb] at hsent hnowrap
        rw [writtenRate_of_writesNumber ho, Option.mem_some] at hkbps
        refine ⟨o, hout, s.sent o.handle + s.extra all o.handle, ?_, rfl, ?_, hnowrap⟩
        · rw [← hkbps, hsent]
        · rw [← hsent, UInt64.toNat_sub_of_le _ _ (UInt64.not_lt.mp hnowrap)]
          exact Nat.sub_le _ _
      · rw [writtenRate_of_not_writesNumber (not_exists.mp hwrites)] at hkbps
        cases hkbps
  | _ => rfl

/-- In a run of the plugin from its start, the bitrate is that of the current connection exactly
where the connects and polls leave the baseline with it. -/
theorem bitrate_iff (all : Bool) (es : List Event) :
    Runs.EveryStep System.step (RateOfConnection all) {} es ↔
      Runs.EveryStep System.step (BaselineOfConnection all) {} es :=
  Runs.everyStep_congr (fun _ e hc => Counted.step hc e)
    (fun _ e hc => rateOfConnection_step hc all e) Counted.initial

def idleStats : OutputStats := ⟨true, false, 0, 0, 0⟩

/-- A session whose output sends 100 bytes, reconnects and sends 10 more, with a refresh after
the connect, one after the 100 bytes, and one that has yet to read the counters. -/
def reconnectedRun : List Event :=
  [.monitor .install,
    .monitor (.frontend (.streamingStarting (some ⟨0, "beacon_rtmp_output", [some "h264"]⟩) none)),
    .initConnect 0 (some ⟨none⟩), .monitor (.signal 0 .start),
    .refresh none true, .poll 0 idleStats,
    .send 0 100, .refresh none true, .poll 1000 idleStats,
    .monitor (.signal 0 .reconnect), .initConnect 0 (some ⟨none⟩),
    .monitor (.signal 0 .reconnectSuccess), .send 0 10, .refresh none true]

theorem reconnect_wraps :
    ¬ Runs.EveryStep System.step (RateOfConnection false) {}
      (reconnectedRun ++ [.poll 2000 idleStats]) := by
  intro h
  have hout : (reconnectedRun.foldl System.step {}).monitor.output =
      some ⟨0, "beacon_rtmp_output", [some "h264"]⟩ := by decide
  have hwrites : (reconnectedRun.foldl System.step {}).WritesNumber
      ⟨0, "beacon_rtmp_output", [some "h264"]⟩ :=
    ⟨⟨_, rfl, rfl⟩, hout, rfl, rfl⟩
  have hwritten := writtenRate_of_writesNumber hwrites 2000 idleStats
  obtain ⟨o, ho, d, -, -, -, hnowrap⟩ :=
    h reconnectedRun (.poll 2000 idleStats) List.prefix_rfl _ hwritten
  obtain rfl := Option.some.inj (hout.symm.trans ho)
  exact hnowrap (by decide)

end ObsBeacon.DiagnosticsDock
