import ObsBeacon.Libobs

/-! The connection status and the critical sections of `mtx_` in which the monitor's
handlers write it. -/
namespace ObsBeacon.ConnectionMonitor

inductive ConnState where
  | idle | connecting | live | reconnecting | failed
  deriving DecidableEq, Repr

def obsOutputSuccess : ℤ := 0

/-- `ConnStatus`; the `int` counter is a natural number. -/
structure ConnStatus where
  state : ConnState := .idle
  stopCode : ℤ := obsOutputSuccess
  lastError : String := ""
  ingestUrl : String := ""
  reconnectCount : ℕ := 0
  deriving DecidableEq, Repr

/-- One section run under the lock. -/
inductive Section where
  | resetSession (url : String)
  | countReconnect
  | recordStop (code : ℤ) (lastError : String)
  | setState (next : ConnState)
  deriving DecidableEq, Repr

def Section.apply (status : ConnStatus) : Section → ConnStatus
  | .resetSession url =>
    { status with
      reconnectCount := 0
      stopCode := obsOutputSuccess
      lastError := ""
      ingestUrl := url }
  | .countReconnect => { status with reconnectCount := status.reconnectCount + 1 }
  | .recordStop code lastError => { status with stopCode := code, lastError := lastError }
  | .setState next => { status with state := next }

/-- The state a section leaves behind, when it writes the state at all. -/
def Section.next : Section → Option ConnState
  | .setState next => some next
  | _ => none

theorem apply_state (status : ConnStatus) (s : Section) :
    (s.apply status).state = s.next.getD status.state := by
  cases s <;> rfl

/-- The stop code and the error text that a section leaves behind, when it writes them. -/
def Section.fields : Section → Option (ℤ × String)
  | .resetSession _ => some (obsOutputSuccess, "")
  | .recordStop code lastError => some (code, lastError)
  | _ => none

def ConnStatus.stopFields (status : ConnStatus) : ℤ × String :=
  (status.stopCode, status.lastError)

theorem apply_stopFields (status : ConnStatus) (s : Section) :
    (s.apply status).stopFields = s.fields.getD status.stopFields := by
  cases s <;> rfl

/-- The calls that write the status: the STREAMING_STARTING case of `onFrontendEvent` and
the five signal handlers. `code` is the 64-bit integer of the signal's call data. -/
inductive Handler where
  | streamingStarting (service : Option Service)
  | onSigStarting
  | onSigStart
  | onSigReconnect
  | onSigReconnectSuccess
  | onSigStop (code : ℤ) (lastError : Option String)
  deriving DecidableEq, Repr

def queryIngestUrl : Option Service → String
  | none => ""
  | some svc => svc.serverUrl.getD ""

/-- `static_cast<int>` of a 64-bit value. -/
def castInt (code : ℤ) : ℤ := code.bmod 4294967296

/-- The sections a handler runs, in order; between them it holds no lock. -/
def Handler.sections : Handler → List Section
  | .streamingStarting service =>
    [.resetSession (queryIngestUrl service), .setState .connecting]
  | .onSigStarting => [.setState .connecting]
  | .onSigStart => [.setState .live]
  | .onSigReconnect => [.countReconnect, .setState .reconnecting]
  | .onSigReconnectSuccess => [.setState .live]
  | .onSigStop code lastError =>
    [.recordStop (castInt code) (lastError.getD ""),
      .setState (if castInt code = obsOutputSuccess then .idle else .failed)]

/-- A handler whose sections no other handler interrupts. -/
def Handler.run (status : ConnStatus) (h : Handler) : ConnStatus :=
  h.sections.foldl Section.apply status

end ObsBeacon.ConnectionMonitor
