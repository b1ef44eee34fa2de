import Mathlib.Data.Int.Notation
import Mathlib.Data.List.Infix
import ObsBeacon.Lib.BoundedLog
import ObsBeacon.Lib.Decimal

/-! The capture of log lines: formatting a call, and the ring buffer with its counters. -/
namespace ObsBeacon.Log
open Decimal BoundedLog

def logWarning : ℤ := 200

structure LogEntry where
  level : ℤ
  timestamp : List UInt8
  text : List UInt8
  connection : Bool
  deriving DecidableEq, Repr

/-- The arguments of `onLog`: a null message is `none`. `formatted` is the text the message
and its arguments yield, `none` for a formatting error; `timestamp` is `now_timestamp()`. -/
structure LogCall where
  level : ℤ
  msg : Option (List UInt8)
  formatted : Option (List UInt8)
  timestamp : List UInt8

def kNeedles : List (List UInt8) :=
  ["rtmp", "srt", "connect", "socket", "reconnect", "writen", "output '", "connecting to"].map ascii

/-- `lower.find(needle) != npos` for some needle. -/
def matchesConnection (lower : List UInt8) : Bool := kNeedles.any fun needle => needle <:+: lower

def isNewline (b : UInt8) : Bool := b == 10 || b == 13

def rstripNewlines (s : List UInt8) : List UInt8 := s.rdropWhile isNewline

/-- `std::tolower` in the C locale. -/
def toLower (b : UInt8) : UInt8 := if 65 ≤ b ∧ b ≤ 90 then b + 32 else b

/-- `vsnprintf` into `size > 0` bytes: the bytes written, and the length of the whole text. -/
def vsnprintf (size : ℕ) (formatted : Option (List UInt8)) : Option (List UInt8 × ℕ) :=
  formatted.map fun text => (text.take (size - 1) ++ [0], text.length)

/-- The text of a line: from the stack buffer, or formatted again if it was too small. -/
def formatMessage (msg : List UInt8) (formatted : Option (List UInt8)) : List UInt8 :=
  match vsnprintf 1024 formatted with
  | none => msg
  | some (stackBuf, n) =>
    if n < 1024 then stackBuf.take n
    else
      match vsnprintf (n + 1) formatted with
      | none => List.replicate n 0
      | some (data, _) => data.take n

/-- The entry `onLog` builds before it takes the lock. -/
def entryOf (call : LogCall) (msg : List UInt8) : LogEntry :=
  let text := rstripNewlines (formatMessage msg call.formatted)
  { level := call.level
    timestamp := call.timestamp
    text := text
    connection := call.level ≤ logWarning || matchesConnection (text.map toLower) }

def logEntry (call : LogCall) : Option LogEntry := call.msg.map (entryOf call)

def kMaxEntries : ℕ := 2000

/-- The members of `LogCapture` that its lock guards. The generation is an `uint64_t`; more than
2^64 lines are out of scope. -/
structure LogCapture where
  buffer : List LogEntry := []
  generation : ℕ := 0
  connectionCount : ℕ := 0
  deriving DecidableEq, Repr

/-- The eviction of the oldest entry, at the end of the locked part of `onLog`. -/
def evict (s : LogCapture) : LogCapture :=
  match s.buffer with
  | [] => s
  | front :: rest =>
    { s with
      buffer := rest
      connectionCount :=
        if front.connection ∧ 0 < s.connectionCount then s.connectionCount - 1
        else s.connectionCount }

/-- The locked part of `onLog`. -/
def append (s : LogCapture) (entry : LogEntry) : LogCapture :=
  let s : LogCapture :=
    { buffer := s.buffer ++ [entry]
      generation := s.generation + 1
      connectionCount := if entry.connection then s.connectionCount + 1 else s.connectionCount }
  if kMaxEntries < s.buffer.length then evict s else s

def onLog (s : LogCapture) (call : LogCall) : LogCapture :=
  match logEntry call with
  | none => s
  | some entry => append s entry

def clear (s : LogCapture) : LogCapture := { s with buffer := [], connectionCount := 0 }

def snapshot (s : LogCapture) (onlyConnection : Bool) : List LogEntry :=
  s.buffer.filter fun e => !onlyConnection || e.connection

def size (s : LogCapture) : ℕ := s.buffer.length

/-- The calls that write, in the order in which they take the lock. -/
inductive Event where
  | log (call : LogCall)
  | clear

def step (s : LogCapture) : Event → LogCapture
  | .log call => onLog s call
  | .clear => clear s

/-- What a call means for the unbounded log. -/
def Event.op : Event → Option (Op LogEntry)
  | .log call => (logEntry call).map .append
  | .clear => some .clear

/-- The unbounded log after a run. -/
def unbounded (es : List Event) : FullLog LogEntry := (es.filterMap Event.op).foldl FullLog.step {}

abbrev RefinesLog (s : LogCapture) (log : FullLog LogEntry) : Prop :=
  Refines kMaxEntries LogEntry.connection s.buffer s.connectionCount s.generation log

theorem evict_buffer (s : LogCapture) : (evict s).buffer = s.buffer.tail := by
  unfold evict
  split <;> simp [*]

theorem evict_generation (s : LogCapture) : (evict s).generation = s.generation := by
  unfold evict
  split <;> rfl

theorem append_buffer (s : LogCapture) (entry : LogEntry) :
    (append s entry).buffer = push kMaxEntries s.buffer entry := by
  rw [append, push, apply_ite LogCapture.buffer, evict_buffer]

theorem append_generation (s : LogCapture) (entry : LogEntry) :
    (append s entry).generation = s.generation + 1 := by
  rw [append, apply_ite LogCapture.generation, evict_generation, ite_self]

theorem append_connectionCount (s : LogCapture) (entry : LogEntry) :
    (append s entry).connectionCount =
      pushCount kMaxEntries LogEntry.connection s.buffer s.connectionCount entry := by
  simp only [append, evict, pushCount]
  cases hb : s.buffer ++ [entry] with
  | nil => simp
  | cons front rest =>
    by_cases hlen : kMaxEntries < rest.length + 1
    · simp [hlen]
    · simp [hlen]

theorem refinesLog_append {s : LogCapture} {log : FullLog LogEntry} (h : RefinesLog s log)
    (entry : LogEntry) : RefinesLog (append s entry) (log.step (.append entry)) := by
  rw [RefinesLog, append_buffer, append_connectionCount, append_generation]
  exact Refines.append h entry

/-- The ring follows the unbounded log through a whole run. -/
theorem refinesLog_run (es : List Event) : RefinesLog (es.foldl step {}) (unbounded es) := by
  induction es using List.reverseRecOn with
  | nil => exact Refines.initial
  | append_singleton es e ih =>
    rw [unbounded, List.filterMap_append, List.foldl_append, List.foldl_append]
    cases e with
    | clear => exact Refines.clear ih
    | log call =>
      simp only [List.foldl_cons, List.foldl_nil, step, onLog]
      cases hentry : logEntry call with
      | none => simpa [Event.op, hentry, unbounded] using ih
      | some entry => simpa [Event.op, hentry, unbounded] using refinesLog_append ih entry

/-- The buffer sufficed or it did not: the text is the formatted message. -/
theorem formatMessage_eq (msg : List UInt8) (formatted : Option (List UInt8)) :
    formatMessage msg formatted = formatted.getD msg := by
  cases formatted with
  | none => rfl
  | some text =>
    simp only [formatMessage, vsnprintf, Option.map_some, Option.getD_some]
    split_ifs with h
    · rw [List.take_of_length_le (show text.length ≤ 1024 - 1 by omega), List.take_left]
    · rw [Nat.add_sub_cancel, List.take_length, List.take_left]

/-- `s` without its maximal trailing run of CR and LF. -/
theorem rstripNewlines_spec (s : List UInt8) :
    ∃ run, s = rstripNewlines s ++ run ∧ (∀ b ∈ run, isNewline b) ∧
      ∀ b ∈ (rstripNewlines s).getLast?, ¬ isNewline b := by
  refine ⟨s.rtakeWhile isNewline, ?_, fun b hb => List.mem_rtakeWhile_imp hb, ?_⟩
  · exact List.rdropWhile_append_rtakeWhile.symm
  · intro b hb
    obtain ⟨hne, rfl⟩ := List.mem_getLast?_eq_getLast hb
    exact List.rdropWhile_last_not isNewline s hne

theorem infix_map_iff {α β : Type*} (f : α → β) (w : List β) (l : List α) :
    w <:+: l.map f ↔ ∃ v, v <:+: l ∧ v.map f = w := by
  constructor
  · rintro ⟨pre, post, h⟩
    obtain ⟨l', v', rfl, h', rfl⟩ := List.map_eq_append_iff.mp h.symm
    obtain ⟨p, v, rfl, rfl, rfl⟩ := List.map_eq_append_iff.mp h'
    exact ⟨v, ⟨p, v', rfl⟩, rfl⟩
  · rintro ⟨v, hv, rfl⟩
    exact hv.map f

theorem matchesConnection_iff (text : List UInt8) :
    matchesConnection (text.map toLower) = true ↔
      ∃ needle ∈ kNeedles, ∃ v, v <:+: text ∧ v.map toLower = needle := by
  simp only [matchesConnection, List.any_eq_true, decide_eq_true_eq, infix_map_iff]

/-- What the entry of a call with message `msg` says. -/
structure Describes (call : LogCall) (msg : List UInt8) (e : LogEntry) : Prop where
  level : e.level = call.level
  timestamp : e.timestamp = call.timestamp
  text : ∃ run, call.formatted.getD msg = e.text ++ run ∧ (∀ b ∈ run, isNewline b) ∧
    ∀ b ∈ e.text.getLast?, ¬ isNewline b
  connection : e.connection = true ↔ call.level ≤ logWarning ∨
    ∃ needle ∈ kNeedles, ∃ v, v <:+: e.text ∧ v.map toLower = needle

theorem entryOf_describes (call : LogCall) (msg : List UInt8) :
    Describes call msg (entryOf call msg) := by
  refine ⟨rfl, rfl, ?_, ?_⟩
  · rw [entryOf, formatMessage_eq]
    exact rstripNewlines_spec _
  · rw [entryOf, Bool.or_eq_true, decide_eq_true_eq, matchesConnection_iff]

theorem length_snapshot (s : LogCapture) :
    (snapshot s true).length = s.buffer.countP LogEntry.connection := by
  simp [snapshot, List.countP_eq_length_filter]

/-- In every run the ring holds the last entries of the unbounded log, its counters count what
they say, and every message leaves the entry it describes. -/
theorem logCapture_refines_log (es : List Event) :
    let s := es.foldl step {}
    let log := unbounded es
    (s.buffer = log.entries.rtake 2000 ∧ size s = min 2000 log.entries.length) ∧
      s.connectionCount = s.buffer.countP LogEntry.connection ∧
      snapshot s true = (snapshot s false).filter LogEntry.connection ∧
      snapshot s false = s.buffer ∧ (snapshot s true).length = s.connectionCount ∧
      s.generation = log.total ∧ (clear s).generation = s.generation ∧
      (∀ call : LogCall, logEntry { call with msg := none } = none) ∧
      ∀ (call : LogCall) msg, ∃ e, logEntry { call with msg := some msg } = some e ∧
        Describes { call with msg := some msg } msg e := by
  intro s log
  have h : RefinesLog s log := refinesLog_run es
  refine ⟨⟨h.window_eq, ?_⟩, h.count_eq, ?_, ?_, ?_, h.generation_eq, rfl, fun _ => rfl,
    fun call msg => ⟨_, rfl, entryOf_describes _ msg⟩⟩
  · rw [size, h.window_eq, length_rtake, kMaxEntries]
  · simp [snapshot]
  · simp [snapshot]
  · rw [length_snapshot, ← h.count_eq]

end ObsBeacon.Log
