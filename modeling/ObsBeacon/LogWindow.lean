import ObsBeacon.Lib.Runs
import ObsBeacon.LogCapture

/-! The log window: its operations on the UI thread, cut at every call into the capture and
at every update of the view, with lines logged by other threads in between. -/
namespace ObsBeacon.LogWindow
open Log

/-- UTF-16 code units. -/
abbrev QString := List UInt16

/-- What Qt does with text: `QString::fromStdString`, and the blocks a document holds after
`setPlainText`. -/
structure Qt (Block : Type) where
  fromStdString : List UInt8 → QString
  toBlocks : QString → List Block

/-- Where the UI thread stands. `force` is the argument of `refreshLogs`, false for the timer;
`gen` and `entries` are its local variables. -/
inductive Ui where
  | idle
  | readGeneration (force : Bool)
  | readSnapshot (force : Bool) (gen : ℕ)
  | showText (force : Bool) (gen : ℕ) (entries : List LogEntry)
  | clearView
  | rememberGeneration

/-- The log window and what it shows of the log; like that of the log its generation is a number
without bound. -/
structure Window (Block : Type) where
  capture : LogCapture := {}
  view : List Block
  lastLogGeneration : ℕ := 0
  onlyConnection : Bool := true
  visible : Bool := false
  ui : Ui := .idle

inductive Operation where
  | showEvent
  | hideEvent
  | refresh
  | onFilterToggled (onlyConnection : Bool)
  | onClear

inductive Event where
  | log (call : LogCall)
  | start (op : Operation)
  | exec

variable {Block : Type} (qt : Qt Block)

/-- The text `refreshLogs` builds. -/
def render (entries : List LogEntry) : QString :=
  entries.flatMap fun e =>
    qt.fromStdString e.timestamp ++ [0x20, 0x20] ++ qt.fromStdString e.text ++ [0x0a]

def maximumBlockCount : ℕ := kMaxEntries + 16

/-- A document with a maximum block count drops its first blocks. -/
def setPlainText (text : QString) : List Block := (qt.toBlocks text).rtake maximumBlockCount

/-- An operation up to its first call into the capture, or past `clear()`. The timer runs
while the window is visible. -/
def start (w : Window Block) : Operation → Window Block
  | .showEvent => { w with visible := true, ui := .readGeneration true }
  | .hideEvent => { w with visible := false }
  | .refresh => if w.visible then { w with ui := .readGeneration false } else w
  | .onFilterToggled onlyConnection =>
    { w with onlyConnection := onlyConnection, ui := .readGeneration true }
  | .onClear => { w with capture := clear w.capture, ui := .clearView }

/-- The next step of the operation in progress. -/
def exec (w : Window Block) : Window Block :=
  match w.ui with
  | .idle => w
  | .readGeneration force =>
    let gen := w.capture.generation
    if !force ∧ gen = w.lastLogGeneration then { w with ui := .idle }
    else { w with lastLogGeneration := gen, ui := .readSnapshot force gen }
  | .readSnapshot force gen =>
    { w with ui := .showText force gen (snapshot w.capture w.onlyConnection) }
  | .showText _ _ entries => { w with view := setPlainText qt (render qt entries), ui := .idle }
  | .clearView => { w with view := qt.toBlocks [], ui := .rememberGeneration }
  | .rememberGeneration => { w with lastLogGeneration := w.capture.generation, ui := .idle }

def step (w : Window Block) : Event → Window Block
  | .log call => { w with capture := onLog w.capture call }
  | .start op =>
    match w.ui with
    | .idle => start w op
    | _ => w
  | .exec => exec qt w

/-- The view is the rendering of what the capture now holds. -/
def ShowsSnapshot (w : Window Block) : Prop :=
  w.view = qt.toBlocks (render qt (snapshot w.capture w.onlyConnection))

/-- In this step a timer refresh returns, with nothing appended since it read the generation. -/
def refreshReturns (w : Window Block) : Event → Prop
  | .exec =>
    match w.ui with
    | .readGeneration false => w.capture.generation = w.lastLogGeneration
    | .showText false gen _ => w.capture.generation = gen
    | _ => False
  | _ => False

/-- No matching line slipped in before `onClear` reads the generation, and a text that is set
fits the maximum block count. -/
def StepOk (w : Window Block) : Event → Prop
  | .exec =>
    match w.ui with
    | .rememberGeneration => snapshot w.capture w.onlyConnection = []
    | .showText _ _ entries => (qt.toBlocks (render qt entries)).length ≤ maximumBlockCount
    | _ => True
  | _ => True

/-- What the remembered generation stands for, by the progress of the UI thread. -/
def UpToDate (w : Window Block) : Prop :=
  match w.ui with
  | .idle | .readGeneration false =>
    w.capture.generation = w.lastLogGeneration → ShowsSnapshot qt w
  | .readGeneration true | .clearView => True
  | .readSnapshot _ gen => gen = w.lastLogGeneration
  | .showText _ gen entries =>
    gen = w.lastLogGeneration ∧
      (w.capture.generation = gen → entries = snapshot w.capture w.onlyConnection)
  | .rememberGeneration => w.view = qt.toBlocks []

structure Invariant (w : Window Block) : Prop where
  remembered : w.lastLogGeneration ≤ w.capture.generation
  upToDate : UpToDate qt w

theorem Invariant.initial : Invariant qt { view := qt.toBlocks [] } := by
  refine ⟨le_rfl, ?_⟩
  intro
  rfl

theorem setPlainText_of_le {text : QString} (h : (qt.toBlocks text).length ≤ maximumBlockCount) :
    setPlainText qt text = qt.toBlocks text :=
  BoundedLog.rtake_of_length_le h

/-- A logged line either changes nothing or moves the generation past the remembered one. -/
theorem Invariant.log {w : Window Block} (h : Invariant qt w) (call : LogCall) :
    Invariant qt { w with capture := onLog w.capture call } := by
  obtain ⟨hrem, hup⟩ := h
  cases hentry : logEntry call with
  | none => simpa only [onLog, hentry] using ⟨hrem, hup⟩
  | some entry =>
    simp only [onLog, hentry]
    have hgen := append_generation w.capture entry
    refine ⟨by simp only [hgen]; omega, ?_⟩
    simp only [UpToDate] at hup ⊢
    split at hup
    · intro heq
      simp only [hgen] at heq
      omega
    · intro heq
      simp only [hgen] at heq
      omega
    · trivial
    · trivial
    · exact hup
    · refine ⟨hup.1, fun heq => ?_⟩
      simp only [hgen] at heq
      omega
    · exact hup

theorem Invariant.start {w : Window Block} (h : Invariant qt w) (hidle : w.ui = .idle)
    (op : Operation) : Invariant qt (start w op) := by
  obtain ⟨hrem, hup⟩ := h
  simp only [UpToDate, hidle] at hup
  cases op with
  | showEvent => exact ⟨hrem, trivial⟩
  | hideEvent =>
    refine ⟨hrem, ?_⟩
    simp only [UpToDate, LogWindow.start, hidle]
    exact hup
  | refresh =>
    simp only [LogWindow.start]
    split_ifs
    · exact ⟨hrem, hup⟩
    · exact ⟨hrem, by simpa only [UpToDate, hidle] using hup⟩
  | onFilterToggled onlyConnection => exact ⟨hrem, trivial⟩
  | onClear => exact ⟨hrem, trivial⟩

theorem Invariant.exec {w : Window Block} (h : Invariant qt w) (hok : StepOk qt w .exec) :
    Invariant qt (exec qt w) := by
  obtain ⟨hrem, hup⟩ := h
  simp only [UpToDate] at hup
  simp only [StepOk] at hok
  simp only [LogWindow.exec]
  cases hui : w.ui with
  | idle => exact ⟨hrem, by simpa only [UpToDate, hui] using hup⟩
  | readGeneration force =>
    simp only [hui] at hup
    simp only
    split_ifs with hskip
    · refine ⟨hrem, ?_⟩
      cases force with
      | false => exact hup
      | true => simp at hskip
    · exact ⟨le_rfl, rfl⟩
  | readSnapshot force gen =>
    simp only [hui] at hup
    exact ⟨hrem, hup, fun _ => rfl⟩
  | showText force gen entries =>
    simp only [hui] at hup hok
    refine ⟨hrem, fun heq => ?_⟩
    simp only [ShowsSnapshot, setPlainText_of_le qt hok]
    rw [hup.2 (heq.trans hup.1.symm)]
  | clearView => exact ⟨hrem, rfl⟩
  | rememberGeneration =>
    simp only [hui] at hup hok
    refine ⟨le_rfl, fun _ => ?_⟩
    simp only [ShowsSnapshot, hok]
    exact hup

theorem invariant_step (w : Window Block) (e : Event) (h : Invariant qt w)
    (hok : StepOk qt w e) : Invariant qt (step qt w e) := by
  cases e with
  | log call => exact h.log qt call
  | start op =>
    simp only [step]
    split
    · rename_i hidle
      exact h.start qt hidle op
    · exact h
  | exec => exact h.exec qt hok

/-- A timer refresh that returns leaves the window up to date. -/
theorem shows_of_refreshReturns {w : Window Block} {e : Event} (h : Invariant qt w)
    (hok : StepOk qt w e) (hret : refreshReturns w e) : ShowsSnapshot qt (step qt w e) := by
  have hnext := (invariant_step qt w e h hok).upToDate
  cases e with
  | exec =>
    simp only [refreshReturns] at hret
    split at hret
    · rename_i hui
      simp only [step, exec, hui, UpToDate, hret, Bool.not_false, and_self, ↓reduceIte] at hnext ⊢
      exact hnext trivial
    · rename_i gen entries hui
      have hlast := h.upToDate
      simp only [UpToDate, hui] at hlast
      simp only [step, exec, hui, UpToDate] at hnext ⊢
      exact hnext (hret.trans hlast.1)
    · exact hret.elim
  | _ => exact hret.elim

/-- Whenever a timer refresh has returned, the window shows every line, as long as no matching
line slips into an `onClear` and no text exceeds the maximum block count. -/
theorem refresh_shows_snapshot (es : List Event)
    (hok : Runs.EveryStep (step qt) (StepOk qt) { view := qt.toBlocks [] } es) :
    Runs.EveryStep (step qt)
      (fun w e => refreshReturns w e → ShowsSnapshot qt (step qt w e))
      { view := qt.toBlocks [] } es :=
  Runs.everyStep_of_everyStep (invariant_step qt)
    (fun _ _ h hstep hret => shows_of_refreshReturns qt h hstep hret) (Invariant.initial qt) hok

/-- ASCII text, one block for each line. -/
def plainText : Qt QString where
  fromStdString := List.map UInt8.toUInt16
  toBlocks text := text.splitOn 0x0a

def warningCall : LogCall := ⟨200, some [0x61], some [0x61], [0x30]⟩

/-- The window is shown, a line is logged, and the timer refresh that follows returns. -/
theorem refresh_shows_snapshot_warning :
    Runs.EveryStep (step plainText)
      (fun w e => refreshReturns w e → ShowsSnapshot plainText (step plainText w e))
      { view := plainText.toBlocks [] }
      [.start .showEvent, .exec, .exec, .exec, .log warningCall,
        .start .refresh, .exec, .exec, .exec] := by
  have hblank : (plainText.toBlocks (render plainText [])).length ≤ maximumBlockCount := by decide
  have hline :
      (plainText.toBlocks (render plainText (snapshot (onLog {} warningCall) true))).length ≤
        maximumBlockCount := by decide
  apply refresh_shows_snapshot
  simp only [Runs.everyStep_cons, Runs.everyStep_nil, and_true]
  exact ⟨trivial, trivial, trivial, hblank, trivial, trivial, trivial, trivial, hline⟩

/-- A line logged between `clear()` and `generation()`: every later timer refresh returns
early and leaves the view blank. -/
theorem line_lost_by_clear :
    ¬ Runs.EveryStep (step plainText)
      (fun w e => refreshReturns w e → ShowsSnapshot plainText (step plainText w e))
      { view := plainText.toBlocks [] }
      [.start .showEvent, .exec, .exec, .exec, .start .onClear, .exec, .log warningCall, .exec,
        .start .refresh, .exec] := by
  intro h
  have hshows := h [.start .showEvent, .exec, .exec, .exec, .start .onClear, .exec,
    .log warningCall, .exec, .start .refresh] .exec List.prefix_rfl rfl
  exact absurd hshows (by unfold ShowsSnapshot; decide)

end ObsBeacon.LogWindow
