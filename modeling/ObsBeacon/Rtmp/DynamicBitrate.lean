import Mathlib.Data.Int.Notation
import Mathlib.Data.List.Basic
import Mathlib.Algebra.Order.Ring.Int
import ObsBeacon.Lib.Runs

/-! The dynamic bitrate of `rtmp-stream.c`: the encoder is slowed down while packets pile up and
sped up again in steps. -/
namespace ObsBeacon.Rtmp

/-- `struct dbr_frame`: when the sending of a packet began and ended, and its size. -/
structure DbrFrame where
  sendBeg : UInt64
  sendEnd : UInt64
  size : ℕ
  deriving DecidableEq, Repr

/-- The `dbr_` members of `rtmp_stream`, bitrates in kbit/s. -/
structure Dbr where
  frames : List DbrFrame := []
  dataSize : ℕ := 0
  incTimeout : UInt64 := 0
  audioBitrate : ℤ := 0
  estBitrate : ℤ := 0
  origBitrate : ℤ := 0
  prevBitrate : ℤ := 0
  curBitrate : ℤ := 0
  incBitrate : ℤ := 0
  deriving DecidableEq, Repr

def minEstimateDurationMs : ℕ := 1000
def maxEstimateDurationMs : ℕ := 2000
def dbrIncTimer : UInt64 := 4000000000

/-- What `init_connect` sets; the previous bitrate is not among it. -/
def Dbr.connect (d : Dbr) (audioBitrate bitrate : ℤ) : Dbr :=
  { d with
    frames := []
    dataSize := 0
    incTimeout := 0
    audioBitrate := audioBitrate
    estBitrate := 0
    origBitrate := bitrate
    curBitrate := bitrate
    incBitrate := bitrate.tdiv 10 }

/-- The estimate from `dataSize` bytes sent in `dur` milliseconds, 0 where there is none. -/
def estimate (audioBitrate : ℤ) (dataSize dur : ℕ) : ℤ :=
  let est : ℤ :=
    if minEstimateDurationMs ≤ dur then ((dataSize * 1000 / dur * 8 / 1000 : ℕ) : ℤ) else 0
  if est = 0 then 0 else max (est - audioBitrate) 50

/-- `dbr_add_frame`. -/
def Dbr.addFrame (d : Dbr) (back : DbrFrame) : Dbr :=
  let frames := d.frames ++ [back]
  let front := frames.headD back
  let dataSize := d.dataSize + back.size
  let dur := (back.sendEnd - front.sendBeg).toNat / 1000000
  let dataSize' := if maxEstimateDurationMs ≤ dur then dataSize - front.size else dataSize
  { d with
    frames := if maxEstimateDurationMs ≤ dur then frames.tail else frames
    dataSize := dataSize'
    estBitrate := estimate d.audioBitrate dataSize' dur }

/-- Whether the estimate is below the bitrate in use. -/
def Dbr.slow (d : Dbr) : Bool := d.estBitrate ≠ 0 && d.estBitrate < d.curBitrate

/-- The bitrate to go down to, 0 for none: the estimate in hundreds, or the previous bitrate. -/
def Dbr.target (d : Dbr) : ℤ :=
  if d.slow then max (d.estBitrate.tdiv 100 * 100) 50 else d.prevBitrate

/-- An estimate that is used starts anew. -/
def Dbr.cleared (d : Dbr) : Dbr := if d.slow then { d with dataSize := 0, frames := [] } else d

def Dbr.lower (d : Dbr) (bitrate : ℤ) (timeout : UInt64) : Dbr :=
  { d with prevBitrate := 0, curBitrate := bitrate, incTimeout := timeout }

/-- `dbr_bitrate_lowered`, with the time it reads: the new state, and whether it changed. -/
def Dbr.bitrateLowered (d : Dbr) (now : UInt64) : Dbr × Bool :=
  if d.target = 0 ∨ d.target = d.curBitrate then (d.cleared, false)
  else (d.cleared.lower d.target (now + dbrIncTimer), true)

/-- `dbr_inc_bitrate`. -/
def Dbr.increase (d : Dbr) (now : UInt64) : Dbr :=
  if d.origBitrate ≤ d.curBitrate + d.incBitrate then
    { d with prevBitrate := d.curBitrate, curBitrate := d.origBitrate }
  else
    { d with
      prevBitrate := d.curBitrate
      curBitrate := d.curBitrate + d.incBitrate
      incTimeout := now + dbrIncTimer }

/-- The check of the timer in `check_to_drop_frames`, with the two times it may read. -/
def Dbr.checkTimer (d : Dbr) (now now' : UInt64) : Dbr :=
  if d.incTimeout ≠ 0 ∧ d.incTimeout ≤ now then { d with incTimeout := 0 }.increase now' else d

/-- What happens to the dynamic bitrate: a connection, a packet sent, a look at the timer, a
buffer found too long, and the end of the stream. -/
inductive DbrEvent where
  | connect (audioBitrate bitrate : ℤ)
  | sent (frame : DbrFrame)
  | timer (now now' : UInt64)
  | congested (now : UInt64)
  | stop

def Dbr.step (d : Dbr) : DbrEvent → Dbr
  | .connect audioBitrate bitrate => d.connect audioBitrate bitrate
  | .sent frame => d.addFrame frame
  | .timer now now' => d.checkTimer now now'
  | .congested now => (d.bitrateLowered now).1
  | .stop => { d with curBitrate := d.origBitrate }

/-- The bitrates are in order, so that going down never goes up. -/
def Dbr.Ordered (d : Dbr) : Prop :=
  0 ≤ d.prevBitrate ∧ d.prevBitrate ≤ d.curBitrate ∧ d.curBitrate ≤ d.origBitrate

/-- What holds of every run whose connections meet `Dbr.Fresh`. -/
structure Dbr.Sound (d : Dbr) : Prop where
  ordered : d.Ordered
  step : d.incBitrate = d.origBitrate.tdiv 10
  estimate : d.estBitrate = 0 ∨ 50 ≤ d.estBitrate
  window : d.dataSize = (d.frames.map DbrFrame.size).sum

/-- A connection is given a bitrate no lower than the one left from the last stream. -/
def Dbr.Fresh (d : Dbr) : DbrEvent → Prop
  | .connect _ bitrate => 0 ≤ bitrate ∧ d.prevBitrate ≤ bitrate
  | _ => True

/-- Below the configured bitrate the timer runs, so that the bitrate will go up again. -/
def Dbr.Armed (d : Dbr) : Prop := d.curBitrate < d.origBitrate → d.incTimeout ≠ 0

/-- The clock is not read where the timer would wrap to the value that means none. -/
def DbrEvent.Ticking : DbrEvent → Prop
  | .timer _ now' => now' + dbrIncTimer ≠ 0
  | .congested now => now + dbrIncTimer ≠ 0
  | _ => True

/-- The configured bitrate is not negative. -/
def DbrEvent.NonNegative : DbrEvent → Prop
  | .connect _ bitrate => 0 ≤ bitrate
  | _ => True

/-- The bitrate goes up by a tenth of a configured one that is not negative. -/
def Dbr.Stepped (d : Dbr) : Prop := 0 ≤ d.origBitrate ∧ d.incBitrate = d.origBitrate.tdiv 10

/-- Only packets that are sent and looks at the timer. -/
def DbrEvent.Quiet : DbrEvent → Prop
  | .sent _ | .timer _ _ => True
  | _ => False

def Dbr.due (d : Dbr) : DbrEvent → Bool
  | .timer now _ => d.incTimeout ≠ 0 && d.incTimeout ≤ now
  | _ => false

/-- How often a run finds the timer due. -/
def dueChecks (d : Dbr) : List DbrEvent → ℕ
  | [] => 0
  | e :: es => (if d.due e then 1 else 0) + dueChecks (d.step e) es

theorem estimate_spec (audioBitrate : ℤ) (dataSize dur : ℕ) :
    estimate audioBitrate dataSize dur = 0 ∨ 50 ≤ estimate audioBitrate dataSize dur := by
  simp only [estimate]
  generalize (if minEstimateDurationMs ≤ dur then _ else (0 : ℤ)) = est
  split_ifs with hzero
  · exact .inl rfl
  · exact .inr (le_max_right _ _)

section Step
variable {d : Dbr}

theorem Dbr.Sound.inc_nonneg (h : d.Sound) : 0 ≤ d.incBitrate := by
  obtain ⟨hprev, hcur, horig⟩ := h.ordered
  rw [h.step]
  exact Int.tdiv_nonneg (by omega) (by decide)

/-- The bitrate to go down to is not above the one in use. -/
theorem Dbr.Sound.target (h : d.Sound) : 0 ≤ d.target ∧ d.target ≤ d.curBitrate := by
  obtain ⟨hprev, hcur, -⟩ := h.ordered
  rw [Dbr.target]
  split_ifs with hslow
  · simp only [slow, Bool.and_eq_true, decide_eq_true_eq] at hslow
    have hest : 50 ≤ d.estBitrate := h.estimate.resolve_left hslow.1
    have hround : d.estBitrate.tdiv 100 * 100 ≤ d.estBitrate := by
      rw [Int.tdiv_eq_ediv_of_nonneg (by omega)]
      omega
    omega
  · exact ⟨hprev, hcur⟩

theorem Dbr.Sound.addFrame (h : d.Sound) (frame : DbrFrame) : (d.addFrame frame).Sound := by
  refine ⟨h.ordered, h.step, estimate_spec _ _ _, ?_⟩
  have hsum : ((d.frames ++ [frame]).map DbrFrame.size).sum = d.dataSize + frame.size := by
    rw [List.map_append, List.sum_append, h.window]
    rfl
  simp only [Dbr.addFrame]
  split_ifs
  · obtain ⟨front, rest, hcons⟩ := List.exists_cons_of_ne_nil
      (List.append_ne_nil_of_right_ne_nil d.frames (List.cons_ne_nil frame []))
    rw [hcons, List.map_cons, List.sum_cons] at hsum
    rw [hcons, List.headD_cons, List.tail_cons]
    omega
  · exact hsum.symm

theorem cleared_origBitrate (d : Dbr) : d.cleared.origBitrate = d.origBitrate := by
  rw [Dbr.cleared]
  split_ifs <;> rfl

theorem cleared_incBitrate (d : Dbr) : d.cleared.incBitrate = d.incBitrate := by
  rw [Dbr.cleared]
  split_ifs <;> rfl

theorem lower_origBitrate (d : Dbr) (bitrate : ℤ) (timeout : UInt64) :
    (d.lower bitrate timeout).origBitrate = d.origBitrate := rfl

theorem lower_incBitrate (d : Dbr) (bitrate : ℤ) (timeout : UInt64) :
    (d.lower bitrate timeout).incBitrate = d.incBitrate := rfl

theorem Dbr.Sound.cleared (h : d.Sound) : d.cleared.Sound := by
  rw [Dbr.cleared]
  split_ifs
  · exact ⟨h.ordered, h.step, h.estimate, rfl⟩
  · exact h

theorem Dbr.Sound.lower (h : d.Sound) {bitrate : ℤ} (hlow : 0 ≤ bitrate)
    (hhigh : bitrate ≤ d.origBitrate) (timeout : UInt64) :
    (d.lower bitrate timeout).Sound :=
  ⟨⟨le_refl 0, hlow, hhigh⟩, h.step, h.estimate, h.window⟩

theorem Dbr.Sound.bitrateLowered (h : d.Sound) (now : UInt64) :
    (d.bitrateLowered now).1.Sound := by
  have hcleared := h.cleared
  have htarget := h.target
  have horig : d.curBitrate ≤ d.cleared.origBitrate := by
    rw [cleared_origBitrate]
    exact h.ordered.2.2
  rw [Dbr.bitrateLowered]
  by_cases hsame : d.target = 0 ∨ d.target = d.curBitrate
  · rw [if_pos hsame]
    exact hcleared
  · rw [if_neg hsame]
    exact hcleared.lower htarget.1 (htarget.2.trans horig) _

theorem Dbr.Sound.increase (h : d.Sound) (now : UInt64) : (d.increase now).Sound := by
  have hinc := h.inc_nonneg
  obtain ⟨hprev, hcur, horig⟩ := h.ordered
  rw [Dbr.increase]
  split_ifs with hdone
  · exact ⟨⟨hprev.trans hcur, horig, le_refl _⟩, h.step, h.estimate, h.window⟩
  · refine ⟨⟨hprev.trans hcur, ?_, ?_⟩, h.step, h.estimate, h.window⟩
    · show d.curBitrate ≤ d.curBitrate + d.incBitrate
      omega
    · exact le_of_not_ge hdone

theorem Dbr.Sound.checkTimer (h : d.Sound) (now now' : UInt64) : (d.checkTimer now now').Sound := by
  rw [Dbr.checkTimer]
  split_ifs
  · have hcleared : ({ d with incTimeout := 0 } : Dbr).Sound :=
      ⟨h.ordered, h.step, h.estimate, h.window⟩
    exact hcleared.increase now'
  · exact h

theorem Dbr.Sound.after (h : d.Sound) (e : DbrEvent) (hfresh : d.Fresh e) : (d.step e).Sound := by
  cases e with
  | connect audioBitrate bitrate =>
    exact ⟨⟨h.ordered.1, hfresh.2, le_refl _⟩, rfl, .inl rfl, rfl⟩
  | sent frame => exact h.addFrame frame
  | timer now now' => exact h.checkTimer now now'
  | congested now => exact h.bitrateLowered now
  | stop =>
    obtain ⟨hprev, hcur, horig⟩ := h.ordered
    exact ⟨⟨hprev, hcur.trans horig, le_refl _⟩, h.step, h.estimate, h.window⟩

theorem Dbr.Armed.cleared (h : d.Armed) : d.cleared.Armed := by
  rw [Dbr.cleared]
  split_ifs <;> exact h

theorem increase_armed {now : UInt64} (hclock : now + dbrIncTimer ≠ 0) :
    (d.increase now).Armed := by
  rw [Dbr.increase]
  split_ifs
  · exact fun hlow => absurd hlow (lt_irrefl _)
  · exact fun _ => hclock

theorem Dbr.Armed.after (h : d.Armed) (e : DbrEvent) (hclock : e.Ticking) :
    (d.step e).Armed := by
  cases e with
  | connect audioBitrate bitrate => exact fun hlow => absurd hlow (lt_irrefl _)
  | sent frame => exact h
  | timer now now' =>
    rw [Dbr.step, Dbr.checkTimer]
    split_ifs
    · exact increase_armed hclock
    · exact h
  | congested now =>
    rw [Dbr.step, Dbr.bitrateLowered]
    by_cases hsame : d.target = 0 ∨ d.target = d.curBitrate
    · rw [if_pos hsame]
      exact h.cleared
    · rw [if_neg hsame]
      exact fun _ => hclock
  | stop => exact fun hlow => absurd hlow (lt_irrefl _)

/-- A quiet step leaves the bounds alone and raises the bitrate only when the timer is due. -/
theorem step_quiet {e : DbrEvent} (hquiet : e.Quiet) :
    (d.step e).origBitrate = d.origBitrate ∧ (d.step e).incBitrate = d.incBitrate ∧
      (d.step e).curBitrate =
        if d.due e then min d.origBitrate (d.curBitrate + d.incBitrate) else d.curBitrate := by
  cases e with
  | sent frame => exact ⟨rfl, rfl, rfl⟩
  | timer now now' =>
    simp only [Dbr.step, Dbr.checkTimer, Dbr.due, Bool.and_eq_true, decide_eq_true_eq]
    split_ifs with hdue
    · simp only [Dbr.increase]
      split_ifs with hdone
      · exact ⟨rfl, rfl, (min_eq_left hdone).symm⟩
      · exact ⟨rfl, rfl, (min_eq_right (le_of_not_ge hdone)).symm⟩
    · exact ⟨rfl, rfl, rfl⟩
  | connect audioBitrate bitrate => exact hquiet.elim
  | congested now => exact hquiet.elim
  | stop => exact hquiet.elim

/-- Only a connection sets the bounds. -/
theorem step_bounds {e : DbrEvent} (h : ∀ audioBitrate bitrate, e ≠ .connect audioBitrate bitrate) :
    (d.step e).origBitrate = d.origBitrate ∧ (d.step e).incBitrate = d.incBitrate := by
  cases e with
  | connect audioBitrate bitrate => exact absurd rfl (h audioBitrate bitrate)
  | sent frame => exact ⟨rfl, rfl⟩
  | timer now now' =>
    obtain ⟨horig, hinc, -⟩ := step_quiet (d := d) (e := .timer now now') trivial
    exact ⟨horig, hinc⟩
  | congested now =>
    rw [Dbr.step, Dbr.bitrateLowered]
    by_cases hsame : d.target = 0 ∨ d.target = d.curBitrate
    · rw [if_pos hsame]
      exact ⟨cleared_origBitrate d, cleared_incBitrate d⟩
    · rw [if_neg hsame]
      exact ⟨(lower_origBitrate _ _ _).trans (cleared_origBitrate d),
        (lower_incBitrate _ _ _).trans (cleared_incBitrate d)⟩
  | stop => exact ⟨rfl, rfl⟩

theorem Dbr.Stepped.after (h : d.Stepped) (e : DbrEvent) (hbitrate : e.NonNegative) :
    (d.step e).Stepped := by
  by_cases hconnect : ∃ audioBitrate bitrate, e = .connect audioBitrate bitrate
  · obtain ⟨audioBitrate, bitrate, rfl⟩ := hconnect
    exact ⟨hbitrate, rfl⟩
  · obtain ⟨horig, hinc⟩ := step_bounds (d := d) (e := e) fun audioBitrate bitrate he =>
      hconnect ⟨audioBitrate, bitrate, he⟩
    unfold Dbr.Stepped
    rw [horig, hinc]
    exact h

end Step

theorem sound_initial : ({} : Dbr).Sound :=
  ⟨⟨le_refl 0, le_refl 0, le_refl 0⟩, rfl, .inl rfl, rfl⟩

/-- From a new output the bitrates stay in order in every state of a run exactly when no
connection is given a bitrate below the previous one of an earlier stream, never forgotten. -/
theorem ordered_iff (es : List DbrEvent) :
    Runs.Always Dbr.step Dbr.Ordered {} es ↔ Runs.EveryStep Dbr.step Dbr.Fresh {} es := by
  refine Runs.always_iff_everyStep (fun d hd => hd.ordered) (fun d e hd hq => hd.after e hq)
    (fun d e hd hq => ?_) sound_initial
  cases e with
  | connect audioBitrate bitrate =>
    rintro ⟨hprev, hcur, -⟩
    exact hq ⟨hprev.trans hcur, hcur⟩
  | sent frame => exact absurd trivial hq
  | timer now now' => exact absurd trivial hq
  | congested now => exact absurd trivial hq
  | stop => exact absurd trivial hq

/-- A connection that is given less goes up to the old bitrate at the first congestion. -/
theorem congested_after_connect {d : Dbr} {audioBitrate bitrate : ℤ}
    (hbitrate : bitrate < d.prevBitrate) (hpos : 0 ≤ bitrate) (now : UInt64) :
    let d' := (d.step (.connect audioBitrate bitrate)).step (.congested now)
    d'.origBitrate = bitrate ∧ d'.curBitrate = d.prevBitrate := by
  have hslow : (d.connect audioBitrate bitrate).slow = false := rfl
  have htarget : (d.connect audioBitrate bitrate).target = d.prevBitrate := by
    rw [Dbr.target, hslow]
    rfl
  have hne : ¬ ((d.connect audioBitrate bitrate).target = 0 ∨
      (d.connect audioBitrate bitrate).target = (d.connect audioBitrate bitrate).curBitrate) := by
    rw [htarget]
    show ¬ (d.prevBitrate = 0 ∨ d.prevBitrate = bitrate)
    omega
  rw [Dbr.step, Dbr.step, Dbr.bitrateLowered, if_neg hne]
  exact ⟨cleared_origBitrate _, htarget⟩

theorem nonNegative_of_quiet {e : DbrEvent} (hquiet : e.Quiet) : e.NonNegative := by
  cases e with
  | connect audioBitrate bitrate => exact hquiet.elim
  | _ => trivial

/-- Induction over a quiet run: each due check gives one step up, to the configured bitrate. -/
theorem curBitrate_quiet {d : Dbr} (h : d.Stepped) {es : List DbrEvent}
    (hquiet : ∀ e ∈ es, e.Quiet) :
    (es.foldl Dbr.step d).curBitrate =
      if dueChecks d es = 0 then d.curBitrate
      else min d.origBitrate (d.curBitrate + dueChecks d es * d.incBitrate) := by
  induction es generalizing d with
  | nil => rfl
  | cons e es ih =>
    have he : e.Quiet := hquiet e List.mem_cons_self
    obtain ⟨horig, hinc, hcur⟩ := step_quiet (d := d) he
    have hpos : 0 ≤ d.incBitrate := h.2 ▸ Int.tdiv_nonneg h.1 (by decide)
    have hmore : 0 ≤ (dueChecks (d.step e) es : ℤ) * d.incBitrate :=
      mul_nonneg (Int.natCast_nonneg _) hpos
    have hrest := ih (h.after e (nonNegative_of_quiet he))
      fun e' he' => hquiet e' (List.mem_cons_of_mem e he')
    rw [horig, hinc, hcur] at hrest
    rw [List.foldl_cons, hrest, dueChecks]
    by_cases hdue : d.due e = true
    · -- the minimum with the configured bitrate need only be taken at the end
      simp only [hdue, if_true, Nat.cast_add, Nat.cast_one, add_mul, one_mul]
      by_cases hnone : dueChecks (d.step e) es = 0
      · simp [hnone]
      · rw [if_neg hnone, if_neg (by omega)]
        omega
    · simp only [hdue, Bool.false_eq_true, if_false, zero_add]

theorem origBitrate_quiet {d : Dbr} {es : List DbrEvent}
    (hquiet : ∀ e ∈ es, e.Quiet) : (es.foldl Dbr.step d).origBitrate = d.origBitrate := by
  induction es generalizing d with
  | nil => rfl
  | cons e es ih =>
    have he : e.Quiet := hquiet e List.mem_cons_self
    rw [List.foldl_cons, ih fun e' he' => hquiet e' (List.mem_cons_of_mem e he'),
      (step_quiet he).1]

/-- What every run from a new output keeps, whatever bitrates the connections are given. -/
theorem stepped_armed_of_run {es : List DbrEvent}
    (hrun : ∀ e ∈ es, e.NonNegative ∧ e.Ticking) :
    (es.foldl Dbr.step {}).Stepped ∧ (es.foldl Dbr.step {}).Armed := by
  have hinitial : ({} : Dbr).Stepped ∧ ({} : Dbr).Armed :=
    ⟨⟨le_refl 0, rfl⟩, fun hlow => absurd hlow (lt_irrefl 0)⟩
  exact Runs.always_of_everyStep (J := fun d : Dbr => d.Stepped ∧ d.Armed)
    (Q := fun _ e => e.NonNegative ∧ e.Ticking)
    (fun d e hd hq => ⟨hd.1.after e hq.1, hd.2.after e hq.2⟩) hinitial
    (Runs.everyStep_of_forall fun _ e he => hrun e he) es List.prefix_rfl

/-- After any history, a quiet stretch in which the timer is found due brings the bitrate to the
configured one by a tenth at each such check, and never leaves it below with the timer off. -/
theorem bitrate_recovers {history es : List DbrEvent}
    (hrun : ∀ e ∈ history ++ es, e.NonNegative ∧ e.Ticking) (hquiet : ∀ e ∈ es, e.Quiet) :
    let low := history.foldl Dbr.step {}
    let d := es.foldl Dbr.step low
    d.curBitrate =
        (if dueChecks low es = 0 then low.curBitrate
        else min low.origBitrate
          (low.curBitrate + dueChecks low es * low.origBitrate.tdiv 10)) ∧
      (d.curBitrate < low.origBitrate → d.incTimeout ≠ 0) := by
  obtain ⟨hstepped, -⟩ := stepped_armed_of_run fun e he => hrun e (List.mem_append_left _ he)
  obtain ⟨-, harmed⟩ := stepped_armed_of_run hrun
  have hcur := curBitrate_quiet hstepped hquiet
  rw [hstepped.2] at hcur
  refine ⟨hcur, fun hlow => ?_⟩
  rw [List.foldl_append] at harmed
  apply harmed
  rw [origBitrate_quiet hquiet]
  exact hlow

/-- A stream at 6000 whose first packet takes 1.5 seconds. -/
def sampleHistory : List DbrEvent :=
  [.connect 160 6000, .sent ⟨0, 1500000000, 375000⟩, .congested 0]

def sampleQuiet : List DbrEvent :=
  [.timer 1 1, .timer dbrIncTimer dbrIncTimer, .sent ⟨0, 1, 10⟩]

theorem bitrate_recovers_sample :
    let low := sampleHistory.foldl Dbr.step {}
    let d := sampleQuiet.foldl Dbr.step low
    d.curBitrate =
        (if dueChecks low sampleQuiet = 0 then low.curBitrate
        else min low.origBitrate
          (low.curBitrate + dueChecks low sampleQuiet * low.origBitrate.tdiv 10)) ∧
      (d.curBitrate < low.origBitrate → d.incTimeout ≠ 0) := by
  refine bitrate_recovers ?_ ?_
  · simp only [sampleHistory, sampleQuiet, List.cons_append, List.nil_append,
      List.forall_mem_cons, List.not_mem_nil, false_imp_iff, implies_true, DbrEvent.NonNegative,
      DbrEvent.Ticking]
    decide
  · intro e he
    simp only [sampleQuiet, List.mem_cons, List.not_mem_nil, or_false] at he
    rcases he with rfl | rfl | rfl <;> trivial

example : ((sampleHistory ++ sampleQuiet).foldl Dbr.step {}).curBitrate = 2400 := by
  decide +kernel

end ObsBeacon.Rtmp
