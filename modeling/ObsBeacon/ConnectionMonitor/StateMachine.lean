import ObsBeacon.ConnectionMonitor.Lifecycle

/-! The state machine within one streaming session, over every place at which the section
of `onSigStarting` can fall among the sections of the other signals. -/
namespace ObsBeacon.ConnectionMonitor

/-- A section run by the handler of a signal other than `starting`. -/
def Section.OfOtherSignal (s : Section) : Prop :=
  ∃ sig : Signal, sig ≠ .starting ∧ s ∈ sig.handler.sections

/-- The sections of one session after the STREAMING_STARTING handler, cut where the section
of `onSigStarting` is run. -/
structure SessionTrace where
  before : List Section
  after : List Section
  others : ∀ s ∈ before ++ after, s.OfOtherSignal

def SessionTrace.sections (t : SessionTrace) : List Section :=
  t.before ++ (Handler.onSigStarting.sections ++ t.after)

/-- The same session with `starting` ahead of every other signal. -/
def SessionTrace.startingFirst (t : SessionTrace) : SessionTrace where
  before := []
  after := t.before ++ t.after
  others := t.others

/-- No section takes the monitor from another state to CONNECTING. -/
def NeverBack (status : ConnStatus) (sections : List Section) : Prop :=
  Runs.EveryStep Section.apply
    (fun st s => (s.apply st).state = .connecting → st.state = .connecting) status sections

/-- The documented state machine for a session that starts from `status`: the final state is
the one reached with `starting` first, and there is no way back to CONNECTING. -/
def SessionTrace.Documented (t : SessionTrace) (status : ConnStatus) : Prop :=
  (t.sections.foldl Section.apply status).state =
      (t.startingFirst.sections.foldl Section.apply status).state ∧
    NeverBack status t.sections

theorem Section.OfOtherSignal.next_ne {s : Section} (h : s.OfOtherSignal) :
    s.next ≠ some .connecting := by
  obtain ⟨sig, hsig, hs⟩ := h
  cases sig with
  | starting => exact absurd rfl hsig
  | start | reconnectSuccess =>
    obtain rfl := List.mem_singleton.mp hs
    simp [Section.next]
  | reconnect =>
    simp only [Signal.handler, Handler.sections, List.mem_cons, List.not_mem_nil, or_false] at hs
    rcases hs with rfl | rfl <;> simp [Section.next]
  | stop code lastError =>
    simp only [Signal.handler, Handler.sections, List.mem_cons, List.not_mem_nil, or_false] at hs
    rcases hs with rfl | rfl
    · simp [Section.next]
    · simp only [Section.next]
      split_ifs <;> simp

/-- Only the last state written counts. -/
theorem foldl_apply_state (status : ConnStatus) (sections : List Section) :
    (sections.foldl Section.apply status).state =
      ((sections.filterMap Section.next).getLast?).getD status.state := by
  induction sections using List.reverseRecOn with
  | nil => rfl
  | append_singleton sections s ih =>
    rw [List.foldl_append, List.foldl_cons, List.foldl_nil, apply_state, ih, List.filterMap_append]
    cases hnext : s.next <;> simp [hnext]

theorem foldl_apply_state_of_next_none (status : ConnStatus) {sections : List Section}
    (h : ∀ s ∈ sections, s.next = none) :
    (sections.foldl Section.apply status).state = status.state := by
  rw [foldl_apply_state, List.filterMap_eq_nil_iff.mpr h]
  rfl

/-- Once another signal has written the state, it is not CONNECTING. -/
theorem foldl_apply_state_ne (status : ConnStatus) {sections : List Section}
    (hothers : ∀ s ∈ sections, s.OfOtherSignal) (h : ∃ s ∈ sections, s.next ≠ none) :
    (sections.foldl Section.apply status).state ≠ .connecting := by
  obtain ⟨s, hs, hnext⟩ := h
  have hwritten : sections.filterMap Section.next ≠ [] := by
    intro hnil
    exact hnext (List.filterMap_eq_nil_iff.mp hnil s hs)
  rw [foldl_apply_state, List.getLast?_eq_some_getLast hwritten, Option.getD_some]
  obtain ⟨s', hs', hlast⟩ := List.mem_filterMap.mp (List.getLast_mem hwritten)
  intro hconn
  exact (hothers s' hs').next_ne (hconn ▸ hlast)

theorem neverBack_of_others (status : ConnStatus) {sections : List Section}
    (hothers : ∀ s ∈ sections, s.OfOtherSignal) : NeverBack status sections := by
  apply Runs.everyStep_of_forall
  intro st s hs hconn
  rw [apply_state] at hconn
  cases hnext : s.next with
  | none => simpa [hnext] using hconn
  | some next =>
    rw [hnext, Option.getD_some] at hconn
    exact absurd (hconn ▸ hnext) (hothers s hs).next_ne

/-- A session follows the documented state machine exactly if no other signal has written
the state by the time the section of `onSigStarting` runs. -/
theorem documented_iff (t : SessionTrace) (status : ConnStatus) (service : Option Service) :
    t.Documented (Handler.run status (.streamingStarting service)) ↔
      ∀ s ∈ t.before, s.next = none := by
  have hstart : (Handler.run status (.streamingStarting service)).state = .connecting := rfl
  generalize Handler.run status (.streamingStarting service) = st at hstart ⊢
  have hbefore : ∀ s ∈ t.before, s.OfOtherSignal :=
    fun s hs => t.others s (List.mem_append_left _ hs)
  have hafter : ∀ s ∈ t.after, s.OfOtherSignal :=
    fun s hs => t.others s (List.mem_append_right _ hs)
  constructor
  · rintro ⟨-, hback⟩ s hs
    by_contra hnext
    have hstarting := (Runs.everyStep_cons.mp (Runs.everyStep_append.mp hback).2).1 rfl
    exact foldl_apply_state_ne st hbefore ⟨s, hs, hnext⟩ hstarting
  · intro hnone
    have hconn := (foldl_apply_state_of_next_none st hnone).trans hstart
    constructor
    · have hskip := List.filterMap_eq_nil_iff.mpr hnone
      simp only [foldl_apply_state, SessionTrace.sections, SessionTrace.startingFirst,
        List.filterMap_append, hskip, List.nil_append]
    · refine Runs.everyStep_append.mpr ⟨neverBack_of_others st hbefore, ?_⟩
      exact Runs.everyStep_cons.mpr ⟨fun _ => hconn, neverBack_of_others _ hafter⟩

/-- A connect thread fast enough to report `start` before `starting` is emitted. -/
def fastStart : SessionTrace where
  before := Handler.onSigStart.sections
  after := []
  others := by
    intro s hs
    exact ⟨.start, by decide, (List.append_nil _).subst hs⟩

theorem fastStart_not_documented :
    ¬ fastStart.Documented (Handler.run {} (.streamingStarting none)) := by
  intro h
  exact absurd h.1 (by decide)

end ObsBeacon.ConnectionMonitor
