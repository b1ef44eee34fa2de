import ObsBeacon.ConnectionMonitor.Status
import ObsBeacon.Lib.Runs

/-! The status as other threads see it: any number of handlers in progress at once, each
running its critical sections one by one. -/
namespace ObsBeacon.ConnectionMonitor

/-- A section that has run: the number of the call, its handler and the section. -/
structure Ran where
  call : ℕ
  handler : Handler
  sec : Section

/-- The status, the handlers called so far with the sections each has left to run, and the
sections already run, the last one first. -/
structure Shared where
  status : ConnStatus := {}
  running : List (Handler × List Section) := []
  history : List Ran := []

inductive SharedEvent where
  | call (h : Handler)
  | exec (i : ℕ)

def sharedStep (s : Shared) : SharedEvent → Shared
  | .call h => { s with running := s.running ++ [(h, h.sections)] }
  | .exec i =>
    match s.running[i]? with
    | some (h, sec :: rest) =>
      { status := sec.apply s.status
        running := s.running.set i (h, rest)
        history := ⟨i, h, sec⟩ :: s.history }
    | _ => s

/-- The handler whose section last wrote the state. -/
def lastStateWriter (history : List Ran) : Option Handler :=
  (history.find? fun r => r.sec.next.isSome).map Ran.handler

/-- The reconnect signals counted since the last reset. -/
def countedReconnects : List Ran → ℕ
  | [] => 0
  | ⟨_, _, .resetSession _⟩ :: _ => 0
  | ⟨_, _, .countReconnect⟩ :: history => countedReconnects history + 1
  | _ :: history => countedReconnects history

/-- The stop code and the error text of a stop signal. -/
def Handler.stopFields : Handler → Option (ℤ × String)
  | .onSigStop code lastError => some (castInt code, lastError.getD "")
  | _ => none

/-- A snapshot taken now is consistent: FAILED comes with the fields of the stop signal that
set it, and the counter with the reconnects of the session. -/
structure NotTorn (s : Shared) : Prop where
  failed : s.status.state = .failed →
    ∃ stop ∈ (lastStateWriter s.history).bind Handler.stopFields,
      stop.1 ≠ obsOutputSuccess ∧ s.status.stopFields = stop
  reconnects : s.status.reconnectCount = countedReconnects s.history

/-- The order of the sections leaves every stop signal alone: of the sections that run behind
its record section, as long as its FAILED is the state written last, the last one that writes
the stop fields, if there is one, is the record section of a stop with the same fields. The
sections are listed the last one first; their order is the scheduler's, whatever the status. -/
def Undisturbed (history : List Ran) : Prop :=
  ∀ after mid before i h code lastError,
    after ++ ⟨i, h, .setState .failed⟩ :: (mid ++ ⟨i, h, .recordStop code lastError⟩ :: before) <:+
      history →
    (∀ r ∈ after, r.sec.next = none) →
    ∀ r ∈ (after ++ mid).find? (fun r => r.sec.fields.isSome), r.sec = .recordStop code lastError

/-- The state and the stop fields are what the sections wrote last. -/
structure Shared.Sound (s : Shared) : Prop where
  running : ∀ i h left, s.running[i]? = some (h, left) →
    ∃ done, h.sections = done ++ left ∧ ∀ sec ∈ done, ⟨i, h, sec⟩ ∈ s.history
  known : ∀ r ∈ s.history, r.sec ∈ r.handler.sections
  recorded : ∀ after i h before, s.history = after ++ ⟨i, h, .setState .failed⟩ :: before →
    ∃ stop, h.stopFields = some stop ∧ stop.1 ≠ obsOutputSuccess ∧
      ⟨i, h, .recordStop stop.1 stop.2⟩ ∈ before
  state : s.status.state = (s.history.findSome? fun r => r.sec.next).getD .idle
  fields : s.status.stopFields =
    (s.history.findSome? fun r => r.sec.fields).getD (obsOutputSuccess, "")
  reconnects : s.status.reconnectCount = countedReconnects s.history

/-- FAILED is set by stop signals only, for a code other than success, and behind the section
that records the signal. -/
theorem recorded_of_failed {h : Handler} {done rest : List Section}
    (hsections : h.sections = done ++ .setState .failed :: rest) :
    ∃ stop, h.stopFields = some stop ∧ stop.1 ≠ obsOutputSuccess ∧
      Section.recordStop stop.1 stop.2 ∈ done := by
  have hmem : .setState .failed ∈ h.sections := by simp [hsections]
  cases h with
  | onSigStop code lastError =>
    refine ⟨_, rfl, by simpa [Handler.sections] using hmem, ?_⟩
    cases done with
    | nil => simp [Handler.sections] at hsections
    | cons first done =>
      rw [Handler.sections, List.cons_append, List.cons.injEq] at hsections
      rw [← hsections.1]
      exact List.mem_cons_self
  | _ => simp [Handler.sections] at hmem

/-- A record section holds the fields of its own signal. -/
theorem stopFields_of_record {h : Handler} {code : ℤ} {lastError : String}
    (hmem : .recordStop code lastError ∈ h.sections) : h.stopFields = some (code, lastError) := by
  cases h with
  | onSigStop code' lastError' =>
    obtain ⟨rfl, rfl⟩ : code = castInt code' ∧ lastError = lastError'.getD "" := by
      simpa [Handler.sections] using hmem
    rfl
  | _ => simp [Handler.sections] at hmem

section Sound
variable {s : Shared}

theorem Shared.Sound.exec (hs : s.Sound) {i : ℕ} {h : Handler} {sec : Section}
    {rest : List Section} (hi : s.running[i]? = some (h, sec :: rest)) :
    Shared.Sound ⟨sec.apply s.status, s.running.set i (h, rest), ⟨i, h, sec⟩ :: s.history⟩ := by
  obtain ⟨done, hsections, hdone⟩ := hs.running i h _ hi
  refine ⟨fun j h' left hj => ?_, fun r hr => ?_, fun after j h' before hhistory => ?_, ?_, ?_, ?_⟩
  · by_cases hij : i = j
    · subst hij
      have hlt : i < s.running.length := (List.getElem?_eq_some_iff.mp hi).1
      rw [List.getElem?_set_self hlt] at hj
      obtain ⟨rfl, rfl⟩ := Prod.mk.inj (Option.some.inj hj)
      refine ⟨done ++ [sec], by simp [hsections], fun x hx => ?_⟩
      rcases List.mem_append.mp hx with hx | hx
      · exact List.mem_cons_of_mem _ (hdone x hx)
      · rw [List.mem_singleton.mp hx]
        exact List.mem_cons_self
    · rw [List.getElem?_set_ne hij] at hj
      obtain ⟨done', hsections', hdone'⟩ := hs.running j h' left hj
      exact ⟨done', hsections', fun x hx => List.mem_cons_of_mem _ (hdone' x hx)⟩
  · rcases List.mem_cons.mp hr with rfl | hr
    · show sec ∈ h.sections
      rw [hsections]
      simp
    · exact hs.known r hr
  · cases after with
    | nil =>
      obtain ⟨hran, rfl⟩ := List.cons.inj hhistory
      obtain ⟨rfl, rfl, rfl⟩ := Ran.mk.inj hran
      obtain ⟨stop, hstop, hcode, hrecord⟩ := recorded_of_failed hsections
      exact ⟨stop, hstop, hcode, hdone _ hrecord⟩
    | cons first after => exact hs.recorded after j h' before (List.cons.inj hhistory).2
  · rw [apply_state, List.findSome?_cons, hs.state]
    cases hnext : sec.next <;> rfl
  · rw [apply_stopFields, List.findSome?_cons, hs.fields]
    cases hfields : sec.fields <;> rfl
  · cases sec with
    | countReconnect => exact congrArg (· + 1) hs.reconnects
    | resetSession => rfl
    | recordStop => exact hs.reconnects
    | setState => exact hs.reconnects

theorem sound_step (s : Shared) (e : SharedEvent) (hs : s.Sound) : (sharedStep s e).Sound := by
  cases e with
  | call h =>
    refine ⟨fun i h' left hi => ?_, hs.known, hs.recorded, hs.state, hs.fields, hs.reconnects⟩
    simp only [sharedStep] at hi
    rw [List.getElem?_append] at hi
    split_ifs at hi with hlt
    · exact hs.running i h' left hi
    · have hnew := List.mem_singleton.mp (List.mem_of_getElem? hi)
      obtain ⟨rfl, rfl⟩ := Prod.mk.inj hnew
      exact ⟨[], rfl, fun _ hsec => absurd hsec List.not_mem_nil⟩
  | exec i =>
    simp only [sharedStep]
    split
    · rename_i h sec rest hi
      exact hs.exec hi
    · exact hs

theorem sound_run (es : List SharedEvent) : (es.foldl sharedStep {}).Sound := by
  apply Runs.invariant sound_step
  refine ⟨?_, ?_, ?_, rfl, rfl, rfl⟩ <;> simp

end Sound

/-- A step adds the section it runs to the history, or nothing. -/
theorem history_step (s : Shared) (e : SharedEvent) :
    (sharedStep s e).history = s.history ∨ ∃ r, (sharedStep s e).history = r :: s.history := by
  cases e with
  | call h => exact .inl rfl
  | exec i =>
    simp only [sharedStep]
    split
    · exact .inr ⟨_, rfl⟩
    · exact .inl rfl

/-- The histories along a run are the ends of its history. -/
theorem suffix_history_iff (es : List SharedEvent) (history : List Ran) :
    history <:+ (es.foldl sharedStep {}).history ↔
      ∃ pre, pre <+: es ∧ (pre.foldl sharedStep {}).history = history := by
  induction es using List.reverseRecOn with
  | nil =>
    constructor
    · intro h
      exact ⟨[], List.prefix_rfl, (List.suffix_nil.mp h).symm⟩
    · rintro ⟨pre, hpre, rfl⟩
      rw [List.prefix_nil.mp hpre]
  | append_singleton es e ih =>
    rw [List.foldl_append, List.foldl_cons, List.foldl_nil]
    have hsplit : history <:+ (sharedStep (es.foldl sharedStep {}) e).history ↔
        history = (sharedStep (es.foldl sharedStep {}) e).history ∨
          history <:+ (es.foldl sharedStep {}).history := by
      rcases history_step (es.foldl sharedStep {}) e with heq | ⟨r, heq⟩
      · rw [heq]
        exact ⟨.inr, fun h => h.elim (fun h => h ▸ List.suffix_rfl) id⟩
      · rw [heq, List.suffix_cons_iff]
    rw [hsplit, ih]
    constructor
    · rintro (rfl | ⟨pre, hpre, rfl⟩)
      · exact ⟨es ++ [e], List.prefix_rfl, by simp⟩
      · exact ⟨pre, hpre.trans (List.prefix_append es [e]), rfl⟩
    · rintro ⟨pre, hpre, rfl⟩
      rcases List.prefix_concat_iff.mp hpre with rfl | hpre
      · exact .inl (by simp)
      · exact .inr ⟨pre, hpre, rfl⟩

/-- FAILED is the state exactly if the last section that wrote the state set it. -/
theorem failed_iff {s : Shared} (hs : s.Sound) :
    s.status.state = .failed ↔ ∃ after i h before,
      s.history = after ++ ⟨i, h, .setState .failed⟩ :: before ∧ ∀ r ∈ after, r.sec.next = none := by
  have hnext : ∀ sec : Section, sec.next = some .failed → sec = .setState .failed := by
    intro sec hsec
    cases sec with
    | setState next => rw [Option.some.inj hsec]
    | _ => exact absurd hsec (Option.some_ne_none _).symm
  rw [hs.state]
  constructor
  · intro hfailed
    have hsome : (s.history.findSome? fun r => r.sec.next) = some .failed := by
      cases hcase : s.history.findSome? fun r => r.sec.next with
      | none =>
        rw [hcase] at hfailed
        exact ConnState.noConfusion hfailed
      | some state =>
        rw [hcase] at hfailed
        exact congrArg some hfailed
    obtain ⟨after, ⟨i, h, sec⟩, before, hhistory, hsec, hafter⟩ :=
      List.findSome?_eq_some_iff.mp hsome
    obtain rfl := hnext sec hsec
    exact ⟨after, i, h, before, hhistory, hafter⟩
  · rintro ⟨after, i, h, before, hhistory, hafter⟩
    have hsome : (s.history.findSome? fun r => r.sec.next) = some .failed :=
      List.findSome?_eq_some_iff.mpr ⟨after, _, before, hhistory, rfl, hafter⟩
    rw [hsome]
    rfl

theorem lastStateWriter_of_failed {after before : List Ran} {i : ℕ} {h : Handler}
    (hafter : ∀ r ∈ after, r.sec.next = none) :
    lastStateWriter (after ++ ⟨i, h, .setState .failed⟩ :: before) = some h := by
  have hnone : after.find? (fun r => r.sec.next.isSome) = none := by
    apply List.find?_eq_none.mpr
    intro r hr
    rw [hafter r hr]
    exact Bool.false_ne_true
  unfold lastStateWriter
  rw [List.find?_append, hnone]
  rfl

/-- The fields that some sections leave are those of the last one that writes them. -/
theorem findSome?_fields (history : List Ran) :
    (history.findSome? fun r => r.sec.fields) =
      (history.find? fun r => r.sec.fields.isSome).bind fun r => r.sec.fields := by
  induction history with
  | nil => rfl
  | cons r history ih =>
    rw [List.findSome?_cons, List.find?_cons]
    cases hfields : r.sec.fields with
    | none => exact ih
    | some fields => exact hfields.symm

/-- While FAILED, the fields are those of the last section that wrote them behind the record
section, or of the record section itself. -/
theorem fields_of_failed {s : Shared} (hs : s.Sound) {after mid before : List Ran} {i : ℕ}
    {h : Handler} {code : ℤ} {lastError : String}
    (hhistory : s.history =
      after ++ ⟨i, h, .setState .failed⟩ :: (mid ++ ⟨i, h, .recordStop code lastError⟩ :: before)) :
    s.status.stopFields =
      (((after ++ mid).find? fun r => r.sec.fields.isSome).bind fun r => r.sec.fields).getD
        (code, lastError) := by
  rw [hs.fields, ← findSome?_fields, hhistory, List.findSome?_append, List.findSome?_append]
  show (Option.or _ ((mid ++ _).findSome? _)).getD _ = _
  rw [List.findSome?_append]
  cases after.findSome? fun r => r.sec.fields with
  | some fields => rfl
  | none => cases mid.findSome? fun r => r.sec.fields <;> rfl

/-- In every interleaving of any number of handlers the snapshots are consistent throughout
exactly if the order in which the sections run leaves every stop signal alone. -/
theorem notTorn_iff (es : List SharedEvent) :
    Runs.Always sharedStep NotTorn {} es ↔ Undisturbed (es.foldl sharedStep {}).history := by
  constructor
  · intro halways after mid before i h code lastError hsuffix hafter r hr
    obtain ⟨pre, hpre, hhistory⟩ := (suffix_history_iff es _).mp hsuffix
    have hs := sound_run pre
    have hfailed := (failed_iff hs).mpr ⟨after, i, h, _, hhistory, hafter⟩
    obtain ⟨stop, hstop, hcode, hfields⟩ := (halways pre hpre).failed hfailed
    rw [hhistory, lastStateWriter_of_failed hafter] at hstop
    have hown : h.stopFields = some (code, lastError) :=
      stopFields_of_record (hs.known ⟨i, h, .recordStop code lastError⟩ (by simp [hhistory]))
    obtain rfl : stop = (code, lastError) := Option.some.inj (hstop.symm.trans hown)
    have hlast : r.sec.fields = some (code, lastError) := by
      have hwrites : r.sec.fields.isSome = true :=
        List.find?_some (p := fun r : Ran => r.sec.fields.isSome) hr
      obtain ⟨written, hwritten⟩ := Option.isSome_iff_exists.mp hwrites
      rw [fields_of_failed hs hhistory, hr, Option.bind_some, hwritten, Option.getD_some] at hfields
      rw [hwritten, hfields]
    cases hsec : r.sec with
    | recordStop code' lastError' =>
      rw [hsec] at hlast
      obtain ⟨rfl, rfl⟩ := Prod.mk.inj (Option.some.inj hlast)
      rfl
    | resetSession url =>
      rw [hsec] at hlast
      exact absurd (Prod.mk.inj (Option.some.inj hlast)).1.symm hcode
    | countReconnect =>
      rw [hsec] at hlast
      exact absurd hlast.symm (Option.some_ne_none _)
    | setState next =>
      rw [hsec] at hlast
      exact absurd hlast.symm (Option.some_ne_none _)
  · intro hundisturbed pre hpre
    have hs := sound_run pre
    refine ⟨fun hfailed => ?_, hs.reconnects⟩
    obtain ⟨after, i, h, rest, hhistory, hafter⟩ := (failed_iff hs).mp hfailed
    obtain ⟨stop, hstop, hcode, hrecord⟩ := hs.recorded after i h rest hhistory
    obtain ⟨mid, before, rfl⟩ := List.append_of_mem hrecord
    have hsuffix := (suffix_history_iff es _).mpr ⟨pre, hpre, hhistory⟩
    refine ⟨stop, ?_, hcode, ?_⟩
    · rw [hhistory, lastStateWriter_of_failed hafter]
      exact hstop
    · rw [fields_of_failed hs hhistory]
      cases hlast : (after ++ mid).find? fun r => r.sec.fields.isSome with
      | none => rfl
      | some r =>
        have hr := hundisturbed after mid before i h stop.1 stop.2 hsuffix hafter r hlast
        show r.sec.fields.getD _ = _
        rw [hr]
        rfl

/-- A stream fails, and the next start is caught between its two sections: FAILED with the
stop code of success. -/
theorem torn_by_next_start :
    ¬ Runs.Always sharedStep NotTorn {}
      [.call (.onSigStop (-1) none), .exec 0, .exec 0,
        .call (.streamingStarting none), .exec 1] := by
  intro h
  obtain ⟨stop, hstop, -, hfields⟩ := (h _ List.prefix_rfl).failed rfl
  obtain rfl := Option.some.inj hstop
  exact absurd hfields (by decide)

theorem exec_uninterrupted (s : Shared) (i : ℕ) {h : Handler} {rest : List Section}
    (hi : s.running[i]? = some (h, rest)) :
    ((List.replicate rest.length (SharedEvent.exec i)).foldl sharedStep s).status =
      rest.foldl Section.apply s.status := by
  induction rest generalizing s with
  | nil => rfl
  | cons sec rest ih =>
    have hlt : i < s.running.length := (List.getElem?_eq_some_iff.mp hi).1
    rw [List.length_cons, List.replicate_succ, List.foldl_cons, List.foldl_cons]
    have hstep : sharedStep s (.exec i) =
        ⟨sec.apply s.status, s.running.set i (h, rest), ⟨i, h, sec⟩ :: s.history⟩ := by
      simp only [sharedStep, hi]
    rw [hstep]
    exact ih _ (by simp [hlt])

/-- A handler that nothing interrupts acts on the status in one step, `Handler.run`. -/
theorem call_uninterrupted (s : Shared) (h : Handler) :
    ((SharedEvent.call h :: List.replicate h.sections.length
      (.exec s.running.length)).foldl sharedStep s).status = h.run s.status := by
  have hi : (sharedStep s (.call h)).running[s.running.length]? = some (h, h.sections) := by
    simp [sharedStep]
  exact exec_uninterrupted _ _ hi

end ObsBeacon.ConnectionMonitor
