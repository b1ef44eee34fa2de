import Mathlib.Data.Set.Basic
import ObsBeacon.Lib.Runs
import ObsBeacon.Lib.Splice

/-! The log handler of libobs: one slot, which every party saves, replaces and restores the
way `LogCapture` does, and the chain a line takes through what they saved. -/
namespace ObsBeacon.LogHandlers
open Splice

/-- A log handler with its parameter: libobs's own, or the one of a party. -/
inductive Handler (P : Type) where
  | default
  | thunk (p : P)
  deriving DecidableEq, Repr

/-- What a party remembers; a null `prevHandler_` is `none`. -/
structure Member (P : Type) where
  prevHandler : Option (Handler P) := none
  installed : Bool := false

structure System (P : Type) where
  logHandler : Handler P := .default
  members : P → Member P := fun _ => {}

/-- The arguments of a log call, which every handler passes on. -/
structure LogLine (Args : Type) where
  level : ℤ
  msg : Option (List UInt8)
  args : Args
  deriving DecidableEq, Repr

variable {P Args : Type} [DecidableEq P]

/-- `install` of the party `self`, with `base_get_log_handler` and `base_set_log_handler`. -/
def install (s : System P) (self : P) : System P :=
  if (s.members self).installed then s
  else
    { logHandler := .thunk self
      members := Function.update s.members self ⟨some s.logHandler, true⟩ }

/-- `uninstall`; `base_set_log_handler` takes a null handler for its own. -/
def uninstall (s : System P) (self : P) : System P :=
  if (s.members self).installed then
    { logHandler := (s.members self).prevHandler.getD .default
      members := Function.update s.members self { s.members self with installed := false } }
  else s

/-- `handlerThunk` once `onLog` has kept the line: the call made to the saved handler. -/
def handlerThunk (self : Member P) (line : LogLine Args) : Option (Handler P × LogLine Args) :=
  self.prevHandler.map (·, line)

/-- The call a call leads to. -/
def forward (s : System P) : Handler P × LogLine Args → Option (Handler P × LogLine Args)
  | (.default, _) => none
  | (.thunk p, line) => handlerThunk (s.members p) line

/-- The first `n` handler calls for a line. -/
def calls (s : System P) (line : LogLine Args) (n : ℕ) : List (Handler P × LogLine Args) :=
  visits (forward s) n (some (s.logHandler, line))

inductive Event (P Args : Type) where
  | install (p : P)
  | uninstall (p : P)
  | log (line : LogLine Args)

def step (s : System P) : Event P Args → System P
  | .install p => install s p
  | .uninstall p => uninstall s p
  | .log _ => s

/-- The event is a call of the party's own `install` or `uninstall`. -/
def Event.IsOf (capture : P) : Event P Args → Prop
  | .install p => p = capture
  | .uninstall p => p = capture
  | .log _ => False

instance (capture : P) : (e : Event P Args) → Decidable (e.IsOf capture)
  | .install p => inferInstanceAs (Decidable (p = capture))
  | .uninstall p => inferInstanceAs (Decidable (p = capture))
  | .log _ => inferInstanceAs (Decidable False)

/-- The run and the same run in which `capture` does nothing, side by side. -/
structure Both (P : Type) where
  actual : System P := {}
  without : System P := {}

variable (capture : P)

def Both.step (b : Both P) (e : Event P Args) : Both P where
  actual := LogHandlers.step b.actual e
  without := if e.IsOf capture then b.without else LogHandlers.step b.without e

/-- The calls that handlers other than the one of `capture` get for a line, as far as the line
has come. -/
def heard (s : System P) (line : LogLine Args) : Set (List (Handler P × LogLine Args)) :=
  {l | ∃ n, l <+: (calls s line n).filter (·.1 ≠ .thunk capture)}

/-- The handlers that calls can still reach: the current one, those of installed parties, and
what these have saved. -/
inductive Linked (s : System P) : Handler P → Prop
  | current : Linked s s.logHandler
  | installed (p : P) : (s.members p).installed = true → Linked s (.thunk p)
  | saved (p : P) (h : Handler P) :
    Linked s (.thunk p) → (s.members p).prevHandler = some h → Linked s h

/-- Every other handler gets the calls it gets in the run without `capture`, and `uninstall` by
`capture` puts back what it had saved, whatever is the current handler by then, and changes
nothing of the others. -/
def Transparent (b : Both P) : Event P Args → Prop
  | .install _ => True
  | .uninstall p => p = capture → (b.actual.members capture).installed = true →
    some (uninstall b.actual capture).logHandler = (b.actual.members capture).prevHandler ∧
      ∀ q ≠ capture, (uninstall b.actual capture).members q = b.actual.members q
  | .log line => heard capture b.actual line = heard capture b.without line

/-- A party is taken out only while its handler is the current one. -/
def FromTop (s : System P) : Event P Args → Prop
  | .uninstall p => (s.members p).installed = true → s.logHandler = .thunk p
  | _ => True

/-- `uninstall` by `capture` leaves no link to its handler and takes out no other. -/
def Removes (s : System P) : Event P Args → Prop
  | .uninstall p => p = capture → (s.members capture).installed = true →
    ∀ h, Linked (uninstall s capture) h ↔ Linked s h ∧ h ≠ .thunk capture
  | _ => True

/-- `capture` is taken out only from the top of the chain. It is put in only when its handler
is linked from nowhere, or where it was before. -/
def Nested (s : System P) : Event P Args → Prop
  | .install p => p = capture → (s.members capture).installed = false →
    Linked s (.thunk capture) → (s.members capture).prevHandler = some s.logHandler
  | .uninstall p => p = capture → (s.members capture).installed = true →
    s.logHandler = .thunk capture
  | .log _ => True

def System.prev (s : System P) : Handler P → Option (Handler P)
  | .default => none
  | .thunk p => (s.members p).prevHandler

/-- The simulation: without `capture` the chain skips its handler. -/
structure Spliced (s t : System P) : Prop where
  current : some t.logHandler = skip s.prev (.thunk capture) (some s.logHandler)
  prev : ∀ p ≠ capture, Linked s (.thunk p) →
    (t.members p).prevHandler = skip s.prev (.thunk capture) (s.members p).prevHandler
  installed : ∀ p ≠ capture, (t.members p).installed = (s.members p).installed
  noLoop : (s.members capture).prevHandler ≠ some (.thunk capture)
  chained : ∀ p, Linked s (.thunk p) → (s.members p).prevHandler ≠ none

variable {capture} {s t : System P} {p q : P} {h : Handler P}

theorem install_of_installed (hp : (s.members p).installed = true) : install s p = s := if_pos hp

theorem uninstall_of_not_installed (hp : (s.members p).installed = false) : uninstall s p = s := by
  simp [uninstall, hp]

theorem install_logHandler (hp : (s.members p).installed = false) :
    (install s p).logHandler = .thunk p := by
  simp [install, hp]

theorem install_members_self (hp : (s.members p).installed = false) :
    (install s p).members p = ⟨some s.logHandler, true⟩ := by
  simp [install, hp]

theorem install_members_of_ne (s : System P) (hq : q ≠ p) :
    (install s p).members q = s.members q := by
  unfold install
  split_ifs
  · rfl
  · exact Function.update_of_ne hq _ _

theorem uninstall_members_of_ne (s : System P) (hq : q ≠ p) :
    (uninstall s p).members q = s.members q := by
  unfold uninstall
  split_ifs
  · exact Function.update_of_ne hq _ _
  · rfl

theorem uninstall_installed_self (s : System P) (p : P) :
    ((uninstall s p).members p).installed = false := by
  unfold uninstall
  split_ifs with hp
  · simp
  · simpa using hp

/-- A party that is taken out keeps what it saved. -/
theorem uninstall_prevHandler (s : System P) (p q : P) :
    ((uninstall s p).members q).prevHandler = (s.members q).prevHandler := by
  by_cases hq : q = p
  · subst hq
    unfold uninstall
    split_ifs <;> simp
  · rw [uninstall_members_of_ne s hq]

theorem uninstall_logHandler (hp : (s.members p).installed = true)
    (hprev : (s.members p).prevHandler = some h) : (uninstall s p).logHandler = h := by
  simp [uninstall, hp, hprev]

theorem linked_install (hp : (s.members p).installed = false) (hl : Linked (install s p) h) :
    h = .thunk p ∨ Linked s h := by
  induction hl with
  | current => exact Or.inl (install_logHandler hp)
  | installed q hq =>
    by_cases hqp : q = p
    · exact Or.inl (by rw [hqp])
    · rw [install_members_of_ne s hqp] at hq
      exact Or.inr (.installed q hq)
  | saved q g _ hg ih =>
    right
    by_cases hqp : q = p
    · rw [hqp, install_members_self hp] at hg
      exact Option.some.inj hg ▸ .current
    · rw [install_members_of_ne s hqp] at hg
      rcases ih with hthunk | hlinked
      · exact absurd (Handler.thunk.inj hthunk) hqp
      · exact .saved q g hlinked hg

theorem linked_uninstall (hp : (s.members p).installed = true)
    (hprev : (s.members p).prevHandler ≠ none) (hl : Linked (uninstall s p) h) : Linked s h := by
  obtain ⟨g₀, hg₀⟩ := Option.ne_none_iff_exists'.mp hprev
  induction hl with
  | current =>
    rw [uninstall_logHandler hp hg₀]
    exact .saved p g₀ (.installed p hp) hg₀
  | installed q hq =>
    by_cases hqp : q = p
    · rw [hqp, uninstall_installed_self] at hq
      cases hq
    · rw [uninstall_members_of_ne s hqp] at hq
      exact .installed q hq
  | saved q g _ hg ih =>
    rw [uninstall_prevHandler] at hg
    exact .saved q g ih hg

omit [DecidableEq P] in
theorem linked_initial (hl : Linked ({} : System P) h) : h = .default := by
  induction hl with
  | current => rfl
  | installed p hp => cases hp
  | saved p g _ hg => cases hg

/-- What `skip` does depends on one link only. -/
theorem skip_congr {s s' : System P}
    (h : (s'.members capture).prevHandler = (s.members capture).prevHandler)
    (a : Option (Handler P)) :
    skip s'.prev (.thunk capture) a = skip s.prev (.thunk capture) a := by
  have hlink : s'.prev (.thunk capture) = s.prev (.thunk capture) := h
  rw [skip, skip, hlink]

theorem Spliced.initial : Spliced capture ({} : System P) {} where
  current := rfl
  prev _ _ _ := rfl
  installed _ _ := rfl
  noLoop := nofun
  chained _ hl := nomatch linked_initial hl

/-- Past the handler of `capture` every link still leads somewhere. -/
theorem Spliced.skip_ne_none (h : Spliced capture s t) {g : Handler P} (hg : Linked s g) :
    skip s.prev (.thunk capture) (some g) ≠ none := by
  by_cases hgc : g = .thunk capture
  · subst hgc
    rw [skip_self]
    exact h.chained capture hg
  · rw [skip_of_ne _ (by simpa using hgc)]
    exact Option.some_ne_none g

theorem Spliced.install_other (h : Spliced capture s t) (hp : p ≠ capture) :
    Spliced capture (install s p) (install t p) := by
  cases hinst : (s.members p).installed with
  | true =>
    rw [install_of_installed hinst, install_of_installed ((h.installed p hp).trans hinst)]
    exact h
  | false =>
    have hinst' := (h.installed p hp).trans hinst
    have hcapture := install_members_of_ne s hp.symm
    have hskip := skip_congr (congrArg Member.prevHandler hcapture)
    constructor
    · rw [hskip, install_logHandler hinst, install_logHandler hinst',
        skip_of_ne _ (by simpa using hp)]
    · intro q hq hl
      rw [hskip]
      by_cases hqp : q = p
      · rw [hqp, install_members_self hinst, install_members_self hinst']
        exact h.current
      · rw [install_members_of_ne s hqp, install_members_of_ne t hqp]
        rcases linked_install hinst hl with hthunk | hlinked
        · exact absurd (Handler.thunk.inj hthunk) hqp
        · exact h.prev q hq hlinked
    · intro q hq
      by_cases hqp : q = p
      · rw [hqp, install_members_self hinst, install_members_self hinst']
      · rw [install_members_of_ne s hqp, install_members_of_ne t hqp]
        exact h.installed q hq
    · rw [hcapture]
      exact h.noLoop
    · intro q hl
      by_cases hqp : q = p
      · rw [hqp, install_members_self hinst]
        exact Option.some_ne_none _
      · rw [install_members_of_ne s hqp]
        rcases linked_install hinst hl with hthunk | hlinked
        · exact absurd (Handler.thunk.inj hthunk) hqp
        · exact h.chained q hlinked

theorem Spliced.uninstall_other (h : Spliced capture s t) (hp : p ≠ capture) :
    Spliced capture (uninstall s p) (uninstall t p) := by
  cases hinst : (s.members p).installed with
  | false =>
    rw [uninstall_of_not_installed hinst,
      uninstall_of_not_installed ((h.installed p hp).trans hinst)]
    exact h
  | true =>
    have hinst' := (h.installed p hp).trans hinst
    have hlinked := Linked.installed p hinst
    have hprev := h.chained p hlinked
    have hskip := skip_congr (uninstall_prevHandler s p capture)
    constructor
    · obtain ⟨g, hg⟩ := Option.ne_none_iff_exists'.mp hprev
      have hsome := h.skip_ne_none (.saved p g hlinked hg)
      obtain ⟨g', hg'⟩ := Option.ne_none_iff_exists'.mp hsome
      have ht : (t.members p).prevHandler = some g' := by rw [h.prev p hp hlinked, hg, hg']
      rw [hskip, uninstall_logHandler hinst hg, uninstall_logHandler hinst' ht, hg']
    · intro q hq hl
      rw [hskip, uninstall_prevHandler, uninstall_prevHandler]
      exact h.prev q hq (linked_uninstall hinst hprev hl)
    · intro q hq
      by_cases hqp : q = p
      · rw [hqp, uninstall_installed_self, uninstall_installed_self]
      · rw [uninstall_members_of_ne s hqp, uninstall_members_of_ne t hqp]
        exact h.installed q hq
    · rw [uninstall_prevHandler]
      exact h.noLoop
    · intro q hl
      rw [uninstall_prevHandler]
      exact h.chained q (linked_uninstall hinst hprev hl)

/-- `capture` goes in where nothing leads to it, or where it was before. -/
theorem Spliced.install_capture (h : Spliced capture s t)
    (hnested : Nested capture s (.install capture : Event P Args)) :
    Spliced capture (install s capture) t := by
  cases hinst : (s.members capture).installed with
  | true => rwa [install_of_installed hinst]
  | false =>
    have hagain := hnested rfl hinst
    have hlog : s.logHandler ≠ .thunk capture := by
      intro hlog
      have hsaved := hagain (hlog ▸ .current)
      exact h.noLoop (hsaved.trans (congrArg some hlog))
    have hprev : (install s capture).prev (.thunk capture) = some s.logHandler := by
      rw [System.prev, install_members_self hinst]
    constructor
    · rw [install_logHandler hinst, skip_self, hprev, h.current,
        skip_of_ne _ (by simpa using hlog)]
    · intro q hq hl
      have hlinked : Linked s (.thunk q) := by
        rcases linked_install hinst hl with hthunk | hlinked
        · exact absurd (Handler.thunk.inj hthunk) hq
        · exact hlinked
      rw [install_members_of_ne s hq, h.prev q hq hlinked]
      by_cases hqc : (s.members q).prevHandler = some (.thunk capture)
      · rw [hqc, skip_self, skip_self, hprev]
        exact hagain (.saved q _ hlinked hqc)
      · rw [skip_of_ne _ hqc, skip_of_ne _ hqc]
    · intro q hq
      rw [install_members_of_ne s hq]
      exact h.installed q hq
    · rw [install_members_self hinst]
      simpa using hlog
    · intro q hl
      by_cases hqc : q = capture
      · rw [hqc, install_members_self hinst]
        exact Option.some_ne_none _
      · rw [install_members_of_ne s hqc]
        rcases linked_install hinst hl with hthunk | hlinked
        · exact absurd (Handler.thunk.inj hthunk) hqc
        · exact h.chained q hlinked

/-- `capture` goes out from the top. -/
theorem Spliced.uninstall_capture (h : Spliced capture s t)
    (hnested : Nested capture s (.uninstall capture : Event P Args)) :
    Spliced capture (uninstall s capture) t := by
  cases hinst : (s.members capture).installed with
  | false => rwa [uninstall_of_not_installed hinst]
  | true =>
    have hlog := hnested rfl hinst
    have hprev := h.chained capture (.installed capture hinst)
    have hskip := skip_congr (uninstall_prevHandler s capture capture)
    obtain ⟨g, hg⟩ := Option.ne_none_iff_exists'.mp hprev
    constructor
    · have hcurrent := h.current
      rw [hlog, skip_self, System.prev, hg] at hcurrent
      rw [hskip, uninstall_logHandler hinst hg, hcurrent, skip_of_ne]
      exact hg ▸ h.noLoop
    · intro q hq hl
      rw [hskip, uninstall_prevHandler]
      exact h.prev q hq (linked_uninstall hinst hprev hl)
    · intro q hq
      rw [uninstall_members_of_ne s hq]
      exact h.installed q hq
    · rw [uninstall_prevHandler]
      exact h.noLoop
    · intro q hl
      rw [uninstall_prevHandler]
      exact h.chained q (linked_uninstall hinst hprev hl)

theorem Spliced.step {b : Both P} (h : Spliced capture b.actual b.without) (e : Event P Args)
    (hnested : Nested capture b.actual e) :
    Spliced capture (b.step capture e).actual (b.step capture e).without := by
  cases e with
  | install p =>
    by_cases hp : p = capture
    · subst hp
      simpa [Both.step, Event.IsOf, LogHandlers.step] using h.install_capture hnested
    · simpa [Both.step, Event.IsOf, LogHandlers.step, hp] using h.install_other hp
  | uninstall p =>
    by_cases hp : p = capture
    · subst hp
      simpa [Both.step, Event.IsOf, LogHandlers.step] using h.uninstall_capture hnested
    · simpa [Both.step, Event.IsOf, LogHandlers.step, hp] using h.uninstall_other hp
  | log line => simpa [Both.step, Event.IsOf, LogHandlers.step] using h

omit [DecidableEq P] in
theorem calls_eq (s : System P) (line : LogLine Args) (n : ℕ) :
    calls s line n = (visits s.prev n (some s.logHandler)).map (·, line) := by
  refine visits_map (·, line) (fun h => ?_) n (some s.logHandler)
  cases h with
  | default => rfl
  | thunk p => rfl

/-- What is heard is what the handlers' chain visits, each with the line as it was logged. -/
theorem mem_heard_iff (s : System P) (line : LogLine Args)
    (l : List (Handler P × LogLine Args)) :
    l ∈ heard capture s line ↔ ∃ n, l <+:
      ((visits s.prev n (some s.logHandler)).filter (· ≠ .thunk capture)).map (·, line) := by
  simp only [heard, Set.mem_ofPred_eq, calls_eq, List.filter_map, Function.comp_def]

theorem Spliced.splices (h : Spliced capture s t) :
    Splices s.prev t.prev (.thunk capture) (Linked s) where
  closed a ha b hb := by
    cases a with
    | default => cases hb
    | thunk p => exact .saved p b ha hb
  noLoop := h.noLoop
  rest a ha hne := by
    cases a with
    | default => simp [System.prev, skip]
    | thunk p => exact h.prev p (fun hp => hne (congrArg Handler.thunk hp)) ha

theorem Spliced.heard_eq (h : Spliced capture s t) (line : LogLine Args) :
    heard capture s line = heard capture t line := by
  have hcurrent : ∀ b ∈ some s.logHandler, Linked s b := by
    intro b hb
    exact Option.some.inj hb ▸ .current
  have hto (n : ℕ) := h.splices.visits_rest n hcurrent
  have hfrom (n : ℕ) := h.splices.visits_only n hcurrent
  rw [← h.current] at hto hfrom
  have hwithout (n : ℕ) : (visits t.prev n (some t.logHandler)).filter (· ≠ .thunk capture) =
      visits t.prev n (some t.logHandler) := by
    apply List.filter_eq_self.mpr
    intro a ha
    exact (List.mem_filter.mp ((hfrom n).subset ha)).2
  ext l
  rw [mem_heard_iff, mem_heard_iff]
  constructor
  · rintro ⟨n, hl⟩
    refine ⟨n, hl.trans ?_⟩
    rw [hwithout]
    exact (hto n).map _
  · rintro ⟨n, hl⟩
    rw [hwithout] at hl
    exact ⟨2 * n, hl.trans ((hfrom n).map _)⟩

omit [DecidableEq P] in
theorem default_ne_thunk (p : P) : (.default : Handler P) ≠ .thunk p := by
  intro h
  cases h

/-- The handlers of the installed parties lie on each other: the chain goes through them from the
last one put in down to libobs's own. -/
structure Stacked (s : System P) (stack : List P) : Prop where
  nodup : stack.Nodup
  installed : ∀ p, (s.members p).installed = true ↔ p ∈ stack
  current : s.logHandler = (stack.head?.elim .default .thunk)
  saved : ∀ above p below, stack = above ++ p :: below →
    (s.members p).prevHandler = some (below.head?.elim .default .thunk)

omit [DecidableEq P] in
/-- Nothing else is linked then. -/
theorem Stacked.linked_iff {stack : List P} (h : Stacked s stack) (g : Handler P) :
    Linked s g ↔ g = .default ∨ ∃ p ∈ stack, g = .thunk p := by
  constructor
  · intro hl
    induction hl with
    | current =>
      rw [h.current]
      cases stack with
      | nil => exact .inl rfl
      | cons p below => exact .inr ⟨p, List.mem_cons_self, rfl⟩
    | installed p hp => exact .inr ⟨p, (h.installed p).mp hp, rfl⟩
    | saved p g _ hg ih =>
      obtain hnone | ⟨q, hq, hpq⟩ := ih
      · exact absurd hnone.symm (default_ne_thunk p)
      · obtain rfl := Handler.thunk.inj hpq
        obtain ⟨above, below, hstack⟩ := List.append_of_mem hq
        rw [h.saved above p below hstack] at hg
        rw [← Option.some.inj hg]
        cases below with
        | nil => exact .inl rfl
        | cons r below => exact .inr ⟨r, by simp [hstack], rfl⟩
  · rintro (rfl | ⟨p, hp, rfl⟩)
    · rcases List.eq_nil_or_concat stack with rfl | ⟨above, p, rfl⟩
      · have hcurrent : s.logHandler = .default := h.current
        rw [← hcurrent]
        exact .current
      · exact .saved p .default (.installed p ((h.installed p).mpr (by simp)))
          (h.saved above p [] (by simp))
    · exact .installed p ((h.installed p).mpr hp)

omit [DecidableEq P] in
theorem Stacked.initial : Stacked ({} : System P) [] where
  nodup := List.nodup_nil
  installed p := by simp
  current := rfl
  saved above p below hstack := by simp at hstack

theorem Stacked.install {stack : List P} (h : Stacked s stack)
    (hp : (s.members p).installed = false) : Stacked (LogHandlers.install s p) (p :: stack) := by
  have hnot : p ∉ stack := by
    rw [← h.installed, hp]
    exact Bool.false_ne_true
  refine ⟨List.nodup_cons.mpr ⟨hnot, h.nodup⟩, fun q => ?_, install_logHandler hp,
    fun above q below hstack => ?_⟩
  · by_cases hqp : q = p
    · rw [hqp, install_members_self hp]
      simp
    · rw [install_members_of_ne s hqp, h.installed, List.mem_cons, or_iff_right hqp]
  · cases above with
    | nil =>
      obtain ⟨rfl, rfl⟩ := List.cons.inj hstack
      rw [install_members_self hp, h.current]
    | cons r above =>
      obtain ⟨rfl, hrest⟩ := List.cons.inj hstack
      have hq : q ≠ p := by
        rintro rfl
        exact hnot (by simp [hrest])
      rw [install_members_of_ne s hq]
      exact h.saved above q below hrest

/-- The party on top goes out. -/
theorem Stacked.uninstall {stack : List P} (h : Stacked s (p :: stack)) :
    Stacked (LogHandlers.uninstall s p) stack := by
  have hp : (s.members p).installed = true := (h.installed p).mpr List.mem_cons_self
  obtain ⟨hnot, hnodup⟩ := List.nodup_cons.mp h.nodup
  refine ⟨hnodup, fun q => ?_, uninstall_logHandler hp (h.saved [] p stack rfl),
    fun above q below hstack => ?_⟩
  · by_cases hqp : q = p
    · rw [hqp, uninstall_installed_self]
      simp [hnot]
    · rw [uninstall_members_of_ne s hqp, h.installed, List.mem_cons, or_iff_right hqp]
  · rw [uninstall_prevHandler]
    exact h.saved (p :: above) q below (by rw [hstack, List.cons_append])

omit [DecidableEq P] in
/-- The party that is taken out while its handler is the current one lies on top. -/
theorem Stacked.top {stack : List P} (h : Stacked s stack) (hcurrent : s.logHandler = .thunk p) :
    ∃ below, stack = p :: below := by
  rw [h.current] at hcurrent
  cases stack with
  | nil => exact absurd hcurrent (default_ne_thunk p)
  | cons q below => exact ⟨below, by rw [Handler.thunk.inj hcurrent]⟩

theorem Stacked.step {stack : List P} (h : Stacked s stack) (e : Event P Args)
    (htop : FromTop s e) : ∃ stack', Stacked (LogHandlers.step s e) stack' := by
  cases e with
  | install p =>
    cases hp : (s.members p).installed with
    | true => exact ⟨stack, by rwa [LogHandlers.step, install_of_installed hp]⟩
    | false => exact ⟨p :: stack, h.install hp⟩
  | uninstall p =>
    cases hp : (s.members p).installed with
    | true =>
      obtain ⟨below, rfl⟩ := h.top (htop hp)
      exact ⟨below, h.uninstall⟩
    | false => exact ⟨stack, by rwa [LogHandlers.step, uninstall_of_not_installed hp]⟩
  | log line => exact ⟨stack, h⟩

theorem Stacked.removes {stack : List P} (h : Stacked s stack) (e : Event P Args)
    (htop : FromTop s e) : Removes capture s e := by
  cases e with
  | install p => trivial
  | uninstall p =>
    rintro rfl hp g
    obtain ⟨below, rfl⟩ := h.top (htop hp)
    have hnot := (List.nodup_cons.mp h.nodup).1
    rw [h.uninstall.linked_iff, h.linked_iff]
    constructor
    · rintro (rfl | ⟨q, hq, rfl⟩)
      · exact ⟨.inl rfl, default_ne_thunk _⟩
      · refine ⟨.inr ⟨q, List.mem_cons_of_mem p hq, rfl⟩, fun heq => ?_⟩
        exact hnot (Handler.thunk.inj heq ▸ hq)
    · rintro ⟨rfl | ⟨q, hq, rfl⟩, hne⟩
      · exact .inl rfl
      · rcases List.mem_cons.mp hq with rfl | hq
        · exact absurd rfl hne
        · exact .inr ⟨q, hq, rfl⟩
  | log line => trivial

/-- In a run in which `capture` is nested, every other handler gets exactly the calls it gets in
the run without `capture`, and `uninstall` puts back what was saved; where all parties are taken
out from the top, `uninstall` takes `capture` out of the links and nothing else. -/
theorem logCapture_transparent (es : List (Event P Args))
    (h : Runs.EveryStep (Both.step capture) (fun b e => Nested capture b.actual e) {} es) :
    Runs.EveryStep (Both.step capture) (Transparent capture) {} es ∧
      (Runs.EveryStep (Both.step capture) (fun b e => FromTop b.actual e) {} es →
        Runs.EveryStep (Both.step capture) (fun b e => Removes capture b.actual e) {} es) := by
  constructor
  · refine Runs.everyStep_of_everyStep
      (J := fun b : Both P => Spliced capture b.actual b.without) ?_ ?_ Spliced.initial h
    · intro b e hb hnested
      exact hb.step e hnested
    · intro b e hb _
      cases e with
      | install p => trivial
      | uninstall p =>
        intro _ hp
        obtain ⟨g, hg⟩ := Option.ne_none_iff_exists'.mp (hb.chained capture (.installed capture hp))
        exact ⟨by rw [uninstall_logHandler hp hg, hg],
          fun q hq => uninstall_members_of_ne b.actual hq⟩
      | log line => exact hb.heard_eq line
  · intro htop
    refine Runs.everyStep_of_everyStep
      (J := fun b : Both P => ∃ stack, Stacked b.actual stack) ?_ ?_ ⟨[], Stacked.initial⟩ htop
    · rintro b e ⟨stack, hb⟩ he
      exact hb.step e he
    · rintro b e ⟨stack, hb⟩ he
      exact hb.removes e he

def line300 : LogLine Unit := ⟨300, none, ()⟩

/-- Another handler put in later and taken out first. -/
def nestedRun : List (Event Bool Unit) :=
  [.install false, .install true, .log line300, .uninstall true, .uninstall false, .log line300]

theorem logCapture_transparent_nestedRun :
    Runs.EveryStep (Both.step false) (Transparent false) {} nestedRun ∧
      Runs.EveryStep (Both.step false) (fun b e => Removes false b.actual e) {} nestedRun := by
  have hfresh : ¬ Linked ({} : System Bool) (.thunk false) := fun hl => nomatch linked_initial hl
  have hnested : Runs.EveryStep (Both.step false) (fun b e => Nested false b.actual e) {}
      nestedRun := by
    simp [nestedRun, Nested, Both.step, step, install, uninstall, Event.IsOf, hfresh]
  have htop : Runs.EveryStep (Both.step false) (fun b e => FromTop b.actual e) {} nestedRun := by
    simp [nestedRun, FromTop, Both.step, step, install, uninstall, Event.IsOf]
  exact ⟨(logCapture_transparent nestedRun hnested).1,
    (logCapture_transparent nestedRun hnested).2 htop⟩

/-- `capture` (0) taken out from the top, where a handler taken out before still leads to it. -/
def buriedRun : List (Event (Fin 3) Unit) :=
  [.install 0, .install 1, .install 2, .uninstall 1, .uninstall 0]

/-- A party that is still installed then leads to `capture`. -/
theorem uninstall_leaves_linked :
    Runs.EveryStep (Both.step 0) (fun b e => Nested 0 b.actual e) {} buriedRun ∧
      Linked (buriedRun.foldl (Both.step 0) {}).actual (.thunk 0) := by
  have hfresh : ¬ Linked ({} : System (Fin 3)) (.thunk 0) := fun hl => nomatch linked_initial hl
  constructor
  · simp [buriedRun, Nested, Both.step, step, install, uninstall, Event.IsOf, hfresh]
  · have hlast : Linked (buriedRun.foldl (Both.step 0) {}).actual (.thunk 2) := .installed 2 rfl
    exact .saved 1 (.thunk 0) (.saved 2 (.thunk 1) hlast rfl) rfl

/-- `capture` taken out while another handler, put in after it, is the current one. -/
def crossedRun : List (Event Bool Unit) := [.install false, .install true, .uninstall false]

/-- The other handler is installed and no line reaches it any more. -/
theorem uninstall_drops_later_handler :
    ((crossedRun.foldl (Both.step false) {}).actual.members true).installed = true ∧
      ¬ Runs.EveryStep (Both.step false) (Transparent false) {} (crossedRun ++ [.log line300]) := by
  refine ⟨rfl, fun h => ?_⟩
  have heq := h crossedRun (.log line300) List.prefix_rfl
  have hheard : [(Handler.thunk true, line300)] ∈
      heard false (crossedRun.foldl (Both.step false) {}).without line300 := ⟨1, by decide⟩
  rw [← heq] at hheard
  obtain ⟨n, hn⟩ := hheard
  cases n with
  | zero => exact absurd hn (by decide)
  | succ n =>
    have hcalls : calls (crossedRun.foldl (Both.step false) {}).actual line300 (n + 1) =
        [(.default, line300)] := by
      change (Handler.default, line300) :: visits _ n none = _
      rw [visits_none]
    rw [hcalls] at hn
    exact absurd hn (by decide)

/-- `capture` (0) put in again where a handler taken out before still leads to it. -/
def relinkedRun : List (Event (Fin 3) Unit) :=
  [.install 0, .install 1, .install 2, .uninstall 1, .uninstall 0, .uninstall 2, .install 0]

/-- The line then goes round between the two, and libobs's own handler never gets it. -/
theorem reinstall_loops :
    ¬ Runs.EveryStep (Both.step 0) (Transparent 0) {} (relinkedRun ++ [.log line300]) := by
  intro h
  have heq := h relinkedRun (.log line300) List.prefix_rfl
  have hheard : [(Handler.thunk 1, line300), (.thunk 1, line300)] ∈
      heard 0 (relinkedRun.foldl (Both.step 0) {}).actual line300 := ⟨4, by decide⟩
  rw [heq] at hheard
  obtain ⟨n, hn⟩ := hheard
  match n with
  | 0 => exact absurd hn (by decide)
  | 1 => exact absurd hn (by decide)
  | n + 2 =>
    have hcalls : calls (relinkedRun.foldl (Both.step 0) {}).without line300 (n + 2) =
        [(.thunk 1, line300), (.default, line300)] := by
      change (Handler.thunk 1, line300) :: (Handler.default, line300) :: visits _ n none = _
      rw [visits_none]
    rw [hcalls] at hn
    exact absurd hn (by decide)

end ObsBeacon.LogHandlers
