import ObsBeacon.ConnectionMonitor.Lifecycle
import ObsBeacon.PacketProbe.Injection

/-! What libobs holds for the monitor: one reference, the five connections and the packet
callback, all of them on `output_`, as long as no start finds an output still held. -/
namespace ObsBeacon.ConnectionMonitor
open PacketProbe

/-- What is held is held for `output_` and for nothing else. -/
structure Balanced (p : Plugin) : Prop where
  references : p.obtained = p.released + if p.output.isSome then 1 else 0
  connections : ∀ h n, (h, n) ∈ p.connections ↔ p.output.map Output.handle = some h
  packetCallbacks :
    p.packetCallbacks.map Output.handle = (p.output.map Output.handle).toList

/-- Nothing is held, connected or registered on any output. -/
def NothingHeld (p : Plugin) : Prop :=
  p.obtained = p.released ∧ p.connections = ∅ ∧ p.packetCallbacks = []

/-- The events after which nothing is to be held. -/
def Event.ends : Event → Prop
  | .uninstall => True
  | .frontend .streamingStopped => True
  | _ => False

/-- A STREAMING_STARTING is delivered while `output_` is still set. -/
def restarts (p : Plugin) : Event → Prop
  | .frontend (.streamingStarting _ _) => p.eventCallback ∧ p.output.isSome
  | _ => False

/-- Balanced, and the members that guard the releases agree with `output_`. -/
structure Owned (p : Plugin) : Prop extends Balanced p where
  signals : p.signals = p.output.map Output.handle
  attached : p.probe.attached = p.output.isSome

/-- The invariant: events arrive only while installed, and nothing is held otherwise. -/
structure Tidy (p : Plugin) : Prop extends Owned p where
  eventCallback : p.eventCallback = p.installed
  installed : p.installed = false → p.output = none

theorem mem_signalNames (n : SignalName) : n ∈ signalNames := by
  cases n <;> decide

theorem mem_foldl_insert {h h' : Handle} {n : SignalName} (ns : List SignalName)
    (cs : Finset (Handle × SignalName)) :
    (h', n) ∈ ns.foldl (fun cs n => insert (h, n) cs) cs ↔
      (h' = h ∧ n ∈ ns) ∨ (h', n) ∈ cs := by
  induction ns generalizing cs with
  | nil => simp
  | cons m ns ih =>
    rw [List.foldl_cons, ih, Finset.mem_insert, Prod.mk.injEq, List.mem_cons]
    tauto

theorem mem_foldl_erase {h h' : Handle} {n : SignalName} (ns : List SignalName)
    (cs : Finset (Handle × SignalName)) :
    (h', n) ∈ ns.foldl (fun cs n => cs.erase (h, n)) cs ↔
      ¬ (h' = h ∧ n ∈ ns) ∧ (h', n) ∈ cs := by
  induction ns generalizing cs with
  | nil => simp
  | cons m ns ih =>
    rw [List.foldl_cons, ih, Finset.mem_erase, Ne, Prod.mk.injEq, List.mem_cons]
    tauto

theorem Owned.congr {p : Plugin} (h : Owned p) (status : ConnStatus) {probe : Probe}
    (hprobe : probe.attached = p.probe.attached) (eventCallback installed : Bool) :
    Owned { p with status, probe, eventCallback, installed } where
  references := h.references
  connections := h.connections
  packetCallbacks := h.packetCallbacks
  signals := h.signals
  attached := hprobe.trans h.attached

/-- The release path shared by STREAMING_STOPPED and `uninstall` empties everything. -/
theorem Owned.release {p : Plugin} (h : Owned p) :
    Owned (releaseOutput (disconnectSignals p)) ∧
      (releaseOutput (disconnectSignals p)).output = none := by
  obtain ⟨⟨href, hconn, hcb⟩, hsig, hatt⟩ := h
  cases hout : p.output with
  | none =>
    rw [hout] at hsig
    have hnoop : releaseOutput (disconnectSignals p) = { p with signals := none } := by
      simp only [disconnectSignals, hsig, Option.map_none, releaseOutput, hout]
    rw [hnoop]
    exact ⟨⟨⟨href, hconn, hcb⟩, by simp [hout], hatt⟩, hout⟩
  | some o =>
    simp only [hout, Option.map_some, Option.toList_some, Option.isSome_some,
      Option.some.injEq] at href hconn hcb hsig hatt
    have hconn' : ∀ h n, (h, n) ∉ signalNames.foldl
        (fun cs n => cs.erase (o.handle, n)) p.connections := by
      intro h n hmem
      rw [mem_foldl_erase, hconn] at hmem
      exact hmem.1 ⟨hmem.2.symm, mem_signalNames n⟩
    have hcb' : p.packetCallbacks.eraseP (·.handle = o.handle) = [] := by
      obtain ⟨a, ha, hao⟩ := List.map_eq_singleton_iff.mp hcb
      simp [ha, hao]
    simp only [disconnectSignals, hsig, releaseOutput, hout, detach, hatt, ↓reduceIte, hcb']
    refine ⟨⟨⟨?_, ?_, rfl⟩, rfl, rfl⟩, trivial⟩
    · simpa using href
    · simpa using hconn'

/-- A start that finds no output held acquires `out` and nothing else. -/
theorem Owned.acquire {p : Plugin} (h : Owned p) (hnone : p.output = none)
    (out : Option Output) :
    Owned (connectSignals (acquireOutput p out)) := by
  obtain ⟨⟨href, hconn, hcb⟩, hsig, hatt⟩ := h
  cases out with
  | none =>
    rw [hnone] at href hconn hcb hatt
    exact ⟨⟨href, hconn, hcb⟩, rfl, hatt⟩
  | some o =>
    simp only [hnone, Option.map_none, Option.toList_none, Option.isSome_none,
      List.map_eq_nil_iff] at href hconn hcb hatt
    simp only [acquireOutput, attach, hatt, Bool.false_eq_true, ↓reduceIte, connectSignals]
    refine ⟨⟨?_, fun h n => ?_, ?_⟩, rfl, rfl⟩
    · simp only [href, Option.isSome_some, ↓reduceIte, Bool.false_eq_true, Nat.add_zero]
    · have hold : (h, n) ∉ p.connections := by simp [hconn]
      rw [mem_foldl_insert]
      simp only [hold, or_false, mem_signalNames, and_true, Option.map_some, Option.some.injEq]
      exact eq_comm
    · simp [hcb]

theorem Tidy.initial : Tidy {} := by
  refine ⟨⟨⟨rfl, ?_, rfl⟩, rfl, rfl⟩, rfl, fun _ => rfl⟩
  simp

theorem tidy_uninstall {p : Plugin} (h : Tidy p) :
    Tidy (uninstall p) ∧ (uninstall p).output = none := by
  unfold uninstall
  split_ifs with hinst
  · have hoff : Owned { p with eventCallback := false } :=
      h.toOwned.congr p.status rfl false p.installed
    obtain ⟨howned, hnone⟩ := hoff.release
    have hcontrol := releaseOutput_control (disconnectSignals { p with eventCallback := false })
    exact ⟨⟨howned.congr _ rfl _ false, (Prod.mk.inj hcontrol).2, fun _ => hnone⟩, hnone⟩
  · exact ⟨h, h.installed (by simpa using hinst)⟩

/-- One event keeps the invariant unless it is a start that finds an output held. -/
theorem tidy_step (p : Plugin) (e : Event) (h : Tidy p) (hq : ¬ restarts p e) :
    Tidy (step p e) := by
  cases e with
  | install =>
    simp only [step, install]
    split_ifs
    · exact h
    · exact ⟨h.toOwned.congr _ rfl true true, rfl, fun hfalse => absurd hfalse (by simp)⟩
  | uninstall => exact (tidy_uninstall h).1
  | frontend e =>
    simp only [step]
    split_ifs with hcall
    · have hinst : p.installed = true := h.eventCallback ▸ hcall
      cases e with
      | streamingStarting out service =>
        have hnone : p.output = none := by
          by_contra hsome
          exact hq ⟨hcall, Option.isSome_iff_ne_none.mpr hsome⟩
        obtain ⟨hi, he⟩ := Prod.mk.inj (acquireOutput_control p out)
        refine ⟨(h.toOwned.acquire hnone out).congr _ rfl _ _,
          he.trans (h.eventCallback.trans hi.symm), fun hfalse => ?_⟩
        exact absurd (hi.symm.trans hfalse) (by simp [hinst])
      | streamingStopped =>
        obtain ⟨hi, he⟩ := Prod.mk.inj (releaseOutput_control (disconnectSignals p))
        exact ⟨h.toOwned.release.1, he.trans (h.eventCallback.trans hi.symm),
          fun _ => h.toOwned.release.2⟩
      | other => exact h
    · exact h
  | signal handle s =>
    simp only [step]
    split_ifs
    · exact ⟨h.toOwned.congr _ rfl _ _, h.eventCallback, h.installed⟩
    · exact h
  | packet handle pkt time clock =>
    simp only [step]
    split_ifs
    · exact ⟨h.toOwned.congr p.status (onPacket_attached _ _ _ _) _ _, h.eventCallback,
        h.installed⟩
    · exact h

/-- The references only count up, so what a start overwrites is never released. -/
theorem restart_not_balanced (p : Plugin) (e : Event) (h : Tidy p) (hrestarts : restarts p e) :
    ¬ Balanced (step p e) := by
  intro hbal
  cases e with
  | frontend e =>
    cases e with
    | streamingStarting out service =>
      obtain ⟨hcall, hsome⟩ := hrestarts
      have hattached : p.probe.attached = true := h.attached.trans hsome
      have hold := h.references
      have hnew := hbal.references
      cases out <;>
        simp_all [step, onFrontendEvent, acquireOutput, attach, connectSignals]
    | _ => exact hrestarts
  | _ => exact hrestarts

theorem Balanced.nothingHeld {p : Plugin} (h : Balanced p) (hnone : p.output = none) :
    NothingHeld p := by
  obtain ⟨href, hconn, hcb⟩ := h
  simp only [hnone, Option.map_none, Option.toList_none, Option.isSome_none,
    List.map_eq_nil_iff, reduceCtorEq, iff_false] at *
  exact ⟨href, Finset.eq_empty_of_forall_notMem fun x => hconn x.1 x.2, hcb⟩

theorem nothingHeld_step (p : Plugin) (e : Event) (h : Tidy p) (he : e.ends) :
    NothingHeld (step p e) := by
  cases e with
  | uninstall =>
    obtain ⟨htidy, hnone⟩ := tidy_uninstall h
    exact htidy.nothingHeld hnone
  | frontend e =>
    cases e with
    | streamingStopped =>
      simp only [step]
      split_ifs with hcall
      · exact h.toOwned.release.1.nothingHeld h.toOwned.release.2
      · have hinst : p.installed = false := by
          rw [← h.eventCallback]
          simpa using hcall
        exact h.nothingHeld (h.installed hinst)
    | _ => exact he.elim
  | _ => exact he.elim

/-- What is held is balanced through a whole run, and nothing is left after each
STREAMING_STOPPED and `uninstall`, exactly if no start in it finds an output held. -/
theorem balanced_iff (es : List Event) :
    (Runs.Always step Balanced {} es ∧
      Runs.EveryStep step (fun p e => e.ends → NothingHeld (step p e)) {} es) ↔
      Runs.EveryStep step (fun p e => ¬ restarts p e) {} es := by
  have hiff : Runs.Always step Balanced {} es ↔
      Runs.EveryStep step (fun p e => ¬ restarts p e) {} es :=
    Runs.always_iff_everyStep (fun _ (h : Tidy _) => h.toBalanced) tidy_step
      (fun p e h hq => restart_not_balanced p e h (not_not.mp hq)) Tidy.initial
  constructor
  · rintro ⟨hbal, -⟩
    exact hiff.mp hbal
  · intro h
    have hends := Runs.everyStep_of_everyStep tidy_step
      (fun p e htidy _ => nothingHeld_step p e htidy) Tidy.initial h
    exact ⟨hiff.mpr h, hends⟩

/-- Two starts with no stop between them, as when the first one fails: two references are
obtained and none is released. -/
theorem failed_start_not_balanced :
    ¬ Runs.Always step Balanced {}
      [.install,
        .frontend (.streamingStarting (some ⟨1, "rtmp_output", [some "h264"]⟩) none),
        .frontend (.streamingStarting (some ⟨1, "rtmp_output", [some "h264"]⟩) none)] := by
  intro h
  have href := (h _ List.prefix_rfl).references
  exact absurd href (by decide)

end ObsBeacon.ConnectionMonitor
