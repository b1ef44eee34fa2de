import ObsBeacon.Lib.Runs

/-! Messages over a stream: a sender that appends to the stream, a receiver that takes units
off its front, and the rule by which a relation between their states carries whole sessions. -/
namespace Transport

variable {σ τ μ ν β : Type*}

/-- One unit off the front of a stream: the next state, what is delivered, if anything, and the
rest of the stream. -/
abbrev Receiver (τ ν β : Type*) := τ → List β → Option (τ × Option ν × List β)

/-- Where a receiver has got to. -/
structure Reception (τ ν β : Type*) where
  state : τ
  delivered : List ν
  rest : List β
  deriving DecidableEq, Repr

def Reception.after (out : List ν) (r : Reception τ ν β) : Reception τ ν β :=
  { r with delivered := out ++ r.delivered }

/-- The receiver, run until it fails or has taken as many units as allowed. -/
def drain (recv : Receiver τ ν β) : ℕ → τ → List β → Reception τ ν β
  | 0, t, bs => ⟨t, [], bs⟩
  | fuel + 1, t, bs =>
    match recv t bs with
    | none => ⟨t, [], bs⟩
    | some (t', out, rest) => (drain recv fuel t' rest).after out.toList

/-- The receiver takes `bs` off the front of any stream in `n` units and delivers `out`. -/
def Takes (recv : Receiver τ ν β) (t : τ) (bs : List β) (n : ℕ) (t' : τ) (out : List ν) : Prop :=
  ∀ rest fuel, drain recv (n + fuel) t (bs ++ rest) = (drain recv fuel t' rest).after out

variable {recv : Receiver τ ν β} {t t' t'' : τ} {bs bs' : List β} {n n' : ℕ}
  {out out' : List ν}

@[simp] theorem Reception.after_nil (r : Reception τ ν β) : r.after [] = r := rfl

theorem Reception.after_after (r : Reception τ ν β) :
    (r.after out').after out = r.after (out ++ out') := by
  simp [Reception.after]

theorem Takes.nil : Takes recv t [] 0 t [] := by
  intro rest fuel
  rw [Nat.zero_add, List.nil_append, Reception.after_nil]

theorem Takes.single {o : Option ν} (h : ∀ rest, recv t (bs ++ rest) = some (t', o, rest)) :
    Takes recv t bs 1 t' o.toList := by
  intro rest fuel
  rw [Nat.add_comm, drain, h rest]

theorem Takes.append (h : Takes recv t bs n t' out) (h' : Takes recv t' bs' n' t'' out') :
    Takes recv t (bs ++ bs') (n + n') t'' (out ++ out') := by
  intro rest fuel
  rw [List.append_assoc, Nat.add_assoc, h, h', Reception.after_after]

/-- A receiver that needs input takes a whole stream in, given enough fuel. -/
theorem Takes.drain (h : Takes recv t bs n t' out) (hstop : recv t' [] = none) {fuel : ℕ}
    (hfuel : n ≤ fuel) : drain recv fuel t bs = ⟨t', out, []⟩ := by
  obtain ⟨more, rfl⟩ := Nat.exists_eq_add_of_le hfuel
  have hend : Transport.drain recv more t' [] = ⟨t', [], []⟩ := by
    cases more with
    | zero => rfl
    | succ more => rw [Transport.drain, hstop]
  have hall := h [] more
  rw [List.append_nil, hend] at hall
  rw [hall, Reception.after, List.append_nil]

section Session
variable (send : σ → μ → σ × List β)

/-- The state of the sender after one more message. -/
def sendStep (s : σ) (m : μ) : σ := (send s m).1

/-- The stream a sender produces. -/
def transmit (s : σ) : List μ → List β
  | [] => []
  | m :: ms => (send s m).2 ++ transmit (send s m).1 ms

theorem transmit_append (s : σ) (ms ms' : List μ) :
    transmit send s (ms ++ ms') =
      transmit send s ms ++ transmit send (ms.foldl (sendStep send) s) ms' := by
  induction ms generalizing s with
  | nil => rfl
  | cons m ms ih =>
    rw [List.cons_append, transmit, transmit, ih, List.append_assoc]
    rfl

variable {send} {view : μ → ν} {R : σ → τ → Prop} {Q : σ → μ → Prop}

/-- Session rule: when every message that meets `Q` is taken in as one delivery and keeps the
states related, a session of such messages is delivered whole and in order. -/
theorem session
    (hstep : ∀ s t m, R s t → Q s m → ∃ t' n, n ≤ (send s m).2.length ∧
      Takes recv t (send s m).2 n t' [view m] ∧ R (send s m).1 t')
    {s : σ} {ms : List μ} (hR : R s t) (hQ : Runs.EveryStep (sendStep send) Q s ms) :
    ∃ t' n, n ≤ (transmit send s ms).length ∧
      Takes recv t (transmit send s ms) n t' (ms.map view) ∧
      R (ms.foldl (sendStep send) s) t' := by
  induction ms generalizing s t with
  | nil => exact ⟨t, 0, Nat.le_refl 0, Takes.nil, hR⟩
  | cons m ms ih =>
    obtain ⟨hm, hms⟩ := Runs.everyStep_cons.mp hQ
    obtain ⟨t₁, n₁, hlen₁, htakes₁, hR₁⟩ := hstep s t m hR hm
    obtain ⟨t₂, n₂, hlen₂, htakes₂, hR₂⟩ := ih hR₁ hms
    refine ⟨t₂, n₁ + n₂, ?_, htakes₁.append htakes₂, hR₂⟩
    rw [transmit, List.length_append]
    exact Nat.add_le_add hlen₁ hlen₂

end Session

end Transport
