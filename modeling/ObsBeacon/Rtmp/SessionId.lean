import Mathlib.Tactic.IntervalCases
import ObsBeacon.Rtmp.Connect

/-! The session id of the output's stream object, over every sequence of starts that libobs
makes on it. -/
namespace ObsBeacon.Rtmp

/-- The members of `rtmp_stream` that `rtmp_stream_start` writes; the object is zeroed. -/
structure RtmpStream where
  beaconSessionId : List UInt8 := List.replicate 40 0
  connecting : Bool := false
  deriving DecidableEq, Repr

/-- The C string at the start of an array. -/
def cstring (buf : List UInt8) : List UInt8 := buf.takeWhile (· ≠ 0)

/-- `snprintf(buf, sizeof(buf), "%s", text)`. -/
def snprintfInto (buf text : List UInt8) : List UInt8 :=
  let written := text.take (buf.length - 1) ++ [0]
  written ++ buf.drop written.length

/-- A call of `rtmp_stream_start` and what the functions it calls return: `uuid` is the result
of `os_generate_uuid`, if it is called, and `connects` tells whether the connect thread, once
created, gets as far as the user arguments in `try_connect`. -/
structure StartCall where
  reconnecting : Bool
  canBeginDataCapture : Bool
  encodersInitialized : Bool
  uuid : Option (List UInt8)
  threadCreated : Bool
  connects : Bool
  deriving DecidableEq, Repr

def mintSessionId (s : RtmpStream) (uuid : Option (List UInt8)) : RtmpStream :=
  { s with beaconSessionId := snprintfInto s.beaconSessionId (uuid.getD []) }

def rtmpStreamStart (s : RtmpStream) (c : StartCall) : RtmpStream × Bool :=
  if !c.canBeginDataCapture then (s, false)
  else if !c.encodersInitialized then (s, false)
  else
    let s :=
      if !c.reconnecting || s.beaconSessionId.headD 0 == 0 then mintSessionId s c.uuid else s
    ({ s with connecting := true }, c.threadCreated)

/-- The extras `try_connect` builds. -/
def tryConnectExtras (s : RtmpStream) : AmfProps := beaconExtras (cstring s.beaconSessionId)

def runStarts (starts : List StartCall) : RtmpStream :=
  starts.foldl (fun s c => (rtmpStreamStart s c).1) {}

/-- The user arguments of the connect that the start at index `k` leads to, if any. The
connect thread of a start is joined or done before the next start. -/
def userArguments (starts : List StartCall) (k : ℕ) : Option AmfProps :=
  starts[k]?.bind fun c =>
    let r := rtmpStreamStart (runStarts (starts.take k)) c
    if r.2 && c.connects then some (tryConnectExtras r.1) else none

/-- The start fails before it gets to the session id. -/
def StartCall.refused (c : StartCall) : Bool := !c.canBeginDataCapture || !c.encodersInitialized

/-- A fresh start that begins a session. -/
def StartCall.begins (c : StartCall) : Bool := !c.reconnecting && !c.refused

/-- The starts after index `i` up to index `j` are all made by the reconnect loop. -/
def NoFreshStart (starts : List StartCall) (i j : ℕ) : Prop :=
  ∀ m c, i < m → m ≤ j → starts[m]? = some c → StartCall.reconnecting c = true

/-- The starts libobs makes on one output. A reconnect loop belongs to a session, begun by the
last fresh start: libobs makes no reconnect before a session, and none of an earlier session when
a fresh start has come in between, even one that was refused. `os_generate_uuid` returns new
non-empty strings that fit the array. -/
structure LibobsStarts where
  starts : List StartCall
  loop : ∀ (k : ℕ) (c : StartCall), starts[k]? = some c → c.reconnecting = true →
    ∃ f first, f < k ∧ starts[f]? = some first ∧ first.begins = true ∧ NoFreshStart starts f k
  uuid_valid : ∀ c : StartCall, c ∈ starts → c.begins = true →
    ∃ u, c.uuid = some u ∧ u ≠ [] ∧ u.length ≤ 39 ∧ ∀ b ∈ u, b ≠ 0
  uuid_fresh : ∀ (i j : ℕ) (c c' : StartCall), starts[i]? = some c → starts[j]? = some c' →
    c.begins = true → c'.begins = true → c.uuid = c'.uuid → i = j

theorem cstring_append_zero {u rest : List UInt8} (hu : ∀ b ∈ u, b ≠ 0) :
    cstring (u ++ 0 :: rest) = u := by
  rw [cstring, List.takeWhile_append_of_pos (by simpa using hu), List.takeWhile_cons]
  simp

theorem cstring_snprintfInto {buf u : List UInt8} (hbuf : buf.length = 40)
    (hlen : u.length ≤ 39) (hu : ∀ b ∈ u, b ≠ 0) : cstring (snprintfInto buf u) = u := by
  rw [snprintfInto, hbuf, List.take_of_length_le (by omega), List.append_assoc]
  exact cstring_append_zero hu

theorem length_snprintfInto {buf : List UInt8} (hbuf : buf.length = 40) (text : List UInt8) :
    (snprintfInto buf text).length = 40 := by
  simp only [snprintfInto, hbuf, List.length_append, List.length_take, List.length_drop,
    List.length_singleton]
  omega

theorem length_rtmpStreamStart {s : RtmpStream} (hs : s.beaconSessionId.length = 40)
    (c : StartCall) : (rtmpStreamStart s c).1.beaconSessionId.length = 40 := by
  simp only [rtmpStreamStart]
  split_ifs
  · exact hs
  · exact hs
  · exact length_snprintfInto hs _
  · exact hs

theorem length_runStarts (starts : List StartCall) :
    (runStarts starts).beaconSessionId.length = 40 := by
  induction starts using List.reverseRecOn with
  | nil => rfl
  | append_singleton starts c ih =>
    rw [runStarts, List.foldl_append, List.foldl_cons, List.foldl_nil]
    exact length_rtmpStreamStart ih c

/-- A fresh start that is not refused mints the id. -/
theorem sessionId_of_begins {s : RtmpStream} (hs : s.beaconSessionId.length = 40)
    {c : StartCall} (hc : c.begins = true) {u : List UInt8} (huuid : c.uuid = some u)
    (hlen : u.length ≤ 39) (hu : ∀ b ∈ u, b ≠ 0) :
    cstring (rtmpStreamStart s c).1.beaconSessionId = u := by
  simp only [StartCall.begins, StartCall.refused, Bool.and_eq_true, Bool.not_eq_true',
    Bool.or_eq_false_iff, Bool.not_eq_false'] at hc
  obtain ⟨hfresh, hbegin, hencoders⟩ := hc
  simp only [rtmpStreamStart, hfresh, hbegin, hencoders, Bool.not_true, Bool.not_false,
    Bool.true_or, Bool.false_eq_true, ↓reduceIte, mintSessionId, huuid, Option.getD_some]
  exact cstring_snprintfInto hs hlen hu

/-- A start of the reconnect loop keeps an id that is there. -/
theorem sessionId_of_reconnecting {s : RtmpStream} (hs : cstring s.beaconSessionId ≠ [])
    {c : StartCall} (hc : c.reconnecting = true) :
    (rtmpStreamStart s c).1.beaconSessionId = s.beaconSessionId := by
  have hhead : (s.beaconSessionId.headD 0 == 0) = false := by
    cases hid : s.beaconSessionId with
    | nil => simp [hid, cstring] at hs
    | cons b rest =>
      by_contra hzero
      simp only [List.headD_cons, Bool.not_eq_false, beq_iff_eq] at hzero
      simp [hid, hzero, cstring] at hs
  simp only [rtmpStreamStart, hc, hhead, Bool.not_true, Bool.or_false, Bool.false_eq_true,
    ↓reduceIte]
  split_ifs <;> rfl

theorem runStarts_take_succ {starts : List StartCall} {k : ℕ} {c : StartCall}
    (hk : starts[k]? = some c) :
    runStarts (starts.take (k + 1)) = (rtmpStreamStart (runStarts (starts.take k)) c).1 := by
  rw [List.take_add_one, hk, runStarts, List.foldl_append]
  rfl

/-- Through its whole reconnect loop a session has the id minted by its first start. -/
theorem sessionId_of_session (r : LibobsStarts) {f k : ℕ} {first : StartCall}
    {u : List UInt8} (hf : r.starts[f]? = some first) (hbegins : first.begins = true)
    (huuid : first.uuid = some u) (hfk : f ≤ k) (hk : k < r.starts.length)
    (hloop : NoFreshStart r.starts f k) :
    cstring (runStarts (r.starts.take (k + 1))).beaconSessionId = u := by
  obtain ⟨u', hu', hne, hlen, hzero⟩ := r.uuid_valid first (List.mem_of_getElem? hf) hbegins
  obtain rfl : u = u' := Option.some.inj (huuid.symm.trans hu')
  induction k, hfk using Nat.le_induction with
  | base =>
    rw [runStarts_take_succ hf]
    exact sessionId_of_begins (length_runStarts _) hbegins huuid hlen hzero
  | succ k hfk ih =>
    have hprev := ih (by omega) fun m c hm hmk => hloop m c hm (by omega)
    have hnext : r.starts[k + 1]? = some r.starts[k + 1] := List.getElem?_eq_getElem hk
    have hkeep := sessionId_of_reconnecting (by rw [hprev]; exact hne)
      (hloop (k + 1) _ (by omega) le_rfl hnext)
    rw [runStarts_take_succ hnext, hkeep, hprev]

/-- The session a connect belongs to. -/
theorem session_of_connect (r : LibobsStarts) {k : ℕ} {a : List UInt8}
    (hk : userArguments r.starts k = some (beaconExtras a)) :
    ∃ f first, r.starts[f]? = some first ∧ first.begins = true ∧ f ≤ k ∧
      k < r.starts.length ∧ first.uuid = some a ∧
      cstring (runStarts (r.starts.take (k + 1))).beaconSessionId = a ∧
      NoFreshStart r.starts f k := by
  obtain ⟨c, hc, hargs⟩ := Option.bind_eq_some_iff.mp hk
  have hlt : k < r.starts.length := (List.getElem?_eq_some_iff.mp hc).1
  simp only [Option.ite_none_right_eq_some, Bool.and_eq_true, Option.some.injEq] at hargs
  obtain ⟨⟨hreturned, -⟩, hextras⟩ := hargs
  have hid : cstring (runStarts (r.starts.take (k + 1))).beaconSessionId = a := by
    rw [runStarts_take_succ hc]
    simpa [tryConnectExtras, beaconExtras, beaconUserProps] using hextras
  have hrefused : c.refused = false := by
    simp only [rtmpStreamStart] at hreturned
    unfold StartCall.refused
    split_ifs at hreturned <;> simp_all
  have hsession : ∃ f first, r.starts[f]? = some first ∧ first.begins = true ∧ f ≤ k ∧
      NoFreshStart r.starts f k := by
    cases hfresh : c.reconnecting with
    | false =>
      refine ⟨k, c, hc, by simp [StartCall.begins, hfresh, hrefused], le_rfl, fun m _ h h' => ?_⟩
      omega
    | true =>
      obtain ⟨f, first, hfk, hf, hbegins, hloop⟩ := r.loop k c hc hfresh
      exact ⟨f, first, hf, hbegins, hfk.le, hloop⟩
  obtain ⟨f, first, hf, hbegins, hfk, hloop⟩ := hsession
  obtain ⟨u, huuid, -⟩ := r.uuid_valid first (List.mem_of_getElem? hf) hbegins
  have hu := sessionId_of_session r hf hbegins huuid hfk hlt hloop
  exact ⟨f, first, hf, hbegins, hfk, hlt, huuid.trans (congrArg some (hu.symm.trans hid)), hid,
    hloop⟩

/-- Two connects carry the same session id exactly if no fresh start lies between them. -/
theorem sessionId_eq_iff (r : LibobsStarts) {i j : ℕ} (hij : i < j) {a b : List UInt8}
    (hi : userArguments r.starts i = some (beaconExtras a))
    (hj : userArguments r.starts j = some (beaconExtras b)) :
    a = b ↔ NoFreshStart r.starts i j := by
  obtain ⟨f, first, hf, hbegins, hfi, -, hfa, -, hloop⟩ := session_of_connect r hi
  obtain ⟨g, second, hg, hbegins', hgj, hlt, hgb, hidb, hloop'⟩ := session_of_connect r hj
  constructor
  · rintro rfl m c him hmj
    obtain rfl := r.uuid_fresh f g first second hf hg hbegins hbegins' (hfa.trans hgb.symm)
    exact hloop' m c (by omega) hmj
  · intro hkeep
    have hida := sessionId_of_session r hf hbegins hfa (by omega) hlt fun m c hfm hmj hm => ?_
    · exact hida.symm.trans hidb
    · by_cases hmi : m ≤ i
      · exact hloop m c hfm hmi hm
      · exact hkeep m c (by omega) hmj hm

/-- A start that connects, its reconnect, and a later start by the user. -/
def twoSessions : List StartCall :=
  [⟨false, true, true, some [0x61], true, true⟩, ⟨true, true, true, none, true, true⟩,
    ⟨false, true, true, some [0x62], true, true⟩]

def twoSessionsStarts : LibobsStarts where
  starts := twoSessions
  loop := by
    intro k c hk hreconnecting
    match k, hk with
    | 0, hk => exact absurd hreconnecting (by rw [← Option.some.inj hk]; decide)
    | 1, _ =>
      refine ⟨0, _, by decide, rfl, rfl, fun m c' hm hm' hc' => ?_⟩
      obtain rfl : m = 1 := by omega
      rw [← Option.some.inj hc']
    | 2, hk => exact absurd hreconnecting (by rw [← Option.some.inj hk]; decide)
  uuid_valid := by
    intro c hc hbegins
    simp only [twoSessions, List.mem_cons, List.not_mem_nil, or_false] at hc
    rcases hc with rfl | rfl | rfl
    · exact ⟨_, rfl, by decide, by decide, List.forall_mem_ne'.mpr (by decide)⟩
    · exact absurd hbegins (by decide)
    · exact ⟨_, rfl, by decide, by decide, List.forall_mem_ne'.mpr (by decide)⟩
  uuid_fresh := by
    intro i j c c' hi hj hbegins hbegins' huuid
    obtain ⟨hilt, rfl⟩ := List.getElem?_eq_some_iff.mp hi
    obtain ⟨hjlt, rfl⟩ := List.getElem?_eq_some_iff.mp hj
    have hlen : twoSessions.length = 3 := rfl
    rw [hlen] at hilt hjlt
    interval_cases i <;> interval_cases j <;> simp_all [twoSessions, StartCall.begins]

theorem sessionId_eq_iff_twoSessions :
    ([0x61] : List UInt8) = [0x61] ↔ NoFreshStart twoSessions 0 1 :=
  sessionId_eq_iff twoSessionsStarts (i := 0) (j := 1) (by decide) rfl rfl

end ObsBeacon.Rtmp
