import ObsBeacon.Lib.Dropping
import ObsBeacon.Libobs
import ObsBeacon.Rtmp.DynamicBitrate

/-! The packets of `rtmp-stream.c` that wait to be sent, and those that are dropped while the
connection is slow. -/
namespace ObsBeacon.Rtmp
open Dropping

/-- `OBS_NAL_PRIORITY_HIGH` and `OBS_NAL_PRIORITY_HIGHEST` of libobs: P-frames that others refer
to, and keyframes. -/
def nalPriorityHigh : ℤ := 2
def nalPriorityHighest : ℤ := 3

def dbrTriggerUsec : ℕ := 200000

/-- The members of `rtmp_stream` around `packets`, with the packets that `drop_frames` has
released since the connection. -/
structure PacketQueue where
  packets : List EncoderPacket := []
  minPriority : ℤ := 0
  lastDtsUsec : ℤ := 0
  droppedFrames : ℕ := 0
  released : List EncoderPacket := []
  dropThresholdUsec : ℤ := 0
  pframeDropThresholdUsec : ℤ := 0
  dbrEnabled : Bool := false
  dbr : Dbr := {}

/-- What `init_connect` reads from the settings of the output and its encoders. -/
structure DropSettings where
  dropThreshold : ℤ
  pframeDropThreshold : ℤ
  dynBitrate : Bool
  capDynBitrate : Bool
  delay : ℕ
  audioBitrate : ℤ
  videoBitrate : ℤ

/-- `init_connect`; the last time stamp is that of the stream before. -/
def PacketQueue.initConnect (q : PacketQueue) (s : DropSettings) : PacketQueue :=
  { q with
    packets := []
    minPriority := 0
    droppedFrames := 0
    released := []
    dropThresholdUsec := 1000 * s.dropThreshold
    pframeDropThresholdUsec := 1000 * max s.pframeDropThreshold (s.dropThreshold + 200)
    dbrEnabled := s.dynBitrate && s.capDynBitrate && s.delay == 0
    dbr := q.dbr.connect s.audioBitrate s.videoBitrate }

/-- The clock when the timer is looked at, when the bitrate goes up and when it goes down. -/
structure DropClock where
  timer : UInt64
  increase : UInt64
  lower : UInt64

/-- Whether `drop_frames` leaves a packet in its place. -/
def spared (highestPriority : ℤ) (p : EncoderPacket) : Bool :=
  p.type = .audio || highestPriority ≤ p.dropPriority

/-- `drop_frames`. -/
def PacketQueue.dropFrames (q : PacketQueue) (highestPriority : ℤ) : PacketQueue :=
  let dropped := q.packets.filter (!spared highestPriority ·)
  { q with
    packets := q.packets.filter (spared highestPriority)
    released := q.released ++ dropped
    minPriority := max q.minPriority highestPriority
    droppedFrames := q.droppedFrames + dropped.length }

/-- `find_first_video_packet`, which passes over keyframes. -/
def PacketQueue.findFirstVideoPacket (q : PacketQueue) : Option EncoderPacket :=
  q.packets.find? fun p => p.type = .video && !p.keyframe

/-- The timer of the dynamic bitrate, at the start of `check_to_drop_frames`. -/
def PacketQueue.checkTimer (q : PacketQueue) (pframes : Bool) (clock : DropClock) : PacketQueue :=
  if !pframes && q.dbrEnabled then
    { q with dbr := q.dbr.step (.timer clock.timer clock.increase) }
  else q

/-- What `check_to_drop_frames` does about a buffer of the given length in microseconds. -/
def PacketQueue.checkDuration (q : PacketQueue) (pframes : Bool) (clock : DropClock)
    (durationUsec : ℤ) : PacketQueue :=
  if q.dbrEnabled then
    if !pframes && dbrTriggerUsec ≤ (durationUsec % 2 ^ 64).toNat then
      { q with dbr := q.dbr.step (.congested clock.lower) }
    else q
  else if (if pframes then q.pframeDropThresholdUsec else q.dropThresholdUsec) < durationUsec then
    q.dropFrames (if pframes then nalPriorityHighest else nalPriorityHigh)
  else q

/-- `check_to_drop_frames`. -/
def PacketQueue.checkToDropFrames (q : PacketQueue) (pframes : Bool) (clock : DropClock) :
    PacketQueue :=
  let q' := q.checkTimer pframes clock
  if q'.packets.length < 5 then q'
  else
    match q'.findFirstVideoPacket with
    | none => q'
    | some first => q'.checkDuration pframes clock (q'.lastDtsUsec - first.dtsUsec)

/-- `add_packet`. -/
def PacketQueue.addPacket (q : PacketQueue) (packet : EncoderPacket) : PacketQueue :=
  { q with packets := q.packets ++ [packet] }

/-- `add_video_packet`: the new state, and whether the packet is queued. -/
def PacketQueue.addVideoPacket (q : PacketQueue) (packet : EncoderPacket) (clock : DropClock) :
    PacketQueue × Bool :=
  let q' := (q.checkToDropFrames false clock).checkToDropFrames true clock
  if packet.dropPriority < q'.minPriority then
    ({ q' with droppedFrames := q'.droppedFrames + 1 }, false)
  else ({ q' with minPriority := 0, lastDtsUsec := packet.dtsUsec }.addPacket packet, true)

/-- The part of `rtmp_stream_data` that holds the lock. -/
def PacketQueue.add (q : PacketQueue) (packet : EncoderPacket) (clock : DropClock) :
    PacketQueue × Bool :=
  match packet.type with
  | .video => q.addVideoPacket packet clock
  | .audio => (q.addPacket packet, true)

/-- `get_next_packet`. -/
def PacketQueue.getNextPacket (q : PacketQueue) : Option EncoderPacket × PacketQueue :=
  (q.packets.head?, { q with packets := q.packets.tail })

/-- The end of `send_thread`: the bitrate is reset, and `free_packets` empties the queue. -/
def PacketQueue.stopped (q : PacketQueue) : PacketQueue :=
  { q with packets := [], dbr := if q.dbrEnabled then q.dbr.step .stop else q.dbr }

/-- What happens to the queue of a stream: an encoder offers a packet, the send thread takes one
and has sent one. -/
inductive QueueEvent where
  | offer (packet : EncoderPacket) (clock : DropClock)
  | next
  | sent (frame : DbrFrame)

/-- The queue with all that was offered and taken so far. -/
structure Traffic where
  queue : PacketQueue
  offered : List EncoderPacket := []
  taken : List EncoderPacket := []

def Traffic.step (t : Traffic) : QueueEvent → Traffic
  | .offer packet clock =>
    { t with queue := (t.queue.add packet clock).1, offered := t.offered ++ [packet] }
  | .next =>
    { t with
      queue := t.queue.getNextPacket.2
      taken := t.taken ++ t.queue.getNextPacket.1.toList }
  | .sent frame =>
    { t with
      queue :=
        if t.queue.dbrEnabled then { t.queue with dbr := t.queue.dbr.step (.sent frame) }
        else t.queue }

def isVideo (p : EncoderPacket) : Bool := p.type = .video

/-- What became of all that was offered to a stream, in the order it was offered. -/
structure Account (q : PacketQueue) (offered taken : List EncoderPacket)
    (log : List (Entry EncoderPacket)) : Prop where
  items : log.map Entry.item = offered
  kept : keptItems log = taken ++ q.packets
  counted : (lostItems log).length = q.droppedFrames
  lost : ∀ p ∈ lostItems log, p.type = .video ∧ p.dropPriority < nalPriorityHighest
  rises : ∀ {pre mid post : List (Entry EncoderPacket)} {d k : EncoderPacket},
    log = pre ++ ⟨d, false⟩ :: (mid ++ ⟨k, true⟩ :: post) →
      (∀ e ∈ mid, e.item.type = .video → e.kept = false) → k.type = .video →
        d.dropPriority < k.dropPriority
  adaptive : q.dbrEnabled = true → (∀ p ∈ offered, 0 ≤ p.dropPriority) → lostItems log = []

/-- The account while the stream runs: the log is split where the send thread has come. -/
structure Split (q : PacketQueue) (offered taken : List EncoderPacket)
    (settled pending : List (Entry EncoderPacket)) : Prop where
  items : (settled ++ pending).map Entry.item = offered
  taken : keptItems settled = taken
  waiting : keptItems pending = q.packets
  counted : (lostItems (settled ++ pending)).length = q.droppedFrames
  lost : ∀ p ∈ lostItems (settled ++ pending), p.type = .video ∧ p.dropPriority < nalPriorityHighest
  covered : Covered isVideo EncoderPacket.dropPriority q.minPriority (settled ++ pending)
  bound : q.minPriority ≤ nalPriorityHighest
  adaptive : q.dbrEnabled = true →
    q.minPriority = 0 ∧ ((∀ p ∈ offered, 0 ≤ p.dropPriority) → lostItems (settled ++ pending) = [])

theorem checkDuration_cases {q q' : PacketQueue} {dbr : Dbr} (hq : q' = { q with dbr := dbr })
    (hsame : q.dbrEnabled = false → q' = q) (pframes : Bool) (clock : DropClock) (duration : ℤ) :
    (∃ dbr, q'.checkDuration pframes clock duration = { q with dbr := dbr }) ∨
      q.dbrEnabled = false ∧ ∃ h ≤ nalPriorityHighest,
        q'.checkDuration pframes clock duration = q.dropFrames h := by
  rcases Bool.eq_false_or_eq_true q.dbrEnabled with hon | hoff
  · left
    rw [hq, PacketQueue.checkDuration, if_pos hon]
    split_ifs
    · exact ⟨_, rfl⟩
    · exact ⟨dbr, rfl⟩
  · rw [hsame hoff, PacketQueue.checkDuration, if_neg (by rw [hoff]; exact nofun)]
    by_cases hlong : (if pframes then q.pframeDropThresholdUsec else q.dropThresholdUsec) < duration
    · refine .inr ⟨hoff, _, ?_, if_pos hlong⟩
      cases pframes <;> decide
    · exact .inl ⟨q.dbr, if_neg hlong⟩

/-- What `check_to_drop_frames` can do to the packets. -/
theorem checkToDropFrames_cases (q : PacketQueue) (pframes : Bool) (clock : DropClock) :
    (∃ dbr, q.checkToDropFrames pframes clock = { q with dbr := dbr }) ∨
      q.dbrEnabled = false ∧ ∃ h ≤ nalPriorityHighest,
        q.checkToDropFrames pframes clock = q.dropFrames h := by
  have htimer : (∃ dbr, q.checkTimer pframes clock = { q with dbr := dbr }) ∧
      (q.dbrEnabled = false → q.checkTimer pframes clock = q) := by
    rw [PacketQueue.checkTimer]
    split_ifs with hon
    · exact ⟨⟨_, rfl⟩, fun hoff => by simp [hoff] at hon⟩
    · exact ⟨⟨q.dbr, rfl⟩, fun _ => rfl⟩
  obtain ⟨⟨dbr, hq⟩, hsame⟩ := htimer
  rw [PacketQueue.checkToDropFrames]
  by_cases hfew : (q.checkTimer pframes clock).packets.length < 5
  · exact .inl ⟨dbr, (if_pos hfew).trans hq⟩
  rw [if_neg hfew]
  cases (q.checkTimer pframes clock).findFirstVideoPacket with
  | none => exact .inl ⟨dbr, hq⟩
  | some first =>
    exact checkDuration_cases hq hsame pframes clock _

theorem isVideo_iff {p : EncoderPacket} : isVideo p = true ↔ p.type = .video := decide_eq_true_iff

section Split
variable {q : PacketQueue} {offered taken : List EncoderPacket}
  {settled pending : List (Entry EncoderPacket)}

theorem waiting_dropFrames (hwaiting : keptItems pending = q.packets) (h : ℤ) :
    keptItems (drop isVideo EncoderPacket.dropPriority h pending) = (q.dropFrames h).packets := by
  rw [keptItems_drop, hwaiting]
  refine List.filter_congr fun p _ => ?_
  rw [below, isVideo, spared, Bool.eq_iff_iff]
  cases p.type <;> simp

/-- Dropping what waits keeps the account. -/
theorem Split.dropFrames (hs : Split q offered taken settled pending)
    (hoff : q.dbrEnabled = false) {h : ℤ} (hh : h ≤ nalPriorityHighest) :
    Split (q.dropFrames h) offered taken settled
      (drop isVideo EncoderPacket.dropPriority h pending) := by
  have hwaiting := waiting_dropFrames hs.waiting h
  have hm : q.minPriority ≤ max q.minPriority h := le_max_left _ _
  have hh' : h ≤ max q.minPriority h := le_max_right _ _
  refine
    { items := ?_, taken := hs.taken, waiting := hwaiting, counted := ?_, lost := ?_, covered := ?_,
      bound := max_le hs.bound hh, adaptive := fun hon => absurd (hoff.symm.trans hon) nofun }
  · rw [List.map_append, items_drop, ← List.map_append, hs.items]
  · have hold := length_keptItems_add pending
    have hnew := length_keptItems_add (drop isVideo EncoderPacket.dropPriority h pending)
    have hcounted := hs.counted
    have hparts : q.packets.length =
        (q.dropFrames h).packets.length + (q.packets.filter (!spared h ·)).length :=
      List.length_eq_length_filter_add _
    have hdropped : (q.dropFrames h).droppedFrames =
        q.droppedFrames + (q.packets.filter (!spared h ·)).length := rfl
    rw [hs.waiting] at hold
    rw [hwaiting, length_drop] at hnew
    rw [lostItems_append, List.length_append] at hcounted ⊢
    omega
  · intro p hp
    rw [lostItems_append, List.mem_append] at hp
    have hlost := hs.lost p
    rw [lostItems_append, List.mem_append] at hlost
    rcases hp with hp | hp
    · exact hlost (.inl hp)
    · rcases of_mem_lostItems_drop hp with hp | hp
      · exact hlost (.inr hp)
      · obtain ⟨hvideo, hlt⟩ := below_iff.mp hp
        exact ⟨isVideo_iff.mp hvideo, hlt.trans_le hh⟩
  · obtain ⟨hsettled, hpending⟩ := covered_append.mp hs.covered
    exact covered_append.mpr
      ⟨hsettled.mono (next_le_next_drop hm hh' pending), hpending.drop hm hh'⟩

theorem Split.setDbr (hs : Split q offered taken settled pending) (dbr : Dbr) :
    Split { q with dbr := dbr } offered taken settled pending :=
  ⟨hs.items, hs.taken, hs.waiting, hs.counted, hs.lost, hs.covered, hs.bound, hs.adaptive⟩

theorem Split.checkToDropFrames (hs : Split q offered taken settled pending) (pframes : Bool)
    (clock : DropClock) :
    ∃ pending', Split (q.checkToDropFrames pframes clock) offered taken settled pending' := by
  obtain ⟨dbr, hq⟩ | ⟨hoff, h, hh, hq⟩ := checkToDropFrames_cases q pframes clock
  · exact ⟨pending, hq ▸ hs.setDbr dbr⟩
  · exact ⟨_, hq ▸ hs.dropFrames hoff hh⟩

/-- A packet that is queued. -/
theorem Split.keep (hs : Split q offered taken settled pending) {p : EncoderPacket}
    {q' : PacketQueue} (hpackets : q'.packets = q.packets ++ [p])
    (hdropped : q'.droppedFrames = q.droppedFrames) (hdbr : q'.dbrEnabled = q.dbrEnabled)
    (hcovered : Covered isVideo EncoderPacket.dropPriority q'.minPriority
      (settled ++ pending ++ [⟨p, true⟩]))
    (hmin : q'.minPriority = q.minPriority ∨ q'.minPriority = 0) :
    Split q' (offered ++ [p]) taken settled (pending ++ [⟨p, true⟩]) := by
  refine
    { items := ?_, taken := hs.taken, waiting := ?_, counted := ?_, lost := ?_, covered := ?_,
      bound := ?_, adaptive := fun hon => ?_ }
  · rw [← List.append_assoc, List.map_append, hs.items]
    rfl
  · rw [keptItems_append, hs.waiting, hpackets]
    rfl
  · rw [← List.append_assoc, lostItems_append, lostItems_kept, List.append_nil, hs.counted,
      hdropped]
  · rw [← List.append_assoc, lostItems_append, lostItems_kept, List.append_nil]
    exact hs.lost
  · rw [← List.append_assoc]
    exact hcovered
  · rcases hmin with hmin | hmin
    · exact hmin ▸ hs.bound
    · rw [hmin]
      decide
  · obtain ⟨hzero, hnone⟩ := hs.adaptive (hdbr ▸ hon)
    refine ⟨hmin.elim (·.trans hzero) id, fun hpos => ?_⟩
    rw [← List.append_assoc, lostItems_append, lostItems_kept, List.append_nil]
    exact hnone fun x hx => hpos x (List.mem_append_left _ hx)

/-- A video packet that is not queued. -/
theorem Split.lose (hs : Split q offered taken settled pending) {p : EncoderPacket}
    (hvideo : p.type = .video) (hlow : p.dropPriority < q.minPriority) :
    Split { q with droppedFrames := q.droppedFrames + 1 } (offered ++ [p]) taken settled
      (pending ++ [⟨p, false⟩]) := by
  have hlost : lostItems (settled ++ pending ++ [⟨p, false⟩]) =
      lostItems (settled ++ pending) ++ [p] := by
    rw [lostItems_append, lostItems_lost]
  refine
    { items := ?_, taken := hs.taken, waiting := ?_, counted := ?_, lost := ?_, covered := ?_,
      bound := hs.bound, adaptive := fun hon => ?_ }
  · rw [← List.append_assoc, List.map_append, hs.items]
    rfl
  · rw [keptItems_append, hs.waiting, keptItems_lost, List.append_nil]
  · rw [← List.append_assoc, hlost, List.length_append, hs.counted]
    rfl
  · intro x hx
    rw [← List.append_assoc, hlost, List.mem_append, List.mem_singleton] at hx
    rcases hx with hx | rfl
    · exact hs.lost x hx
    · exact ⟨hvideo, hlow.trans_le hs.bound⟩
  · rw [← List.append_assoc]
    exact hs.covered.lose hlow (isVideo_iff.mpr hvideo)
  · obtain ⟨hzero, -⟩ := hs.adaptive hon
    refine ⟨hzero, fun hpos => absurd hlow ?_⟩
    have hp : 0 ≤ p.dropPriority := hpos p (List.mem_append_right _ List.mem_cons_self)
    omega

theorem Split.addPacket (hs : Split q offered taken settled pending) {p : EncoderPacket}
    (haudio : p.type = .audio) :
    Split (q.addPacket p) (offered ++ [p]) taken settled (pending ++ [⟨p, true⟩]) := by
  have hother : isVideo p = false := by
    rw [isVideo, haudio]
    rfl
  exact hs.keep rfl rfl rfl (hs.covered.pass hother) (.inl rfl)

theorem Split.addVideoPacket (hs : Split q offered taken settled pending) {p : EncoderPacket}
    (hvideo : p.type = .video) (clock : DropClock) :
    ∃ pending', Split (q.addVideoPacket p clock).1 (offered ++ [p]) taken settled pending' := by
  obtain ⟨pending₁, hs₁⟩ := hs.checkToDropFrames false clock
  obtain ⟨pending₂, hs₂⟩ := hs₁.checkToDropFrames true clock
  rw [PacketQueue.addVideoPacket]
  generalize (q.checkToDropFrames false clock).checkToDropFrames true clock = q' at hs₂ ⊢
  by_cases hlow : p.dropPriority < q'.minPriority
  · rw [if_pos hlow]
    exact ⟨_, hs₂.lose hvideo hlow⟩
  · rw [if_neg hlow]
    exact ⟨_, hs₂.keep rfl rfl rfl
      (hs₂.covered.keep (not_lt.mp hlow) (isVideo_iff.mpr hvideo) 0) (.inr rfl)⟩

theorem Split.add (hs : Split q offered taken settled pending) (p : EncoderPacket)
    (clock : DropClock) :
    ∃ pending', Split (q.add p clock).1 (offered ++ [p]) taken settled pending' := by
  rw [PacketQueue.add]
  split
  · next hvideo => exact hs.addVideoPacket hvideo clock
  · next haudio => exact ⟨_, hs.addPacket haudio⟩

/-- The packet taken is the first kept one, and the log is split behind it. -/
theorem Split.getNextPacket (hs : Split q offered taken settled pending) :
    ∃ settled' pending', Split q.getNextPacket.2 offered (taken ++ q.getNextPacket.1.toList)
      settled' pending' := by
  cases hpackets : q.packets with
  | nil =>
    refine ⟨settled, pending, ?_⟩
    have hnone : q.getNextPacket.1 = none := by rw [PacketQueue.getNextPacket, hpackets]; rfl
    have hsame : q.getNextPacket.2.packets = q.packets := by
      rw [PacketQueue.getNextPacket, hpackets]
      rfl
    rw [hnone, Option.toList_none, List.append_nil]
    exact ⟨hs.items, hs.taken, hs.waiting.trans hsame.symm, hs.counted, hs.lost, hs.covered,
      hs.bound, hs.adaptive⟩
  | cons p ps =>
    obtain ⟨pre, rest, rfl, hpre, hrest⟩ := exists_of_keptItems_cons (hs.waiting.trans hpackets)
    have hsome : q.getNextPacket.1 = some p := by rw [PacketQueue.getNextPacket, hpackets]; rfl
    have htail : q.getNextPacket.2.packets = ps := by rw [PacketQueue.getNextPacket, hpackets]; rfl
    have hlog : settled ++ (pre ++ ⟨p, true⟩ :: rest) = settled ++ pre ++ [⟨p, true⟩] ++ rest := by
      simp only [List.append_assoc, List.singleton_append]
    refine ⟨settled ++ pre ++ [⟨p, true⟩], rest,
      { items := hlog ▸ hs.items, taken := ?_, waiting := hrest.trans htail.symm,
        counted := hlog ▸ hs.counted, lost := hlog ▸ hs.lost, covered := hlog ▸ hs.covered,
        bound := hs.bound, adaptive := hlog ▸ hs.adaptive }⟩
    rw [keptItems_append, keptItems_append, hs.taken, hpre, List.append_nil, hsome]
    rfl

theorem Split.sent (hs : Split q offered taken settled pending) (frame : DbrFrame) :
    Split (if q.dbrEnabled then { q with dbr := q.dbr.step (.sent frame) } else q) offered taken
      settled pending := by
  split_ifs
  · exact hs.setDbr _
  · exact hs

/-- The end of the stream settles all that waits. -/
theorem Split.stopped (hs : Split q offered taken settled pending) :
    Split q.stopped offered (taken ++ q.packets) (settled ++ pending) [] := by
  have hlog : settled ++ pending = settled ++ pending ++ [] := (List.append_nil _).symm
  refine
    { items := hlog ▸ hs.items, taken := ?_, waiting := rfl, counted := hlog ▸ hs.counted,
      lost := hlog ▸ hs.lost, covered := hlog ▸ hs.covered, bound := hs.bound,
      adaptive := hlog ▸ hs.adaptive }
  rw [keptItems_append, hs.taken, hs.waiting]

theorem Split.account (hs : Split q offered taken settled pending) :
    Account q offered taken (settled ++ pending) :=
  { items := hs.items
    kept := by rw [keptItems_append, hs.taken, hs.waiting]
    counted := hs.counted
    lost := hs.lost
    rises := fun hsplit hmid hk =>
      hs.covered.lt hsplit (fun e he hvideo => hmid e he (isVideo_iff.mp hvideo))
        (isVideo_iff.mpr hk)
    adaptive := fun hon => (hs.adaptive hon).2 }

end Split

section Conserve
variable {q : PacketQueue}

/-- Dropping moves packets from the queue to those released. -/
theorem checkToDropFrames_perm (q : PacketQueue) (pframes : Bool) (clock : DropClock) :
    ((q.checkToDropFrames pframes clock).packets ++
      (q.checkToDropFrames pframes clock).released).Perm (q.packets ++ q.released) := by
  obtain ⟨dbr, hq⟩ | ⟨-, h, -, hq⟩ := checkToDropFrames_cases q pframes clock
  · rw [hq]
  · rw [hq]
    show (q.packets.filter (spared h) ++
      (q.released ++ q.packets.filter (!spared h ·))).Perm (q.packets ++ q.released)
    have hparts := List.filter_append_perm (spared h) q.packets
    refine (List.perm_append_comm.append_left _).trans ?_
    rw [← List.append_assoc]
    exact hparts.append_right _

/-- No packet is lost track of: each waits, is released, or goes back to its caller. -/
theorem add_perm (q : PacketQueue) (p : EncoderPacket) (clock : DropClock) :
    ((q.add p clock).1.packets ++ (q.add p clock).1.released ++
      if (q.add p clock).2 then [] else [p]).Perm (q.packets ++ q.released ++ [p]) := by
  have hkeep : ∀ q' : PacketQueue,
      (q'.packets ++ [p] ++ q'.released ++ []).Perm (q'.packets ++ q'.released ++ [p]) := by
    intro q'
    rw [List.append_nil, List.append_assoc, List.append_assoc]
    exact List.perm_append_comm.append_left _
  rw [PacketQueue.add]
  split
  · have hcheck := (checkToDropFrames_perm (q.checkToDropFrames false clock) true clock).trans
      (checkToDropFrames_perm q false clock)
    rw [PacketQueue.addVideoPacket]
    generalize (q.checkToDropFrames false clock).checkToDropFrames true clock = q' at hcheck ⊢
    by_cases hlow : p.dropPriority < q'.minPriority
    · rw [if_pos hlow]
      exact hcheck.append_right _
    · rw [if_neg hlow]
      exact (hkeep q').trans (hcheck.append_right _)
  · exact hkeep q

theorem checkToDropFrames_length (q : PacketQueue) (pframes : Bool) (clock : DropClock) :
    (q.checkToDropFrames pframes clock).packets.length ≤ q.packets.length := by
  obtain ⟨dbr, hq⟩ | ⟨-, h, -, hq⟩ := checkToDropFrames_cases q pframes clock
  · rw [hq]
  · rw [hq]
    exact List.length_filter_le _ _

theorem add_length (q : PacketQueue) (p : EncoderPacket) (clock : DropClock) :
    (q.add p clock).1.packets.length ≤
      q.packets.length + if (q.add p clock).2 then 1 else 0 := by
  rw [PacketQueue.add]
  split
  · have hcheck := (checkToDropFrames_length (q.checkToDropFrames false clock) true clock).trans
      (checkToDropFrames_length q false clock)
    rw [PacketQueue.addVideoPacket]
    generalize (q.checkToDropFrames false clock).checkToDropFrames true clock = q' at hcheck ⊢
    by_cases hlow : p.dropPriority < q'.minPriority
    · rw [if_pos hlow]
      exact hcheck
    · rw [if_neg hlow]
      have hadd : (q'.packets ++ [p]).length = q'.packets.length + 1 := List.length_append
      exact hadd.trans_le (Nat.add_le_add_right hcheck 1)
  · exact List.length_append.le

end Conserve

section Bitrate
variable {q : PacketQueue}

theorem sound_checkToDropFrames (h : q.dbr.Sound) (pframes : Bool) (clock : DropClock) :
    (q.checkToDropFrames pframes clock).dbr.Sound := by
  have htimer : (q.checkTimer pframes clock).dbr.Sound := by
    rw [PacketQueue.checkTimer]
    split_ifs
    · exact h.after (.timer clock.timer clock.increase) trivial
    · exact h
  rw [PacketQueue.checkToDropFrames]
  generalize q.checkTimer pframes clock = q' at htimer ⊢
  by_cases hfew : q'.packets.length < 5
  · rw [if_pos hfew]
    exact htimer
  rw [if_neg hfew]
  cases q'.findFirstVideoPacket with
  | none => exact htimer
  | some first =>
    simp only [PacketQueue.checkDuration]
    split_ifs
    · exact htimer.after (.congested clock.lower) trivial
    all_goals exact htimer

theorem sound_add (h : q.dbr.Sound) (p : EncoderPacket) (clock : DropClock) :
    (q.add p clock).1.dbr.Sound := by
  rw [PacketQueue.add]
  split
  · have hcheck := sound_checkToDropFrames (sound_checkToDropFrames h false clock) true clock
    rw [PacketQueue.addVideoPacket]
    split_ifs <;> exact hcheck
  · exact h

theorem sound_step {t : Traffic} (h : t.queue.dbr.Sound) (e : QueueEvent) :
    (t.step e).queue.dbr.Sound := by
  cases e with
  | offer p clock => exact sound_add h p clock
  | next => exact h
  | sent frame =>
    simp only [Traffic.step]
    split_ifs
    · exact h.after (.sent frame) trivial
    · exact h

end Bitrate

/-- While a stream runs, its bitrates stay in order. -/
theorem traffic_ordered {q : PacketQueue} {s : DropSettings} (h : q.dbr.Sound)
    (hfresh : q.dbr.Fresh (.connect s.audioBitrate s.videoBitrate)) (es : List QueueEvent) :
    (es.foldl Traffic.step { queue := q.initConnect s }).queue.dbr.Ordered := by
  have hconnect : (q.initConnect s).dbr.Sound := h.after _ hfresh
  have hrun : ∀ t : Traffic, t.queue.dbr.Sound → (es.foldl Traffic.step t).queue.dbr.Sound := by
    induction es with
    | nil => exact fun t ht => ht
    | cons e es ih => exact fun t ht => ih (t.step e) (sound_step ht e)
  exact (hrun { queue := q.initConnect s } hconnect).ordered

/-- The account is kept, whatever the encoders and the send thread do. -/
theorem split_step {t : Traffic} {settled pending : List (Entry EncoderPacket)}
    (hs : Split t.queue t.offered t.taken settled pending) (e : QueueEvent) :
    ∃ settled' pending', Split (t.step e).queue (t.step e).offered (t.step e).taken
      settled' pending' := by
  cases e with
  | offer p clock => exact ⟨settled, hs.add p clock⟩
  | next => exact hs.getNextPacket
  | sent frame => exact ⟨settled, pending, hs.sent frame⟩

theorem split_run {t : Traffic} {settled pending : List (Entry EncoderPacket)}
    (hs : Split t.queue t.offered t.taken settled pending) (es : List QueueEvent) :
    ∃ settled' pending', Split (es.foldl Traffic.step t).queue (es.foldl Traffic.step t).offered
      (es.foldl Traffic.step t).taken settled' pending' := by
  induction es generalizing t settled pending with
  | nil => exact ⟨settled, pending, hs⟩
  | cons e es ih =>
    obtain ⟨settled', pending', hs'⟩ := split_step hs e
    exact ih hs'

theorem split_initConnect (q : PacketQueue) (s : DropSettings) :
    Split (q.initConnect s) [] [] [] [] :=
  ⟨rfl, rfl, rfl, rfl, fun _ hp => (nomatch hp), trivial, Int.zero_le_ofNat 3,
    fun _ => ⟨rfl, fun _ => rfl⟩⟩

/-- From every connection on, all packets are accounted for: what the send thread has taken and
what waits is what was offered, in order, less the dropped frames that are counted; none of these
is audio or a keyframe, and after each of them the next frame kept has a higher priority. -/
theorem traffic_accounted (q : PacketQueue) (s : DropSettings) (es : List QueueEvent) :
    let t := es.foldl Traffic.step { queue := q.initConnect s }
    ∃ log, Account t.queue t.offered t.taken log := by
  obtain ⟨settled, pending, hs⟩ :=
    split_run (t := { queue := q.initConnect s }) (split_initConnect q s) es
  exact ⟨settled ++ pending, hs.account⟩

end ObsBeacon.Rtmp
