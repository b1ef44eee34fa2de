import ObsBeacon.Lib.RefHeap
import ObsBeacon.PacketProbe.SeiRoundTrip

/-! `injectSei` on packet data that several holders share: the data blocks of libobs, a `long`
reference count in front of the bytes. -/
namespace ObsBeacon.PacketProbe
open RefHeap

abbrev Blocks := Heap (List UInt8)

/-- The two fields of a packet that `injectSei` replaces. -/
structure PacketData where
  data : Ptr
  size : ℕ

section Layout
/- The size of the count in front of the data. -/
variable (sizeofLong : ℕ)

/-- `injectSei` step by step. The last two lines before the swap mirror
`obs_encoder_packet_release`. -/
def injectSeiOnHeap (h : Blocks) (pkt : PacketData) (tEncodeMs sourceLatencyMs : UInt64) :
    Option (Blocks × PacketData) :=
  let printed := snprintf 128 (seiJson tEncodeMs sourceLatencyMs)
  if printed.2 = 0 then some (h, pkt)
  else do
    let sei := seiUnit printed.1 printed.2
    let newSize := sei.length + pkt.size
    let (block, h) := alloc h
    let h ← setCount h block 1
    let nd := block.add sizeofLong
    let h ← store sizeofLong h nd sei
    let (d, h) ← load sizeofLong h pkt.data
    -- `memcpy` of more bytes than the block holds
    if d.length < pkt.size then none
    else do
      let h ← store sizeofLong h nd (sei ++ d.take pkt.size)
      let origRefs := pkt.data.sub sizeofLong
      let (refs, h) ← decCount h origRefs
      let h ← if refs = 0 then free h origRefs else some h
      return (h, ⟨nd, newSize⟩)

/-- The packets that hold references, with the heap of their blocks. -/
structure Shared where
  heap : Blocks
  packets : List PacketData

inductive Action where
  | inject (i : ℕ) (tEncodeMs sourceLatencyMs : UInt64)
  | release (i : ℕ)

/-- One packet gets an SEI, or one holder gives its packet up; no packet has another index. -/
def Shared.act (w : Shared) : Action → Option Shared
  | .inject i tEncodeMs sourceLatencyMs =>
    match w.packets[i]? with
    | none => some w
    | some pkt =>
      (injectSeiOnHeap sizeofLong w.heap pkt tEncodeMs sourceLatencyMs).map fun r =>
        ⟨r.1, w.packets.set i r.2⟩
  | .release i =>
    match w.packets[i]? with
    | none => some w
    | some pkt =>
      (RefHeap.release sizeofLong w.heap pkt.data).map fun h => ⟨h, w.packets.eraseIdx i⟩

/-- The invariant: counts are balanced, and a packet's size is that of its data. -/
structure Owned (w : Shared) : Prop where
  balanced : Balanced sizeofLong w.heap (w.packets.map (·.data))
  size : ∀ pkt ∈ w.packets, ∀ n d, w.heap.cells[pkt.data.block]? = some (.live n (some d)) →
    pkt.size = d.length

variable {sizeofLong} {h : Blocks} {pkt : PacketData} {n : ℤ} {d : List UInt8}

/-- The heap once the new block of `injectSei` is complete. -/
def copied (h : Blocks) (orig : ℕ) (new : List UInt8) : Blocks :=
  ⟨h.cells ++ [.live 1 (some new)],
    h.trace ++ [.alloc h.cells.length, .count h.cells.length, .write h.cells.length, .read orig,
      .write h.cells.length]⟩

/-- The three writes to a block that was allocated last. -/
theorem setCount_last {c : Cell (List UInt8)} {cells : List (Cell (List UInt8))}
    {trace : List Access} {data : Option (List UInt8)} {m : ℤ} (hc : c = .live m data) :
    setCount ⟨cells ++ [c], trace⟩ ⟨cells.length, 0⟩ 1 =
      some ⟨cells ++ [.live 1 data], trace ++ [.count cells.length]⟩ := by
  subst hc
  rw [setCount, onLive_eq List.getElem?_concat_length, access_last rfl]

theorem store_last {cells : List (Cell (List UInt8))} {trace : List Access}
    {data : Option (List UInt8)} {m : ℤ} (new : List UInt8) :
    store sizeofLong ⟨cells ++ [Cell.live m data], trace⟩ ⟨cells.length, sizeofLong⟩ new =
      some ⟨cells ++ [Cell.live m (some new)], trace ++ [Access.write cells.length]⟩ := by
  rw [store, onLive_eq List.getElem?_concat_length, access_last rfl]

/-- The decrement and the free at zero of `injectSei` are a release. -/
theorem release_map {β : Type*} (h : Blocks) (p : Ptr) (k : Blocks → β) :
    ((decCount h (p.sub sizeofLong)).bind fun dropped =>
        if dropped.1 = 0 then
          (free dropped.2 (p.sub sizeofLong)).bind fun h => some (k h)
        else some (k dropped.2)) =
      (release sizeofLong h p).map k := by
  rw [release]
  cases decCount h (p.sub sizeofLong) with
  | none => rfl
  | some dropped =>
    by_cases hzero : dropped.1 = 0
    · simp [hzero, Option.map_eq_bind]
    · simp [hzero]

theorem injectSeiOnHeap_eq (hc : h.cells[pkt.data.block]? = some (.live n (some d)))
    (ho : pkt.data.offset = sizeofLong) (hs : pkt.size = d.length) (t s : UInt64) :
    injectSeiOnHeap sizeofLong h pkt t s =
      some (released (copied h pkt.data.block (([0, 0, 0, 1] ++ seiNal t s) ++ d))
          pkt.data.block n d,
        ⟨⟨h.cells.length, sizeofLong⟩, (([0, 0, 0, 1] ++ seiNal t s) ++ d).length⟩) := by
  have hpos := seiJson_length_pos t s
  have hlt : pkt.data.block < h.cells.length := (List.getElem?_eq_some_iff.mp hc).1
  have hdata : pkt.data = ⟨pkt.data.block, sizeofLong⟩ := by rw [← ho]
  have hold (c : Cell (List UInt8)) :
      (h.cells ++ [c])[pkt.data.block]? = some (.live n (some d)) := by
    rw [List.getElem?_append_left hlt, hc]
  have hload (c : Cell (List UInt8)) (trace : List Access) :
      load sizeofLong ⟨h.cells ++ [c], trace⟩ pkt.data =
        some (d, ⟨h.cells ++ [c], trace ++ [.read pkt.data.block]⟩) := by
    rw [load, hdata, onLive_eq (hold c)]
    rfl
  have hrelease : release sizeofLong (copied h pkt.data.block (([0, 0, 0, 1] ++ seiNal t s) ++ d))
      pkt.data = some (released (copied h pkt.data.block (([0, 0, 0, 1] ++ seiNal t s) ++ d))
        pkt.data.block n d) := release_eq (hold _) ho
  unfold injectSeiOnHeap
  simp only [snprintf_seiJson, seiUnit_eq, alloc, Ptr.add, Nat.zero_add]
  rw [if_neg (by omega), setCount_last rfl]
  simp only [Option.bind_eq_bind, Option.bind_some, store_last, hload, hs, lt_irrefl, if_false,
    List.take_length]
  have hcopied (new : List UInt8) : (⟨h.cells ++ [Cell.live 1 (some new)],
      h.trace ++ [Access.alloc h.cells.length] ++ [Access.count h.cells.length] ++
        [Access.write h.cells.length] ++ [Access.read pkt.data.block] ++
        [Access.write h.cells.length]⟩ : Blocks) = copied h pkt.data.block new := by
    simp [copied]
  rw [hcopied, ← List.length_append]
  exact (release_map _ pkt.data fun h' => (h', _)).trans (by rw [hrelease]; rfl)

section Run
variable {w : Shared} {i : ℕ}

theorem copied_harmless (hc : h.cells[pkt.data.block]? = some (.live n (some d))) :
    Harmless h [.alloc h.cells.length, .count h.cells.length, .write h.cells.length,
      .read pkt.data.block, .write h.cells.length] := by
  intro x hx
  simp only [List.mem_cons, List.not_mem_nil, or_false] at hx
  rcases hx with rfl | rfl | rfl | rfl | rfl
  · exact ⟨by simp, Or.inl rfl⟩
  · exact ⟨by simp, Or.inl rfl⟩
  · exact ⟨by simp, Or.inl rfl⟩
  · exact ⟨by simp, Or.inr ⟨_, _, hc⟩⟩
  · exact ⟨by simp, Or.inl rfl⟩

theorem Owned.get (hw : Owned sizeofLong w) (hi : w.packets[i]? = some pkt) :
    (∃ n d, w.heap.cells[pkt.data.block]? = some (.live n (some d)) ∧ pkt.size = d.length) ∧
      pkt.data.offset = sizeofLong := by
  have hmem : pkt ∈ w.packets := List.mem_of_getElem? hi
  have hdata : pkt.data ∈ w.packets.map (·.data) := List.mem_map_of_mem hmem
  obtain ⟨n, d, hc⟩ := hw.balanced.held _ hdata
  exact ⟨⟨n, d, hc, hw.size pkt hmem n d hc⟩, hw.balanced.offset _ hdata⟩

/-- The holders without the one at `i`. -/
theorem map_data_perm (hi : w.packets[i]? = some pkt) :
    (w.packets.map (·.data)).Perm (pkt.data :: (w.packets.eraseIdx i).map (·.data)) := by
  obtain ⟨hlt, rfl⟩ := List.getElem?_eq_some_iff.mp hi
  exact (List.getElem_cons_eraseIdx_perm hlt).symm.map _

theorem Owned.release (hw : Owned sizeofLong w) (i : ℕ) :
    ∃ w', w.act sizeofLong (.release i) = some w' ∧ Owned sizeofLong w' := by
  simp only [Shared.act]
  cases hi : w.packets[i]? with
  | none => exact ⟨w, rfl, hw⟩
  | some pkt =>
    obtain ⟨n, d, hc, hrelease, hrest⟩ := (hw.balanced.perm (map_data_perm hi)).release
    dsimp only
    rw [hrelease]
    refine ⟨_, rfl, hrest, fun q hq m e he => ?_⟩
    obtain ⟨m', he'⟩ := released_data hc he
    exact hw.size q (List.mem_of_mem_eraseIdx hq) m' e he'

theorem Owned.inject (hw : Owned sizeofLong w) (i : ℕ) (t s : UInt64) :
    ∃ w', w.act sizeofLong (.inject i t s) = some w' ∧ Owned sizeofLong w' := by
  simp only [Shared.act]
  cases hi : w.packets[i]? with
  | none => exact ⟨w, rfl, hw⟩
  | some pkt =>
    obtain ⟨⟨n, d, hc, hsize⟩, ho⟩ := hw.get hi
    have hlt : i < w.packets.length := (List.getElem?_eq_some_iff.mp hi).1
    have hblock : pkt.data.block < w.heap.cells.length := (List.getElem?_eq_some_iff.mp hc).1
    dsimp only
    rw [injectSeiOnHeap_eq hc ho hsize]
    generalize ([0, 0, 0, 1] ++ seiNal t s) ++ d = new
    have hold : (copied w.heap pkt.data.block new).cells[pkt.data.block]? =
        some (.live n (some d)) := (List.getElem?_append_left hblock).trans hc
    have hpub : Balanced sizeofLong (copied w.heap pkt.data.block new)
        (⟨w.heap.cells.length, sizeofLong⟩ :: w.packets.map (·.data)) :=
      hw.balanced.publish new (copied_harmless hc)
    have hswap := hpub.perm (((map_data_perm hi).cons _).trans (List.Perm.swap _ _ _))
    refine ⟨_, rfl, ?_, ?_⟩
    · apply (hswap.released hold).perm
      exact (List.set_perm_cons_eraseIdx hlt
        (⟨⟨w.heap.cells.length, sizeofLong⟩, new.length⟩ : PacketData)).symm.map PacketData.data
    · intro q hq m e he
      obtain ⟨m', he'⟩ := released_data hold he
      rcases List.mem_or_eq_of_mem_set hq with hq | rfl
      · have hq' := hw.balanced.held _ (List.mem_map_of_mem hq)
        obtain ⟨k, x, hx⟩ := hq'
        have hqlt : q.data.block < w.heap.cells.length := (List.getElem?_eq_some_iff.mp hx).1
        exact hw.size q hq m' e ((List.getElem?_append_left hqlt).symm.trans he')
      · have hnew : (copied w.heap pkt.data.block new).cells[w.heap.cells.length]? =
            some (.live 1 (some new)) := List.getElem?_concat_length
        rw [hnew] at he'
        cases he'
        rfl

theorem Owned.act (hw : Owned sizeofLong w) (action : Action) :
    ∃ w', w.act sizeofLong action = some w' ∧ Owned sizeofLong w' := by
  cases action with
  | inject i t s => exact hw.inject i t s
  | release i => exact hw.release i

theorem Owned.run (hw : Owned sizeofLong w) (actions : List Action) :
    ∃ w', actions.foldlM (Shared.act sizeofLong) w = some w' ∧ Owned sizeofLong w' := by
  induction actions generalizing w with
  | nil => exact ⟨w, rfl, hw⟩
  | cons action actions ih =>
    obtain ⟨w₁, hact, hw₁⟩ := hw.act action
    obtain ⟨w', hrun, hw'⟩ := ih hw₁
    exact ⟨w', by simp [hact, hrun], hw'⟩

end Run
end Layout

/-- One injection copies the data before it gives up its reference, leaves every other block
and the other holders' bytes alone, and frees the block exactly if it held the last one. From
any balanced state, injections and releases in any order go through, and once each holder
left has released its packet, every block has been freed once and not touched again. -/
theorem injectSei_copyOnWrite (sizeofLong : ℕ) :
    (∀ (h : Blocks) (pkt : PacketData) (r : ℤ) (d : List UInt8) (t s : UInt64),
      h.cells[pkt.data.block]? = some (.live r (some d)) → 1 ≤ r → pkt.data.offset = sizeofLong →
      pkt.size = d.length →
      ∃ h' new, injectSeiOnHeap sizeofLong h pkt t s =
          some (h', ⟨⟨h.cells.length, sizeofLong⟩, new.length⟩) ∧
        (∀ q : EncoderPacket, q.data = some d → (injectSei q t s).data = some new) ∧
        h'.cells[h.cells.length]? = some (.live 1 (some new)) ∧
        h'.cells[pkt.data.block]? = some (if r = 1 then .freed else .live (r - 1) (some d)) ∧
        (∀ b < h.cells.length, b ≠ pkt.data.block → h'.cells[b]? = h.cells[b]?) ∧
        h'.trace = h.trace ++
          [.alloc h.cells.length, .count h.cells.length, .write h.cells.length,
            .read pkt.data.block, .write h.cells.length, .count pkt.data.block] ++
          if r = 1 then [.free pkt.data.block] else []) ∧
    (∀ w, Owned sizeofLong w → ∀ actions : List Action, ∃ w',
      actions.foldlM (Shared.act sizeofLong) w = some w' ∧ Owned sizeofLong w' ∧
        ∀ order : List Ptr, order.Perm (w'.packets.map (·.data)) →
          ∃ h', order.foldlM (release sizeofLong) w'.heap = some h' ∧ Quiet h'.trace ∧
            ∀ b < h'.cells.length,
              h'.cells[b]? = some .freed ∧ h'.trace.count (.free b) = 1) := by
  constructor
  · intro h pkt r d t s hc _ ho hs
    have hblock : pkt.data.block < h.cells.length := (List.getElem?_eq_some_iff.mp hc).1
    refine ⟨_, _, injectSeiOnHeap_eq hc ho hs t s, ?_, ?_, ?_, ?_, ?_⟩
    · intro q hq
      rw [injectSei_eq hq]
      rfl
    · exact (List.getElem?_set_ne hblock.ne).trans List.getElem?_concat_length
    · exact List.getElem?_set_self (by simp [copied]; omega)
    · intro b hlt hne
      exact (List.getElem?_set_ne hne.symm).trans (List.getElem?_append_left hlt)
    · simp [released, copied]
  · intro w hw actions
    obtain ⟨w', hrun, hw'⟩ := hw.run actions
    refine ⟨w', hrun, hw', fun order horder => ?_⟩
    obtain ⟨h', hall, hend⟩ := (hw'.balanced.perm horder.symm).releaseAll
    exact ⟨h', hall, hend.quiet, fun b hlt => hend.freed_once hlt⟩

/-- One keyframe that the output shares with a recording. -/
def sharedKeyframe : Shared where
  heap := ⟨[.live 2 (some [0, 0, 1, 0x65])], []⟩
  packets := [⟨⟨0, 8⟩, 4⟩, ⟨⟨0, 8⟩, 4⟩]

theorem sharedKeyframe_owned : Owned 8 sharedKeyframe := by
  have hcell : ∀ b (c : Cell (List UInt8)), sharedKeyframe.heap.cells[b]? = some c →
      b = 0 ∧ c = .live 2 (some [0, 0, 1, 0x65]) := by
    intro b c hc
    obtain ⟨hlt, rfl⟩ := List.getElem?_eq_some_iff.mp hc
    obtain rfl : b = 0 := Nat.lt_one_iff.mp hlt
    exact ⟨rfl, rfl⟩
  refine ⟨⟨by decide, ?_, ?_, ?_, List.Pairwise.nil⟩, ?_⟩
  · intro p hp
    obtain rfl : p = ⟨0, 8⟩ := by simpa [sharedKeyframe] using hp
    exact ⟨2, _, rfl⟩
  · intro b n data hc
    obtain ⟨rfl, hlive⟩ := hcell b _ hc
    cases hlive
    exact ⟨rfl, by decide⟩
  · intro b
    constructor
    · intro hc
      cases (hcell b _ hc).2
    · exact fun hmem => absurd hmem List.not_mem_nil
  · intro pkt hpkt n d hc
    obtain rfl : pkt = ⟨⟨0, 8⟩, 4⟩ := by simpa [sharedKeyframe] using hpkt
    cases (hcell 0 _ hc).2
    rfl

/-- The output's packet gets an SEI, then both holders release theirs. -/
theorem injectSei_copyOnWrite_keyframe :
    ∃ w', [Action.inject 0 7 5].foldlM (Shared.act 8) sharedKeyframe = some w' ∧ Owned 8 w' ∧
      ∀ order : List Ptr, order.Perm (w'.packets.map (·.data)) →
        ∃ h', order.foldlM (release 8) w'.heap = some h' ∧ Quiet h'.trace ∧
          ∀ b < h'.cells.length, h'.cells[b]? = some .freed ∧ h'.trace.count (.free b) = 1 :=
  (injectSei_copyOnWrite 8).2 sharedKeyframe sharedKeyframe_owned [.inject 0 7 5]

end ObsBeacon.PacketProbe
