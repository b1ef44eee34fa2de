import Mathlib.Data.List.Count
import Mathlib.Data.List.Perm.Basic
import Mathlib.Tactic

/-! A heap of blocks with a reference count in front of their data. Each operation adds the
block it touches to a trace; one that touches a freed block, or goes through a pointer to the
wrong place of a block, fails. -/
namespace RefHeap

variable {α β : Type*}

/-- A byte of a block; addresses of blocks are never used again. -/
structure Ptr where
  block : ℕ
  offset : ℕ
  deriving DecidableEq, Repr

def Ptr.add (p : Ptr) (n : ℕ) : Ptr := ⟨p.block, p.offset + n⟩
def Ptr.sub (p : Ptr) (n : ℕ) : Ptr := ⟨p.block, p.offset - n⟩

/-- A block: its count and its data, which is `none` until it is written. -/
inductive Cell (α : Type*) where
  | live (count : ℤ) (data : Option α)
  | freed

inductive Access where
  | alloc (b : ℕ) | count (b : ℕ) | write (b : ℕ) | read (b : ℕ) | free (b : ℕ)
  deriving DecidableEq, Repr

def Access.block : Access → ℕ
  | .alloc b => b
  | .count b => b
  | .write b => b
  | .read b => b
  | .free b => b

structure Heap (α : Type*) where
  cells : List (Cell α) := []
  trace : List Access := []

def Heap.access (h : Heap α) (a : Access) (c : Cell α) : Heap α :=
  ⟨h.cells.set a.block c, h.trace ++ [a]⟩

/-- Run `f` on a live block that `p` points into at `offset`. -/
def Heap.onLive (h : Heap α) (p : Ptr) (offset : ℕ) (f : ℤ → Option α → Option β) : Option β :=
  match h.cells[p.block]? with
  | some (.live n data) => if p.offset = offset then f n data else none
  | _ => none

def alloc (h : Heap α) : Ptr × Heap α :=
  (⟨h.cells.length, 0⟩, ⟨h.cells ++ [.live 0 none], h.trace ++ [.alloc h.cells.length]⟩)

def setCount (h : Heap α) (p : Ptr) (n : ℤ) : Option (Heap α) :=
  h.onLive p 0 fun _ data => some (h.access (.count p.block) (.live n data))

def decCount (h : Heap α) (p : Ptr) : Option (ℤ × Heap α) :=
  h.onLive p 0 fun n data => some (n - 1, h.access (.count p.block) (.live (n - 1) data))

def free (h : Heap α) (p : Ptr) : Option (Heap α) :=
  h.onLive p 0 fun _ _ => some (h.access (.free p.block) .freed)

section Data
/- The data of a block stand `head` bytes behind its start. -/
variable (head : ℕ)

def store (h : Heap α) (p : Ptr) (a : α) : Option (Heap α) :=
  h.onLive p head fun n _ => some (h.access (.write p.block) (.live n (some a)))

def load (h : Heap α) (p : Ptr) : Option (α × Heap α) :=
  h.onLive p head fun _ data => data.map fun a =>
    (a, ⟨h.cells, h.trace ++ [.read p.block]⟩)

/-- Give up a reference to the data at `p`. -/
def release (h : Heap α) (p : Ptr) : Option (Heap α) :=
  (decCount h (p.sub head)).bind fun dropped =>
    if dropped.1 = 0 then free dropped.2 (p.sub head) else some dropped.2

/-- No access to a block after it was freed. -/
def Quiet (trace : List Access) : Prop :=
  trace.Pairwise fun x y => ∀ b, x = .free b → y.block ≠ b

/-- The holders point at the data of live blocks, each block counts its holders, and the
blocks freed so far were not touched again. -/
structure Balanced (h : Heap α) (holders : List Ptr) : Prop where
  offset : ∀ p ∈ holders, p.offset = head
  held : ∀ p ∈ holders, ∃ n a, h.cells[p.block]? = some (.live n (some a))
  count : ∀ (b : ℕ) (n : ℤ) (data : Option α), h.cells[b]? = some (.live n data) →
    n = holders.countP (·.block = b) ∧ 0 < n
  freed : ∀ b, h.cells[b]? = some .freed ↔ .free b ∈ h.trace
  quiet : Quiet h.trace

/-- The heap after `release` of a block with count `n` and data `a`. -/
def released (h : Heap α) (b : ℕ) (n : ℤ) (a : α) : Heap α :=
  ⟨h.cells.set b (if n = 1 then .freed else .live (n - 1) (some a)),
    h.trace ++ .count b :: if n = 1 then [.free b] else []⟩

variable {head} {h : Heap α} {holders : List Ptr} {p : Ptr} {n : ℤ} {a : α}

theorem onLive_eq {b offset : ℕ} {data : Option α} (hc : h.cells[b]? = some (.live n data))
    (f : ℤ → Option α → Option β) : h.onLive ⟨b, offset⟩ offset f = f n data := by
  simp [Heap.onLive, hc]

/-- An access to the block allocated last. -/
theorem access_last {c c' : Cell α} {cells : List (Cell α)} {trace : List Access} {x : Access}
    (hx : x.block = cells.length) :
    (⟨cells ++ [c], trace⟩ : Heap α).access x c' = ⟨cells ++ [c'], trace ++ [x]⟩ := by
  rw [Heap.access, hx, List.set_append_right _ _ le_rfl]
  simp

theorem release_eq (hc : h.cells[p.block]? = some (.live n (some a))) (ho : p.offset = head) :
    release head h p = some (released h p.block n a) := by
  have hlt : p.block < h.cells.length := (List.getElem?_eq_some_iff.mp hc).1
  have hback : p.sub head = ⟨p.block, 0⟩ := by simp [Ptr.sub, ho]
  rw [release, hback, decCount, onLive_eq hc, Option.bind_some]
  by_cases hn : n = 1
  · subst hn
    have hcell : (h.access (.count p.block) (.live (1 - 1) (some a))).cells[p.block]? =
        some (.live (1 - 1) (some a)) := List.getElem?_set_self hlt
    rw [if_pos (by simp), free, onLive_eq hcell]
    simp [released, Heap.access, Access.block]
  · rw [if_neg (by simpa [sub_eq_zero] using hn)]
    simp [released, Heap.access, Access.block, hn]

theorem Balanced.perm {holders' : List Ptr} (hb : Balanced head h holders)
    (hperm : holders.Perm holders') : Balanced head h holders' := by
  obtain ⟨hoffset, hheld, hcount, hfreed, hquiet⟩ := hb
  refine ⟨fun p hp => hoffset p (hperm.mem_iff.mpr hp), fun p hp => hheld p (hperm.mem_iff.mpr hp),
    fun b n data hc => ?_, hfreed, hquiet⟩
  rw [← hperm.countP_eq]
  exact hcount b n data hc

/-- Accesses that free nothing, to a new block and to live ones. -/
def Harmless (h : Heap α) (accesses : List Access) : Prop :=
  ∀ x ∈ accesses, (∀ b, x ≠ .free b) ∧
    (x.block = h.cells.length ∨ ∃ n data, h.cells[x.block]? = some (.live n data))

theorem Quiet.append {accesses : List Access} (hq : Quiet h.trace)
    (hfreed : ∀ b, .free b ∈ h.trace → h.cells[b]? = some .freed)
    (hacc : ∀ x ∈ accesses, x.block = h.cells.length ∨
      ∃ n data, h.cells[x.block]? = some (.live n data)) (hown : Quiet accesses) :
    Quiet (h.trace ++ accesses) := by
  refine List.pairwise_append.mpr ⟨hq, hown, ?_⟩
  rintro x hx y hy b rfl hyb
  have hcell := hfreed b hx
  rcases hacc y hy with hlen | ⟨n, data, hlive⟩
  · have hlt : b < h.cells.length := (List.getElem?_eq_some_iff.mp hcell).1
    omega
  · rw [hyb, hcell] at hlive
    cases hlive

/-- A new block with one reference has one new holder. -/
theorem Balanced.publish (hb : Balanced head h holders) (a : α) {accesses : List Access}
    (hacc : Harmless h accesses) :
    Balanced head ⟨h.cells ++ [.live 1 (some a)], h.trace ++ accesses⟩
      (⟨h.cells.length, head⟩ :: holders) := by
  have hold {b : ℕ} {c : Cell α} (hc : h.cells[b]? = some c) : b < h.cells.length :=
    (List.getElem?_eq_some_iff.mp hc).1
  have hcells {b : ℕ} (hlt : b < h.cells.length) :
      (h.cells ++ [Cell.live 1 (some a)])[b]? = h.cells[b]? := List.getElem?_append_left hlt
  constructor
  · rintro p hp
    rcases List.mem_cons.mp hp with rfl | hp
    · rfl
    · exact hb.offset p hp
  · rintro p hp
    rcases List.mem_cons.mp hp with rfl | hp
    · exact ⟨1, a, by simp⟩
    · obtain ⟨n, x, hc⟩ := hb.held p hp
      exact ⟨n, x, (hcells (hold hc)).trans hc⟩
  · intro b n data hc
    rcases lt_trichotomy b h.cells.length with hlt | rfl | hgt
    · rw [hcells hlt] at hc
      rw [List.countP_cons_of_neg (by simpa using hlt.ne')]
      exact hb.count b n data hc
    · have hnone : holders.countP (·.block = h.cells.length) = 0 := by
        apply List.countP_eq_zero.mpr
        intro p hp heq
        obtain ⟨m, x, hx⟩ := hb.held p hp
        exact (hold hx).ne (of_decide_eq_true heq)
      rw [List.getElem?_concat_length] at hc
      cases hc
      rw [List.countP_cons_of_pos (by simp), hnone]
      exact ⟨rfl, one_pos⟩
    · rw [List.getElem?_eq_none (by simpa using hgt)] at hc
      cases hc
  · intro b
    have hnofree : .free b ∈ h.trace ++ accesses ↔ .free b ∈ h.trace := by
      rw [List.mem_append, or_iff_left fun hmem => (hacc _ hmem).1 b rfl]
    rw [hnofree, ← hb.freed b]
    rcases lt_trichotomy b h.cells.length with hlt | rfl | hgt
    · rw [hcells hlt]
    · simp
    · rw [List.getElem?_eq_none (by simpa using hgt), List.getElem?_eq_none hgt.le]
  · apply hb.quiet.append (fun b => (hb.freed b).mpr) (fun x hx => (hacc x hx).2)
    refine List.pairwise_iff_forall_sublist.mpr fun {x y} hxy b hx => ?_
    exact absurd hx ((hacc x (hxy.subset (by simp))).1 b)

section Released
variable {b b' : ℕ}

theorem released_self (hc : h.cells[b]? = some (.live n (some a))) :
    (released h b n a).cells[b]? = some (if n = 1 then .freed else .live (n - 1) (some a)) :=
  List.getElem?_set_self (List.getElem?_eq_some_iff.mp hc).1

theorem released_of_ne (hne : b ≠ b') : (released h b n a).cells[b']? = h.cells[b']? :=
  List.getElem?_set_ne hne

theorem free_mem_released_iff :
    .free b' ∈ (released h b n a).trace ↔ .free b' ∈ h.trace ∨ b' = b ∧ n = 1 := by
  by_cases hn : n = 1 <;> simp [released, hn]

theorem block_of_mem_released {x : Access}
    (hx : x ∈ Access.count b :: if n = 1 then [.free b] else []) : x.block = b := by
  rcases List.mem_cons.mp hx with rfl | hx
  · rfl
  · split_ifs at hx
    · rw [List.mem_singleton.mp hx]
      rfl
    · cases hx

/-- A release changes no data of the blocks that stay. -/
theorem released_data {m : ℤ} {x : α} (hc : h.cells[b]? = some (.live n (some a)))
    (hx : (released h b n a).cells[b']? = some (.live m (some x))) :
    ∃ m', h.cells[b']? = some (.live m' (some x)) := by
  by_cases hb : b = b'
  · subst hb
    rw [released_self hc] at hx
    split_ifs at hx with hn
    · cases hx
    · cases hx
      exact ⟨n, hc⟩
  · rw [released_of_ne hb] at hx
    exact ⟨m, hx⟩

end Released

/-- Giving up a reference takes its holder away. -/
theorem Balanced.released (hb : Balanced head h (p :: holders))
    (hc : h.cells[p.block]? = some (.live n (some a))) :
    Balanced head (RefHeap.released h p.block n a) holders := by
  obtain ⟨hcount, hpos⟩ := hb.count _ _ _ hc
  rw [List.countP_cons_of_pos (by simp)] at hcount
  constructor
  · exact fun q hq => hb.offset q (List.mem_cons_of_mem _ hq)
  · intro q hq
    by_cases hqb : p.block = q.block
    · have hmore : 0 < holders.countP (·.block = p.block) :=
        List.countP_pos_iff.mpr ⟨q, hq, by simp [hqb]⟩
      refine ⟨n - 1, a, ?_⟩
      rw [← hqb, released_self hc, if_neg (by omega)]
    · rw [released_of_ne hqb]
      exact hb.held q (List.mem_cons_of_mem _ hq)
  · intro b m data hm
    by_cases hbp : p.block = b
    · subst hbp
      rw [released_self hc] at hm
      split_ifs at hm with hn
      · cases hm
      · injection Option.some.inj hm with hnm
        exact ⟨by omega, by omega⟩
    · rw [released_of_ne hbp] at hm
      have := hb.count b m data hm
      rwa [List.countP_cons_of_neg (by simpa using hbp)] at this
  · intro b
    rw [free_mem_released_iff, ← hb.freed b]
    by_cases hbp : p.block = b
    · subst hbp
      rw [released_self hc, hc]
      by_cases hn : n = 1 <;> simp [hn]
    · rw [released_of_ne hbp]
      simp [Ne.symm hbp]
  · apply hb.quiet.append (fun b => (hb.freed b).mpr)
    · intro x hx
      rw [block_of_mem_released hx]
      exact Or.inr ⟨n, some a, hc⟩
    · split_ifs <;> simp [Quiet]

/-- The release of a holder succeeds. -/
theorem Balanced.release (hb : Balanced head h (p :: holders)) :
    ∃ n a, h.cells[p.block]? = some (.live n (some a)) ∧
      RefHeap.release head h p = some (RefHeap.released h p.block n a) ∧
      Balanced head (RefHeap.released h p.block n a) holders := by
  obtain ⟨n, a, hc⟩ := hb.held p (by simp)
  exact ⟨n, a, hc, release_eq hc (hb.offset p (by simp)), hb.released hc⟩

/-- One release for each holder, in any order, succeeds. -/
theorem Balanced.releaseAll (hb : Balanced head h holders) :
    ∃ h', holders.foldlM (RefHeap.release head) h = some h' ∧ Balanced head h' [] := by
  induction holders generalizing h with
  | nil => exact ⟨h, rfl, hb⟩
  | cons p holders ih =>
    obtain ⟨n, a, -, hrelease, hrest⟩ := hb.release
    obtain ⟨h', hrun, hend⟩ := ih hrest
    exact ⟨h', by simp [hrelease, hrun], hend⟩

theorem Quiet.count_le_one {trace : List Access} (hq : Quiet trace) (b : ℕ) :
    trace.count (.free b) ≤ 1 := by
  induction trace with
  | nil => simp
  | cons x trace ih =>
    obtain ⟨hx, hrest⟩ := List.pairwise_cons.mp hq
    by_cases hfree : x = .free b
    · subst hfree
      have hnone : trace.count (.free b) = 0 :=
        List.count_eq_zero.mpr fun hmem => hx _ hmem b rfl rfl
      simp [hnone]
    · rw [List.count_cons_of_ne hfree]
      exact ih hrest

/-- Without holders every block has been freed, and only once. -/
theorem Balanced.freed_once (hb : Balanced head h []) {b : ℕ} (hlt : b < h.cells.length) :
    h.cells[b]? = some .freed ∧ h.trace.count (.free b) = 1 := by
  have hfreed : h.cells[b]? = some .freed := by
    cases hc : h.cells[b] with
    | live n data =>
      have := hb.count b n data (by rw [List.getElem?_eq_getElem hlt, hc])
      simp at this
      omega
    | freed => rw [List.getElem?_eq_getElem hlt, hc]
  have hpos := List.count_pos_iff.mpr ((hb.freed b).mp hfreed)
  have hle := hb.quiet.count_le_one b
  exact ⟨hfreed, by omega⟩

end Data
end RefHeap
