import Mathlib.Data.List.Infix

/-! A stream of items cut into windows. Each item carries a stamp; a window starts at the
stamp of the item that opens it, takes items in until one of them closes it, and the next
window starts at the stamp of the item that closed it. -/
namespace Windows

variable {α β : Type*}

structure Opened (α β : Type*) where
  start : β
  items : List α

structure Closed (α β : Type*) extends Opened α β where
  stop : β

/-- The windows closed so far, in order, and the one that is open, if any. -/
structure Cut (α β : Type*) where
  closed : List (Closed α β) := []
  opened : Option (Opened α β) := none

/-- The window an item with stamp `b` goes into. -/
def Cut.current (c : Cut α β) (b : β) : Opened α β := c.opened.getD ⟨b, []⟩

/-- The items of all windows, in order. -/
def Cut.items (c : Cut α β) : List α :=
  c.closed.flatMap (·.items) ++ c.opened.elim [] (·.items)

section Push
variable (stamp : α → β) (closes : β → β → Bool)

/-- The current window with the new item in it. -/
def Cut.extended (c : Cut α β) (x : α) : Opened α β :=
  ⟨(c.current (stamp x)).start, (c.current (stamp x)).items ++ [x]⟩

/-- The window an item closes, if it does. -/
def Cut.closedBy (c : Cut α β) (x : α) : Option (Closed α β) :=
  if closes (c.extended stamp x).start (stamp x) then some ⟨c.extended stamp x, stamp x⟩ else none

def Cut.push (c : Cut α β) (x : α) : Cut α β where
  closed := c.closed ++ (c.closedBy stamp closes x).toList
  opened := some ((c.closedBy stamp closes x).elim (c.extended stamp x) fun w => ⟨w.stop, []⟩)

/-- The windows of a stream. -/
def cut (xs : List α) : Cut α β := xs.foldl (Cut.push stamp closes) {}

@[simp] theorem cut_nil : cut stamp closes [] = {} := rfl

theorem cut_concat (xs : List α) (x : α) :
    cut stamp closes (xs ++ [x]) = (cut stamp closes xs).push stamp closes x := by
  simp [cut]

variable {stamp closes}

theorem Cut.closedBy_eq_some {c : Cut α β} {x : α} {w : Closed α β} :
    c.closedBy stamp closes x = some w ↔
      closes (c.current (stamp x)).start (stamp x) = true ∧ w = ⟨c.extended stamp x, stamp x⟩ := by
  unfold Cut.closedBy
  split_ifs with h
  · exact ⟨fun hw => ⟨h, (Option.some.inj hw).symm⟩, fun hw => congrArg some hw.2.symm⟩
  · exact ⟨fun hw => absurd hw (by simp), fun hw => absurd hw.1 h⟩

theorem Cut.current_start (c : Cut α β) (b : β) :
    (c.current b).start = (c.opened.map (·.start)).getD b := by
  cases h : c.opened <;> simp [Cut.current, h]

/-- Where the window that is open after an item starts. -/
theorem Cut.start_push (c : Cut α β) (x : α) :
    (c.push stamp closes x).opened.map (·.start) =
      some (if closes (c.current (stamp x)).start (stamp x) then stamp x
        else (c.current (stamp x)).start) := by
  unfold Cut.push Cut.closedBy
  by_cases h : closes (c.current (stamp x)).start (stamp x) = true <;> simp [Cut.extended, h]

/-- An item never goes into a window that starts at a stamp from outside the stream. -/
theorem start_mem (xs : List α) (x : α) :
    ((cut stamp closes xs).current (stamp x)).start ∈ (xs ++ [x]).map stamp := by
  induction xs using List.reverseRecOn generalizing x with
  | nil => simp [Cut.current]
  | append_singleton xs y ih =>
    rw [cut_concat, List.map_append]
    apply List.mem_append_left _
    cases h : (cut stamp closes xs).closedBy stamp closes y with
    | none =>
      have hy := ih y
      simpa [Cut.push, Cut.current, h, Cut.extended] using hy
    | some w =>
      obtain ⟨-, rfl⟩ := Cut.closedBy_eq_some.mp h
      simp [Cut.push, Cut.current, h]

end Push
end Windows
