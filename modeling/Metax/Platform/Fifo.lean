import Mathlib.Data.List.Basic
import Mathlib.Data.List.DropRight

/-!
# Queues between tasks

`csp::fifo` is a deque whose last slot is the message that is being written. `operator*` of an
output is a reference into that slot, `push` makes it a message by putting a fresh slot behind it,
and the reader sees all slots but the last one.

A `Fifo` always has its slot. What is in front of it, `pending`, was pushed and not popped yet.

What the tasks do with it, sleeping and waking up, is in `Metax.Platform.Waiting`.
-/

namespace Metax

namespace Csp

universe u

/-- `csp::fifo`. -/
structure Fifo (α : Type u) where
  internal : List α
  slotted : internal ≠ []
  active : Bool

namespace Fifo

variable {α : Type u}

/-- `fifo::fifo`. -/
def new [Inhabited α] : Fifo α := ⟨[default], List.cons_ne_nil _ _, true⟩

/-- `fifo::has_data`. -/
def hasData (q : Fifo α) : Bool := 1 < q.internal.length

/-- `fifo::size`. -/
def size (q : Fifo α) : ℕ := q.internal.length - 1

/-- `fifo::front`. -/
def front (q : Fifo α) : Option α := if q.hasData then q.internal.head? else none

/-- `fifo::back`: the slot. -/
def back (q : Fifo α) : α := q.internal.getLast q.slotted

/-- The writer changes the slot through the reference. -/
def write (q : Fifo α) (f : α → α) : Fifo α where
  internal := q.internal.dropLast ++ [f q.back]
  slotted := List.append_ne_nil_of_right_ne_nil _ (List.cons_ne_nil _ _)
  active := q.active

/-- `fifo::push`. -/
def push [Inhabited α] (q : Fifo α) : Fifo α where
  internal := q.internal ++ [default]
  slotted := List.append_ne_nil_of_right_ne_nil _ (List.cons_ne_nil _ _)
  active := q.active

/-- `fifo::pop`. Only what has data is popped. -/
def pop (q : Fifo α) : Option (Fifo α) :=
  if h : q.internal.tail ≠ [] then some ⟨q.internal.tail, h, q.active⟩ else none

/-- `fifo::deactivate`. -/
def deactivate (q : Fifo α) : Fifo α := { q with active := false }

/-- What was pushed and not popped, the oldest first. -/
def pending (q : Fifo α) : List α := q.internal.dropLast

/-! ### What each operation does -/

variable {q : Fifo α} {m : α}

/-- A fifo is what is pending and the element that is being written. -/
theorem pending_append_back (q : Fifo α) : q.pending ++ [q.back] = q.internal :=
  List.dropLast_append_getLast q.slotted

theorem length_internal (q : Fifo α) : q.internal.length = q.pending.length + 1 := by
  rw [← pending_append_back q, List.length_append, List.length_singleton]

/-- There is data if something is pending. -/
theorem hasData_iff : q.hasData = true ↔ q.pending ≠ [] := by
  rw [hasData, length_internal, decide_eq_true_iff, Nat.lt_add_left_iff_pos, List.length_pos_iff]

@[simp]
theorem hasData_eq_false_iff : q.hasData = false ↔ q.pending = [] := by
  rw [← Bool.not_eq_true, hasData_iff, not_not]

/-- `size` counts the messages. -/
theorem size_eq (q : Fifo α) : q.size = q.pending.length := by
  rw [size, length_internal, Nat.add_sub_cancel]

@[simp]
theorem pending_new [Inhabited α] : (new : Fifo α).pending = [] := rfl

@[simp]
theorem back_new [Inhabited α] : (new : Fifo α).back = default := rfl

@[simp]
theorem pending_write (f : α → α) : (q.write f).pending = q.pending := List.dropLast_concat

@[simp]
theorem back_write (f : α → α) : (q.write f).back = f q.back := List.getLast_append_singleton _

/-- To push is to finish that element and to start another one. -/
@[simp]
theorem pending_push [Inhabited α] : q.push.pending = q.pending ++ [q.back] := by
  rw [pending_append_back]
  exact List.dropLast_concat

@[simp]
theorem back_push [Inhabited α] : q.push.back = default := List.getLast_append_singleton _

@[simp]
theorem pending_deactivate : q.deactivate.pending = q.pending := rfl

@[simp]
theorem back_deactivate : q.deactivate.back = q.back := rfl

/-- The front is the oldest message. -/
theorem front_eq (q : Fifo α) : q.front = q.pending.head? := by
  rw [front, ← pending_append_back q]
  split_ifs with h
  · rw [List.head?_append_of_ne_nil _ (hasData_iff.mp h)]
  · rw [Bool.not_eq_true, hasData_eq_false_iff] at h
    rw [h, List.head?_nil]

/-- **A pop takes the oldest message**, and only that. -/
theorem pop_of_pending {rest : List α} (h : q.pending = m :: rest) :
    ∃ q', q.front = some m ∧ q.pop = some q' ∧ q'.pending = rest ∧ q'.back = q.back ∧
      q'.active = q.active := by
  have htail : q.internal.tail = rest ++ [q.back] := by
    rw [← pending_append_back q, h]
    rfl
  have hne : q.internal.tail ≠ [] := by
    rw [htail]
    exact List.append_ne_nil_of_right_ne_nil _ (List.cons_ne_nil _ _)
  refine ⟨⟨q.internal.tail, hne, q.active⟩, ?_, dif_pos hne, ?_, ?_, rfl⟩
  · rw [front_eq, h, List.head?_cons]
  · change q.internal.tail.dropLast = rest
    rw [htail, List.dropLast_concat]
  · simp only [back, htail, List.getLast_append_singleton]

end Fifo

end Csp

end Metax
