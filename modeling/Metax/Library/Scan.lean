import Mathlib.Data.List.Basic
import Mathlib.Algebra.Order.Ring.Nat

/-!
# Scanning a memory

A scan reads bytes of a memory at a cursor that only moves forward, as a hand-written decoder
does with `memcpy (dst, src + offset, n); offset += n`. The memory is total: it goes on behind
the buffer the decoder was given, so an unchecked read is a read like any other, and the trace
of the scan records where it went. `Inside n` says that no read left the first `n` bytes, and
`Scan.Steady` is the law of all scans built from `take`: they stay inside exactly when the
cursor does.
-/

universe u

/-- What a scan did so far: the cursor, the ranges `(start, length)` it read and the number of
loop rounds it took. -/
structure Trace where
  offset : ℕ
  reads : List (ℕ × ℕ)
  rounds : ℕ

/-- A decoder: it reads a memory and extends a trace. -/
structure Scan (α : Type u) where
  run : (ℕ → UInt8) → Trace → α × Trace

namespace Trace

/-- Nothing read yet, the cursor at `o`. -/
def start (o : ℕ) : Trace := ⟨o, [], 0⟩

/-- No byte outside the first `n` ones was read. -/
def Inside (n : ℕ) (t : Trace) : Prop := ∀ r ∈ t.reads, r.2 = 0 ∨ r.1 + r.2 ≤ n

instance (n : ℕ) (t : Trace) : Decidable (t.Inside n) := List.decidableBAll _ _

theorem inside_start (n o : ℕ) : (start o).Inside n := by
  intro r hr
  cases hr

end Trace

namespace Scan

variable {α β : Type u} {n : ℕ}

instance : Monad Scan where
  pure a := ⟨fun _ t => (a, t)⟩
  bind s f := ⟨fun mem t => (f (s.run mem t).1).run mem (s.run mem t).2⟩

/-- A scan is run step by step, and notes what it reads. -/
@[simp]
theorem run_pure (a : α) (mem : ℕ → UInt8) (t : Trace) : (pure a : Scan α).run mem t = (a, t) := rfl

@[simp]
theorem run_bind (s : Scan α) (f : α → Scan β) (mem : ℕ → UInt8) (t : Trace) :
    (s >>= f).run mem t = (f (s.run mem t).1).run mem (s.run mem t).2 := rfl

/-- The bytes `[o, o + n)` of a memory. -/
def slice (mem : ℕ → UInt8) (o n : ℕ) : List UInt8 := (List.range n).map fun i => mem (o + i)

@[simp]
theorem length_slice (mem : ℕ → UInt8) (o n : ℕ) : (slice mem o n).length = n := by
  simp [slice]

/-- Copy `n` bytes at the cursor and move it behind them. -/
def take (n : ℕ) : Scan (List UInt8) where
  run mem t := (slice mem t.offset n, ⟨t.offset + n, (t.offset, n) :: t.reads, t.rounds⟩)

/-- `take`, for a client that needs to know how many bytes it got. -/
def takeExact (n : ℕ) : Scan {l : List UInt8 // l.length = n} where
  run mem t := (⟨slice mem t.offset n, length_slice mem t.offset n⟩, ((take n).run mem t).2)

/-- Put the cursor somewhere. -/
def seek (o : ℕ) : Scan PUnit.{u + 1} where
  run _ t := (⟨⟩, ⟨o, t.reads, t.rounds⟩)

/-- Count one round of a loop. -/
def tick : Scan PUnit.{u + 1} where
  run _ t := (⟨⟩, ⟨t.offset, t.reads, t.rounds + 1⟩)

@[simp]
theorem run_take (n : ℕ) (mem : ℕ → UInt8) (t : Trace) : (take n).run mem t =
    (slice mem t.offset n, ⟨t.offset + n, (t.offset, n) :: t.reads, t.rounds⟩) := rfl

@[simp]
theorem run_takeExact (n : ℕ) (mem : ℕ → UInt8) (t : Trace) : (takeExact n).run mem t =
    (⟨slice mem t.offset n, length_slice mem t.offset n⟩, ((take n).run mem t).2) := rfl

@[simp]
theorem run_seek (o : ℕ) (mem : ℕ → UInt8) (t : Trace) :
    (seek o).run mem t = (⟨⟩, ⟨o, t.reads, t.rounds⟩) := rfl

@[simp]
theorem run_tick (mem : ℕ → UInt8) (t : Trace) :
    tick.run mem t = (⟨⟩, ⟨t.offset, t.reads, t.rounds + 1⟩) := rfl

/-! ### Memories that start with a known byte string -/

/-- A memory whose first bytes are `l`, and which is zero behind them. -/
def memory (l : List UInt8) : ℕ → UInt8 := fun i => l.getD i 0

/-- A field at the front. -/
theorem slice_append_left {l l' : List UInt8} (h : l.length = n) :
    slice (memory (l ++ l')) 0 n = l := by
  refine List.ext_getElem (by simp [h]) fun i hi hi' => ?_
  simp [slice, memory, List.getElem?_append_left hi', List.getElem?_eq_getElem hi']

/-- A field behind others. -/
theorem slice_append_right {l l' : List UInt8} {o : ℕ} (h : l.length ≤ o) :
    slice (memory (l ++ l')) o n = slice (memory l') (o - l.length) n := by
  refine List.map_congr_left fun i _ => ?_
  simp only [memory, List.getD_eq_getElem?_getD]
  rw [List.getElem?_append_right (by omega), Nat.sub_add_comm h]

/-- A field that starts where the bytes before it end. -/
theorem slice_field {a b l : List UInt8} {o n : ℕ} (ha : a.length = o) (hb : b.length = n) :
    slice (memory (a ++ (b ++ l))) o n = b := by
  rw [slice_append_right ha.le, ha, Nat.sub_self, slice_append_left hb]

/-! ### Steady scans -/

/-- The cursor moves forward only, and the bytes it passed are the bytes that were read. -/
def Steady (s : Scan α) : Prop := ∀ mem t, t.offset ≤ (s.run mem t).2.offset ∧
  ∀ n, (s.run mem t).2.Inside n ↔
    t.Inside n ∧ (t.offset = (s.run mem t).2.offset ∨ (s.run mem t).2.offset ≤ n)

/-- A value is read without moving the cursor. -/
theorem steady_pure (a : α) : Steady (pure a : Scan α) := by
  intro mem t
  simp

theorem steady_take (n : ℕ) : Steady (take n) := by
  intro mem t
  refine ⟨by simp, fun m => ?_⟩
  simp only [run_take, Trace.Inside, List.forall_mem_cons]
  constructor
  · rintro ⟨hnew, hold⟩
    exact ⟨hold, by omega⟩
  · rintro ⟨hold, hend⟩
    exact ⟨by omega, hold⟩

theorem steady_tick : Steady tick := by
  intro mem t
  simp [Trace.Inside]

theorem Steady.bind {s : Scan α} {f : α → Scan β} (hs : Steady s) (hf : ∀ a, Steady (f a)) :
    Steady (s >>= f) := by
  intro mem t
  obtain ⟨hle, hin⟩ := hs mem t
  obtain ⟨hle', hin'⟩ := hf (s.run mem t).1 mem (s.run mem t).2
  refine ⟨hle.trans hle', fun n => ?_⟩
  rw [run_bind, hin' n, hin n]
  constructor
  · rintro ⟨⟨h, h₁⟩, h₂⟩
    exact ⟨h, by omega⟩
  · rintro ⟨h, h₁⟩
    exact ⟨⟨h, by omega⟩, by omega⟩

/-- A scan that starts at the front of the memory stays inside a buffer exactly when its cursor
ends there. -/
theorem Steady.inside_iff {s : Scan α} (hs : Steady s) (mem : ℕ → UInt8) (n : ℕ) :
    (s.run mem (.start 0)).2.Inside n ↔ (s.run mem (.start 0)).2.offset ≤ n := by
  have hin := (hs mem (.start 0)).2 n
  have hstart : (Trace.start 0).offset = 0 := rfl
  simp only [Trace.inside_start, true_and, hstart] at hin
  rw [hin]
  omega

end Scan
