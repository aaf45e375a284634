import Mathlib.Data.List.Basic
import Mathlib.Data.List.TakeDrop

/-!
# Writing a list piece by piece

`write` puts some data at a position of a list, as a file is written that was positioned before.
A list that is filled with pieces of another one, wherever they go and in whatever order they come,
agrees with it at the positions written (`Agrees`), and is the other one when those are all.
-/

namespace Patches

universe u

variable {α : Type u}

/-- Writing `data` at the position `start`. A gap behind the end is filled with `pad`. -/
def write (pad : α) (l : List α) (start : ℕ) (data : List α) : List α :=
  (l ++ List.replicate (start - l.length) pad).take start ++ data ++ l.drop (start + data.length)

/-- `l` has the length of `target`, and its entries at the positions of `done`. -/
structure Agrees (target : List α) (done : ℕ → Prop) (l : List α) : Prop where
  length : l.length = target.length
  get : ∀ x, done x → l[x]? = target[x]?

variable {pad : α} {l data target : List α} {start size x : ℕ} {done done' : ℕ → Prop}

theorem write_of_le (h : start ≤ l.length) :
    write pad l start data = l.take start ++ data ++ l.drop (start + data.length) := by
  rw [write, Nat.sub_eq_zero_of_le h, List.replicate_zero, List.append_nil]

theorem length_write (h : start + data.length ≤ l.length) :
    (write pad l start data).length = l.length := by
  rw [write_of_le (by omega), List.length_append, List.length_append, List.length_take,
    List.length_drop]
  omega

/-- What is at a position after a write. -/
theorem getElem?_write (h : start + data.length ≤ l.length) :
    (write pad l start data)[x]? =
      if start ≤ x ∧ x < start + data.length then data[x - start]? else l[x]? := by
  rw [write_of_le (by omega), List.append_assoc, List.getElem?_append, List.length_take,
    Nat.min_eq_left (by omega)]
  split_ifs with hbefore hin hin
  · omega
  · rw [List.getElem?_take, if_pos hbefore]
  · rw [List.getElem?_append_left (by omega)]
  · rw [List.getElem?_append_right (by omega), List.getElem?_drop]
    congr 1
    omega

theorem Agrees.mono (h : Agrees target done l) (hsub : ∀ x, done' x → done x) :
    Agrees target done' l := ⟨h.length, fun x hx => h.get x (hsub x hx)⟩

/-- A list of the right length agrees where nothing is asked. -/
theorem agrees_of_length (h : l.length = target.length) (hnone : ∀ x, ¬ done x) :
    Agrees target done l := ⟨h, fun x hx => absurd hx (hnone x)⟩

/-- **A piece more**: writing the slice of the target to where it belongs. -/
theorem Agrees.write (h : Agrees target done l) (hend : start + size ≤ target.length) :
    Agrees target (fun x => done x ∨ start ≤ x ∧ x < start + size)
      (write pad l start ((target.drop start).take size)) := by
  have hsize : ((target.drop start).take size).length = size := by
    rw [List.length_take, List.length_drop]
    omega
  have hin : start + ((target.drop start).take size).length ≤ l.length := by
    rw [hsize, h.length]
    exact hend
  refine ⟨(length_write hin).trans h.length, fun x hx => ?_⟩
  rw [getElem?_write hin, hsize]
  split_ifs with hx'
  · rw [List.getElem?_take, if_pos (by omega), List.getElem?_drop]
    congr 1
    omega
  · exact h.get x (hx.resolve_right hx')

/-- **All of it.** -/
theorem Agrees.eq (h : Agrees target done l) (hall : ∀ x, x < target.length → done x) :
    l = target := by
  refine List.ext_getElem? fun x => ?_
  by_cases hx : x < target.length
  · exact h.get x (hall x hx)
  · rw [List.getElem?_eq_none (by rw [h.length]; omega), List.getElem?_eq_none (by omega)]

end Patches
