import Mathlib.Data.List.Basic

/-!
# Logs and what precedes an entry

A log grows at its head. `Past P log` says that every entry stands in the relation `P` to the
part of the log that is older than it: a log-order property such as "no confirmation before
a copy" is one `P`, checked once, when the entry is written.
-/

namespace History

universe u

variable {ε : Type u} {P Q : ε → List ε → Prop} {e : ε} {l es : List ε}

/-- Every entry is related to what is older than it. -/
def Past (P : ε → List ε → Prop) : List ε → Prop
  | [] => True
  | e :: l => P e l ∧ Past P l

@[simp]
theorem past_nil : Past P [] := trivial

@[simp]
theorem past_cons : Past P (e :: l) ↔ P e l ∧ Past P l := Iff.rfl

/-- Entries that are related to everything can be written at any time. -/
theorem past_append_of_forall (hes : ∀ e ∈ es, ∀ l, P e l) (h : Past P l) : Past P (es ++ l) := by
  induction es with
  | nil => exact h
  | cons e es ih =>
    refine ⟨hes e List.mem_cons_self _, ih fun e' he' => ?_⟩
    exact hes e' (List.mem_cons_of_mem _ he')

theorem past_of_append (h : Past P (es ++ l)) : Past P l := by
  induction es with
  | nil => exact h
  | cons e es ih => exact ih h.2

/-- Reading a log property off: what it says of an entry and of the part older than it. -/
theorem past_append_cons (h : Past P (es ++ e :: l)) : P e l := (past_of_append h).1

/-- Every entry of the log has a past. -/
theorem Past.of_mem (h : Past P l) (he : e ∈ l) :
    ∃ newer older, l = newer ++ e :: older ∧ P e older := by
  obtain ⟨newer, older, rfl⟩ := List.append_of_mem he
  exact ⟨newer, older, rfl, past_append_cons h⟩

/-- Of two entries one is older than the other. -/
theorem Past.of_pair {f : ε} (h : Past P l) (he : e ∈ l) (hf : f ∈ l) (hne : e ≠ f) :
    (∃ older, P e older ∧ f ∈ older) ∨ ∃ older, P f older ∧ e ∈ older := by
  obtain ⟨newer, older, rfl⟩ := List.append_of_mem he
  rcases List.mem_append.mp hf with hf | hf
  · obtain ⟨n, o, rfl⟩ := List.append_of_mem hf
    rw [List.append_assoc] at h
    exact .inr ⟨_, past_append_cons h, List.mem_append_right o List.mem_cons_self⟩
  · refine .inl ⟨older, past_append_cons h, ?_⟩
    exact (List.mem_cons.mp hf).resolve_left fun he => hne he.symm

/-- An entry that cannot come after `e` is older than it. -/
theorem Past.mem_older {f : ε} {newer older : List ε} (h : Past P (newer ++ e :: older))
    (hf : f ∈ newer ++ e :: older) (hne : f ≠ e) (hfirst : ∀ o, P f o → e ∉ o) : f ∈ older := by
  rcases List.mem_append.mp hf with hf | hf
  · obtain ⟨n, o, rfl⟩ := List.append_of_mem hf
    rw [List.append_assoc] at h
    exact absurd (List.mem_append_right o List.mem_cons_self) (hfirst _ (past_append_cons h))
  · exact (List.mem_cons.mp hf).resolve_left hne

end History
