import Mathlib.Tactic.SplitIfs

/-!
# Exits of handlers with exceptions and assertions

A handler works on a state and ends in one of three ways: normally, with an exception that
leaves the state as it was when it was raised, or with a failed assertion, after which there is
no state any more.

`Ends D X` is the weakest precondition of an exit: a normal end satisfies `D`, an exception
leaves a state that satisfies `X`. Its rules follow the way a handler is put together, so a
statement about a handler is a statement about what is known where it ends. `Lives` says that no
assertion fails on the way, with rules of the same form.
-/

universe u

/-- How a handler ends. -/
inductive Exit (σ : Type u)
  | done (s : σ)
  | threw (s : σ)
  | aborted
  deriving DecidableEq

namespace Exit

variable {σ : Type u} {D D' X X' : σ → Prop} {o : Exit σ} {f : σ → Exit σ} {s s' : σ}
  {c : Prop} [Decidable c]

/-- Go on after a normal end. -/
def andThen : Exit σ → (σ → Exit σ) → Exit σ
  | done s, f => f s
  | threw s, _ => threw s
  | aborted, _ => aborted

/-- An assertion before the rest of a handler. -/
def assert (c : Prop) [Decidable c] (o : Exit σ) : Exit σ := if c then o else aborted

/-- An exception in the state `s`, unless there is a value to go on with. -/
def orThrow {α : Type u} (a : Option α) (s : σ) (f : α → Exit σ) : Exit σ :=
  match a with
  | none => threw s
  | some a => f a

/-- The state that is left, if the program goes on. -/
def state : Exit σ → Option σ
  | done s => some s
  | threw s => some s
  | aborted => none

/-- The state of a normal end. -/
def normal : Exit σ → Option σ
  | done s => some s
  | threw _ => none
  | aborted => none

/-- A normal end satisfies `D`, an exception leaves `X`. -/
def Ends (D X : σ → Prop) : Exit σ → Prop
  | done s => D s
  | threw s => X s
  | aborted => True

@[simp]
theorem done_andThen : (done s).andThen f = f s := rfl

@[simp]
theorem threw_andThen : (threw s).andThen f = threw s := rfl

@[simp]
theorem aborted_andThen : aborted.andThen f = aborted := rfl

@[simp]
theorem ends_done : (done s).Ends D X ↔ D s := Iff.rfl

@[simp]
theorem ends_threw : (threw s).Ends D X ↔ X s := Iff.rfl

@[simp]
theorem ends_aborted : aborted.Ends D X := trivial

/-- To show how an operation ends, go through it: an assertion may be taken to hold. -/
@[simp]
theorem ends_assert : (assert c o).Ends D X ↔ (c → o.Ends D X) := by
  unfold assert
  split_ifs with hc
  · simp [hc]
  · simp [hc]

/-- **Sequencing.** The rest of the handler starts where the first part ends normally. -/
@[simp]
theorem ends_andThen :
    (o.andThen f).Ends D X ↔ o.Ends (fun s => (f s).Ends D X) X := by
  cases o <;> rfl

/-- What is absent throws, and what is there is gone on with. -/
theorem ends_orThrow {α : Type u} {a : Option α} {g : α → Exit σ} (hs : X s)
    (hg : ∀ x ∈ a, (g x).Ends D X) : (orThrow a s g).Ends D X := by
  cases a with
  | none => exact hs
  | some a => exact hg a rfl

/-- Each branch under its condition. -/
theorem ends_ite {o' : Exit σ} :
    (if c then o else o').Ends D X ↔ (c → o.Ends D X) ∧ (¬ c → o'.Ends D X) := by
  split_ifs with hc
  · simp [hc]
  · simp [hc]

/-- **Consequence.** -/
theorem Ends.mono (h : o.Ends D X) (hD : ∀ s, D s → D' s) (hX : ∀ s, X s → X' s) :
    o.Ends D' X' := by
  cases o with
  | done s => exact hD s h
  | threw s => exact hX s h
  | aborted => trivial

/-- Two properties of the end are shown one after the other. -/
theorem Ends.and (h : o.Ends D X) (h' : o.Ends D' X') :
    o.Ends (fun s => D s ∧ D' s) fun s => X s ∧ X' s := by
  cases o with
  | done s => exact ⟨h, h'⟩
  | threw s => exact ⟨h, h'⟩
  | aborted => trivial

/-- What holds however a handler ends holds of the state that is left. -/
theorem Ends.of_state (h : o.Ends D D) (hs : o.state = some s) : D s := by
  cases o with
  | done t =>
    obtain rfl : t = s := by simpa [state] using hs
    exact h
  | threw t =>
    obtain rfl : t = s := by simpa [state] using hs
    exact h
  | aborted => simp [state] at hs

/-- What comes back normally has the property of normal ends. -/
theorem Ends.of_normal (h : o.Ends D X) (hs : o.normal = some s) : D s := by
  cases o with
  | done t =>
    obtain rfl : t = s := by simpa [normal] using hs
    exact h
  | threw t => simp [normal] at hs
  | aborted => simp [normal] at hs

@[simp]
theorem state_eq_none : o.state = none ↔ o = aborted := by
  cases o <;> simp [state]

theorem assert_of_pos (hc : c) : assert c o = o := if_pos hc

theorem assert_of_neg (hc : ¬ c) : assert c o = aborted := if_neg hc

/-- An operation aborts where one of its assertions fails. -/
@[simp]
theorem assert_eq_aborted : assert c o = aborted ↔ (c → o = aborted) := by
  unfold assert
  split_ifs with hc
  · simp [hc]
  · simp [hc]

/-- Or a later part of it does. -/
@[simp]
theorem andThen_eq_aborted :
    o.andThen f = aborted ↔ o = aborted ∨ ∃ s, o = done s ∧ f s = aborted := by
  cases o <;> simp [andThen]

/-! ### No assertion fails -/

/-- The handler does not abort. -/
def Lives (o : Exit σ) : Prop := o ≠ aborted

@[simp]
theorem lives_done : (done s).Lives := nofun

@[simp]
theorem lives_threw : (threw s).Lives := nofun

@[simp]
theorem not_lives_aborted : ¬ (aborted : Exit σ).Lives := fun h => h rfl

/-- That an operation does not abort is found out in the same way. -/
@[simp]
theorem lives_assert : (assert c o).Lives ↔ c ∧ o.Lives := by
  unfold assert
  split_ifs with hc
  · simp [hc]
  · simp [hc]

/-- The second part has to be looked at only where the first comes to its end. -/
theorem lives_andThen : (o.andThen f).Lives ↔ o.Lives ∧ ∀ s, o = done s → (f s).Lives := by
  cases o with
  | done s => simp
  | threw s => simp
  | aborted => simp

/-- The rest of the handler has no assertion left. -/
theorem lives_andThen_of (h : ∀ s, (f s).Lives) : (o.andThen f).Lives ↔ o.Lives :=
  lives_andThen.trans (and_iff_left fun s _ => h s)

theorem lives_ite {o' : Exit σ} :
    (if c then o else o').Lives ↔ (c → o.Lives) ∧ (¬ c → o'.Lives) := by
  split_ifs with hc
  · simp [hc]
  · simp [hc]

/-- Branch by branch. -/
theorem lives_ite_congr {o' : Exit σ} {P P' : Prop} (h : o.Lives ↔ P) (h' : o'.Lives ↔ P') :
    (if c then o else o').Lives ↔ if c then P else P' := by
  split_ifs
  · exact h
  · exact h'

/-- An operation that does not abort leaves a state. -/
theorem isSome_state : o.state.isSome ↔ o.Lives := by
  cases o with
  | done s => simp [state]
  | threw s => simp [state]
  | aborted => simp [state]

/-- An exception is no failed assertion. -/
theorem lives_orThrow {α : Type u} {a : Option α} {g : α → Exit σ} :
    (orThrow a s g).Lives ↔ ∀ x ∈ a, (g x).Lives := by
  cases a with
  | none => exact iff_of_true lives_threw nofun
  | some a => exact ⟨fun h x hx => Option.some.inj hx ▸ h, fun h => h a rfl⟩

/-! ### Normal ends -/

@[simp]
theorem normal_done : (done s).normal = some s := rfl

@[simp]
theorem normal_threw : (threw s).normal = none := rfl

@[simp]
theorem normal_aborted : (aborted : Exit σ).normal = none := rfl

/-- A sequence ends normally if both parts do. -/
theorem normal_andThen : (o.andThen f).normal = o.normal.bind fun s => (f s).normal := by
  cases o <;> rfl

/-- For a normal end an assertion has to hold as well. -/
theorem isSome_normal_assert : (assert c o).normal.isSome ↔ c ∧ o.normal.isSome := by
  unfold assert
  split_ifs with hc
  · simp [hc]
  · simp [hc]

/-- There is no normal end without the value to go on with. -/
theorem isSome_normal_orThrow {α : Type u} {a : Option α} {g : α → Exit σ} :
    (orThrow a s g).normal.isSome ↔ ∃ x ∈ a, (g x).normal.isSome := by
  cases a with
  | none =>
    refine iff_of_false nofun ?_
    rintro ⟨x, hx, -⟩
    cases hx
  | some a =>
    refine ⟨fun h => ⟨a, rfl, h⟩, ?_⟩
    rintro ⟨x, hx, hg⟩
    exact Option.some.inj hx ▸ hg

end Exit
