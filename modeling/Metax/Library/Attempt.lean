import Mathlib.Data.Option.Basic
import Mathlib.Tactic.SplitIfs

/-!
# Operations that throw exceptions

An operation on a state ends with a value or with an exception, and what it did to the state before
an exception stays done: `Attempt` is the exception monad over the state monad. `catching` is a
`try` block with a handler for some of the exceptions.

An operation is run step by step (`bind_of_ok`, `bind_of_error`, `catching_of_ok`,
`catching_of_error`). That a property of the state survives however the operation ends is `Keeps`,
with rules for operations put together.

A `try` block that turns an exception into a reply is `catching` with the reply as its handler; what
was changed before stays changed, as in the programs this is for.
-/

universe u

/-- An operation that ends with a value or an exception. -/
abbrev Attempt (ε σ α : Type u) := ExceptT ε (StateM σ) α

namespace Attempt

variable {ε σ α β : Type u}

/-- A computation that does not touch the state. -/
def lift (x : Except ε α) : Attempt ε σ α := fun s => (x, s)

/-- A change of the state. -/
def change (f : σ → σ) : Attempt ε σ PUnit := fun s => (.ok ⟨⟩, f s)

/-- A value of the state. -/
def read (f : σ → α) : Attempt ε σ α := fun s => (.ok (f s), s)

/-- The exception, if there is one. -/
def raise (e : Option ε) : Attempt ε σ PUnit := fun s => (e.elim (.ok ⟨⟩) .error, s)

/-- An assertion, with the exception it throws. -/
def ensure (e : ε) (c : Prop) [Decidable c] : Attempt ε σ PUnit :=
  raise (if c then none else some e)

/-- An operation under a condition. -/
def onlyIf (c : Prop) [Decidable c] (x : Attempt ε σ PUnit) : Attempt ε σ PUnit :=
  if c then x else pure ⟨⟩

/-- A `try` block. `h` is what is done for an exception, where it is caught. -/
def catching (x : Attempt ε σ α) (h : ε → Option (Attempt ε σ α)) : Attempt ε σ α := fun s =>
  match x s with
  | (.ok a, t) => (.ok a, t)
  | (.error e, t) => (h e).elim (.error e, t) fun y => y t

variable {x : Attempt ε σ α} {f : α → Attempt ε σ β} {h : ε → Option (Attempt ε σ α)} {s t : σ}
  {a : α} {e : ε} {c : Prop} [Decidable c]

/-! ### Running -/

/-- Two operations in turn: the second one goes on with the value of the first, unless there is
none. -/
theorem bind_of_ok (hx : x s = (.ok a, t)) : (x >>= f) s = f a t := by
  simp only [bind, ExceptT.bind, ExceptT.mk, StateT.bind, hx]
  rfl

theorem bind_of_error (hx : x s = (.error e, t)) : (x >>= f) s = (.error e, t) := by
  simp only [bind, ExceptT.bind, ExceptT.mk, StateT.bind, hx]
  rfl

/-- A handler is looked at only when there is an exception. -/
theorem catching_of_ok (hx : x s = (.ok a, t)) : x.catching h s = (.ok a, t) := by
  rw [catching, hx]

theorem catching_of_error (hx : x s = (.error e, t)) :
    x.catching h s = (h e).elim (.error e, t) fun y => y t := by
  rw [catching, hx]

/-- The operations that an operation is made of, each with what it does. -/
@[simp]
theorem pure_run : (pure a : Attempt ε σ α) s = (.ok a, s) := rfl

theorem ensure_of_pos (hc : c) : (ensure e c : Attempt ε σ PUnit) s = (.ok ⟨⟩, s) := by
  rw [ensure, if_pos hc]
  rfl

theorem ensure_of_neg (hc : ¬ c) : (ensure e c : Attempt ε σ PUnit) s = (.error e, s) := by
  rw [ensure, if_neg hc]
  rfl

theorem change_run (g : σ → σ) : (change g : Attempt ε σ PUnit) s = (.ok ⟨⟩, g s) := rfl

theorem read_run (g : σ → α) : (read g : Attempt ε σ α) s = (.ok (g s), s) := rfl

theorem lift_of_ok {r : Except ε α} (hr : r = .ok a) :
    (lift r : Attempt ε σ α) s = (.ok a, s) := by
  rw [hr]
  rfl

theorem lift_of_error {r : Except ε α} (hr : r = .error e) :
    (lift r : Attempt ε σ α) s = (.error e, s) := by
  rw [hr]
  rfl

theorem raise_of_none {o : Option ε} (ho : o = none) :
    (raise o : Attempt ε σ PUnit) s = (.ok ⟨⟩, s) := by
  rw [ho]
  rfl

theorem raise_of_some {o : Option ε} (ho : o = some e) :
    (raise o : Attempt ε σ PUnit) s = (.error e, s) := by
  rw [ho]
  rfl

theorem onlyIf_of_pos {y : Attempt ε σ PUnit} (hc : c) : onlyIf c y = y := if_pos hc

theorem onlyIf_of_neg {y : Attempt ε σ PUnit} (hc : ¬ c) : onlyIf c y s = (.ok ⟨⟩, s) := by
  rw [onlyIf, if_neg hc]
  rfl

/-! ### What survives -/

/-- The property of the state survives. -/
def Keeps (P : σ → Prop) (x : Attempt ε σ α) : Prop := ∀ s, P s → P (x s).2

variable {P : σ → Prop}

/-- The rules for `Keeps`, from the parts of an operation to the whole. -/
theorem keeps_pure : Keeps P (pure a : Attempt ε σ α) := fun _ hs => hs

theorem keeps_lift {r : Except ε α} : Keeps P (lift r) := fun _ hs => hs

theorem keeps_read {g : σ → α} : Keeps P (read g : Attempt ε σ α) := fun _ hs => hs

theorem keeps_raise {o : Option ε} : Keeps P (raise o) := fun _ hs => hs

/-- A change of the state has to keep the property by itself. -/
theorem keeps_change {g : σ → σ} (hg : ∀ s, P s → P (g s)) :
    Keeps P (change g : Attempt ε σ PUnit) := hg

theorem keeps_onlyIf {y : Attempt ε σ PUnit} (hy : Keeps P y) : Keeps P (onlyIf c y) := by
  rw [onlyIf]
  split_ifs
  · exact hy
  · exact keeps_pure

/-- **Sequencing.** -/
theorem keeps_bind (hx : Keeps P x) (hf : ∀ a, Keeps P (f a)) : Keeps P (x >>= f) := by
  intro s hs
  have ht := hx s hs
  cases hrun : x s with
  | mk r t =>
    rw [hrun] at ht
    cases r with
    | ok a =>
      rw [bind_of_ok hrun]
      exact hf a t ht
    | error e =>
      rw [bind_of_error hrun]
      exact ht

/-! ### What is returned -/

/-- A value that is returned has the property. -/
def Gives (p : α → Prop) (x : Attempt ε σ α) : Prop := ∀ s a t, x s = (.ok a, t) → p a

variable {p : β → Prop}

/-- The rules for `Gives`, which looks at the value only. -/
theorem gives_pure {b : β} (hb : p b) : Gives p (pure b : Attempt ε σ β) := by
  intro s b' t h
  have heq : Except.ok b = Except.ok (ε := ε) b' := congrArg Prod.fst h
  rwa [← Except.ok.inj heq]

theorem gives_bind (hf : ∀ a, Gives p (f a)) : Gives p (x >>= f) := by
  intro s b t h
  cases hrun : x s with
  | mk r m =>
    cases r with
    | ok a =>
      rw [bind_of_ok hrun] at h
      exact hf a m b t h
    | error e =>
      rw [bind_of_error hrun] at h
      cases h

theorem gives_lift {r : Except ε β} (hr : ∀ b, r = .ok b → p b) :
    Gives p (lift r : Attempt ε σ β) :=
  fun _ b _ h => hr b (congrArg Prod.fst h)

end Attempt

/-- What a computation returns after another one. -/
theorem Except.exists_of_bind_eq_ok {ε α β : Type u} {x : Except ε α} {f : α → Except ε β} {b : β}
    (h : (x >>= f) = .ok b) : ∃ a, x = .ok a ∧ f a = .ok b := by
  cases x with
  | ok a => exact ⟨a, rfl, h⟩
  | error e => cases h

/-- The same for computations without a state. -/
theorem Except.forall_ok_bind {ε α β : Type u} {x : Except ε α} {f : α → Except ε β} {p : β → Prop}
    (hf : ∀ a b, f a = .ok b → p b) : ∀ b, (x >>= f) = .ok b → p b := by
  intro b h
  obtain ⟨a, -, ha⟩ := Except.exists_of_bind_eq_ok h
  exact hf a b ha

theorem Except.forall_ok_pure {ε β : Type u} {b : β} {p : β → Prop} (hb : p b) :
    ∀ b', (pure b : Except ε β) = .ok b' → p b' := by
  intro b' h
  rwa [← Except.ok.inj h]

/-- An exception is forgotten at the end or at every step. -/
theorem Except.toOption_bind {ε α β : Type u} {x : Except ε α} {f : α → Except ε β} :
    (x >>= f).toOption = x.toOption.bind fun a => (f a).toOption := by
  cases x with
  | ok a => rfl
  | error e => rfl

theorem Except.toOption_foldlM {ε α β : Type u} {f : β → α → Except ε β} {g : β → α → Option β}
    (h : ∀ b a, (f b a).toOption = g b a) (l : List α) (b : β) :
    (l.foldlM f b).toOption = l.foldlM g b := by
  induction l generalizing b with
  | nil => rfl
  | cons a l ih =>
    rw [List.foldlM_cons, List.foldlM_cons, Except.toOption_bind, h]
    exact congrArg _ (funext ih)
