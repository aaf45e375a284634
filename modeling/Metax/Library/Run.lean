import Mathlib.Data.List.Basic
import Mathlib.Data.Option.Basic

/-!
# Runs of a partial step function

A machine is a step function `step : σ → ε → Option σ`: it consumes an event and moves to
the next state, or halts (`none`). A run feeds it a list of events.

`Along ok` says that every event of a run is consumed in a state where `ok` holds of it.
`invariant_of_run` is the one induction over runs: a property of states which every `ok`
step keeps holds at the end of every run whose steps are all `ok`.

A run that halts has no result, so a property of what a run leads to is stated of every state that
is reached, and that it goes on at all is a statement of its own (`isSome_run_iff`).
-/

namespace Run

universe u v

variable {σ : Type u} {ε : Type v} (step : σ → ε → Option σ)

/-- The state reached by consuming the events in order, if the machine never halts. -/
def run : σ → List ε → Option σ
  | s, [] => some s
  | s, e :: es => (step s e).bind fun t => run t es

/-- Every step of the run is taken under the condition `ok`. -/
def Along (ok : σ → ε → Prop) : σ → List ε → Prop
  | _, [] => True
  | s, e :: es => ok s e ∧ ∀ t ∈ step s e, Along ok t es

/-- On a concrete run the condition can be evaluated. -/
instance Along.decidable (ok : σ → ε → Prop) [∀ s e, Decidable (ok s e)] :
    ∀ (s : σ) (es : List ε), Decidable (Along step ok s es)
  | _, [] => .isTrue trivial
  | s, e :: es =>
    have : ∀ t, Decidable (Along step ok t es) := fun t => Along.decidable ok t es
    inferInstanceAs (Decidable (ok s e ∧ ∀ t ∈ step s e, Along step ok t es))

variable {step} {ok : σ → ε → Prop} {s t : σ} {e : ε} {es : List ε}

@[simp]
theorem run_nil : run step s [] = some s := rfl

theorem run_cons : run step s (e :: es) = (step s e).bind fun t => run step t es := rfl

theorem run_cons_eq_some :
    run step s (e :: es) = some t ↔ ∃ m, step s e = some m ∧ run step m es = some t := by
  rw [run_cons, Option.bind_eq_some_iff]

theorem run_append (es' : List ε) :
    run step s (es ++ es') = (run step s es).bind fun m => run step m es' := by
  induction es generalizing s with
  | nil => rfl
  | cons e es ih =>
    rw [List.cons_append, run_cons, run_cons, Option.bind_assoc]
    exact congrArg _ (funext fun m => ih)

theorem run_append_eq_some {es' : List ε} :
    run step s (es ++ es') = some t ↔ ∃ m, run step s es = some m ∧ run step m es' = some t := by
  rw [run_append, Option.bind_eq_some_iff]

/-- Events that are given by something else. -/
theorem run_map {α : Type*} (f : α → ε) (as : List α) :
    run step s (as.map f) = run (fun s a => step s (f a)) s as := by
  induction as generalizing s with
  | nil => rfl
  | cons a as ih => exact congrArg _ (funext fun t => ih)

theorem along_map {α : Type*} (f : α → ε) (as : List α) :
    Along step ok s (as.map f) ↔ Along (fun s a => step s (f a)) (fun s a => ok s (f a)) s as := by
  induction as generalizing s with
  | nil => exact Iff.rfl
  | cons a as ih => exact and_congr_right fun _ => forall₂_congr fun t _ => ih

/-- **Run rule.** A property kept by every `ok` step is kept by every run of `ok` steps. -/
theorem invariant_of_run (Inv : σ → Prop)
    (hstep : ∀ s e t, Inv s → ok s e → step s e = some t → Inv t)
    (hs : Inv s) (hok : Along step ok s es) (hrun : run step s es = some t) : Inv t := by
  induction es generalizing s with
  | nil =>
    obtain rfl : s = t := by simpa using hrun
    exact hs
  | cons e es ih =>
    obtain ⟨m, hm, hrest⟩ := run_cons_eq_some.mp hrun
    exact ih (hstep s e m hs hok.1 hm) (hok.2 m hm) hrest

/-- When a step keeps the property exactly under `ok`, the property holds after every step of a
run exactly when every step of it is `ok`. `Base` is what is known of all states. -/
theorem along_iff_of_exact (Base Inv : σ → Prop)
    (hbase : ∀ s e t, Base s → step s e = some t → Base t)
    (hexact : ∀ s e t, Base s → Inv s → step s e = some t → (Inv t ↔ ok s e))
    (hs : Base s) (hinv : Inv s) (hrun : (run step s es).isSome) :
    Along step (fun s e => ∀ t ∈ step s e, Inv t) s es ↔ Along step ok s es := by
  induction es generalizing s with
  | nil => exact Iff.rfl
  | cons e es ih =>
    obtain ⟨t, ht⟩ := Option.isSome_iff_exists.mp hrun
    obtain ⟨m, hm, hrest⟩ := run_cons_eq_some.mp ht
    have hm' : Base m := hbase s e m hs hm
    have hstep : (∀ t ∈ step s e, Inv t) ↔ ok s e := by
      rw [← hexact s e m hs hinv hm, hm]
      simp
    constructor
    · rintro ⟨hnext, htail⟩
      refine ⟨hstep.mp hnext, fun t ht => ?_⟩
      obtain rfl : m = t := Option.some.inj (hm.symm.trans ht)
      exact (ih hm' (hnext m hm) (Option.isSome_of_mem hrest)).mp (htail m hm)
    · rintro ⟨hok, htail⟩
      refine ⟨hstep.mpr hok, fun t ht => ?_⟩
      obtain rfl : m = t := Option.some.inj (hm.symm.trans ht)
      exact (ih hm' (hstep.mpr hok m hm) (Option.isSome_of_mem hrest)).mpr (htail m hm)

/-- When an invariant lets every `ok` step keep it, and a step from it ends well exactly if it is
`ok`, every step of a run ends well exactly if every step of it is `ok`. -/
theorem along_iff_of_kept (Inv Good : σ → Prop)
    (hkept : ∀ s e t, Inv s → ok s e → step s e = some t → Inv t)
    (hexact : ∀ s e t, Inv s → step s e = some t → (Good t ↔ ok s e))
    (hs : Inv s) (hrun : (run step s es).isSome) :
    Along step (fun s e => ∀ t ∈ step s e, Good t) s es ↔ Along step ok s es := by
  induction es generalizing s with
  | nil => exact Iff.rfl
  | cons e es ih =>
    obtain ⟨t, ht⟩ := Option.isSome_iff_exists.mp hrun
    obtain ⟨m, hm, hrest⟩ := run_cons_eq_some.mp ht
    have hgood : (∀ t ∈ step s e, Good t) ↔ ok s e := by
      rw [← hexact s e m hs hm, hm]
      simp
    rw [Along, Along, hgood]
    refine and_congr_right fun hok => ?_
    rw [hm]
    simp only [Option.mem_some_iff, forall_eq']
    exact ih (hkept s e m hs hok hm) (Option.isSome_of_mem hrest)

/-- When the machine halts exactly outside `ok`, a run goes through exactly when every step of it
is `ok`. `Base` is what is known of all states. -/
theorem isSome_run_iff (Base : σ → Prop)
    (hbase : ∀ s e t, Base s → step s e = some t → Base t)
    (hlive : ∀ s e, Base s → ((step s e).isSome ↔ ok s e)) (hs : Base s) :
    (run step s es).isSome ↔ Along step ok s es := by
  induction es generalizing s with
  | nil => exact iff_of_true rfl trivial
  | cons e es ih =>
    rw [run_cons]
    cases hstep : step s e with
    | none =>
      refine iff_of_false nofun fun h => ?_
      have hsome := (hlive s e hs).mpr h.1
      rw [hstep] at hsome
      cases hsome
    | some m =>
      have hok : ok s e := (hlive s e hs).mp (by rw [hstep]; rfl)
      rw [Option.bind_some, ih (hbase s e m hs hstep)]
      constructor
      · intro htail
        refine ⟨hok, fun t ht => ?_⟩
        obtain rfl : m = t := Option.some.inj (hstep.symm.trans ht)
        exact htail
      · exact fun h => h.2 m hstep

/-- A run of `ok` steps goes through if an invariant lets every `ok` step be taken. -/
theorem isSome_of_along (Inv : σ → Prop)
    (hstep : ∀ s e, Inv s → ok s e → ∃ t, step s e = some t ∧ Inv t)
    (hs : Inv s) (hok : Along step ok s es) : (run step s es).isSome := by
  induction es generalizing s with
  | nil => rfl
  | cons e es ih =>
    obtain ⟨t, ht, hinv⟩ := hstep s e hs hok.1
    rw [run_cons, ht]
    exact ih hinv (hok.2 t ht)

theorem Along.mono {ok' : σ → ε → Prop} (h : ∀ s e, ok s e → ok' s e)
    (hok : Along step ok s es) : Along step ok' s es := by
  induction es generalizing s with
  | nil => trivial
  | cons e es ih => exact ⟨h s e hok.1, fun t ht => ih (hok.2 t ht)⟩

/-- Two conditions at once. -/
theorem Along.and {ok' : σ → ε → Prop} (h : Along step ok s es) (h' : Along step ok' s es) :
    Along step (fun s e => ok s e ∧ ok' s e) s es := by
  induction es generalizing s with
  | nil => trivial
  | cons e es ih => exact ⟨⟨h.1, h'.1⟩, fun t ht => ih (h.2 t ht) (h'.2 t ht)⟩

/-- An invariant that every `ok` step keeps can be used to show more of each step. -/
theorem Along.of_invariant (Inv : σ → Prop) {post : σ → ε → Prop}
    (hstep : ∀ s e t, Inv s → ok s e → step s e = some t → Inv t)
    (hpost : ∀ s e, Inv s → ok s e → post s e) (hs : Inv s) (hok : Along step ok s es) :
    Along step post s es := by
  induction es generalizing s with
  | nil => trivial
  | cons e es ih =>
    exact ⟨hpost s e hs hok.1, fun t ht => ih (hstep s e t hs hok.1 ht) (hok.2 t ht)⟩

/-- One more step before a run. -/
theorem along_cons (hok : ok s e) (hstep : step s e = some t) (h : Along step ok t es) :
    Along step ok s (e :: es) :=
  ⟨hok, fun _ ht => Option.some.inj (hstep.symm.trans ht) ▸ h⟩

/-- The two parts of a run are taken under the same condition. -/
theorem along_append {es' : List ε} : Along step ok s (es ++ es') ↔
    Along step ok s es ∧ ∀ t ∈ run step s es, Along step ok t es' := by
  induction es generalizing s with
  | nil => simp [Along]
  | cons e es ih =>
    simp only [List.cons_append, Along, ih, and_assoc, run_cons]
    refine and_congr_right fun _ => ?_
    cases hstep : step s e with
    | none => simp
    | some m => simp

/-- A condition on the events alone. -/
theorem along_of_forall {p : ε → Prop} (h : ∀ e ∈ es, p e) :
    Along step (fun _ e => p e) s es := by
  induction es generalizing s with
  | nil => trivial
  | cons e es ih =>
    refine ⟨h e List.mem_cons_self, fun t _ => ih fun e' he' => ?_⟩
    exact h e' (List.mem_cons_of_mem _ he')

/-- The run rule without a condition on the steps. -/
theorem invariant_of_run_all (Inv : σ → Prop)
    (hstep : ∀ s e t, Inv s → step s e = some t → Inv t)
    (hs : Inv s) (hrun : run step s es = some t) : Inv t := by
  have hall : Along step (fun _ _ => True) s es := along_of_forall fun _ _ => trivial
  exact invariant_of_run Inv (fun s e t hs _ => hstep s e t hs) hs hall hrun

/-- A condition on the events alone, met along a run that goes through, is met by all events. -/
theorem forall_of_along {p : ε → Prop} (h : Along step (fun _ e => p e) s es)
    (hrun : (run step s es).isSome) : ∀ e ∈ es, p e := by
  induction es generalizing s with
  | nil => exact List.forall_mem_nil _
  | cons e es ih =>
    obtain ⟨t, ht⟩ := Option.isSome_iff_exists.mp hrun
    obtain ⟨m, hm, hrest⟩ := run_cons_eq_some.mp ht
    exact List.forall_mem_cons.mpr ⟨h.1, ih (h.2 m hm) (Option.isSome_of_mem hrest)⟩

/-- When the machine goes on and does what it should exactly under `ok`, a run goes through and does
what it should in every step exactly when every step of it is `ok`. -/
theorem isSome_and_along_iff (Base : σ → Prop) {post : σ → ε → Prop}
    (hbase : ∀ s e t, Base s → step s e = some t → Base t)
    (hexact : ∀ s e, Base s → ((step s e).isSome ∧ post s e ↔ ok s e)) (hs : Base s) :
    (run step s es).isSome ∧ Along step post s es ↔ Along step ok s es := by
  induction es generalizing s with
  | nil => exact iff_of_true ⟨rfl, trivial⟩ trivial
  | cons e es ih =>
    rw [run_cons]
    constructor
    · rintro ⟨hsome, hpost, htail⟩
      have hstep : (step s e).isSome := Option.isSome_of_isSome_bind hsome
      refine ⟨(hexact s e hs).mp ⟨hstep, hpost⟩, fun t ht => ?_⟩
      have ht' : step s e = some t := ht
      rw [ht', Option.bind_some] at hsome
      exact (ih (hbase s e t hs ht')).mp ⟨hsome, htail t ht⟩
    · rintro ⟨hok, htail⟩
      obtain ⟨hstep, hpost⟩ := (hexact s e hs).mpr hok
      obtain ⟨t, ht⟩ := Option.isSome_iff_exists.mp hstep
      obtain ⟨hsome, halong⟩ := (ih (hbase s e t hs ht)).mpr (htail t ht)
      refine ⟨by rwa [ht, Option.bind_some], hpost, fun m hm => ?_⟩
      obtain rfl : t = m := Option.some.inj (ht.symm.trans hm)
      exact halong

/-- When a step is taken and keeps the invariant exactly under `ok`, a run goes through with the
invariant after every step exactly when every step of it is `ok`. -/
theorem isSome_and_along_inv_iff (Inv : σ → Prop)
    (hexact : ∀ s e, Inv s → ((∃ t, step s e = some t ∧ Inv t) ↔ ok s e)) (hs : Inv s) :
    (run step s es).isSome ∧ Along step (fun s e => ∀ t ∈ step s e, Inv t) s es ↔
      Along step ok s es := by
  induction es generalizing s with
  | nil => exact iff_of_true ⟨rfl, trivial⟩ trivial
  | cons e es ih =>
    constructor
    · rintro ⟨hrun, hkept, halong⟩
      obtain ⟨t, ht⟩ := Option.isSome_iff_exists.mp hrun
      obtain ⟨m, hm, hrest⟩ := run_cons_eq_some.mp ht
      have htail := (ih (hkept m hm)).mp ⟨Option.isSome_of_mem hrest, halong m hm⟩
      exact along_cons ((hexact s e hs).mp ⟨m, hm, hkept m hm⟩) hm htail
    · rintro ⟨hok, halong⟩
      obtain ⟨m, hm, hinv⟩ := (hexact s e hs).mpr hok
      obtain ⟨hrun, htail⟩ := (ih hinv).mpr (halong m hm)
      refine ⟨by rwa [run_cons, hm], along_cons (fun t ht => ?_) hm htail⟩
      exact Option.some.inj (hm.symm.trans ht) ▸ hinv

/-- When a step is possible exactly for some events, a run is possible exactly for sequences of
them. -/
theorem isSome_run_iff_forall {p : ε → Prop} (h : ∀ s e, (step s e).isSome ↔ p e) :
    (run step s es).isSome ↔ ∀ e ∈ es, p e := by
  induction es generalizing s with
  | nil => exact iff_of_true rfl (List.forall_mem_nil _)
  | cons e es ih =>
    rw [List.forall_mem_cons, ← h s e, run_cons]
    cases step s e with
    | none => simp
    | some m => simpa using ih

/-- **Counting rule.** What grows by one with the events of a kind, and not otherwise, has grown by
their number at the end of a run. -/
theorem countP_of_run (Inv : σ → Prop) (m : σ → ℕ) (p : ε → Bool)
    (hstep : ∀ s e t, Inv s → ok s e → step s e = some t →
      Inv t ∧ m t = m s + if p e then 1 else 0)
    (hs : Inv s) (hok : Along step ok s es) (hrun : run step s es = some t) :
    m t = m s + es.countP p := by
  induction es generalizing s with
  | nil =>
    obtain rfl : s = t := by simpa using hrun
    rfl
  | cons e es ih =>
    obtain ⟨n, hn, hrest⟩ := run_cons_eq_some.mp hrun
    obtain ⟨hinv, hone⟩ := hstep s e n hs hok.1 hn
    rw [ih hinv (hok.2 n hn) hrest, hone, List.countP_cons, Nat.add_right_comm, Nat.add_assoc]

/-- A step that does nothing when what it is about is not there. -/
theorem of_elim_eq_some {α : Type*} {P : σ → Prop} {x : Option α} {f : α → Option σ} (hs : P s)
    (hstep : x.elim (some s) f = some t) (hf : ∀ a, x = some a → f a = some t → P t) : P t := by
  cases x with
  | none => exact Option.some.inj hstep ▸ hs
  | some a => exact hf a rfl hstep

/-- **Refinement to a fold.** What every `ok` step keeps of a value that is folded over the events
holds of the value folded over the whole run. -/
theorem foldl_of_run {β : Type*} (f : β → ε → β) (R : σ → β → Prop)
    (hstep : ∀ s e t b, R s b → ok s e → step s e = some t → R t (f b e)) {b : β}
    (hs : R s b) (hok : Along step ok s es) (hrun : run step s es = some t) :
    R t (es.foldl f b) := by
  induction es generalizing s b with
  | nil =>
    obtain rfl : s = t := by simpa using hrun
    exact hs
  | cons e es ih =>
    obtain ⟨m, hm, hrest⟩ := run_cons_eq_some.mp hrun
    exact ih (hstep s e m b hs hok.1 hm) (hok.2 m hm) hrest

/-- **Progress rule.** When every `ok` step reaches the goal or keeps the invariant without raising
the rank, a tick lowers the rank, and the goal is not left again, a run with more ticks than the
rank reaches the goal. -/
theorem goal_of_run (Inv Goal : σ → Prop) (rank : σ → ℕ) (tick : ε → Bool)
    (hstep : ∀ s e t, Inv s → ok s e → step s e = some t →
      Goal t ∨ Inv t ∧ rank t + (if tick e then 1 else 0) ≤ rank s)
    (hgoal : ∀ s e t, Goal s → step s e = some t → Goal t)
    (hs : Inv s) (hok : Along step ok s es) (hrun : run step s es = some t)
    (hticks : rank s < es.countP tick) : Goal t := by
  induction es generalizing s with
  | nil => exact absurd hticks (Nat.not_lt_zero _)
  | cons e es ih =>
    obtain ⟨m, hm, hrest⟩ := run_cons_eq_some.mp hrun
    rcases hstep s e m hs hok.1 hm with hreached | ⟨hinv, hrank⟩
    · exact invariant_of_run_all Goal hgoal hreached hrest
    · refine ih hinv (hok.2 m hm) hrest ?_
      rw [List.countP_cons] at hticks
      omega

/-- The first event of a kind. -/
theorem exists_first {p : ε → Prop} (h : ∃ e ∈ es, p e) :
    ∃ pre e post, es = pre ++ e :: post ∧ p e ∧ ∀ e' ∈ pre, ¬ p e' := by
  induction es with
  | nil =>
    obtain ⟨e, he, -⟩ := h
    cases he
  | cons e es ih =>
    by_cases he : p e
    · exact ⟨[], e, es, rfl, he, nofun⟩
    · have hrest : ∃ e ∈ es, p e := by simpa [he] using h
      obtain ⟨pre, e', post, rfl, he', hpre⟩ := ih hrest
      refine ⟨e :: pre, e', post, rfl, he', ?_⟩
      exact List.forall_mem_cons.mpr ⟨he, hpre⟩

end Run
