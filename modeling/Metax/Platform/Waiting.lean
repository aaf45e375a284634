import Mathlib.Data.List.Count
import Mathlib.Logic.Function.Basic
import Metax.Library.Run
import Metax.Platform.Fifo

/-!
# A task that waits for its inputs

Every part of metax is a task: it waits until one of its inputs has data and then calls the handler
of each of them, which takes one message. `task::wait` scans the inputs, sleeps on the signal of the
task if it finds nothing, and after that throws out the inputs that nobody writes to any more. All
the while the other tasks commit messages, deactivate their outputs and set the signal, so the scan
reads one input at a time.

* `handled_append_pending`: whatever the others do in between, each message is handled once and the
  messages of an input are handled in their order.
* `pending_eq_nil_of_sleeping`: no wake-up is lost. A task that sleeps, its signal not set, has
  nothing to do.
* `drained_of_left`: a task that was not cancelled stops only when all its inputs are deactivated
  and empty.
* `handled_in_turns`: a message waits for a bounded number of turns of the task.

A handler here takes the message it looks at. Some leave it in the fifo for a while:
`kernel::handle_ims_input` until there is a user json, the inputs of the router but those from the
configuration and the link until it is configured, those of the storage until its database is open,
`backup::handle_kernel_input` until there is a device json; and for good
`backup::handle_user_manager_input` at `finalize` and the inputs of `link_peer` at `shutdown` or
when the socket fails. For these inputs the last result begins when that is over.

The last three are about inputs that are used as `fifo` says: nothing is committed to an inactive
one. -/

namespace Metax

namespace Csp

universe u v

/-- A task: the inputs its loop handles, in their order, and the set that `wait` looks at. -/
structure Task (ι : Type u) where
  handlers : List ι
  inputs : List ι
  same : handlers.Perm inputs

/-- Where a task is in its loop and in `wait`. -/
inductive Place (ι : Type u)
  /-- In the loop, before the handlers of `rest`. -/
  | handling (rest : List ι)
  /-- At the start of `wait`. -/
  | entering
  /-- In the first loop of `wait`, before `rest`. -/
  | scanning (rest : List ι)
  /-- Data was found; the signal is to be reset. -/
  | found
  /-- At `m_signal->wait`. -/
  | sleeping
  /-- In the second loop of `wait`, before `rest`; `unused` is the clean-up list. -/
  | cleaning (rest unused : List ι)
  /-- An input was not active; it is asked for data. -/
  | inspecting (i : ι) (rest unused : List ι)
  /-- Something was thrown out; the signal is to be reset and `wait` called again. -/
  | again
  /-- `wait` returned false. -/
  | left
  deriving DecidableEq

/-- The inputs, the members of the task and where it is. `handled` are the messages it took. -/
structure State (ι : Type u) (α : Type v) where
  fifos : ι → Fifo α
  inputs : List ι
  signal : Bool
  cancelled : Bool
  place : Place ι
  handled : List (ι × α)

/-- What can happen: the task goes on, or somebody else does something to it. -/
inductive Event (ι : Type u) (α : Type v)
  | turn
  | write (i : ι) (f : α → α)
  | commit (i : ι)
  | deactivate (i : ι)
  | cancel
  | wakeUp

variable {ι : Type u} {α : Type v} [DecidableEq ι]

namespace State

/-- A handler of the loop: it looks for data, processes the front and consumes it. -/
def handle (s : State ι α) (i : ι) : Option (State ι α) :=
  if (s.fifos i).hasData then
    (s.fifos i).front.bind fun m => (s.fifos i).pop.map fun q =>
      { s with fifos := Function.update s.fifos i q, handled := s.handled ++ [(i, m)] }
  else some s

/-- The task goes on to the next point where somebody else may act, unless it sleeps or is done. -/
def turn (k : Task ι) (s : State ι α) : Option (State ι α) :=
  match s.place with
  | .handling [] => some { s with place := .entering }
  | .handling (i :: rest) => (s.handle i).map fun t => { t with place := .handling rest }
  | .entering =>
    if s.cancelled then some { s with inputs := [], place := .left }
    else some { s with place := .scanning s.inputs }
  | .scanning [] => some { s with place := if s.inputs.isEmpty then .left else .sleeping }
  | .scanning (i :: rest) =>
    some { s with place := if (s.fifos i).hasData then .found else .scanning rest }
  | .found => some { s with signal := false, place := .handling k.handlers }
  | .sleeping =>
    if s.signal then some { s with signal := false, place := .cleaning s.inputs [] } else none
  | .cleaning [] unused =>
    some { s with
      inputs := s.inputs.filter fun i => !unused.contains i
      place := if unused.isEmpty then .handling k.handlers else .again }
  | .cleaning (i :: rest) unused =>
    some { s with
      place := if (s.fifos i).active then .cleaning rest unused else .inspecting i rest unused }
  | .inspecting i rest unused =>
    some { s with place := .cleaning rest (if (s.fifos i).hasData then unused else i :: unused) }
  | .again => some { s with signal := false, place := .entering }
  | .left => none

variable [Inhabited α]

/-- One event. A commit and a deactivation set the signal. -/
def step (k : Task ι) (s : State ι α) : Event ι α → Option (State ι α)
  | .turn => s.turn k
  | .write i f => some { s with fifos := Function.update s.fifos i ((s.fifos i).write f) }
  | .commit i =>
    some { s with fifos := Function.update s.fifos i (s.fifos i).push, signal := true }
  | .deactivate i =>
    some { s with fifos := Function.update s.fifos i (s.fifos i).deactivate, signal := true }
  | .cancel => some { s with cancelled := true }
  | .wakeUp => some { s with signal := true }

/-- A task before its first `wait`, its inputs connected. -/
def start (k : Task ι) : State ι α where
  fifos _ := Fifo.new
  inputs := k.inputs
  signal := false
  cancelled := false
  place := .entering
  handled := []

end State

/-! ### What a turn can do -/

/-- What a turn can do, with what is known of each move. -/
inductive Turned (k : Task ι) (s : State ι α) : State ι α → Prop
  | goesOn (h : s.place = .handling []) : Turned k s { s with place := .entering }
  | passes {i : ι} {rest : List ι} (h : s.place = .handling (i :: rest))
    (hi : (s.fifos i).pending = []) : Turned k s { s with place := .handling rest }
  | handles {i : ι} {rest : List ι} {m : α} {q : Fifo α} (h : s.place = .handling (i :: rest))
    (hi : (s.fifos i).pending = m :: q.pending) (hback : q.back = (s.fifos i).back)
    (hactive : q.active = (s.fifos i).active) :
    Turned k s { s with
      fifos := Function.update s.fifos i q
      handled := s.handled ++ [(i, m)]
      place := .handling rest }
  | stops (h : s.place = .entering) (hc : s.cancelled = true) :
    Turned k s { s with inputs := [], place := .left }
  | scans (h : s.place = .entering) (hc : s.cancelled = false) :
    Turned k s { s with place := .scanning s.inputs }
  | finds {i : ι} {rest : List ι} (h : s.place = .scanning (i :: rest))
    (hi : (s.fifos i).pending ≠ []) : Turned k s { s with place := .found }
  | looksOn {i : ι} {rest : List ι} (h : s.place = .scanning (i :: rest))
    (hi : (s.fifos i).pending = []) : Turned k s { s with place := .scanning rest }
  | leaves (h : s.place = .scanning []) (hin : s.inputs = []) :
    Turned k s { s with place := .left }
  | sleeps (h : s.place = .scanning []) (hin : s.inputs ≠ []) :
    Turned k s { s with place := .sleeping }
  | serves (h : s.place = .found) :
    Turned k s { s with signal := false, place := .handling k.handlers }
  | wakes (h : s.place = .sleeping) (hs : s.signal = true) :
    Turned k s { s with signal := false, place := .cleaning s.inputs [] }
  | keeps {i : ι} {rest unused : List ι} (h : s.place = .cleaning (i :: rest) unused)
    (hi : (s.fifos i).active = true) : Turned k s { s with place := .cleaning rest unused }
  | inspects {i : ι} {rest unused : List ι} (h : s.place = .cleaning (i :: rest) unused)
    (hi : (s.fifos i).active = false) : Turned k s { s with place := .inspecting i rest unused }
  | spares {i : ι} {rest unused : List ι} (h : s.place = .inspecting i rest unused)
    (hi : (s.fifos i).pending ≠ []) : Turned k s { s with place := .cleaning rest unused }
  | condemns {i : ι} {rest unused : List ι} (h : s.place = .inspecting i rest unused)
    (hi : (s.fifos i).pending = []) : Turned k s { s with place := .cleaning rest (i :: unused) }
  | returns (h : s.place = .cleaning [] []) : Turned k s { s with place := .handling k.handlers }
  | throwsOut {unused : List ι} (h : s.place = .cleaning [] unused) (hu : unused ≠ []) :
    Turned k s { s with
      inputs := s.inputs.filter fun i => !unused.contains i
      place := .again }
  | retries (h : s.place = .again) : Turned k s { s with signal := false, place := .entering }

variable {k : Task ι} {s t : State ι α} {i : ι} {m : α}

/-- What a handler can do. -/
theorem turned_of_handle {rest : List ι} (hp : s.place = .handling (i :: rest))
    (h : s.handle i = some t) : Turned k s { t with place := .handling rest } := by
  unfold State.handle at h
  split_ifs at h with hd
  · obtain ⟨m, rest', hpend⟩ := List.exists_cons_of_ne_nil (Fifo.hasData_iff.mp hd)
    obtain ⟨q, hfront, hpop, hq, hback, hactive⟩ := Fifo.pop_of_pending hpend
    rw [hfront, hpop] at h
    obtain rfl := Option.some.inj h
    exact .handles hp (hq ▸ hpend) hback hactive
  · obtain rfl := Option.some.inj h
    exact .passes hp (by simpa using hd)

/-- **Every turn is one of these.** -/
theorem turned_of_turn (h : s.turn k = some t) : Turned k s t := by
  unfold State.turn at h
  -- by the place the reader is at, in the order of the function
  split at h
  case h_1 hp =>
    obtain rfl := Option.some.inj h
    exact .goesOn hp
  case h_2 i rest hp =>
    obtain ⟨u, hu, rfl⟩ := Option.map_eq_some_iff.mp h
    exact turned_of_handle hp hu
  case h_3 hp =>
    split_ifs at h with hc
    · obtain rfl := Option.some.inj h
      exact .stops hp hc
    · obtain rfl := Option.some.inj h
      exact .scans hp (by simpa using hc)
  -- nothing found in a scan: it sleeps, unless there is nothing to wait for
  case h_4 hp =>
    obtain rfl := Option.some.inj h
    by_cases hin : s.inputs = []
    · simpa [hin] using Turned.leaves (k := k) hp hin
    · simpa [hin] using Turned.sleeps (k := k) hp hin
  case h_5 i rest hp =>
    obtain rfl := Option.some.inj h
    by_cases hi : (s.fifos i).hasData = true
    · rw [if_pos hi]
      exact .finds hp (Fifo.hasData_iff.mp hi)
    · rw [if_neg hi]
      exact .looksOn hp (by simpa using hi)
  case h_6 hp =>
    obtain rfl := Option.some.inj h
    exact .serves hp
  case h_7 hp =>
    split_ifs at h with hs
    obtain rfl := Option.some.inj h
    exact .wakes hp hs
  -- behind the loop: the fifos that are left, if any
  case h_8 unused hp =>
    obtain rfl := Option.some.inj h
    by_cases hu : unused = []
    · subst hu
      simpa using Turned.returns (k := k) hp
    · simpa [hu] using Turned.throwsOut (k := k) hp hu
  case h_9 i rest unused hp =>
    obtain rfl := Option.some.inj h
    by_cases hi : (s.fifos i).active = true
    · rw [if_pos hi]
      exact .keeps hp hi
    · rw [if_neg hi]
      exact .inspects hp (by simpa using hi)
  case h_10 i rest unused hp =>
    obtain rfl := Option.some.inj h
    by_cases hi : (s.fifos i).hasData = true
    · rw [if_pos hi]
      exact .spares hp (Fifo.hasData_iff.mp hi)
    · rw [if_neg hi]
      exact .condemns hp (by simpa using hi)
  case h_11 hp =>
    obtain rfl := Option.some.inj h
    exact .retries hp
  case h_12 => cases h

/-- The task can go on unless it sleeps, its signal not set, or is done. -/
theorem exists_turn (hsleep : s.place = .sleeping → s.signal = true) (hleft : s.place ≠ .left) :
    ∃ t, s.turn k = some t := by
  unfold State.turn
  split
  case h_2 i rest hp =>
    unfold State.handle
    split_ifs with hd
    · obtain ⟨m, rest', hpend⟩ := List.exists_cons_of_ne_nil (Fifo.hasData_iff.mp hd)
      obtain ⟨q, hfront, hpop, -⟩ := Fifo.pop_of_pending hpend
      rw [hfront, hpop]
      exact ⟨_, rfl⟩
    · exact ⟨_, rfl⟩
  case h_3 =>
    split_ifs <;> exact ⟨_, rfl⟩
  case h_7 hp =>
    rw [if_pos (hsleep hp)]
    exact ⟨_, rfl⟩
  case h_12 hp => exact absurd hp hleft
  all_goals exact ⟨_, rfl⟩

/-! ### Each message once, in order -/

/-- The messages of an input that its handler took. -/
def State.handledOf (s : State ι α) (i : ι) : List α :=
  (s.handled.filter fun x => x.1 = i).map Prod.snd

/-- What the writers of an input do to it: the slot, and the messages committed so far. -/
def sentStep [Inhabited α] (i : ι) (w : α × List α) : Event ι α → α × List α
  | .write j f => if j = i then (f w.1, w.2) else w
  | .commit j => if j = i then (default, w.2 ++ [w.1]) else w
  | _ => w

/-- The messages committed to an input. -/
def sent [Inhabited α] (i : ι) (es : List (Event ι α)) : List α :=
  (es.foldl (sentStep i) (default, [])).2

/-- A turn takes at most the oldest message of an input, and changes neither its slot nor whether
it is active. -/
theorem Turned.channel (h : Turned k s t) (i : ι) :
    t.handledOf i ++ (t.fifos i).pending = s.handledOf i ++ (s.fifos i).pending ∧
      (t.fifos i).back = (s.fifos i).back ∧ (t.fifos i).active = (s.fifos i).active := by
  cases h with
  | @handles j rest m q _ hj hback hactive =>
    by_cases hij : j = i
    · subst hij
      simp [State.handledOf, hj, hback, hactive]
    · simp [State.handledOf, hij, Function.update_of_ne (Ne.symm hij)]
  | _ => exact ⟨rfl, rfl, rfl⟩

variable [Inhabited α] {e : Event ι α} {es es' : List (Event ι α)}

/-- The state after a write, a commit or a deactivation, seen from one input. -/
theorem step_channel {w : α × List α} (h : s.step k e = some t)
    (hs : s.handledOf i ++ (s.fifos i).pending = w.2 ∧ (s.fifos i).back = w.1) :
    t.handledOf i ++ (t.fifos i).pending = (sentStep i w e).2 ∧
      (t.fifos i).back = (sentStep i w e).1 := by
  obtain ⟨hw, hb⟩ := hs
  cases e with
  | turn =>
    obtain ⟨hpend, hback, -⟩ := (turned_of_turn h).channel i
    exact ⟨hpend.trans hw, hback.trans hb⟩
  | write j f =>
    obtain rfl := Option.some.inj h
    by_cases hij : j = i
    · subst hij
      simpa [sentStep, State.handledOf, hb] using hw
    · simpa [sentStep, State.handledOf, hij, Function.update_of_ne (Ne.symm hij)] using ⟨hw, hb⟩
  | commit j =>
    obtain rfl := Option.some.inj h
    by_cases hij : j = i
    · subst hij
      simpa [sentStep, State.handledOf, hb, ← List.append_assoc] using hw
    · simpa [sentStep, State.handledOf, hij, Function.update_of_ne (Ne.symm hij)] using ⟨hw, hb⟩
  | deactivate j =>
    obtain rfl := Option.some.inj h
    by_cases hij : j = i
    · subst hij
      simpa [sentStep, State.handledOf] using ⟨hw, hb⟩
    · simpa [sentStep, State.handledOf, Function.update_of_ne (Ne.symm hij)] using ⟨hw, hb⟩
  | cancel =>
    obtain rfl := Option.some.inj h
    exact ⟨hw, hb⟩
  | wakeUp =>
    obtain rfl := Option.some.inj h
    exact ⟨hw, hb⟩

/-- **Each message once, in order**: at any point of any run, what the handler of an input took and
what waits for it are together what was committed, in the order of the commits. -/
theorem handled_append_pending (k : Task ι) (es : List (Event ι α)) (i : ι)
    (h : Run.run (State.step k) (State.start k) es = some t) :
    t.handledOf i ++ (t.fifos i).pending = sent i es := by
  have hrel := Run.foldl_of_run (sentStep i)
    (fun s w => s.handledOf i ++ (s.fifos i).pending = w.2 ∧ (s.fifos i).back = w.1)
    (fun s e t w hs _ hstep => step_channel hstep hs)
    (b := (default, [])) ⟨rfl, rfl⟩ (Run.along_of_forall (p := fun _ => True) fun _ _ => trivial) h
  exact hrel.1

/-- Two inputs; the set of the inputs is in another order than the handlers. -/
def twoInputs : Task ℕ := ⟨[0, 1], [1, 0], List.Perm.swap 1 0 []⟩

/-- Two messages are written, one of them while the task scans, and one is taken. -/
def twoMessages : List (Event ℕ ℕ) :=
  [.write 0 (· + 5), .commit 0, .turn, .turn, .write 0 (· + 6), .commit 0, .turn, .turn, .turn]

theorem handled_append_pending_twoMessages : ∃ t,
    Run.run (State.step twoInputs) (State.start twoInputs) twoMessages = some t ∧
      t.handledOf 0 = [5] ∧ t.handledOf 0 ++ (t.fifos 0).pending = sent 0 twoMessages :=
  ⟨_, rfl, rfl, handled_append_pending twoInputs twoMessages 0 rfl⟩

/-! ### No wake-up is lost -/

/-- Nothing is committed to an input that is not active. -/
def Obeys (i : ι) (s : State ι α) : Event ι α → Prop
  | .commit j => j = i → (s.fifos i).active = true
  | .turn => True
  | .write _ _ => True
  | .deactivate _ => True
  | .cancel => True
  | .wakeUp => True

instance (i : ι) (s : State ι α) : ∀ e, Decidable (Obeys i s e)
  | .commit _ => inferInstanceAs (Decidable (_ → _))
  | .turn => .isTrue trivial
  | .write _ _ => .isTrue trivial
  | .deactivate _ => .isTrue trivial
  | .cancel => .isTrue trivial
  | .wakeUp => .isTrue trivial

/-- Nobody writes to the input any more, and all is taken. -/
def State.Drained (s : State ι α) (i : ι) : Prop :=
  (s.fifos i).active = false ∧ (s.fifos i).pending = []

/-- The task was cancelled and stopped. -/
def State.Stopped (s : State ι α) : Prop := s.cancelled = true ∧ s.place = .left

/-- What is known of an input that is still looked at, by the place of the task: where the scan has
passed it by it has no data or the signal is set. -/
def State.Noticed (s : State ι α) (i : ι) : Prop :=
  match s.place with
  | .scanning rest => i ∈ rest ∨ (s.fifos i).pending = [] ∨ s.signal = true
  | .sleeping => (s.fifos i).pending = [] ∨ s.signal = true
  | .cleaning _ unused => i ∉ unused
  | .inspecting j _ unused => (j = i → (s.fifos i).active = false) ∧ i ∉ unused
  | .left => False
  | _ => True

/-- **The invariant** of an input. -/
def State.Watched (s : State ι α) (i : ι) : Prop :=
  s.Drained i ∨ s.Stopped ∨ i ∈ s.inputs ∧ s.Noticed i

omit [Inhabited α] in
/-- A turn leaves a drained input drained. -/
theorem Turned.drained (h : Turned k s t) (hs : s.Drained i) : t.Drained i := by
  obtain ⟨hpend, -, hactive⟩ := h.channel i
  refine ⟨hactive.trans hs.1, ?_⟩
  cases h with
  | @handles j rest m q _ hj _ _ =>
    have hij : j ≠ i := by
      rintro rfl
      rw [hs.2] at hj
      cases hj
    simpa [Function.update_of_ne (Ne.symm hij)] using hs.2
  | _ => exact hs.2

omit [Inhabited α] in
/-- A turn keeps an input that is still looked at watched. -/
theorem Turned.watched (h : Turned k s t) (hin : i ∈ s.inputs) (hs : s.Noticed i) :
    t.Watched i := by
  cases h with
  | goesOn _ => exact .inr (.inr ⟨hin, trivial⟩)
  | passes _ _ => exact .inr (.inr ⟨hin, trivial⟩)
  | handles _ _ _ _ => exact .inr (.inr ⟨hin, trivial⟩)
  | stops _ hc => exact .inr (.inl ⟨hc, rfl⟩)
  | scans _ _ => exact .inr (.inr ⟨hin, .inl hin⟩)
  | finds _ _ => exact .inr (.inr ⟨hin, trivial⟩)
  | @looksOn j rest hp hj =>
    rw [State.Noticed, hp] at hs
    refine .inr (.inr ⟨hin, ?_⟩)
    rcases hs with hmem | hrest
    · rcases List.mem_cons.mp hmem with rfl | hmem
      · exact .inr (.inl hj)
      · exact .inl hmem
    · exact .inr hrest
  | leaves _ hnil =>
    rw [hnil] at hin
    cases hin
  | sleeps hp _ =>
    rw [State.Noticed, hp] at hs
    exact .inr (.inr ⟨hin, hs.resolve_left List.not_mem_nil⟩)
  | serves _ => exact .inr (.inr ⟨hin, trivial⟩)
  | wakes _ _ => exact .inr (.inr ⟨hin, List.not_mem_nil⟩)
  | keeps hp _ =>
    rw [State.Noticed, hp] at hs
    exact .inr (.inr ⟨hin, hs⟩)
  | @inspects j rest unused hp hj =>
    rw [State.Noticed, hp] at hs
    exact .inr (.inr ⟨hin, fun hij => hij ▸ hj, hs⟩)
  | spares hp _ =>
    rw [State.Noticed, hp] at hs
    exact .inr (.inr ⟨hin, hs.2⟩)
  | @condemns j rest unused hp hj =>
    rw [State.Noticed, hp] at hs
    by_cases hij : j = i
    · subst hij
      exact .inl ⟨hs.1 rfl, hj⟩
    · exact .inr (.inr ⟨hin, List.not_mem_cons_of_ne_of_not_mem (Ne.symm hij) hs.2⟩)
  | returns _ => exact .inr (.inr ⟨hin, trivial⟩)
  | @throwsOut unused hp _ =>
    rw [State.Noticed, hp] at hs
    exact .inr (.inr ⟨List.mem_filter.mpr ⟨hin, by simpa using hs⟩, trivial⟩)
  | retries _ => exact .inr (.inr ⟨hin, trivial⟩)

omit [DecidableEq ι] [Inhabited α] in
/-- Whoever sets the signal while the place of the task stays the same keeps an input noticed. -/
theorem State.Noticed.of_signal (hs : s.Noticed i) (hplace : t.place = s.place)
    (hactive : (s.fifos i).active = false → (t.fifos i).active = false)
    (hsignal : (t.fifos i).pending = (s.fifos i).pending ∧ (s.signal = true → t.signal = true) ∨
      t.signal = true) : t.Noticed i := by
  unfold State.Noticed at hs ⊢
  rw [hplace]
  cases hp : s.place with
  | scanning rest =>
    rw [hp] at hs
    rcases hsignal with ⟨hpend, hkept⟩ | hset
    · rw [hpend]
      exact hs.imp_right (Or.imp_right hkept)
    · exact .inr (.inr hset)
  | sleeping =>
    rw [hp] at hs
    rcases hsignal with ⟨hpend, hkept⟩ | hset
    · rw [hpend]
      exact hs.imp_right hkept
    · exact .inr hset
  | cleaning rest unused =>
    rw [hp] at hs
    exact hs
  | inspecting j rest unused =>
    rw [hp] at hs
    exact ⟨fun hij => hactive (hs.1 hij), hs.2⟩
  | left =>
    rw [hp] at hs
    exact hs
  | _ => trivial

/-- One event keeps an input watched. -/
theorem watched_step (hs : s.Watched i) (hok : Obeys i s e) (h : s.step k e = some t) :
    t.Watched i := by
  cases e with
  -- the reader's own turn
  | turn =>
    have hturn := turned_of_turn h
    rcases hs with hdrained | ⟨-, hleft⟩ | ⟨hin, hnoticed⟩
    · exact .inl (hturn.drained hdrained)
    · rw [State.step, State.turn, hleft] at h
      cases h
    · exact hturn.watched hin hnoticed
  -- a writer fills a slot, which nobody sees until it is committed
  | write j f =>
    obtain rfl := Option.some.inj h
    have hkept : ((Function.update s.fifos j ((s.fifos j).write f)) i).pending =
        (s.fifos i).pending ∧
        ((Function.update s.fifos j ((s.fifos j).write f)) i).active = (s.fifos i).active := by
      by_cases hij : i = j
      · subst hij
        rw [Function.update_self]
        exact ⟨Fifo.pending_write f, rfl⟩
      · rw [Function.update_of_ne hij]
        exact ⟨rfl, rfl⟩
    refine hs.imp (fun hd => ⟨hkept.2.trans hd.1, hkept.1.trans hd.2⟩) (Or.imp_right ?_)
    exact And.imp_right fun hn => hn.of_signal rfl (fun ha => hkept.2.trans ha) (.inl ⟨hkept.1, id⟩)
  -- a commit signals, so the fifo is noticed; after a deactivation there is none
  | commit j =>
    obtain rfl := Option.some.inj h
    by_cases hij : i = j
    · subst hij
      have hactive := hok rfl
      refine hs.imp (fun hd => absurd (hactive.symm.trans hd.1) Bool.noConfusion) (Or.imp_right ?_)
      refine And.imp_right fun hn => hn.of_signal rfl (fun ha => ?_) (.inr rfl)
      exact absurd (hactive.symm.trans ha) Bool.noConfusion
    · have hsame : (Function.update s.fifos j (s.fifos j).push) i = s.fifos i :=
        Function.update_of_ne hij _ _
      refine hs.imp (fun hd => ?_) (Or.imp_right ?_)
      · exact ⟨(congrArg Fifo.active hsame).trans hd.1, (congrArg Fifo.pending hsame).trans hd.2⟩
      · refine And.imp_right fun hn => hn.of_signal rfl (fun ha => ?_) (.inr rfl)
        exact (congrArg Fifo.active hsame).trans ha
  -- so does a deactivation, which keeps what is pending
  | deactivate j =>
    obtain rfl := Option.some.inj h
    have hkept : ((Function.update s.fifos j (s.fifos j).deactivate) i).pending =
        (s.fifos i).pending ∧ ((s.fifos i).active = false →
          ((Function.update s.fifos j (s.fifos j).deactivate) i).active = false) := by
      by_cases hij : i = j
      · subst hij
        rw [Function.update_self]
        exact ⟨rfl, fun _ => rfl⟩
      · rw [Function.update_of_ne hij]
        exact ⟨rfl, id⟩
    refine hs.imp (fun hd => ⟨hkept.2 hd.1, hkept.1.trans hd.2⟩) (Or.imp_right ?_)
    exact And.imp_right fun hn => hn.of_signal rfl hkept.2 (.inr rfl)
  -- cancelling and spurious wake-ups
  | cancel =>
    obtain rfl := Option.some.inj h
    refine hs.imp id (Or.imp (fun hst => ⟨rfl, hst.2⟩) ?_)
    exact And.imp_right fun hn => hn.of_signal rfl id (.inl ⟨rfl, id⟩)
  | wakeUp =>
    obtain rfl := Option.some.inj h
    refine hs.imp id (Or.imp id ?_)
    exact And.imp_right fun hn => hn.of_signal rfl id (.inr rfl)

/-- In every run that obeys the rule for an input, the input is watched. -/
theorem watched_of_run (hi : i ∈ k.inputs)
    (hok : Run.Along (State.step k) (Obeys i) (State.start k) es)
    (h : Run.run (State.step k) (State.start k) es = some t) : t.Watched i :=
  Run.invariant_of_run (fun s => s.Watched i) (fun _ _ _ hs hok hstep => watched_step hs hok hstep)
    (.inr (.inr ⟨hi, trivial⟩)) hok h

/-- **No wake-up is lost**: in every run, when the task sleeps and its signal is not set, there is
no message for it in any input that is used as it should be. -/
theorem pending_eq_nil_of_sleeping (hi : i ∈ k.inputs)
    (hok : Run.Along (State.step k) (Obeys i) (State.start k) es)
    (h : Run.run (State.step k) (State.start k) es = some t)
    (hsleep : t.place = .sleeping) (hsignal : t.signal = false) : (t.fifos i).pending = [] := by
  rcases watched_of_run hi hok h with hdrained | ⟨-, hleft⟩ | ⟨-, hnoticed⟩
  · exact hdrained.2
  · rw [hsleep] at hleft
    cases hleft
  · rw [State.Noticed, hsleep] at hnoticed
    exact hnoticed.resolve_right (by simp [hsignal])

/-- A message is taken, and the task sleeps. -/
def oneMessage : List (Event ℕ ℕ) :=
  .commit 1 :: List.replicate 10 .turn

theorem pending_eq_nil_of_sleeping_oneMessage : ∃ t,
    Run.run (State.step twoInputs) (State.start twoInputs) oneMessage = some t ∧
      t.handledOf 1 = [0] ∧ (t.fifos 1).pending = [] :=
  have hok : Run.Along (State.step twoInputs) (Obeys 1) (State.start twoInputs) oneMessage := by
    decide
  ⟨_, rfl, rfl, pending_eq_nil_of_sleeping (by decide) hok rfl rfl rfl⟩

/-- **A task leaves nothing behind**: in every run, a task that stopped without being cancelled has
taken every message of every input that is used as it should be, and nobody can write to it. -/
theorem drained_of_left (hi : i ∈ k.inputs)
    (hok : Run.Along (State.step k) (Obeys i) (State.start k) es)
    (h : Run.run (State.step k) (State.start k) es = some t)
    (hleft : t.place = .left) (hcancel : t.cancelled = false) :
    (t.fifos i).active = false ∧ t.handledOf i = sent i es := by
  have hall := handled_append_pending k es i h
  rcases watched_of_run hi hok h with hdrained | ⟨hc, -⟩ | ⟨-, hnoticed⟩
  · rw [hdrained.2, List.append_nil] at hall
    exact ⟨hdrained.1, hall⟩
  · exact absurd (hcancel.symm.trans hc) Bool.noConfusion
  · rw [State.Noticed, hleft] at hnoticed
    exact hnoticed.elim

/-- A message is taken, and both inputs are deactivated while the task sleeps. -/
def closing : List (Event ℕ ℕ) :=
  oneMessage ++ .deactivate 1 :: .deactivate 0 :: List.replicate 9 .turn

theorem drained_of_left_closing : ∃ t,
    Run.run (State.step twoInputs) (State.start twoInputs) closing = some t ∧
      (t.fifos 1).active = false ∧ t.handledOf 1 = sent 1 closing :=
  have hok : Run.Along (State.step twoInputs) (Obeys 1) (State.start twoInputs) closing := by
    decide
  ⟨_, rfl, drained_of_left (by decide) hok rfl rfl rfl⟩

/-! ### How long a message waits -/

/-- A turn of the task. -/
def Event.isTurn : Event ι α → Bool
  | .turn => true
  | _ => false

/-- The task is cancelled. -/
def Event.isCancel : Event ι α → Bool
  | .cancel => true
  | _ => false

/-- An event after which the task may still be served: nobody cancels it, and nothing is committed
to an inactive input. -/
def Fair (i : ι) (s : State ι α) (e : Event ι α) : Prop := Obeys i s e ∧ e.isCancel = false

instance (i : ι) (s : State ι α) (e : Event ι α) : Decidable (Fair i s e) :=
  inferInstanceAs (Decidable (_ ∧ _))

/-- How far the task may be in its lists. -/
def State.Fits (k : Task ι) (s : State ι α) : Prop :=
  s.inputs.length ≤ k.inputs.length ∧
    match s.place with
    | .handling rest => rest.length ≤ k.inputs.length
    | .scanning rest => rest.length ≤ k.inputs.length
    | .cleaning rest _ => rest.length ≤ k.inputs.length
    | .inspecting _ rest _ => rest.length ≤ k.inputs.length
    | _ => True

/-- The most turns the task takes from its place until it looks at a message of the input. -/
def State.rank (k : Task ι) (i : ι) (s : State ι α) : ℕ :=
  match s.place with
  | .handling rest =>
    if i ∈ rest then rest.length else rest.length + 2 * k.inputs.length + 3
  | .entering => 2 * k.inputs.length + 2
  | .scanning rest =>
    if i ∈ rest then rest.length + k.inputs.length + 1
    else rest.length + 4 * k.inputs.length + 6
  | .found => k.inputs.length + 1
  | .sleeping => 4 * k.inputs.length + 5
  | .cleaning rest _ => 2 * rest.length + 2 * k.inputs.length + 4
  | .inspecting _ rest _ => 2 * rest.length + 2 * k.inputs.length + 5
  | .again => 2 * k.inputs.length + 3
  | .left => 0

/-- The turns within which a message is looked at. -/
def Task.patience (k : Task ι) : ℕ := 5 * k.inputs.length + 7

omit [DecidableEq ι] [Inhabited α] in
theorem Task.length_handlers (k : Task ι) : k.handlers.length = k.inputs.length :=
  k.same.length_eq

omit [Inhabited α] in
theorem State.rank_lt_patience (hs : s.Fits k) : s.rank k i < k.patience := by
  obtain ⟨-, hplace⟩ := hs
  unfold State.rank Task.patience
  cases hp : s.place with
  | handling rest =>
    rw [hp] at hplace
    dsimp only at hplace ⊢
    split_ifs <;> omega
  | scanning rest =>
    rw [hp] at hplace
    dsimp only at hplace ⊢
    split_ifs <;> omega
  | cleaning rest unused =>
    rw [hp] at hplace
    dsimp only at hplace ⊢
    omega
  | inspecting j rest unused =>
    rw [hp] at hplace
    dsimp only at hplace ⊢
    omega
  | _ =>
    dsimp only
    omega

omit [Inhabited α] in
/-- A turn keeps the bounds. -/
theorem Turned.fits (h : Turned k s t) (hs : s.Fits k) : t.Fits k := by
  obtain ⟨hin, hplace⟩ := hs
  cases h with
  | passes hp _ =>
    rw [hp] at hplace
    exact ⟨hin, (Nat.le_succ _).trans hplace⟩
  | handles hp _ _ _ =>
    rw [hp] at hplace
    exact ⟨hin, (Nat.le_succ _).trans hplace⟩
  | stops _ _ => exact ⟨Nat.zero_le _, trivial⟩
  | scans _ _ => exact ⟨hin, hin⟩
  | looksOn hp _ =>
    rw [hp] at hplace
    exact ⟨hin, (Nat.le_succ _).trans hplace⟩
  | serves _ => exact ⟨hin, k.length_handlers.le⟩
  | wakes _ _ => exact ⟨hin, hin⟩
  | keeps hp _ =>
    rw [hp] at hplace
    exact ⟨hin, (Nat.le_succ _).trans hplace⟩
  | inspects hp _ =>
    rw [hp] at hplace
    exact ⟨hin, (Nat.le_succ _).trans hplace⟩
  | spares hp _ =>
    rw [hp] at hplace
    exact ⟨hin, hplace⟩
  | condemns hp _ =>
    rw [hp] at hplace
    exact ⟨hin, hplace⟩
  | returns _ => exact ⟨hin, k.length_handlers.le⟩
  | throwsOut _ _ => exact ⟨(List.length_filter_le _ _).trans hin, trivial⟩
  | goesOn _ => exact ⟨hin, trivial⟩
  | finds _ _ => exact ⟨hin, trivial⟩
  | leaves _ _ => exact ⟨hin, trivial⟩
  | sleeps _ _ => exact ⟨hin, trivial⟩
  | retries _ => exact ⟨hin, trivial⟩

omit [Inhabited α] in
/-- **A turn brings the task nearer** to a message that waits, or takes it. -/
theorem Turned.nearer (h : Turned k s t) (hi : i ∈ k.inputs) (hs : s.Fits k)
    (hcancel : s.cancelled = false) (hin : i ∈ s.inputs) (hpend : (s.fifos i).pending ≠ []) :
    (s.handledOf i).length < (t.handledOf i).length ∨
      t.handledOf i = s.handledOf i ∧ t.rank k i < s.rank k i := by
  have hhandlers : i ∈ k.handlers := k.same.mem_iff.mpr hi
  have hlength := k.length_handlers
  -- the rank counts the moves until the input is looked at: each move takes one off or handles it
  cases h with
  | goesOn hp =>
    refine .inr ⟨rfl, ?_⟩
    simp only [State.rank, hp, List.not_mem_nil, if_false, List.length_nil]
    omega
  | @passes j rest hp hj =>
    have hij : i ≠ j := by
      rintro rfl
      exact hpend hj
    refine .inr ⟨rfl, ?_⟩
    simp only [State.rank, hp, List.mem_cons, hij, false_or, List.length_cons]
    split_ifs <;> omega
  | @handles j rest m q hp hj hback hactive =>
    by_cases hij : i = j
    · subst hij
      refine .inl ?_
      simp [State.handledOf]
    · refine .inr ⟨by simp [State.handledOf, Ne.symm hij], ?_⟩
      simp only [State.rank, hp, List.mem_cons, hij, false_or, List.length_cons]
      split_ifs <;> omega
  | stops hp hc => exact absurd (hcancel.symm.trans hc) Bool.noConfusion
  | scans hp _ =>
    have hle := hs.1
    refine .inr ⟨rfl, ?_⟩
    simp only [State.rank, hp, if_pos hin]
    omega
  | @finds j rest hp hj =>
    refine .inr ⟨rfl, ?_⟩
    simp only [State.rank, hp, List.length_cons]
    split_ifs <;> omega
  | @looksOn j rest hp hj =>
    have hij : i ≠ j := by
      rintro rfl
      exact hpend hj
    refine .inr ⟨rfl, ?_⟩
    simp only [State.rank, hp, List.mem_cons, hij, false_or, List.length_cons]
    split_ifs <;> omega
  | leaves _ hnil =>
    rw [hnil] at hin
    cases hin
  | sleeps hp _ =>
    refine .inr ⟨rfl, ?_⟩
    simp only [State.rank, hp, List.not_mem_nil, if_false, List.length_nil]
    omega
  | serves hp =>
    refine .inr ⟨rfl, ?_⟩
    simp only [State.rank, hp, if_pos hhandlers]
    omega
  | wakes hp _ =>
    have hle := hs.1
    refine .inr ⟨rfl, ?_⟩
    simp only [State.rank, hp]
    omega
  | returns hp =>
    refine .inr ⟨rfl, ?_⟩
    simp only [State.rank, hp, if_pos hhandlers, List.length_nil]
    omega
  | keeps hp _ =>
    refine .inr ⟨rfl, ?_⟩
    simp only [State.rank, hp, List.length_cons]
    omega
  | inspects hp _ =>
    refine .inr ⟨rfl, ?_⟩
    simp only [State.rank, hp, List.length_cons]
    omega
  | spares hp _ =>
    refine .inr ⟨rfl, ?_⟩
    simp only [State.rank, hp]
    omega
  | condemns hp _ =>
    refine .inr ⟨rfl, ?_⟩
    simp only [State.rank, hp]
    omega
  | throwsOut hp _ =>
    refine .inr ⟨rfl, ?_⟩
    simp only [State.rank, hp, List.length_nil]
    omega
  | retries hp =>
    refine .inr ⟨rfl, ?_⟩
    simp only [State.rank, hp]
    omega

/-- The messages of an input, taken or not, only get more. -/
theorem prefix_of_step (h : s.step k e = some t) :
    s.handledOf i ++ (s.fifos i).pending <+: t.handledOf i ++ (t.fifos i).pending := by
  obtain ⟨hall, -⟩ := step_channel (i := i)
    (w := ((s.fifos i).back, s.handledOf i ++ (s.fifos i).pending)) h ⟨rfl, rfl⟩
  rw [hall]
  cases e with
  | commit j =>
    dsimp only [sentStep]
    split_ifs
    · exact List.prefix_append _ _
    · exact List.prefix_rfl
  | write j f =>
    dsimp only [sentStep]
    split_ifs <;> exact List.prefix_rfl
  | _ => exact List.prefix_rfl

/-- What is known while fewer than `m` messages of the input were taken and there are so many. -/
structure State.Awaiting (k : Task ι) (i : ι) (m : ℕ) (s : State ι α) : Prop where
  watched : s.Watched i
  cancelled : s.cancelled = false
  fits : s.Fits k
  early : (s.handledOf i).length < m
  enough : m ≤ (s.handledOf i ++ (s.fifos i).pending).length

omit [Inhabited α] in
theorem State.Awaiting.pending_ne_nil {n : ℕ} (hs : s.Awaiting k i n) :
    (s.fifos i).pending ≠ [] := by
  intro hnil
  have henough := hs.enough
  rw [hnil, List.append_nil] at henough
  exact absurd hs.early (Nat.not_lt.mpr henough)

omit [DecidableEq ι] [Inhabited α] in
/-- An input with a message is looked at. -/
theorem State.Watched.mem_inputs (hs : s.Watched i) (hcancel : s.cancelled = false)
    (hpend : (s.fifos i).pending ≠ []) : i ∈ s.inputs ∧ s.Noticed i := by
  rcases hs with hdrained | ⟨hc, -⟩ | hlive
  · exact absurd hdrained.2 hpend
  · exact absurd (hcancel.symm.trans hc) Bool.noConfusion
  · exact hlive

/-- The turns that are left until `m` messages are taken. -/
def State.distance (k : Task ι) (i : ι) (m : ℕ) (s : State ι α) : ℕ :=
  (m - 1 - (s.handledOf i).length) * k.patience + s.rank k i

/-- One event on the way to the `m`-th message. -/
theorem State.Awaiting.step {n : ℕ} (hi : i ∈ k.inputs) (hs : s.Awaiting k i n) (hok : Fair i s e)
    (h : s.step k e = some t) :
    n ≤ (t.handledOf i).length ∨
      t.Awaiting k i n ∧
        t.distance k i n + (if e.isTurn then 1 else 0) ≤ s.distance k i n := by
  have hwatched := watched_step hs.watched hok.1 h
  have henough := hs.enough.trans (prefix_of_step (i := i) h).length_le
  by_cases hdone : n ≤ (t.handledOf i).length
  · exact .inl hdone
  refine .inr ?_
  cases e with
  | turn =>
    have hturn := turned_of_turn h
    have hlive := hs.watched.mem_inputs hs.cancelled hs.pending_ne_nil
    have hcancel : t.cancelled = false := by
      rw [← hs.cancelled]
      cases hturn <;> rfl
    refine ⟨⟨hwatched, hcancel, hturn.fits hs.fits, Nat.not_le.mp hdone, henough⟩, ?_⟩
    have hpatience := State.rank_lt_patience (i := i) (hturn.fits hs.fits)
    simp only [State.distance, Event.isTurn, if_true]
    rcases hturn.nearer hi hs.fits hs.cancelled hlive.1 hs.pending_ne_nil with hmore | ⟨hsame, hlt⟩
    · obtain ⟨g, hg⟩ : ∃ g, n - 1 - (s.handledOf i).length = g + 1 :=
        ⟨n - 1 - (s.handledOf i).length - 1, by omega⟩
      have hle : (n - 1 - (t.handledOf i).length) * k.patience ≤ g * k.patience :=
        Nat.mul_le_mul_right _ (by omega)
      rw [hg, Nat.succ_mul]
      omega
    · rw [hsame]
      omega
  | write j f =>
    obtain rfl := Option.some.inj h
    exact ⟨⟨hwatched, hs.cancelled, hs.fits, hs.early, henough⟩, le_rfl⟩
  | commit j =>
    obtain rfl := Option.some.inj h
    exact ⟨⟨hwatched, hs.cancelled, hs.fits, hs.early, henough⟩, le_rfl⟩
  | deactivate j =>
    obtain rfl := Option.some.inj h
    exact ⟨⟨hwatched, hs.cancelled, hs.fits, hs.early, henough⟩, le_rfl⟩
  | cancel => exact absurd hok.2 Bool.noConfusion
  | wakeUp =>
    obtain rfl := Option.some.inj h
    exact ⟨⟨hwatched, hs.cancelled, hs.fits, hs.early, henough⟩, le_rfl⟩

/-- What a task taken is never given back. -/
theorem length_handledOf_step (h : s.step k e = some t) :
    (s.handledOf i).length ≤ (t.handledOf i).length := by
  cases e with
  | turn =>
    cases turned_of_turn h with
    | handles _ _ _ _ =>
      simp only [State.handledOf, List.filter_append, List.map_append, List.length_append]
      exact Nat.le_add_right _ _
    | _ => exact le_rfl
  | _ =>
    obtain rfl := Option.some.inj h
    exact le_rfl

/-- The bounds hold in every run. -/
theorem fits_of_run (h : Run.run (State.step k) (State.start k) es = some t) : t.Fits k := by
  refine Run.invariant_of_run_all (fun s => s.Fits k) (fun s e t hs hstep => ?_)
    ⟨le_rfl, trivial⟩ h
  cases e with
  | turn => exact (turned_of_turn hstep).fits hs
  | _ =>
    obtain rfl := Option.some.inj hstep
    exact hs

/-- Without a cancellation the task is not cancelled. -/
theorem cancelled_of_run
    (hok : Run.Along (State.step k) (Fair i) (State.start k) es)
    (h : Run.run (State.step k) (State.start k) es = some t) : t.cancelled = false := by
  refine Run.invariant_of_run (fun s => s.cancelled = false) (fun s e t hs hfair hstep => ?_)
    rfl hok h
  cases e with
  | turn =>
    rw [← hs]
    cases turned_of_turn hstep <;> rfl
  | cancel => exact absurd hfair.2 Bool.noConfusion
  | _ =>
    obtain rfl := Option.some.inj hstep
    exact hs

/-- **Every message is served**: a task that is not cancelled and has a message in an input that is
used as it should be can go on, and after `n` times `patience` turns, whatever happens in between,
it has taken the `n` oldest messages that the input had. -/
theorem handled_in_turns {n : ℕ} (hi : i ∈ k.inputs)
    (hok : Run.Along (State.step k) (Fair i) (State.start k) (es ++ es'))
    (h : Run.run (State.step k) (State.start k) es = some s) (hn : 0 < n)
    (hpend : n ≤ (s.fifos i).pending.length) :
    (∃ u, s.step k .turn = some u) ∧
      ∀ t, Run.run (State.step k) s es' = some t → n * k.patience ≤ es'.countP Event.isTurn →
        s.handledOf i ++ (s.fifos i).pending.take n <+: t.handledOf i := by
  obtain ⟨hbefore, hafter⟩ := Run.along_append.mp hok
  have hwatched := watched_of_run hi (hbefore.mono fun _ _ hfair => hfair.1) h
  have hcancel := cancelled_of_run hbefore h
  have hfits := fits_of_run h
  have hne : (s.fifos i).pending ≠ [] := List.ne_nil_of_length_pos (hn.trans_le hpend)
  obtain ⟨-, hnoticed⟩ := hwatched.mem_inputs hcancel hne
  constructor
  · refine exists_turn (fun hsleep => ?_) fun hleft => ?_
    · rw [State.Noticed, hsleep] at hnoticed
      exact hnoticed.resolve_left hne
    · rw [State.Noticed, hleft] at hnoticed
      exact hnoticed
  intro t hrun hturns
  -- the goal of the progress rule: `n` more messages were taken
  have hlength : (s.handledOf i).length + n ≤ (t.handledOf i).length := by
    refine Run.goal_of_run (fun u => u.Awaiting k i ((s.handledOf i).length + n))
      (fun u => (s.handledOf i).length + n ≤ (u.handledOf i).length)
      (fun u => u.distance k i ((s.handledOf i).length + n)) Event.isTurn
      (fun u e v hu hfair hstep => hu.step hi hfair hstep)
      (fun u e v hu hstep => hu.trans (length_handledOf_step hstep))
      ⟨hwatched, hcancel, hfits, by omega, ?_⟩ (hafter s h) hrun ?_
    swap
    · rw [List.length_append]
      omega
    · have hpatience := State.rank_lt_patience (i := i) hfits
      obtain ⟨g, rfl⟩ : ∃ g, n = g + 1 := ⟨n - 1, by omega⟩
      have hg : (s.handledOf i).length + (g + 1) - 1 - (s.handledOf i).length = g := by omega
      rw [State.distance, hg]
      rw [Nat.succ_mul] at hturns
      omega
  -- both are beginnings of what was committed
  have hgrown : s.handledOf i ++ (s.fifos i).pending <+: t.handledOf i ++ (t.fifos i).pending :=
    Run.invariant_of_run_all
      (fun u => s.handledOf i ++ (s.fifos i).pending <+: u.handledOf i ++ (u.fifos i).pending)
      (fun u e v hu hstep => hu.trans (prefix_of_step hstep)) List.prefix_rfl hrun
  have htaken : s.handledOf i ++ (s.fifos i).pending.take n <+:
      s.handledOf i ++ (s.fifos i).pending :=
    List.prefix_append_right_inj _ |>.mpr (List.take_prefix _ _)
  refine List.prefix_of_prefix_length_le (htaken.trans hgrown) (List.prefix_append _ _) ?_
  rw [List.length_append, List.length_take]
  omega

/-- The second message is taken, and the timer wakes the task up. -/
def laterTurns : List (Event ℕ ℕ) :=
  List.replicate 13 .turn ++ .wakeUp :: List.replicate 4 .turn

theorem handled_in_turns_twoMessages : ∃ s t,
    Run.run (State.step twoInputs) (State.start twoInputs) twoMessages = some s ∧
      Run.run (State.step twoInputs) s laterTurns = some t ∧
      s.handledOf 0 ++ (s.fifos 0).pending.take 1 <+: t.handledOf 0 :=
  have hok : Run.Along (State.step twoInputs) (Fair 0) (State.start twoInputs)
      (twoMessages ++ laterTurns) := by
    decide
  ⟨_, _, rfl, rfl,
    (handled_in_turns (by decide) hok rfl Nat.one_pos (by decide)).2 _ rfl (by decide)⟩

end Csp

end Metax
