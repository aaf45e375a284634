import Mathlib.Data.List.Sort
import Mathlib.Order.Defs.Unbundled

/-!
# Heaps in an array

A list is a *heap* for a comparator when no element is before one of its two children, which are
at the places `2 * i + 1` and `2 * i + 2`. For a strict weak order the front of a heap is then
before no element at all (`IsHeap.front`): only this is needed of an algorithm that builds heaps,
whatever order it leaves the other elements in. `BuildsHeaps` is the contract of such an algorithm.
-/

namespace MaxHeap

universe u

variable {α : Type u} {lt : α → α → Bool} {l : List α} {a b c : α}

/-- The comparator is a strict weak order. -/
abbrev StrictWeak (lt : α → α → Bool) : Prop := IsStrictWeakOrder α fun a b => lt a b = true

/-- Not to be before is transitive. -/
theorem StrictWeak.not_lt_trans (h : StrictWeak lt) (hab : lt a b = false) (hbc : lt b c = false) :
    lt a c = false := by
  by_contra hac
  have hac : lt a c = true := Bool.eq_true_of_not_eq_false hac
  by_cases hba : lt b a = true
  · exact Bool.eq_false_iff.mp hbc (h.trans b a c hba hac)
  by_cases hcb : lt c b = true
  · exact Bool.eq_false_iff.mp hab (h.trans a c b hac hcb)
  · have hincomp := h.incomp_trans a b c ⟨Bool.eq_false_iff.mp hab, hba⟩
      ⟨Bool.eq_false_iff.mp hbc, hcb⟩
    exact hincomp.1 hac

/-- No element is before one of its children. -/
def IsHeap (lt : α → α → Bool) (l : List α) : Prop :=
  ∀ i a b, 0 < i → l[(i - 1) / 2]? = some a → l[i]? = some b → lt a b = false

/-- **The front of a heap is before no element of it.** -/
theorem IsHeap.front (hlt : StrictWeak lt) (h : IsHeap lt l) (ha : l[0]? = some a) {i : ℕ}
    (hb : l[i]? = some b) : lt a b = false := by
  induction i using Nat.strong_induction_on generalizing b with
  | _ i ih =>
    rcases Nat.eq_zero_or_pos i with rfl | hpos
    · obtain rfl := Option.some.inj (ha.symm.trans hb)
      exact Bool.eq_false_iff.mpr (hlt.irrefl a)
    · have hi := (List.getElem?_eq_some_iff.mp hb).1
      obtain ⟨c, hc⟩ : ∃ c, l[(i - 1) / 2]? = some c :=
        Option.isSome_iff_exists.mp (by simp; omega)
      exact hlt.not_lt_trans (ih ((i - 1) / 2) (by omega) hc) (h i c b hpos hc hb)

theorem IsHeap.head (hlt : StrictWeak lt) {t : List α} (h : IsHeap lt (a :: t)) (hb : b ∈ a :: t) :
    lt a b = false := by
  obtain ⟨i, hi⟩ := List.mem_iff_getElem?.mp hb
  exact h.front hlt rfl hi

/-- An algorithm that permutes every list into a heap, for every strict weak order. -/
structure BuildsHeaps (make : (α → α → Bool) → List α → List α) : Prop where
  perm : ∀ lt, StrictWeak lt → ∀ l, (make lt l).Perm l
  isHeap : ∀ lt, StrictWeak lt → ∀ l, IsHeap lt (make lt l)

/-- A list with no element before an earlier one, the other way round, is a heap. -/
theorem isHeap_of_pairwise (h : l.Pairwise fun a b => lt a b = false) : IsHeap lt l := by
  intro i a b hpos ha hb
  obtain ⟨hj, rfl⟩ := List.getElem?_eq_some_iff.mp ha
  obtain ⟨hi, rfl⟩ := List.getElem?_eq_some_iff.mp hb
  exact List.pairwise_iff_getElem.mp h _ i hj hi (by omega)

/-- Sorting builds heaps. -/
theorem buildsHeaps_insertionSort :
    BuildsHeaps fun (lt : α → α → Bool) l => l.insertionSort fun a b => lt a b = false where
  perm _ _ l := List.perm_insertionSort _ l
  isHeap lt hlt l := by
    have htotal : Std.Total fun a b => lt a b = false := by
      refine ⟨fun a b => ?_⟩
      by_contra hnot
      obtain ⟨hab, hba⟩ := not_or.mp hnot
      exact hlt.irrefl a (hlt.trans a b a (Bool.eq_true_of_not_eq_false hab)
        (Bool.eq_true_of_not_eq_false hba))
    have htrans : IsTrans α fun a b => lt a b = false :=
      ⟨fun _ _ _ hab hbc => hlt.not_lt_trans hab hbc⟩
    exact isHeap_of_pairwise (List.pairwise_insertionSort _ l)

end MaxHeap
