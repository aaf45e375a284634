import Mathlib.Data.List.AList
import Mathlib.Data.UInt
import Mathlib.Algebra.Order.BigOperators.Group.List
import Mathlib.Tactic.Linarith

/-!
# Ledgers: the total weight of a finite table

A `Table κ α` is a finite map with computable lookup, insertion and removal. Programs that
keep such a map often keep, next to it, a counter of its total weight (bytes in a directory,
bytes in flight, occupied slots) and adjust the counter by hand at every change of the map.

The rules here say what each change of the map does to the total: `total_insert` and
`total_erase` are stated as balance equations, without subtraction, so that a client can
settle its own counter against them by linear arithmetic.
-/

namespace Ledger

universe u v

variable {κ : Type u} {α : Type v}

/-- A finite table from keys to values. -/
abbrev Table (κ : Type u) (α : Type v) := AList fun _ : κ => α

/-- The total weight of the entries of a table. -/
def total (w : κ → α → ℕ) (t : Table κ α) : ℕ :=
  (t.entries.map fun e => w e.1 e.2).sum

@[simp]
theorem total_empty {w : κ → α → ℕ} : total w (∅ : Table κ α) = 0 := rfl

variable [DecidableEq κ]

/-- The weight a table holds under one key, `0` when the key is absent. -/
def weight (w : κ → α → ℕ) (t : Table κ α) (k : κ) : ℕ :=
  (t.lookup k).elim 0 (w k)

variable {w : κ → α → ℕ} {t : Table κ α} {k k' : κ} {v : α}

theorem weight_of_lookup (h : t.lookup k = some v) : weight w t k = w k v := by
  simp [weight, h]

theorem weight_of_notMem (h : t.lookup k = none) : weight w t k = 0 := by
  simp [weight, h]

@[simp]
theorem weight_insert : weight w (t.insert k v) k = w k v :=
  weight_of_lookup (AList.lookup_insert t)

theorem weight_insert_ne (h : k' ≠ k) : weight w (t.insert k v) k' = weight w t k' := by
  rw [weight, weight, AList.lookup_insert_ne h]

@[simp]
theorem weight_erase : weight w (t.erase k) k = 0 :=
  weight_of_notMem (AList.lookup_erase k t)

theorem weight_erase_ne (h : k' ≠ k) : weight w (t.erase k) k' = weight w t k' := by
  rw [weight, weight, AList.lookup_erase_ne h]

theorem weight_erase_le : weight w (t.erase k) k' ≤ weight w t k' := by
  by_cases h : k' = k
  · rw [h, weight_erase]
    exact Nat.zero_le _
  · exact (weight_erase_ne h).le

/-- Lookup after insertion, both cases at once. -/
theorem lookup_insert_ite :
    (t.insert k v).lookup k' = if k' = k then some v else t.lookup k' := by
  split_ifs with h
  · rw [h, AList.lookup_insert]
  · exact AList.lookup_insert_ne h

/-- Lookup after removal, both cases at once. -/
theorem lookup_erase_ite :
    (t.erase k).lookup k' = if k' = k then none else t.lookup k' := by
  split_ifs with h
  · rw [h, AList.lookup_erase]
  · exact AList.lookup_erase_ne h

/-- What is found after an insertion is the new entry, or was there under another key. -/
theorem eq_or_of_lookup_insert {v' : α} (h : (t.insert k v).lookup k' = some v') :
    k' = k ∧ v = v' ∨ k' ≠ k ∧ t.lookup k' = some v' := by
  rw [lookup_insert_ite] at h
  split_ifs at h with hk
  · exact .inl ⟨hk, Option.some.inj h⟩
  · exact .inr ⟨hk, h⟩

/-- What is said of all entries is said of them after an insertion, if the new one is such. -/
theorem forall_lookup_insert {p : κ → α → Prop} (h : ∀ k' v', t.lookup k' = some v' → p k' v')
    (hnew : p k v) : ∀ k' v', (t.insert k v).lookup k' = some v' → p k' v' := by
  intro k' v' hv
  obtain ⟨rfl, rfl⟩ | ⟨-, hv⟩ := eq_or_of_lookup_insert hv
  · exact hnew
  · exact h k' v' hv

/-- An insertion leaves no key without an entry. -/
theorem exists_lookup_insert (h : ∃ v', t.lookup k' = some v') :
    ∃ v', (t.insert k v).lookup k' = some v' := by
  rw [lookup_insert_ite]
  split_ifs
  · exact ⟨v, rfl⟩
  · exact h

/-- What is found after a removal was there under another key. -/
theorem of_lookup_erase {v' : α} (h : (t.erase k).lookup k' = some v') :
    k' ≠ k ∧ t.lookup k' = some v' := by
  rw [lookup_erase_ite] at h
  split_ifs at h with hk
  exact ⟨hk, h⟩

section Change

variable {R : α → α → Prop} {u : α}

/-- **An entry is changed**: what is found then comes from what was there. -/
theorem exists_of_lookup_insert (hrefl : ∀ x, R x x) (hu : t.lookup k = some u) (hR : R u v) :
    ∀ k' v', (t.insert k v).lookup k' = some v' → ∃ u', t.lookup k' = some u' ∧ R u' v' :=
  forall_lookup_insert (fun _ v' hv => ⟨v', hv, hrefl v'⟩) ⟨u, hu, hR⟩

/-- And what was there is found again. -/
theorem exists_lookup_insert_rel (hrefl : ∀ x, R x x) (hu : t.lookup k = some u) (hR : R u v)
    {v' : α} (hv' : t.lookup k' = some v') : ∃ x, (t.insert k v).lookup k' = some x ∧ R v' x := by
  rw [lookup_insert_ite]
  split_ifs with hk
  · rw [hk, hu] at hv'
    obtain rfl := Option.some.inj hv'
    exact ⟨v, rfl, hR⟩
  · exact ⟨v', hv', hrefl v'⟩

end Change

/-- What is said of a value that was looked up is decided at that value, not over its type, also
where the type is finite. -/
instance (priority := high) decidableForallMem {p : α → Prop} [DecidablePred p] (o : Option α) :
    Decidable (∀ a ∈ o, p a) :=
  Option.decidableForallMem o

instance (priority := high) decidableExistsMem {p : α → Prop} [DecidablePred p] (o : Option α) :
    Decidable (∃ a ∈ o, p a) :=
  Option.decidableExistsMem o

/-- A property of all entries. -/
def All (p : κ → α → Prop) (t : Table κ α) : Prop := ∀ e ∈ t.entries, p e.1 e.2

instance (p : κ → α → Prop) [∀ k v, Decidable (p k v)] (t : Table κ α) : Decidable (All p t) :=
  List.decidableBAll _ _

theorem all_iff {p : κ → α → Prop} : All p t ↔ ∀ k v, t.lookup k = some v → p k v := by
  constructor
  · intro h k v hv
    exact h ⟨k, v⟩ (AList.mem_lookup_iff.mp hv)
  · intro h e he
    exact h e.1 e.2 (AList.mem_lookup_iff.mpr he)

theorem entries_erase : (t.erase k).entries = t.entries.kerase k := rfl

/-- What was inserted is removed. -/
theorem erase_insert : (t.insert k v).erase k = t.erase k := by
  refine AList.ext ?_
  simp only [entries_erase, AList.entries_insert]
  exact List.kerase_cons_eq rfl

/-- What is removed does not matter to an insertion. -/
theorem insert_erase : (t.erase k).insert k v = t.insert k v := by
  refine AList.ext ?_
  simp only [entries_erase, AList.entries_insert]
  rw [List.kerase_of_notMem_keys (List.notMem_keys_kerase k t.nodupKeys)]

/-- An insertion and a removal under different keys commute. -/
theorem erase_insert_of_ne (h : k' ≠ k) : (t.insert k v).erase k' = (t.erase k').insert k v := by
  refine AList.ext ?_
  simp only [entries_erase, AList.entries_insert]
  exact (List.kerase_cons_ne h).trans (congrArg _ (List.kerase_comm k k' t.entries))

/-- The list-level balance behind `total_erase`: removing the entry under `k` removes
exactly the weight found there. -/
private theorem sum_kerase (w : κ → α → ℕ) (k : κ) (l : List (Sigma fun _ : κ => α)) :
    ((l.kerase k).map fun e => w e.1 e.2).sum + (l.dlookup k).elim 0 (w k) =
      (l.map fun e => w e.1 e.2).sum := by
  induction l with
  | nil => rfl
  | cons e l ih =>
    by_cases h : k = e.1
    · subst h
      rw [List.kerase_cons_eq rfl, List.dlookup_cons_eq]
      simp [Nat.add_comm]
    · rw [List.kerase_cons_ne h, List.dlookup_cons_ne _ _ h]
      simp only [List.map_cons, List.sum_cons]
      omega

/-- **Balance of a removal.** -/
theorem total_erase : total w (t.erase k) + weight w t k = total w t :=
  sum_kerase w k t.entries

/-- **Balance of an insertion**: what was there goes, what is inserted comes. -/
theorem total_insert : total w (t.insert k v) + weight w t k = total w t + w k v := by
  have hentries : total w (t.insert k v) = w k v + total w (t.erase k) := by
    simp [total, AList.entries_insert, entries_erase]
  have herase := total_erase (w := w) (t := t) (k := k)
  omega

theorem total_insert_of_notMem (h : t.lookup k = none) :
    total w (t.insert k v) = total w t + w k v := by
  have hins := total_insert (w := w) (t := t) (k := k) (v := v)
  rw [weight_of_notMem h] at hins
  omega

theorem weight_le_total : weight w t k ≤ total w t := by
  have := total_erase (w := w) (t := t) (k := k)
  omega

theorem le_total_of_lookup (h : t.lookup k = some v) : w k v ≤ total w t := by
  rw [← weight_of_lookup (w := w) h]
  exact weight_le_total

/-- A positive total is carried by some entry. -/
theorem exists_of_total_pos (h : 0 < total w t) : ∃ k v, t.lookup k = some v ∧ 0 < w k v := by
  by_contra hnone
  push Not at hnone
  have hzero : ∀ x ∈ t.entries.map (fun e => w e.1 e.2), x = 0 := by
    intro x hx
    obtain ⟨e, he, rfl⟩ := List.mem_map.mp hx
    have hlook : t.lookup e.1 = some e.2 := AList.mem_lookup_iff.mpr he
    exact Nat.le_zero.mp (hnone e.1 e.2 hlook)
  exact absurd (List.sum_eq_zero hzero) (Nat.pos_iff_ne_zero.mp h)

theorem total_eq_zero (h : ∀ k v, t.lookup k = some v → w k v = 0) : total w t = 0 := by
  by_contra hne
  obtain ⟨k, v, hlook, hpos⟩ := exists_of_total_pos (Nat.pos_of_ne_zero hne)
  exact hpos.ne' (h k v hlook)

/-- Tables with the same lookups have the same total. -/
theorem total_eq_of_lookup {t' : Table κ α} (h : ∀ k, t'.lookup k = t.lookup k) :
    total w t' = total w t := by
  have hperm : t'.entries.Perm t.entries := by
    refine List.lookup_ext t'.nodupKeys t.nodupKeys fun k v => ?_
    exact iff_of_eq (congrArg (v ∈ ·) (h k))
  exact (hperm.map _).sum_eq

/-- **Balance of a change under one key.** -/
theorem total_of_agree {t' : Table κ α} (h : ∀ k', k' ≠ k → t'.lookup k' = t.lookup k') :
    total w t' + weight w t k = total w t + weight w t' k := by
  have hsame : total w (t'.erase k) = total w (t.erase k) := by
    refine total_eq_of_lookup fun k' => ?_
    rw [lookup_erase_ite, lookup_erase_ite]
    split_ifs with hk
    · rfl
    · exact h k' hk
  have herase := total_erase (w := w) (t := t) (k := k)
  have herase' := total_erase (w := w) (t := t') (k := k)
  omega

/-! ### Settling a 64-bit counter

A counter kept in a machine word follows the balance as long as it neither wraps upwards on
a credit nor downwards on a debit. -/

section Counter

variable {c : UInt64} {n : ℕ}

/-- A credit that fits the word. -/
theorem toNat_credit (h : c.toNat + n < 2 ^ 64) : (c + UInt64.ofNat n).toNat = c.toNat + n := by
  rw [UInt64.toNat_add, UInt64.toNat_ofNat']
  omega

/-- A debit that is covered. -/
theorem toNat_debit (h : n ≤ c.toNat) : (c - UInt64.ofNat n).toNat = c.toNat - n := by
  have hc := c.toNat_lt
  rw [UInt64.toNat_sub, UInt64.toNat_ofNat']
  omega

end Counter

end Ledger
