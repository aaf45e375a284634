import Mathlib.Data.List.Basic
import Mathlib.Algebra.Order.Ring.Nat

/-!
# Streams that arrive in chunks

A stream transport keeps the order of what is written and nothing else: a reader is handed one
chunk after the other, cut anywhere. `readExactly` is the loop that asks again until it has all it
wants. What it returns does not depend on the cuts (`Splits.readExactly`), so a reader built from
it sees the stream and not the chunks.
-/

universe u

namespace ChunkedStream

variable {α β ε : Type u} {s t : List α} {chunks : List (List α)}

/-- The chunks that are still to come make up the stream. None of them is empty: receiving nothing
means the end. -/
structure Splits (chunks : List (List α)) (s : List α) : Prop where
  ne_nil : [] ∉ chunks
  flatten : chunks.flatten = s

/-- Receive until `n` elements are there. One round takes a whole chunk, or as much of it as is
missing; the stream may end before. -/
def readExactly : List (List α) → ℕ → Option (List α × List (List α))
  | chunks, 0 => some ([], chunks)
  | [], _ + 1 => none
  | [] :: _, _ + 1 => none
  | (a :: c) :: chunks, n + 1 =>
    if n + 1 < (a :: c).length then
      some ((a :: c).take (n + 1), (a :: c).drop (n + 1) :: chunks)
    else
      (readExactly chunks (n + 1 - (a :: c).length)).map fun r => ((a :: c) ++ r.1, r.2)

theorem splits_nil : Splits [] ([] : List α) := ⟨List.not_mem_nil, rfl⟩

/-- A stream that is over has no chunks left. -/
theorem Splits.eq_nil (h : Splits chunks ([] : List α)) : chunks = [] := by
  cases chunks with
  | nil => rfl
  | cons c chunks =>
    have hc : c = [] := List.append_eq_nil_iff.mp h.flatten |>.1
    exact absurd (List.mem_cons.mpr (.inl hc.symm)) h.ne_nil

/-- A stream can arrive in one chunk. -/
theorem exists_splits (s : List α) : ∃ chunks, Splits chunks s := by
  cases s with
  | nil => exact ⟨[], splits_nil⟩
  | cons a s => exact ⟨[a :: s], by simp, by simp⟩

/-- **Reading is cut-free**: the loop returns what stands at the head of the stream, and the chunks
it leaves make up the rest. -/
theorem Splits.readExactly (h : Splits chunks (s ++ t)) :
    ∃ rest, readExactly chunks s.length = some (s, rest) ∧ Splits rest t := by
  obtain ⟨n, hn⟩ : ∃ n, n = s.length := ⟨_, rfl⟩
  rw [← hn]
  induction chunks, n using readExactly.induct generalizing s t with
  | case1 chunks =>
    obtain rfl : s = [] := List.eq_nil_of_length_eq_zero hn.symm
    exact ⟨chunks, by rw [ChunkedStream.readExactly], h⟩
  | case2 n =>
    -- the stream is over, but something is to be read
    have hnil : s ++ t = [] := h.flatten.symm
    simp only [List.append_eq_nil_iff] at hnil
    simp [hnil.1] at hn
  | case3 chunks n => exact absurd List.mem_cons_self h.ne_nil
  | case4 a c chunks n hlt =>
    -- the chunk holds more than what is missing
    have hlen : s.length < (a :: c).length := by omega
    obtain ⟨d, hd⟩ : s <+: a :: c :=
      List.prefix_of_prefix_length_le ⟨t, h.flatten.symm⟩ (List.prefix_append _ _) hlen.le
    have ht : d ++ chunks.flatten = t := by
      have hflat : (a :: c) ++ chunks.flatten = s ++ t := h.flatten
      rw [← hd, List.append_assoc] at hflat
      exact List.append_cancel_left hflat
    have hne : d ≠ [] := by
      rintro rfl
      rw [← hd, List.append_nil] at hlen
      omega
    have hlen' : n + 1 = s.length := hn
    refine ⟨d :: chunks, ?_, ?_, ht⟩
    · rw [ChunkedStream.readExactly, if_pos hlt, ← hd, hlen', List.take_left, List.drop_left]
    · rw [List.mem_cons, not_or]
      exact ⟨hne.symm, fun hmem => h.ne_nil (List.mem_cons_of_mem _ hmem)⟩
  | case5 a c chunks n hge ih =>
    -- the whole chunk is taken, and the loop goes on behind it
    have hlen : (a :: c).length ≤ s.length := by omega
    obtain ⟨s', rfl⟩ : a :: c <+: s :=
      List.prefix_of_prefix_length_le (List.prefix_append _ chunks.flatten) ⟨t, h.flatten.symm⟩ hlen
    have hrest : Splits chunks (s' ++ t) := by
      refine ⟨fun hmem => h.ne_nil (List.mem_cons_of_mem _ hmem), ?_⟩
      have hflat : (a :: c) ++ chunks.flatten = (a :: c) ++ s' ++ t := h.flatten
      rw [List.append_assoc] at hflat
      exact List.append_cancel_left hflat
    have hlen' : n + 1 - (a :: c).length = s'.length := by
      rw [List.length_append] at hn
      omega
    obtain ⟨rest, hread, hsplits⟩ := ih hrest hlen'
    refine ⟨rest, ?_, hsplits⟩
    rw [ChunkedStream.readExactly, if_neg hge, hread]
    rfl

theorem length_readExactly {n : ℕ} {r : List α × List (List α)}
    (h : readExactly chunks n = some r) : r.1.length = n := by
  induction chunks, n using readExactly.induct generalizing r with
  | case1 chunks =>
    rw [readExactly, Option.some.injEq] at h
    rw [← h, List.length_nil]
  | case2 n => cases h
  | case3 chunks n => cases h
  | case4 a c chunks n hlt =>
    rw [readExactly, if_pos hlt, Option.some.injEq] at h
    rw [← h, List.length_take]
    omega
  | case5 a c chunks n hge ih =>
    rw [readExactly, if_neg hge, Option.map_eq_some_iff] at h
    obtain ⟨r', hr', rfl⟩ := h
    have hlen := ih hr'
    rw [List.length_append, hlen]
    omega

/-- `readExactly` with the length in the type. -/
def readVector (chunks : List (List α)) (n : ℕ) :
    Option ({l : List α // l.length = n} × List (List α)) :=
  match h : readExactly chunks n with
  | none => none
  | some r => some (⟨r.1, length_readExactly h⟩, r.2)

theorem Splits.readVector {n : ℕ} (h : Splits chunks (s ++ t)) (hn : s.length = n) :
    ∃ rest, readVector chunks n = some (⟨s, hn⟩, rest) ∧ Splits rest t := by
  subst hn
  obtain ⟨rest, hread, hsplits⟩ := h.readExactly
  refine ⟨rest, ?_, hsplits⟩
  unfold ChunkedStream.readVector
  split
  · rename_i hnone
    rw [hread] at hnone
    cases hnone
  · rename_i r hsome
    rw [hread, Option.some.injEq] at hsome
    subst hsome
    rfl

/-! ### Readers -/

/-- A reader takes `b` where `s` stands at the head of the stream, and leaves what is behind it. -/
def Reads (read : List (List α) → Except ε (β × List (List α))) (b : β) (s : List α) : Prop :=
  ∀ ⦃chunks t⦄, Splits chunks (s ++ t) → ∃ rest, read chunks = .ok (b, rest) ∧ Splits rest t

/-- Read `n` times. -/
def readMany (read : List (List α) → Except ε (β × List (List α))) :
    ℕ → List (List α) → Except ε (List β × List (List α))
  | 0, chunks => .ok ([], chunks)
  | n + 1, chunks => do
    let first ← read chunks
    let others ← readMany read n first.2
    pure (first.1 :: others.1, others.2)

/-- What is read one by one is read as a sequence. -/
theorem Reads.many {read : List (List α) → Except ε (β × List (List α))} {bs : List β}
    {ss : List (List α)} (h : List.Forall₂ (Reads read) bs ss) :
    Reads (readMany read bs.length) bs ss.flatten := by
  induction h with
  | nil => exact fun chunks t hchunks => ⟨chunks, rfl, hchunks⟩
  | @cons b s bs ss hhead _ ih =>
    intro chunks t hchunks
    rw [List.flatten_cons, List.append_assoc] at hchunks
    obtain ⟨rest, hread, hrest⟩ := hhead hchunks
    obtain ⟨rest', hread', hrest'⟩ := ih hrest
    refine ⟨rest', ?_, hrest'⟩
    simp only [List.length_cons, readMany, hread, bind, Except.bind, hread', pure, Except.pure]

end ChunkedStream
