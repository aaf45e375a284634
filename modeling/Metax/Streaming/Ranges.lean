import Metax.Streaming.Survival
import Metax.WebApi.Range

/-!
# Ranges of a stream

The arithmetic of a range get. A header gives a first byte, a first byte and a length, or the length
of a suffix (`Deliverable`); the bytes it asks of an object are `wanted`. The kernel normalizes the
range in signed and unsigned 64-bit arithmetic, looks up the chunks of the two ends with strict
comparisons, and cuts the chunks there.

Normalizing is right unless the last byte that is asked for is the one directly behind the object
(`normalize_eq_wanted`). The chunk of an end is not found if the end is the first byte of a chunk.
For the first byte that does not matter, since the chunks before it are then sent empty; without the
chunk of the last byte nothing is sent at all.
-/

namespace Metax

namespace Streaming

variable {r : GetRange} {size : ℕ} {c c' : Chunk} {cs : List Chunk} {b e : ℕ}

/-! ### Ranges -/

/-- A range the IMS can send: that of a header, or the one without a header. -/
def Deliverable (r : GetRange) : Prop :=
  r = (-1, -1) ∨ ∃ range, WebApi.parseRange range = .ok r

/-- The range has bytes of an object of that size. -/
def Intersects (size : ℕ) (r : GetRange) : Prop := r.1 = -1 ∨ r.1 < size

/-- The first and the last byte that are asked for. -/
def wanted (size : ℕ) (r : GetRange) : ℕ × ℕ :=
  if r.1 = -1 then if r.2 = -1 then (0, size - 1) else (size - r.2.toNat, size - 1)
  else if r.2 = -1 then (r.1.toNat, size - 1)
  else (r.1.toNat, min (r.1 + r.2 - 1).toNat (size - 1))

/-- What a range is, in numbers. -/
def Shape (r : GetRange) : Prop :=
  r.1 = -1 ∧ (r.2 = -1 ∨ 0 < r.2 ∧ r.2 < 2 ^ 63) ∨
    0 ≤ r.1 ∧ r.1 < 2 ^ 63 ∧ (r.2 = -1 ∨ 0 < r.2 ∧ r.1 + r.2 ≤ 2 ^ 63)

theorem shape_parseSuffix {t : Text} (h : WebApi.parseSuffix t = .ok r) : Shape r := by
  rw [WebApi.parseSuffix, WebApi.readDigits_zero] at h
  split_ifs at h with hfits
  · rw [WebApi.ok_bind] at h
    dsimp only at h
    split_ifs at h with hzero
    · obtain rfl := Except.ok.inj h
      exact .inl ⟨rfl, .inr ⟨by dsimp only; omega, by dsimp only; omega⟩⟩
  · cases h

theorem shape_parseFrom {t : Text} (h : WebApi.parseFrom t = .ok r) : Shape r := by
  rw [WebApi.parseFrom, WebApi.readDigits_zero] at h
  split_ifs at h with hfits
  · rw [WebApi.ok_bind] at h
    dsimp only at h
    cases hrest : WebApi.rest t with
    | nil =>
      rw [hrest] at h
      cases h
    | cons c t' =>
      rw [hrest] at h
      dsimp only at h
      split_ifs at h with hdash hends
      · obtain rfl := Except.ok.inj h
        exact .inr ⟨by dsimp only; omega, by dsimp only; omega, .inl rfl⟩
      · rw [WebApi.readDigits_zero] at h
        split_ifs at h with hfits'
        · rw [WebApi.ok_bind] at h
          dsimp only at h
          rw [WebApi.int64_sub hfits' hfits, WebApi.ok_bind, WebApi.int64_length hfits] at h
          split_ifs at h with hlength
          · rw [WebApi.ok_bind] at h
            split_ifs at h with hbad
            obtain rfl := Except.ok.inj h
            rw [not_or] at hbad
            exact .inr ⟨by dsimp only; omega, by dsimp only; omega,
              .inr ⟨by dsimp only; omega, by dsimp only; omega⟩⟩
          · cases h
        · cases h
  · cases h

theorem shape_of_deliverable (h : Deliverable r) : Shape r := by
  rcases h with rfl | ⟨range, h⟩
  · exact .inl ⟨rfl, .inl rfl⟩
  · rw [WebApi.parseRange] at h
    split at h
    · cases h
    · split_ifs at h with hunit
      rename_i body _
      cases body with
      | nil => cases h
      | cons c t =>
        rw [WebApi.parseBody] at h
        split_ifs at h
        · exact shape_parseSuffix h
        · exact shape_parseFrom h

/-! ### Normalizing -/

theorem uint64_of_lt {z : ℤ} (h₀ : 0 ≤ z) (h : z < 2 ^ 64) : uint64 z = z.toNat := by
  rw [uint64, Int.emod_eq_of_lt h₀ h]

theorem uint64_of_neg {z : ℤ} (h₀ : z < 0) (h : -2 ^ 63 ≤ z) : 2 ^ 63 ≤ uint64 z := by
  rw [uint64]
  omega

theorem int64_of_lt {z : ℤ} (h₀ : -2 ^ 63 ≤ z) (h : z < 2 ^ 63) : int64 z = z := by
  rw [int64]
  omega

/-- The last byte that is asked for is directly behind the object. -/
def EndsBehind (size : ℕ) (r : GetRange) : Prop := r.1 ≠ -1 ∧ r.2 ≠ -1 ∧ r.1 + r.2 - 1 = size

instance (size : ℕ) (r : GetRange) : Decidable (EndsBehind size r) :=
  inferInstanceAs (Decidable (_ ∧ _ ∧ _))

theorem wanted_bounds (hsize : 0 < size) (hr : Shape r) (hinter : Intersects size r) :
    (wanted size r).1 ≤ (wanted size r).2 ∧ (wanted size r).2 < size := by
  rw [wanted]
  rcases hr with ⟨h₁, h₂⟩ | ⟨h₁, h₁', h₂⟩
  · rw [if_pos h₁]
    split_ifs <;> dsimp only <;> omega
  · have hne : r.1 ≠ -1 := by omega
    have hlt : r.1 < size := hinter.resolve_left hne
    rw [if_neg hne]
    split_ifs with h
    · dsimp only
      omega
    · have hpos := (h₂.resolve_left h).1
      dsimp only
      omega

/-- **The normalized range**, if it does not end directly behind the object. -/
theorem normalize_eq_wanted (hsize : 0 < size) (hsmall : size < 2 ^ 33) (hr : Shape r)
    (hinter : Intersects size r) (hend : ¬ EndsBehind size r) :
    normalizeStreamingRange size r = (((wanted size r).1 : ℤ), ((wanted size r).2 : ℤ)) := by
  -- sizes are small enough that the casts change nothing
  have hlast : int64 ((size : ℤ) - 1) = size - 1 := int64_of_lt (by omega) (by omega)
  have hlast' : ¬ size < uint64 ((size : ℤ) - 1) := by
    rw [uint64_of_lt (by omega) (by omega)]
    omega
  rw [normalizeStreamingRange, wanted, hlast]
  -- a suffix, or a range with a first byte
  rcases hr with ⟨h₁, h₂⟩ | ⟨h₁, h₁', h₂⟩
  · have hor : r.1 = -1 ∨ r.2 = -1 := .inl h₁
    rw [if_pos h₁, if_pos h₁, if_pos hor, if_neg hlast']
    split_ifs with hall hbig hbig
    · exact absurd hbig (Nat.not_lt_zero _)
    · refine Prod.ext rfl ?_
      dsimp only
      omega
    · -- a suffix longer than the object wraps to a large number
      have hpos := (h₂.resolve_left hall).1
      have hfits := (h₂.resolve_left hall).2
      rw [int64_of_lt (by omega) (by omega)] at hbig
      refine Prod.ext ?_ ?_
      · dsimp only
        by_contra hne
        rw [uint64_of_lt (by omega) (by omega)] at hbig
        omega
      · dsimp only
        omega
    · have hpos := (h₂.resolve_left hall).1
      have hfits := (h₂.resolve_left hall).2
      rw [int64_of_lt (by omega) (by omega)] at hbig ⊢
      have hge : (0 : ℤ) ≤ size - r.2 := by
        by_contra hneg
        have := uint64_of_neg (z := (size : ℤ) - r.2) (by omega) (by omega)
        omega
      refine Prod.ext ?_ ?_
      · dsimp only
        omega
      · dsimp only
        omega
  · have hne : r.1 ≠ -1 := by omega
    have hlt : r.1 < size := hinter.resolve_left hne
    have hfirst : ¬ size < uint64 r.1 := by
      rw [uint64_of_lt h₁ (by omega)]
      omega
    rw [if_neg hne, if_neg hne, if_neg hfirst]
    -- without a last byte: to the end of the object
    by_cases hopen : r.2 = -1
    · have hor : r.1 = -1 ∨ r.2 = -1 := .inr hopen
      rw [if_pos hor, if_neg hlast', if_pos hopen]
      refine Prod.ext ?_ ?_
      · dsimp only
        omega
      · dsimp only
        omega
    · have hpos := (h₂.resolve_left hopen).1
      have hfits := (h₂.resolve_left hopen).2
      have hne' : r.1 + r.2 - 1 ≠ size := fun h => hend ⟨hne, hopen, h⟩
      have hor : ¬ (r.1 = -1 ∨ r.2 = -1) := not_or.mpr ⟨hne, hopen⟩
      rw [if_neg hor, if_neg hopen, uint64_of_lt (by omega) (by omega)]
      -- a last byte behind the end is cut off
      split_ifs with hbehind
      · refine Prod.ext ?_ ?_
        · dsimp only
          omega
        · dsimp only
          omega
      · refine Prod.ext ?_ ?_
        · dsimp only
          omega
        · dsimp only
          omega

/-- The range that ends directly behind the object is left there. -/
theorem normalize_of_endsBehind (hsmall : size < 2 ^ 33) (hend : EndsBehind size r) :
    (normalizeStreamingRange size r).2 = size := by
  obtain ⟨h₁, h₂, hsum⟩ := hend
  have hsecond : r.2 + (r.1 - 1) = size := by omega
  have hor : ¬ (r.1 = -1 ∨ r.2 = -1) := not_or.mpr ⟨h₁, h₂⟩
  rw [normalizeStreamingRange]
  dsimp only
  rw [if_neg hor, hsecond, uint64_of_lt (by omega) (by omega), if_neg (by omega)]

/-! ### The chunks of the two ends -/

/-- The chunks lie one behind the other, from `b` to `e`. -/
def Contiguous : ℕ → List Chunk → ℕ → Prop
  | b, [], e => b = e
  | b, c :: cs, e => c.start = b ∧ Contiguous (b + c.size) cs e

theorem Contiguous.le (h : Contiguous b cs e) : b ≤ e := by
  induction cs generalizing b with
  | nil => exact h.le
  | cons c cs ih => exact (Nat.le_add_right _ _).trans (ih h.2)

/-- A chunk lies between the ends. -/
theorem Contiguous.bounds (h : Contiguous b cs e) (hc : c ∈ cs) :
    b ≤ c.start ∧ c.start + c.size ≤ e := by
  induction cs generalizing b with
  | nil => exact absurd hc List.not_mem_nil
  | cons c' cs ih =>
    rcases List.mem_cons.mp hc with rfl | hc
    · exact ⟨h.1.ge, h.1 ▸ h.2.le⟩
    · have := ih h.2 hc
      omega

/-- A byte is in a chunk. -/
theorem Contiguous.exists_mem (h : Contiguous b cs e) {x : ℕ} (hb : b ≤ x) (he : x < e) :
    ∃ c ∈ cs, c.start ≤ x ∧ x < c.start + c.size := by
  induction cs generalizing b with
  | nil =>
    have hbe : b = e := h
    omega
  | cons c cs ih =>
    by_cases hx : x < b + c.size
    · exact ⟨c, List.mem_cons_self, h.1 ▸ hb, h.1 ▸ hx⟩
    · obtain ⟨c', hc', hin⟩ := ih h.2 (by omega)
      exact ⟨c', List.mem_cons_of_mem _ hc', hin⟩

/-- No chunk starts inside another one. -/
theorem Contiguous.start_outside (h : Contiguous b cs e) (hc : c ∈ cs) (hc' : c' ∈ cs) :
    c'.start ≤ c.start ∨ c.start + c.size ≤ c'.start := by
  induction cs generalizing b with
  | nil => exact absurd hc List.not_mem_nil
  | cons d cs ih =>
    rcases List.mem_cons.mp hc with rfl | hc <;> rcases List.mem_cons.mp hc' with rfl | hc'
    · exact .inl le_rfl
    · exact .inr (h.1 ▸ (h.2.bounds hc').1)
    · refine .inl ?_
      have hle := (h.2.bounds ‹c ∈ cs›).1
      have hstart := h.1
      omega
    · exact ih h.2 ‹_› ‹_›

/-- From a chunk on. -/
theorem Contiguous.drop (h : Contiguous b cs e) {j : ℕ} (hc : cs[j]? = some c) :
    Contiguous c.start (cs.drop j) e := by
  induction cs generalizing b j with
  | nil => cases hc
  | cons d cs ih =>
    cases j with
    | zero =>
      obtain rfl := Option.some.inj hc
      rw [h.1]
      exact h
    | succ j => exact ih h.2 hc

/-- Up to a chunk. -/
theorem Contiguous.take (h : Contiguous b cs e) {i : ℕ} (hc : cs[i]? = some c) :
    Contiguous b (cs.take (i + 1)) (c.start + c.size) := by
  induction cs generalizing b i with
  | nil => cases hc
  | cons d cs ih =>
    cases i with
    | zero =>
      obtain rfl := Option.some.inj hc
      exact ⟨h.1, by rw [h.1]; rfl⟩
    | succ i => exact ⟨h.1, ih h.2 hc⟩

/-- Of two chunks the first one ends where the other one starts, or before. -/
theorem Contiguous.ordered (h : Contiguous b cs e) {i j : ℕ} (hij : i < j) (hc : cs[i]? = some c)
    (hc' : cs[j]? = some c') : c.start + c.size ≤ c'.start := by
  induction cs generalizing b i j with
  | nil => cases hc
  | cons d cs ih =>
    obtain ⟨j, rfl⟩ : ∃ k, j = k + 1 := ⟨j - 1, by omega⟩
    cases i with
    | zero =>
      obtain rfl := Option.some.inj hc
      exact h.1 ▸ (h.2.bounds (List.mem_of_getElem? hc')).1
    | succ i => exact ih h.2 (Nat.lt_of_succ_lt_succ hij) hc hc'

/-- What the loop leaves in a variable that every chunk with `W` sets to its place, `d` further. -/
theorem calculateLoop_last {r : GetRange} {W : Chunk → Prop} [DecidablePred W] {d : ℕ}
    (v : ℕ × ℕ → ℕ)
    (hset : ∀ i (c : Chunk) p, v (if c.Within r.1 then i else p.1,
      if c.Within r.2 then i + 1 else p.2) = if W c then i + d else v p)
    (i : ℕ) (cs : List Chunk) (p : ℕ × ℕ) :
    v (calculateLoop r i cs p) = v p ∧ (∀ c ∈ cs, ¬ W c) ∨
      ∃ k c, cs[k]? = some c ∧ W c ∧ v (calculateLoop r i cs p) = i + k + d := by
  induction cs generalizing i p with
  | nil => exact .inl ⟨rfl, fun c hc => absurd hc List.not_mem_nil⟩
  | cons c cs ih =>
    rw [calculateLoop]
    rcases ih (i + 1) (if c.Within r.1 then i else p.1, if c.Within r.2 then i + 1 else p.2) with
      ⟨heq, hno⟩ | ⟨k, d, hd, hin, heq⟩
    · rw [heq, hset]
      by_cases hin : W c
      · exact .inr ⟨0, c, rfl, hin, if_pos hin⟩
      · refine .inl ⟨if_neg hin, fun d hd => ?_⟩
        rcases List.mem_cons.mp hd with rfl | hd
        · exact hin
        · exact hno d hd
    · exact .inr ⟨k + 1, d, hd, hin, by rw [heq]; omega⟩

/-- The loop finds the last chunk the byte is within, if there is one. -/
theorem calculateLoop_fst (r : GetRange) (i : ℕ) (cs : List Chunk) (p : ℕ × ℕ) :
    (calculateLoop r i cs p).1 = p.1 ∧ (∀ c ∈ cs, ¬ c.Within r.1) ∨
      ∃ k c, cs[k]? = some c ∧ c.Within r.1 ∧ (calculateLoop r i cs p).1 = i + k :=
  calculateLoop_last (d := 0) Prod.fst (fun _ _ _ => rfl) i cs p

/-- The same for the other end. -/
theorem calculateLoop_snd (r : GetRange) (i : ℕ) (cs : List Chunk) (p : ℕ × ℕ) :
    (calculateLoop r i cs p).2 = p.2 ∧ (∀ c ∈ cs, ¬ c.Within r.2) ∨
      ∃ k c, cs[k]? = some c ∧ c.Within r.2 ∧ (calculateLoop r i cs p).2 = i + k + 1 :=
  calculateLoop_last Prod.snd (fun _ _ _ => rfl) i cs p

/-! ### Cutting -/

/-- The bytes of `data` from `x` on, up to `y`. -/
def slice (data : Bytes) (x y : ℕ) : Bytes := (data.drop x).take (y - x)

theorem slice_append {data : Bytes} {x y z : ℕ} (hxy : x ≤ y) (hyz : y ≤ z) :
    slice data x y ++ slice data y z = slice data x z := by
  have hz : z - x = (y - x) + (z - y) := by omega
  rw [slice, slice, slice, hz, List.take_add, List.drop_drop, Nat.add_sub_cancel' hxy]

theorem slice_eq_nil {data : Bytes} {x y : ℕ} (h : y ≤ x) : slice data x y = [] := by
  rw [slice, Nat.sub_eq_zero_of_le h, List.take_zero]

theorem slice_slice {data : Bytes} {x y u v : ℕ} :
    ((slice data x y).drop u).take (v - u) = slice data (x + u) (min y (x + v)) := by
  rw [slice, slice, List.drop_take, List.drop_drop, List.take_take]
  congr 1
  omega

theorem length_slice {data : Bytes} {x y : ℕ} (hy : y ≤ data.length) :
    (slice data x y).length = y - x := by
  rw [slice, List.length_take, List.length_drop]
  omega

/-- The chunk with the bytes of the object. -/
def Chunk.fill (data : Bytes) (c : Chunk) : Chunk :=
  { c with file := slice data c.start (c.start + c.size) }

/-- **The file of a chunk that does not start behind the range**: the bytes it has of it. -/
theorem chunkFile_fill {data : Bytes} {f s : ℕ} (hs : s < 2 ^ 33) (hfs : f ≤ s)
    (hc : c.start + c.size < 2 ^ 34) (hstart : c.start ≤ s) :
    chunkFile (f, s) (c.fill data) =
      slice data (max f c.start) (min (s + 1) (c.start + c.size)) := by
  have hfile : (c.fill data).file = slice data c.start (c.start + c.size) := rfl
  have hf : uint64 (f : ℤ) = f := by
    rw [uint64_of_lt (by omega) (by omega)]
    omega
  have hs' : uint64 (s : ℤ) = s := by
    rw [uint64_of_lt (by omega) (by omega)]
    omega
  have hcut : uint64 ((s : ℤ) - c.start + 1) = s + 1 - c.start := by
    rw [uint64_of_lt (by omega) (by omega)]
    omega
  have hb : (if c.start < f then uint64 ((f : ℤ) - c.start) else 0) = f - c.start := by
    split_ifs with h
    · rw [uint64_of_lt (by omega) (by omega)]
      omega
    · omega
  rw [chunkFile]
  show (if c.start < uint64 f ∨ uint64 s < uint64 ((c.start : ℤ) + c.size - 1) then
    preparePartialChunk (f, s) (c.fill data) else (c.fill data).file) = _
  have hcutoff : preparePartialChunk (f, s) (c.fill data) =
      ((slice data c.start (c.start + c.size)).drop (f - c.start)).take
        ((if s < uint64 ((c.start : ℤ) + c.size - 1) then s + 1 - c.start else c.size) -
          (f - c.start)) := by
    rw [preparePartialChunk, hfile]
    show ((slice data c.start (c.start + c.size)).drop
      (if c.start < uint64 f then uint64 ((f : ℤ) - c.start) else 0)).take
        ((if uint64 s < uint64 ((c.start : ℤ) + c.size - 1) then uint64 ((s : ℤ) - c.start + 1)
          else c.size) - (if c.start < uint64 f then uint64 ((f : ℤ) - c.start) else 0)) = _
    rw [hf, hs', hb, hcut]
  have hlast : s < uint64 ((c.start : ℤ) + c.size - 1) ↔ s + 1 < c.start + c.size ∨
      c.start + c.size = 0 := by
    by_cases hzero : c.start + c.size = 0
    · have := uint64_of_neg (z := (c.start : ℤ) + c.size - 1) (by omega) (by omega)
      omega
    · rw [uint64_of_lt (by omega) (by omega)]
      omega
  rw [hcutoff, hf, hs', hfile, slice_slice]
  simp only [hlast]
  split_ifs with hcut hend
  · congr 1
    · omega
    · omega
  · congr 1
    · omega
    · omega
  · congr 1
    · omega
    · omega

/-- Files of chunks that lie behind one another. -/
theorem flatten_chunkFile {data : Bytes} {f s : ℕ} (hs : s < 2 ^ 33) (hfs : f ≤ s)
    (he : e < 2 ^ 34) (h : Contiguous b cs e) (hstart : ∀ c ∈ cs, c.start ≤ s) :
    (cs.map fun c => chunkFile (f, s) (c.fill data)).flatten =
      slice data (max f b) (min (s + 1) e) := by
  induction cs generalizing b with
  | nil =>
    have hbe : b = e := h
    rw [List.map_nil, List.flatten_nil, slice_eq_nil]
    omega
  | cons c cs ih =>
    have hle := h.2.le
    have hb := h.1
    rw [List.map_cons, List.flatten_cons, ih h.2 fun c hc => hstart c (List.mem_cons_of_mem _ hc),
      chunkFile_fill hs hfs (by omega) (hstart c List.mem_cons_self), hb]
    by_cases hbehind : s + 1 < b + c.size
    · have hnil : slice data (max f (b + c.size)) (min (s + 1) e) = [] := slice_eq_nil (by omega)
      rw [hnil, List.append_nil]
      congr 1
      omega
    · by_cases hfront : b + c.size < f
      · have hnil : slice data (max f b) (min (s + 1) (b + c.size)) = [] := slice_eq_nil (by omega)
        rw [hnil, List.nil_append]
        congr 1
        omega
      · have hmin : min (s + 1) (b + c.size) = b + c.size := by omega
        have hmax : max f (b + c.size) = b + c.size := by omega
        rw [hmin, hmax, slice_append (by omega) (by omega)]

/-- The first and the last chunk of a range. -/
def ends (cs : List Chunk) (f s : ℕ) : ℕ × ℕ := calculateLoop (f, s) 0 cs (0, 0)

theorem within_iff {x : ℕ} (hx : x < 2 ^ 33) : c.Within (x : ℤ) ↔
    c.start < x ∧ x < c.start + c.size := by
  rw [Chunk.Within, uint64_of_lt (by omega) (by omega), Int.toNat_natCast]

section Ends

variable {f s : ℕ} (h : Contiguous 0 cs e) (hfs : f ≤ s) (hs : s < e) (he : e < 2 ^ 33)

include h hfs hs he in
/-- **The chunks of a range have its bytes**, if no chunk starts with the last of them. -/
theorem flatten_ends (data : Bytes) (hno : ∀ c ∈ cs, c.start ≠ s) :
    (ends cs f s).1 < (ends cs f s).2 ∧ (ends cs f s).2 ≤ cs.length ∧
      (((cs.drop (ends cs f s).1).take ((ends cs f s).2 - (ends cs f s).1)).map
        fun c => chunkFile (f, s) (c.fill data)).flatten = slice data f (s + 1) := by
  -- the last chunk is found
  obtain ⟨i, d, hd, hin, hi⟩ :
      ∃ i d, cs[i]? = some d ∧ d.Within (s : ℤ) ∧ (ends cs f s).2 = i + 1 := by
    obtain ⟨c, hc, hle, hlt⟩ := h.exists_mem (Nat.zero_le s) hs
    rcases calculateLoop_snd (f, s) 0 cs (0, 0) with ⟨-, hnone⟩ | ⟨i, d, hd, hin, hi⟩
    · exact absurd ((within_iff (by omega)).mpr ⟨lt_of_le_of_ne hle (hno c hc), hlt⟩) (hnone c hc)
    · exact ⟨i, d, hd, hin, by rw [ends, hi]; omega⟩
  rw [within_iff (by omega)] at hin
  -- a chunk that does not start behind the first byte is found
  obtain ⟨j, c, hc, hcf, hj⟩ : ∃ j c, cs[j]? = some c ∧ c.start ≤ f ∧ (ends cs f s).1 = j := by
    rcases calculateLoop_fst (f, s) 0 cs (0, 0) with ⟨hj, -⟩ | ⟨j, c, hc, hin, hj⟩
    · cases cs with
      | nil => cases hd
      | cons c cs => exact ⟨0, c, rfl, h.1.trans_le (Nat.zero_le f), hj⟩
    · rw [within_iff (by omega)] at hin
      exact ⟨j, c, hc, hin.1.le, by rw [ends, hj]; omega⟩
  -- it is not behind the last one
  have hji : j ≤ i := by
    by_contra hlt
    have := h.ordered (not_le.mp hlt) hd hc
    omega
  have hlen : i + 1 ≤ cs.length := (List.getElem?_eq_some_iff.mp hd).1
  rw [hi, hj]
  refine ⟨Nat.lt_succ_of_le hji, hlen, ?_⟩
  have hsegment : Contiguous c.start ((cs.drop j).take (i + 1 - j)) (d.start + d.size) := by
    have hd' : (cs.drop j)[i - j]? = some d := by
      rw [List.getElem?_drop, Nat.add_sub_cancel' hji, hd]
    have hcount : i + 1 - j = (i - j) + 1 := by omega
    rw [hcount]
    exact (h.drop hc).take hd'
  have hend := (h.bounds (List.mem_of_getElem? hd)).2
  rw [flatten_chunkFile (by omega) hfs (by omega) hsegment]
  · congr 1
    · omega
    · omega
  · intro c' hc'
    obtain ⟨k, hk⟩ := List.getElem?_of_mem hc'
    rw [List.getElem?_take] at hk
    split_ifs at hk with hlt
    rw [List.getElem?_drop] at hk
    rcases Nat.lt_or_eq_of_le (show j + k ≤ i by omega) with hki | hki
    · have := h.ordered hki hk hd
      omega
    · rw [hki, hd] at hk
      obtain rfl := Option.some.inj hk
      omega

include h hs he in
/-- A chunk that starts with the last byte is not found, and no other one is. -/
theorem ends_of_start (hc : c ∈ cs) (hstart : c.start = s) : (ends cs f s).2 = 0 := by
  rcases calculateLoop_snd (f, s) 0 cs (0, 0) with ⟨hi, -⟩ | ⟨i, d, hd, hin, -⟩
  · exact hi
  · rw [within_iff (by omega)] at hin
    have := h.start_outside (List.mem_of_getElem? hd) hc
    omega

end Ends

end Streaming

end Metax
