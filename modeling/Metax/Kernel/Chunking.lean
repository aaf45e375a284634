import Metax.Kernel.Save

/-!
# Chunks of an object

`generate_pieces_json` for any maximal chunk size. The pieces of an object should be a partition of
it, and an object without pieces should stand in its master (`Chunked`).

The offset of a piece is kept in an `unsigned int`, the size of an object in 64 bits. The pieces are
a partition exactly as long as the last of them starts below `2 ^ 32` (`chunked_iff`).

The loop is looked at through `pieceAt`, which has the piece of each round. Below the bound the
pieces follow one another (`partition_of_lt`); the first piece beyond it starts over, where the
first one of all is (`lt_of_partition`).
-/

namespace Metax

namespace Kernel

variable {maxSize s : ℕ} {g : ℕ → UUID} {u : UUID} {p : Piece}

/-- The loop of `generate_pieces_json`, for any positive `max_chunk_size`. -/
def piecesLoop (maxSize : ℕ) (g : ℕ → UUID) (i b s : ℕ) (pj : Pieces) : Pieces :=
  if 0 < maxSize ∧ maxSize < s then
    piecesLoop maxSize g (i + 1) ((b + maxSize) % 2 ^ 32) (s - maxSize)
      (pj.insert (g i) ⟨b, maxSize, none⟩)
  else if 0 < s then
    pj.insert (g i) ⟨b, s, none⟩
  else
    pj
  termination_by s

/-- `generate_pieces_json`, for any positive `max_chunk_size`. -/
def piecesJson (maxSize s : ℕ) (g : ℕ → UUID) : Pieces :=
  if s ≤ maxSize then ∅ else piecesLoop maxSize g 0 0 s ∅

/-- The content `start_master_object_save` puts into a master object. -/
def masterContent (codec : Codec) (maxSize : ℕ) (r : Request) : Option Bytes :=
  if r.source.data.length ≤ maxSize then
    some (codec.base64Encode (getPieceDataForSave r 0 r.source.data.length))
  else none

/-- The loop of the kernel is this one at its chunk size. -/
theorem generatePiecesLoop_eq (g : ℕ → UUID) (i b s : ℕ) (pj : Pieces) :
    generatePiecesLoop g i b s pj = piecesLoop maxChunkSize g i b s pj := by
  induction i, b, s, pj using generatePiecesLoop.induct g with
  | case1 i b s pj h ih =>
    rw [generatePiecesLoop, if_pos h, ih, piecesLoop.eq_1 maxChunkSize g i b s,
      if_pos ⟨by decide, h⟩]
  | case2 i b s pj h hs =>
    have h' : ¬ (0 < maxChunkSize ∧ maxChunkSize < s) := fun h' => h h'.2
    rw [generatePiecesLoop, if_neg h, if_pos hs, piecesLoop, if_neg h', if_pos hs]
  | case3 i b s pj h hs =>
    have h' : ¬ (0 < maxChunkSize ∧ maxChunkSize < s) := fun h' => h h'.2
    rw [generatePiecesLoop, if_neg h, if_neg hs, piecesLoop, if_neg h', if_neg hs]

/-- The kernel cuts objects with its own chunk size. -/
theorem generatePiecesJson_eq (s : ℕ) (g : ℕ → UUID) :
    generatePiecesJson s g = piecesJson maxChunkSize s g := by
  rw [generatePiecesJson, piecesJson, generatePiecesLoop_eq]

/-- So is what it puts into a master object. -/
theorem content_masterObject (codec : Codec) (r : Request) :
    (masterObject codec r).content = masterContent codec maxChunkSize r := rfl

/-! ### What the pieces should be -/

/-- The pieces are a partition of `[0, s)`. -/
structure Partition (maxSize s : ℕ) (pieces : Pieces) : Prop where
  nonempty : ∀ u p, pieces.lookup u = some p → 0 < p.size
  atMost : ∀ u p, pieces.lookup u = some p → p.size ≤ maxSize
  disjoint : ∀ u v p q, u ≠ v → pieces.lookup u = some p → pieces.lookup v = some q →
    p.start + p.size ≤ q.start ∨ q.start + q.size ≤ p.start
  covers : ∀ x, (∃ u p, pieces.lookup u = some p ∧ p.start ≤ x ∧ x < p.start + p.size) ↔ x < s

/-- **The law**: there are pieces and they are a partition, or the data stands in the master. -/
def Chunked (codec : Codec) (maxSize : ℕ) (g : ℕ → UUID) (r : Request) : Prop :=
  let pieces := piecesJson maxSize r.source.data.length g
  (pieces = ∅ → masterContent codec maxSize r = some (codec.base64Encode r.source.data)) ∧
    (pieces ≠ ∅ → Partition maxSize r.source.data.length pieces)

/-! ### The pieces there are -/

/-- The number of pieces before the last one. -/
def rounds (maxSize s : ℕ) : ℕ := (s - 1) / maxSize

/-- A piece the loop makes. -/
def pieceAt (maxSize b s k : ℕ) : Piece :=
  ⟨(b + k * maxSize) % 2 ^ 32, if k < rounds maxSize s then maxSize else s - k * maxSize, none⟩

/-- One piece less is one round less. -/
theorem rounds_succ (hmax : 0 < maxSize) (hs : maxSize < s) :
    rounds maxSize s = rounds maxSize (s - maxSize) + 1 := by
  rw [rounds, rounds, Nat.sub_right_comm]
  exact Nat.div_eq_sub_div hmax (by omega)

/-- The pieces of the rest are the later pieces of the whole. -/
theorem pieceAt_succ {b : ℕ} (hmax : 0 < maxSize) (hs : maxSize < s) (k : ℕ) :
    pieceAt maxSize ((b + maxSize) % 2 ^ 32) (s - maxSize) k = pieceAt maxSize b s (k + 1) := by
  have hround : k < rounds maxSize (s - maxSize) ↔ k + 1 < rounds maxSize s := by
    rw [rounds_succ hmax hs]
    omega
  have hstart : ((b + maxSize) % 2 ^ 32 + k * maxSize) % 2 ^ 32 =
      (b + (k + 1) * maxSize) % 2 ^ 32 := by
    rw [Nat.mod_add_mod, Nat.succ_mul]
    congr 1
    omega
  simp only [pieceAt, hround, hstart, Nat.succ_mul]
  congr 2
  omega

/-- **What the loop makes**: its pieces, beside those there were. -/
theorem lookup_piecesLoop {i b : ℕ} {pj : Pieces} (hmax : 0 < maxSize) (hs : 0 < s)
    (hb : b < 2 ^ 32)
    (hg : ∀ j k, j ≤ rounds maxSize s → k ≤ rounds maxSize s → g (i + j) = g (i + k) → j = k) :
    (piecesLoop maxSize g i b s pj).lookup u = some p ↔
      (∃ k ≤ rounds maxSize s, u = g (i + k) ∧ p = pieceAt maxSize b s k) ∨
        (∀ k ≤ rounds maxSize s, u ≠ g (i + k)) ∧ pj.lookup u = some p := by
  induction i, b, s, pj using piecesLoop.induct maxSize g with
  -- a round: the first piece is the one it adds, the others come of the rest
  | case1 i b s pj h ih =>
    have hround := rounds_succ hmax h.2
    have hshift (k : ℕ) : i + 1 + k = i + (k + 1) := by omega
    have hfirst : pieceAt maxSize b s 0 = ⟨b, maxSize, none⟩ := by
      rw [pieceAt, if_pos (by omega), Nat.zero_mul, Nat.add_zero, Nat.mod_eq_of_lt hb]
    have hih := ih (by omega) (Nat.mod_lt _ (by decide)) fun j k hj hk hjk => by
      rw [hshift, hshift] at hjk
      have := hg (j + 1) (k + 1) (by omega) (by omega) hjk
      omega
    simp only [hshift, pieceAt_succ hmax h.2] at hih
    rw [piecesLoop, if_pos h, hih, Ledger.lookup_insert_ite]
    constructor
    -- what a piece of the rest has, this round does not write over, since the names differ
    · rintro (⟨k, hk, hu, hp⟩ | ⟨hne, hlookup⟩)
      · exact .inl ⟨k + 1, by omega, hu, hp⟩
      · split_ifs at hlookup with hu
        · exact .inl ⟨0, Nat.zero_le _, hu, by rw [hfirst]; exact (Option.some.inj hlookup).symm⟩
        · refine .inr ⟨fun k hk => ?_, hlookup⟩
          cases k with
          | zero => exact hu
          | succ k => exact hne k (by omega)
    · rintro (⟨k, hk, hu, hp⟩ | ⟨hne, hlookup⟩)
      · cases k with
        | zero =>
          refine .inr ⟨fun j hj hju => ?_, ?_⟩
          · have := hg 0 (j + 1) (Nat.zero_le _) (by omega) (hu.symm.trans hju)
            omega
          · have hu' : u = g i := hu
            rw [if_pos hu', hp, hfirst]
        | succ k => exact .inl ⟨k, by omega, hu, hp⟩
      · have hu' : u ≠ g i := hne 0 (Nat.zero_le _)
        refine .inr ⟨fun k hk => hne (k + 1) (by omega), ?_⟩
        rwa [if_neg hu']
  -- the last piece has what is left of the size
  | case2 i b s pj h hs' =>
    have hround : rounds maxSize s = 0 := Nat.div_eq_of_lt (by omega)
    have hlast : pieceAt maxSize b s 0 = ⟨b, s, none⟩ := by
      rw [pieceAt, if_neg (by omega), Nat.zero_mul, Nat.add_zero, Nat.mod_eq_of_lt hb, Nat.sub_zero]
    rw [piecesLoop, if_neg h, if_pos hs', hround, Ledger.lookup_insert_ite]
    constructor
    · intro hlookup
      split_ifs at hlookup with hu
      · exact .inl ⟨0, le_rfl, hu, by rw [hlast]; exact (Option.some.inj hlookup).symm⟩
      · refine .inr ⟨fun k hk => ?_, hlookup⟩
        obtain rfl := Nat.le_zero.mp hk
        exact hu
    · rintro (⟨k, hk, hu, hp⟩ | ⟨hne, hlookup⟩)
      · obtain rfl := Nat.le_zero.mp hk
        have hu' : u = g i := hu
        rw [if_pos hu', hp, hlast]
      · have hu' : u ≠ g i := hne 0 le_rfl
        rwa [if_neg hu']
  -- nothing is left: the size was positive
  | case3 i b s pj h hs' => exact absurd hs hs'

/-- The generator does not repeat itself within one object. -/
def Distinct (g : ℕ → UUID) : Prop := ∀ j k, j < 2 ^ 64 → k < 2 ^ 64 → g j = g k → j = k

section Pieces

variable (hmax : 0 < maxSize) (hs : s < 2 ^ 64) (hbig : maxSize < s) (hg : Distinct g)

include hmax hs hbig hg in
/-- The pieces of an object that does not fit one chunk. -/
theorem lookup_piecesJson : (piecesJson maxSize s g).lookup u = some p ↔
    ∃ k ≤ rounds maxSize s, u = g k ∧ p = pieceAt maxSize 0 s k := by
  have hround : rounds maxSize s < 2 ^ 64 := by
    have : rounds maxSize s ≤ s - 1 := Nat.div_le_self _ _
    omega
  rw [piecesJson, if_neg (by omega), lookup_piecesLoop hmax (by omega) (by decide)]
  · simp only [Nat.zero_add, AList.lookup_empty, reduceCtorEq, and_false, or_false]
  · intro j k hj hk hjk
    rw [Nat.zero_add, Nat.zero_add] at hjk
    exact hg j k (by omega) (by omega) hjk

/-- The last piece is the rest. -/
theorem rounds_mul_lt (hmax : 0 < maxSize) (hs : 0 < s) :
    rounds maxSize s * maxSize < s ∧ s ≤ rounds maxSize s * maxSize + maxSize := by
  have hdiv := Nat.div_add_mod (s - 1) maxSize
  have hmod := Nat.mod_lt (s - 1) hmax
  rw [Nat.mul_comm] at hdiv
  rw [rounds]
  omega

/-- Where a piece starts that starts below `2 ^ 32`, and how long it is. -/
theorem pieceAt_bounds (hmax : 0 < maxSize) (hs : 0 < s) {k : ℕ} (hk : k ≤ rounds maxSize s) :
    (pieceAt maxSize 0 s k).start = k * maxSize % 2 ^ 32 ∧ 0 < (pieceAt maxSize 0 s k).size ∧
      (pieceAt maxSize 0 s k).size ≤ maxSize ∧
        (k < rounds maxSize s → (pieceAt maxSize 0 s k).size = maxSize) ∧
          (k = rounds maxSize s → k * maxSize + (pieceAt maxSize 0 s k).size = s) := by
  obtain ⟨hlt, hle⟩ := rounds_mul_lt hmax hs
  by_cases hlast : k < rounds maxSize s
  · rw [pieceAt, if_pos hlast, Nat.zero_add]
    exact ⟨rfl, hmax, le_rfl, fun _ => rfl, fun h => by omega⟩
  · obtain rfl : k = rounds maxSize s := by omega
    rw [pieceAt, if_neg hlast, Nat.zero_add]
    refine ⟨rfl, ?_, ?_, fun h => absurd h hlast, fun _ => ?_⟩
    · show 0 < s - _
      omega
    · show s - _ ≤ maxSize
      omega
    · show _ + (s - _) = s
      omega

include hmax hs hbig hg in
/-- Pieces that start below `2 ^ 32` are a partition. -/
theorem partition_of_lt (h : rounds maxSize s * maxSize < 2 ^ 32) :
    Partition maxSize s (piecesJson maxSize s g) := by
  have hlookup {u : UUID} {p : Piece} := lookup_piecesJson (u := u) (p := p) hmax hs hbig hg
  have hpos : 0 < s := by omega
  have hstart {k : ℕ} (hk : k ≤ rounds maxSize s) :
      (pieceAt maxSize 0 s k).start = k * maxSize := by
    rw [(pieceAt_bounds hmax hpos hk).1]
    exact Nat.mod_eq_of_lt (lt_of_le_of_lt (Nat.mul_le_mul_right _ hk) h)
  -- a piece ends where the next one starts, the last one at the end
  have hend {j k : ℕ} (hj : j ≤ rounds maxSize s) (hjk : j < k) (hk : k ≤ rounds maxSize s) :
      (pieceAt maxSize 0 s j).start + (pieceAt maxSize 0 s j).size ≤
        (pieceAt maxSize 0 s k).start := by
    have hmul : (j + 1) * maxSize ≤ k * maxSize := Nat.mul_le_mul_right _ hjk
    rw [hstart hj, hstart hk, (pieceAt_bounds hmax hpos hj).2.2.2.1 (by omega), ← Nat.succ_mul]
    exact hmul
  constructor
  · intro u p hp
    obtain ⟨k, hk, -, rfl⟩ := hlookup.mp hp
    exact (pieceAt_bounds hmax hpos hk).2.1
  · intro u p hp
    obtain ⟨k, hk, -, rfl⟩ := hlookup.mp hp
    exact (pieceAt_bounds hmax hpos hk).2.2.1
  · intro u v p q huv hp hq
    obtain ⟨j, hj, rfl, rfl⟩ := hlookup.mp hp
    obtain ⟨k, hk, rfl, rfl⟩ := hlookup.mp hq
    rcases Nat.lt_trichotomy j k with hjk | rfl | hkj
    · exact .inl (hend hj hjk hk)
    · exact absurd rfl huv
    · exact .inr (hend hk hkj hj)
  · intro x
    obtain ⟨hlt, -⟩ := rounds_mul_lt hmax hpos
    constructor
    · rintro ⟨u, p, hp, -, hx⟩
      obtain ⟨k, hk, -, rfl⟩ := hlookup.mp hp
      obtain ⟨-, -, hsize, -, hlast⟩ := pieceAt_bounds hmax hpos hk
      rw [hstart hk] at hx
      rcases Nat.lt_or_eq_of_le hk with hk | hk
      · have hmul : (k + 1) * maxSize ≤ rounds maxSize s * maxSize := Nat.mul_le_mul_right _ hk
        rw [Nat.succ_mul] at hmul
        omega
      · have := hlast hk
        omega
    · intro hx
      have hdiv := Nat.div_add_mod x maxSize
      have hmod := Nat.mod_lt x hmax
      rw [Nat.mul_comm] at hdiv
      have hk : x / maxSize ≤ rounds maxSize s := Nat.div_le_div_right (by omega)
      obtain ⟨-, -, -, hsize, hlast⟩ := pieceAt_bounds hmax hpos hk
      refine ⟨_, _, hlookup.mpr ⟨x / maxSize, hk, rfl, rfl⟩, ?_, ?_⟩
      · rw [hstart hk]
        omega
      · rw [hstart hk]
        rcases Nat.lt_or_eq_of_le hk with hk | hk
        · have := hsize hk
          omega
        · have := hlast hk
          omega

include hmax hs hbig hg in
/-- The first piece that starts beyond is put over the first one of all. -/
theorem lt_of_partition (hsmall : maxSize < 2 ^ 32)
    (h : Partition maxSize s (piecesJson maxSize s g)) : rounds maxSize s * maxSize < 2 ^ 32 := by
  have hlookup {u : UUID} {p : Piece} := lookup_piecesJson (u := u) (p := p) hmax hs hbig hg
  have hpos : 0 < s := by omega
  by_contra hge
  obtain ⟨k, hk⟩ : ∃ k, k = (2 ^ 32 - 1) / maxSize + 1 := ⟨_, rfl⟩
  have hdiv := Nat.div_add_mod (2 ^ 32 - 1) maxSize
  have hmod := Nat.mod_lt (2 ^ 32 - 1) hmax
  have hmul : k * maxSize = maxSize * ((2 ^ 32 - 1) / maxSize) + maxSize := by
    rw [hk, Nat.succ_mul, Nat.mul_comm]
  have hkr : k ≤ rounds maxSize s := by
    by_contra hlt
    have : (rounds maxSize s + 1) * maxSize ≤ k * maxSize := Nat.mul_le_mul_right _ (by omega)
    rw [Nat.succ_mul] at this
    omega
  obtain ⟨hstart, hsize, -⟩ := pieceAt_bounds hmax hpos hkr
  obtain ⟨hstart₀, -, -, hsize₀, -⟩ := pieceAt_bounds hmax hpos (Nat.zero_le (rounds maxSize s))
  have hne : g 0 ≠ g k := by
    intro hgk
    have hr : rounds maxSize s ≤ s - 1 := Nat.div_le_self _ _
    have hzero := hg 0 k (by omega) (by omega) hgk
    rw [hk] at hzero
    exact absurd hzero (Nat.succ_ne_zero _).symm
  have hdisjoint := h.disjoint _ _ _ _ hne (hlookup.mpr ⟨0, Nat.zero_le _, rfl, rfl⟩)
    (hlookup.mpr ⟨k, hkr, rfl, rfl⟩)
  have hrounds : 0 < rounds maxSize s := by
    refine Nat.pos_of_ne_zero fun hzero => hge ?_
    rw [hzero, Nat.zero_mul]
    decide
  have hk₁ : 2 ^ 32 ≤ k * maxSize ∧ k * maxSize < 2 ^ 32 + maxSize := by omega
  rw [hstart, hstart₀, hsize₀ hrounds, Nat.zero_mul, Nat.zero_mod] at hdisjoint
  omega

end Pieces

/-- Data that fits one chunk is read as a whole. -/
theorem getPieceDataForSave_all (r : Request) :
    getPieceDataForSave r 0 r.source.data.length = r.source.data := by
  rw [getPieceDataForSave, List.drop_zero, List.take_left]

/-- **The chunks of an object are a partition exactly if the last one starts below `2 ^ 32`.** -/
theorem chunked_iff (codec : Codec) (r : Request) (hmax : 0 < maxSize) (hsmall : maxSize < 2 ^ 32)
    (hs : r.source.data.length < 2 ^ 64) (hg : Distinct g) :
    Chunked codec maxSize g r ↔ (r.source.data.length - 1) / maxSize * maxSize < 2 ^ 32 := by
  rw [Chunked]
  by_cases hbig : maxSize < r.source.data.length
  · have hne : piecesJson maxSize r.source.data.length g ≠ ∅ := by
      intro hnil
      have hfirst := (lookup_piecesJson hmax hs hbig hg).mpr ⟨0, Nat.zero_le _, rfl, rfl⟩
      rw [hnil, AList.lookup_empty] at hfirst
      cases hfirst
    constructor
    · exact fun h => lt_of_partition hmax hs hbig hg hsmall (h.2 hne)
    · exact fun h => ⟨fun hnil => absurd hnil hne, fun _ => partition_of_lt hmax hs hbig hg h⟩
  · have hrounds : (r.source.data.length - 1) / maxSize = 0 := Nat.div_eq_of_lt (by omega)
    have hnil : piecesJson maxSize r.source.data.length g = ∅ := if_pos (by omega)
    rw [hrounds, Nat.zero_mul]
    refine iff_of_true ⟨fun _ => ?_, fun hne => absurd hnil hne⟩ (by decide)
    rw [masterContent, if_pos (by omega), getPieceDataForSave_all]

/-- Uuids in the order of their numbers. -/
def counting (k : ℕ) : UUID := BitVec.ofNat 128 k

/-- Numbers below `2 ^ 64` give different uuids. -/
theorem distinct_counting : Distinct counting := by
  intro j k hj hk h
  have hnat := congrArg BitVec.toNat h
  rw [counting, counting, BitVec.toNat_ofNat, BitVec.toNat_ofNat] at hnat
  omega

/-- A request that saves some bytes, as they are. -/
def saving (data : Bytes) : Request where
  uuid := 1
  waitsFor := .nothing
  cmd := .save
  source := .message data []
  contentType := ""
  enc := false
  aesKey := none
  masterJson := ∅
  oldMasterJson := none
  units := []
  backupUnits := []
  savedUnits := []
  isLocal := true
  dataVersion := 1
  lastUpdated := 0
  expireDate := 0

/-- Three bytes in chunks of two. -/
theorem chunked_saving : Chunked .plain 2 counting (saving [10, 11, 12]) :=
  (chunked_iff .plain (saving [10, 11, 12]) (by decide) (by decide) (by decide)
    distinct_counting).mpr (by decide)

/-- **A third piece of `2 ^ 31` bytes is put over the first one.** -/
theorem not_chunked : ¬ ∀ (codec : Codec) (maxSize : ℕ) (g : ℕ → UUID) (r : Request),
    0 < maxSize → maxSize < 2 ^ 32 → r.source.data.length < 2 ^ 64 → Distinct g →
      Chunked codec maxSize g r := by
  intro h
  have hlength : (saving (List.replicate (3 * 2 ^ 31) 0)).source.data.length = 3 * 2 ^ 31 :=
    List.length_replicate
  have hchunked := h .plain (2 ^ 31) counting (saving (List.replicate (3 * 2 ^ 31) 0))
    (by decide) (by decide) (by rw [hlength]; decide) distinct_counting
  have hlookup {u : UUID} {p : Piece} := lookup_piecesJson (u := u) (p := p)
    (show 0 < 2 ^ 31 by decide) (show 3 * 2 ^ 31 < 2 ^ 64 by decide)
    (show 2 ^ 31 < 3 * 2 ^ 31 by decide) distinct_counting
  rw [Chunked, hlength] at hchunked
  have hfirst := hlookup.mpr ⟨0, Nat.zero_le _, rfl, rfl⟩
  have hthird := hlookup.mpr ⟨2, by decide, rfl, rfl⟩
  have hpartition := hchunked.2 fun hnil => by
    rw [hnil, AList.lookup_empty] at hfirst
    cases hfirst
  exact absurd (hpartition.disjoint _ _ _ _ (by decide) hfirst hthird) (by decide)

end Kernel

end Metax
