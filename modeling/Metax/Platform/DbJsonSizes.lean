import Metax.Platform.DbJson

/-!
# What the operations of `db_json` do to the sizes

For each operation of the database: which of the two directories and which counters it
leaves alone, and how the byte totals move when a file is put in place or taken away. All of
them come down to `storageTotal_store` and the balance rules of the ledger.

An operation that fails halfway is among them: what it has left in the file system is what its
outcome says.
-/

namespace Metax

namespace DbJson

variable {s t : DbJson} {uuid u : UUID} {content : Package} {w : Write}

/-! ### Frames -/

theorem storageTotal_congr (h : s.dbPath = t.dbPath) : s.storageTotal = t.storageTotal := by
  rw [storageTotal, storageTotal, h]

theorem storedSize_congr (h : s.dbPath = t.dbPath) : s.storedSize u = t.storedSize u := by
  rw [storedSize, storedSize, h]

theorem cacheTotal_congr (h : s.cachePath = t.cachePath) : s.cacheTotal = t.cacheTotal := by
  rw [cacheTotal, cacheTotal, h]

theorem cachedSize_congr (h : s.cachePath = t.cachePath) : s.cachedSize u = t.cachedSize u := by
  rw [cachedSize, cachedSize, h]

theorem storedSize_le_total (s : DbJson) (u : UUID) : s.storedSize u ≤ s.storageTotal :=
  Ledger.weight_le_total

theorem cachedSize_le_total (s : DbJson) (u : UUID) : s.cachedSize u ≤ s.cacheTotal :=
  Ledger.weight_le_total

@[simp]
theorem store_cachePath (c : Option Bytes) : (s.store u c).cachePath = s.cachePath := by
  cases c <;> rfl

@[simp]
theorem store_cacheSize (c : Option Bytes) : (s.store u c).cacheSize = s.cacheSize := by
  cases c <;> rfl

@[simp]
theorem store_storageSize (c : Option Bytes) : (s.store u c).storageSize = s.storageSize := by
  cases c <;> rfl

@[simp]
theorem store_storageLimit (c : Option Bytes) : (s.store u c).storageLimit = s.storageLimit := by
  cases c <;> rfl

@[simp]
theorem addInCache_dbPath (now : Int64) : (s.addInCache u content w now).dbPath = s.dbPath := by
  unfold addInCache
  cases w.file content <;> rfl

@[simp]
theorem addInCache_storageSize (now : Int64) :
    (s.addInCache u content w now).storageSize = s.storageSize := by
  unfold addInCache
  cases w.file content <;> rfl

@[simp]
theorem addInCache_storageLimit (now : Int64) :
    (s.addInCache u content w now).storageLimit = s.storageLimit := by
  unfold addInCache
  cases w.file content <;> rfl

/-- Everything `delete_uuid_from_cache` leaves alone. -/
theorem deleteUuidFromCache_frame (removed : Bool) :
    (s.deleteUuidFromCache u removed).1.dbPath = s.dbPath ∧
      (s.deleteUuidFromCache u removed).1.storageSize = s.storageSize ∧
      (s.deleteUuidFromCache u removed).1.storageLimit = s.storageLimit := by
  unfold deleteUuidFromCache
  cases s.cachePath.lookup u with
  | none => exact ⟨rfl, rfl, rfl⟩
  | some f => cases removed <;> exact ⟨rfl, rfl, rfl⟩

/-- Everything the removal of a stored file leaves alone. -/
theorem deleteStored_frame (removed : Bool) :
    (s.deleteStored u removed).1.cachePath = s.cachePath ∧
      (s.deleteStored u removed).1.cacheSize = s.cacheSize ∧
      (s.deleteStored u removed).1.storageLimit = s.storageLimit := by
  unfold deleteStored
  cases s.dbPath.lookup u with
  | none => exact ⟨rfl, rfl, rfl⟩
  | some c => cases removed <;> exact ⟨rfl, rfl, rfl⟩

/-- Everything `cleanup_cache` leaves alone. -/
theorem cleanupLoop_frame (old : Int64) (v : List (UUID × Bool)) :
    (s.cleanupLoop old v).dbPath = s.dbPath ∧
      (s.cleanupLoop old v).storageSize = s.storageSize ∧
      (s.cleanupLoop old v).storageLimit = s.storageLimit := by
  induction v generalizing s with
  | nil => exact ⟨rfl, rfl, rfl⟩
  | cons e v ih =>
    obtain ⟨uuid, removed⟩ := e
    unfold cleanupLoop
    cases s.cachePath.lookup uuid with
    | none => exact ⟨rfl, rfl, rfl⟩
    | some f =>
      dsimp only
      split_ifs
      · exact ih
      · exact ⟨rfl, rfl, rfl⟩
      · exact ⟨rfl, rfl, rfl⟩

/-- Everything one promotion from the cache leaves alone. -/
theorem moveFile_frame (m : Move) :
    (s.moveFile u m).1.storageSize = s.storageSize ∧
      (s.moveFile u m).1.storageLimit = s.storageLimit ∧
      (s.moveFile u m).1.cacheSize = s.cacheSize := by
  unfold moveFile
  cases s.cachePath.lookup u with
  | none => exact ⟨rfl, rfl, rfl⟩
  | some f =>
    dsimp only
    split_ifs <;> simp

/-- Everything `create` leaves alone. -/
theorem create_frame (s : DbJson) (u : UUID) (content : Package) (w : Write) :
    (s.create u content w).1.cachePath = s.cachePath ∧
      (s.create u content w).1.cacheSize = s.cacheSize ∧
      (s.create u content w).1.storageLimit = s.storageLimit := by
  unfold create
  split
  · exact ⟨rfl, rfl, rfl⟩
  · dsimp only
    split <;> simp

/-- Everything `copy` leaves alone. -/
theorem copy_frame (new : UUID) (c : Copy) :
    (s.copy u new c).1.cachePath = s.cachePath ∧
      (s.copy u new c).1.cacheSize = s.cacheSize ∧
      (s.copy u new c).1.storageLimit = s.storageLimit := by
  unfold copy
  dsimp only
  split
  · exact ⟨rfl, rfl, rfl⟩
  · cases c <;> simp

/-! ### The byte totals -/

/-- The size of a file after a write, `old` being its size before. -/
def leftBy (old : ℕ) (c : Option Bytes) : ℕ := c.elim old List.length

/-- **Balance of a write to the storage directory.** -/
theorem storageTotal_store (c : Option Bytes) :
    (s.store u c).storageTotal + s.storedSize u =
      s.storageTotal + leftBy (s.storedSize u) c := by
  cases c with
  | none => rfl
  | some c => exact Ledger.total_insert

theorem storageTotal_erase :
    Ledger.total (fun _ c => c.length) (s.dbPath.erase u) + s.storedSize u = s.storageTotal :=
  Ledger.total_erase

theorem cacheTotal_erase :
    Ledger.total (fun _ f => f.content.length) (s.cachePath.erase u) + s.cachedSize u =
      s.cacheTotal :=
  Ledger.total_erase

theorem storedSize_of_lookup {c : Bytes} (h : s.dbPath.lookup u = some c) :
    s.storedSize u = c.length :=
  Ledger.weight_of_lookup h

theorem cachedSize_of_lookup {f : CacheFile} (h : s.cachePath.lookup u = some f) :
    s.cachedSize u = f.content.length :=
  Ledger.weight_of_lookup h

theorem cachedSize_of_notMem (h : s.cachePath.lookup u = none) : s.cachedSize u = 0 :=
  Ledger.weight_of_notMem h

/-- A write that is not noticed to fail leaves no more than the content. -/
theorem Write.leftBy_le_of_not_fail (h : w.fail content = false) :
    leftBy (s.storedSize u) (w.file content) ≤ content.size := by
  cases w with
  | ok => exact List.length_take_le' _ _
  | notOpened => simp [Write.fail] at h
  | short n => simp [Write.fail] at h
  | unflushed n => exact List.length_take_le' _ _

/-- A write that is not noticed to fail is shorter than `2 ^ 31` bytes. -/
theorem Write.size_lt_of_not_fail (h : w.fail content = false) : content.size < 2 ^ 31 := by
  cases w with
  | ok => simpa [Write.fail] using h
  | notOpened => simp [Write.fail] at h
  | short n => simp [Write.fail] at h
  | unflushed n => simpa [Write.fail] using h

/-- The sizes of single files after a write. -/
theorem storedSize_store (c : Option Bytes) (v : UUID) :
    (s.store u c).storedSize v = if v = u then leftBy (s.storedSize u) c else s.storedSize v := by
  cases c with
  | none =>
    split_ifs with h
    · rw [h]; rfl
    · rfl
  | some c =>
    split_ifs with h
    · rw [h]
      exact Ledger.weight_insert
    · exact Ledger.weight_insert_ne h

/-- **What `create` can do**: refuse for want of space and change nothing, fail in the write
and leave what the write left, or go on, leave what the write and `close` left, and count the
content. -/
theorem create_cases (s : DbJson) (u : UUID) (content : Package) (w : Write) :
    (s.lacksSpace content = true ∧ s.create u content w = (s, .error .noSpaceInStorage)) ∨
    (s.lacksSpace content = false ∧ w.fail content = true ∧
      ∃ e, s.create u content w = (s.store u (w.file content), .error e)) ∨
    (s.lacksSpace content = false ∧ w.fail content = false ∧
      s.create u content w =
        ({ s.store u (w.file content) with
            storageSize := s.storageSize + UInt64.ofNat content.size }, .ok ())) := by
  unfold create
  cases hspace : s.lacksSpace content with
  | true => exact .inl ⟨rfl, rfl⟩
  | false =>
    cases hfail : w.fail content with
    | true => exact .inr (.inl ⟨rfl, rfl, _, rfl⟩)
    | false =>
      refine .inr (.inr ⟨rfl, rfl, ?_⟩)
      simp only [Bool.false_eq_true, if_false, store_storageSize]

theorem copySource_self : s.copySource u u = [] := if_pos rfl

theorem length_copySource {new : UUID} (h : u ≠ new) :
    (s.copySource u new).length = s.storedSize u := by
  rw [copySource, if_neg h, storedSize, Ledger.weight]
  cases s.dbPath.lookup u <;> rfl

/-- **What `copy` can do**: refuse for want of space, not open the target, fail half way, or
put the source in place and count it. -/
theorem copy_cases (s : DbJson) (u new : UUID) (c : Copy) :
    (s.storageLimit.toUInt64 < s.storageSize + UInt64.ofNat (s.storedSize u) ∧
      s.copy u new c = (s, .error .noSpaceForCopy)) ∨
    (¬ s.storageLimit.toUInt64 < s.storageSize + UInt64.ofNat (s.storedSize u) ∧
      ∃ errno, c = .notOpened errno ∧ s.copy u new c = (s, .error (.file errno))) ∨
    (¬ s.storageLimit.toUInt64 < s.storageSize + UInt64.ofNat (s.storedSize u) ∧
      ∃ n errno, c = .short n errno ∧
        s.copy u new c =
          (s.store new (some ((s.copySource u new).take n)), .error (.file errno))) ∨
    (¬ s.storageLimit.toUInt64 < s.storageSize + UInt64.ofNat (s.storedSize u) ∧ c = .ok ∧
      s.copy u new c =
        ({ s.store new (some (s.copySource u new)) with
            storageSize := s.storageSize + UInt64.ofNat (s.storedSize u) }, .ok ())) := by
  unfold copy
  dsimp only
  split_ifs with hspace
  · exact .inl ⟨hspace, rfl⟩
  · cases c with
    | notOpened errno => exact .inr (.inl ⟨hspace, errno, rfl, rfl⟩)
    | short n errno => exact .inr (.inr (.inl ⟨hspace, n, errno, rfl, rfl⟩))
    | ok => exact .inr (.inr (.inr ⟨hspace, rfl, rfl⟩))

/-! ### The cache directory -/

/-- The cached files after an insertion. -/
theorem addInCache_cachePath (now : Int64) :
    (s.addInCache u content w now).cachePath =
      match w.file content with
      | none => s.cachePath
      | some c => s.cachePath.insert u ⟨c, now⟩ := by
  rw [addInCache]
  rcases w.file content with _ | c <;> rfl

/-- **Balance of an insertion into the cache.** -/
theorem cacheTotal_addInCache (s : DbJson) (u : UUID) (content : Package) (w : Write)
    (now : Int64) :
    (s.addInCache u content w now).cacheTotal + s.cachedSize u =
      s.cacheTotal + leftBy (s.cachedSize u) (w.file content) := by
  rw [cacheTotal, addInCache_cachePath]
  rcases w.file content with _ | c
  · rfl
  · exact Ledger.total_insert

/-- The directory holds no byte as soon as no file in it does. -/
theorem cacheTotal_eq_zero (h : ∀ u, s.cachedSize u = 0) : s.cacheTotal = 0 := by
  by_contra hne
  obtain ⟨u, f, hlook, hpos⟩ := Ledger.exists_of_total_pos (Nat.pos_of_ne_zero hne)
  exact hpos.ne' ((cachedSize_of_lookup hlook).symm.trans (h u))

/-- A removal lengthens no cached file. -/
theorem cachedSize_deleteUuidFromCache_le (removed : Bool) (v : UUID) :
    (s.deleteUuidFromCache u removed).1.cachedSize v ≤ s.cachedSize v := by
  rw [deleteUuidFromCache]
  rcases s.cachePath.lookup u with _ | f
  · exact le_rfl
  rcases removed with _ | _
  · exact le_rfl
  · exact Ledger.weight_erase_le

end DbJson

end Metax
