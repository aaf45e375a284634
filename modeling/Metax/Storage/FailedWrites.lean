import Metax.Platform.DbJsonSizes
import Metax.Storage.Task

/-!
# What a failed write leaves behind

Three calls put data under a uuid, and all of them go through `db_json::create`. Two of them
reduce the counter by the size of the stored file before, and nothing adds it again when `create`
throws. `create` itself opens the file, which empties it, before the write can fail.
`unchanged_iff_intact` says exactly when a failed call leaves the stored content and the counter
as they were.

A write may fail when the file is opened, when it is written, or silently when it is closed: then
the call succeeds with a short file, which is not a failed write here (`Write.fail`).
-/

namespace Metax

namespace Storage

open DbJson

/-- The calls that put data under a uuid. -/
inductive Saving
  | saveData
  | saveDataAsyncForRouter
  | updateDataAsyncForRouter
  deriving DecidableEq

variable {s t : DbJson} {k : Saving} {uuid : UUID} {data : Package} {w : Write}

/-- The call itself. -/
def Saving.op (k : Saving) (uuid : UUID) (data : Package) (w : Write) : Op :=
  match k with
  | saveData => .saveData uuid data w
  | saveDataAsyncForRouter => .saveDataAsyncForRouter uuid data w
  | updateDataAsyncForRouter => .updateDataAsyncForRouter uuid data w

/-- Whether the call starts with `reduce_uuid_size`. -/
def Saving.reduces : Saving → Bool
  | saveData | updateDataAsyncForRouter => true
  | saveDataAsyncForRouter => false

/-- The database when `create` is called. -/
def Saving.before (k : Saving) (s : DbJson) (uuid : UUID) : DbJson :=
  if k.reduces then s.reduceUuidSize uuid else s

/-- The call ends in `no_space` or `failed`; the router is not told. -/
def Fails (s : DbJson) (op : Op) : Prop :=
  (perform s op).2 ∈ [some Command.noSpace, some Command.failed, none]

/-- The content of the uuid and the counter are as before. -/
def Unchanged (uuid : UUID) (s t : DbJson) : Prop :=
  t.dbPath.lookup uuid = s.dbPath.lookup uuid ∧ t.storageSize = s.storageSize

/-- If the call fails, it has not reduced the counter by anything; and if it fails in the write,
the file was not opened or holds what it held. -/
def Intact (s : DbJson) (k : Saving) (uuid : UUID) (data : Package) (w : Write) : Prop :=
  ((k.before s uuid).lacksSpace data = true ∨ w.fail data = true → k.reduces = true →
    UInt64.ofNat (s.storedSize uuid) = 0) ∧
  ((k.before s uuid).lacksSpace data = false → w.fail data = true →
    w.file data = none ∨ w.file data = s.dbPath.lookup uuid)

/-- All three calls are `create`, after the reduction if there is one. -/
theorem state_perform_op (s : DbJson) (k : Saving) (uuid : UUID) (data : Package) (w : Write) :
    (perform s (k.op uuid data w)).1 = ((k.before s uuid).create uuid data w).1 := by
  cases k with
  | saveData =>
    simp only [Saving.op, perform, saveData]
    split <;> rename_i h <;> exact (congrArg Prod.fst h).symm
  | saveDataAsyncForRouter =>
    simp only [Saving.op, perform, saveDataAsyncForRouter]
    split <;> rename_i h <;> exact (congrArg Prod.fst h).symm
  | updateDataAsyncForRouter =>
    simp only [Saving.op, perform, updateDataAsyncForRouter]
    split <;> rename_i h <;> exact (congrArg Prod.fst h).symm

/-- A call fails exactly if `create` throws. -/
theorem fails_op_iff (s : DbJson) (k : Saving) (uuid : UUID) (data : Package) (w : Write) :
    Fails s (k.op uuid data w) ↔ ∃ e, ((k.before s uuid).create uuid data w).2 = .error e := by
  have hexn : ∀ e, Command.ofExn e = .noSpace ∨ Command.ofExn e = .failed := by
    intro e
    unfold Command.ofExn
    split_ifs
    · exact .inl rfl
    · exact .inr rfl
  unfold Fails
  cases k with
  | saveData =>
    simp only [Saving.op, perform, saveData]
    split
    · next heq => simp [Saving.before, Saving.reduces, heq]
    · next e heq => rcases hexn e with he | he <;> simp [Saving.before, Saving.reduces, heq, he]
  | saveDataAsyncForRouter =>
    simp only [Saving.op, perform, saveDataAsyncForRouter]
    split
    · next heq => simp [Saving.before, Saving.reduces, heq]
    · next e heq => simp [Saving.before, Saving.reduces, heq]
  | updateDataAsyncForRouter =>
    simp only [Saving.op, perform, updateDataAsyncForRouter]
    split
    · next heq => simp [Saving.before, Saving.reduces, heq]
    · next e heq => simp [Saving.before, Saving.reduces, heq]

theorem before_dbPath : (k.before s uuid).dbPath = s.dbPath := by
  unfold Saving.before
  split_ifs <;> rfl

/-- The reduction leaves the counter alone exactly if it reduces by nothing. -/
theorem before_storageSize_iff (s : DbJson) (k : Saving) (uuid : UUID) :
    (k.before s uuid).storageSize = s.storageSize ↔
      (k.reduces = true → UInt64.ofNat (s.storedSize uuid) = 0) := by
  unfold Saving.before
  split_ifs with h
  · rw [forall_prop_of_true h]
    constructor
    · intro hsize
      have hsub : s.storageSize - UInt64.ofNat (s.storedSize uuid) = s.storageSize := hsize
      simpa using hsub
    · intro hzero
      simp [reduceUuidSize, hzero]
  · exact ⟨fun _ hr => absurd hr h, fun _ => rfl⟩

/-- What a write leaves under the uuid is what was there. -/
theorem lookup_store_eq_iff (s : DbJson) (uuid : UUID) (c : Option Bytes) :
    (s.store uuid c).dbPath.lookup uuid = s.dbPath.lookup uuid ↔
      c = none ∨ c = s.dbPath.lookup uuid := by
  cases c with
  | none => simp [store]
  | some b => simp [store]

/-- **A failed write changes nothing exactly if it is intact.** -/
theorem unchanged_iff_intact (s : DbJson) (k : Saving) (uuid : UUID) (data : Package) (w : Write) :
    (Fails s (k.op uuid data w) → Unchanged uuid s (perform s (k.op uuid data w)).1) ↔
      Intact s k uuid data w := by
  rw [fails_op_iff, Unchanged, state_perform_op, Intact]
  have hdir : (k.before s uuid).dbPath = s.dbPath := before_dbPath
  have hsize := before_storageSize_iff s k uuid
  rcases create_cases (k.before s uuid) uuid data w with
    ⟨hspace, hc⟩ | ⟨hspace, hfail, e, hc⟩ | ⟨hspace, hfail, hc⟩
  · -- no space: only the counter may have changed
    rw [hc, hdir, hsize, hspace]
    simp
  · -- the write failed: the file may have changed as well
    rw [hc, hspace, hfail, store_storageSize, hsize]
    have hfile := lookup_store_eq_iff (k.before s uuid) uuid (w.file data)
    rw [hdir] at hfile
    simp [hfile, and_comm]
  · rw [hc, hspace, hfail]
    simp

/-- Three bytes are stored, four are allowed, five are to be saved. -/
def threeBytes : DbJson :=
  opened "" ((∅ : Ledger.Table UUID Bytes).insert 1 [1, 2, 3]) ∅ 0 3 0 0 4

/-- **A failed write may change the counter.** -/
theorem not_unchanged : ¬ ∀ (s : DbJson) (k : Saving) (uuid : UUID) (data : Package) (w : Write),
    Fails s (k.op uuid data w) → Unchanged uuid s (perform s (k.op uuid data w)).1 := by
  intro h
  have hkept := h threeBytes .saveData 1 ⟨[1, 2, 3, 4, 5], by decide⟩ .ok
    (.head _ : some Command.noSpace ∈ [some Command.noSpace, some Command.failed, none])
  exact absurd hkept.2 (by decide)

end Storage

end Metax
