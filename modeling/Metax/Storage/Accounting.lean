import Metax.Platform.DbJsonSizes
import Metax.Storage.Task

/-!
# The counter of the storage directory

`m_storage_size` is documented as the actual used storage size in bytes. It is adjusted by
hand, away from the file system calls: `reduce_uuid_size` debits the old file before `create`
has succeeded, `save_data_async_for_router` and `copy` do not debit the file they replace, a
failed write or removal is not settled, and a promotion from the cache is not counted at all.

`BalancedOp` collects, call by call, when the hand-made adjustment is the right one. The
counter is exact in every state of every run whose calls are balanced.
-/

namespace Metax

namespace Storage

open DbJson

variable {s t : DbJson} {uuid u : UUID} {data : Package} {w : Write} {ops : List Op}

/-- The counter equals the sum of the sizes of the stored files. -/
def Accounts (s : DbJson) : Prop := s.storageSize.toNat = s.storageTotal

/-- A save or update that debits the old file first: a failure leaves no byte of the file, what
counts as written is as long as the content, and the new total fits the counter. -/
def BalancedUpdate (s : DbJson) (uuid : UUID) (data : Package) (w : Write) : Prop :=
  if (s.reduceUuidSize uuid).lacksSpace data then
    s.storedSize uuid = 0
  else if w.fail data then
    leftBy (s.storedSize uuid) (w.file data) = 0
  else
    leftBy (s.storedSize uuid) (w.file data) = data.size ∧
      s.storageTotal - s.storedSize uuid + data.size < 2 ^ 64

/-- A save that does not debit the old file: there is none (or an empty one) and what counts as
written is as long as the content, or the write fails and leaves as many bytes as there were. -/
def BalancedSave (s : DbJson) (uuid : UUID) (data : Package) (w : Write) : Prop :=
  if s.lacksSpace data then
    True
  else if w.fail data then
    leftBy (s.storedSize uuid) (w.file data) = s.storedSize uuid
  else
    s.storedSize uuid = 0 ∧ leftBy (s.storedSize uuid) (w.file data) = data.size ∧
      s.storageTotal + data.size < 2 ^ 64

/-- A copy onto a name that is not in use (or an empty file), or one that fails and leaves
as many bytes as there were. Nothing happens when the source is not stored or there is no space. -/
def BalancedCopy (s : DbJson) (uuid new : UUID) (c : Copy) : Prop :=
  s.dbPath.lookup uuid = none ∨
  s.storageLimit.toUInt64 < s.storageSize + UInt64.ofNat (s.storedSize uuid) ∨
  match c with
  | .notOpened _ => True
  | .short n _ =>
    leftBy (s.storedSize new) (some ((s.copySource uuid new).take n)) = s.storedSize new
  | .ok => s.storedSize new = 0 ∧ s.storageTotal + s.storedSize uuid < 2 ^ 64

/-- A deletion whose `Poco::File::remove` works (or is about an empty or missing file). -/
def BalancedDelete (s : DbJson) (uuid : UUID) (removed : Bool) : Prop :=
  removed = true ∨ s.storedSize uuid = 0

/-- A promotion each of whose moves leaves the stored file of that name as long as it was. -/
def BalancedMove (s : DbJson) (v : List (UUID × Move)) : Prop :=
  ∀ e ∈ v, ∀ f ∈ s.cachePath.lookup e.1,
    leftBy (s.storedSize e.1) (e.2.file f.content) = s.storedSize e.1

/-- The calls whose adjustment of the counter is the right one. -/
def BalancedOp (s : DbJson) : Op → Prop
  | .saveData uuid data w => BalancedUpdate s uuid data w
  | .saveDataAsyncForRouter uuid data w => BalancedSave s uuid data w
  | .updateDataAsyncForRouter uuid data w => BalancedUpdate s uuid data w
  | .addInCache _ _ _ _ => True
  | .copyData uuid new c => BalancedCopy s uuid new c
  | .deleteUuids uuids => ∀ e ∈ uuids, BalancedDelete s e.1 e.2.2
  | .deleteData uuid _ _ removed => BalancedDelete s uuid removed
  | .deleteDataAsyncForRouter uuid _ removed => BalancedDelete s uuid removed
  | .deleteDataFromCache _ _ => True
  | .moveCacheToStorage listing => BalancedMove s (listing.getD [])
  | .cleanupCache _ _ => True

instance : DecidablePred Accounts := fun s =>
  inferInstanceAs (Decidable (s.storageSize.toNat = s.storageTotal))

instance (s : DbJson) (uuid : UUID) (data : Package) (w : Write) :
    Decidable (BalancedUpdate s uuid data w) := by
  unfold BalancedUpdate
  infer_instance

instance (s : DbJson) (uuid : UUID) (data : Package) (w : Write) :
    Decidable (BalancedSave s uuid data w) := by
  unfold BalancedSave
  infer_instance

instance (s : DbJson) (uuid new : UUID) (c : Copy) : Decidable (BalancedCopy s uuid new c) := by
  unfold BalancedCopy
  cases c <;> infer_instance

instance (s : DbJson) (uuid : UUID) (removed : Bool) : Decidable (BalancedDelete s uuid removed) :=
  inferInstanceAs (Decidable (_ ∨ _))

instance (s : DbJson) (v : List (UUID × Move)) : Decidable (BalancedMove s v) :=
  List.decidableBAll _ _

instance (s : DbJson) : ∀ op, Decidable (BalancedOp s op)
  | .saveData _ _ _ | .updateDataAsyncForRouter _ _ _ =>
    inferInstanceAs (Decidable (BalancedUpdate s _ _ _))
  | .saveDataAsyncForRouter _ _ _ => inferInstanceAs (Decidable (BalancedSave s _ _ _))
  | .copyData _ _ _ => inferInstanceAs (Decidable (BalancedCopy s _ _ _))
  | .deleteUuids _ => List.decidableBAll _ _
  | .deleteData _ _ _ _ | .deleteDataAsyncForRouter _ _ _ =>
    inferInstanceAs (Decidable (BalancedDelete s _ _))
  | .moveCacheToStorage listing =>
    inferInstanceAs (Decidable (BalancedMove s (listing.getD [])))
  | .addInCache _ _ _ _ | .deleteDataFromCache _ _ | .cleanupCache _ _ => .isTrue trivial

/-! ### The calls one by one -/

/-- Only the directory and its size matter. -/
theorem accounts_congr (hdir : t.dbPath = s.dbPath) (hsize : t.storageSize = s.storageSize)
    (h : Accounts s) : Accounts t := by
  rw [Accounts, hsize, storageTotal_congr hdir]
  exact h

/-- So the counter never goes below zero when a file goes. -/
theorem storedSize_le_counter (h : Accounts s) : s.storedSize u ≤ s.storageSize.toNat := by
  rw [h]
  exact storedSize_le_total s u

theorem toNat_reduceUuidSize (h : s.storedSize u ≤ s.storageSize.toNat) :
    (s.reduceUuidSize u).storageSize.toNat = s.storageSize.toNat - s.storedSize u :=
  Ledger.toNat_debit h

theorem accounts_create_reduced (h : Accounts s) (hb : BalancedUpdate s uuid data w) :
    Accounts ((s.reduceUuidSize uuid).create uuid data w).1 := by
  have hdebit := toNat_reduceUuidSize (storedSize_le_counter (u := uuid) h)
  have hstored : (s.reduceUuidSize uuid).storedSize uuid = s.storedSize uuid := rfl
  have htotal : (s.reduceUuidSize uuid).storageTotal = s.storageTotal := rfl
  have hle := storedSize_le_total s uuid
  rw [Accounts] at h
  rcases create_cases (s.reduceUuidSize uuid) uuid data w with
    ⟨hspace, heq⟩ | ⟨hspace, hfail, e, heq⟩ | ⟨hspace, hfail, heq⟩
  · have hzero : s.storedSize uuid = 0 := by simpa [BalancedUpdate, hspace] using hb
    rw [heq, Accounts]
    simp only
    omega
  · have hzero : leftBy (s.storedSize uuid) (w.file data) = 0 := by
      simpa [BalancedUpdate, hspace, hfail] using hb
    have hbal := storageTotal_store (s := s.reduceUuidSize uuid) (u := uuid) (w.file data)
    rw [heq, Accounts]
    simp only [store_storageSize]
    rw [hstored, htotal, hzero] at hbal
    omega
  · obtain ⟨hleft, hfits⟩ : leftBy (s.storedSize uuid) (w.file data) = data.size ∧
        s.storageTotal - s.storedSize uuid + data.size < 2 ^ 64 := by
      simpa [BalancedUpdate, hspace, hfail] using hb
    have hbal := storageTotal_store (s := s.reduceUuidSize uuid) (u := uuid) (w.file data)
    rw [hstored, htotal, hleft] at hbal
    rw [heq, Accounts]
    have hcredit := Ledger.toNat_credit (c := (s.reduceUuidSize uuid).storageSize)
      (n := data.size) (by omega)
    have hfinal : ({ (s.reduceUuidSize uuid).store uuid (w.file data) with
        storageSize := (s.reduceUuidSize uuid).storageSize + UInt64.ofNat data.size } :
          DbJson).storageTotal =
        ((s.reduceUuidSize uuid).store uuid (w.file data)).storageTotal := rfl
    rw [hfinal]
    simp only
    omega

/-- **A save** under a new uuid adds the size of the file. -/
theorem accounts_create (h : Accounts s) (hb : BalancedSave s uuid data w) :
    Accounts (s.create uuid data w).1 := by
  rw [Accounts] at h
  rcases create_cases s uuid data w with
    ⟨hspace, heq⟩ | ⟨hspace, hfail, e, heq⟩ | ⟨hspace, hfail, heq⟩
  · rw [heq]
    exact h
  · have hsame : leftBy (s.storedSize uuid) (w.file data) = s.storedSize uuid := by
      simpa [BalancedSave, hspace, hfail] using hb
    have hbal := storageTotal_store (s := s) (u := uuid) (w.file data)
    rw [heq, Accounts]
    simp only [store_storageSize]
    omega
  · obtain ⟨hzero, hleft, hfits⟩ : s.storedSize uuid = 0 ∧
        leftBy (s.storedSize uuid) (w.file data) = data.size ∧
          s.storageTotal + data.size < 2 ^ 64 := by
      simpa [BalancedSave, hspace, hfail] using hb
    have hbal := storageTotal_store (s := s) (u := uuid) (w.file data)
    have hcredit := Ledger.toNat_credit (c := s.storageSize) (n := data.size) (by omega)
    rw [heq, Accounts]
    have hfinal : ({ s.store uuid (w.file data) with
        storageSize := s.storageSize + UInt64.ofNat data.size } : DbJson).storageTotal =
        (s.store uuid (w.file data)).storageTotal := rfl
    rw [hfinal]
    simp only
    omega

/-- **A delete** takes the size off if the file is gone. -/
theorem accounts_deleteStored {removed : Bool} (h : Accounts s)
    (hb : BalancedDelete s uuid removed) : Accounts (s.deleteStored uuid removed).1 := by
  have hle := storedSize_le_counter (u := uuid) h
  rw [Accounts] at h
  unfold deleteStored
  cases hlook : s.dbPath.lookup uuid with
  | none => exact h
  | some c =>
    have hsize := storedSize_of_lookup hlook
    rw [hsize] at hle
    have hdebit := Ledger.toNat_debit hle
    dsimp only
    split_ifs with hremoved
    · have hbal := storageTotal_erase (s := s) (u := uuid)
      rw [Accounts, storageTotal]
      simp only
      omega
    · have hzero : s.storedSize uuid = 0 := hb.resolve_left hremoved
      have htotal : ({ s with storageSize := s.storageSize - UInt64.ofNat c.length } :
          DbJson).storageTotal = s.storageTotal := rfl
      rw [Accounts, htotal]
      simp only
      omega

theorem accounts_deleteUuid (cacheRemoved : Bool) {removed : Bool} (h : Accounts s)
    (hb : BalancedDelete s uuid removed) :
    Accounts (s.deleteUuid uuid cacheRemoved removed).1 := by
  obtain ⟨hdir, hsize, -⟩ := deleteUuidFromCache_frame (s := s) (u := uuid) cacheRemoved
  have hacc := accounts_congr hdir hsize h
  have hb' : BalancedDelete (s.deleteUuidFromCache uuid cacheRemoved).1 uuid removed := by
    rw [BalancedDelete, storedSize_congr hdir]
    exact hb
  unfold deleteUuid
  split
  · next heq => rw [heq] at hacc hb'; exact accounts_deleteStored hacc hb'
  · next heq => rw [heq] at hacc; exact hacc

/-- A deletion lengthens no stored file. -/
theorem storedSize_deleteUuid_le (uuid : UUID) (cacheRemoved removed : Bool) (v : UUID) :
    (s.deleteUuid uuid cacheRemoved removed).1.storedSize v ≤ s.storedSize v := by
  obtain ⟨hdir, -, -⟩ := deleteUuidFromCache_frame (s := s) (u := uuid) cacheRemoved
  have hstored : ∀ r : DbJson, (r.deleteStored uuid removed).1.storedSize v ≤ r.storedSize v := by
    intro r
    unfold deleteStored
    cases r.dbPath.lookup uuid with
    | none => exact le_rfl
    | some c =>
      dsimp only
      split_ifs
      · exact Ledger.weight_erase_le
      · exact le_rfl
  unfold deleteUuid
  split
  · next heq =>
    rw [heq] at hdir
    exact (hstored _).trans (storedSize_congr hdir).le
  · next heq =>
    rw [heq] at hdir
    exact (storedSize_congr hdir).le

theorem accounts_deleteUuids {uuids : List (UUID × Bool × Bool)} (h : Accounts s)
    (hb : ∀ e ∈ uuids, BalancedDelete s e.1 e.2.2) : Accounts (deleteUuids s uuids) := by
  induction uuids generalizing s with
  | nil => exact h
  | cons e st ih =>
    obtain ⟨uuid, cacheRemoved, removed⟩ := e
    have hhead : BalancedDelete s uuid removed := hb _ List.mem_cons_self
    have htail : ∀ e ∈ st, BalancedDelete s e.1 e.2.2 := fun e he =>
      hb e (List.mem_cons_of_mem _ he)
    unfold deleteUuids
    split_ifs
    · have hacc := accounts_deleteUuid cacheRemoved h hhead
      have hkeep : ∀ e ∈ st,
          BalancedDelete (s.deleteUuid uuid cacheRemoved removed).1 e.1 e.2.2 := by
        intro e he
        refine (htail e he).imp_right fun hzero => ?_
        exact Nat.le_zero.mp
          ((storedSize_deleteUuid_le uuid cacheRemoved removed e.1).trans hzero.le)
      split
      · next heq => rw [heq] at hacc hkeep; exact ih hacc hkeep
      · next heq => rw [heq] at hacc; exact hacc
    · exact ih h htail

theorem accounts_deleteData {cacheRemoved cacheRemoved' removed : Bool} (h : Accounts s)
    (hb : BalancedDelete s uuid removed) :
    Accounts (deleteData s uuid cacheRemoved cacheRemoved' removed).1 := by
  obtain ⟨hdir, hsize, -⟩ := deleteUuidFromCache_frame (s := s) (u := uuid) cacheRemoved
  have hacc := accounts_congr hdir hsize h
  have hb' : BalancedDelete (s.deleteUuidFromCache uuid cacheRemoved).1 uuid removed := by
    rw [BalancedDelete, storedSize_congr hdir]
    exact hb
  unfold deleteData
  split
  · next heq => rw [heq] at hacc; exact hacc
  · next heq =>
    rw [heq] at hacc hb'
    split_ifs
    · have hdel := accounts_deleteUuid cacheRemoved' hacc hb'
      split
      · next heq' => rw [heq'] at hdel; exact hdel
      · next heq' => rw [heq'] at hdel; exact hdel
    · exact hacc

/-- **A copy** adds the size of the object. -/
theorem accounts_copy {new : UUID} {c : Copy} (h : Accounts s)
    (hstored : (s.dbPath.lookup uuid).isSome) (hb : BalancedCopy s uuid new c) :
    Accounts (s.copy uuid new c).1 := by
  have hb := hb.resolve_left (Option.isSome_iff_ne_none.mp hstored)
  rw [Accounts] at h
  rcases copy_cases s uuid new c with
    ⟨hspace, heq⟩ | ⟨hspace, errno, -, heq⟩ | ⟨hspace, n, errno, rfl, heq⟩ | ⟨hspace, rfl, heq⟩
  · rw [heq]
    exact h
  · rw [heq]
    exact h
  · have hsame : leftBy (s.storedSize new) (some ((s.copySource uuid new).take n)) =
        s.storedSize new := hb.resolve_left hspace
    have hbal := storageTotal_store (s := s) (u := new) (some ((s.copySource uuid new).take n))
    rw [heq, Accounts]
    simp only [store_storageSize]
    omega
  · obtain ⟨hzero, hfits⟩ : s.storedSize new = 0 ∧ s.storageTotal + s.storedSize uuid < 2 ^ 64 :=
      hb.resolve_left hspace
    have hcredit := Ledger.toNat_credit (c := s.storageSize) (n := s.storedSize uuid) (by omega)
    have hbal := storageTotal_store (s := s) (u := new) (some (s.copySource uuid new))
    have hleft : leftBy (s.storedSize new) (some (s.copySource uuid new)) = s.storedSize uuid := by
      by_cases hself : uuid = new
      · rw [hself, hzero, copySource_self]
        rfl
      · exact length_copySource hself
    rw [hleft] at hbal
    rw [heq, Accounts]
    have hfinal : ({ s.store new (some (s.copySource uuid new)) with
        storageSize := s.storageSize + UInt64.ofNat (s.storedSize uuid) } : DbJson).storageTotal =
        (s.store new (some (s.copySource uuid new))).storageTotal := rfl
    rw [hfinal]
    simp only
    omega

/-- **A move out of the cache** adds the sizes of what was moved. -/
theorem accounts_moveLoop {v : List (UUID × Move)} (h : Accounts s) (hb : BalancedMove s v) :
    Accounts (s.moveLoop v).1 := by
  induction v generalizing s with
  | nil => exact h
  | cons e v ih =>
    obtain ⟨uuid, m⟩ := e
    have htail : BalancedMove s v := fun e he => hb e (List.mem_cons_of_mem _ he)
    suffices hmove : Accounts (s.moveFile uuid m).1 ∧ BalancedMove (s.moveFile uuid m).1 v from
      ih hmove.1 hmove.2
    unfold moveFile
    cases hlook : s.cachePath.lookup uuid with
    | none => exact ⟨h, htail⟩
    | some f =>
      have hsame : leftBy (s.storedSize uuid) (m.file f.content) = s.storedSize uuid :=
        hb _ List.mem_cons_self f hlook
      have hbal := storageTotal_store (s := s) (u := uuid) (m.file f.content)
      have hacc : Accounts (s.store uuid (m.file f.content)) := by
        rw [Accounts] at h ⊢
        rw [store_storageSize]
        omega
      have hsizes : ∀ x, (s.store uuid (m.file f.content)).storedSize x = s.storedSize x := by
        intro x
        rw [storedSize_store]
        split_ifs with hx
        · rw [hsame, hx]
        · rfl
      dsimp only
      split_ifs
      · refine ⟨accounts_congr rfl rfl hacc, fun e he g hg => ?_⟩
        have hg' : s.cachePath.lookup e.1 = some g := by
          rw [store_cachePath] at hg
          exact (Ledger.of_lookup_erase hg).2
        exact (congrArg₂ leftBy (hsizes e.1) rfl).trans ((htail e he g hg').trans (hsizes e.1).symm)
      · refine ⟨hacc, fun e he g hg => ?_⟩
        rw [store_cachePath] at hg
        exact (congrArg₂ leftBy (hsizes e.1) rfl).trans ((htail e he g hg).trans (hsizes e.1).symm)

/-! ### Runs -/

/-- One balanced call keeps the counter exact. -/
theorem accounts_perform {op : Op} (h : Accounts s) (hb : BalancedOp s op) :
    Accounts (perform s op).1 := by
  cases op with
  | saveData uuid data w =>
    have hcreate := accounts_create_reduced h hb
    simp only [perform, saveData]
    split <;> next heq => rw [heq] at hcreate; exact hcreate
  | saveDataAsyncForRouter uuid data w =>
    have hcreate := accounts_create h hb
    simp only [perform, saveDataAsyncForRouter]
    split <;> next heq => rw [heq] at hcreate; exact hcreate
  | updateDataAsyncForRouter uuid data w =>
    have hcreate := accounts_create_reduced h hb
    simp only [perform, updateDataAsyncForRouter]
    split <;> next heq => rw [heq] at hcreate; exact hcreate
  | addInCache uuid data w now =>
    exact accounts_congr (addInCache_dbPath now) (addInCache_storageSize now) h
  | copyData uuid new c =>
    simp only [perform, copyData]
    split_ifs with hfound
    · have hcopy := accounts_copy h hfound hb
      split <;> next heq => rw [heq] at hcopy; exact hcopy
    · exact h
  | deleteUuids uuids => exact accounts_deleteUuids h hb
  | deleteData uuid cacheRemoved cacheRemoved' removed => exact accounts_deleteData h hb
  | deleteDataAsyncForRouter uuid cacheRemoved removed =>
    exact accounts_deleteUuid cacheRemoved h hb
  | deleteDataFromCache uuid removed =>
    obtain ⟨hdir, hsize, -⟩ := deleteUuidFromCache_frame (s := s) (u := uuid) removed
    exact accounts_congr hdir hsize h
  | moveCacheToStorage listing =>
    have hmove := accounts_moveLoop h hb
    simp only [perform, moveCacheToStorage]
    cases listing with
    | none => exact accounts_congr rfl rfl h
    | some v => exact accounts_congr rfl rfl hmove
  | cleanupCache now v =>
    obtain ⟨hdir, hsize, -⟩ := cleanupLoop_frame (s := s) (now - s.cacheAge.toInt64) v
    exact accounts_congr hdir hsize h

/-- **The counter is exact along every run of balanced calls.** -/
theorem storageSize_eq_storageTotal (hopen : Accounts s) (hok : Run.Along step BalancedOp s ops)
    (hrun : Run.run step s ops = some t) : t.storageSize.toNat = t.storageTotal :=
  Run.invariant_of_run Accounts
    (fun s op t h hb hstep => by
      obtain rfl : (perform s op).1 = t := by simpa [step] using hstep
      exact accounts_perform h hb) hopen hok hrun

/-- A balanced run: a file is saved, updated, copied and deleted. -/
theorem storageSize_eq_storageTotal_of_four :
    let s := opened "" ∅ ∅ 0 0 60 100 1000
    let ops : List Op := [.saveData 1 ⟨[1, 2, 3], by decide⟩ .ok,
      .updateDataAsyncForRouter 1 ⟨[4, 5], by decide⟩ .ok, .copyData 1 2 .ok,
      .deleteUuids [(1, true, true)]]
    ∃ t, Run.run step s ops = some t ∧ t.storageSize.toNat = t.storageTotal := by
  intro s ops
  have hsome : (Run.run step s ops).isSome := by decide
  obtain ⟨t, hrun⟩ := Option.isSome_iff_exists.mp hsome
  exact ⟨t, hrun, storageSize_eq_storageTotal (by decide) (by decide) hrun⟩

/-- A file that arrives twice through the router is counted twice: `save_data_async_for_router`
does not debit the file it replaces. -/
theorem storageSize_ne_storageTotal : ¬ ∀ s t ops, Accounts s → Run.run step s ops = some t →
    t.storageSize.toNat = t.storageTotal := by
  intro h
  have hsave := h (opened "" ∅ ∅ 0 0 60 100 1000) _
    [.saveDataAsyncForRouter 1 ⟨[1, 2, 3], by decide⟩ .ok,
      .saveDataAsyncForRouter 1 ⟨[1, 2, 3], by decide⟩ .ok] rfl rfl
  exact absurd hsave (by decide)

end Storage

end Metax
