import Metax.Platform.DbJsonSizes
import Metax.Storage.Task

/-!
# The counter of the cache directory

`m_cache_size` is documented as the actual used cache size in bytes. `add_in_cache` adds the
size of what it was asked to write, without looking at the file it replaces or at the outcome
of the write; a removal is debited before it is made; a promotion to the storage directory
resets the counter whether or not the files went away.

As for the storage directory, `BalancedCacheOp` collects when the adjustment is the right one
and the counter is exact along every run of such calls.
-/

namespace Metax

namespace Storage

open DbJson

variable {s t : DbJson} {uuid u : UUID} {data : Package} {w : Write} {ops : List Op}

/-- The counter equals the sum of the sizes of the cached files. -/
def CacheAccounts (s : DbJson) : Prop := s.cacheSize.toNat = s.cacheTotal

/-- An insertion that makes the directory grow by the size of the data: the uuid is not cached
(or its file is empty) and the whole of the data reaches the disk. -/
def BalancedInsert (s : DbJson) (uuid : UUID) (data : Package) (w : Write) : Prop :=
  leftBy (s.cachedSize uuid) (w.file data) = s.cachedSize uuid + data.size ∧
    s.cacheTotal + data.size < 2 ^ 64

/-- A removal that works, or is about an empty or missing file. -/
def BalancedEvict (s : DbJson) (uuid : UUID) (removed : Bool) : Prop :=
  removed = true ∨ s.cachedSize uuid = 0

/-- A promotion that takes every byte out of the cache directory: each file which is not
empty is listed and moves. -/
def BalancedPromotion (s : DbJson) (listing : Option (List (UUID × Move))) : Prop :=
  ∀ k ∈ s.cachePath.keys, s.cachedSize k = 0 ∨ (k, Move.ok) ∈ listing.getD []

/-- The calls whose adjustment of the counter is the right one. -/
def BalancedCacheOp (s : DbJson) : Op → Prop
  | .addInCache uuid data w _ => BalancedInsert s uuid data w
  | .deleteUuids uuids => ∀ e ∈ uuids, BalancedEvict s e.1 e.2.1
  | .deleteData uuid cacheRemoved _ _ => BalancedEvict s uuid cacheRemoved
  | .deleteDataAsyncForRouter uuid cacheRemoved _ => BalancedEvict s uuid cacheRemoved
  | .deleteDataFromCache uuid removed => BalancedEvict s uuid removed
  | .moveCacheToStorage listing => BalancedPromotion s listing
  | .cleanupCache _ v => ∀ e ∈ v, BalancedEvict s e.1 e.2
  | _ => True

instance : DecidablePred CacheAccounts := fun s =>
  inferInstanceAs (Decidable (s.cacheSize.toNat = s.cacheTotal))

instance (s : DbJson) (uuid : UUID) (data : Package) (w : Write) :
    Decidable (BalancedInsert s uuid data w) :=
  inferInstanceAs (Decidable (_ ∧ _))

instance (s : DbJson) (uuid : UUID) (removed : Bool) : Decidable (BalancedEvict s uuid removed) :=
  inferInstanceAs (Decidable (_ ∨ _))

instance (s : DbJson) (listing : Option (List (UUID × Move))) :
    Decidable (BalancedPromotion s listing) :=
  List.decidableBAll _ _

instance (s : DbJson) : ∀ op, Decidable (BalancedCacheOp s op)
  | .addInCache _ _ _ _ => inferInstanceAs (Decidable (BalancedInsert s _ _ _))
  | .deleteUuids _ => List.decidableBAll _ _
  | .deleteData _ _ _ _ | .deleteDataAsyncForRouter _ _ _ | .deleteDataFromCache _ _ =>
    inferInstanceAs (Decidable (BalancedEvict s _ _))
  | .moveCacheToStorage listing => inferInstanceAs (Decidable (BalancedPromotion s listing))
  | .cleanupCache _ _ => List.decidableBAll _ _
  | .saveData _ _ _ | .saveDataAsyncForRouter _ _ _ | .updateDataAsyncForRouter _ _ _
  | .copyData _ _ _ => .isTrue trivial

/-! ### The calls one by one -/

theorem cacheAccounts_congr (hdir : t.cachePath = s.cachePath) (hsize : t.cacheSize = s.cacheSize)
    (h : CacheAccounts s) : CacheAccounts t := by
  rw [CacheAccounts, hsize, cacheTotal_congr hdir]
  exact h

theorem cacheAccounts_create (uuid : UUID) (data : Package) (w : Write) (h : CacheAccounts s) :
    CacheAccounts (s.create uuid data w).1 := by
  obtain ⟨hdir, hsize, -⟩ := create_frame s uuid data w
  exact cacheAccounts_congr hdir hsize h

theorem cacheAccounts_addInCache (now : Int64) (h : CacheAccounts s)
    (hb : BalancedInsert s uuid data w) : CacheAccounts (s.addInCache uuid data w now) := by
  obtain ⟨hgrown, hfits⟩ := hb
  rw [CacheAccounts] at h ⊢
  have hbal := cacheTotal_addInCache s uuid data w now
  have hsize : (s.addInCache uuid data w now).cacheSize =
      s.cacheSize + UInt64.ofNat data.size := by
    rw [addInCache]
    rcases w.file data with _ | c <;> rfl
  rw [hsize, Ledger.toNat_credit (by omega)]
  omega

theorem cacheAccounts_deleteUuidFromCache {removed : Bool} (h : CacheAccounts s)
    (hb : BalancedEvict s uuid removed) : CacheAccounts (s.deleteUuidFromCache uuid removed).1 := by
  rw [CacheAccounts] at h
  have hle := cachedSize_le_total s uuid
  rw [deleteUuidFromCache]
  rcases hlook : s.cachePath.lookup uuid with _ | f
  · exact h
  have hcached := cachedSize_of_lookup hlook
  have hdebit : (s.cacheSize - UInt64.ofNat f.content.length).toNat =
      s.cacheSize.toNat - f.content.length := Ledger.toNat_debit (by omega)
  rcases hb with rfl | hzero
  · have hbal := cacheTotal_erase (s := s) (u := uuid)
    simp only [if_true, CacheAccounts, cacheTotal]
    omega
  · rcases removed with _ | _
    · change (s.cacheSize - UInt64.ofNat f.content.length).toNat = s.cacheTotal
      omega
    · have hbal := cacheTotal_erase (s := s) (u := uuid)
      simp only [if_true, CacheAccounts, cacheTotal]
      omega

/-- A removal keeps the balance of the removals still to come. -/
theorem balancedEvict_deleteUuidFromCache {removed removed' : Bool}
    (hb : BalancedEvict s u removed') :
    BalancedEvict (s.deleteUuidFromCache uuid removed).1 u removed' := by
  refine hb.imp_right fun hzero => ?_
  exact Nat.le_zero.mp ((cachedSize_deleteUuidFromCache_le removed u).trans hzero.le)

/-- To the cache, `delete_uuid` is `delete_uuid_from_cache`. -/
theorem deleteUuid_cache (s : DbJson) (uuid : UUID) (cacheRemoved removed : Bool) :
    (s.deleteUuid uuid cacheRemoved removed).1.cachePath =
        (s.deleteUuidFromCache uuid cacheRemoved).1.cachePath ∧
      (s.deleteUuid uuid cacheRemoved removed).1.cacheSize =
        (s.deleteUuidFromCache uuid cacheRemoved).1.cacheSize := by
  rw [deleteUuid]
  split
  · next r heq =>
    obtain ⟨hdir, hsize, -⟩ := deleteStored_frame (s := r) (u := uuid) removed
    rw [heq]
    exact ⟨hdir, hsize⟩
  · next heq =>
    rw [heq]
    exact ⟨rfl, rfl⟩

theorem cacheAccounts_deleteUuid (cacheRemoved : Bool) (removed : Bool) (h : CacheAccounts s)
    (hb : BalancedEvict s uuid cacheRemoved) :
    CacheAccounts (s.deleteUuid uuid cacheRemoved removed).1 := by
  obtain ⟨hdir, hsize⟩ := deleteUuid_cache s uuid cacheRemoved removed
  exact cacheAccounts_congr hdir hsize (cacheAccounts_deleteUuidFromCache h hb)

theorem cacheAccounts_deleteUuids {uuids : List (UUID × Bool × Bool)} (h : CacheAccounts s)
    (hb : ∀ e ∈ uuids, BalancedEvict s e.1 e.2.1) : CacheAccounts (deleteUuids s uuids) := by
  induction uuids generalizing s with
  | nil => exact h
  | cons e st ih =>
    obtain ⟨uuid, cacheRemoved, removed⟩ := e
    have hhead : BalancedEvict s uuid cacheRemoved := hb _ List.mem_cons_self
    have htail : ∀ e ∈ st, BalancedEvict s e.1 e.2.1 := fun e he =>
      hb e (List.mem_cons_of_mem _ he)
    rw [deleteUuids]
    split_ifs
    · have hacc := cacheAccounts_deleteUuid cacheRemoved removed h hhead
      have hkeep : ∀ e ∈ st,
          BalancedEvict (s.deleteUuid uuid cacheRemoved removed).1 e.1 e.2.1 := by
        intro e he
        obtain ⟨hdir, -⟩ := deleteUuid_cache s uuid cacheRemoved removed
        have hcached := cachedSize_congr (u := e.1) hdir
        rw [BalancedEvict, hcached]
        exact balancedEvict_deleteUuidFromCache (htail e he)
      split
      · next heq => rw [heq] at hacc hkeep; exact ih hacc hkeep
      · next heq => rw [heq] at hacc; exact hacc
    · exact ih h htail

/-- A removal without an exception leaves nothing in the cache. -/
theorem cachedSize_deleteUuidFromCache_of_ok {removed : Bool}
    (heq : s.deleteUuidFromCache uuid removed = (t, .ok ())) : t.cachedSize uuid = 0 := by
  rw [deleteUuidFromCache] at heq
  rcases hlook : s.cachePath.lookup uuid with _ | f
  · rw [hlook] at heq
    obtain rfl : s = t := by simpa using heq
    exact cachedSize_of_notMem hlook
  · rw [hlook] at heq
    rcases removed with _ | _
    · simp at heq
    · obtain rfl := congrArg Prod.fst heq
      exact Ledger.weight_erase

theorem cacheAccounts_deleteData {cacheRemoved : Bool} (cacheRemoved' removed : Bool)
    (h : CacheAccounts s) (hb : BalancedEvict s uuid cacheRemoved) :
    CacheAccounts (deleteData s uuid cacheRemoved cacheRemoved' removed).1 := by
  have hacc := cacheAccounts_deleteUuidFromCache h hb
  rw [deleteData]
  split
  · next heq =>
    rw [heq] at hacc
    exact hacc
  · next heq =>
    rw [heq] at hacc
    have hgone := cachedSize_deleteUuidFromCache_of_ok heq
    split_ifs
    · have hdel := cacheAccounts_deleteUuid cacheRemoved' removed hacc (.inr hgone)
      split
      · next heq' => rw [heq'] at hdel; exact hdel
      · next heq' => rw [heq'] at hdel; exact hdel
    · exact hacc

theorem cacheAccounts_cleanupLoop {old : Int64} {v : List (UUID × Bool)} (h : CacheAccounts s)
    (hb : ∀ e ∈ v, BalancedEvict s e.1 e.2) : CacheAccounts (s.cleanupLoop old v) := by
  induction v generalizing s with
  | nil => exact h
  | cons e v ih =>
    obtain ⟨uuid, removed⟩ := e
    have hhead : BalancedEvict s uuid removed := hb _ List.mem_cons_self
    have htail : ∀ e ∈ v, BalancedEvict s e.1 e.2 := fun e he => hb e (List.mem_cons_of_mem _ he)
    have hacc := cacheAccounts_deleteUuidFromCache h hhead
    have hkeep : ∀ e ∈ v, BalancedEvict (s.deleteUuidFromCache uuid removed).1 e.1 e.2 :=
      fun e he => balancedEvict_deleteUuidFromCache (htail e he)
    rw [deleteUuidFromCache] at hacc hkeep
    rw [cleanupLoop]
    rcases hlook : s.cachePath.lookup uuid with _ | f
    · exact h
    rw [hlook] at hacc hkeep
    dsimp only at hacc hkeep ⊢
    split_ifs with hevict hremoved
    · rw [if_pos hremoved] at hacc hkeep
      exact ih hacc hkeep
    · rw [if_neg hremoved] at hacc
      exact hacc
    · exact h

/-- What a promotion leaves of a cached file: all of it or nothing, and nothing if some move
of it went well. -/
theorem cachedSize_moveLoop (v : List (UUID × Move)) (x : UUID) :
    (s.moveLoop v).1.cachedSize x ≤ s.cachedSize x ∧
      ((x, Move.ok) ∈ v → (s.moveLoop v).1.cachedSize x = 0) := by
  induction v generalizing s with
  | nil => exact ⟨le_rfl, fun hmem => absurd hmem List.not_mem_nil⟩
  | cons e v ih =>
    obtain ⟨uuid, m⟩ := e
    have hmove : (s.moveFile uuid m).1.cachedSize x ≤ s.cachedSize x ∧
        (x = uuid → m = .ok → (s.moveFile uuid m).1.cachedSize x = 0) := by
      rw [moveFile]
      rcases hlook : s.cachePath.lookup uuid with _ | f
      · exact ⟨le_rfl, fun hx _ => cachedSize_of_notMem (hx ▸ hlook)⟩
      · dsimp only
        split_ifs with hok
        · rw [cachedSize, store_cachePath]
          exact ⟨Ledger.weight_erase_le, fun hx _ => hx ▸ Ledger.weight_erase⟩
        · rw [cachedSize, store_cachePath]
          exact ⟨le_rfl, fun _ hm => absurd hm hok⟩
    obtain ⟨hrest, hgone⟩ := ih (s := (s.moveFile uuid m).1)
    refine ⟨hrest.trans hmove.1, fun hmem => ?_⟩
    rcases List.mem_cons.mp hmem with hhead | htail
    · obtain ⟨rfl, rfl⟩ : x = uuid ∧ Move.ok = m := by simpa using hhead
      exact Nat.le_zero.mp (hrest.trans (hmove.2 rfl rfl).le)
    · exact hgone htail

theorem cacheAccounts_moveCacheToStorage {listing : Option (List (UUID × Move))}
    (hb : BalancedPromotion s listing) : CacheAccounts (s.moveCacheToStorage listing).1 := by
  have hzero : ∀ x, (s.moveCacheToStorage listing).1.cachedSize x = 0 := by
    intro x
    have hx : s.cachedSize x = 0 ∨ (x, Move.ok) ∈ listing.getD [] := by
      by_cases hkey : x ∈ s.cachePath.keys
      · exact hb x hkey
      · exact .inl (cachedSize_of_notMem (AList.lookup_eq_none.mpr hkey))
    rcases listing with _ | v
    · exact hx.resolve_right List.not_mem_nil
    · obtain ⟨hle, hgone⟩ := cachedSize_moveLoop (s := s) v x
      exact hx.elim (fun hempty => Nat.le_zero.mp (hle.trans hempty.le)) hgone
  rw [CacheAccounts, cacheTotal_eq_zero hzero]
  rfl

/-! ### Runs -/

/-- One balanced call keeps the counter exact. -/
theorem cacheAccounts_perform {op : Op} (h : CacheAccounts s) (hb : BalancedCacheOp s op) :
    CacheAccounts (perform s op).1 := by
  cases op with
  | saveData uuid data w =>
    have hcreate := cacheAccounts_create (s := s.reduceUuidSize uuid) uuid data w h
    simp only [perform, saveData]
    split <;> next heq => rw [heq] at hcreate; exact hcreate
  | saveDataAsyncForRouter uuid data w =>
    have hcreate := cacheAccounts_create uuid data w h
    simp only [perform, saveDataAsyncForRouter]
    split <;> next heq => rw [heq] at hcreate; exact hcreate
  | updateDataAsyncForRouter uuid data w =>
    have hcreate := cacheAccounts_create (s := s.reduceUuidSize uuid) uuid data w h
    simp only [perform, updateDataAsyncForRouter]
    split <;> next heq => rw [heq] at hcreate; exact hcreate
  | addInCache uuid data w now => exact cacheAccounts_addInCache now h hb
  | copyData uuid new c =>
    obtain ⟨hdir, hsize, -⟩ := copy_frame (s := s) (u := uuid) new c
    have hcopy := cacheAccounts_congr hdir hsize h
    simp only [perform, copyData]
    split_ifs
    · split <;> next heq => rw [heq] at hcopy; exact hcopy
    · exact h
  | deleteUuids uuids => exact cacheAccounts_deleteUuids h hb
  | deleteData uuid cacheRemoved cacheRemoved' removed =>
    exact cacheAccounts_deleteData cacheRemoved' removed h hb
  | deleteDataAsyncForRouter uuid cacheRemoved removed =>
    exact cacheAccounts_deleteUuid cacheRemoved removed h hb
  | deleteDataFromCache uuid removed => exact cacheAccounts_deleteUuidFromCache h hb
  | moveCacheToStorage listing => exact cacheAccounts_moveCacheToStorage hb
  | cleanupCache now v => exact cacheAccounts_cleanupLoop h hb

/-- **The counter of the cache is exact along every run of balanced calls.** -/
theorem cacheSize_eq_cacheTotal (hopen : CacheAccounts s)
    (hok : Run.Along step BalancedCacheOp s ops) (hrun : Run.run step s ops = some t) :
    t.cacheSize.toNat = t.cacheTotal :=
  Run.invariant_of_run CacheAccounts
    (fun s op t h hb hstep => by
      obtain rfl : (perform s op).1 = t := by simpa [step] using hstep
      exact cacheAccounts_perform h hb) hopen hok hrun

/-- A balanced run: two files are cached, one is cleaned up, one is promoted. -/
theorem cacheSize_eq_cacheTotal_of_four :
    let s := opened "" ∅ ∅ 0 0 0 4 1000
    let ops : List Op := [.addInCache 1 ⟨[1, 2, 3], by decide⟩ .ok 10,
      .addInCache 2 ⟨[4, 5], by decide⟩ .ok 20, .cleanupCache 30 [(1, true), (2, true)],
      .moveCacheToStorage (some [(2, .ok)])]
    ∃ t, Run.run step s ops = some t ∧ t.cacheSize.toNat = t.cacheTotal := by
  intro s ops
  have hsome : (Run.run step s ops).isSome := by decide
  obtain ⟨t, hrun⟩ := Option.isSome_iff_exists.mp hsome
  exact ⟨t, hrun, cacheSize_eq_cacheTotal (by decide) (by decide) hrun⟩

/-- A file that is cached twice is counted twice: `add_in_cache` does not debit the file it
replaces. -/
theorem cacheSize_ne_cacheTotal : ¬ ∀ s t ops, CacheAccounts s → Run.run step s ops = some t →
    t.cacheSize.toNat = t.cacheTotal := by
  intro h
  have htwice := h (opened "" ∅ ∅ 0 0 60 100 1000) _
    [.addInCache 1 ⟨[1, 2, 3], by decide⟩ .ok 10, .addInCache 1 ⟨[1, 2, 3], by decide⟩ .ok 20]
    rfl rfl
  exact absurd htwice (by decide)

end Storage

end Metax
