import Metax.Platform.DbJsonSizes
import Metax.Storage.Task

/-!
# Reading what was written

A call that succeeds has written its content only if the file system took all of it when the stream
was closed: `create` asks whether the stream has failed before it closes the stream.

`get` prefers the cache directory, and no save or update touches it: whoever writes a new
version of an object drops the cached one by a call of its own (`delete_from_cache`, posted by
the kernel when it confirms an update, when an update arrives through the router, and by the
backup task). So a write is read back as long as no copy of that uuid was cached when it was
made, whatever is done to other uuids, to the cache as a whole or to the directory meanwhile.
-/

namespace Metax

namespace Storage

open DbJson

variable {s t : DbJson} {uuid u : UUID} {data : Package} {w : Write} {op : Op} {ops : List Op}
  {c : Bytes}

/-- The call names the uuid `u`, as what it writes, reads or removes. -/
def Addresses (u : UUID) : Op → Prop
  | .saveData uuid _ _ => uuid = u
  | .saveDataAsyncForRouter uuid _ _ => uuid = u
  | .updateDataAsyncForRouter uuid _ _ => uuid = u
  | .addInCache uuid _ _ _ => uuid = u
  | .copyData uuid new _ => uuid = u ∨ new = u
  | .deleteUuids uuids => u ∈ uuids.map Prod.fst
  | .deleteData uuid _ _ _ => uuid = u
  | .deleteDataAsyncForRouter uuid _ _ => uuid = u
  | .deleteDataFromCache uuid _ => uuid = u
  | .moveCacheToStorage _ => False
  | .cleanupCache _ _ => False

/-- In state `s` the call is a save or an update of `u`, it succeeds, and all of the content `c` has
reached the file. -/
def Writes (s : DbJson) (u : UUID) (c : Bytes) : Op → Prop
  | .saveData uuid data w =>
    uuid = u ∧ data.message = c ∧ w.Whole data ∧
      (perform s (.saveData uuid data w)).2 = some .saveConfirm
  | .saveDataAsyncForRouter uuid data w =>
    uuid = u ∧ data.message = c ∧ w.Whole data ∧
      (perform s (.saveDataAsyncForRouter uuid data w)).2 = some .saveConfirm
  | .updateDataAsyncForRouter uuid data w =>
    uuid = u ∧ data.message = c ∧ w.Whole data ∧
      (perform s (.updateDataAsyncForRouter uuid data w)).2 = some .updated
  | _ => False

instance (u : UUID) : DecidablePred (Addresses u)
  | .saveData _ _ _ | .saveDataAsyncForRouter _ _ _ | .updateDataAsyncForRouter _ _ _
  | .addInCache _ _ _ _ | .deleteData _ _ _ _ | .deleteDataAsyncForRouter _ _ _
  | .deleteDataFromCache _ _ => inferInstanceAs (Decidable (_ = _))
  | .copyData _ _ _ => inferInstanceAs (Decidable (_ ∨ _))
  | .deleteUuids _ => inferInstanceAs (Decidable (_ ∈ _))
  | .moveCacheToStorage _ | .cleanupCache _ _ => .isFalse id

instance (s : DbJson) (u : UUID) (c : Bytes) : DecidablePred (Writes s u c)
  | .saveData _ _ _ | .saveDataAsyncForRouter _ _ _ | .updateDataAsyncForRouter _ _ _ =>
    inferInstanceAs (Decidable (_ ∧ _))
  | .addInCache _ _ _ _ | .deleteData _ _ _ _ | .deleteDataAsyncForRouter _ _ _
  | .deleteDataFromCache _ _ | .copyData _ _ _ | .deleteUuids _ | .moveCacheToStorage _
  | .cleanupCache _ _ => .isFalse id

/-- The object `u` is stored with content `c`, short enough to be read back whole, and no
copy of it is cached. -/
structure Holds (u : UUID) (c : Bytes) (s : DbJson) : Prop where
  stored : s.dbPath.lookup u = some c
  uncached : s.cachePath.lookup u = none
  length_lt : c.length < 2 ^ 31

/-- A stored object is read back. -/
theorem Holds.get_eq (h : Holds u c s) : s.get u = .ok c := by
  have hmod : c.length % 2 ^ 32 = c.length := Nat.mod_eq_of_lt (by have := h.length_lt; omega)
  have hread : readFile c = .ok c := by
    simp only [readFile, hmod, if_pos h.length_lt, List.take_length]
  rw [DbJson.get, h.uncached, h.stored]
  exact hread

/-- What the calls do to the files of a uuid they do not address: neither file changes. -/
structure Untouched (u : UUID) (s t : DbJson) : Prop where
  stored : t.dbPath.lookup u = s.dbPath.lookup u
  cached : t.cachePath.lookup u = s.cachePath.lookup u

theorem Untouched.refl (u : UUID) (s : DbJson) : Untouched u s s := ⟨rfl, rfl⟩

theorem Untouched.trans {r : DbJson} (h : Untouched u s r) (h' : Untouched u r t) :
    Untouched u s t :=
  ⟨h'.stored.trans h.stored, h'.cached.trans h.cached⟩

theorem Holds.of_untouched (h : Holds u c s) (hu : Untouched u s t) : Holds u c t :=
  ⟨hu.stored.trans h.stored, hu.cached.trans h.uncached, h.length_lt⟩

/-! ### The calls one by one -/

theorem untouched_store (hne : uuid ≠ u) (file : Option Bytes) :
    Untouched u s (s.store uuid file) := by
  refine ⟨?_, by rw [store_cachePath]⟩
  rcases file with _ | file
  · rfl
  · exact AList.lookup_insert_ne hne.symm

theorem untouched_create (data : Package) (w : Write) (hne : uuid ≠ u) :
    Untouched u s (s.create uuid data w).1 := by
  rcases create_cases s uuid data w with ⟨-, heq⟩ | ⟨-, -, e, heq⟩ | ⟨-, -, heq⟩
  · rw [heq]
    exact .refl u s
  · rw [heq]
    exact untouched_store hne _
  · rw [heq]
    exact ⟨(untouched_store hne _).stored, (untouched_store hne _).cached⟩

theorem untouched_addInCache (hne : uuid ≠ u) (now : Int64) :
    Untouched u s (s.addInCache uuid data w now) := by
  refine ⟨by rw [addInCache_dbPath], ?_⟩
  rw [addInCache_cachePath]
  rcases w.file data with _ | file
  · rfl
  · exact AList.lookup_insert_ne hne.symm

theorem untouched_deleteUuidFromCache (hne : uuid ≠ u) (removed : Bool) :
    Untouched u s (s.deleteUuidFromCache uuid removed).1 := by
  rw [deleteUuidFromCache]
  rcases s.cachePath.lookup uuid with _ | f
  · exact .refl u s
  rcases removed with _ | _
  · exact ⟨rfl, rfl⟩
  · exact ⟨rfl, AList.lookup_erase_ne hne.symm⟩

theorem untouched_deleteStored (hne : uuid ≠ u) (removed : Bool) :
    Untouched u s (s.deleteStored uuid removed).1 := by
  rw [deleteStored]
  rcases s.dbPath.lookup uuid with _ | file
  · exact .refl u s
  rcases removed with _ | _
  · exact ⟨rfl, rfl⟩
  · exact ⟨AList.lookup_erase_ne hne.symm, rfl⟩

theorem untouched_deleteUuid (hne : uuid ≠ u) (cacheRemoved removed : Bool) :
    Untouched u s (s.deleteUuid uuid cacheRemoved removed).1 := by
  have hcache := untouched_deleteUuidFromCache (s := s) hne cacheRemoved
  rw [deleteUuid]
  split
  · next heq =>
    rw [heq] at hcache
    exact hcache.trans (untouched_deleteStored hne removed)
  · next heq =>
    rw [heq] at hcache
    exact hcache

theorem untouched_deleteUuids {uuids : List (UUID × Bool × Bool)}
    (hne : u ∉ uuids.map Prod.fst) : Untouched u s (deleteUuids s uuids) := by
  induction uuids generalizing s with
  | nil => exact .refl u s
  | cons e st ih =>
    obtain ⟨uuid, cacheRemoved, removed⟩ := e
    obtain ⟨hhead, htail⟩ : u ≠ uuid ∧ u ∉ st.map Prod.fst := by
      simpa only [List.map_cons, List.mem_cons, not_or] using hne
    rw [deleteUuids]
    split_ifs
    · have hdel := untouched_deleteUuid (s := s) hhead.symm cacheRemoved removed
      split
      · next heq =>
        rw [heq] at hdel
        exact hdel.trans (ih htail)
      · next heq =>
        rw [heq] at hdel
        exact hdel
    · exact ih htail

theorem untouched_deleteData (hne : uuid ≠ u) (cacheRemoved cacheRemoved' removed : Bool) :
    Untouched u s (deleteData s uuid cacheRemoved cacheRemoved' removed).1 := by
  have hcache := untouched_deleteUuidFromCache (s := s) hne cacheRemoved
  rw [deleteData]
  split
  · next heq =>
    rw [heq] at hcache
    exact hcache
  · next r heq =>
    rw [heq] at hcache
    refine hcache.trans ?_
    split_ifs
    · have hdel := untouched_deleteUuid (s := r) hne cacheRemoved' removed
      split <;> next heq' => rw [heq'] at hdel; exact hdel
    · exact .refl u r

theorem untouched_copy (uuid : UUID) {new : UUID} (hne : new ≠ u) (d : Copy) :
    Untouched u s (s.copy uuid new d).1 := by
  rcases copy_cases s uuid new d with
    ⟨-, heq⟩ | ⟨-, errno, -, heq⟩ | ⟨-, n, errno, -, heq⟩ | ⟨-, -, heq⟩
  · rw [heq]
    exact .refl u s
  · rw [heq]
    exact .refl u s
  · rw [heq]
    exact untouched_store hne (some _)
  · rw [heq]
    have hstore := untouched_store (s := s) hne (some (s.copySource uuid new))
    exact ⟨hstore.stored, hstore.cached⟩

/-- Cleaning up the cache changes no stored file and caches nothing new. -/
theorem holds_cleanupLoop {old : Int64} {v : List (UUID × Bool)} (h : Holds u c s) :
    Holds u c (s.cleanupLoop old v) := by
  induction v generalizing s with
  | nil => exact h
  | cons e v ih =>
    obtain ⟨uuid, removed⟩ := e
    rw [cleanupLoop]
    rcases s.cachePath.lookup uuid with _ | f
    · exact h
    dsimp only
    split_ifs
    · refine ih ⟨h.stored, ?_, h.length_lt⟩
      rw [Ledger.lookup_erase_ite, h.uncached, ite_self]
    · exact ⟨h.stored, h.uncached, h.length_lt⟩
    · exact h

/-- A promotion moves cached files only, so that an object which is not cached stays. -/
theorem holds_moveLoop {v : List (UUID × Move)} (h : Holds u c s) :
    Holds u c (s.moveLoop v).1 := by
  induction v generalizing s with
  | nil => exact h
  | cons e v ih =>
    obtain ⟨uuid, m⟩ := e
    suffices hmove : Holds u c (s.moveFile uuid m).1 from ih hmove
    rw [moveFile]
    rcases hlook : s.cachePath.lookup uuid with _ | f
    · exact h
    have hne : uuid ≠ u := by
      rintro rfl
      exact Option.some_ne_none f (hlook.symm.trans h.uncached)
    have hstore := h.of_untouched (untouched_store hne (m.file f.content))
    dsimp only
    split_ifs
    · refine ⟨hstore.stored, ?_, h.length_lt⟩
      rw [Ledger.lookup_erase_ite, hstore.uncached, ite_self]
    · exact hstore

/-! ### Runs -/

/-- A call that does not address the object keeps it. -/
theorem holds_perform (h : Holds u c s) (hne : ¬ Addresses u op) :
    Holds u c (perform s op).1 := by
  cases op with
  | saveData uuid data w =>
    have hcreate := untouched_create (s := s.reduceUuidSize uuid) data w hne
    have hkeep := h.of_untouched (t := s.reduceUuidSize uuid) ⟨rfl, rfl⟩ |>.of_untouched hcreate
    simp only [perform, saveData]
    split <;> next heq => rw [heq] at hkeep; exact hkeep
  | saveDataAsyncForRouter uuid data w =>
    have hkeep := h.of_untouched (untouched_create data w hne)
    simp only [perform, saveDataAsyncForRouter]
    split <;> next heq => rw [heq] at hkeep; exact hkeep
  | updateDataAsyncForRouter uuid data w =>
    have hcreate := untouched_create (s := s.reduceUuidSize uuid) data w hne
    have hkeep := h.of_untouched (t := s.reduceUuidSize uuid) ⟨rfl, rfl⟩ |>.of_untouched hcreate
    simp only [perform, updateDataAsyncForRouter]
    split <;> next heq => rw [heq] at hkeep; exact hkeep
  | addInCache uuid data w now => exact h.of_untouched (untouched_addInCache hne now)
  | copyData uuid new d =>
    obtain ⟨-, hnew⟩ : uuid ≠ u ∧ new ≠ u := not_or.mp hne
    have hkeep := h.of_untouched (untouched_copy uuid hnew d)
    simp only [perform, copyData]
    split_ifs
    · split <;> next heq => rw [heq] at hkeep; exact hkeep
    · exact h
  | deleteUuids uuids => exact h.of_untouched (untouched_deleteUuids hne)
  | deleteData uuid cacheRemoved cacheRemoved' removed =>
    exact h.of_untouched (untouched_deleteData hne cacheRemoved cacheRemoved' removed)
  | deleteDataAsyncForRouter uuid cacheRemoved removed =>
    exact h.of_untouched (untouched_deleteUuid hne cacheRemoved removed)
  | deleteDataFromCache uuid removed =>
    exact h.of_untouched (untouched_deleteUuidFromCache hne removed)
  | moveCacheToStorage listing =>
    rcases listing with _ | v
    · exact ⟨h.stored, h.uncached, h.length_lt⟩
    · have hmove := holds_moveLoop (v := v) h
      exact ⟨hmove.stored, hmove.uncached, hmove.length_lt⟩
  | cleanupCache now v => exact holds_cleanupLoop h

/-- A `create` that does not throw and whose content reaches the file has put it in place. -/
theorem holds_create {r : DbJson} (hwhole : w.Whole data)
    (huncached : s.cachePath.lookup uuid = none)
    (heq : s.create uuid data w = (r, .ok ())) : Holds uuid data.message r := by
  rcases create_cases s uuid data w with ⟨-, h⟩ | ⟨-, -, e, h⟩ | ⟨-, hfail, h⟩
  · exact absurd (congrArg Prod.snd (h.symm.trans heq)) (by simp)
  · exact absurd (congrArg Prod.snd (h.symm.trans heq)) (by simp)
  · obtain rfl := congrArg Prod.fst (h.symm.trans heq)
    rw [hwhole]
    exact ⟨AList.lookup_insert _, huncached, Write.size_lt_of_not_fail hfail⟩

/-- A successful write puts the object in place, if no copy of it is cached. -/
theorem holds_of_writes (huncached : s.cachePath.lookup u = none) (hw : Writes s u c op) :
    Holds u c (perform s op).1 := by
  cases op with
  | saveData uuid data w =>
    obtain ⟨rfl, rfl, hwhole, hcmd⟩ := hw
    simp only [perform, saveData] at hcmd ⊢
    split at hcmd
    · next heq => exact holds_create (s := s.reduceUuidSize uuid) hwhole huncached heq
    · next e heq =>
      simp only [Command.ofExn, Option.some.injEq] at hcmd
      split_ifs at hcmd
  | saveDataAsyncForRouter uuid data w =>
    obtain ⟨rfl, rfl, hwhole, hcmd⟩ := hw
    simp only [perform, saveDataAsyncForRouter] at hcmd ⊢
    split at hcmd
    · next heq => exact holds_create hwhole huncached heq
    · exact absurd hcmd (by simp)
  | updateDataAsyncForRouter uuid data w =>
    obtain ⟨rfl, rfl, hwhole, hcmd⟩ := hw
    simp only [perform, updateDataAsyncForRouter] at hcmd ⊢
    split at hcmd
    · next heq => exact holds_create (s := s.reduceUuidSize uuid) hwhole huncached heq
    · exact absurd hcmd (by simp)
  | _ => exact hw.elim

/-- **Read your writes.** After a successful save or update of `u` whose content `c` has reached the
file, made while no copy of `u` was cached, a get of `u` returns exactly `c` until a call addresses
`u`. -/
theorem get_eq_of_writes (hw : Writes s u c op) (huncached : s.cachePath.lookup u = none)
    (hops : ∀ op' ∈ ops, ¬ Addresses u op') (hrun : Run.run step s (op :: ops) = some t) :
    t.get u = .ok c := by
  obtain ⟨r, hr, hrest⟩ := Run.run_cons_eq_some.mp hrun
  obtain rfl : (perform s op).1 = r := by simpa [step] using hr
  have halong : Run.Along step (fun _ op' => ¬ Addresses u op') (perform s op).1 ops :=
    Run.along_of_forall hops
  have hfinal : Holds u c t :=
    Run.invariant_of_run (Holds u c)
      (fun r op' r' h hne hstep => by
        obtain rfl : (perform r op').1 = r' := by simpa [step] using hstep
        exact holds_perform h hne) (holds_of_writes huncached hw) halong hrest
  exact hfinal.get_eq

/-- An update read back after another uuid was saved, cached, promoted and cleaned up. -/
theorem get_eq_of_writes_one :
    let s := opened "" ∅ ∅ 0 0 60 100 1000
    let ops : List Op := [.saveData 2 ⟨[7], by decide⟩ .ok, .addInCache 3 ⟨[8], by decide⟩ .ok 10,
      .moveCacheToStorage (some [(3, .ok)]), .cleanupCache 20 []]
    ∃ t, Run.run step s (.updateDataAsyncForRouter 1 ⟨[1, 2, 3], by decide⟩ .ok :: ops) = some t ∧
      t.get 1 = .ok [1, 2, 3] := by
  intro s ops
  have hrun : Run.run step s (.updateDataAsyncForRouter 1 ⟨[1, 2, 3], by decide⟩ .ok :: ops) =
    some _ := rfl
  exact ⟨_, hrun, get_eq_of_writes (by decide) (by decide) (by decide) hrun⟩

/-- A copy that was cached before the update is what a get returns after it. -/
theorem get_ne_of_writes : ¬ ∀ s t op ops u c, Writes s u c op →
    (∀ op' ∈ ops, ¬ Addresses u op') → Run.run step s (op :: ops) = some t → t.get u = .ok c := by
  intro h
  have hstale := h ((opened "" ∅ ∅ 0 0 60 100 1000).addInCache 1 ⟨[1], by decide⟩ .ok 10) _
    (.updateDataAsyncForRouter 1 ⟨[2], by decide⟩ .ok) [] 1 [2] (by decide) (by decide) rfl
  exact absurd hstale (by decide)

end Storage

end Metax
