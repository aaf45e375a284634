import Metax.Storage.Accounting

/-!
# The quota of the storage directory

`create` and `copy` refuse a file when the counter plus its size exceeds `m_storage_limit`, so
the directory stays within the limit as long as the counter covers the directory. A counter
that is too large does no harm here; `CoveredOp` collects when a call keeps it large enough:
what a refused or failed call has debited must not have been needed, and a promotion from the
cache, which is not counted, must fit what the counter has to spare.

What has to fit the limit is the directory after the call, whether the call succeeds or breaks off:
a write that fails and a copy that is cut short leave a file that counts.
-/

namespace Metax

namespace Storage

open DbJson

variable {s t : DbJson} {uuid u : UUID} {data : Package} {w : Write} {ops : List Op}
  {limit : Int64}

/-- A limit is set, the directory is covered by the counter, and the counter is within the
limit. -/
structure Within (limit : Int64) (s : DbJson) : Prop where
  nonneg : 0 ≤ limit
  limit_eq : s.storageLimit = limit
  covered : s.storageTotal ≤ s.storageSize.toNat
  bounded : s.storageSize.toNat ≤ limit.toUInt64.toNat

/-- If `create` is refused the counter covers the directory, and if its write fails the
counter covers what the write leaves. -/
def CoveredCreate (s : DbJson) (uuid : UUID) (data : Package) (w : Write) : Prop :=
  if s.lacksSpace data then
    s.storageTotal ≤ s.storageSize.toNat
  else if w.fail data then
    s.storageTotal + leftBy (s.storedSize uuid) (w.file data) ≤
      s.storageSize.toNat + s.storedSize uuid
  else
    True

/-- If a copy breaks off the counter covers what it leaves. Nothing happens when the source is not
stored or there is no space. -/
def CoveredCopy (s : DbJson) (uuid new : UUID) : Copy → Prop
  | .short n _ =>
    s.dbPath.lookup uuid = none ∨
    s.storageLimit.toUInt64 < s.storageSize + UInt64.ofNat (s.storedSize uuid) ∨
      s.storageTotal + leftBy (s.storedSize new) (some ((s.copySource uuid new).take n)) ≤
        s.storageSize.toNat + s.storedSize new
  | _ => True

/-- A removal that works, or whose debit the counter has to spare. -/
def CoveredDelete (s : DbJson) (uuid : UUID) (removed : Bool) : Prop :=
  removed = true ∨ s.storageTotal + s.storedSize uuid ≤ s.storageSize.toNat

/-- By how much one promotion lengthens the stored file of that name. -/
def growth (s : DbJson) (e : UUID × Move) : ℕ :=
  (s.cachePath.lookup e.1).elim 0 fun f =>
    leftBy (s.storedSize e.1) (e.2.file f.content) - s.storedSize e.1

/-- A promotion whose growth the counter has to spare; a listing names no file twice. -/
def CoveredMove (s : DbJson) (v : List (UUID × Move)) : Prop :=
  (v.map Prod.fst).Nodup ∧ s.storageTotal + (v.map (growth s)).sum ≤ s.storageSize.toNat

/-- The calls after which the counter still covers the directory. -/
def CoveredOp (s : DbJson) : Op → Prop
  | .saveData uuid data w => CoveredCreate (s.reduceUuidSize uuid) uuid data w
  | .saveDataAsyncForRouter uuid data w => CoveredCreate s uuid data w
  | .updateDataAsyncForRouter uuid data w => CoveredCreate (s.reduceUuidSize uuid) uuid data w
  | .addInCache _ _ _ _ => True
  | .copyData uuid new c => CoveredCopy s uuid new c
  | .deleteUuids uuids => ∀ e ∈ uuids, CoveredDelete s e.1 e.2.2
  | .deleteData uuid _ _ removed => CoveredDelete s uuid removed
  | .deleteDataAsyncForRouter uuid _ removed => CoveredDelete s uuid removed
  | .deleteDataFromCache _ _ => True
  | .moveCacheToStorage listing => CoveredMove s (listing.getD [])
  | .cleanupCache _ _ => True

instance (s : DbJson) (uuid : UUID) (data : Package) (w : Write) :
    Decidable (CoveredCreate s uuid data w) := by
  unfold CoveredCreate
  infer_instance

instance (s : DbJson) (uuid new : UUID) : ∀ c, Decidable (CoveredCopy s uuid new c)
  | .short _ _ => inferInstanceAs (Decidable (_ ∨ _))
  | .ok | .notOpened _ => .isTrue trivial

instance (s : DbJson) (uuid : UUID) (removed : Bool) : Decidable (CoveredDelete s uuid removed) :=
  inferInstanceAs (Decidable (_ ∨ _))

instance (s : DbJson) (v : List (UUID × Move)) : Decidable (CoveredMove s v) :=
  inferInstanceAs (Decidable (_ ∧ _))

instance (s : DbJson) : ∀ op, Decidable (CoveredOp s op)
  | .saveData _ _ _ | .saveDataAsyncForRouter _ _ _ | .updateDataAsyncForRouter _ _ _ =>
    inferInstanceAs (Decidable (CoveredCreate _ _ _ _))
  | .copyData _ _ _ => inferInstanceAs (Decidable (CoveredCopy s _ _ _))
  | .deleteUuids _ => List.decidableBAll _ _
  | .deleteData _ _ _ _ | .deleteDataAsyncForRouter _ _ _ =>
    inferInstanceAs (Decidable (CoveredDelete s _ _))
  | .moveCacheToStorage listing => inferInstanceAs (Decidable (CoveredMove s (listing.getD [])))
  | .addInCache _ _ _ _ | .deleteDataFromCache _ _ | .cleanupCache _ _ => .isTrue trivial

/-! ### The calls one by one -/

/-- A limit that is set is below `2 ^ 63`. -/
theorem toNat_limit (h : 0 ≤ limit) :
    (limit.toUInt64.toNat : ℤ) = limit.toInt ∧ limit.toUInt64.toNat < 2 ^ 63 := by
  have hnat := Int64.toNat_toUInt64_of_le h
  have hlt := limit.toInt_lt
  have hnonneg : (0 : ℤ) ≤ limit.toInt := by simpa [Int64.le_iff_toInt_le] using h
  have hclamp : limit.toNatClampNeg = limit.toInt.toNat := rfl
  omega

/-- The invariant passes to a state whose counter has not grown and still covers. -/
theorem Within.of_le (h : Within limit s) (hlimit : t.storageLimit = s.storageLimit)
    (hcovered : t.storageTotal ≤ t.storageSize.toNat)
    (hle : t.storageSize.toNat ≤ s.storageSize.toNat) : Within limit t :=
  ⟨h.nonneg, hlimit.trans h.limit_eq, hcovered, hle.trans h.bounded⟩

theorem Within.congr (h : Within limit s) (hdir : t.dbPath = s.dbPath)
    (hsize : t.storageSize = s.storageSize) (hlimit : t.storageLimit = s.storageLimit) :
    Within limit t := by
  refine h.of_le hlimit ?_ (by rw [hsize])
  rw [hsize, storageTotal_congr hdir]
  exact h.covered

/-- **The counted write.** The room that the space check left is what the new total needs,
provided that the counter covers the directory without the file that is replaced. -/
theorem within_create (hnonneg : 0 ≤ limit) (hlimit : s.storageLimit = limit)
    (hcovered : s.storageTotal ≤ s.storageSize.toNat + s.storedSize uuid)
    (hbounded : s.storageSize.toNat ≤ limit.toUInt64.toNat)
    (hc : CoveredCreate s uuid data w) : Within limit (s.create uuid data w).1 := by
  have hlt := (toNat_limit hnonneg).2
  have hdata := data.size_lt_two_pow
  rcases create_cases s uuid data w with
    ⟨hspace, heq⟩ | ⟨hspace, hfail, e, heq⟩ | ⟨hspace, hfail, heq⟩
  · rw [heq]
    refine ⟨hnonneg, hlimit, ?_, hbounded⟩
    simpa [CoveredCreate, hspace] using hc
  · have hleft : s.storageTotal + leftBy (s.storedSize uuid) (w.file data) ≤
        s.storageSize.toNat + s.storedSize uuid := by
      simpa [CoveredCreate, hspace, hfail] using hc
    have hbal := storageTotal_store (s := s) (u := uuid) (w.file data)
    rw [heq]
    refine ⟨hnonneg, (store_storageLimit _).trans hlimit, ?_, ?_⟩
    · dsimp only
      rw [store_storageSize]
      omega
    · dsimp only
      rw [store_storageSize]
      exact hbounded
  · have hbal := storageTotal_store (s := s) (u := uuid) (w.file data)
    have hleft : leftBy (s.storedSize uuid) (w.file data) ≤ data.size :=
      Write.leftBy_le_of_not_fail hfail
    have hcredit := Ledger.toNat_credit (c := s.storageSize) (n := data.size) (by omega)
    have hroom : s.storageSize + UInt64.ofNat data.size ≤ limit.toUInt64 := by
      simpa [lacksSpace, hlimit, hnonneg] using hspace
    rw [heq]
    refine ⟨hnonneg, (store_storageLimit _).trans hlimit, ?_, UInt64.le_iff_toNat_le.mp hroom⟩
    change (s.store uuid (w.file data)).storageTotal ≤
      (s.storageSize + UInt64.ofNat data.size).toNat
    omega

/-- `reduce_uuid_size` takes off no more than the file that `create` is about to replace. -/
theorem within_create_reduced (h : Within limit s)
    (hc : CoveredCreate (s.reduceUuidSize uuid) uuid data w) :
    Within limit ((s.reduceUuidSize uuid).create uuid data w).1 := by
  have hstored : s.storedSize uuid ≤ s.storageSize.toNat :=
    (storedSize_le_total s uuid).trans h.covered
  have hdebit := toNat_reduceUuidSize hstored
  have hcovered := h.covered
  have hbounded := h.bounded
  refine within_create h.nonneg h.limit_eq ?_ ?_ hc
  · change s.storageTotal ≤ (s.reduceUuidSize uuid).storageSize.toNat + s.storedSize uuid
    omega
  · omega

theorem within_deleteStored {removed : Bool} (h : Within limit s)
    (hc : CoveredDelete s uuid removed) :
    Within limit (s.deleteStored uuid removed).1 := by
  have hcovered := h.covered
  have hle := (storedSize_le_total s uuid).trans h.covered
  rw [deleteStored]
  rcases hlook : s.dbPath.lookup uuid with _ | c
  · exact h
  have hsize := storedSize_of_lookup hlook
  have hdebit : (s.storageSize - UInt64.ofNat c.length).toNat = s.storageSize.toNat - c.length :=
    Ledger.toNat_debit (by omega)
  have hbal := storageTotal_erase (s := s) (u := uuid)
  rcases removed with _ | _
  · have hspare : s.storageTotal + s.storedSize uuid ≤ s.storageSize.toNat :=
      hc.resolve_left Bool.false_ne_true
    refine h.of_le rfl ?_ ?_
    · change s.storageTotal ≤ (s.storageSize - UInt64.ofNat c.length).toNat
      omega
    · change (s.storageSize - UInt64.ofNat c.length).toNat ≤ s.storageSize.toNat
      omega
  · refine h.of_le rfl ?_ ?_
    · change Ledger.total (fun _ c => c.length) (s.dbPath.erase uuid) ≤
        (s.storageSize - UInt64.ofNat c.length).toNat
      omega
    · change (s.storageSize - UInt64.ofNat c.length).toNat ≤ s.storageSize.toNat
      omega

/-- Removing from the cache is of no concern to the storage directory. -/
theorem within_deleteUuidFromCache (uuid : UUID) (removed : Bool) (h : Within limit s) :
    Within limit (s.deleteUuidFromCache uuid removed).1 := by
  obtain ⟨hdir, hsize, hlimit⟩ := deleteUuidFromCache_frame (s := s) (u := uuid) removed
  exact h.congr hdir hsize hlimit

theorem coveredDelete_deleteUuidFromCache (uuid : UUID) (cacheRemoved : Bool) {removed : Bool}
    (hc : CoveredDelete s u removed) :
    CoveredDelete (s.deleteUuidFromCache uuid cacheRemoved).1 u removed := by
  obtain ⟨hdir, hsize, -⟩ := deleteUuidFromCache_frame (s := s) (u := uuid) cacheRemoved
  rw [CoveredDelete, storageTotal_congr hdir, storedSize_congr hdir, hsize]
  exact hc

theorem within_deleteUuid (cacheRemoved : Bool) {removed : Bool} (h : Within limit s)
    (hc : CoveredDelete s uuid removed) :
    Within limit (s.deleteUuid uuid cacheRemoved removed).1 := by
  have hcache := within_deleteUuidFromCache uuid cacheRemoved h
  have hcov := coveredDelete_deleteUuidFromCache uuid cacheRemoved hc
  rw [deleteUuid]
  split
  · next heq => rw [heq] at hcache hcov; exact within_deleteStored hcache hcov
  · next heq => rw [heq] at hcache; exact hcache

/-- A deletion without an exception takes off the counter what it takes off the directory. -/
theorem deleteUuid_spare {cacheRemoved removed : Bool} (h : Within limit s)
    (heq : s.deleteUuid uuid cacheRemoved removed = (t, .ok ())) :
    t.storageTotal + s.storageSize.toNat = s.storageTotal + t.storageSize.toNat := by
  obtain ⟨hdir, hsize, -⟩ := deleteUuidFromCache_frame (s := s) (u := uuid) cacheRemoved
  have hle := (storedSize_le_total s uuid).trans h.covered
  rw [deleteUuid] at heq
  split at heq
  · next r hr =>
    rw [hr] at hdir hsize
    have htotal := storageTotal_congr hdir
    have hstored := storedSize_congr (u := uuid) hdir
    dsimp only at hdir hsize htotal hstored
    rw [← hsize, ← htotal]
    rw [deleteStored] at heq
    rcases hlook : r.dbPath.lookup uuid with _ | c
    · rw [hlook] at heq
      obtain rfl := congrArg Prod.fst heq
      rfl
    rw [hlook] at heq
    have hc := storedSize_of_lookup hlook
    rcases removed with _ | _
    · exact absurd (congrArg Prod.snd heq) (by simp)
    · obtain rfl := congrArg Prod.fst heq
      have hbal := storageTotal_erase (s := r) (u := uuid)
      have hdebit : (r.storageSize - UInt64.ofNat c.length).toNat =
          r.storageSize.toNat - c.length := Ledger.toNat_debit (by rw [hsize]; omega)
      change Ledger.total (fun _ c => c.length) (r.dbPath.erase uuid) + r.storageSize.toNat =
        r.storageTotal + (r.storageSize - UInt64.ofNat c.length).toNat
      rw [hsize] at hdebit ⊢
      omega
  · exact absurd (congrArg Prod.snd heq) (by simp)

theorem within_deleteUuids {uuids : List (UUID × Bool × Bool)} (h : Within limit s)
    (hc : ∀ e ∈ uuids, CoveredDelete s e.1 e.2.2) : Within limit (deleteUuids s uuids) := by
  induction uuids generalizing s with
  | nil => exact h
  | cons e st ih =>
    obtain ⟨uuid, cacheRemoved, removed⟩ := e
    have hhead : CoveredDelete s uuid removed := hc _ List.mem_cons_self
    have htail : ∀ e ∈ st, CoveredDelete s e.1 e.2.2 := fun e he =>
      hc e (List.mem_cons_of_mem _ he)
    rw [deleteUuids]
    split_ifs
    · have hdel := within_deleteUuid cacheRemoved h hhead
      split
      · next r heq =>
        rw [heq] at hdel
        refine ih hdel fun e he => (htail e he).imp_right fun hspare => ?_
        -- what the counter has to spare is what it was, and no file has grown
        have hsame := deleteUuid_spare h heq
        have hshrunk : r.storedSize e.1 ≤ s.storedSize e.1 := by
          have hle := storedSize_deleteUuid_le (s := s) uuid cacheRemoved removed e.1
          rwa [heq] at hle
        omega
      · next heq => rw [heq] at hdel; exact hdel
    · exact ih h htail

theorem within_deleteData {cacheRemoved cacheRemoved' removed : Bool} (h : Within limit s)
    (hc : CoveredDelete s uuid removed) :
    Within limit (deleteData s uuid cacheRemoved cacheRemoved' removed).1 := by
  have hcache := within_deleteUuidFromCache uuid cacheRemoved h
  have hcov := coveredDelete_deleteUuidFromCache uuid cacheRemoved hc
  rw [deleteData]
  split
  · next heq => rw [heq] at hcache; exact hcache
  · next heq =>
    rw [heq] at hcache hcov
    split_ifs
    · have hdel := within_deleteUuid cacheRemoved' hcache hcov
      split
      · next heq' => rw [heq'] at hdel; exact hdel
      · next heq' => rw [heq'] at hdel; exact hdel
    · exact hcache

theorem within_copy {new : UUID} {c : Copy} (h : Within limit s)
    (hfound : (s.dbPath.lookup uuid).isSome) (hc : CoveredCopy s uuid new c) :
    Within limit (s.copy uuid new c).1 := by
  have hcovered := h.covered
  have hbounded := h.bounded
  have hlt := (toNat_limit h.nonneg).2
  have hstored := storedSize_le_total s uuid
  rcases copy_cases s uuid new c with
    ⟨hspace, heq⟩ | ⟨hspace, errno, -, heq⟩ | ⟨hspace, n, errno, rfl, heq⟩ | ⟨hspace, rfl, heq⟩
  · rw [heq]
    exact h
  · rw [heq]
    exact h
  · have hleft : s.storageTotal +
        leftBy (s.storedSize new) (some ((s.copySource uuid new).take n)) ≤
          s.storageSize.toNat + s.storedSize new :=
      (hc.resolve_left (Option.isSome_iff_ne_none.mp hfound)).resolve_left hspace
    have hbal := storageTotal_store (s := s) (u := new) (some ((s.copySource uuid new).take n))
    rw [heq]
    refine h.of_le (store_storageLimit _) ?_ ?_
    · dsimp only
      rw [store_storageSize]
      omega
    · dsimp only
      rw [store_storageSize]
  · have hcredit := Ledger.toNat_credit (c := s.storageSize) (n := s.storedSize uuid) (by omega)
    have hbal := storageTotal_store (s := s) (u := new) (some (s.copySource uuid new))
    have hleft : leftBy (s.storedSize new) (some (s.copySource uuid new)) ≤ s.storedSize uuid := by
      by_cases hself : uuid = new
      · rw [hself, copySource_self]
        exact Nat.zero_le _
      · exact (length_copySource hself).le
    rw [heq]
    refine ⟨h.nonneg, h.limit_eq, ?_, ?_⟩
    · change (s.store new (some (s.copySource uuid new))).storageTotal ≤
        (s.storageSize + UInt64.ofNat (s.storedSize uuid)).toNat
      omega
    · rw [← h.limit_eq]
      exact UInt64.le_iff_toNat_le.mp (UInt64.not_lt.mp hspace)

/-- One promotion: the directory grows by `growth` at most, and the growth of the promotions
of other files is what it was. -/
theorem moveFile_growth (uuid : UUID) (m : Move) :
    (s.moveFile uuid m).1.storageTotal ≤ s.storageTotal + growth s (uuid, m) ∧
      ∀ e, e.1 ≠ uuid → growth (s.moveFile uuid m).1 e = growth s e := by
  rw [moveFile]
  rcases hlook : s.cachePath.lookup uuid with _ | f
  · exact ⟨Nat.le_add_right _ _, fun e _ => rfl⟩
  have hbal := storageTotal_store (s := s) (u := uuid) (m.file f.content)
  have hgrowth : growth s (uuid, m) =
      leftBy (s.storedSize uuid) (m.file f.content) - s.storedSize uuid := by
    simp only [growth, hlook, Option.elim]
  have htotal : (s.store uuid (m.file f.content)).storageTotal ≤
      s.storageTotal + growth s (uuid, m) := by omega
  have hother : ∀ e : UUID × Move, e.1 ≠ uuid →
      (s.store uuid (m.file f.content)).storedSize e.1 = s.storedSize e.1 := by
    intro e he
    rw [storedSize_store, if_neg he]
  dsimp only
  split_ifs
  · refine ⟨htotal, fun e he => ?_⟩
    have hstored : ({ s.store uuid (m.file f.content) with
        cachePath := (s.store uuid (m.file f.content)).cachePath.erase uuid } :
          DbJson).storedSize e.1 = s.storedSize e.1 := hother e he
    rw [growth, growth, hstored]
    simp only [store_cachePath, AList.lookup_erase_ne he]
  · refine ⟨htotal, fun e he => ?_⟩
    rw [growth, growth, hother e he, store_cachePath]

theorem within_moveLoop {v : List (UUID × Move)} (h : Within limit s) (hc : CoveredMove s v) :
    Within limit (s.moveLoop v).1 := by
  induction v generalizing s with
  | nil => exact h
  | cons e v ih =>
    obtain ⟨uuid, m⟩ := e
    obtain ⟨hnodup, hfits⟩ := hc
    obtain ⟨hfresh, hnodup⟩ : uuid ∉ v.map Prod.fst ∧ (v.map Prod.fst).Nodup := by
      simpa only [List.map_cons, List.nodup_cons] using hnodup
    rw [List.map_cons, List.sum_cons] at hfits
    obtain ⟨htotal, hother⟩ := moveFile_growth (s := s) uuid m
    obtain ⟨hsize, hlimit, -⟩ := moveFile_frame (s := s) (u := uuid) m
    have hsum : v.map (growth (s.moveFile uuid m).1) = v.map (growth s) := by
      refine List.map_congr_left fun e he => hother e ?_
      rintro rfl
      exact hfresh (List.mem_map_of_mem he)
    have hmove : Within limit (s.moveFile uuid m).1 := by
      refine h.of_le hlimit ?_ (by rw [hsize])
      rw [hsize]
      omega
    have hrest : CoveredMove (s.moveFile uuid m).1 v := by
      refine ⟨hnodup, ?_⟩
      rw [hsum, hsize]
      omega
    exact ih hmove hrest

/-! ### Runs -/

/-- One covered call keeps the counter above the directory and within the limit. -/
theorem within_perform {op : Op} (h : Within limit s) (hc : CoveredOp s op) :
    Within limit (perform s op).1 := by
  cases op with
  | saveData uuid data w =>
    have hcreate := within_create_reduced h hc
    simp only [perform, saveData]
    split <;> next heq => rw [heq] at hcreate; exact hcreate
  | saveDataAsyncForRouter uuid data w =>
    have hcreate :=
      within_create h.nonneg h.limit_eq (Nat.le_add_right_of_le h.covered) h.bounded hc
    simp only [perform, saveDataAsyncForRouter]
    split <;> next heq => rw [heq] at hcreate; exact hcreate
  | updateDataAsyncForRouter uuid data w =>
    have hcreate := within_create_reduced h hc
    simp only [perform, updateDataAsyncForRouter]
    split <;> next heq => rw [heq] at hcreate; exact hcreate
  | addInCache uuid data w now =>
    exact h.congr (addInCache_dbPath now) (addInCache_storageSize now)
      (addInCache_storageLimit now)
  | copyData uuid new c =>
    simp only [perform, copyData]
    split_ifs with hfound
    · have hcopy := within_copy h hfound hc
      split <;> next heq => rw [heq] at hcopy; exact hcopy
    · exact h
  | deleteUuids uuids => exact within_deleteUuids h hc
  | deleteData uuid cacheRemoved cacheRemoved' removed => exact within_deleteData h hc
  | deleteDataAsyncForRouter uuid cacheRemoved removed => exact within_deleteUuid cacheRemoved h hc
  | deleteDataFromCache uuid removed => exact within_deleteUuidFromCache uuid removed h
  | moveCacheToStorage listing =>
    rcases listing with _ | v
    · exact h.congr rfl rfl rfl
    · exact (within_moveLoop h hc).congr rfl rfl rfl
  | cleanupCache now v =>
    obtain ⟨hdir, hsize, hlimit⟩ :=
      cleanupLoop_frame (s := s) (now - s.cacheAge.toInt64) v
    exact h.congr hdir hsize hlimit

/-- **The directory stays within the limit along every run of covered calls.** -/
theorem storageTotal_le_storageLimit (hlimit : 0 ≤ s.storageLimit) (hopen : Accounts s)
    (hwithin : (s.storageTotal : ℤ) ≤ s.storageLimit.toInt)
    (hok : Run.Along step CoveredOp s ops) (hrun : Run.run step s ops = some t) :
    (t.storageTotal : ℤ) ≤ s.storageLimit.toInt := by
  have hnat := (toNat_limit hlimit).1
  have hinit : Within s.storageLimit s := ⟨hlimit, rfl, hopen.ge, by rw [hopen]; omega⟩
  have hfinal : Within s.storageLimit t :=
    Run.invariant_of_run (Within s.storageLimit)
      (fun r op r' h hc hstep => by
        obtain rfl : (perform r op).1 = r' := by simpa [step] using hstep
        exact within_perform h hc) hinit hok hrun
  have hcovered := hfinal.covered
  have hbounded := hfinal.bounded
  omega

/-- A covered run under a limit of eight bytes: a save, an update that is refused without a
file to debit, a promotion over a file of the same size, and a copy. -/
theorem storageTotal_le_storageLimit_of_five :
    let s := opened "" ∅ ∅ 0 0 60 100 8
    let ops : List Op := [.saveData 1 ⟨[1, 2, 3], by decide⟩ .ok,
      .updateDataAsyncForRouter 2 ⟨[1, 2, 3, 4, 5, 6], by decide⟩ .ok,
      .addInCache 1 ⟨[4, 5, 6], by decide⟩ .ok 10, .moveCacheToStorage (some [(1, .ok)]),
      .copyData 1 2 .ok]
    ∃ t, Run.run step s ops = some t ∧ (t.storageTotal : ℤ) ≤ 8 := by
  intro s ops
  obtain ⟨t, hrun⟩ : ∃ t, Run.run step s ops = some t := ⟨_, rfl⟩
  exact ⟨t, hrun, storageTotal_le_storageLimit (by decide) (by decide) (by decide) (by decide) hrun⟩

/-- Under a limit of four bytes, a save that is refused has already debited the three bytes
it would have replaced; four more bytes are then let in. -/
theorem storageTotal_gt_storageLimit : ¬ ∀ s t ops, 0 ≤ s.storageLimit → Accounts s →
    (s.storageTotal : ℤ) ≤ s.storageLimit.toInt → Run.run step s ops = some t →
    (t.storageTotal : ℤ) ≤ s.storageLimit.toInt := by
  intro h
  have hfull := h (opened "" ∅ ∅ 0 0 60 100 4) _
    [.saveData 1 ⟨[1, 2, 3], by decide⟩ .ok, .saveData 1 ⟨[1, 2, 3, 4, 5], by decide⟩ .ok,
      .saveData 2 ⟨[1, 2, 3, 4], by decide⟩ .ok] (by decide) (by decide) (by decide) rfl
  exact absurd hfull (by decide)

end Storage

end Metax
