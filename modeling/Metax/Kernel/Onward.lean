import Metax.Kernel.FlowStart

/-!
# How a save goes on

Between a new copy and a failure a save only goes on: units are made for it, and units that have
a copy may go. `Onward rid k₀ k` says that this is all that has happened to the request `rid`.
Every event is of this kind for every request, but for the confirmation of one of its units and
the failure of one of its units that has no copy.

It is what a save that fails later has in common with one that will be confirmed, and is used for
saves that fail (`Metax.Kernel.FailedSave`).
-/

namespace Metax

open Ledger (Table)

/-- The entries that tell of a copy or of the failure of a save. -/
def Entry.tells : Entry → Bool
  | copied _ _ _ | failedUnit _ _ | respond _ _ (.saveFail _) => true
  | _ => false

namespace Kernel

/-- From `k₀` to `k` the save `rid` has only gone on. -/
structure Onward (rid : ID32) (k₀ k : Kernel) : Prop where
  unitsFresh : k.UnitsFresh
  counter : k₀.requestCounter ≤ k.requestCounter
  unit : ∀ id u', k.saveUnits.lookup id = some u' → u'.mainRequest = rid →
    (∃ u, k₀.saveUnits.lookup id = some u ∧ u.Like u') ∨
      k₀.requestCounter ≤ id ∧ u'.bkpCount = 0
  gone : ∀ id < k₀.requestCounter, k₀.saveUnits.lookup id = none → k.saveUnits.lookup id = none
  waiting : ∀ id u, Uncopied k₀.saveUnits rid id u →
    ∃ u', k.saveUnits.lookup id = some u' ∧ u.Like u'
  saved : rid < k₀.requestCounter → ∀ r', k.requests.lookup rid = some r' →
    ∃ r, k₀.requests.lookup rid = some r ∧ r.savedUnits ⊆ r'.savedUnits
  log : ∃ es, k.log = es ++ k₀.log ∧ ∀ e ∈ es, e.tells = true → e.owner ≠ rid

variable {codec : Codec} {cfg : KernelCfg} {k₀ k k' m : Kernel} {x : Ending}
  {rid rid' uid id : ID32} {r r' : Request} {u u' : SaveUnit} {e : Entry} {p : UUID}
  {names : List (Option UUID)}

/-- A neutral entry tells of no copy and of no failure. -/
theorem tells_of_neutral (h : e.neutral = true) : e.tells = false := by
  rcases e with _ | _ | _ | _ | _ | _ | _ | _ | _ <;> first | rfl | exact Bool.noConfusion h

/-! ### Going on, move by move -/

namespace Onward

/-- To do nothing is to go on. -/
theorem refl (hunits : k.UnitsFresh) : Onward rid k k where
  unitsFresh := hunits
  counter := le_rfl
  unit _ u' hu _ := .inl ⟨u', hu, .refl u'⟩
  gone _ _ h := h
  waiting _ u hu := ⟨u, hu.lookup, .refl u⟩
  saved _ r' hr := ⟨r', hr, fun _ hp => hp⟩
  log := ⟨[], rfl, fun _ he => absurd he List.not_mem_nil⟩

/-- A step that is a frame for the request takes the save on. -/
theorem frame (h : Onward rid k₀ k) (hf : Frame rid k k') (hunits : k'.UnitsFresh) :
    Onward rid k₀ k' where
  unitsFresh := hunits
  counter := h.counter.trans hf.counter
  unit id u' hu hmain := by
    obtain ⟨v, hv, hlike⟩ := hf.unit id u' hu hmain
    rcases h.unit id v hv (hlike.mainRequest ▸ hmain) with ⟨u, hu, hlike'⟩ | ⟨hnew, hzero⟩
    · exact .inl ⟨u, hu, hlike'.trans hlike⟩
    · exact .inr ⟨hnew, hlike.bkpCount.trans hzero⟩
  gone id hid hnone := by
    rcases hlook : k'.saveUnits.lookup id with _ | u'
    · rfl
    · obtain ⟨v, hv, -⟩ := hf.main id u' hlook (hid.trans_le h.counter)
      exact absurd (hv.symm.trans (h.gone id hid hnone)) (Option.some_ne_none v)
  waiting id u hu := by
    obtain ⟨v, hv, hlike⟩ := h.waiting id u hu
    obtain ⟨u', hu', hlike'⟩ := hf.waiting id v (hu.like hv hlike)
    exact ⟨u', hu', hlike.trans hlike'⟩
  saved hid r' hr' := by
    obtain ⟨s, hs, hlike⟩ := hf.request r' hr'
    obtain ⟨r, hr, hsub⟩ := h.saved hid s hs
    exact ⟨r, hr, hlike.savedUnits ▸ hsub⟩
  log := by
    obtain ⟨es, hes, htells⟩ := h.log
    obtain ⟨fs, hfs, hall⟩ := hf.log
    refine ⟨fs ++ es, by rw [hfs, hes, List.append_assoc], fun e he htell => ?_⟩
    rcases List.mem_append.mp he with he | he
    · rcases hall e he with hneutral | hother
      · exact absurd htell (Bool.eq_false_iff.mp (tells_of_neutral hneutral))
      · exact hother
    · exact htells e he htell

/-- So is every neutral step. -/
theorem neutral (h : Onward rid k₀ k) (hn : Neutral k k') : Onward rid k₀ k' :=
  h.frame (hn.frame rid) (hn.unitsFresh h.unitsFresh)

/-- An entry may be written if it tells nothing of this request. -/
theorem write (h : Onward rid k₀ k) (htell : e.tells = true → e.owner ≠ rid) :
    Onward rid k₀ (k.write e) :=
  { h with
    log := by
      obtain ⟨es, hes, hall⟩ := h.log
      exact ⟨e :: es, congrArg _ hes, List.forall_mem_cons.mpr ⟨htell, hall⟩⟩ }

/-- The record is written back with no saved unit less. -/
theorem setRequest (h : Onward rid k₀ k)
    (hr : rid < k₀.requestCounter →
      ∃ r₀, k₀.requests.lookup rid = some r₀ ∧ r₀.savedUnits ⊆ r.savedUnits) :
    Onward rid k₀ (k.setRequest rid r) :=
  { h with
    saved := by
      intro hid r' hr'
      rw [Kernel.setRequest, AList.lookup_insert] at hr'
      obtain rfl := Option.some.inj hr'
      exact hr hid }

/-- The request is written back with the same saved units. -/
theorem setRequest_of_lookup (h : Onward rid k₀ k) (hr : k.requests.lookup rid = some r)
    (hsub : r.savedUnits ⊆ r'.savedUnits) : Onward rid k₀ (k.setRequest rid r') := by
  refine h.setRequest fun hid => ?_
  obtain ⟨r₀, hr₀, hsub₀⟩ := h.saved hid r hr
  exact ⟨r₀, hr₀, fun _ hp => hsub (hsub₀ hp)⟩

/-- A unit is made: it is new and has no copy. -/
theorem prepareUnit {b s : ℕ} {t : UnitType} {uuid : UUID} {c : Bytes} {backup : Bool}
    (h : Onward rid k₀ k) (hr : k.requests.lookup rid = some r) :
    Onward rid k₀ (k.prepareUnitForSave rid r b s t uuid c backup) := by
  have hset : Onward rid k₀ (k.setRequest rid { r with
      units := k.requestCounter :: r.units
      backupUnits := if t = .piece then k.requestCounter :: r.backupUnits else r.backupUnits }) :=
    h.setRequest_of_lookup hr fun _ hp => hp
  have hne : ∀ id v, k.saveUnits.lookup id = some v → id ≠ k.requestCounter :=
    fun id v hv => (h.unitsFresh id v hv).ne
  refine ⟨fun id v hv => ?_, h.counter.trans (Nat.le_succ _), fun id v hv hmain => ?_,
    fun id hid hnone => ?_, fun id v hv => ?_, hset.saved, h.log⟩ <;>
    simp only [prepareUnitForSave, Kernel.setRequest, Kernel.setUnit] at *
  · by_cases hid : id = k.requestCounter
    · exact hid ▸ Nat.lt_succ_self _
    · rw [AList.lookup_insert_ne hid] at hv
      exact (h.unitsFresh id v hv).trans (Nat.lt_succ_self _)
  · by_cases hid : id = k.requestCounter
    · subst hid
      rw [AList.lookup_insert] at hv
      obtain rfl := Option.some.inj hv
      exact .inr ⟨h.counter, rfl⟩
    · rw [AList.lookup_insert_ne hid] at hv
      exact h.unit id v hv hmain
  · have hlt : id ≠ k.requestCounter := (hid.trans_le h.counter).ne
    rw [AList.lookup_insert_ne hlt]
    exact h.gone id hid hnone
  · obtain ⟨v', hv', hlike⟩ := h.waiting id v hv
    exact ⟨v', by rw [AList.lookup_insert_ne (hne id v' hv')]; exact hv', hlike⟩

/-- A piece of the old object is deleted. -/
theorem handlePieceDelete (h : Onward rid k₀ k) (p : UUID) :
    Onward rid k₀ (k.handlePieceDelete rid p) :=
  { h.write (e := .delete rid k.requestCounter p) Bool.noConfusion with
    unitsFresh := fun id v hv => (h.unitsFresh id v hv).trans (Nat.lt_succ_self _)
    counter := h.counter.trans (Nat.le_succ _) }

/-- The IMS is answered, but not with a failure. -/
theorem respond {resp : Response} (h : Onward rid k₀ k) (hresp : k.respond rid resp = some k')
    (htell : ∀ err, resp ≠ .saveFail err) : Onward rid k₀ k' := by
  obtain ⟨i, -, hk'⟩ := Option.bind_eq_some_iff.mp hresp
  obtain rfl := Option.some.inj hk'
  have hwrite : Onward rid k₀ (k.write (.respond rid i resp)) := by
    refine h.write fun he => ?_
    rcases resp with _ | _ | err | _
    · exact Bool.noConfusion he
    · exact Bool.noConfusion he
    · exact absurd rfl (htell err)
    · exact Bool.noConfusion he
  exact { hwrite with }

/-- A request that is over may be forgotten. -/
theorem forget (h : Onward rid k₀ k) : Onward rid k₀ (k.forget rid) := { h with }

end Onward

/-! ### Going on, handler by handler -/

/-- The handlers of a save, up to its confirmation: the master object gets its unit. -/
theorem onward_saveMasterObject {pkg : Bytes} (h : Onward rid k₀ k)
    (hk : saveMasterObject cfg k rid pkg = some k') : Onward rid k₀ k' := by
  obtain ⟨r, hr, hk⟩ := Option.bind_eq_some_iff.mp hk
  have hunit : Onward rid k₀ (k.prepareUnitForSave rid r 0 (pkgSize pkg) .master r.uuid pkg
      (!r.isLocal)) := h.prepareUnit hr
  dsimp only at hk
  split_ifs at hk
  all_goals obtain rfl := Option.some.inj hk
  · exact { hunit.neutral (neutral_postStorageSaveRequest rid k.requestCounter pkg r.uuid) with }
  · exact { hunit.neutral (neutral_backupData rid k.requestCounter r.uuid r.cmd
      cfg.dataCopyCount pkg
      r.dataVersion) with }

/-- It may be encrypted before. -/
theorem onward_startMasterObjectSave (h : Onward rid k₀ k)
    (hk : startMasterObjectSave codec cfg k rid = some x) : Onward rid k₀ x.kernel := by
  obtain ⟨r, hr, hk⟩ := Option.bind_eq_some_iff.mp hk
  have hwrite : Onward rid k₀ (k.write (.built rid r (masterObject codec r))) :=
    h.write Bool.noConfusion
  dsimp only at hk
  split_ifs at hk
  · obtain rfl := Option.some.inj hk
    exact h
  · obtain rfl := Option.some.inj hk
    exact hwrite.setRequest_of_lookup hr fun _ hp => hp
  · obtain ⟨k', hk', rfl⟩ := Option.map_eq_some_iff.mp hk
    exact onward_saveMasterObject hwrite hk'

/-- The pieces get their units. -/
theorem onward_preparePieces {ps : List (UUID × Piece)} (h : Onward rid k₀ k)
    (hk : preparePiecesForSave rid ps k = some k') : Onward rid k₀ k' := by
  induction ps generalizing k with
  | nil =>
    obtain rfl := Option.some.inj hk
    exact h
  | cons x ps ih =>
    obtain ⟨r, hr, hk⟩ := Option.bind_eq_some_iff.mp hk
    exact ih (h.prepareUnit hr) hk

/-- A save starts with the one or the others. -/
theorem onward_startSave (h : Onward rid k₀ (k.setRequest rid r))
    (hk : k.startSave codec cfg rid r = some x) : Onward rid k₀ x.kernel := by
  rw [startSave] at hk
  split_ifs at hk
  · exact onward_startMasterObjectSave h hk
  · obtain ⟨k', hk', rfl⟩ := Option.map_eq_some_iff.mp hk
    obtain ⟨m, hm, hpending⟩ := Option.bind_eq_some_iff.mp hk'
    exact (onward_preparePieces h hm).neutral (neutral_processPendingSaveRequests hpending)

/-- `process_ims_save_request`, of a save or of an update whose old master object is there. -/
theorem onward_processImsSaveRequest {g : ℕ → UUID} (h : Onward rid k₀ k)
    (hr : rid < k₀.requestCounter →
      ∃ r₀, k₀.requests.lookup rid = some r₀ ∧ r₀.savedUnits ⊆ r.savedUnits)
    (hk : k.processImsSaveRequest codec cfg rid r g = some x) : Onward rid k₀ x.kernel := by
  rw [processImsSaveRequest] at hk
  dsimp only at hk
  split_ifs at hk
  · obtain rfl := Option.some.inj hk
    exact h.setRequest hr
  · obtain rfl := Option.some.inj hk
    exact h.setRequest hr
  · refine onward_startSave (h.setRequest ?_) hk
    split_ifs <;> exact hr

/-- The pieces of the old object go after the confirmation. -/
theorem onward_deleteOldPieces (h : Onward rid k₀ k) (hr : k.requests.lookup rid = some r)
    (hsub : r.savedUnits ⊆ r'.savedUnits) :
    Onward rid k₀ (deleteOldPieces rid names k r').kernel := by
  fun_induction deleteOldPieces rid names k r' with
  | case1 | case2 => exact h.setRequest_of_lookup hr hsub
  | case3 p names k r' ih => exact ih (h.handlePieceDelete p) hr hsub

/-- They do if its version can be read. -/
theorem onward_removeUnnecessaryUuids (h : Onward rid k₀ k) (hr : k.requests.lookup rid = some r)
    (hk : k.removeUnnecessaryUuids rid r = some x) : Onward rid k₀ x.kernel := by
  obtain ⟨old, -, hk⟩ := Option.bind_eq_some_iff.mp hk
  split at hk
  · obtain rfl := Option.some.inj hk
    exact h
  · dsimp only at hk
    split at hk
    · obtain rfl := Option.some.inj hk
      exact h.setRequest_of_lookup hr fun _ hp => hp
    · obtain rfl := Option.some.inj hk
      exact onward_deleteOldPieces h hr fun _ hp => hp

/-- The IMS is told of the success. -/
theorem onward_sendImsSaveConfirm (h : Onward rid k₀ k)
    (hk : k.sendImsSaveConfirm rid = some x) : Onward rid k₀ x.kernel := by
  obtain ⟨r, hr, hk⟩ := Option.bind_eq_some_iff.mp hk
  obtain ⟨i, -, hk⟩ := Option.bind_eq_some_iff.mp hk
  obtain ⟨y, hy, hk⟩ := Option.bind_eq_some_iff.mp hk
  have hresp : Onward rid k₀ (k.write (.respond rid i (confirmResponse r))) := by
    refine h.write fun he => ?_
    rw [confirmResponse] at he
    split at he <;> exact Bool.noConfusion he
  refine Ending.of_andThen (P := fun m => Onward rid k₀ m) hk ?_ fun m m' hm hm' => ?_
  · split_ifs at hy
    · have hwrite := hresp.write (e := .removeFromCache rid r.uuid) Bool.noConfusion
      exact onward_removeUnnecessaryUuids hwrite hr hy
    · obtain rfl := Option.some.inj hy
      exact hresp
  · obtain rfl := Option.some.inj hm'
    exact hm.forget

/-- An update that fails before it starts has no unit that could fail. -/
theorem onward_failUpdate {failure : FetchFailure} (h : Onward rid k₀ k)
    (hr : k.requests.lookup rid = some r) (hk : k.failUpdate cfg rid r failure = some k') :
    Onward rid k₀ k' := by
  have hset : Onward rid k₀ (k.setRequest rid { r with waitsFor := .nothing }) :=
    h.setRequest_of_lookup hr fun _ hp => hp
  rcases failure with _ | err | err
  · obtain ⟨m, hm, rfl⟩ := Option.map_eq_some_iff.mp hk
    exact (h.respond hm fun _ => Response.noConfusion).neutral (.eraseRequest rid)
  · obtain ⟨m, hm, hpending⟩ := Option.bind_eq_some_iff.mp hk
    exact (hset.respond hm fun _ => Response.noConfusion).neutral
      (neutral_processPendingSaveRequests hpending)
  · exact hset.respond hk fun _ => Response.noConfusion

/-- The encrypted master object gets its unit. -/
theorem onward_masterEncrypted {key : AesKey} (h : Onward rid k₀ k)
    (hr : k.requests.lookup rid = some r)
    (hk : k.handleMasterEncrypted codec cfg rid r key = some k') : Onward rid k₀ k' := by
  rw [handleMasterEncrypted] at hk
  split at hk
  · have hset : Onward rid k₀ (k.setRequest rid { r with waitsFor := .nothing }) :=
      h.setRequest_of_lookup hr fun _ hp => hp
    exact onward_saveMasterObject hset hk
  · exact absurd hk.symm (Option.some_ne_none k')

/-! ### New copies -/

/-- After the first copy of a piece the piece is among the saved ones. -/
theorem onward_processSaveConfirmForPiece (hunits : k.UnitsFresh)
    (hlook : k.saveUnits.lookup uid = some u) (hmain : u.mainRequest < k.requestCounter)
    (h : k.processSaveConfirmForPiece codec cfg u uid = some x) :
    Onward u.mainRequest k x.kernel ∧ x.kernel.saveUnits.lookup uid = some u ∧
      ∀ r, x.kernel.requests.lookup u.mainRequest = some r → u.uuid ∈ r.savedUnits := by
  obtain ⟨r, hr, h⟩ := Option.bind_eq_some_iff.mp h
  have hself : Onward u.mainRequest k k := .refl hunits
  obtain ⟨s, hs⟩ : ∃ s, s = { r with
      units := r.units.filter (· ≠ uid)
      savedUnits := r.savedUnits.insert u.uuid } := ⟨_, rfl⟩
  have hsub : r.savedUnits ⊆ s.savedUnits := fun p hp => hs ▸ List.mem_insert_of_mem hp
  have hmem : u.uuid ∈ s.savedUnits := hs ▸ List.mem_insert_self
  have hset : Onward u.mainRequest k (k.setRequest u.mainRequest s) :=
    hself.setRequest_of_lookup hr hsub
  simp only [← hs] at h
  split_ifs at h
  · have hafter : Onward u.mainRequest (k.setRequest u.mainRequest s) x.kernel :=
      onward_startMasterObjectSave (.refl hset.unitsFresh) h
    refine ⟨onward_startMasterObjectSave hset h,
      (lookup_startMasterObjectSave (by exact hunits uid u hlook) h).trans hlook, fun r' hr' => ?_⟩
    obtain ⟨q, hq, hsub'⟩ := hafter.saved hmain r' hr'
    rw [Kernel.setRequest, AList.lookup_insert] at hq
    obtain rfl := Option.some.inj hq
    exact hsub' hmem
  · obtain rfl := Option.some.inj h
    refine ⟨hset, hlook, fun r' hr' => ?_⟩
    rw [Ending.kernel_returned, Kernel.setRequest, AList.lookup_insert] at hr'
    obtain rfl := Option.some.inj hr'
    exact hmem

/-- Nothing goes out of the log meanwhile. -/
theorem mem_log_deleteOldPieces (he : e ∈ k.log) :
    e ∈ (deleteOldPieces rid names k r).kernel.log := by
  fun_induction deleteOldPieces rid names k r with
  | case1 | case2 => exact he
  | case3 p names k r ih => exact ih (List.mem_cons_of_mem _ he)

theorem mem_log_removeUnnecessaryUuids (he : e ∈ k.log)
    (hk : k.removeUnnecessaryUuids rid r = some x) : e ∈ x.kernel.log := by
  obtain ⟨old, -, hk⟩ := Option.bind_eq_some_iff.mp hk
  split at hk
  · obtain rfl := Option.some.inj hk
    exact he
  · dsimp only at hk
    split at hk
    · obtain rfl := Option.some.inj hk
      exact he
    · obtain rfl := Option.some.inj hk
      exact mem_log_deleteOldPieces he

/-- The IMS was told, whatever comes after. -/
theorem confirmed_sendImsSaveConfirm (hk : k.sendImsSaveConfirm rid = some x) :
    Confirmed x.kernel.log rid := by
  obtain ⟨r, -, hk⟩ := Option.bind_eq_some_iff.mp hk
  obtain ⟨i, -, hk⟩ := Option.bind_eq_some_iff.mp hk
  obtain ⟨y, hy, hk⟩ := Option.bind_eq_some_iff.mp hk
  have hresp : (confirmResponse r).isConfirm = true := by
    rw [confirmResponse]
    split <;> rfl
  refine ⟨i, confirmResponse r, ?_, hresp⟩
  refine Ending.of_andThen (P := fun m => .respond rid i (confirmResponse r) ∈ m.log) hk ?_
    fun m m' hm hm' => ?_
  · split_ifs at hy
    · exact mem_log_removeUnnecessaryUuids (List.mem_cons_of_mem _ List.mem_cons_self) hy
    · obtain rfl := Option.some.inj hy
      exact List.mem_cons_self
  · obtain rfl := Option.some.inj hm'
    exact hm

/-- After the first copy of the master object the save is decided. -/
theorem onward_processSaveConfirmForMasterObject (hunits : k.UnitsFresh)
    (hlook : k.saveUnits.lookup uid = some u)
    (h : k.processSaveConfirmForMasterObject u = some x) :
    Onward u.mainRequest k x.kernel ∧ x.kernel.saveUnits.lookup uid = some u ∧
      Decided x.kernel.log u.mainRequest := by
  have hself : Onward u.mainRequest k k := .refl hunits
  obtain ⟨r, -, h⟩ := Option.bind_eq_some_iff.mp h
  dsimp only at h
  split_ifs at h
  · have hwrite : Onward u.mainRequest k (k.write (.removeFromCache u.mainRequest u.uuid)) :=
      hself.write Bool.noConfusion
    refine ⟨onward_sendImsSaveConfirm hwrite h, ?_,
      decided_of_confirmed (confirmed_sendImsSaveConfirm h)⟩
    exact (congrArg _ (saveUnits_sendImsSaveConfirm h)).trans hlook
  · refine ⟨onward_sendImsSaveConfirm hself h, ?_,
      decided_of_confirmed (confirmed_sendImsSaveConfirm h)⟩
    exact (congrArg _ (saveUnits_sendImsSaveConfirm h)).trans hlook

/-- What follows the first copy of a unit. -/
theorem onward_handleFirstBackup (hunits : k.UnitsFresh) (hlook : k.saveUnits.lookup uid = some u)
    (hmain : u.mainRequest < k.requestCounter) (hcopied : u.bkpCount ≠ 0)
    (h : k.handleFirstBackupOfSaveUnit codec cfg u uid = some x) :
    Onward u.mainRequest k x.kernel ∧
      (u.type = .piece → ∀ r, x.kernel.requests.lookup u.mainRequest = some r →
        u.uuid ∈ r.savedUnits) ∧ (u.type = .master → Decided x.kernel.log u.mainRequest) := by
  obtain ⟨y, hm, h⟩ := Option.bind_eq_some_iff.mp h
  obtain ⟨honward, hlook', hpiece, hmaster⟩ : Onward u.mainRequest k y.kernel ∧
      y.kernel.saveUnits.lookup uid = some u ∧
      (u.type = .piece → ∀ r, y.kernel.requests.lookup u.mainRequest = some r →
        u.uuid ∈ r.savedUnits) ∧ (u.type = .master → Decided y.kernel.log u.mainRequest) := by
    rcases htype : u.type with _ | _
    · simp only [htype] at hm
      obtain ⟨ho, hl, hd⟩ := onward_processSaveConfirmForMasterObject hunits hlook hm
      exact ⟨ho, hl, UnitType.noConfusion, fun _ => hd⟩
    · simp only [htype] at hm
      obtain ⟨ho, hl, hs⟩ := onward_processSaveConfirmForPiece hunits hlook hmain hm
      exact ⟨ho, hl, fun _ => hs, UnitType.noConfusion⟩
  have hn : Neutral y.kernel x.kernel := by
    cases y with
    | thrown m =>
      obtain rfl := Option.some.inj h
      exact .refl m
    | returned m =>
    obtain ⟨k', hk, rfl⟩ := Option.map_eq_some_iff.mp h
    dsimp only at hk
    split_ifs at hk
    · refine neutral_cleanUpSaveRequest (fun v hv => ?_) hk
      obtain rfl := Option.some.inj (hlook'.symm.trans hv)
      exact hcopied
    · obtain ⟨r, -, hk⟩ := Option.bind_eq_some_iff.mp hk
      split_ifs at hk
      all_goals obtain rfl := Option.some.inj hk
      · have hset := Neutral.setUnit { u with winnersCount := u.winnersCount + 1 } hlook'
          ⟨rfl, rfl, rfl, rfl⟩
        exact hset.congr rfl rfl rfl rfl rfl
      · exact .refl m
  refine ⟨honward.neutral hn, fun ht r hr => ?_, fun ht => ?_⟩
  · obtain ⟨r', hr', hlike⟩ := hn.requests _ r hr
    exact hlike.savedUnits ▸ hpiece ht r' hr'
  · exact (hn.frame _).decided_iff.mpr (hmaster ht)

/-- The kernel right after it has counted one more copy of the unit `uid`. -/
def counted (k : Kernel) (uid : ID32) (u : SaveUnit) : Kernel :=
  (k.setUnit uid { u with bkpCount := u.bkpCount + 1 }).write (.copied u.mainRequest u.type u.uuid)

/-- A confirmation counts a copy and goes on from there. -/
theorem onward_handleSaveConfirm (hunits : k.UnitsFresh) (hlook : k.saveUnits.lookup uid = some u)
    (hmain : u.mainRequest < k.requestCounter)
    (h : k.handleSaveConfirmForLocalSaveUnit codec cfg u uid = some x) :
    Onward u.mainRequest (k.counted uid u) x.kernel ∧ (u.bkpCount = 0 →
      (u.type = .piece → ∀ r, x.kernel.requests.lookup u.mainRequest = some r →
        u.uuid ∈ r.savedUnits) ∧ (u.type = .master → Decided x.kernel.log u.mainRequest)) := by
  have honly : Only u.mainRequest k (k.setUnit uid { u with bkpCount := u.bkpCount + 1 }) :=
    .setUnit (.refl hunits) hlook rfl rfl
  have hfresh : (k.counted uid u).UnitsFresh := honly.unitsFresh
  rw [handleSaveConfirmForLocalSaveUnit] at h
  obtain ⟨y, hm, h⟩ := Option.bind_eq_some_iff.mp h
  have hn : Neutral y.kernel x.kernel := Ending.of_andThen (P := fun m => Neutral y.kernel m) h
    (.refl _) fun m m' hm hm' => hm.trans (neutral_processPendingSaveRequests hm')
  dsimp only at hm
  split_ifs at hm with hone
  · obtain ⟨honward, hpiece, hmaster⟩ := onward_handleFirstBackup
      (u := { u with bkpCount := u.bkpCount + 1 }) hfresh (AList.lookup_insert _) hmain
      (Nat.succ_ne_zero _) hm
    refine ⟨honward.neutral hn, fun _ => ⟨fun ht r hr => ?_, fun ht => ?_⟩⟩
    · obtain ⟨r', hr', hlike⟩ := hn.requests _ r hr
      exact hlike.savedUnits ▸ hpiece ht r' hr'
    · exact (hn.frame _).decided_iff.mpr (hmaster ht)
  · obtain ⟨m, hremove, rfl⟩ := Option.map_eq_some_iff.mp hm
    have herase : Neutral (k.counted uid u) m := neutral_removeAndErase (fun v hv => by
      obtain rfl := Option.some.inj ((AList.lookup_insert _).symm.trans hv)
      exact Nat.succ_ne_zero _) hremove
    exact ⟨((Onward.refl hfresh).neutral herase).neutral hn, fun hzero => absurd (by omega) hone⟩
  · obtain rfl := Option.some.inj hm
    exact ⟨(Onward.refl hfresh).neutral hn, fun hzero => absurd (by omega) hone⟩

/-! ### Going on, event by event -/

/-- The event confirms a unit of the request. -/
def Confirms (k : Kernel) (rid : ID32) : Event → Prop
  | .storageSaveConfirm id | .routerSaveConfirm id =>
    ∃ u, k.saveUnits.lookup id = some u ∧ u.mainRequest = rid
  | _ => False

/-- The event takes from the request a unit that has no copy. -/
def Fails (k : Kernel) (rid : ID32) : Event → Prop
  | .storageFailed id _ | .routerCancel id => ∃ u, Uncopied k.saveUnits rid id u
  | _ => False

/-- A unit that has a copy and is canceled just goes. -/
theorem neutral_canceled {err : String} (hlook : k.saveUnits.lookup uid = some u)
    (hcopied : u.bkpCount ≠ 0) (h : k.handleCanceledSaveUnit cfg u uid err = some k') :
    Neutral k k' := by
  have hcount : Neutral k (k.setUnit uid { u with failCount := u.failCount + 1 }) :=
    .setUnit _ hlook ⟨rfl, rfl, rfl, rfl⟩
  rw [handleCanceledSaveUnit] at h
  dsimp only at h
  split_ifs at h
  · rw [handleFailedSaveUnit] at h
    obtain ⟨m, hm, hpending⟩ := Option.bind_eq_some_iff.mp h
    rw [if_neg hcopied] at hm
    obtain ⟨m', hm', rfl⟩ := Option.map_eq_some_iff.mp hm
    have hreduce := (hcount.trans (neutral_removeFromBackupUnits hm')).trans
      (neutral_reduceRouterSaveInputSize u.size)
    refine (hreduce.trans (.eraseUnit fun v hv => ?_)).trans
      (neutral_processPendingSaveRequests hpending)
    obtain ⟨v', hv', hlike⟩ := hreduce.units uid v hv
    obtain rfl := Option.some.inj (hlook.symm.trans hv')
    exact hlike.bkpCount ▸ hcopied
  · obtain rfl := Option.some.inj h
    exact hcount.trans (.write rfl)

/-- **Step lemma.** An event that neither confirms a unit of the save nor makes it fail takes it
on. -/
theorem onward_step {e : Event} (hk : Sound False k) (hcopy : ¬ k.Confirms rid e)
    (hfail : ¬ k.Fails rid e) (h : step codec cfg k e = some k') : Onward rid k k' := by
  obtain ⟨honly, -⟩ := sound_event hk False.elim h
  have hself : Onward rid k k := .refl hk.unitsFresh
  -- to the requests of others a step is a frame
  by_cases hown : rid = k.owner e
  swap
  · exact hself.frame (honly.frame rid hown) honly.unitsFresh
  cases e with
  -- an id that is opened here is no id of before, so the units it gets are fresh
  | imsSave i args uuid g =>
    have hopen : Onward rid k (k.openRequest i) :=
      ⟨(hk.openRequest i).1.unitsFresh, Nat.le_succ _, hself.unit, hself.gone, hself.waiting,
        hself.saved, hself.log⟩
    subst hown
    obtain ⟨x, hx, rfl⟩ := Option.map_eq_some_iff.mp h
    exact onward_processImsSaveRequest hopen (fun hlt => absurd hlt (lt_irrefl _)) hx
  | imsUpdate i args uuid =>
    have hopen : Onward rid k (k.openRequest i) :=
      ⟨(hk.openRequest i).1.unitsFresh, Nat.le_succ _, hself.unit, hself.gone, hself.waiting,
        hself.saved, hself.log⟩
    obtain rfl := Option.some.inj h
    subst hown
    exact hopen.setRequest fun hlt => absurd hlt (lt_irrefl _)
  | oldMaster rid₀ old key inStorage g =>
    simp only [step, Option.bind_eq_some_iff, pocoAssert_eq_some] at h
    obtain ⟨r, hr, -, h⟩ := h
    subst hown
    have hwrite : Onward rid k (k.write (.gotOldMaster rid old)) := hself.write Bool.noConfusion
    rcases handleUnencryptedMasterObject_cases h with ⟨v, -, h⟩ | ⟨v, err, h⟩
    · refine onward_processImsSaveRequest hwrite ?_ h
      exact fun _ => ⟨r, hr, fun _ hp => hp⟩
    · refine onward_failUpdate (hwrite.setRequest ?_) (AList.lookup_insert _) h
      exact fun _ => ⟨r, hr, fun _ hp => hp⟩
  | oldMasterFailed rid₀ failure =>
    simp only [step, Option.bind_eq_some_iff, pocoAssert_eq_some] at h
    obtain ⟨r, hr, -, h⟩ := h
    subst hown
    exact onward_failUpdate hself hr h
  | getAesKey rid₀ key =>
    simp only [step, Option.bind_eq_some_iff, pocoAssert_eq_some] at h
    obtain ⟨r, hr, -, h⟩ := h
    subst hown
    obtain ⟨x, hx, rfl⟩ := Option.map_eq_some_iff.mp h
    rw [processSaveRequestAfterKeyGeneration] at hx
    refine onward_startSave (hself.setRequest ?_) hx
    exact fun _ => ⟨r, hr, fun _ hp => hp⟩
  | masterEncrypted rid₀ key =>
    obtain ⟨r, hr, h⟩ := Option.bind_eq_some_iff.mp h
    subst hown
    exact onward_masterEncrypted hself hr h
  -- the rest are answers for a unit: where a copy is confirmed or the save fails, the hypotheses
  -- speak
  | pieceEncrypted uid key => exact hself.neutral (neutral_handlePieceEncrypted h)
  | storageSaveConfirm id =>
    obtain ⟨-, h⟩ := pocoAssert_eq_some.mp h
    rcases forUnit_cases h with ⟨-, rfl⟩ | ⟨u, hu, -⟩
    · exact hself.neutral (.answered id)
    · exact absurd ⟨u, hu, (hown.trans (owner_eq hu)).symm⟩ hcopy
  | storageNoSpace id =>
    obtain ⟨-, h⟩ := pocoAssert_eq_some.mp h
    rcases forUnit_cases h with ⟨-, rfl⟩ | ⟨u, -, h⟩
    · exact hself.neutral (.answered id)
    · exact hself.neutral ((Neutral.answered id).trans (neutral_handleNoSpaceForLocalSaveUnit h))
  | storageFailed id err =>
    obtain ⟨-, h⟩ := pocoAssert_eq_some.mp h
    rcases forUnit_cases h with ⟨-, rfl⟩ | ⟨u, hu, h⟩
    · exact hself.neutral (.answered id)
    -- a refusal of a unit with a copy ends nothing
    · have hcopied : u.bkpCount ≠ 0 := fun hzero =>
        hfail ⟨u, hu, (hown.trans (owner_eq hu)).symm, hzero⟩
      exact hself.neutral ((Neutral.answered id).trans (neutral_canceled hu hcopied h))
  | routerSaveConfirm id =>
    obtain ⟨-, h⟩ := pocoAssert_eq_some.mp h
    rcases forUnit_cases h with ⟨-, rfl⟩ | ⟨u, hu, -⟩
    · exact hself
    · exact absurd ⟨u, hu, (hown.trans (owner_eq hu)).symm⟩ hcopy
  | routerCancel id =>
    obtain ⟨-, h⟩ := pocoAssert_eq_some.mp h
    rcases forUnit_cases h with ⟨-, rfl⟩ | ⟨u, hu, h⟩
    · exact hself
    · have hcopied : u.bkpCount ≠ 0 := fun hzero =>
        hfail ⟨u, hu, (hown.trans (owner_eq hu)).symm, hzero⟩
      exact hself.neutral (neutral_canceled hu hcopied h)
  | routerSaveOffer id n =>
    obtain ⟨-, h⟩ := pocoAssert_eq_some.mp h
    rcases forUnit_cases h with ⟨-, rfl⟩ | ⟨u, hu, h⟩
    · exact hself
    · obtain rfl := Option.some.inj h
      exact hself.neutral (neutral_sendUnitContent hu)
  | routerAuth id n =>
    obtain ⟨-, h⟩ := pocoAssert_eq_some.mp h
    rcases forUnit_cases h with ⟨-, rfl⟩ | ⟨u, hu, h⟩
    · exact hself
    · obtain rfl := Option.some.inj h
      exact hself.neutral (neutral_sendUnitContent hu)
  | fileChanged rid₀ source =>
    simp only [step, Option.bind_eq_some_iff, pocoAssert_eq_some] at h
    obtain ⟨r, hr, -, h⟩ := h
    obtain rfl := Option.some.inj h
    exact hself.neutral (.setRequest _ hr ⟨rfl, rfl, rfl, rfl, fun _ => rfl, rfl⟩)

/-- Nothing is handled for a save that is decided and has no unit. -/
theorem owner_ne {e : Event} (hk : Sound False k) (hdec : Decided k.log rid)
    (hgone : ∀ id u, k.saveUnits.lookup id = some u → u.mainRequest ≠ rid)
    (h : step codec cfg k e = some k') : k.owner e ≠ rid := by
  have hlt : rid < k.requestCounter := by
    obtain ⟨e, he, hown, hdec⟩ := hdec
    exact (hk.soundFor rid).entry e he hown (neutral_of_decides hdec)
  have hwaits : ∀ r, k.requests.lookup rid = some r → r.waitsFor = .nothing := by
    intro r hr
    by_contra hwait
    exact (((hk.soundFor rid).request r hr).waits hwait).2 hdec
  have hunit : ∀ id, (k.saveUnits.lookup id).elim k.requestCounter SaveUnit.mainRequest ≠ rid := by
    intro id
    rcases hlook : k.saveUnits.lookup id with _ | u
    · exact hlt.ne'
    · exact hgone id u hlook
  cases e with
  | imsSave | imsUpdate | fileChanged => exact hlt.ne'
  | oldMaster | oldMasterFailed | getAesKey =>
    rintro rfl
    simp only [step, Option.bind_eq_some_iff, pocoAssert_eq_some] at h
    obtain ⟨r, hr, hwait, -⟩ := h
    exact Wait.noConfusion ((hwaits r hr).symm.trans hwait)
  | masterEncrypted =>
    rintro rfl
    obtain ⟨r, hr, h⟩ := Option.bind_eq_some_iff.mp h
    obtain ⟨pkg, hwait⟩ := waitsFor_of_handleMasterEncrypted h
    exact Wait.noConfusion ((hwaits r hr).symm.trans hwait)
  | pieceEncrypted | storageSaveConfirm | storageNoSpace | storageFailed | routerSaveConfirm
  | routerCancel | routerSaveOffer | routerAuth => exact hunit _

end Kernel

end Metax
