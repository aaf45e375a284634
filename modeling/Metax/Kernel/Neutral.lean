import Metax.Kernel.Step

/-!
# What most of the save path leaves alone

How far a save has got is told by a few things: which requests there are, what each waits for
and which pieces it lists; which units there are and how many copies each has; what was
answered, copied and deleted. Most handlers change none of it: they move units between queues
and tasks, fill in contents and keys, and forget units and requests that are done.

`Neutral k k'` says that the step from `k` to `k'` is of that kind. It is reflexive and
transitive, and every function below is shown to be neutral once.
-/

namespace Metax

/-- The entries that say where bytes went, not how far a save has got. -/
def Entry.neutral : Entry → Bool
  | handed _ _ _ _ | tenderAgain _ _ | removeFromCache _ _ => true
  | delete _ _ _ | respond _ _ _ | gotOldMaster _ _ | built _ _ _ | copied _ _ _
  | failedUnit _ _ => false

/-- `r'` is `r`, except perhaps for keys, counters and settings. -/
structure Request.Like (r r' : Request) : Prop where
  uuid : r'.uuid = r.uuid
  waitsFor : r'.waitsFor = r.waitsFor
  oldMasterJson : r'.oldMasterJson = r.oldMasterJson
  savedUnits : r'.savedUnits = r.savedUnits
  pieces : ∀ p, (r'.masterJson.lookup p).isSome = (r.masterJson.lookup p).isSome
  units : r'.units = r.units

/-- `u'` is the unit `u` with as many copies. -/
structure SaveUnit.Like (u u' : SaveUnit) : Prop where
  mainRequest : u'.mainRequest = u.mainRequest
  type : u'.type = u.type
  uuid : u'.uuid = u.uuid
  bkpCount : u'.bkpCount = u.bkpCount

/-- A record is like itself, and like what is like one like it. -/
theorem Request.Like.refl (r : Request) : r.Like r :=
  ⟨rfl, rfl, rfl, rfl, fun _ => rfl, rfl⟩

theorem Request.Like.trans {r s t : Request} (h : r.Like s) (h' : s.Like t) : r.Like t where
  uuid := h'.uuid.trans h.uuid
  waitsFor := h'.waitsFor.trans h.waitsFor
  oldMasterJson := h'.oldMasterJson.trans h.oldMasterJson
  savedUnits := h'.savedUnits.trans h.savedUnits
  pieces p := (h'.pieces p).trans (h.pieces p)
  units := h'.units.trans h.units

/-- The same for units. -/
theorem SaveUnit.Like.refl (u : SaveUnit) : u.Like u := ⟨rfl, rfl, rfl, rfl⟩

theorem SaveUnit.Like.trans {u v w : SaveUnit} (h : u.Like v) (h' : v.Like w) : u.Like w :=
  ⟨h'.mainRequest.trans h.mainRequest, h'.type.trans h.type, h'.uuid.trans h.uuid,
    h'.bkpCount.trans h.bkpCount⟩

namespace Kernel

/-- A step that does not change how far any save has got. Units with a copy and requests may
go; units without a copy stay. -/
structure Neutral (k k' : Kernel) : Prop where
  counter : k'.requestCounter = k.requestCounter
  ims : k'.imsReqIds = k.imsReqIds
  requests : ∀ rid r', k'.requests.lookup rid = some r' →
    ∃ r, k.requests.lookup rid = some r ∧ r.Like r'
  units : ∀ uid u', k'.saveUnits.lookup uid = some u' →
    ∃ u, k.saveUnits.lookup uid = some u ∧ u.Like u'
  waiting : ∀ uid u, k.saveUnits.lookup uid = some u → u.bkpCount = 0 →
    ∃ u', k'.saveUnits.lookup uid = some u' ∧ u.Like u'
  log : ∃ es, k'.log = es ++ k.log ∧ ∀ e ∈ es, e.neutral = true

variable {codec : Codec} {cfg : KernelCfg} {k k' m : Kernel} {rid uid : ID32} {r r' : Request}
  {u u' : SaveUnit} {e : Entry}

namespace Neutral

/-- Nothing of what matters has changed at all. -/
theorem of_eq (hcounter : k'.requestCounter = k.requestCounter) (hims : k'.imsReqIds = k.imsReqIds)
    (hrequests : k'.requests = k.requests) (hunits : k'.saveUnits = k.saveUnits)
    (hlog : k'.log = k.log) : Neutral k k' := by
  refine ⟨hcounter, hims, ?_, ?_, ?_, ⟨[], hlog, fun e he => absurd he List.not_mem_nil⟩⟩
  · intro rid r' h
    rw [hrequests] at h
    exact ⟨r', h, .refl r'⟩
  · intro uid u' h
    rw [hunits] at h
    exact ⟨u', h, .refl u'⟩
  · intro uid u h _
    rw [hunits]
    exact ⟨u, h, .refl u⟩

/-- Neutral steps can be put in sequence. -/
theorem refl (k : Kernel) : Neutral k k := of_eq rfl rfl rfl rfl rfl

/-- What is left of a unit after both was left after the first. -/
theorem trans (h : Neutral k m) (h' : Neutral m k') : Neutral k k' := by
  refine ⟨h'.counter.trans h.counter, h'.ims.trans h.ims, ?_, ?_, ?_, ?_⟩
  · intro rid r'' hlook
    obtain ⟨r', hlook', hlike'⟩ := h'.requests rid r'' hlook
    obtain ⟨r, hlook'', hlike⟩ := h.requests rid r' hlook'
    exact ⟨r, hlook'', hlike.trans hlike'⟩
  · intro uid u'' hlook
    obtain ⟨u', hlook', hlike'⟩ := h'.units uid u'' hlook
    obtain ⟨u, hlook'', hlike⟩ := h.units uid u' hlook'
    exact ⟨u, hlook'', hlike.trans hlike'⟩
  · intro uid u hlook hzero
    obtain ⟨u', hlook', hlike⟩ := h.waiting uid u hlook hzero
    obtain ⟨u'', hlook'', hlike'⟩ := h'.waiting uid u' hlook' (hlike.bkpCount.trans hzero)
    exact ⟨u'', hlook'', hlike.trans hlike'⟩
  · obtain ⟨es, hes, hall⟩ := h.log
    obtain ⟨es', hes', hall'⟩ := h'.log
    refine ⟨es' ++ es, by rw [hes', hes, List.append_assoc], fun e he => ?_⟩
    exact (List.mem_append.mp he).elim (hall' e) (hall e)

/-- The queues, the counters and what the units wait for do not matter. -/
theorem congr (h : Neutral k m) (hcounter : k'.requestCounter = m.requestCounter)
    (hims : k'.imsReqIds = m.imsReqIds) (hrequests : k'.requests = m.requests)
    (hunits : k'.saveUnits = m.saveUnits) (hlog : k'.log = m.log) : Neutral k k' :=
  h.trans (of_eq hcounter hims hrequests hunits hlog)

/-- An entry of a neutral kind. -/
theorem write (he : e.neutral = true) : Neutral k (k.write e) := by
  have h := refl k
  refine ⟨rfl, rfl, h.requests, h.units, h.waiting, ⟨[e], rfl, fun e' he' => ?_⟩⟩
  rwa [List.mem_singleton.mp he']

/-- To post something, or to have it answered, is not looked at. -/
theorem post (id : ID32) (p : Post) : Neutral k (k.post id p) := of_eq rfl rfl rfl rfl rfl

theorem answered (id : ID32) : Neutral k (k.answered id) := of_eq rfl rfl rfl rfl rfl

/-- A unit is written back with as many copies. -/
theorem setUnit (u' : SaveUnit) (hlook : k.saveUnits.lookup uid = some u) (hlike : u.Like u') :
    Neutral k (k.setUnit uid u') := by
  have h := refl k
  refine ⟨rfl, rfl, h.requests, ?_, ?_, ⟨[], rfl, fun e he => absurd he List.not_mem_nil⟩⟩
  · exact Ledger.exists_of_lookup_insert .refl hlook hlike
  · exact fun id v hv _ => Ledger.exists_lookup_insert_rel .refl hlook hlike hv

/-- A record is written back with its pieces and its units. -/
theorem setRequest (r' : Request) (hlook : k.requests.lookup rid = some r) (hlike : r.Like r') :
    Neutral k (k.setRequest rid r') := by
  have h := refl k
  refine ⟨rfl, rfl, ?_, h.units, h.waiting, ⟨[], rfl, fun e he => absurd he List.not_mem_nil⟩⟩
  exact Ledger.exists_of_lookup_insert .refl hlook hlike

/-- A request may go: its units stay. -/
theorem eraseRequest (rid : ID32) : Neutral k { k with requests := k.requests.erase rid } := by
  have h := refl k
  refine ⟨rfl, rfl, ?_, h.units, h.waiting, ⟨[], rfl, fun e he => absurd he List.not_mem_nil⟩⟩
  intro id s hs
  obtain ⟨hid, hs⟩ := Ledger.of_lookup_erase hs
  exact ⟨s, hs, .refl s⟩

/-- Units that have a copy may be forgotten. -/
theorem eraseUnit (hcopy : ∀ u, k.saveUnits.lookup uid = some u → u.bkpCount ≠ 0) :
    Neutral k (k.eraseUnit uid) := by
  have h := refl k
  refine ⟨rfl, rfl, h.requests, ?_, ?_, ⟨[], rfl, fun e he => absurd he List.not_mem_nil⟩⟩
  · intro id v hv
    obtain ⟨hid, hv⟩ := Ledger.of_lookup_erase hv
    exact ⟨v, hv, .refl v⟩
  · intro id v hv hzero
    have hid : id ≠ uid := by
      rintro rfl
      exact hcopy v hv hzero
    rw [Kernel.eraseUnit, Ledger.lookup_erase_ite, if_neg hid]
    exact ⟨v, hv, .refl v⟩

end Neutral

/-! ### The pending units -/

/-- To hand bytes to the storage is neutral. -/
theorem neutral_postStorageSaveRequest (owner id : ID32) (pkg : Bytes) (uuid : UUID) :
    Neutral k (k.postStorageSaveRequest owner id pkg uuid) :=
  (Neutral.post id .saveData).trans (.write rfl)

/-- So is to hand them to the router. -/
theorem neutral_backupData (owner id : ID32) (uuid : UUID) (cmd : SaveCommand) (copyCnt : ℕ)
    (pkg : Bytes) (version : ℕ) :
    Neutral k (k.backupData owner id uuid cmd copyCnt pkg version) :=
  (Neutral.post id .tender).trans (.write rfl)

/-- A piece goes to the storage or to the key manager. -/
theorem neutral_handlePieceSave (h : k.handlePieceSave uid u r = some k') : Neutral k k' := by
  rw [handlePieceSave] at h
  split_ifs at h
  · obtain ⟨-, h⟩ := pocoAssert_eq_some.mp h
    obtain rfl := Option.some.inj h
    exact .post _ _
  · obtain rfl := Option.some.inj h
    exact neutral_postStorageSaveRequest _ _ _ _

/-- A unit leaves the queue of the storage for its task. -/
theorem neutral_takePendingSave (h : k.takePendingSave uid = some k') : Neutral k k' := by
  have hpop : Neutral k { k with pendingSaveRequests := k.pendingSaveRequests.tail } :=
    .of_eq rfl rfl rfl rfl rfl
  rw [takePendingSave] at h
  rcases hlook : k.saveUnits.lookup uid with _ | u
  · simp only [hlook] at h
    obtain rfl := Option.some.inj h
    exact hpop
  · simp only [hlook, Option.bind_eq_some_iff, pocoAssert_eq_some] at h
    obtain ⟨r, -, -, h⟩ := h
    have hread := hpop.trans (.setUnit { u with content := getPieceDataForSave r u.start u.size }
      hlook ⟨rfl, rfl, rfl, rfl⟩)
    refine Neutral.trans ?_ (neutral_handlePieceSave h)
    exact hread.congr rfl rfl rfl rfl rfl

theorem neutral_storagePendingLoop {ids : List ID32} (h : storagePendingLoop ids k = some k') :
    Neutral k k' := by
  induction ids generalizing k with
  | nil =>
    obtain rfl := Option.some.inj h
    exact .refl k
  | cons i rest ih =>
    rw [storagePendingLoop] at h
    split_ifs at h
    · obtain ⟨m, hm, hrest⟩ := Option.bind_eq_some_iff.mp h
      exact (neutral_takePendingSave hm).trans (ih hrest)
    · obtain rfl := Option.some.inj h
      exact .refl k

/-- The same for the queue of the router. -/
theorem neutral_handlePieceForBackup (hlook : k.saveUnits.lookup uid = some u)
    (h : handlePieceForBackup cfg k uid u r = some k') : Neutral k k' := by
  rw [handlePieceForBackup] at h
  split_ifs at h
  · obtain rfl := Option.some.inj h
    exact neutral_backupData _ _ _ _ _ _ _
  · obtain ⟨-, h⟩ := pocoAssert_eq_some.mp h
    obtain rfl := Option.some.inj h
    refine Neutral.trans ?_ (.post _ _)
    exact .setUnit _ hlook ⟨rfl, rfl, rfl, rfl⟩
  · obtain rfl := Option.some.inj h
    refine Neutral.trans ?_ (neutral_backupData _ _ _ _ _ _ _)
    exact .setUnit _ hlook ⟨rfl, rfl, rfl, rfl⟩

theorem neutral_visitPendingRouterSave (h : visitPendingRouterSave cfg k uid = some k') :
    Neutral k k' := by
  rw [visitPendingRouterSave] at h
  rcases hlook : k.saveUnits.lookup uid with _ | u
  · simp only [hlook] at h
    obtain rfl := Option.some.inj h
    exact .of_eq rfl rfl rfl rfl rfl
  · simp only [hlook] at h
    split_ifs at h
    · simp only [Option.bind_eq_some_iff, Option.map_eq_some_iff] at h
      obtain ⟨r, -, m, hm, rfl⟩ := h
      have hbackup : Neutral k (k.setUnit uid { u with backup := true }) :=
        .setUnit _ hlook ⟨rfl, rfl, rfl, rfl⟩
      have hposted := neutral_handlePieceForBackup (AList.lookup_insert _) hm
      refine Neutral.trans (Neutral.trans ?_ hposted) (.of_eq rfl rfl rfl rfl rfl)
      exact hbackup.congr rfl rfl rfl rfl rfl
    · obtain rfl := Option.some.inj h
      exact .refl k

theorem neutral_routerPendingLoop {ids : List ID32} (h : routerPendingLoop cfg ids k = some k') :
    Neutral k k' := by
  induction ids generalizing k with
  | nil =>
    obtain rfl := Option.some.inj h
    exact .refl k
  | cons i rest ih =>
    rw [routerPendingLoop] at h
    obtain ⟨m, hm, hrest⟩ := Option.bind_eq_some_iff.mp h
    exact (neutral_visitPendingRouterSave hm).trans (ih hrest)

/-- Working off the queues is neutral. -/
theorem neutral_processPendingSaveRequests (h : processPendingSaveRequests cfg k = some k') :
    Neutral k k' := by
  rw [processPendingSaveRequests] at h
  obtain ⟨m, hm, hrest⟩ := Option.bind_eq_some_iff.mp h
  exact (neutral_storagePendingLoop hm).trans (neutral_routerPendingLoop hrest)

/-! ### Handlers -/

/-- A unit that is backed up is crossed out, and the request goes after the last one. -/
theorem neutral_removeFromBackupUnits (h : k.removeFromBackupUnits rid uid = some k') :
    Neutral k k' := by
  rw [removeFromBackupUnits] at h
  obtain ⟨r, hlook, h⟩ := Option.bind_eq_some_iff.mp h
  dsimp only at h
  split_ifs at h
  · obtain rfl := Option.some.inj h
    exact .eraseRequest rid
  · obtain rfl := Option.some.inj h
    exact .setRequest _ hlook ⟨rfl, rfl, rfl, rfl, fun _ => rfl, rfl⟩

/-- The counters of the flow control are not looked at. -/
theorem neutral_reduceStorageInputSize : Neutral k k.reduceStorageInputSize :=
  .of_eq rfl rfl rfl rfl rfl

theorem neutral_reduceRouterSaveInputSize (s : ℕ) : Neutral k (k.reduceRouterSaveInputSize s) :=
  .of_eq rfl rfl rfl rfl rfl

/-- A unit with all its copies is forgotten, and perhaps its request. -/
theorem neutral_removeAndErase {s : ℕ} {id : ID32}
    (hcopy : ∀ u, k.saveUnits.lookup uid = some u → u.bkpCount ≠ 0)
    (h : ((k.reduceRouterSaveInputSize s).removeFromBackupUnits rid id).map
      (fun k => k.eraseUnit uid) = some k') : Neutral k k' := by
  obtain ⟨m, hm, rfl⟩ := Option.map_eq_some_iff.mp h
  have hfirst := (neutral_reduceRouterSaveInputSize s).trans (neutral_removeFromBackupUnits hm)
  refine hfirst.trans (.eraseUnit fun v hv => ?_)
  obtain ⟨u, hu, hlike⟩ := hfirst.units uid v hv
  exact hlike.bkpCount ▸ hcopy u hu

/-- A unit with a copy is cleaned up. -/
theorem neutral_cleanUpSaveRequest (hcopy : ∀ u, k.saveUnits.lookup uid = some u → u.bkpCount ≠ 0)
    (h : k.cleanUpSaveRequest u uid = some k') : Neutral k k' := by
  rw [cleanUpSaveRequest] at h
  obtain ⟨r, -, h⟩ := Option.bind_eq_some_iff.mp h
  dsimp only at h
  split_ifs at h
  · obtain rfl := Option.some.inj h
    exact (neutral_reduceStorageInputSize.trans (.eraseRequest _)).trans (.eraseUnit hcopy)
  · obtain rfl := Option.some.inj h
    exact neutral_reduceStorageInputSize.trans (.eraseUnit hcopy)
  · exact neutral_removeAndErase hcopy h

/-- A unit the storage has no room for goes to the router. -/
theorem neutral_handleNoSpaceForLocalSaveUnit
    (h : k.handleNoSpaceForLocalSaveUnit cfg u uid = some k') : Neutral k k' := by
  rw [handleNoSpaceForLocalSaveUnit] at h
  obtain ⟨-, h⟩ := pocoAssert_eq_some.mp h
  obtain ⟨r, hlook, h⟩ := Option.bind_eq_some_iff.mp h
  have hflip := Neutral.setRequest { r with isLocal := false } hlook
    ⟨rfl, rfl, rfl, rfl, fun _ => rfl, rfl⟩
  refine Neutral.trans ?_ (neutral_processPendingSaveRequests h)
  exact hflip.congr rfl rfl rfl rfl rfl

/-- An encrypted piece goes on. -/
theorem neutral_handleSaveAfterPieceEncrypt {enc : Bytes} {key : AesKey}
    (h : k.handleSaveAfterPieceEncrypt cfg uid enc key = some k') : Neutral k k' := by
  rw [handleSaveAfterPieceEncrypt] at h
  rcases hlook : k.saveUnits.lookup uid with _ | u
  · simp only [hlook] at h
    obtain rfl := Option.some.inj h
    exact .refl k
  · simp only [hlook, Option.bind_eq_some_iff, pocoAssert_eq_some] at h
    obtain ⟨r, hr, -, p, hp, h⟩ := h
    have hpieces : ∀ q, ((r.masterJson.insert u.uuid { p with aesKey := some key }).lookup
        q).isSome = (r.masterJson.lookup q).isSome := by
      intro q
      rw [Ledger.lookup_insert_ite]
      split_ifs with hq
      · rw [hq, hp]
        rfl
      · rfl
    have hunit : Neutral k (k.setUnit uid { u with content := enc }) :=
      .setUnit _ hlook ⟨rfl, rfl, rfl, rfl⟩
    have hrequest := hunit.trans (.setRequest
      { r with masterJson := r.masterJson.insert u.uuid { p with aesKey := some key } }
      hr ⟨rfl, rfl, rfl, rfl, hpieces, rfl⟩)
    split_ifs at h
    · obtain rfl := Option.some.inj h
      exact hrequest.trans (neutral_postStorageSaveRequest _ _ _ _)
    · obtain rfl := Option.some.inj h
      exact hrequest.trans (neutral_backupData _ _ _ _ _ _ _)

theorem neutral_handlePieceEncrypted {key : AesKey}
    (h : k.handlePieceEncrypted codec cfg uid key = some k') : Neutral k k' := by
  rw [handlePieceEncrypted] at h
  split at h
  · exact (Neutral.answered uid).trans (neutral_handleSaveAfterPieceEncrypt h)
  · exact absurd h.symm (Option.some_ne_none k')

/-- The content of a unit is sent to a node that offers to save it. -/
theorem neutral_sendUnitContent {receiver : Receiver} {n : ℕ}
    (hlook : k.saveUnits.lookup uid = some u) :
    Neutral k (k.sendUnitContent uid u receiver n) := by
  refine Neutral.trans ?_ (.write rfl)
  exact .setUnit _ hlook ⟨rfl, rfl, rfl, rfl⟩

end Kernel

end Metax
