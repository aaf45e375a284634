import Metax.Kernel.Data

/-!
# The save path of the kernel

The handlers of `kernel.cpp` that save and update objects, each under its name. They take the
kernel to the next kernel, or abort: `none` stands for a `poco_assert` that fails or a pointer
to a request that is gone.

Where a `Poco::Exception` can leave a handler, what it ends in is an `Ending`: `handle_*_input`
catches the exception, and what the handler had done until then stays done.
-/

namespace Metax

/-- How a handler ends that does not abort: it returns, or an exception leaves it. -/
inductive Ending
  | returned (k : Kernel)
  | thrown (k : Kernel)

namespace Ending

/-- The kernel as the handler leaves it. -/
def kernel : Ending → Kernel
  | returned k | thrown k => k

/-- What comes after a call; an exception skips it. -/
def andThen (f : Kernel → Option Kernel) : Ending → Option Ending
  | returned k => (f k).map returned
  | thrown k => some (thrown k)

variable {f : Kernel → Option Kernel} {e e' : Ending}

@[simp]
theorem kernel_returned (k : Kernel) : (returned k).kernel = k := rfl

@[simp]
theorem kernel_thrown (k : Kernel) : (thrown k).kernel = k := rfl

/-- What holds after the call, and is kept by what comes after it, holds in the end. -/
theorem of_andThen {P : Kernel → Prop} (h : e.andThen f = some e') (he : P e.kernel)
    (hf : ∀ k k', P k → f k = some k' → P k') : P e'.kernel := by
  cases e with
  | returned k =>
    obtain ⟨k', hk', rfl⟩ := Option.map_eq_some_iff.mp h
    exact hf k k' he hk'
  | thrown k =>
    obtain rfl := Option.some.inj h
    exact he

end Ending

namespace Kernel

variable (codec : Codec) (cfg : KernelCfg)

/-! ### Sending -/

/-- `post_storage_save_request`. -/
def postStorageSaveRequest (k : Kernel) (owner id : ID32) (pkg : Bytes) (uuid : UUID) : Kernel :=
  (k.post id .saveData).write (.handed owner .storage uuid pkg)

/-- `backup_data`. -/
def backupData (k : Kernel) (owner id : ID32) (uuid : UUID) (cmd : SaveCommand) (copyCnt : ℕ)
    (pkg : Bytes) (version : ℕ) : Kernel :=
  (k.post id .tender).write (.handed owner (.router cmd copyCnt version) uuid pkg)

/-- `m_ims_req_ids.erase`. -/
def forget (k : Kernel) (rid : ID32) : Kernel := { k with imsReqIds := k.imsReqIds.erase rid }

/-- The end of the responses to a save that fails: it goes to the IMS and the request's id there
is forgotten. -/
def respond (k : Kernel) (rid : ID32) (r : Response) : Option Kernel :=
  (k.imsReqIds.lookup rid).bind fun ims => some ((k.write (.respond rid ims r)).forget rid)

/-- `send_ims_update_fail_response`. -/
def sendImsUpdateFailResponse (k : Kernel) (rid : ID32) (uuid : UUID) (err : String) :
    Option Kernel :=
  let m := "Failed updating uuid=" ++ uuid.toString ++ "."
  k.respond rid (.updateFail (if err.isEmpty then m else m ++ " " ++ err))

/-- `send_ims_save_fail_response`. -/
def sendImsSaveFailResponse (k : Kernel) (rid : ID32) (err : String) : Option Kernel :=
  k.respond rid (.saveFail err)

/-- `handle_piece_delete`. -/
def handlePieceDelete (k : Kernel) (rid : ID32) (uuid : UUID) : Kernel :=
  { k.write (.delete rid k.requestCounter uuid) with requestCounter := k.requestCounter + 1 }

/-! ### Flow control -/

/-- `reduce_storage_input_size`: never below zero. -/
def reduceStorageInputSize (k : Kernel) : Kernel :=
  { k with storageInputCnt := k.storageInputCnt - 1 }

/-- `reduce_router_save_input_size`: never below zero. -/
def reduceRouterSaveInputSize (k : Kernel) (s : ℕ) : Kernel :=
  { k with routerSaveInputSize := k.routerSaveInputSize - s }

/-! ### Cutting the object into units -/

/-- `get_data_size_from_request_object`: there is no size of a file that is gone, but an
exception. -/
def getDataSizeFromRequestObject (r : Request) : Option ℕ :=
  match r.source with
  | .gone _ => none
  | .message data _ | .file data _ => some data.length

/-- `get_piece_data_for_save`. -/
def getPieceDataForSave (r : Request) (start size : ℕ) : Bytes :=
  ((r.source.data ++ r.source.behind).drop start).take size

/-- The loop of `generate_pieces_json`. The offset `b` is an `unsigned int`; `g` gives the
uuids `createRandom` returns, from the `i`-th on. -/
def generatePiecesLoop (g : ℕ → UUID) (i b s : ℕ) (pj : Pieces) : Pieces :=
  if maxChunkSize < s then
    generatePiecesLoop g (i + 1) ((b + maxChunkSize) % 2 ^ 32) (s - maxChunkSize)
      (pj.insert (g i) ⟨b, maxChunkSize, none⟩)
  else if 0 < s then
    pj.insert (g i) ⟨b, s, none⟩
  else
    pj
  termination_by s
  decreasing_by
    have : 0 < maxChunkSize := by decide
    omega

/-- `generate_pieces_json`: nothing for an object that fits one chunk. -/
def generatePiecesJson (s : ℕ) (g : ℕ → UUID) : Pieces :=
  if s ≤ maxChunkSize then ∅ else generatePiecesLoop g 0 0 s ∅

/-- `prepare_unit_for_save`. The new unit's id is the request counter. -/
def prepareUnitForSave (k : Kernel) (rid : ID32) (r : Request) (b s : ℕ) (t : UnitType)
    (uuid : UUID) (c : Bytes) (backup : Bool) : Kernel :=
  let urid := k.requestCounter
  let u : SaveUnit := ⟨rid, b, s, 0, t, uuid, c, if t = .piece then .save else r.cmd, 0, 0, backup⟩
  { (k.setUnit urid u).setRequest rid { r with
      units := urid :: r.units
      backupUnits := if t = .piece then urid :: r.backupUnits else r.backupUnits } with
    requestCounter := urid + 1
    pendingSaveRequests :=
      if t = .piece ∧ r.isLocal then urid :: k.pendingSaveRequests else k.pendingSaveRequests
    pendingRouterSaveReqs :=
      if t = .piece ∧ ¬ r.isLocal then urid :: k.pendingRouterSaveReqs
      else k.pendingRouterSaveReqs }

/-- `prepare_pieces_for_save`. -/
def preparePiecesForSave (rid : ID32) : List (UUID × Piece) → Kernel → Option Kernel
  | [], k => some k
  | (uuid, p) :: ps, k =>
    (k.requests.lookup rid).bind fun r =>
      preparePiecesForSave rid ps (k.prepareUnitForSave rid r p.start p.size .piece uuid [] false)

/-! ### The pending units -/

/-- `handle_piece_save`. -/
def handlePieceSave (k : Kernel) (id : ID32) (u : SaveUnit) (r : Request) : Option Kernel :=
  if r.enc then
    pocoAssert r.aesKey.isSome (some (k.post id (.encryptPiece u.content true)))
  else
    some (k.postStorageSaveRequest u.mainRequest id u.content u.uuid)

/-- One round of the loop of `process_storage_pending_save_requests`; `i` is the front. -/
def takePendingSave (k : Kernel) (i : ID32) : Option Kernel :=
  let k := { k with pendingSaveRequests := k.pendingSaveRequests.tail }
  match k.saveUnits.lookup i with
  | none => some k
  | some u =>
    (k.requests.lookup u.mainRequest).bind fun r =>
      let u := { u with content := getPieceDataForSave r u.start u.size }
      pocoAssert (u.type = .piece ∧ r.isLocal) <|
        handlePieceSave { k.setUnit i u with storageInputCnt := k.storageInputCnt + 1 } i u r

/-- The loop of `process_storage_pending_save_requests`. -/
def storagePendingLoop : List ID32 → Kernel → Option Kernel
  | [], k => some k
  | i :: rest, k =>
    if k.pendingRouterSaveReqs.length < maxStorageInputCnt ∧
        k.storageInputCnt < maxStorageInputCnt then
      (k.takePendingSave i).bind (storagePendingLoop rest)
    else
      some k

/-- `process_storage_pending_save_requests`. -/
def processStoragePendingSaveRequests (k : Kernel) : Option Kernel :=
  storagePendingLoop k.pendingSaveRequests k

/-- The version `handle_piece_for_backup` gives a unit. -/
def unitVersion (u : SaveUnit) (r : Request) : ℕ :=
  if u.type = .master then r.dataVersion else dataVersionStart

/-- `handle_piece_for_backup`. -/
def handlePieceForBackup (k : Kernel) (i : ID32) (u : SaveUnit) (r : Request) : Option Kernel :=
  if r.isLocal then
    some (k.backupData u.mainRequest i u.uuid u.cmd (cfg.dataCopyCount - 1) u.content
      (unitVersion u r))
  else
    let u := { u with content := getPieceDataForSave r u.start u.size }
    let k := k.setUnit i u
    if r.enc then
      pocoAssert r.aesKey.isSome (some (k.post i (.encryptPiece u.content false)))
    else
      some (k.backupData u.mainRequest i u.uuid u.cmd (cfg.dataCopyCount - 1) u.content
        (unitVersion u r))

/-- One round of the loop of `process_router_pending_save_requests`. -/
def visitPendingRouterSave (k : Kernel) (i : ID32) : Option Kernel :=
  match k.saveUnits.lookup i with
  | none => some { k with pendingRouterSaveReqs := k.pendingRouterSaveReqs.erase i }
  | some u =>
    let size := (k.routerSaveInputSize + u.size) % 2 ^ 32
    if size ≤ cfg.maxRouterSaveInputSize then
      let u := { u with backup := true }
      (k.requests.lookup u.mainRequest).bind fun r =>
        (handlePieceForBackup cfg { k.setUnit i u with routerSaveInputSize := size } i u r).map
          fun k => { k with pendingRouterSaveReqs := k.pendingRouterSaveReqs.erase i }
    else
      some k

/-- The loop of `process_router_pending_save_requests`. -/
def routerPendingLoop : List ID32 → Kernel → Option Kernel
  | [], k => some k
  | i :: rest, k => (visitPendingRouterSave cfg k i).bind (routerPendingLoop rest)

/-- `process_router_pending_save_requests`. -/
def processRouterPendingSaveRequests (k : Kernel) : Option Kernel :=
  routerPendingLoop cfg k.pendingRouterSaveReqs k

/-- `process_pending_save_requests`. -/
def processPendingSaveRequests (k : Kernel) : Option Kernel :=
  k.processStoragePendingSaveRequests.bind (processRouterPendingSaveRequests cfg)

/-! ### The master object -/

/-- The field `size` of a package, a `uint32_t`. -/
def pkgSize (pkg : Bytes) : ℕ := pkg.length % 2 ^ 32

/-- `save_master_object`. -/
def saveMasterObject (k : Kernel) (rid : ID32) (pkg : Bytes) : Option Kernel :=
  (k.requests.lookup rid).bind fun r =>
    let urid := k.requestCounter
    let k := k.prepareUnitForSave rid r 0 (pkgSize pkg) .master r.uuid pkg (!r.isLocal)
    if r.isLocal then
      some ({ k with storageInputCnt := k.storageInputCnt + 1 }.postStorageSaveRequest rid urid
        pkg r.uuid)
    else
      some { k.backupData rid urid r.uuid r.cmd cfg.dataCopyCount pkg r.dataVersion with
        routerSaveInputSize := (k.routerSaveInputSize + pkgSize pkg) % 2 ^ 32 }

/-- `create_master_json_template`. -/
def createMasterJsonTemplate (r : Request) (size : ℕ) (ct : String) : MasterJson where
  size := size
  version := r.dataVersion
  contentType := ct
  pieces := ∅
  content := none
  lastUpdated := r.lastUpdated
  expirationDate := r.expireDate
  protocolVersion := masterVersion

/-- The master object that `start_master_object_save` makes of a request. -/
def masterObject (r : Request) : MasterJson :=
  let s := r.source.data.length
  { createMasterJsonTemplate r s r.contentType with
    content :=
      if s ≤ maxChunkSize then some (codec.base64Encode (getPieceDataForSave r 0 s)) else none
    pieces := r.masterJson }

/-- `start_master_object_save`. -/
def startMasterObjectSave (k : Kernel) (rid : ID32) : Option Ending :=
  (k.requests.lookup rid).bind fun r =>
    if getDataSizeFromRequestObject r = none then
      some (.thrown k)
    else
      let m := masterObject codec r
      let k := k.write (.built rid r m)
      if r.enc then
        some (.returned (k.setRequest rid { r with waitsFor := .encryption (codec.stringify m) }))
      else
        (saveMasterObject cfg k rid (codec.stringify m)).map .returned

/-! ### Confirmations -/

/-- `remove_from_backup_units`. -/
def removeFromBackupUnits (k : Kernel) (rid uid : ID32) : Option Kernel :=
  (k.requests.lookup rid).bind fun r =>
    let backupUnits := r.backupUnits.filter (· ≠ uid)
    if backupUnits = [] then
      some { k with requests := k.requests.erase rid }
    else
      some (k.setRequest rid { r with backupUnits := backupUnits })

/-- `increase_version`: an exception for a version that does not fit `uint32_t`, or is no
number. -/
def increaseVersion : NumberField → Option ℕ
  | .missing => some dataVersionStart
  | .unreadable => none
  | .value v => if v < 2 ^ 32 then some ((v + 1) % 2 ^ 32) else none

/-- The loop of `remove_unnecessary_uuids`. A name that is no uuid ends it with an exception. -/
def deleteOldPieces (rid : ID32) : List (Option UUID) → Kernel → Request → Ending
  | [], k, r => .returned (k.setRequest rid { r with units := rid :: r.units })
  | none :: _, k, r => .thrown (k.setRequest rid r)
  | some u :: us, k, r =>
    deleteOldPieces rid us (k.handlePieceDelete rid u)
      { r with units := k.requestCounter :: r.units }

/-- `remove_unnecessary_uuids`. -/
def removeUnnecessaryUuids (k : Kernel) (rid : ID32) (r : Request) : Option Ending :=
  r.oldMasterJson.bind fun old =>
    match increaseVersion old.version with
    | none => some (.thrown k)
    | some v =>
      let r := { r with dataVersion := v }
      match old.names with
      | none => some (.returned (k.setRequest rid r))
      | some names => some (deleteOldPieces rid names k r)

/-- What `send_ims_save_confirm` tells the IMS. -/
def confirmResponse (r : Request) : Response :=
  match r.cmd with
  | .save => .saveConfirm r.uuid
  | .update => .updated r.uuid

/-- `send_ims_save_confirm`. -/
def sendImsSaveConfirm (k : Kernel) (rid : ID32) : Option Ending :=
  (k.requests.lookup rid).bind fun r =>
    (k.imsReqIds.lookup rid).bind fun ims =>
      let k := k.write (.respond rid ims (confirmResponse r))
      (if r.cmd = .update then
        removeUnnecessaryUuids (k.write (.removeFromCache rid r.uuid)) rid r
      else
        some (.returned k)).bind (Ending.andThen fun k => some (k.forget rid))

/-- `process_save_confirm_for_master_object`. -/
def processSaveConfirmForMasterObject (k : Kernel) (u : SaveUnit) : Option Ending :=
  (k.requests.lookup u.mainRequest).bind fun r =>
    let k := if r.cmd = .update then k.write (.removeFromCache u.mainRequest u.uuid) else k
    k.sendImsSaveConfirm u.mainRequest

/-- `process_save_confirm_for_piece`. -/
def processSaveConfirmForPiece (k : Kernel) (u : SaveUnit) (uid : ID32) : Option Ending :=
  (k.requests.lookup u.mainRequest).bind fun r =>
    let r := { r with
      units := r.units.filter (· ≠ uid)
      savedUnits := r.savedUnits.insert u.uuid }
    let k := k.setRequest u.mainRequest r
    if r.units = [] then startMasterObjectSave codec cfg k u.mainRequest else some (.returned k)

/-- `clean_up_save_request`. -/
def cleanUpSaveRequest (k : Kernel) (u : SaveUnit) (uid : ID32) : Option Kernel :=
  (k.requests.lookup u.mainRequest).bind fun r =>
    if r.isLocal then
      let k := k.reduceStorageInputSize
      let k := if u.type = .master then { k with requests := k.requests.erase u.mainRequest } else k
      some (k.eraseUnit uid)
    else
      ((k.reduceRouterSaveInputSize u.size).removeFromBackupUnits u.mainRequest uid).map
        fun k => k.eraseUnit uid

/-- `handle_first_backup_of_save_unit`. -/
def handleFirstBackupOfSaveUnit (k : Kernel) (u : SaveUnit) (uid : ID32) : Option Ending :=
  (match u.type with
    | .master => k.processSaveConfirmForMasterObject u
    | .piece => k.processSaveConfirmForPiece codec cfg u uid).bind <| Ending.andThen fun k =>
    if cfg.dataCopyCount = 1 then
      k.cleanUpSaveRequest u uid
    else
      (k.requests.lookup u.mainRequest).bind fun r =>
        if r.isLocal then
          let k := k.reduceStorageInputSize.setUnit uid
            { u with winnersCount := u.winnersCount + 1 }
          some { k with pendingRouterSaveReqs := uid :: k.pendingRouterSaveReqs }
        else
          some k

/-- `handle_save_confirm_for_local_save_unit`. -/
def handleSaveConfirmForLocalSaveUnit (k : Kernel) (u : SaveUnit) (uid : ID32) : Option Ending :=
  let u := { u with bkpCount := u.bkpCount + 1 }
  let k := (k.setUnit uid u).write (.copied u.mainRequest u.type u.uuid)
  (if u.bkpCount = 1 then
      k.handleFirstBackupOfSaveUnit codec cfg u uid
    else if u.bkpCount = cfg.dataCopyCount then
      (((k.reduceRouterSaveInputSize u.size).removeFromBackupUnits u.mainRequest uid).map
        fun k => k.eraseUnit uid).map .returned
    else
      some (.returned k)).bind (Ending.andThen (processPendingSaveRequests cfg))

/-- `handle_no_space_for_local_save_unit`. -/
def handleNoSpaceForLocalSaveUnit (k : Kernel) (u : SaveUnit) (uid : ID32) : Option Kernel :=
  pocoAssert (u.bkpCount = 0) <|
    (k.requests.lookup u.mainRequest).bind fun r =>
      let k := (k.setRequest u.mainRequest { r with isLocal := false }).reduceStorageInputSize
      processPendingSaveRequests cfg
        { k with pendingRouterSaveReqs := uid :: k.pendingRouterSaveReqs }

/-! ### Failures -/

/-- The first loop of `process_not_backed_up_save_unit`. -/
def eraseUnits : List ID32 → Kernel → Option Kernel
  | [], k => some k
  | i :: is, k =>
    (k.saveUnits.lookup i).bind fun u =>
      eraseUnits is ((if u.backup then k.reduceRouterSaveInputSize u.size else k).eraseUnit i)

/-- The second loop of `process_not_backed_up_save_unit`. -/
def deleteSavedUnits (rid : ID32) : List UUID → Kernel → Kernel
  | [], k => k
  | u :: us, k => deleteSavedUnits rid us (k.handlePieceDelete rid u)

/-- `process_not_backed_up_save_unit`. -/
def processNotBackedUpSaveUnit (k : Kernel) (rid : ID32) (err : String) : Option Kernel :=
  (k.requests.lookup rid).bind fun r =>
    (eraseUnits r.units k).bind fun k =>
      let k := deleteSavedUnits rid r.savedUnits k
      match r.cmd with
      | .update => k.sendImsUpdateFailResponse rid r.uuid "Could not find uuid for update"
      | .save => k.sendImsSaveFailResponse rid err

/-- `handle_failed_save_unit`. -/
def handleFailedSaveUnit (k : Kernel) (u : SaveUnit) (uid : ID32) (err : String) : Option Kernel :=
  (if u.bkpCount = 0 then
      (k.write (.failedUnit u.mainRequest u.uuid)).processNotBackedUpSaveUnit u.mainRequest err
    else
      (k.removeFromBackupUnits u.mainRequest
        (if u.type = .master then u.mainRequest else uid)).map
          fun k => (k.reduceRouterSaveInputSize u.size).eraseUnit uid).bind
    (processPendingSaveRequests cfg)

/-- `handle_canceled_save_unit`. -/
def handleCanceledSaveUnit (k : Kernel) (u : SaveUnit) (uid : ID32) (err : String) :
    Option Kernel :=
  let u := { u with failCount := u.failCount + 1 }
  let k := k.setUnit uid u
  if u.failCount = maxSaveFailCount then
    k.handleFailedSaveUnit cfg u uid err
  else
    some (k.write (.tenderAgain u.mainRequest u.uuid))

/-! ### Requests of the IMS -/

/-- `should_generate_new_key`. -/
def shouldGenerateNewKey (r : Request) : Bool :=
  match r.cmd with
  | .save => r.enc
  | .update => r.enc && r.aesKey.isNone

/-- The end that `handle_save_of_unencrypted_data` and
`process_save_request_after_key_generation` share. -/
def startSave (k : Kernel) (rid : ID32) (r : Request) : Option Ending :=
  if r.masterJson.entries.length = 0 then
    startMasterObjectSave codec cfg (k.setRequest rid r) rid
  else
    ((preparePiecesForSave rid r.masterJson.toList (k.setRequest rid r)).bind
      (processPendingSaveRequests cfg)).map .returned

/-- `handle_save_of_unencrypted_data`, which also serves an encrypted update whose key is
known. -/
def handleSaveOfUnencryptedData (k : Kernel) (rid : ID32) (r : Request) : Option Ending :=
  let r := if r.cmd = .update ∧ ¬ r.enc then { r with aesKey := none } else r
  k.startSave codec cfg rid r

/-- `process_ims_save_request`. -/
def processImsSaveRequest (k : Kernel) (rid : ID32) (r : Request) (g : ℕ → UUID) : Option Ending :=
  if getDataSizeFromRequestObject r = none then
    some (.thrown (k.setRequest rid r))
  else
    let r := { r with
      masterJson := generatePiecesJson r.source.data.length g
      backupUnits := r.backupUnits.insert rid }
    if shouldGenerateNewKey r then
      some (.returned (k.setRequest rid { r with waitsFor := .genAesKey }))
    else
      k.handleSaveOfUnencryptedData codec cfg rid r

/-- `process_save_request_after_key_generation`. -/
def processSaveRequestAfterKeyGeneration (k : Kernel) (rid : ID32) (r : Request) (key : AesKey) :
    Option Ending :=
  k.startSave codec cfg rid { r with aesKey := some key, waitsFor := .nothing }

/-- `handle_save_after_piece_encrypt`; `enc` is the encrypted piece and `key` its key. -/
def handleSaveAfterPieceEncrypt (k : Kernel) (uid : ID32) (enc : Bytes) (key : AesKey) :
    Option Kernel :=
  match k.saveUnits.lookup uid with
  | none => some k
  | some u =>
    (k.requests.lookup u.mainRequest).bind fun r =>
      pocoAssert (r.enc ∧ u.type = .piece) <|
        (r.masterJson.lookup u.uuid).bind fun p =>
          let r := { r with masterJson := r.masterJson.insert u.uuid { p with aesKey := some key } }
          let k := (k.setUnit uid { u with content := enc }).setRequest u.mainRequest r
          if r.isLocal then
            some (k.postStorageSaveRequest u.mainRequest uid enc u.uuid)
          else
            some (k.backupData u.mainRequest uid u.uuid u.cmd cfg.dataCopyCount enc
              dataVersionStart)

end Kernel

end Metax
