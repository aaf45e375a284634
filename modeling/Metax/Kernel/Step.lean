import Metax.Library.Run
import Metax.Kernel.Save

/-!
# The save path as a state machine

One event is one message the kernel takes from another task, together with what comes from
outside with it (uuids, keys). `step` is the dispatch of `handle_*_input` for the messages
that concern saves and updates. An event that the environment cannot produce in a state (an
answer nobody was asked for) has no next state.

Fetching the old master object of an update (the look-up in the storage, the get, the router,
the decryption) is another part of the kernel. Here it is one event, `oldMaster` or
`oldMasterFailed`, which comes once for each update.

The file that a request is read from belongs to somebody else, who may write or remove it at any
time: `fileChanged` is the one event that is no message.
-/

namespace Metax

/-- `ims_kernel_package::save_option`. -/
inductive SaveOption
  | default
  | noLocal
  | local
  deriving DecidableEq

/-- What the IMS sends with a save or an update. -/
structure SaveArgs where
  source : Source
  enc : Bool
  saveLocal : SaveOption
  contentType : String
  lastUpdated : ℕ
  expireDate : ℕ

/-- How fetching an old master object fails: the router has cancelled the look-up, what was
found is no master object, or it cannot be decrypted. -/
inductive FetchFailure
  | canceled
  | notValid (err : String)
  | decryptionFail (err : String)
  deriving DecidableEq

/-- The messages the save path handles, and the change of a file it reads. `createRandom` are the
uuids the generator returns while the message is handled. -/
inductive Event
  | imsSave (imsId : ID32) (args : SaveArgs) (uuid : UUID) (createRandom : ℕ → UUID)
  | imsUpdate (imsId : ID32) (args : SaveArgs) (uuid : UUID)
  | oldMaster (rid : ID32) (old : OldMaster) (key : Option AesKey) (inStorage : Bool)
      (createRandom : ℕ → UUID)
  | oldMasterFailed (rid : ID32) (failure : FetchFailure)
  | getAesKey (rid : ID32) (key : AesKey)
  | masterEncrypted (rid : ID32) (key : AesKey)
  | pieceEncrypted (uid : ID32) (key : AesKey)
  | storageSaveConfirm (id : ID32)
  | storageNoSpace (id : ID32)
  | storageFailed (id : ID32) (err : String)
  | routerSaveConfirm (id : ID32)
  | routerCancel (id : ID32)
  | routerSaveOffer (id : ID32) (winnersCount : ℕ)
  | routerAuth (id : ID32) (winnersCount : ℕ)
  | fileChanged (rid : ID32) (source : Source)

namespace Kernel

variable (codec : Codec) (cfg : KernelCfg)

/-- `should_save_in_local`. -/
def shouldSaveInLocal (l : SaveOption) : Bool :=
  match l with
  | .default => decide (1 ≤ cfg.storageClass)
  | .noLocal => false
  | .local => true

/-- The request that `handle_ims_save_request` and `handle_ims_update_request` set up. -/
def newRequest (args : SaveArgs) (uuid : UUID) (cmd : SaveCommand) (waitsFor : Wait)
    (isLocal : Bool) : Request where
  uuid := uuid
  waitsFor := waitsFor
  cmd := cmd
  source := args.source
  contentType := args.contentType
  enc := args.enc
  aesKey := none
  masterJson := ∅
  oldMasterJson := none
  units := []
  backupUnits := []
  savedUnits := []
  isLocal := isLocal
  dataVersion := dataVersionStart
  lastUpdated := args.lastUpdated
  expireDate := args.expireDate

/-- A new id for a request of the IMS. -/
def openRequest (k : Kernel) (imsId : ID32) : Kernel :=
  { k with
    requestCounter := k.requestCounter + 1
    imsReqIds := k.imsReqIds.insert k.requestCounter imsId }

/-- `handle_ims_save_request`. -/
def handleImsSaveRequest (k : Kernel) (imsId : ID32) (args : SaveArgs) (uuid : UUID)
    (g : ℕ → UUID) : Option Kernel :=
  ((k.openRequest imsId).processImsSaveRequest codec cfg k.requestCounter
    (newRequest args uuid .save .nothing (shouldSaveInLocal cfg args.saveLocal)) g).map
      Ending.kernel

/-- `handle_ims_update_request`: the old master object is looked up first. -/
def handleImsUpdateRequest (k : Kernel) (imsId : ID32) (args : SaveArgs) (uuid : UUID) : Kernel :=
  (k.openRequest imsId).setRequest k.requestCounter (newRequest args uuid .update .oldMaster true)

/-- `process_ims_update_request`. -/
def processImsUpdateRequest (k : Kernel) (rid : ID32) (r : Request) (g : ℕ → UUID) :
    Option Ending :=
  r.oldMasterJson.bind fun old =>
    match increaseVersion old.version with
    | none => some (.thrown (k.setRequest rid r))
    | some v => k.processImsSaveRequest codec cfg rid { r with dataVersion := v } g

/-- The request once `parse_master_object` has read the old master object; `key` is the key of the
object if it is encrypted, and `inStorage` whether the storage had it. -/
def withOldMaster (r : Request) (old : OldMaster) (key : Option AesKey) (inStorage : Bool) :
    Request :=
  { r with
    waitsFor := .nothing
    oldMasterJson := some old
    aesKey := key
    isLocal := inStorage
    contentType := if r.contentType.isEmpty then old.contentType else r.contentType }

/-- The end of an update whose old master object is not to be had: `handle_failed_request`,
`handle_failed_ims_update_request`, which also removes the request, and the case of `update` in
`handle_key_manager_decryption_fail_request`. -/
def failUpdate (k : Kernel) (rid : ID32) (r : Request) : FetchFailure → Option Kernel
  | .canceled =>
    (k.sendImsUpdateFailResponse rid r.uuid "UUID is not found.").map fun k =>
      { k with requests := k.requests.erase rid }
  | .notValid err =>
    ((k.setRequest rid { r with waitsFor := .nothing }).sendImsUpdateFailResponse rid r.uuid
      err).bind (processPendingSaveRequests cfg)
  | .decryptionFail err =>
    (k.setRequest rid { r with waitsFor := .nothing }).sendImsUpdateFailResponse rid r.uuid err

/-- `handle_unencrypted_master_object` for a master object that was read: an exception that
comes later fails the update as one of the reading does. -/
def handleUnencryptedMasterObject (k : Kernel) (rid : ID32) (r : Request) (old : OldMaster)
    (key : Option AesKey) (inStorage : Bool) (g : ℕ → UUID) : Option Kernel :=
  ((k.write (.gotOldMaster rid old)).processImsUpdateRequest codec cfg rid
    (withOldMaster r old key inStorage) g).bind fun e =>
      match e with
      | .returned k => some k
      | .thrown k => (k.requests.lookup rid).bind fun r => k.failUpdate cfg rid r
          (.notValid "Master object is not valid or encrypted but key not found.")

/-- `handle_router_save_offer` and `handle_update_auth_request`: the content of the unit is
sent. -/
def sendUnitContent (k : Kernel) (uid : ID32) (u : SaveUnit) (receiver : Receiver)
    (winnersCount : ℕ) : Kernel :=
  (k.setUnit uid { u with winnersCount := (u.winnersCount + winnersCount) % 2 ^ 16 }).write
    (.handed u.mainRequest receiver u.uuid u.content)

/-- A unit the storage or the router answers for, and what is done for it. Answers for a unit
that is no longer there are dropped. -/
def forUnit (k : Kernel) (uid : ID32) (f : SaveUnit → Option Kernel) : Option Kernel :=
  match k.saveUnits.lookup uid with
  | none => some k
  | some u => f u

/-- `handle_key_manager_encrypted_request` for a master object. The key manager uses the key
of the request, or `key` if it came with none. -/
def handleMasterEncrypted (k : Kernel) (rid : ID32) (r : Request) (key : AesKey) :
    Option Kernel :=
  match r.waitsFor with
  | .encryption pkg =>
    (k.setRequest rid { r with waitsFor := .nothing }).saveMasterObject cfg rid
      (codec.encrypt (r.aesKey.getD key) pkg)
  | _ => none

/-- `handle_key_manager_encrypted_request` for a piece; `key` is what the key manager made. -/
def handlePieceEncrypted (k : Kernel) (uid : ID32) (key : AesKey) : Option Kernel :=
  match k.posted.lookup uid with
  | some (.encryptPiece pkg _) =>
    (k.answered uid).handleSaveAfterPieceEncrypt cfg uid (codec.encrypt key pkg) key
  | _ => none

/-- One event. -/
def step (k : Kernel) : Event → Option Kernel
  | .imsSave imsId args uuid g => k.handleImsSaveRequest codec cfg imsId args uuid g
  | .imsUpdate imsId args uuid => some (k.handleImsUpdateRequest imsId args uuid)
  | .oldMaster rid old key inStorage g =>
    (k.requests.lookup rid).bind fun r =>
      pocoAssert (r.waitsFor = .oldMaster) <|
        k.handleUnencryptedMasterObject codec cfg rid r old key inStorage g
  | .oldMasterFailed rid failure =>
    (k.requests.lookup rid).bind fun r =>
      pocoAssert (r.waitsFor = .oldMaster) <| k.failUpdate cfg rid r failure
  | .getAesKey rid key =>
    (k.requests.lookup rid).bind fun r =>
      pocoAssert (r.waitsFor = .genAesKey) <|
        (k.processSaveRequestAfterKeyGeneration codec cfg rid r key).map Ending.kernel
  | .masterEncrypted rid key =>
    (k.requests.lookup rid).bind fun r => k.handleMasterEncrypted codec cfg rid r key
  | .pieceEncrypted uid key => k.handlePieceEncrypted codec cfg uid key
  | .storageSaveConfirm id =>
    pocoAssert (k.posted.lookup id = some .saveData) <|
      (k.answered id).forUnit id fun u =>
        ((k.answered id).handleSaveConfirmForLocalSaveUnit codec cfg u id).map Ending.kernel
  | .storageNoSpace id =>
    pocoAssert (k.posted.lookup id = some .saveData) <|
      (k.answered id).forUnit id fun u =>
        (k.answered id).handleNoSpaceForLocalSaveUnit cfg u id
  | .storageFailed id err =>
    pocoAssert (k.posted.lookup id = some .saveData) <|
      (k.answered id).forUnit id fun u =>
        (k.answered id).handleCanceledSaveUnit cfg u id err
  | .routerSaveConfirm id =>
    pocoAssert (k.posted.lookup id = some .tender) <|
      k.forUnit id fun u =>
        (k.handleSaveConfirmForLocalSaveUnit codec cfg u id).map Ending.kernel
  | .routerCancel id =>
    pocoAssert (k.posted.lookup id = some .tender) <|
      k.forUnit id fun u => k.handleCanceledSaveUnit cfg u id "Failed to save."
  | .routerSaveOffer id winnersCount =>
    pocoAssert (k.posted.lookup id = some .tender) <|
      k.forUnit id fun u => some (k.sendUnitContent id u .saveOffer winnersCount)
  | .routerAuth id winnersCount =>
    pocoAssert (k.posted.lookup id = some .tender) <|
      k.forUnit id fun u => some (k.sendUnitContent id u .authData winnersCount)
  | .fileChanged rid source =>
    (k.requests.lookup rid).bind fun r =>
      pocoAssert (r.source.isFile = true ∧ source.isFile = true) <|
        some (k.setRequest rid { r with source := source })

end Kernel

end Metax
