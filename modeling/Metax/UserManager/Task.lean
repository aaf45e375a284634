import Metax.Library.Exit
import Metax.UserManager.Data

/-!
# The user manager

The handlers of `user_manager.cpp`. An exception in a handler of the kernel's packages is logged,
and the task goes on with what was done before; every other exception and every failed assertion
ends the node. `now` is a reading of the clock.

The file is always written and read without errors.
-/

namespace Metax

namespace UserManager

open Exit

namespace State

variable {J E : Type} (L : Libs J E) (s : State J E)

/-! ### Messages to the kernel and the backup task -/

/-- `send_user_json_to_kernel`. -/
def sendUserJsonToKernel (json : J) : Exit (State J E) :=
  orThrow (L.parseUuid s.userJsonUuid) s fun uuid => done (s.send (.userJson json uuid))

/-- `request_user_json_from_network`. -/
def requestUserJsonFromNetwork : Exit (State J E) :=
  orThrow (L.parseUuid s.userJsonUuid) s fun uuid => done (s.send (.get uuid))

/-- The registration for updates of the user json. -/
def registerOnUpdate : Exit (State J E) :=
  orThrow (L.parseUuid s.userJsonUuid) s fun uuid => done (s.send (.onUpdateRegister uuid))

/-- `backup_user_json`. The version is cut to 32 bits. -/
def backupUserJson (json : E) (cmd : Command) (lastUpdated : UInt64) : Exit (State J E) :=
  orThrow (L.parseUuid s.userJsonUuid) s fun uuid =>
    orThrow s.userJson s fun j =>
      orThrow j.version.get s fun version =>
        done (s.send (.backup cmd json lastUpdated version.toUInt32 uuid))

/-- `update_device_json`. -/
def updateDeviceJson (cmd : Command) : Exit (State J E) :=
  assert s.userJson.isSome <|
    orThrow s.userJson s fun j =>
      orThrow j.version.get s fun version =>
        orThrow j.lastUpdated.get s fun lastUpdated =>
          orThrow (L.parseUuid s.userJsonUuid) s fun uuid =>
            done (s.send (.deviceJson cmd version lastUpdated uuid))

/-! ### The user json -/

/-- `create_cipher`. An exception ends the node. -/
def createCipher (key iv : Text) : Exit (State J E) :=
  if L.canCreateCipher key iv then done { s with userJsonCipher := some (key, iv) } else aborted

/-- The first lines of `save_user_json`: the time of the update, and the encrypted json. -/
def encryptUserJson (j : UserJson) (cipher : Text × Text) (now : UInt64) : UserJson × E :=
  let j := { j with lastUpdated := .is now }
  (j, L.encrypt cipher.1 cipher.2 (L.stringify j))

/-- `save_user_json`. -/
def saveUserJson (cmd : Command) (now : UInt64) : Exit (State J E) :=
  assert s.userJson.isSome <| assert s.userJsonCipher.isSome <|
    orThrow s.userJson s fun j =>
      orThrow s.userJsonCipher s fun cipher =>
        let (j, euj) := encryptUserJson L j cipher now
        let s := { s with userJson := some j, file := some euj }
        (s.updateDeviceJson L cmd).andThen fun s =>
          if s.isUserJsonSaved then s.backupUserJson L euj .update now else done s

/-- `update_version`. -/
def updateVersion : Exit (State J E) :=
  orThrow s.userJson s fun j =>
    orThrow j.version.get s fun version =>
      done { s with userJson := some { j with version := .is (version + 1) } }

/-- What is done with pending changes of the user json in several handlers. -/
def saveUpdated (cmd : Command) (now : UInt64) : Exit (State J E) :=
  (s.updateVersion).andThen fun s => s.saveUserJson L cmd now

/-- The pending changes are saved and no longer pending. -/
def savePending (now : UInt64) : Exit (State J E) :=
  if s.userJsonUpdated then
    (s.saveUpdated L .update now).andThen fun s => done { s with userJsonUpdated := false }
  else done s

/-- The object `m_owned_data` points to, when the user json is replaced by another one. -/
def detach : OwnedPointer :=
  match s.ownedData with
  | .ofUserJson =>
    match s.userJson.bind fun j => j.ownedData.get with
    | some owned => .detached owned
    | none => .null
  | p => p

/-- `generate_user_json`. -/
def generateUserJson (now : UInt64) : State J E :=
  { s with
    userJson := some ⟨.is 1, .is 1, .is ∅, .is now⟩
    ownedData := .ofUserJson
    shouldSaveUserJson := true
    isUserJsonSaved := false }

/-- `parse_user_json_from_string`. The user json is replaced before it is validated. -/
def parseUserJsonFromString (json : J) (now : UInt64) : Exit (State J E) :=
  orThrow (L.parse json) s fun j =>
    let j := { j with version := j.version.orElse 1, lastUpdated := j.lastUpdated.orElse now }
    let s := { s with userJson := some j, ownedData := s.detach }
    if j.Valid then
      done { s with ownedData := if j.ownedData.get.isSome then .ofUserJson else .null }
    else threw s

/-! ### The start -/

/-- `process_user_json_get`. -/
def processUserJsonGet (now : UInt64) : Exit (State J E) :=
  match s.file with
  | some copy =>
    assert s.userJsonCipher.isSome <|
      orThrow s.userJsonCipher s fun cipher =>
        orThrow (L.decrypt cipher.1 cipher.2 copy) s fun json =>
          (s.parseUserJsonFromString L json now).andThen fun s => s.sendUserJsonToKernel L json
  | none => done { s with shouldGetUserJson := true }

/-- `init_user_json`. -/
def initUserJson (c : Config) (now : UInt64) : Exit (State J E) :=
  match c.uuid, c.aesKey, c.aesIv with
  | some uuid, some key, some iv =>
    (s.createCipher L key iv).andThen fun s =>
      let s := { s with userJsonUuid := uuid }
      assert (uuid ≠ []) <|
        if c.isGenerated then
          ((s.generateUserJson now).saveUserJson L .save now).andThen fun s =>
            orThrow s.userJson s fun j => s.sendUserJsonToKernel L (L.stringify j)
        else s.processUserJsonGet L now
  | _, _, _ => aborted

/-- `handle_config_input`. -/
def handleConfigInput (c : Config) (now : UInt64) : Option (State J E) :=
  match s.initUserJson L c now with
  | done s => some s
  | threw s => some (s.send .keyInitFail)
  | aborted => none

/-! ### Packages of the kernel -/

/-- A change of the object `m_owned_data` points to. -/
def modifyOwned (f : OwnedData → OwnedData) : Exit (State J E) :=
  match s.ownedData with
  | .null => threw s
  | .ofUserJson => done { s with
      userJson := s.userJson.map fun j => j.modifyOwned f
      userJsonUpdated := true }
  | .detached owned => done { s with ownedData := .detached (f owned), userJsonUpdated := true }

/-- `handle_kernel_save`. -/
def handleKernelSave (uuid : UUID) (info : KeyInfo) : Exit (State J E) :=
  s.modifyOwned fun owned => owned.insert uuid.text (some info)

/-- `handle_kernel_delete`. -/
def handleKernelDelete (uuid : UUID) : Exit (State J E) :=
  s.modifyOwned fun owned => owned.erase uuid.text

/-- `handle_kernel_dump_user_info`. -/
def handleKernelDumpUserInfo (requestId : ID32) (key iv : Text) (now : UInt64) :
    Exit (State J E) :=
  (if key ≠ [] ∧ iv ≠ [] then
    (s.createCipher L key iv).andThen fun s => done { s with userJsonUpdated := true }
  else done s).andThen fun s =>
    (s.savePending L now).andThen fun s => done (s.send (.saveConfirm requestId))

/-- `handle_kernel_update`. -/
def handleKernelUpdate (dataVersion : UInt32) : Exit (State J E) :=
  orThrow s.userJson s fun j =>
    orThrow j.version.get s fun version =>
      if version < dataVersion.toUInt64 then s.requestUserJsonFromNetwork L else done s

/-- `parse_recieved_user_json`. The copy is in the file before it is read. -/
def parseRecievedUserJson (copy : E) (now : UInt64) : Exit (State J E) :=
  assert s.userJsonCipher.isSome <|
    let s := { s with file := some copy }
    orThrow s.userJsonCipher s fun cipher =>
      orThrow (L.decrypt cipher.1 cipher.2 copy) s fun json =>
        (s.parseUserJsonFromString L json now).andThen fun s =>
          (s.sendUserJsonToKernel L json).andThen fun s => s.registerOnUpdate L

/-- `handle_kernel_save_fail`. -/
def handleKernelSaveFail (now : UInt64) : Exit (State J E) :=
  (s.savePending L now).andThen fun s =>
    orThrow s.userJson s fun j =>
      orThrow s.userJsonCipher s fun cipher =>
        orThrow j.lastUpdated.get s fun lastUpdated =>
          s.backupUserJson L (L.encrypt cipher.1 cipher.2 (L.stringify j)) .save lastUpdated

/-- `process_kernel_connected_request`. -/
def processKernelConnectedRequest (now : UInt64) : Exit (State J E) :=
  if s.shouldGetUserJson then
    (s.requestUserJsonFromNetwork L).andThen fun s => done { s with shouldGetUserJson := false }
  else if s.shouldSaveUserJson then
    (s.handleKernelSaveFail L now).andThen fun s => done { s with shouldSaveUserJson := false }
  else s.registerOnUpdate L

/-- `process_kernel_input`. -/
def processKernelInput (m : Message E) (now : UInt64) : Exit (State J E) :=
  match m with
  | .save uuid info => s.handleKernelSave uuid info
  | .del uuid => s.handleKernelDelete uuid
  | .dumpUserInfo requestId key iv => s.handleKernelDumpUserInfo L requestId key iv now
  | .update dataVersion => s.handleKernelUpdate L dataVersion
  | .saveData copy => s.parseRecievedUserJson L copy now
  | .connected => s.processKernelConnectedRequest L now
  | .failed => s.requestUserJsonFromNetwork L
  | .saveFail => s.handleKernelSaveFail L now
  | .saveConfirm => done { s with isUserJsonSaved := true }

/-- `handle_kernel_input`. -/
def handleKernelInput (m : Message E) (now : UInt64) : Option (State J E) :=
  (s.processKernelInput L m now).state

/-! ### The timer and the end of the task -/

/-- `handle_timer_expiration`. -/
def handleTimerExpiration (now : UInt64) : Option (State J E) :=
  (s.savePending L now).normal

/-- `handle_user_json_final_save`. -/
def handleUserJsonFinalSave (now : UInt64) : Option (State J E) :=
  Exit.normal <|
    if s.userJson.isNone then done (s.send (.deviceJson .finalize 0 0 0))
    else if s.userJsonUpdated then s.saveUpdated L .finalize now
    else s.updateDeviceJson L .finalize

end State

end UserManager

end Metax
